import Athar.Detection.Targets
import Athar.Detection.TenantIsolation
import Athar.Detection.Velocity

/-!
This module contains how much the signal engine remembers. The trackers limit their subjects, and the
target tracker the targets of each, but nothing limits the resources that are known and the samples in
one window of a velocity tracker.
-/

namespace Athar

-- The entries of a tracker are those of its windows and of its LRU list.
def TargetTracker.entries (t : TargetTracker) : Nat :=
  t.windows.stored List.length + t.windows.order.length

def VelocityTracker.entries (t : VelocityTracker) : Nat :=
  t.windows.stored List.length + t.windows.order.length

/--
The target tracker limits both dimensions, whatever it is called with.
-/
theorem TargetTracker.entries_le (config : TargetConfig) (calls : List Call)
    : (run config calls).entries ≤ max 1 config.maxSubjects * config.room + max 1 config.maxSubjects := by
  have hbounded : Lru.Bounded config.maxSubjects
      (Run.exec (Lru.step config.maxSubjects [] config.sample) .empty calls) := Lru.bounded_run calls
  have hstored := Lru.stored_le (forall_length_le config calls)
  have horder := hbounded.order.length_eq
  have hproduct := Nat.mul_le_mul_right config.room hbounded.length_le
  unfold entries
  rw [run_eq] at hstored ⊢
  dsimp only at hstored ⊢
  have := hbounded.length_le
  omega

namespace SignalEngine

variable {f : Floats}

def entries (engine : SignalEngine f) : Nat :=
  engine.known.length + engine.velocity.entries + engine.credstuff.entries + engine.targets.entries

def run (config : SignalEngineConfig f) (inputs : List (Event × Nat)) : SignalEngine f :=
  Run.exec (fun engine input => (engine.evaluate input.1 input.2).1) (new config) inputs

def BoundedState (config : SignalEngineConfig f) : Prop :=
  ∃ bound, ∀ inputs, (run config inputs).entries ≤ bound

theorem evaluate_fields (engine : SignalEngine f) (event : Event) (nowMs : Nat)
    : (engine.evaluate event nowMs).1.known = (engine.observeResource event).1.known
        ∧ (engine.evaluate event nowMs).1.velocity = (engine.velocity.observe event.subject nowMs).1 := by
  unfold evaluate
  have hresource : (engine.observeResource event).1.velocity = engine.velocity := by
    unfold observeResource
    split
    . rfl
    . dsimp only
      split <;> rfl
  have hfailure (e : SignalEngine f) : (e.observeFailure event nowMs).1.known = e.known
      ∧ (e.observeFailure event nowMs).1.velocity = e.velocity := by
    unfold observeFailure
    split <;> exact ⟨rfl, rfl⟩
  have htarget (e : SignalEngine f) : (e.observeTarget event nowMs).1.known = e.known
      ∧ (e.observeTarget event nowMs).1.velocity = e.velocity := by
    unfold observeTarget
    split <;> exact ⟨rfl, rfl⟩
  dsimp only
  rw [(htarget _).1, (hfailure _).1, (htarget _).2, (hfailure _).2, ← hresource]
  exact ⟨rfl, rfl⟩

theorem run_append (config : SignalEngineConfig f) (inputs : List (Event × Nat)) (input : Event × Nat)
    : run config (inputs ++ [input]) = ((run config inputs).evaluate input.1 input.2).1 := by
  unfold run
  rw [Run.exec_append, Run.exec_cons, Run.exec_nil]

-- The resources r, rr, rrr and so on, each in an event of its own, at whatever times.
def freshResource (i : Nat) : Event :=
  paymentEvent "payment.create" "e1" "tnt_a" (String.ofList (List.replicate i 'r'))

def freshKey (i : Nat) : String :=
  (freshResource i).knownKey (String.ofList (List.replicate i 'r'))

def freshResources (clock : Nat → Nat) (n : Nat) : List (Event × Nat) :=
  (List.range n).map fun i => (freshResource i, clock i)

theorem freshResources_succ (clock : Nat → Nat) (n : Nat)
    : freshResources clock (n + 1) = freshResources clock n ++ [(freshResource n, clock n)] := by
  unfold freshResources
  rw [List.range_succ, List.map_append]
  rfl

theorem freshKey_inj {i j : Nat} (h : freshKey i = freshKey j) : i = j := by
  unfold freshKey Event.knownKey at h
  have hlength := congrArg String.length h
  simpa [freshResource, paymentEvent] using hlength

theorem known_observeResource {engine : SignalEngine f} {event : Event} {rid : String}
    (hrid : event.resource.bind (·.id) = some rid) (hnew : event.knownKey rid ∉ engine.known)
    : (engine.observeResource event).1.known = event.knownKey rid :: engine.known := by
  unfold observeResource
  rw [hrid]
  dsimp only
  rw [if_neg hnew]

theorem known_freshResources (config : SignalEngineConfig f) (clock : Nat → Nat) (n : Nat)
    : (run config (freshResources clock n)).known = ((List.range n).map freshKey).reverse := by
  induction n with
  | zero => rfl
  | succ n ih =>
    have hnew : freshKey n ∉ (run config (freshResources clock n)).known := by
      rw [ih, List.mem_reverse]
      intro hmem
      rcases List.mem_map.mp hmem with ⟨i, hi, hkey⟩
      have := freshKey_inj hkey
      have := List.mem_range.mp hi
      omega
    rw [freshResources_succ, run_append, (evaluate_fields _ _ _).1, known_observeResource rfl hnew, ih,
      List.range_succ, List.map_append, List.reverse_append]
    rfl

/--
Every configuration lets the known resources grow without limit, whatever the clock shows.
-/
theorem known_unbounded (config : SignalEngineConfig f) (clock : Nat → Nat) (n : Nat)
    : (run config (freshResources clock n)).known.length = n := by
  rw [known_freshResources, List.length_reverse, List.length_map, List.length_range]

theorem retained_repeated (config : SignalEngineConfig f) (event : Event) (nowMs n : Nat)
    : (run config (List.replicate n (event, nowMs))).velocity.retained event.subject
        = List.replicate n nowMs := by
  induction n with
  | zero => rfl
  | succ n ih =>
    have hfresh : (run config (List.replicate n (event, nowMs))).velocity.config.sample nowMs
        (List.replicate n nowMs) = List.replicate n nowMs ++ [nowMs] := by
      unfold VelocityConfig.sample
      cases n <;> simp [List.replicate_succ]
    rw [List.replicate_succ', run_append, (evaluate_fields _ _ _).2, List.replicate_succ', ← hfresh, ← ih]
    exact VelocityTracker.retained_step _ (event.subject, nowMs)

/--
So do the samples of one subject, as long as the clock stands still.
-/
theorem velocity_unbounded (config : SignalEngineConfig f) (event : Event) (nowMs n : Nat)
    : n ≤ (run config (List.replicate n (event, nowMs))).velocity.windows.stored List.length := by
  have hle : ((run config (List.replicate n (event, nowMs))).velocity.retained event.subject).length
      ≤ (run config (List.replicate n (event, nowMs))).velocity.windows.stored List.length :=
    Lru.size_value_le_stored List.length _ event.subject rfl
  rwa [retained_repeated, List.length_replicate] at hle

/--
There is no configuration for which the state is bounded.
-/
theorem state_unbounded (config : SignalEngineConfig f) : ¬BoundedState config := by
  rintro ⟨bound, hbound⟩
  have hentries := hbound (freshResources id (bound + 1))
  have hknown := known_unbounded config id (bound + 1)
  unfold entries at hentries
  omega

theorem defaultSignals_unbounded
    : ¬∀ (f : Floats) (config : SignalEngineConfig f), BoundedState config := by
  intro hclaim
  rcases hclaim Floats.rational defaultSignals with ⟨bound, hbound⟩
  have hentries := hbound (freshResources id (bound + 1))
  have hknown := known_unbounded defaultSignals id (bound + 1)
  unfold entries at hentries
  omega

end SignalEngine

end Athar
