import Athar.Lifecycle.Interchange
import Athar.Lifecycle.Splitting
import Athar.Lifecycle.WellFormed

/-!
This module contains what one sweep does. It closes the open lifecycles that saw no event for too long and
no others, and a second sweep at the same time finds nothing to do. But it writes whole lifecycles back,
which binds every event they list to them again, also an event that another lifecycle lists and holds.
-/

namespace Athar

open LifecycleStore LawfulLifecycleStore LifecycleEngine StalenessScanner

-- The lifecycle is open and had its last event at least its staleness threshold ago.
def Lifecycle.Overdue (lc : Lifecycle) (nowMs : Nat) : Prop :=
  lc.closure = .open ∧ lc.stalenessMs ≤ nowMs - lc.lastEventAtMs

-- Only the state, the closure and its time have changed.
structure Lifecycle.TimedOut (lc old : Lifecycle) (nowMs : Nat) : Prop where
  state_eq : (old.state = .started ∧ lc.state = .abandoned)
    ∨ ((old.state = .processing ∨ old.state = .pending) ∧ lc.state = .timeout)
  rest_eq : lc = { old with
    state := lc.state
    closure := .closedWithUncertainty
    closedAtMs := some nowMs }

section

variable {σ : Type} [LifecycleStore σ]

structure SweepsExactly (s : σ) (order : IterationOrder) (nowMs : Nat) : Prop where
  closes : ∀ id lc, get s id = some lc → lc.Overdue nowMs →
    ∃ lc', get (sweep s order nowMs).1 id = some lc' ∧ lc'.TimedOut lc nowMs
  keeps : ∀ id, (∀ lc, get s id = some lc → ¬lc.Overdue nowMs) →
    get (sweep s order nowMs).1 id = get s id
  reports : ∀ result, result ∈ (sweep s order nowMs).2
    ↔ ∃ lc lc', get s result.lifecycleId = some lc ∧ lc.Overdue nowMs
      ∧ get (sweep s order nowMs).1 result.lifecycleId = some lc'
      ∧ result.atMs = nowMs ∧ result.wasState = lc.state ∧ result.newState = lc'.state
  reportsOnce : ((sweep s order nowMs).2.map (·.lifecycleId)).Nodup
  resources : ∀ r, findByResource (sweep s order nowMs).1 r = findByResource s r
  businessKeys : ∀ k, findByBusinessKey (sweep s order nowMs).1 k = findByBusinessKey s k
  events : ∀ eventId, findByEvent (sweep s order nowMs).1 eventId = findByEvent s eventId
  again : ∀ order', sweep (sweep s order nowMs).1 order' nowMs = ((sweep s order nowMs).1, [])

-- Of the lifecycles to close that list an event, the last one in the order of the sweep is bound to it.
def LastHolds (s : σ) (order : IterationOrder) (nowMs : Nat) : Prop :=
  ∀ eventId id, lastBinding nowMs (snapshot s order) eventId = some id →
    findByEvent s eventId = some id

theorem foldl_sweepOne_of_not_stale {nowMs : Nat} {lcs : List Lifecycle}
    (h : ∀ lc ∈ lcs, ¬lc.Stale nowMs) (acc : σ × List StalenessResult)
    : lcs.foldl (sweepOne nowMs) acc = acc := by
  induction lcs with
  | nil => rfl
  | cons lc lcs ih =>
    rw [List.foldl_cons, sweepOne_of_not_stale (h lc (by simp))]
    exact ih (fun lc' hlc' => h lc' (by simp [hlc']))

theorem sweep_results (s : σ) (order : IterationOrder) (nowMs : Nat)
    : (sweep s order nowMs).2
        = ((snapshot s order).filter (·.Stale nowMs)).map (staleResult nowMs) := by
  unfold sweep
  rw [foldl_sweepOne_results, List.nil_append]

variable [LawfulLifecycleStore σ]

theorem get_sweep_of_overdue {s : σ} (h : Inv s) {id : String} {lc : Lifecycle}
    (hget : get s id = some lc) {nowMs : Nat} (hoverdue : lc.Overdue nowMs) (order : IterationOrder)
    : get (sweep s order nowMs).1 id = some (lc.timedOut nowMs) := by
  rw [(sweep_spec h order nowMs).2.1, hget, Option.map_some]
  exact congrArg some (if_pos hoverdue)

theorem get_sweep_of_not_overdue {s : σ} (h : Inv s) {id : String} {nowMs : Nat}
    (hnone : ∀ lc, get s id = some lc → ¬lc.Overdue nowMs) (order : IterationOrder)
    : get (sweep s order nowMs).1 id = get s id := by
  rw [(sweep_spec h order nowMs).2.1]
  cases hget : get s id with
  | none => rfl
  | some lc => exact congrArg some (if_neg (hnone lc hget))

theorem mem_snapshot {s : σ} (h : Inv s) (order : IterationOrder) {lc : Lifecycle}
    : lc ∈ snapshot s order ↔ get s lc.id = some lc ∧ lc.closure = .open := by
  rw [← mem_allOpen h]
  exact (order.perm (allOpen s)).mem_iff

theorem mem_sweep_results {s : σ} (h : Inv s) (order : IterationOrder) (nowMs : Nat)
    (result : StalenessResult)
    : result ∈ (sweep s order nowMs).2
        ↔ ∃ lc, get s lc.id = some lc ∧ lc.Overdue nowMs ∧ staleResult nowMs lc = result := by
  rw [sweep_results, List.mem_map]
  constructor
  . rintro ⟨lc, hlc, heq⟩
    rw [List.mem_filter, mem_snapshot h, decide_eq_true_iff] at hlc
    exact ⟨lc, hlc.1.1, ⟨hlc.1.2, hlc.2⟩, heq⟩
  . rintro ⟨lc, hget, ⟨hopen, hstale⟩, heq⟩
    refine ⟨lc, ?_, heq⟩
    rw [List.mem_filter, mem_snapshot h, decide_eq_true_iff]
    exact ⟨⟨hget, hopen⟩, hstale⟩

theorem nodup_sweep_results {s : σ} (h : Inv s) (order : IterationOrder) (nowMs : Nat)
    : ((sweep s order nowMs).2.map (·.lifecycleId)).Nodup := by
  rw [sweep_results, List.map_map]
  exact (snapshot_stored h order).1.sublist (List.filter_sublist.map _)

-- What is open after a sweep is not overdue.
theorem sweep_again {s : σ} (h : Inv s) (order order' : IterationOrder) (nowMs : Nat)
    : sweep (sweep s order nowMs).1 order' nowMs = ((sweep s order nowMs).1, []) := by
  rcases sweep_spec h order nowMs with ⟨hinv, hget, _⟩
  apply foldl_sweepOne_of_not_stale
  intro lc hlc hstale
  rcases (mem_snapshot hinv order').mp hlc with ⟨hstored, hopen⟩
  rw [hget, Option.map_eq_some_iff] at hstored
  rcases hstored with ⟨old, _, hswept⟩
  unfold Lifecycle.swept at hswept
  split at hswept
  . rw [← hswept] at hopen
    contradiction
  . next hnot =>
    rw [hswept] at hnot
    exact hnot ⟨hopen, hstale⟩

theorem Lifecycle.WellFormed.timedOut_timedOut {lc : Lifecycle} (h : lc.WellFormed) {nowMs : Nat}
    (hoverdue : lc.Overdue nowMs) : (lc.timedOut nowMs).TimedOut lc nowMs := by
  constructor
  . have hnew : (lc.timedOut nowMs).state = timeoutStateFor lc.state := rfl
    rw [hnew]
    rcases h.agrees.2.1 hoverdue.1 with hstate | hstate | hstate
    . exact .inl ⟨hstate, by rw [hstate]; rfl⟩
    . exact .inr ⟨.inl hstate, by rw [hstate]; rfl⟩
    . exact .inr ⟨.inr hstate, by rw [hstate]; rfl⟩
  . rfl

theorem sweepsExactly_iff {s : σ} (h : Inv s) (hall : AllStored Lifecycle.WellFormed s)
    (order : IterationOrder) (nowMs : Nat) : SweepsExactly s order nowMs ↔ LastHolds s order nowMs := by
  rcases sweep_find h order nowMs with ⟨hresource, hkey, hevent⟩
  constructor
  . intro hexact eventId id hlast
    have hsame := hexact.events eventId
    rw [hevent, hlast, Option.some_or] at hsame
    exact hsame.symm
  . intro hholds
    constructor
    . intro id lc hget hoverdue
      exact ⟨_, get_sweep_of_overdue h hget hoverdue order, (hall id lc hget).timedOut_timedOut hoverdue⟩
    . intro id hnone
      exact get_sweep_of_not_overdue h hnone order
    . intro result
      rw [mem_sweep_results h]
      constructor
      . rintro ⟨lc, hget, hoverdue, rfl⟩
        exact ⟨lc, _, hget, hoverdue, get_sweep_of_overdue h hget hoverdue order, rfl, rfl, rfl⟩
      . rintro ⟨lc, lc', hget, hoverdue, hget', hat, hwas, hnew⟩
        rw [get_sweep_of_overdue h hget hoverdue, Option.some.injEq] at hget'
        refine ⟨lc, get_self h hget, hoverdue, ?_⟩
        rcases result with ⟨lifecycleId, atMs, wasState, newState⟩
        dsimp only at hget hat hwas hnew
        rw [hat, hwas, hnew, ← hget', ← get_id h hget]
        rfl
    . exact nodup_sweep_results h order nowMs
    . exact hresource
    . exact hkey
    . intro eventId
      rw [hevent]
      cases hlast : lastBinding nowMs (snapshot s order) eventId with
      | none => rfl
      | some id => exact (hholds eventId id hlast).symm
    . intro order'
      exact sweep_again h order order' nowMs

end

/--
In every state that the engine and the scanner reach over either store, a sweep closes exactly the
overdue lifecycles and changes nothing else if and only if each event that they list is bound to the last
of those that list it.
-/
theorem sweepsExactly_iff_lastHolds (backend : Backend) (calls : List EngineCall)
    (order : IterationOrder) (nowMs : Nat)
    : SweepsExactly (Run.exec EngineCall.step (DynStore.empty backend) calls) order nowMs
        ↔ LastHolds (Run.exec EngineCall.step (DynStore.empty backend) calls) order nowMs := by
  rcases (always_inv_wellFormed backend calls).last with ⟨hinv, hall⟩
  exact sweepsExactly_iff hinv hall order nowMs

/-
The second event is bound by its resource. It is delivered again when a lifecycle is known by its
operation, and is bound to that one.
-/
def redelivered : List EngineCall :=
  [.apply (paymentEvent "payment.create" "e1" "tnt_a" "pay_1") 0,
    .apply (withOperation (paymentEvent "payment.process" "e2" "tnt_a" "pay_1") "op_1") 0,
    .apply (withOperation (paymentEvent "payment.create" "e3" "tnt_a" "pay_2") "op_1") 3000000,
    .apply (withOperation (paymentEvent "payment.process" "e2" "tnt_a" "pay_1") "op_1") 3000000]

-- The sweep closes the first lifecycle only, and takes the event from the second.
theorem redelivered_taken_back
    : ¬SweepsExactly (Run.exec EngineCall.step (DynStore.empty .inMemory) redelivered) .asStored 3600000
        ∧ ¬SweepsExactly (Run.exec EngineCall.step (DynStore.empty .sqlite) redelivered) .asStored
          3600000 := by
  constructor
  . intro h
    have hevent := h.events "e2"
    revert hevent
    decide +kernel
  . intro h
    have hevent := h.events "e2"
    revert hevent
    decide +kernel

end Athar
