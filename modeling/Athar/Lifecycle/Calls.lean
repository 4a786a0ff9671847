import Athar.Lib.Run
import Athar.Lifecycle.Lemmas.Engine

/-!
This module contains the two clients of a lifecycle store, the engine and the scanner, as steps that
each run to their end, and the invariants that hold of a store whatever events they see.
-/

namespace Athar

open LifecycleStore LawfulLifecycleStore LifecycleEngine

inductive EngineCall where
  | apply (event : Event) (nowMs : Nat)
  | sweep (order : IterationOrder) (nowMs : Nat)

variable {σ : Type} [LifecycleStore σ]

def EngineCall.step (s : σ) : EngineCall → σ
  | .apply event nowMs => (LifecycleEngine.apply s event nowMs).1
  | .sweep order nowMs => (StalenessScanner.sweep s order nowMs).1

def Lifecycle.swept (lc : Lifecycle) (nowMs : Nat) : Lifecycle :=
  if lc.closure = .open ∧ lc.Stale nowMs then lc.timedOut nowMs else lc

theorem Lifecycle.swept_of_closed {lc : Lifecycle} (h : lc.closure.isClosed) (nowMs : Nat)
    : lc.swept nowMs = lc := by
  unfold Lifecycle.swept
  rw [if_neg]
  rintro ⟨hopen, _⟩
  rw [hopen] at h
  contradiction

variable [LawfulLifecycleStore σ]

namespace StalenessScanner

omit [LawfulLifecycleStore σ] in
theorem sweepOne_of_stale {lc : Lifecycle} {nowMs : Nat} (h : lc.Stale nowMs) (s : σ)
    (results : List StalenessResult)
    : sweepOne nowMs (s, results) lc
        = (upsert s (lc.timedOut nowMs),
          results ++ [⟨lc.id, nowMs, lc.state, timeoutStateFor lc.state⟩]) := by
  rw [sweepOne, if_pos h]

omit [LawfulLifecycleStore σ] in
theorem sweepOne_of_not_stale {lc : Lifecycle} {nowMs : Nat} (h : ¬lc.Stale nowMs) (s : σ)
    (results : List StalenessResult) : sweepOne nowMs (s, results) lc = (s, results) := by
  rw [sweepOne, if_neg h]

-- Induction over the snapshot, whose copies are all still the stored ones when their turn comes.
theorem foldl_sweepOne {s : σ} (h : Inv s) {lcs : List Lifecycle} (hnodup : (lcs.map (·.id)).Nodup)
    (hstored : ∀ lc ∈ lcs, get s lc.id = some lc) (nowMs : Nat) (results : List StalenessResult)
    : Inv (lcs.foldl (sweepOne nowMs) (s, results)).1
      ∧ (∀ id, get (lcs.foldl (sweepOne nowMs) (s, results)).1 id
          = (get s id).map
            (fun lc => if lc ∈ lcs ∧ lc.Stale nowMs then lc.timedOut nowMs else lc))
      ∧ Keeps s (lcs.foldl (sweepOne nowMs) (s, results)).1 := by
  induction lcs generalizing s results with
  | nil => simp [h, Keeps.refl]
  | cons lc lcs ih =>
    rw [List.map_cons, List.nodup_cons] at hnodup
    have hlc := hstored lc (by simp)
    have hrest : ∀ lc' ∈ lcs, lc'.id ≠ lc.id := by
      intro lc' hlc' heq
      apply hnodup.1
      rw [← heq]
      exact List.mem_map_of_mem hlc'
    rw [List.foldl_cons]
    by_cases hstale : lc.Stale nowMs
    . rw [sweepOne_of_stale hstale]
      have hfits := fits_of_revises h hlc (lc.timedOut_revises nowMs)
      have hget := get_upsert h hfits
      have hid : (lc.timedOut nowMs).id = lc.id := by rfl
      rw [hid] at hget
      have hstored' : ∀ lc' ∈ lcs, get (upsert s (lc.timedOut nowMs)) lc'.id = some lc' := by
        intro lc' hlc'
        rw [hget, if_neg (hrest lc' hlc')]
        exact hstored lc' (by simp [hlc'])
      have hkeeps := keeps_upsert h hfits ((lc.timedOut_revises nowMs).of_get hlc)
      rcases ih (inv_upsert h hfits) hnodup.2 hstored' _ with ⟨hinv, hih, hrestKeeps⟩
      refine ⟨hinv, ?_, hkeeps.trans hrestKeeps⟩
      intro id
      rw [hih, hget]
      split
      . next heq =>
        have hnot : lc.timedOut nowMs ∉ lcs := fun hmem => hrest _ hmem hid
        rw [heq, hlc]
        simp [hnot, hstale]
      . next hne =>
        apply Option.map_congr
        intro lc' hlc'
        have : lc' ≠ lc := by
          intro heq
          rw [heq] at hlc'
          exact hne (get_id h hlc').symm
        simp [this]
    . rw [sweepOne_of_not_stale hstale]
      have hstored' : ∀ lc' ∈ lcs, get s lc'.id = some lc' := by
        intro lc' hlc'
        exact hstored lc' (by simp [hlc'])
      rcases ih h hnodup.2 hstored' results with ⟨hinv, hih, hrestKeeps⟩
      refine ⟨hinv, ?_, hrestKeeps⟩
      intro id
      rw [hih]
      apply Option.map_congr
      intro lc' _
      by_cases heq : lc' = lc
      . subst heq
        simp [hstale]
      . simp [heq]

theorem sweep_spec {s : σ} (h : Inv s) (order : IterationOrder) (nowMs : Nat)
    : Inv (sweep s order nowMs).1
      ∧ (∀ id, get (sweep s order nowMs).1 id = (get s id).map (·.swept nowMs))
      ∧ Keeps s (sweep s order nowMs).1 := by
  have hperm : (snapshot s order).Perm (allOpen s) := order.perm (allOpen s)
  have hnodup : ((snapshot s order).map (·.id)).Nodup := by
    rw [(hperm.map _).nodup_iff]
    exact nodup_allOpen h
  have hmem : ∀ lc, lc ∈ snapshot s order ↔ get s lc.id = some lc ∧ lc.closure = .open := by
    intro lc
    rw [← mem_allOpen h]
    exact hperm.mem_iff
  rcases foldl_sweepOne h hnodup (fun lc hlc => ((hmem lc).mp hlc).1) nowMs []
    with ⟨hinv, hget, hkeeps⟩
  refine ⟨hinv, ?_, hkeeps⟩
  intro id
  unfold sweep
  rw [hget]
  apply Option.map_congr
  intro lc hlc
  unfold Lifecycle.swept
  have : lc ∈ snapshot s order ↔ lc.closure = .open := by
    rw [hmem, get_self h hlc]
    simp
  simp [this]

end StalenessScanner

theorem EngineCall.inv_step {s : σ} (h : Inv s) (call : EngineCall) : Inv (call.step s) := by
  cases call with
  | apply event nowMs => exact (apply_applied s event nowMs).inv h
  | sweep order nowMs => exact (StalenessScanner.sweep_spec h order nowMs).1

-- Each of the four ways in which a lifecycle is written keeps the property.
structure Lifecycle.Preserved (P : Lifecycle → Prop) : Prop where
  withLateEvent : ∀ lc event nowMs, lc.closure.isClosed → P lc → P (lc.withLateEvent event nowMs)
  withEvent : ∀ lc event tier nowMs, ¬lc.closure.isClosed → P lc →
    P (lc.withEvent event tier nowMs)
  timedOut : ∀ lc nowMs, lc.closure = .open → P lc → P (lc.timedOut nowMs)
  create : ∀ event lct rid key nowMs, startKeys event = some (lct, rid, key) →
    P (Lifecycle.create event lct rid key nowMs)

def AllStored (P : Lifecycle → Prop) (s : σ) : Prop :=
  ∀ id lc, get s id = some lc → P lc

theorem AllStored.upsert {P : Lifecycle → Prop} {s : σ} (h : Inv s) (hall : AllStored P s)
    {lc : Lifecycle} (hfits : Fits s lc) (hlc : P lc) : AllStored P (upsert s lc) := by
  intro id lc' hget
  rw [get_upsert h hfits] at hget
  split at hget
  . rw [← Option.some.inj hget]
    exact hlc
  . exact hall id lc' hget

theorem AllStored.recordEvent {P : Lifecycle → Prop} {s : σ} (hall : AllStored P s)
    (eventId id : String) : AllStored P (recordEvent s eventId id) := by
  intro id' lc hget
  rw [get_recordEvent] at hget
  exact hall id' lc hget

theorem LifecycleEngine.Applied.allStored {P : Lifecycle → Prop} (hP : Lifecycle.Preserved P)
    {s s' : σ} (h : Inv s) (hall : AllStored P s) {event : Event} {nowMs : Nat}
    {outcome : ApplyOutcome} (happlied : Applied s event nowMs s' outcome) : AllStored P s' := by
  cases happlied with
  | unbound => exact hall
  | @late id tier lc hcorr hget hclosed =>
    have hfits := fits_of_revises h (get_self h hget) (lc.withLateEvent_revises event nowMs)
    exact hall.upsert h hfits (hP.withLateEvent lc event nowMs hclosed (hall id lc hget))
  | @updated id tier lc hcorr hget hopen =>
    have hfits := fits_of_revises h (get_self h hget) (lc.withEvent_revises event tier nowMs)
    apply AllStored.recordEvent
    exact hall.upsert h hfits (hP.withEvent lc event tier nowMs hopen (hall id lc hget))
  | @created lct rid key hcorr =>
    apply AllStored.recordEvent
    exact hall.upsert h (fits_of_new hcorr nowMs)
      (hP.create event lct rid key nowMs (startKeys_of_new hcorr))

theorem EngineCall.allStored_step {P : Lifecycle → Prop} (hP : Lifecycle.Preserved P) {s : σ}
    (h : Inv s) (hall : AllStored P s) (call : EngineCall) : AllStored P (call.step s) := by
  cases call with
  | apply event nowMs => exact (apply_applied s event nowMs).allStored hP h hall
  | sweep order nowMs =>
    intro id lc hget
    have hsweep := (StalenessScanner.sweep_spec h order nowMs).2.1 id
    unfold EngineCall.step at hget
    rw [hsweep, Option.map_eq_some_iff] at hget
    rcases hget with ⟨old, hold, rfl⟩
    unfold Lifecycle.swept
    split
    . next hopen => exact hP.timedOut old nowMs hopen.1 (hall id old hold)
    . exact hall id old hold

-- Every lifecycle was started under a resource or a business key, and keeps it.
def HasKeys (s : σ) : Prop :=
  ∀ id lc, get s id = some lc → lc.resourceId = none → lc.businessKey ≠ none

theorem Lifecycle.preserved_hasKeys
    : Lifecycle.Preserved fun lc => lc.resourceId = none → lc.businessKey ≠ none := by
  constructor
  . intro lc event nowMs _ h
    exact h
  . intro lc event tier nowMs _ h
    exact h
  . intro lc nowMs _ h
    exact h
  . intro event lct rid key nowMs hkeys
    exact (startKeys_spec hkeys).2.2

theorem LifecycleEngine.Applied.hasKeys {s s' : σ} (h : Inv s) (hkeys : HasKeys s) {event : Event}
    {nowMs : Nat} {outcome : ApplyOutcome} (happlied : Applied s event nowMs s' outcome)
    : HasKeys s' :=
  happlied.allStored Lifecycle.preserved_hasKeys h hkeys

theorem EngineCall.hasKeys_step {s : σ} (h : Inv s) (hkeys : HasKeys s) (call : EngineCall)
    : HasKeys (call.step s) :=
  call.allStored_step Lifecycle.preserved_hasKeys h hkeys

end Athar
