import Athar.Lifecycle.TenantIsolation
import Athar.Lifecycle.WellFormed

/-!
This module contains the classes of late events. A closed lifecycle records an event in its late events,
but the class of the next one is found in the events from before the closure only. So an event that first
comes after the closure is never a duplicate, however often it comes.
-/

namespace Athar

open LifecycleStore LawfulLifecycleStore LifecycleEngine

-- An entry is a duplicate exactly if its event was recorded before, in either of the two lists.
def ClassesTruthful (eventIds : List String) (lates : List LateEvent) : Prop :=
  ∀ k late, lates[k]? = some late →
    (late.class' = .duplicate
      ↔ late.eventId ∈ eventIds ∨ late.eventId ∈ (lates.take k).map (·.eventId))

-- The entries of an event that are not duplicates.
def LateEvent.isFirst (eventId : String) (late : LateEvent) : Bool :=
  late.eventId = eventId ∧ late.class' ≠ .duplicate

theorem classesTruthful_nil (eventIds : List String) : ClassesTruthful eventIds [] := by
  intro k late hlate
  rw [List.getElem?_nil] at hlate
  contradiction

theorem classesTruthful_concat {eventIds : List String} {lates : List LateEvent} {late : LateEvent}
    : ClassesTruthful eventIds (lates ++ [late])
        ↔ ClassesTruthful eventIds lates
          ∧ (late.class' = .duplicate
            ↔ late.eventId ∈ eventIds ∨ late.eventId ∈ lates.map (·.eventId)) := by
  constructor
  . intro h
    constructor
    . intro k entry hentry
      have hlt := (List.getElem?_eq_some_iff.mp hentry).1
      have hk := h k entry (by rw [List.getElem?_append_left hlt]; exact hentry)
      rwa [List.take_append_of_le_length hlt.le] at hk
    . have hlast := h lates.length late (by simp)
      rwa [List.take_left] at hlast
  . rintro ⟨hinit, hlast⟩ k entry hentry
    rcases lt_trichotomy k lates.length with hlt | rfl | hgt
    . rw [List.getElem?_append_left hlt] at hentry
      rw [List.take_append_of_le_length hlt.le]
      exact hinit k entry hentry
    . rw [List.getElem?_concat_length, Option.some.injEq] at hentry
      rw [List.take_left, ← hentry]
      exact hlast
    . have hlength : (lates ++ [late]).length ≤ k := by
        rw [List.length_append, List.length_singleton]
        omega
      rw [List.getElem?_eq_none hlength] at hentry
      contradiction

-- Of the entries of an event that is not among the others, exactly the first is no duplicate.
theorem ClassesTruthful.countP_isFirst {eventIds : List String} {lates : List LateEvent}
    (h : ClassesTruthful eventIds lates) {eventId : String} (hnot : eventId ∉ eventIds)
    : lates.countP (·.isFirst eventId) = if eventId ∈ lates.map (·.eventId) then 1 else 0 := by
  induction lates using List.reverseRecOn with
  | nil => rfl
  | append_singleton lates late ih =>
    rw [classesTruthful_concat] at h
    rw [List.countP_append, ih h.1, List.map_append, List.map_singleton, List.countP_singleton]
    unfold LateEvent.isFirst
    by_cases heq : late.eventId = eventId
    . rw [heq] at h ⊢
      have hclass := h.2
      by_cases hbefore : eventId ∈ lates.map (·.eventId)
      . simp [hbefore, hclass.mpr (.inr hbefore)]
      . have hne : late.class' ≠ .duplicate := by
          intro hduplicate
          exact (hclass.mp hduplicate).elim hnot hbefore
        simp [hbefore, hne]
    . have hne : eventId ≠ late.eventId := fun h => heq h.symm
      simp [heq, hne]

theorem classifyLateEvent_eq_duplicate_iff (lc : Lifecycle) (event : Event)
    : classifyLateEvent lc event = .duplicate ↔ event.eventId ∈ lc.eventIds := by
  unfold classifyLateEvent
  split
  . next hmem => simp [hmem]
  . next hmem =>
    simp only [hmem, iff_false]
    repeat' split
    all_goals simp

namespace Lifecycle

-- The event came first after the closure: it is among the late events only.
def OnlyLate (lc : Lifecycle) (eventId : String) : Prop :=
  eventId ∈ lc.lateEvents.map (·.eventId) ∧ eventId ∉ lc.eventIds

theorem duplicate_iff_contained_iff (lc : Lifecycle) (event : Event)
    : (classifyLateEvent lc event = .duplicate ↔ event.eventId ∈ lc.contained)
        ↔ ¬lc.OnlyLate event.eventId := by
  rw [classifyLateEvent_eq_duplicate_iff, contained, List.mem_append, OnlyLate, not_and_not_right]
  constructor
  . intro h hlate
    exact h.mpr (.inr hlate)
  . intro h
    exact ⟨.inl, fun hmem => hmem.elim (fun hevents => hevents) h⟩

theorem classesTruthful_withLateEvent_iff (lc : Lifecycle) (event : Event) (nowMs : Nat)
    : ClassesTruthful (lc.withLateEvent event nowMs).eventIds (lc.withLateEvent event nowMs).lateEvents
        ↔ ClassesTruthful lc.eventIds lc.lateEvents ∧ ¬lc.OnlyLate event.eventId := by
  rw [withLateEvent_eventIds, withLateEvent_lateEvents, classesTruthful_concat]
  apply and_congr_right
  intro _
  rw [← duplicate_iff_contained_iff lc event, contained, List.mem_append]

end Lifecycle

section Store

variable {σ : Type} [LifecycleStore σ]

-- What holds of the late events of a lifecycle when replays are duplicates.
structure LateEventsTruthful (s : σ) : Prop where
  classes : ∀ id lc, get s id = some lc → ClassesTruthful lc.eventIds lc.lateEvents
  firstOnly : ∀ id lc, get s id = some lc → ∀ eventId, lc.OnlyLate eventId →
    lc.lateEvents.countP (·.isFirst eventId) = 1

-- The class that the engine answers for a late event.
def AnswersTruthfully (s : σ) : EngineCall → Prop
  | .apply event nowMs => ∀ id tier class' lc, (apply s event nowMs).2 = .lateEvent id tier class' →
    get s id = some lc → (class' = .duplicate ↔ event.eventId ∈ lc.contained)
  | .sweep _ _ => True

-- The event reaches a closed lifecycle that it already reached when it was closed.
def EngineCall.ReplaysLate (s : σ) : EngineCall → Prop
  | .apply event _ => ∃ id tier lc, correlate s event = .match' id tier ∧ get s id = some lc
    ∧ lc.closure.isClosed ∧ lc.OnlyLate event.eventId
  | .sweep _ _ => False

theorem lateEventsTruthful_iff (s : σ)
    : LateEventsTruthful s
        ↔ AllStored (fun lc => ClassesTruthful lc.eventIds lc.lateEvents) s := by
  constructor
  . exact LateEventsTruthful.classes
  . intro h
    refine ⟨h, ?_⟩
    rintro id lc hget eventId ⟨hlate, hnot⟩
    rw [(h id lc hget).countP_isFirst hnot, if_pos hlate]

theorem answersTruthfully_iff (s : σ) (call : EngineCall)
    : AnswersTruthfully s call ↔ ¬call.ReplaysLate s := by
  cases call with
  | sweep order nowMs => simp [AnswersTruthfully, EngineCall.ReplaysLate]
  | apply event nowMs =>
    constructor
    . rintro h ⟨id, tier, lc, hcorr, hget, hclosed, honly⟩
      have hanswer := h id tier _ lc (by rw [apply_of_closed hcorr hget hclosed]) hget
      exact (lc.duplicate_iff_contained_iff event).mp hanswer honly
    . intro hnot id tier class' lc hanswer hget
      have happlied := apply_applied s event nowMs
      generalize apply s event nowMs = result at happlied hanswer
      rcases result with ⟨s', outcome⟩
      dsimp only at happlied hanswer
      subst hanswer
      cases happlied with
      | @late _ _ lc' hcorr hget' hclosed =>
        rw [hget, Option.some.injEq] at hget'
        subst hget'
        rw [lc.duplicate_iff_contained_iff event]
        intro honly
        exact hnot ⟨id, tier, lc, hcorr, hget, hclosed, honly⟩

theorem not_lateEventsTruthful_of_repeated {s : σ} (id eventId : String)
    (h : (get s id).any (fun lc => eventId ∈ lc.lateEvents.map (·.eventId) ∧ eventId ∉ lc.eventIds
      ∧ lc.lateEvents.countP (·.isFirst eventId) ≠ 1) = true)
    : ¬LateEventsTruthful s := by
  rw [Option.any_eq_true] at h
  rcases h with ⟨lc, hget, hlc⟩
  rcases of_decide_eq_true hlc with ⟨hlate, hnot, hcount⟩
  intro htruthful
  exact hcount (htruthful.firstOnly id lc hget eventId ⟨hlate, hnot⟩)

variable [LawfulLifecycleStore σ]

-- Only an event that comes late adds an entry; an open lifecycle has none.
theorem EngineCall.lateEventsTruthful_step {s : σ} (h : Inv s) (hformed : AllStored Lifecycle.WellFormed s)
    (htruthful : LateEventsTruthful s) {call : EngineCall} (hnot : ¬call.ReplaysLate s)
    : LateEventsTruthful (call.step s) := by
  rw [lateEventsTruthful_iff] at htruthful ⊢
  cases call with
  | sweep order nowMs =>
    intro id lc hget
    unfold EngineCall.step at hget
    rw [(StalenessScanner.sweep_spec h order nowMs).2.1, Option.map_eq_some_iff] at hget
    rcases hget with ⟨old, hold, rfl⟩
    unfold Lifecycle.swept
    split
    . exact htruthful id old hold
    . exact htruthful id old hold
  | apply event nowMs =>
    have happlied := apply_applied s event nowMs
    unfold EngineCall.step
    dsimp only
    generalize LifecycleEngine.apply s event nowMs = result at happlied ⊢
    rcases result with ⟨s', outcome⟩
    dsimp only at happlied ⊢
    cases happlied with
    | unbound => exact htruthful
    | @late id tier lc hcorr hget hclosed =>
      apply htruthful.upsert h
      . exact fits_of_revises h (get_self h hget) (lc.withLateEvent_revises event nowMs)
      . rw [lc.classesTruthful_withLateEvent_iff]
        refine ⟨htruthful id lc hget, ?_⟩
        intro honly
        exact hnot ⟨id, tier, lc, hcorr, hget, hclosed, honly⟩
    | @updated id tier lc hcorr hget hopen =>
      apply AllStored.recordEvent
      apply htruthful.upsert h
      . exact fits_of_revises h (get_self h hget) (lc.withEvent_revises event tier nowMs)
      . have hnone := (hformed id lc hget).lateEvents_of_open (Lifecycle.eq_open_of_not_isClosed hopen)
        rw [Lifecycle.withEvent_lateEvents, hnone]
        exact classesTruthful_nil _
    | created hcorr =>
      apply AllStored.recordEvent
      exact htruthful.upsert h (fits_of_new hcorr nowMs) (classesTruthful_nil _)

-- The entry that a replay adds says that the event comes for the first time.
theorem EngineCall.not_lateEventsTruthful {s : σ} (h : Inv s) {call : EngineCall}
    (hreplays : call.ReplaysLate s) : ¬LateEventsTruthful (call.step s) := by
  cases call with
  | sweep order nowMs => exact hreplays.elim
  | apply event nowMs =>
    rcases hreplays with ⟨id, tier, lc, hcorr, hget, hclosed, honly⟩
    have hfits := fits_of_revises h (get_self h hget) (lc.withLateEvent_revises event nowMs)
    intro htruthful
    have hclasses := htruthful.classes (lc.withLateEvent event nowMs).id (lc.withLateEvent event nowMs)
    unfold EngineCall.step at hclasses
    dsimp only at hclasses
    rw [apply_of_closed hcorr hget hclosed, get_upsert h hfits, if_pos rfl] at hclasses
    exact ((lc.classesTruthful_withLateEvent_iff event nowMs).mp (hclasses rfl)).2 honly

end Store

/--
Along a run of the engine and the scanner over either store, a late event is a duplicate, in the answer and
in its entry, exactly if its lifecycle has recorded it before, if and only if no event that first came
after the closure comes to that lifecycle again.
-/
theorem replaysAreDuplicates_iff_not_replaysLate (backend : Backend) (calls : List EngineCall)
    : (Run.Guarded EngineCall.step AnswersTruthfully (DynStore.empty backend) calls
          ∧ Run.Always EngineCall.step LateEventsTruthful (DynStore.empty backend) calls)
        ↔ Run.Guarded EngineCall.step (fun s call => ¬call.ReplaysLate s) (DynStore.empty backend)
          calls := by
  have hanswers : Run.Guarded EngineCall.step AnswersTruthfully (DynStore.empty backend) calls
      ↔ Run.Guarded EngineCall.step (fun s call => ¬call.ReplaysLate s) (DynStore.empty backend)
        calls := by
    constructor
    . exact Run.Guarded.imp fun s call => (answersTruthfully_iff s call).mp
    . exact Run.Guarded.imp fun s call => (answersTruthfully_iff s call).mpr
  have hentries : Run.Always EngineCall.step LateEventsTruthful (DynStore.empty backend) calls
      ↔ Run.Guarded EngineCall.step (fun s call => ¬call.ReplaysLate s) (DynStore.empty backend)
        calls := by
    apply Run.always_iff_guarded
      (I := fun s => Inv s ∧ AllStored Lifecycle.WellFormed s ∧ LateEventsTruthful s)
    . rcases (always_inv_wellFormed backend []).last with ⟨hinv, hformed⟩
      refine ⟨hinv, hformed, (lateEventsTruthful_iff _).mpr ?_⟩
      intro id lc hget
      rw [DynStore.get_empty] at hget
      contradiction
    . rintro s call ⟨hinv, hformed, htruthful⟩ hnot
      exact ⟨call.inv_step hinv, call.allStored_step Lifecycle.preserved_wellFormed hinv hformed,
        call.lateEventsTruthful_step hinv hformed htruthful hnot⟩
    . rintro s ⟨_, _, htruthful⟩
      exact htruthful
    . rintro s call ⟨hinv, _⟩ hreplays
      exact call.not_lateEventsTruthful hinv (Classical.not_not.mp hreplays)
  rw [hanswers, hentries, and_self]

-- A payment is settled, and then one refund notice comes twice.
def replayedLate : List EngineCall :=
  [.apply (paymentEvent "payment.settle" "e1" "tnt_a" "pay_1") 1000,
    .apply (paymentEvent "payment.reverse" "e2" "tnt_a" "pay_1") 2000,
    .apply (paymentEvent "payment.reverse" "e2" "tnt_a" "pay_1") 3000]

-- Both entries of the notice say that it comes for the first time.
theorem replayedLate_not_duplicate
    : ¬Run.Always EngineCall.step LateEventsTruthful (DynStore.empty .inMemory) replayedLate
        ∧ ¬Run.Always EngineCall.step LateEventsTruthful (DynStore.empty .sqlite) replayedLate := by
  constructor
  . intro h
    refine not_lateEventsTruthful_of_repeated "lc_e1" "e2" ?_ h.last
    decide +kernel
  . intro h
    refine not_lateEventsTruthful_of_repeated "lc_e1" "e2" ?_ h.last
    decide +kernel

end Athar
