import Athar.Lifecycle.Instance

/-!
This module contains the representation invariant of lifecycles. An event that creates or updates a
lifecycle, a sweep that times it out and a late event each write some of its fields, through the two
tables of states, and together they keep the fields in agreement.
-/

namespace Athar

open LifecycleStore LawfulLifecycleStore LifecycleEngine

-- The pairs of a state and a closure that the two tables of states produce.
def State.Agrees (state : State) (closure : Closure) : Prop :=
  closure.isClosed = state.isTerminal
    ∧ (closure = .open → state = .started ∨ state = .processing ∨ state = .pending)
    ∧ (closure = .closedWithUncertainty ↔ state = .timeout ∨ state = .abandoned)

instance (state : State) (closure : Closure) : Decidable (state.Agrees closure) :=
  inferInstanceAs (Decidable (_ ∧ _ ∧ _))

theorem transitionFor_agrees {lct : LifecycleType} {eventType : String} {state : State}
    {closure : Closure} (h : transitionFor lct eventType = some (state, closure))
    : state.Agrees closure := by
  unfold transitionFor at h
  repeat' split at h
  all_goals cases h
  all_goals decide

theorem timeoutStateFor_agrees {state : State} (h : state.Agrees .open)
    : (timeoutStateFor state).Agrees .closedWithUncertainty := by
  rcases h.2.1 rfl with rfl | rfl | rfl <;> decide

namespace Lifecycle

structure WellFormed (lc : Lifecycle) : Prop where
  eventIds_ne_nil : lc.eventIds ≠ []
  tiers_length : lc.tiers.length = lc.eventIds.length
  agrees : lc.state.Agrees lc.closure
  closedAt_isSome : lc.closedAtMs.isSome = lc.closure.isClosed
  lateEvents_of_open : lc.closure = .open → lc.lateEvents = []

theorem eq_open_of_not_isClosed {closure : Closure} (h : ¬closure.isClosed) : closure = .open := by
  cases closure with
  | «open» => rfl
  | _ => exact absurd rfl h

theorem WellFormed.withLateEvent {lc : Lifecycle} (h : lc.WellFormed) (hclosed : lc.closure.isClosed)
    (event : Event) (nowMs : Nat) : (lc.withLateEvent event nowMs).WellFormed := by
  constructor
  . exact h.eventIds_ne_nil
  . exact h.tiers_length
  . exact h.agrees
  . exact h.closedAt_isSome
  . intro hopen
    rw [withLateEvent_closure] at hopen
    rw [hopen] at hclosed
    contradiction

-- An open lifecycle takes the pair of the table, or keeps its own.
theorem WellFormed.withEvent {lc : Lifecycle} (h : lc.WellFormed) (hopen : ¬lc.closure.isClosed)
    (event : Event) (tier : InferenceTier) (nowMs : Nat)
    : (lc.withEvent event tier nowMs).WellFormed := by
  have hunset : lc.closedAtMs = none := by
    rw [← Option.not_isSome_iff_eq_none, h.closedAt_isSome]
    exact hopen
  constructor
  . simp
  . simp [h.tiers_length]
  . unfold Lifecycle.withEvent
    dsimp only
    cases htransition : transitionFor lc.lifecycleType event.eventType with
    | none => exact h.agrees
    | some pair => exact transitionFor_agrees htransition
  . unfold Lifecycle.withEvent
    dsimp only
    split
    . next hclosed => exact hclosed.symm
    . next hclosed =>
      rw [hunset, Bool.eq_false_iff.mpr hclosed]
      rfl
  . intro _
    exact h.lateEvents_of_open (eq_open_of_not_isClosed hopen)

theorem WellFormed.timedOut {lc : Lifecycle} (h : lc.WellFormed) (hopen : lc.closure = .open)
    (nowMs : Nat) : (lc.timedOut nowMs).WellFormed := by
  have hagrees := h.agrees
  rw [hopen] at hagrees
  constructor
  . exact h.eventIds_ne_nil
  . exact h.tiers_length
  . exact timeoutStateFor_agrees hagrees
  . rfl
  . intro hclosure
    contradiction

theorem wellFormed_create (event : Event) (lct : LifecycleType) (rid key : Option String)
    (nowMs : Nat) : (create event lct rid key nowMs).WellFormed := by
  constructor
  . simp
  . rfl
  . unfold create
    dsimp only
    cases htransition : transitionFor lct event.eventType with
    | none => decide
    | some pair => exact transitionFor_agrees htransition
  . unfold create
    dsimp only
    split
    . next hclosed => exact hclosed.symm
    . next hclosed => exact (Bool.eq_false_iff.mpr hclosed).symm
  . intro _
    rfl

theorem preserved_wellFormed : Preserved WellFormed where
  withLateEvent _ event nowMs hclosed h := h.withLateEvent hclosed event nowMs
  withEvent _ event tier nowMs hopen h := h.withEvent hopen event tier nowMs
  timedOut _ nowMs hopen h := h.timedOut hopen nowMs
  create event lct rid key nowMs _ := wellFormed_create event lct rid key nowMs

end Lifecycle

variable (backend : Backend) (calls : List EngineCall)

-- What the engine and the scanner make of an empty store.
theorem always_inv_wellFormed
    : Run.Always EngineCall.step (fun s => Inv s ∧ AllStored Lifecycle.WellFormed s)
        (DynStore.empty backend) calls := by
  apply Run.always_of_step
  . refine ⟨DynStore.inv_empty backend, ?_⟩
    intro id lc hget
    rw [DynStore.get_empty] at hget
    contradiction
  . rintro s call ⟨hinv, hall⟩
    exact ⟨call.inv_step hinv, call.allStored_step Lifecycle.preserved_wellFormed hinv hall⟩

/--
In every state that the engine and the scanner reach over either store, every stored lifecycle is well
formed: it has events and a tier for each of them, its state, its closure and the time of its closure
agree, and it has no late events while it is open.
-/
theorem wellFormed_always
    : Run.Always EngineCall.step
        (fun s => ∀ id lc, get s id = some lc →
          lc.eventIds ≠ [] ∧ lc.tiers.length = lc.eventIds.length
            ∧ (lc.closure.isClosed ↔ lc.state.isTerminal)
            ∧ (lc.closure.isClosed ↔ lc.closedAtMs ≠ none)
            ∧ (¬lc.closure.isClosed →
              lc.state = .started ∨ lc.state = .processing ∨ lc.state = .pending)
            ∧ (lc.closure = .closedWithUncertainty ↔ lc.state = .timeout ∨ lc.state = .abandoned)
            ∧ (¬lc.closure.isClosed → lc.lateEvents = []))
        (DynStore.empty backend) calls := by
  refine (always_inv_wellFormed backend calls).mono ?_
  rintro s ⟨_, hall⟩ id lc hget
  have h := hall id lc hget
  refine ⟨h.eventIds_ne_nil, h.tiers_length, ?_, ?_, ?_, h.agrees.2.2, ?_⟩
  . rw [h.agrees.1]
  . rw [← h.closedAt_isSome, Option.isSome_iff_ne_none]
  . intro hopen
    exact h.agrees.2.1 (Lifecycle.eq_open_of_not_isClosed hopen)
  . intro hopen
    exact h.lateEvents_of_open (Lifecycle.eq_open_of_not_isClosed hopen)

end Athar
