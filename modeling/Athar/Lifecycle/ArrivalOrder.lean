import Athar.Lifecycle.Instance
import Athar.Lifecycle.Sole

/-!
This module contains the payments whose events arrive in any order. As long as a single event closes
the payment, its state and closure are those of that event wherever in the order it comes, and every
event is in the one lifecycle, as an applied or as a late one.
-/

namespace Athar

open LifecycleStore LawfulLifecycleStore LifecycleEngine

-- The type of the event closes a payment.
def Event.Closes (event : Event) : Prop :=
  ∃ state closure, transitionFor .payment event.eventType = some (state, closure)
    ∧ closure.isClosed = true

-- The resource is all there is to correlate the event by.
structure Event.OnResource (event : Event) (r : String) : Prop where
  payment : LifecycleType.fromEventType event.eventType = some .payment
  resource : event.resourceId = some r
  operation : event.operationId = none
  business : event.businessId = none

namespace Lifecycle

-- The ids of the events that a lifecycle has taken.
def taken (lc : Lifecycle) : List String :=
  lc.eventIds ++ lc.lateEvents.map (·.eventId)

theorem taken_withEvent (lc : Lifecycle) (event : Event) (tier : InferenceTier) (nowMs : Nat)
    : (lc.withEvent event tier nowMs).taken.Perm (lc.taken ++ [event.eventId]) := by
  unfold taken
  rw [withEvent_eventIds, withEvent_lateEvents, List.append_assoc, List.append_assoc]
  exact List.Perm.append_left _ List.perm_append_comm

theorem taken_withLateEvent (lc : Lifecycle) (event : Event) (nowMs : Nat)
    : (lc.withLateEvent event nowMs).taken = lc.taken ++ [event.eventId] := by
  unfold taken
  rw [withLateEvent_eventIds, withLateEvent_lateEvents, List.map_append, List.append_assoc]
  rfl

-- The state and the closure are those that the closing event gives, if it has come.
structure EndedBy (lc : Lifecycle) (closing : Event) (arrived : List Event) : Prop where
  ended : closing ∈ arrived → transitionFor .payment closing.eventType = some (lc.state, lc.closure)
    ∧ closing.eventId ∈ lc.eventIds
  pending : closing ∉ arrived → lc.closure = .open

end Lifecycle

variable {σ : Type} [LifecycleStore σ] [LawfulLifecycleStore σ]

-- One lifecycle has taken everything that has arrived.
structure Gathered (r : String) (closing : Event) (arrived : List Event) (s : σ) (lc : Lifecycle)
    : Prop where
  inv : Inv s
  stored : get s lc.id = some lc
  only : ∀ id, get s id ≠ none → id = lc.id
  resource : lc.resourceId = some r
  bound : ∀ eventId id, findByEvent s eventId = some id → id = lc.id
  taken : lc.taken.Perm (arrived.map (·.eventId))
  ends : lc.EndedBy closing arrived

theorem Event.OnResource.startKeys {event : Event} {r : String} (h : event.OnResource r)
    : startKeys event = some (.payment, some r, none) := by
  unfold LifecycleEngine.startKeys
  rw [h.payment, h.resource, h.business, h.operation]
  rfl

theorem Event.OnResource.correlate_unused {event : Event} {r : String} (h : event.OnResource r)
    {s : σ} (hunused : Unused s) : correlate s event = .new .payment (some r) none := by
  have hnone : firstMatch s event = none := by
    rw [firstMatch_eq_none_iff]
    intro tier _
    exact hunused.lookupTier event tier
  rw [correlate_eq, hnone, h.startKeys]

theorem Gathered.sole {r : String} {closing : Event} {arrived : List Event} {s : σ} {lc : Lifecycle}
    (h : Gathered r closing arrived s lc) : Sole r s lc :=
  ⟨h.inv, h.stored, h.only, h.resource, h.bound⟩

theorem Gathered.of_sole {r : String} {closing : Event} {arrived : List Event} {s : σ}
    {lc : Lifecycle} (h : Sole r s lc) (htaken : lc.taken.Perm (arrived.map (·.eventId)))
    (hends : lc.EndedBy closing arrived) : Gathered r closing arrived s lc :=
  ⟨h.inv, h.stored, h.only, h.resource, h.bound, htaken, hends⟩

theorem Gathered.upsert {r : String} {closing event : Event} {arrived : List Event} {s : σ}
    {lc lc' : Lifecycle} (h : Gathered r closing arrived s lc) (hrev : lc'.Revises lc)
    (htaken : lc'.taken.Perm (lc.taken ++ [event.eventId]))
    (hends : lc'.EndedBy closing (arrived ++ [event]))
    : Gathered r closing (arrived ++ [event]) (upsert s lc') lc' := by
  apply Gathered.of_sole (h.sole.upsert hrev) _ hends
  rw [List.map_append, List.map_singleton]
  exact htaken.trans (List.Perm.append_right _ h.taken)

theorem Gathered.recordEvent {r : String} {closing : Event} {arrived : List Event} {s : σ}
    {lc : Lifecycle} (h : Gathered r closing arrived s lc) (eventId : String)
    : Gathered r closing arrived (recordEvent s eventId lc.id) lc :=
  .of_sole (h.sole.recordEvent eventId) h.taken h.ends

-- An open lifecycle has not seen the closing event, and an event that it takes closes it only if it
-- is that event.
theorem Lifecycle.EndedBy.withEvent {lc : Lifecycle} {closing event : Event} {arrived : List Event}
    (h : lc.EndedBy closing arrived) (hopen : ¬lc.closure.isClosed) (hcloses : closing.Closes)
    (honly : event.Closes → event = closing) (tier : InferenceTier) (nowMs : Nat)
    : (lc.withEvent event tier nowMs).EndedBy closing (arrived ++ [event]) := by
  have hbefore : closing ∉ arrived := by
    intro hmem
    rcases hcloses with ⟨state, closure, htransition, hclosed⟩
    have heq := (h.ended hmem).1
    rw [htransition, Option.some.injEq, Prod.mk.injEq] at heq
    rw [heq.2] at hclosed
    exact hopen hclosed
  have hnext := lc.withEvent_transition event tier nowMs
  constructor
  . intro hmem
    have heq : closing = event := by
      cases List.mem_append.mp hmem with
      | inl hold => exact absurd hold hbefore
      | inr hnew => exact List.mem_singleton.mp hnew
    subst heq
    rcases hcloses with ⟨state, closure, htransition, _⟩
    rw [htransition, Option.getD_some] at hnext
    rw [hnext, withEvent_eventIds]
    exact ⟨htransition, List.mem_append_right _ (List.mem_singleton_self _)⟩
  . intro hmem
    have hne : ¬event.Closes := by
      intro hevent
      apply hmem
      rw [honly hevent]
      exact List.mem_append_right _ (List.mem_singleton_self _)
    cases htransition : transitionFor .payment event.eventType with
    | none =>
      rw [htransition, Option.getD_none, Prod.mk.injEq] at hnext
      rw [hnext.2]
      exact h.pending hbefore
    | some target =>
      rw [htransition, Option.getD_some] at hnext
      by_contra hclosure
      apply hne
      refine ⟨_, _, htransition.trans (congrArg some hnext.symm), ?_⟩
      cases hcase : (lc.withEvent event tier nowMs).closure with
      | «open» => exact absurd hcase hclosure
      | _ => rfl

theorem Lifecycle.EndedBy.withLateEvent {lc : Lifecycle} {closing event : Event}
    {arrived : List Event} (h : lc.EndedBy closing arrived) (hclosed : lc.closure.isClosed)
    (nowMs : Nat) : (lc.withLateEvent event nowMs).EndedBy closing (arrived ++ [event]) := by
  have hbefore : closing ∈ arrived := by
    by_contra hmem
    rw [h.pending hmem] at hclosed
    contradiction
  constructor
  . intro _
    exact h.ended hbefore
  . intro hmem
    exact absurd (List.mem_append_left _ hbefore) hmem

theorem Lifecycle.EndedBy.create {closing event : Event} (hcloses : closing.Closes)
    (honly : event.Closes → event = closing) (rid key : Option String) (nowMs : Nat)
    : (create event .payment rid key nowMs).EndedBy closing [event] := by
  have hnext := create_transition event rid key nowMs
  constructor
  . intro hmem
    rw [List.mem_singleton] at hmem
    subst hmem
    rcases hcloses with ⟨state, closure, htransition, _⟩
    rw [htransition, Option.getD_some] at hnext
    rw [hnext, create_eventIds]
    exact ⟨htransition, List.mem_singleton_self _⟩
  . intro hmem
    have hne : ¬event.Closes := by
      intro hevent
      apply hmem
      rw [honly hevent]
      exact List.mem_singleton_self _
    cases htransition : transitionFor .payment event.eventType with
    | none =>
      rw [htransition, Option.getD_none, Prod.mk.injEq] at hnext
      exact hnext.2
    | some target =>
      rw [htransition, Option.getD_some] at hnext
      by_contra hclosure
      apply hne
      refine ⟨_, _, htransition.trans (congrArg some hnext.symm), ?_⟩
      cases hcase : (Lifecycle.create event .payment rid key nowMs).closure with
      | «open» => exact absurd hcase hclosure
      | _ => rfl

theorem Gathered.apply {r : String} {closing event : Event} {arrived : List Event} {s : σ}
    {lc : Lifecycle} (h : Gathered r closing arrived s lc) (hevent : event.OnResource r)
    (hcloses : closing.Closes) (honly : event.Closes → event = closing) (nowMs : Nat)
    : ∃ lc', Gathered r closing (arrived ++ [event]) (apply s event nowMs).1 lc' := by
  rcases h.sole.correlate hevent.resource with ⟨tier, hcorr⟩
  by_cases hclosed : lc.closure.isClosed
  . rw [apply_of_closed hcorr h.stored hclosed]
    refine ⟨_, h.upsert (lc.withLateEvent_revises event nowMs) ?_ ?_⟩
    . rw [Lifecycle.taken_withLateEvent]
    . exact h.ends.withLateEvent hclosed nowMs
  . rw [apply_of_open hcorr h.stored hclosed]
    have hrev := lc.withEvent_revises event tier nowMs
    refine ⟨_, (h.upsert hrev ?_ ?_).recordEvent event.eventId⟩
    . exact lc.taken_withEvent event tier nowMs
    . exact h.ends.withEvent hclosed hcloses honly tier nowMs

theorem Gathered.first {r : String} {closing event : Event} {s : σ} (hunused : Unused s)
    (hevent : event.OnResource r) (hcloses : closing.Closes) (honly : event.Closes → event = closing)
    (nowMs : Nat)
    : ∃ lc, Gathered r closing [event] (LifecycleEngine.apply s event nowMs).1 lc := by
  have hcorr := hevent.correlate_unused hunused
  rw [apply_of_new hcorr]
  have hgathered := Gathered.of_sole (Sole.create hunused hcorr nowMs) (List.Perm.refl _)
    (.create hcloses honly _ _ nowMs)
  exact ⟨_, hgathered.recordEvent event.eventId⟩

theorem Gathered.run {r : String} {closing : Event} {arrived : List Event} {s : σ}
    {lc : Lifecycle} (h : Gathered r closing arrived s lc) (hcloses : closing.Closes)
    {arrivals : List (Event × Nat)}
    (hevents : ∀ arrival ∈ arrivals,
      arrival.1.OnResource r ∧ (arrival.1.Closes → arrival.1 = closing))
    : ∃ lc', Gathered r closing (arrived ++ arrivals.map (·.1))
        (Run.exec EngineCall.step s (arrivals.map fun arrival => .apply arrival.1 arrival.2))
        lc' := by
  induction arrivals generalizing arrived s lc with
  | nil =>
    rw [List.map_nil, List.append_nil]
    exact ⟨lc, h⟩
  | cons arrival arrivals ih =>
    rcases hevents arrival List.mem_cons_self with ⟨hevent, honly⟩
    rcases h.apply hevent hcloses honly arrival.2 with ⟨lc', h'⟩
    have := ih h' (fun a ha => hevents a (List.mem_cons_of_mem _ ha))
    rw [List.append_assoc] at this
    exact this

/--
The events of a payment of which one closes it, applied to an empty store in any order and at any
times, end up in the one lifecycle that is there. Its state and closure are those of the closing
event, and it has taken every event once, the closing one as an applied event.
-/
theorem outcome_independent_of_order (backend : Backend) {r : String} {events : List Event}
    {closing : Event} (hevents : ∀ event ∈ events, event.OnResource r)
    (hdistinct : (events.map (·.eventId)).Nodup) (hclosing : closing ∈ events)
    (hcloses : closing.Closes) (honly : ∀ event ∈ events, event.Closes → event = closing)
    {arrivals : List (Event × Nat)} (hperm : (arrivals.map (·.1)).Perm events)
    : ∃ lc, count (Run.exec EngineCall.step (DynStore.empty backend)
            (arrivals.map fun arrival => .apply arrival.1 arrival.2)) = 1
        ∧ get (Run.exec EngineCall.step (DynStore.empty backend)
            (arrivals.map fun arrival => .apply arrival.1 arrival.2)) lc.id = some lc
        ∧ lc.resourceId = some r
        ∧ transitionFor .payment closing.eventType = some (lc.state, lc.closure)
        ∧ (∀ event ∈ events, lc.taken.count event.eventId = 1)
        ∧ closing.eventId ∈ lc.eventIds := by
  have hall : ∀ arrival ∈ arrivals,
      arrival.1.OnResource r ∧ (arrival.1.Closes → arrival.1 = closing) := by
    intro arrival harrival
    have hmem := hperm.subset (List.mem_map_of_mem harrival)
    exact ⟨hevents _ hmem, honly _ hmem⟩
  have hgathered : ∃ lc, Gathered r closing (arrivals.map (·.1))
      (Run.exec EngineCall.step (DynStore.empty backend)
        (arrivals.map fun arrival => .apply arrival.1 arrival.2)) lc := by
    cases arrivals with
    | nil =>
      rw [List.map_nil, List.nil_perm] at hperm
      rw [hperm] at hclosing
      contradiction
    | cons arrival arrivals =>
      rcases hall arrival List.mem_cons_self with ⟨hevent, hone⟩
      rcases Gathered.first (unused_empty backend) hevent hcloses hone arrival.2 with ⟨lc, hfirst⟩
      exact hfirst.run hcloses (fun a ha => hall a (List.mem_cons_of_mem _ ha))
  rcases hgathered with ⟨lc, h⟩
  have hids : lc.taken.Perm (events.map (·.eventId)) := by
    have := hperm.map (·.eventId)
    exact h.taken.trans this
  have hended := h.ends.ended (hperm.mem_iff.mpr hclosing)
  refine ⟨lc, ?_, h.stored, h.resource, hended.1, ?_, hended.2⟩
  . apply DynStore.count_eq_one h.inv _ h.only
    rw [h.stored]
    simp
  . intro event hevent
    apply List.count_eq_one_of_mem
    . exact hids.nodup_iff.mpr hdistinct
    . exact hids.mem_iff.mpr (List.mem_map_of_mem hevent)

-- The settlement overtakes the creation of its payment.
theorem outcome_of_overtaking
    : ∃ lc, count (Run.exec EngineCall.step (DynStore.empty .sqlite)
            ([(settlement, 5), (creation, 7)].map fun arrival => .apply arrival.1 arrival.2)) = 1
        ∧ get (Run.exec EngineCall.step (DynStore.empty .sqlite)
            ([(settlement, 5), (creation, 7)].map fun arrival => .apply arrival.1 arrival.2)) lc.id
          = some lc
        ∧ lc.resourceId = some "pay_1"
        ∧ transitionFor .payment settlement.eventType = some (lc.state, lc.closure)
        ∧ (∀ event ∈ [creation, settlement], lc.taken.count event.eventId = 1)
        ∧ settlement.eventId ∈ lc.eventIds := by
  have hevents : ∀ event ∈ [creation, settlement], event.OnResource "pay_1" := by
    intro event hevent
    rw [List.mem_cons, List.mem_singleton] at hevent
    rcases hevent with rfl | rfl
    . exact ⟨by decide, rfl, rfl, rfl⟩
    . exact ⟨by decide, rfl, rfl, rfl⟩
  have hcloses : settlement.Closes := ⟨.success, .closed, rfl, rfl⟩
  have honly : ∀ event ∈ [creation, settlement], event.Closes → event = settlement := by
    intro event hevent hclosing
    rw [List.mem_cons, List.mem_singleton] at hevent
    rcases hevent with rfl | rfl
    . rcases hclosing with ⟨state, closure, htransition, hclosed⟩
      have hopen : transitionFor .payment creation.eventType = some (.started, .open) := rfl
      rw [hopen, Option.some.injEq, Prod.mk.injEq] at htransition
      rw [← htransition.2] at hclosed
      contradiction
    . rfl
  exact outcome_independent_of_order .sqlite hevents (by decide) (by simp) hcloses honly
    (List.Perm.swap creation settlement [])

end Athar
