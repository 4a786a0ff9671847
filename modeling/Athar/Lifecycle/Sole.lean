import Athar.Lifecycle.Calls

/-!
This module contains stores with one lifecycle, which is about a resource. Events of the resource all
go to it, whatever else they carry, and its state and closure are those of a machine that only looks at
the event types.
-/

namespace Athar

open LifecycleStore LawfulLifecycleStore LifecycleEngine

-- What an event type makes of the state and the closure of a payment.
def settle (current : State × Closure) (eventType : String) : State × Closure :=
  if current.2.isClosed then current else (transitionFor .payment eventType).getD current

theorem settle_of_closed {current : State × Closure} (h : current.2.isClosed) (eventType : String)
    : settle current eventType = current := by
  rw [settle, if_pos h]

theorem settle_of_open {current : State × Closure} (h : ¬current.2.isClosed) (eventType : String)
    : settle current eventType = (transitionFor .payment eventType).getD current := by
  rw [settle, if_neg h]

theorem foldl_settle_of_closed {current : State × Closure} (h : current.2.isClosed)
    (eventTypes : List String) : eventTypes.foldl settle current = current := by
  induction eventTypes with
  | nil => rfl
  | cons eventType eventTypes ih => rw [List.foldl_cons, settle_of_closed h, ih]

namespace Lifecycle

theorem withEvent_transition (lc : Lifecycle) (event : Event) (tier : InferenceTier) (nowMs : Nat)
    : ((lc.withEvent event tier nowMs).state, (lc.withEvent event tier nowMs).closure)
        = (transitionFor .payment event.eventType).getD (lc.state, lc.closure) := by
  cases hlct : lc.lifecycleType with
  | payment =>
    unfold withEvent
    rw [hlct]

theorem create_transition (event : Event) (rid key : Option String) (nowMs : Nat)
    : ((create event .payment rid key nowMs).state, (create event .payment rid key nowMs).closure)
        = (transitionFor .payment event.eventType).getD (.started, .open) := by
  rfl

def status (lc : Lifecycle) : State × Closure := (lc.state, lc.closure)

end Lifecycle

variable {σ : Type} [LifecycleStore σ] [LawfulLifecycleStore σ]

-- The lifecycle is the only one, and every index leads to it.
structure Sole (r : String) (s : σ) (lc : Lifecycle) : Prop where
  inv : Inv s
  stored : get s lc.id = some lc
  only : ∀ id, get s id ≠ none → id = lc.id
  resource : lc.resourceId = some r
  bound : ∀ eventId id, findByEvent s eventId = some id → id = lc.id

-- A store without lifecycles or bindings.
structure Unused (s : σ) : Prop where
  inv : Inv s
  none_stored : ∀ id, get s id = none
  none_bound : ∀ eventId, findByEvent s eventId = none

theorem unused_empty (backend : Backend) : Unused (DynStore.empty backend) :=
  ⟨DynStore.inv_empty backend, DynStore.get_empty backend, DynStore.findByEvent_empty backend⟩

namespace Sole

variable {r : String} {s : σ} {lc lc' : Lifecycle} {event : Event}

theorem upsert (h : Sole r s lc) (hrev : lc'.Revises lc) : Sole r (upsert s lc') lc' := by
  have hfits := fits_of_revises h.inv h.stored hrev
  constructor
  . exact inv_upsert h.inv hfits
  . rw [get_upsert h.inv hfits, if_pos rfl]
  . intro id hget
    rw [get_upsert h.inv hfits] at hget
    split at hget
    . next hid => exact hid
    . rw [hrev.id_eq]
      exact h.only id hget
  . rw [hrev.resourceId_eq]
    exact h.resource
  . intro eventId id hfind
    rw [findByEvent_upsert] at hfind
    split at hfind
    . exact (Option.some.inj hfind).symm
    . rw [hrev.id_eq]
      exact h.bound eventId id hfind

theorem recordEvent (h : Sole r s lc) (eventId : String)
    : Sole r (recordEvent s eventId lc.id) lc := by
  constructor
  . exact inv_recordEvent eventId lc.id h.inv
  . rw [get_recordEvent]
    exact h.stored
  . rw [get_recordEvent]
    exact h.only
  . exact h.resource
  . intro eventId' id hfind
    rw [findByEvent_recordEvent] at hfind
    split at hfind
    . exact (Option.some.inj hfind).symm
    . exact h.bound eventId' id hfind

-- Whichever tier finds a lifecycle finds the only one.
theorem lookupTier_eq (h : Sole r s lc) {tier : InferenceTier} {id : String}
    (hfind : lookupTier s event tier = some id) : id = lc.id := by
  have hbusiness : ∀ k, findByBusinessKey s k = some id → id = lc.id := by
    intro k hk
    rcases get_of_findByBusinessKey h.inv hk with ⟨found, hget⟩
    apply h.only
    simp [hget]
  cases tier with
  | explicit =>
    rcases Option.bind_eq_some_iff.mp hfind with ⟨k, _, hk⟩
    exact hbusiness k hk
  | businessId =>
    rcases Option.bind_eq_some_iff.mp hfind with ⟨k, _, hk⟩
    exact hbusiness k hk
  | causation =>
    rcases Option.bind_eq_some_iff.mp hfind with ⟨eventId, _, hbound⟩
    exact h.bound eventId id hbound
  | resourceId =>
    rcases Option.bind_eq_some_iff.mp hfind with ⟨r', _, hr'⟩
    rcases get_of_findByResource h.inv hr' with ⟨found, hget⟩
    apply h.only
    simp [hget]
  | unknown => contradiction

theorem correlate (h : Sole r s lc) (hevent : event.resourceId = some r)
    : ∃ tier, correlate s event = .match' lc.id tier := by
  have hresource : lookupTier s event .resourceId = some lc.id := by
    rw [lookupTier, hevent, Option.bind_some]
    exact findByResource_of_get h.inv h.stored h.resource
  have hfound : firstMatch s event ≠ none := by
    intro hnone
    rw [firstMatch_eq_none_iff] at hnone
    rw [hnone .resourceId (by decide)] at hresource
    contradiction
  rcases Option.ne_none_iff_exists'.mp hfound with ⟨⟨id, tier⟩, hmatch⟩
  have hcorr : LifecycleEngine.correlate s event = .match' id tier := by
    rw [correlate_eq, hmatch]
  exact ⟨tier, by rw [hcorr, h.lookupTier_eq (lookupTier_of_match hcorr)]⟩

theorem create (h : Unused s) {lct : LifecycleType} {key : Option String}
    (hcorr : LifecycleEngine.correlate s event = .new lct (some r) key) (nowMs : Nat)
    : Sole r (LifecycleStore.upsert s (Lifecycle.create event lct (some r) key nowMs))
        (Lifecycle.create event lct (some r) key nowMs) := by
  have hfits := fits_of_new hcorr nowMs
  constructor
  . exact inv_upsert h.inv hfits
  . rw [get_upsert h.inv hfits, if_pos rfl]
  . intro id hsome
    rw [get_upsert h.inv hfits] at hsome
    split at hsome
    . next hid => exact hid
    . exact absurd (h.none_stored id) hsome
  . rfl
  . intro eventId id hbound
    rw [findByEvent_upsert] at hbound
    split at hbound
    . exact (Option.some.inj hbound).symm
    . rw [h.none_bound] at hbound
      contradiction

-- A call goes to the only lifecycle and takes it a step further.
theorem apply (h : Sole r s lc) (hevent : event.resourceId = some r) (nowMs : Nat)
    : ∃ lc', Sole r (LifecycleEngine.apply s event nowMs).1 lc'
        ∧ lc'.status = settle lc.status event.eventType := by
  rcases h.correlate hevent with ⟨tier, hcorr⟩
  by_cases hclosed : lc.closure.isClosed
  . rw [apply_of_closed hcorr h.stored hclosed, settle_of_closed hclosed]
    exact ⟨_, h.upsert (lc.withLateEvent_revises event nowMs), rfl⟩
  . rw [apply_of_open hcorr h.stored hclosed]
    refine ⟨_, (h.upsert (lc.withEvent_revises event tier nowMs)).recordEvent event.eventId, ?_⟩
    rw [settle_of_open hclosed]
    exact lc.withEvent_transition event tier nowMs

theorem run (h : Sole r s lc) {arrivals : List (Event × Nat)}
    (hevents : ∀ a ∈ arrivals, a.1.resourceId = some r)
    : ∃ lc', Sole r (Run.exec EngineCall.step s (arrivals.map fun a => .apply a.1 a.2)) lc'
        ∧ lc'.status = (arrivals.map (·.1.eventType)).foldl settle lc.status := by
  induction arrivals generalizing s lc with
  | nil => exact ⟨lc, h, rfl⟩
  | cons arrival arrivals ih =>
    rcases h.apply (hevents arrival List.mem_cons_self) arrival.2 with ⟨lc', h', hstatus⟩
    rcases ih h' (fun a ha => hevents a (List.mem_cons_of_mem _ ha)) with ⟨lc'', h'', hstatus'⟩
    refine ⟨lc'', h'', ?_⟩
    rw [hstatus', hstatus]
    rfl

end Sole

theorem Unused.lookupTier {s : σ} (h : Unused s) (event : Event) (tier : InferenceTier)
    : lookupTier s event tier = none := by
  by_contra hfound
  rcases Option.ne_none_iff_exists'.mp hfound with ⟨id, hfind⟩
  have hstored : ∀ lc, get s id ≠ some lc := by
    intro lc hget
    rw [h.none_stored] at hget
    contradiction
  cases tier with
  | explicit =>
    rcases Option.bind_eq_some_iff.mp hfind with ⟨k, _, hk⟩
    rcases get_of_findByBusinessKey h.inv hk with ⟨lc, hget⟩
    exact hstored lc hget
  | businessId =>
    rcases Option.bind_eq_some_iff.mp hfind with ⟨k, _, hk⟩
    rcases get_of_findByBusinessKey h.inv hk with ⟨lc, hget⟩
    exact hstored lc hget
  | causation =>
    rcases Option.bind_eq_some_iff.mp hfind with ⟨eventId, _, hbound⟩
    rw [h.none_bound] at hbound
    contradiction
  | resourceId =>
    rcases Option.bind_eq_some_iff.mp hfind with ⟨r, _, hr⟩
    rcases get_of_findByResource h.inv hr with ⟨lc, hget⟩
    exact hstored lc hget
  | unknown => contradiction

-- The first event of a payment's resource creates the one lifecycle.
theorem Unused.apply {s : σ} (h : Unused s) {event : Event} {r : String}
    (hpayment : LifecycleType.fromEventType event.eventType = some .payment)
    (hevent : event.resourceId = some r) (nowMs : Nat)
    : ∃ lc, Sole r (LifecycleEngine.apply s event nowMs).1 lc
        ∧ lc.status = (transitionFor .payment event.eventType).getD (.started, .open) := by
  have hnone : firstMatch s event = none := by
    rw [firstMatch_eq_none_iff]
    intro tier _
    exact h.lookupTier event tier
  have hcorr : correlate s event
      = .new .payment (some r) (event.businessId.or event.operationId) := by
    rw [correlate_eq, hnone]
    unfold startKeys
    rw [hpayment, hevent]
  rw [apply_of_new hcorr]
  exact ⟨_, (Sole.create h hcorr nowMs).recordEvent event.eventId, rfl⟩

end Athar
