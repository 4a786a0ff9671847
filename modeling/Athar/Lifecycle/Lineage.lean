import Athar.Lifecycle.Splitting

/-!
This module contains runs of the engine that keep track of the events: which of them created a
lifecycle, and which joined one, by which tier. The resource index is the list of the creators: a
resource id finds the lifecycle of the one creator that carries it.
-/

namespace Athar

open LifecycleStore LawfulLifecycleStore LifecycleEngine

-- An event in a lifecycle that an earlier event created.
structure Joining where
  event : Event
  lifecycleId : String
  tier : InferenceTier

namespace ApplyOutcome

def joins : ApplyOutcome → Option (String × InferenceTier)
  | .updated lifecycleId tier _ _ => some (lifecycleId, tier)
  | .lateEvent lifecycleId tier _ => some (lifecycleId, tier)
  | _ => none

def creates : ApplyOutcome → Bool
  | .created _ _ _ _ => true
  | _ => false

end ApplyOutcome

structure LineageRun (σ : Type) where
  store : σ
  seen : List String
  created : List Event
  joined : List Joining

namespace LineageRun

variable {σ : Type} [LifecycleStore σ]

def start (store : σ) : LineageRun σ := ⟨store, [], [], []⟩

def step (st : LineageRun σ) (arrival : Event × Nat) : LineageRun σ :=
  let (store, outcome) := apply st.store arrival.1 arrival.2
  { store
    seen := st.seen ++ [arrival.1.eventId]
    created := st.created ++ if outcome.creates then [arrival.1] else []
    joined := st.joined ++ (outcome.joins.map fun (id, tier) => ⟨arrival.1, id, tier⟩).toList }

def Fresh (st : LineageRun σ) (arrival : Event × Nat) : Prop :=
  arrival.1.eventId ∉ st.seen

-- The lookups of the event by the tiers that come before the resource id.
def UnmatchedBefore (st : LineageRun σ) (event : Event) : Prop :=
  ∀ tier ∈ [InferenceTier.explicit, .businessId, .causation], lookupTier st.store event tier = none

theorem guarded_fresh (store : σ) {arrivals : List (Event × Nat)}
    (hdistinct : (arrivals.map (·.1.eventId)).Nodup)
    : Run.Guarded step Fresh (start store) arrivals := by
  have hkeys : (seen (start store) ++ arrivals.flatMap fun a => [a.1.eventId]).Nodup := by
    rw [← List.map_eq_flatMap]
    exact hdistinct
  have hseen : ∀ (st : LineageRun σ) (arrival : Event × Nat),
      seen (step st arrival) = seen st ++ [arrival.1.eventId] := fun _ _ => rfl
  have hfresh := Run.guarded_fresh hseen hkeys
  intro pre arrival hpre
  exact hfresh pre arrival hpre _ (List.mem_singleton_self _)

theorem correlate_resourceId_iff {st : LineageRun σ} {event : Event} {id : String}
    : correlate st.store event = .match' id .resourceId
        ↔ st.UnmatchedBefore event ∧ event.resourceId.bind (findByResource st.store) = some id := by
  unfold correlate UnmatchedBefore
  simp only [List.forall_mem_cons, List.not_mem_nil, false_imp_iff, implies_true, and_true, lookupTier]
  split
  . next hexplicit => simp [hexplicit]
  . next hexplicit =>
    split
    . next hbusiness => simp [hexplicit, hbusiness]
    . next hbusiness =>
      split
      . next hcausation => simp [hexplicit, hbusiness, hcausation]
      . next hcausation =>
        simp only [hexplicit, hbusiness, hcausation, true_and]
        split
        . next hresource => simp [hresource]
        . next hresource =>
          rw [hresource]
          repeat' split
          all_goals simp

-- What a call adds to the events that joined.
theorem mem_joined_step {st : LineageRun σ} {arrival : Event × Nat} {j : Joining}
    (hj : j ∈ (st.step arrival).joined)
    : j ∈ st.joined ∨ (j.event = arrival.1
        ∧ correlate st.store arrival.1 = .match' j.lifecycleId j.tier) := by
  have happlied := apply_applied st.store arrival.1 arrival.2
  unfold step at hj
  generalize apply st.store arrival.1 arrival.2 = result at happlied hj
  rcases result with ⟨store, outcome⟩
  dsimp only at happlied hj
  rw [List.mem_append, Option.mem_toList, Option.map_eq_some_iff] at hj
  apply hj.imp_right
  rintro ⟨⟨id, tier⟩, hjoins, rfl⟩
  cases happlied with
  | unbound hunmatched hnew => contradiction
  | late hcorr hlc hclosed =>
    cases hjoins
    exact ⟨rfl, hcorr⟩
  | updated hcorr hlc hopen =>
    cases hjoins
    exact ⟨rfl, hcorr⟩
  | created hcorr => contradiction

theorem joined_step {st : LineageRun σ} {arrival : Event × Nat} {id : String} {tier : InferenceTier}
    {lc : Lifecycle} (hcorr : correlate st.store arrival.1 = .match' id tier)
    (hget : get st.store id = some lc)
    : (st.step arrival).joined = st.joined ++ [⟨arrival.1, id, tier⟩]
        ∧ (st.step arrival).created = st.created := by
  unfold step
  by_cases hclosed : lc.closure.isClosed
  . rw [apply_of_closed hcorr hget hclosed]
    simp [ApplyOutcome.joins, ApplyOutcome.creates]
  . rw [apply_of_open hcorr hget hclosed]
    simp [ApplyOutcome.joins, ApplyOutcome.creates]

theorem created_subset_step (st : LineageRun σ) (arrival : Event × Nat) {e : Event}
    (he : e ∈ st.created) : e ∈ (st.step arrival).created :=
  List.mem_append_left _ he

variable [LawfulLifecycleStore σ]

-- Who created what: the resource index knows the creators and nothing else.
structure Inv (st : LineageRun σ) : Prop where
  store : LawfulLifecycleStore.Inv st.store
  named : Named st.seen st.store
  created_seen : ∀ e ∈ st.created, e.eventId ∈ st.seen
  created_inj : ∀ e ∈ st.created, ∀ e' ∈ st.created, e.eventId = e'.eventId → e = e'
  findByResource_iff : ∀ r id, findByResource st.store r = some id
    ↔ ∃ e ∈ st.created, e.resourceId = some r ∧ id = "lc_" ++ e.eventId

theorem Inv.start (backend : Backend) : Inv (start (DynStore.empty backend)) := by
  constructor
  . exact DynStore.inv_empty backend
  . exact named_empty backend
  . simp [LineageRun.start]
  . simp [LineageRun.start]
  . intro r id
    rw [LineageRun.start, DynStore.findByResource_empty]
    simp

-- An event that joins a lifecycle leaves the resource index as it is.
theorem findByResource_revises {st : LineageRun σ} (h : LawfulLifecycleStore.Inv st.store)
    {id : String} {lc new : Lifecycle} (hget : get st.store id = some lc) (hrev : new.Revises lc)
    (r : String) : findByResource (upsert st.store new) r = findByResource st.store r := by
  have hstored := get_self h hget
  rw [findByResource_upsert_eq h (fits_of_revises h hstored hrev) (hrev.of_get hstored)]
  split
  . next hr =>
    rw [hrev.resourceId_eq] at hr
    rw [findByResource_of_get h hstored hr, hrev.id_eq]
  . rfl

-- An event that no lookup finds a lifecycle for starts one under its own resource id, if it has one.
omit [LawfulLifecycleStore σ] in
theorem resourceId_of_new {s : σ} {event : Event} {lct : LifecycleType} {rid key : Option String}
    (h : correlate s event = .new lct rid key)
    : rid = event.resourceId ∧ LifecycleType.fromEventType event.eventType ≠ none
        ∧ (rid = none → event.businessId ≠ none) := by
  have hkeys := startKeys_of_new h
  unfold startKeys at hkeys
  split at hkeys
  . contradiction
  . next lct' htype =>
    split at hkeys
    . next r hresource =>
      cases hkeys
      exact ⟨hresource.symm, by simp [htype], by simp⟩
    . next bid hresource hbusiness =>
      cases hkeys
      exact ⟨hresource.symm, by simp [htype], by simp [hbusiness]⟩
    . contradiction

-- A created lifecycle is indexed by the resource id of its event.
theorem findByResource_create {st : LineageRun σ} (h : st.Inv) {event : Event}
    (hfresh : event.eventId ∉ st.seen) {lct : LifecycleType} {rid key : Option String}
    (hcorr : correlate st.store event = .new lct rid key) (nowMs : Nat) (r : String)
    : findByResource (recordEvent (upsert st.store (Lifecycle.create event lct rid key nowMs))
          event.eventId ("lc_" ++ event.eventId)) r
        = if event.resourceId = some r then some ("lc_" ++ event.eventId)
          else findByResource st.store r := by
  have hrid := (resourceId_of_new hcorr).1
  rw [findByResource_recordEvent, findByResource_upsert_eq h.store (fits_of_new hcorr nowMs)]
  . rw [Lifecycle.create_resourceId, Lifecycle.create_id, hrid]
  . intro old hget
    rw [Lifecycle.create_id, h.named.fresh hfresh] at hget
    contradiction

theorem Inv.created_inj_concat {st : LineageRun σ} (h : st.Inv) {event : Event}
    (hfresh : event.eventId ∉ st.seen)
    : ∀ e ∈ st.created ++ [event], ∀ e' ∈ st.created ++ [event], e.eventId = e'.eventId → e = e' := by
  intro e he e' he' heq
  rw [List.mem_append, List.mem_singleton] at he he'
  rcases he with hold | rfl <;> rcases he' with hold' | rfl
  . exact h.created_inj e hold e' hold' heq
  . have hseen := h.created_seen e hold
    rw [heq] at hseen
    exact absurd hseen hfresh
  . have hseen := h.created_seen e' hold'
    rw [← heq] at hseen
    exact absurd hseen hfresh
  . rfl

theorem Inv.findByResource_created {st : LineageRun σ} (h : st.Inv) {event : Event}
    (hfresh : event.eventId ∉ st.seen) {lct : LifecycleType} {rid key : Option String}
    (hcorr : correlate st.store event = .new lct rid key) (nowMs : Nat) (r id : String)
    : findByResource (recordEvent (upsert st.store (Lifecycle.create event lct rid key nowMs))
          event.eventId ("lc_" ++ event.eventId)) r = some id
        ↔ ∃ e ∈ st.created ++ [event], e.resourceId = some r ∧ id = "lc_" ++ e.eventId := by
  have hunknown := lookupTier_of_new hcorr .resourceId
  have hold := h.findByResource_iff r id
  rw [findByResource_create h hfresh hcorr]
  by_cases hr : event.resourceId = some r
  . rw [lookupTier, hr, Option.bind_some] at hunknown
    rw [hunknown] at hold
    rw [if_pos hr]
    constructor
    . intro hid
      exact ⟨event, by simp, hr, (Option.some.inj hid).symm⟩
    . rintro ⟨e, he, hcarries, rfl⟩
      rw [List.mem_append, List.mem_singleton] at he
      rcases he with he | rfl
      . have hfound := hold.mpr ⟨e, he, hcarries, rfl⟩
        contradiction
      . rfl
  . rw [if_neg hr, hold]
    constructor
    . rintro ⟨e, he, hcarries, hid⟩
      exact ⟨e, List.mem_append_left _ he, hcarries, hid⟩
    . rintro ⟨e, he, hcarries, hid⟩
      rw [List.mem_append, List.mem_singleton] at he
      rcases he with he | rfl
      . exact ⟨e, he, hcarries, hid⟩
      . exact absurd hcarries hr

theorem Inv.step {st : LineageRun σ} (h : st.Inv) {arrival : Event × Nat} (hfresh : st.Fresh arrival)
    : (st.step arrival).Inv := by
  have happlied := apply_applied st.store arrival.1 arrival.2
  have hinv := happlied.inv h.store
  have hnamed := (apply_stable h.store h.named hfresh arrival.2).1
  have hseen : ∀ e ∈ st.created, e.eventId ∈ st.seen ++ [arrival.1.eventId] := by
    intro e he
    exact List.mem_append_left _ (h.created_seen e he)
  unfold LineageRun.step
  generalize apply st.store arrival.1 arrival.2 = result at happlied hinv hnamed
  rcases result with ⟨store, outcome⟩
  dsimp only at happlied hinv hnamed ⊢
  cases happlied with
  | unbound =>
    simp only [ApplyOutcome.creates, Bool.false_eq_true, ↓reduceIte, List.append_nil]
    exact ⟨hinv, hnamed, hseen, h.created_inj, h.findByResource_iff⟩
  | late hcorr hget hclosed =>
    simp only [ApplyOutcome.creates, Bool.false_eq_true, ↓reduceIte, List.append_nil]
    refine ⟨hinv, hnamed, hseen, h.created_inj, ?_⟩
    intro r id
    rw [findByResource_revises h.store hget (Lifecycle.withLateEvent_revises _ _ _)]
    exact h.findByResource_iff r id
  | updated hcorr hget hopen =>
    simp only [ApplyOutcome.creates, Bool.false_eq_true, ↓reduceIte, List.append_nil]
    refine ⟨hinv, hnamed, hseen, h.created_inj, ?_⟩
    intro r id
    rw [findByResource_recordEvent,
      findByResource_revises h.store hget (Lifecycle.withEvent_revises _ _ _ _)]
    exact h.findByResource_iff r id
  | created hcorr =>
    simp only [ApplyOutcome.creates, ↓reduceIte]
    refine ⟨hinv, hnamed, ?_, h.created_inj_concat hfresh, h.findByResource_created hfresh hcorr _⟩
    intro e he
    rcases List.mem_append.mp he with hold | hnew
    . exact hseen e hold
    . rw [List.mem_singleton.mp hnew]
      simp

end LineageRun

end Athar
