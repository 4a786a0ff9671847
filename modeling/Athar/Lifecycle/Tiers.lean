import Athar.Lifecycle.Lineage
import Athar.Lifecycle.Sole

/-!
This module contains the tiers that a lifecycle records for its events. The tier of an event that joins is
the one that found the lifecycle, and the three indexes answer truthfully as long as no event id is used
twice. The tier of the creating event is not computed: it is the resource id, whichever key there was.
-/

namespace Athar

open LifecycleStore LawfulLifecycleStore LifecycleEngine

-- The tier says why the event belongs to the lifecycle.
def Lifecycle.Justifies (lc : Lifecycle) (event : Event) : InferenceTier → Prop
  | .explicit => ∃ k, event.operationId = some k ∧ lc.businessKey = some k
  | .businessId => ∃ k, event.businessId = some k ∧ lc.businessKey = some k
  | .causation => ∃ p ∈ lc.eventIds,
    event.causality.parentEventId = some p ∨ event.causality.causationId = some p
  | .resourceId => ∃ r, event.resourceId = some r ∧ lc.resourceId = some r
  | .unknown => False

-- Its events are among the given ones, and each is listed with a tier that is true of it.
def Lifecycle.TiersJustified (events : List Event) (lc : Lifecycle) : Prop :=
  List.Forall₂ (fun eventId tier => ∃ e ∈ events, e.eventId = eventId ∧ lc.Justifies e tier)
    lc.eventIds lc.tiers

theorem Lifecycle.Justifies.mono {lc new : Lifecycle} {event : Event} {tier : InferenceTier}
    (h : lc.Justifies event tier) (hrev : new.Revises lc) (hevents : lc.eventIds ⊆ new.eventIds)
    : new.Justifies event tier := by
  cases tier with
  | explicit =>
    rcases h with ⟨k, hk, hkey⟩
    exact ⟨k, hk, hrev.businessKey_eq.trans hkey⟩
  | businessId =>
    rcases h with ⟨k, hk, hkey⟩
    exact ⟨k, hk, hrev.businessKey_eq.trans hkey⟩
  | causation =>
    rcases h with ⟨p, hp, hparent⟩
    exact ⟨p, hevents hp, hparent⟩
  | resourceId =>
    rcases h with ⟨r, hr, hresource⟩
    exact ⟨r, hr, hrev.resourceId_eq.trans hresource⟩
  | unknown => exact h

namespace Lifecycle.TiersJustified

variable {events later : List Event} {lc new : Lifecycle}

theorem mono (h : lc.TiersJustified events) (hsubset : events ⊆ later) : lc.TiersJustified later := by
  apply h.imp
  rintro eventId tier ⟨e, he, hjustifies⟩
  exact ⟨e, hsubset he, hjustifies⟩

-- A later version of the lifecycle that lists the same events.
theorem revise (h : lc.TiersJustified events) (hsubset : events ⊆ later) (hrev : new.Revises lc)
    (hevents : new.eventIds = lc.eventIds) (htiers : new.tiers = lc.tiers)
    : new.TiersJustified later := by
  unfold TiersJustified
  rw [hevents, htiers]
  apply h.imp
  rintro eventId tier ⟨e, he, hid, hjustifies⟩
  refine ⟨e, hsubset he, hid, hjustifies.mono hrev ?_⟩
  rw [hevents]
  exact List.Subset.refl _

theorem withEvent (h : lc.TiersJustified events) (hsubset : events ⊆ later) {event : Event}
    (hmem : event ∈ later) {tier : InferenceTier} (hjustifies : lc.Justifies event tier) (nowMs : Nat)
    : (lc.withEvent event tier nowMs).TiersJustified later := by
  have hrev := lc.withEvent_revises event tier nowMs
  have hlisted : lc.eventIds ⊆ (lc.withEvent event tier nowMs).eventIds := by
    rw [withEvent_eventIds]
    exact List.subset_append_left _ _
  unfold TiersJustified
  rw [withEvent_eventIds, withEvent_tiers]
  apply List.rel_append
  . apply h.imp
    rintro eventId tier' ⟨e, he, hid, hold⟩
    exact ⟨e, hsubset he, hid, hold.mono hrev hlisted⟩
  . apply List.Forall₂.cons _ .nil
    exact ⟨event, hmem, rfl, hjustifies.mono hrev hlisted⟩

end Lifecycle.TiersJustified

section Indexed

variable {σ : Type} [LifecycleStore σ]

-- What an index finds is a lifecycle that has the key.
structure Indexed (seen : List String) (s : σ) : Prop where
  resource : ∀ r id, findByResource s r = some id →
    ∃ lc, get s id = some lc ∧ lc.resourceId = some r
  businessKey : ∀ k id, findByBusinessKey s k = some id →
    ∃ lc, get s id = some lc ∧ lc.businessKey = some k
  event : ∀ x id, findByEvent s x = some id → ∃ lc, get s id = some lc ∧ x ∈ lc.eventIds
  listed : ∀ id lc, get s id = some lc → ∀ x ∈ lc.eventIds, findByEvent s x = some id
  seen : ∀ x id, findByEvent s x = some id → x ∈ seen

-- One lifecycle was written, and its keys with it.
structure Wrote (s s' : σ) (new : Lifecycle) : Prop where
  get_eq : ∀ id, get s' id = if id = new.id then some new else get s id
  resource_eq : ∀ r, findByResource s' r
    = if new.resourceId = some r then some new.id else findByResource s r
  businessKey_eq : ∀ k, findByBusinessKey s' k
    = if new.businessKey = some k then some new.id else findByBusinessKey s k
  event_eq : ∀ x, findByEvent s' x = if x ∈ new.eventIds then some new.id else findByEvent s x

theorem Indexed.write {seen later : List String} {s s' : σ} (h : Indexed seen s) {new : Lifecycle}
    (hwrote : Wrote s s' new) (hrev : ∀ old, get s new.id = some old → new.Revises old)
    (hold : ∀ old, get s new.id = some old → old.eventIds ⊆ new.eventIds)
    (hown : ∀ x ∈ new.eventIds, ∀ id, findByEvent s x = some id → id = new.id)
    (hseen : ∀ x ∈ new.eventIds, x ∈ seen ++ later) : Indexed (seen ++ later) s' := by
  constructor
  . intro r id hfind
    rw [hwrote.resource_eq] at hfind
    rw [hwrote.get_eq]
    split at hfind
    . next hr =>
      rw [if_pos (Option.some.inj hfind).symm]
      exact ⟨new, rfl, hr⟩
    . next hr =>
      rcases h.resource r id hfind with ⟨lc, hget, hlc⟩
      split
      . next hid =>
        rw [hid] at hget
        rw [(hrev lc hget).resourceId_eq] at hr
        exact absurd hlc hr
      . exact ⟨lc, hget, hlc⟩
  . intro k id hfind
    rw [hwrote.businessKey_eq] at hfind
    rw [hwrote.get_eq]
    split at hfind
    . next hk =>
      rw [if_pos (Option.some.inj hfind).symm]
      exact ⟨new, rfl, hk⟩
    . next hk =>
      rcases h.businessKey k id hfind with ⟨lc, hget, hlc⟩
      split
      . next hid =>
        rw [hid] at hget
        rw [(hrev lc hget).businessKey_eq] at hk
        exact absurd hlc hk
      . exact ⟨lc, hget, hlc⟩
  . intro x id hfind
    rw [hwrote.event_eq] at hfind
    rw [hwrote.get_eq]
    split at hfind
    . next hx =>
      rw [if_pos (Option.some.inj hfind).symm]
      exact ⟨new, rfl, hx⟩
    . next hx =>
      rcases h.event x id hfind with ⟨lc, hget, hlc⟩
      split
      . next hid =>
        rw [hid] at hget
        exact absurd (hold lc hget hlc) hx
      . exact ⟨lc, hget, hlc⟩
  . intro id lc hget x hx
    rw [hwrote.get_eq] at hget
    rw [hwrote.event_eq]
    split at hget
    . next hid =>
      rw [← Option.some.inj hget] at hx
      rw [if_pos hx, hid]
    . next hid =>
      have hfind := h.listed id lc hget x hx
      rw [if_neg, hfind]
      intro hnew
      exact hid (hown x hnew id hfind)
  . intro x id hfind
    rw [hwrote.event_eq] at hfind
    split at hfind
    . next hx => exact hseen x hx
    . exact List.mem_append_left _ (h.seen x id hfind)

theorem Indexed.more {seen : List String} {s : σ} (h : Indexed seen s) (later : List String)
    : Indexed (seen ++ later) s where
  resource := h.resource
  businessKey := h.businessKey
  event := h.event
  listed := h.listed
  seen x id hfind := List.mem_append_left _ (h.seen x id hfind)

theorem Indexed.findByEvent_fresh {seen : List String} {s : σ} (h : Indexed seen s) {x : String}
    (hfresh : x ∉ seen) : findByEvent s x = none := by
  cases hfind : findByEvent s x with
  | none => rfl
  | some id => exact absurd (h.seen x id hfind) hfresh

-- The tier that finds a lifecycle for an event is true of the two.
theorem Indexed.justifies {seen : List String} {s : σ} (h : Indexed seen s) {event : Event}
    {id : String} {tier : InferenceTier} (hcorr : correlate s event = .match' id tier) {lc : Lifecycle}
    (hget : get s id = some lc) : lc.Justifies event tier := by
  have hlookup := lookupTier_of_match hcorr
  cases tier with
  | explicit =>
    rcases Option.bind_eq_some_iff.mp hlookup with ⟨k, hk, hfind⟩
    rcases h.businessKey k id hfind with ⟨lc', hget', hkey⟩
    rw [hget, Option.some.injEq] at hget'
    exact ⟨k, hk, by rw [hget', hkey]⟩
  | businessId =>
    rcases Option.bind_eq_some_iff.mp hlookup with ⟨k, hk, hfind⟩
    rcases h.businessKey k id hfind with ⟨lc', hget', hkey⟩
    rw [hget, Option.some.injEq] at hget'
    exact ⟨k, hk, by rw [hget', hkey]⟩
  | causation =>
    rcases Option.bind_eq_some_iff.mp hlookup with ⟨p, hp, hfind⟩
    rcases h.event p id hfind with ⟨lc', hget', hmem⟩
    rw [hget, Option.some.injEq] at hget'
    refine ⟨p, by rw [hget']; exact hmem, ?_⟩
    exact (Option.or_eq_some_iff.mp hp).imp_right (·.2)
  | resourceId =>
    rcases Option.bind_eq_some_iff.mp hlookup with ⟨r, hr, hfind⟩
    rcases h.resource r id hfind with ⟨lc', hget', hresource⟩
    rw [hget, Option.some.injEq] at hget'
    exact ⟨r, hr, by rw [hget', hresource]⟩
  | unknown => contradiction

variable [LawfulLifecycleStore σ]

theorem wrote_upsert {s : σ} (h : Inv s) {new : Lifecycle} (hfits : Fits s new)
    (hrev : ∀ old, get s new.id = some old → new.Revises old) : Wrote s (upsert s new) new where
  get_eq := get_upsert h hfits
  resource_eq := findByResource_upsert_eq h hfits hrev
  businessKey_eq := findByBusinessKey_upsert_eq h hfits hrev
  event_eq := findByEvent_upsert s new

-- Binding an event that the lifecycle lists adds nothing.
theorem Wrote.recordEvent {s : σ} {new : Lifecycle} (h : Wrote s (upsert s new) new) {eventId : String}
    (hmem : eventId ∈ new.eventIds) : Wrote s (recordEvent (upsert s new) eventId new.id) new where
  get_eq := by
    rw [get_recordEvent]
    exact h.get_eq
  resource_eq := by
    rw [findByResource_recordEvent]
    exact h.resource_eq
  businessKey_eq := by
    rw [findByBusinessKey_recordEvent]
    exact h.businessKey_eq
  event_eq := findByEvent_recordEvent_upsert s hmem

end Indexed

namespace LineageRun

section Store

variable {σ : Type} [LifecycleStore σ]

-- The events in the lifecycles.
def events (st : LineageRun σ) : List Event :=
  st.created ++ st.joined.map (·.event)

structure TiersTruthful (st : LineageRun σ) : Prop where
  justified : ∀ id lc, get st.store id = some lc → lc.TiersJustified st.events
  bound : ∀ id lc, get st.store id = some lc → ∀ x ∈ lc.eventIds, findByEvent st.store x = some id

-- A payment event that carries a business id and finds no lifecycle has a resource id too.
def StartsUnderResource (st : LineageRun σ) (arrival : Event × Nat) : Prop :=
  LifecycleType.fromEventType arrival.1.eventType ≠ none → arrival.1.businessId ≠ none →
    (∀ tier ∈ correlationTiers, lookupTier st.store arrival.1 tier = none) →
    arrival.1.resourceId ≠ none

theorem events_subset_step (st : LineageRun σ) (arrival : Event × Nat)
    : st.events ⊆ (st.step arrival).events := by
  intro e he
  unfold events LineageRun.step at *
  rw [List.mem_append] at he ⊢
  apply he.imp
  . exact List.mem_append_left _
  . intro hjoined
    rw [List.map_append]
    exact List.mem_append_left _ hjoined

theorem StartsUnderResource.exists_resource {st : LineageRun σ} {arrival : Event × Nat}
    (h : st.StartsUnderResource arrival) {lct : LifecycleType} {rid key : Option String}
    (hcorr : correlate st.store arrival.1 = .new lct rid key)
    : ∃ r, arrival.1.resourceId = some r ∧ rid = some r := by
  rcases resourceId_of_new hcorr with ⟨hrid, htype, hbusiness⟩
  cases hresource : arrival.1.resourceId with
  | some r => exact ⟨r, rfl, hrid.trans hresource⟩
  | none =>
    have hsome := hbusiness (hrid.trans hresource)
    exact absurd hresource (h htype hsome (fun tier _ => lookupTier_of_new hcorr tier))

-- Without a resource id the lifecycle is started under the business id alone.
theorem correlate_of_not_startsUnderResource {st : LineageRun σ} {arrival : Event × Nat}
    (h : ¬st.StartsUnderResource arrival)
    : ∃ lct key, correlate st.store arrival.1 = .new lct none key := by
  simp only [StartsUnderResource, Classical.not_imp, not_not] at h
  rcases h with ⟨htype, hbusiness, hlookups, hresource⟩
  rcases Option.ne_none_iff_exists'.mp htype with ⟨lct, hlct⟩
  rcases Option.ne_none_iff_exists'.mp hbusiness with ⟨bid, hbid⟩
  refine ⟨lct, some bid, ?_⟩
  rw [correlate_eq, (firstMatch_eq_none_iff _ _).mpr hlookups]
  unfold startKeys
  rw [hlct, hresource, hbid]

-- What a call writes, if it writes a lifecycle.
inductive Recorded (st : LineageRun σ) (arrival : Event × Nat) : Prop where
  | unbound (h : (st.step arrival).store = st.store)
  | late {lc : Lifecycle} (hget : get st.store lc.id = some lc)
    (hwrote : Wrote st.store (st.step arrival).store (lc.withLateEvent arrival.1 arrival.2))
  | updated {lc : Lifecycle} {tier : InferenceTier} (hget : get st.store lc.id = some lc)
    (hjustifies : lc.Justifies arrival.1 tier) (hmem : arrival.1 ∈ (st.step arrival).events)
    (hwrote : Wrote st.store (st.step arrival).store (lc.withEvent arrival.1 tier arrival.2))
  | created {lct : LifecycleType} {rid key : Option String}
    (hcorr : correlate st.store arrival.1 = .new lct rid key)
    (hmem : arrival.1 ∈ (st.step arrival).events)
    (hwrote : Wrote st.store (st.step arrival).store
      (Lifecycle.create arrival.1 lct rid key arrival.2))

variable [LawfulLifecycleStore σ]

structure Known (st : LineageRun σ) : Prop where
  inv : st.Inv
  indexed : Indexed st.seen st.store

variable {st : LineageRun σ} {arrival : Event × Nat}

theorem Known.recorded (h : st.Known) (hfresh : st.Fresh arrival) : st.Recorded arrival := by
  have happlied := apply_applied st.store arrival.1 arrival.2
  have hinv := h.inv.store
  have hstep : (st.step arrival).store = (apply st.store arrival.1 arrival.2).1 := rfl
  have hevents : (st.step arrival).events
      = (st.created ++ if (apply st.store arrival.1 arrival.2).2.creates then [arrival.1] else [])
        ++ (st.joined ++ ((apply st.store arrival.1 arrival.2).2.joins.map
          fun (id, tier) => (⟨arrival.1, id, tier⟩ : Joining)).toList).map Joining.event := rfl
  generalize (apply st.store arrival.1 arrival.2).1 = s' at happlied hstep
  generalize (apply st.store arrival.1 arrival.2).2 = outcome at happlied hevents
  cases happlied with
  | unbound => exact .unbound hstep
  | @late id tier lc hcorr hget hclosed =>
    have hstored := get_self hinv hget
    have hrev := lc.withLateEvent_revises arrival.1 arrival.2
    apply Recorded.late hstored
    rw [hstep]
    exact wrote_upsert hinv (fits_of_revises hinv hstored hrev) (hrev.of_get hstored)
  | @updated id tier lc hcorr hget hopen =>
    have hid := get_id hinv hget
    subst hid
    have hrev := lc.withEvent_revises arrival.1 tier arrival.2
    have hwrote := wrote_upsert hinv (fits_of_revises hinv hget hrev) (hrev.of_get hget)
    apply Recorded.updated hget (h.indexed.justifies hcorr hget)
    . rw [hevents]
      simp [ApplyOutcome.joins]
    . rw [hstep]
      exact hwrote.recordEvent (by simp)
  | @created lct rid key hcorr =>
    have hnone : ∀ old, get st.store ("lc_" ++ arrival.1.eventId) = some old →
        (Lifecycle.create arrival.1 lct rid key arrival.2).Revises old := by
      intro old hold
      rw [h.inv.named.fresh hfresh] at hold
      contradiction
    have hwrote := wrote_upsert hinv (fits_of_new hcorr arrival.2) hnone
    apply Recorded.created hcorr
    . rw [hevents]
      simp [ApplyOutcome.creates]
    . rw [hstep]
      exact hwrote.recordEvent (by simp)

theorem Known.step (h : st.Known) (hfresh : st.Fresh arrival) : (st.step arrival).Known := by
  refine ⟨h.inv.step hfresh, ?_⟩
  have hnew : ∀ {lc : Lifecycle}, get st.store lc.id = some lc → ∀ x ∈ lc.eventIds,
      x ∈ st.seen ++ [arrival.1.eventId] := by
    intro lc hget x hx
    exact List.mem_append_left _ (h.indexed.seen x _ (h.indexed.listed _ lc hget x hx))
  have hseen : (st.step arrival).seen = st.seen ++ [arrival.1.eventId] := rfl
  rw [hseen]
  cases h.recorded hfresh with
  | unbound hsame =>
    rw [hsame]
    exact h.indexed.more _
  | @late lc hget hwrote =>
    have hrev := lc.withLateEvent_revises arrival.1 arrival.2
    apply h.indexed.write hwrote (hrev.of_get hget)
    . intro old hold
      rw [hrev.id_eq, hget, Option.some.injEq] at hold
      rw [← hold]
      exact List.Subset.refl _
    . intro x hx id hfind
      rw [h.indexed.listed _ lc hget x hx] at hfind
      exact (Option.some.inj hfind).symm
    . intro x hx
      exact hnew hget x hx
  | @updated lc tier hget hjustifies hmem hwrote =>
    have hrev := lc.withEvent_revises arrival.1 tier arrival.2
    apply h.indexed.write hwrote (hrev.of_get hget)
    . intro old hold
      rw [hrev.id_eq, hget, Option.some.injEq] at hold
      rw [← hold]
      exact List.subset_append_left _ _
    . intro x hx id hfind
      rw [Lifecycle.withEvent_eventIds, List.mem_append, List.mem_singleton] at hx
      rcases hx with hx | rfl
      . rw [h.indexed.listed _ lc hget x hx] at hfind
        exact (Option.some.inj hfind).symm
      . rw [h.indexed.findByEvent_fresh hfresh] at hfind
        contradiction
    . intro x hx
      rw [Lifecycle.withEvent_eventIds, List.mem_append, List.mem_singleton] at hx
      rcases hx with hx | rfl
      . exact hnew hget x hx
      . simp
  | created hcorr hmem hwrote =>
    have hnone := h.inv.named.fresh hfresh
    apply h.indexed.write hwrote
    . intro old hold
      rw [Lifecycle.create_id, hnone] at hold
      contradiction
    . intro old hold
      rw [Lifecycle.create_id, hnone] at hold
      contradiction
    . intro x hx id hfind
      rw [Lifecycle.create_eventIds, List.mem_singleton] at hx
      rw [hx, h.indexed.findByEvent_fresh hfresh] at hfind
      contradiction
    . intro x hx
      rw [Lifecycle.create_eventIds] at hx
      exact List.mem_append_right _ hx

theorem TiersTruthful.step (h : st.TiersTruthful) (hknown : st.Known) (hfresh : st.Fresh arrival)
    (hstarts : st.StartsUnderResource arrival) : (st.step arrival).TiersTruthful := by
  have hsubset := st.events_subset_step arrival
  have hkept : ∀ id lc, get st.store id = some lc → lc.TiersJustified (st.step arrival).events := by
    intro id lc hget
    exact (h.justified id lc hget).mono hsubset
  refine ⟨?_, (hknown.step hfresh).indexed.listed⟩
  have hwritten : ∀ {new : Lifecycle}, Wrote st.store (st.step arrival).store new →
      new.TiersJustified (st.step arrival).events → ∀ id lc,
        get (st.step arrival).store id = some lc → lc.TiersJustified (st.step arrival).events := by
    intro new hwrote hnew id lc hget
    rw [hwrote.get_eq] at hget
    split at hget
    . rw [← Option.some.inj hget]
      exact hnew
    . exact hkept id lc hget
  cases hknown.recorded hfresh with
  | unbound hsame =>
    rw [hsame]
    exact hkept
  | @late lc hget hwrote =>
    apply hwritten hwrote
    exact (h.justified _ lc hget).revise hsubset (lc.withLateEvent_revises _ _) rfl rfl
  | @updated lc tier hget hjustifies hmem hwrote =>
    apply hwritten hwrote
    exact (h.justified _ lc hget).withEvent hsubset hmem hjustifies _
  | created hcorr hmem hwrote =>
    apply hwritten hwrote
    rcases hstarts.exists_resource hcorr with ⟨r, hr, hrid⟩
    exact .cons ⟨arrival.1, hmem, rfl, r, hr, hrid⟩ .nil

-- The creating event is said to be there by a resource id that the lifecycle does not have.
theorem TiersTruthful.break (hinv : LawfulLifecycleStore.Inv st.store)
    (hstarts : ¬st.StartsUnderResource arrival) : ¬(st.step arrival).TiersTruthful := by
  intro h
  rcases correlate_of_not_startsUnderResource hstarts with ⟨lct, key, hcorr⟩
  have hget : get (st.step arrival).store ("lc_" ++ arrival.1.eventId)
      = some (Lifecycle.create arrival.1 lct none key arrival.2) := by
    unfold LineageRun.step
    dsimp only
    rw [apply_of_new hcorr, get_recordEvent, get_upsert hinv (fits_of_new hcorr arrival.2),
      Lifecycle.create_id, if_pos rfl]
  cases h.justified _ _ hget with
  | cons hfirst _ =>
    rcases hfirst with ⟨e, _, _, r, _, hresource⟩
    contradiction

end Store

theorem Known.start (backend : Backend) : Known (start (DynStore.empty backend)) where
  inv := Inv.start backend
  indexed := by
    constructor
    . intro r id hfind
      rw [LineageRun.start, DynStore.findByResource_empty] at hfind
      contradiction
    . intro k id hfind
      rw [LineageRun.start, DynStore.findByBusinessKey_empty] at hfind
      contradiction
    . intro x id hfind
      rw [LineageRun.start, DynStore.findByEvent_empty] at hfind
      contradiction
    . intro id lc hget
      rw [LineageRun.start, DynStore.get_empty] at hget
      contradiction
    . intro x id hfind
      rw [LineageRun.start, DynStore.findByEvent_empty] at hfind
      contradiction

/--
Along a run over an empty store, events with distinct ids only ever get tiers that are true of them if and
only if no event starts a lifecycle without a resource id.
-/
theorem tiersTruthful_iff_startsUnderResource (backend : Backend) {arrivals : List (Event × Nat)}
    (hdistinct : (arrivals.map (·.1.eventId)).Nodup)
    : Run.Always step TiersTruthful (start (DynStore.empty backend)) arrivals
        ↔ Run.Guarded step StartsUnderResource (start (DynStore.empty backend)) arrivals := by
  apply Run.always_iff_guarded_of_guarded (I := fun st => st.Known ∧ st.TiersTruthful)
    (guarded_fresh _ hdistinct)
  . refine ⟨Known.start backend, ?_, (Known.start backend).indexed.listed⟩
    intro id lc hget
    rw [LineageRun.start, DynStore.get_empty] at hget
    contradiction
  . rintro st arrival ⟨hknown, htruthful⟩ hfresh hstarts
    exact ⟨hknown.step hfresh, htruthful.step hknown hfresh hstarts⟩
  . rintro st ⟨_, htruthful⟩
    exact htruthful
  . rintro st arrival ⟨hknown, _⟩ _ hstarts
    exact TiersTruthful.break hknown.inv.store hstarts

end LineageRun

section Instances

open LineageRun

theorem tiersTruthful_iff_startsUnderResource_payment
    : Run.Always step TiersTruthful (start (DynStore.empty .sqlite)) [(creation, 5), (settlement, 7)]
        ↔ Run.Guarded step StartsUnderResource (start (DynStore.empty .sqlite))
          [(creation, 5), (settlement, 7)] :=
  tiersTruthful_iff_startsUnderResource .sqlite (by decide)

-- A payment that is known by its order only.
def orderEvent (eventType eventId orderId : String) : Event :=
  { paymentEvent eventType eventId "tnt_a" "" with
    resource := none
    causality := ⟨none, none, none, AList.insert "business_id" orderId ∅⟩ }

def orderRun : List (Event × Nat) :=
  [(orderEvent "payment.create" "e1" "ord_1", 5)]

theorem orderRun_not_by_resource
    : (orderRun.map (·.1.eventId)).Nodup
        ∧ ¬Run.Always step TiersTruthful (start (DynStore.empty .inMemory)) orderRun
        ∧ ¬Run.Always step TiersTruthful (start (DynStore.empty .sqlite)) orderRun := by
  have hstarts : ∀ backend, ¬StartsUnderResource (start (DynStore.empty backend))
      (orderEvent "payment.create" "e1" "ord_1", 5) := by
    intro backend h
    have hbusiness : (orderEvent "payment.create" "e1" "ord_1").businessId = some "ord_1" :=
      AList.lookup_insert _
    apply h (by decide) (by rw [hbusiness]; simp) _ rfl
    intro tier _
    exact (unused_empty backend).lookupTier _ tier
  refine ⟨by decide, ?_, ?_⟩
  . intro h
    exact TiersTruthful.break (DynStore.inv_empty .inMemory) (hstarts .inMemory) h.last
  . intro h
    exact TiersTruthful.break (DynStore.inv_empty .sqlite) (hstarts .sqlite) h.last

end Instances

end Athar
