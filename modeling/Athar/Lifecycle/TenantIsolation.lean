import Athar.Lib.Unwinding
import Athar.Lifecycle.Instance
import Athar.Lifecycle.TenantView

/-!
This module contains the isolation of tenants in the lifecycle engine, over two runs that agree on
the events of one tenant. The lookups of a store take no tenant, so an event may correlate to the
lifecycle of another one. As long as none does, each tenant sees what it would see alone, which is
proved by unwinding a run against the run of the tenant's own events.
-/

namespace Athar

open LifecycleStore LawfulLifecycleStore LifecycleEngine

structure TenantRun (σ : Type) where
  store : σ
  applied : List Event

def Lifecycle.contained (lc : Lifecycle) : List String :=
  lc.eventIds ++ lc.lateEvents.map (·.eventId)

namespace TenantRun

variable {σ : Type} [LifecycleStore σ]

def start (store : σ) : TenantRun σ := ⟨store, []⟩

def step (st : TenantRun σ) (input : Event × Nat) : TenantRun σ × ApplyOutcome :=
  let (store, outcome) := LifecycleEngine.apply st.store input.1 input.2
  (⟨store, st.applied ++ [input.1]⟩, outcome)

abbrev next : TenantRun σ → Event × Nat → TenantRun σ :=
  Unwinding.next step

def ofTenant (tenantId : String) (input : Event × Nat) : Bool :=
  input.1.tenantId = tenantId

-- No lifecycle contains events of two tenants.
def Unmixed (st : TenantRun σ) : Prop :=
  ∀ id lc, get st.store id = some lc → ∀ x ∈ st.applied, ∀ y ∈ st.applied,
    x.eventId ∈ lc.contained → y.eventId ∈ lc.contained → x.tenantId = y.tenantId

def Holds (st : TenantRun σ) (tenantId : String) (lc : Lifecycle) : Prop :=
  get st.store lc.id = some lc ∧ ∃ x ∈ st.applied, x.tenantId = tenantId ∧ x.eventId ∈ lc.contained

-- The first lookup that finds a lifecycle for an event, if any does, finds one of its own tenant.
def MatchesOwn (st : TenantRun σ) (input : Event × Nat) : Prop :=
  ∀ id tier lc, firstMatch st.store input.1 = some (id, tier) → get st.store id = some lc →
    lc.tenantId = input.1.tenantId

theorem MatchesOwn.tenantId_eq {st : TenantRun σ} {input : Event × Nat} (h : st.MatchesOwn input)
    {id : String} {tier : InferenceTier} {lc : Lifecycle}
    (hcorr : correlate st.store input.1 = .match' id tier) (hget : get st.store id = some lc)
    : lc.tenantId = input.1.tenantId :=
  h id tier lc (firstMatch_of_match hcorr) hget

structure Isolated (tenantId : String) (st : TenantRun σ) (xs ys : List (Event × Nat)) : Prop where
  outcomes : Unwinding.outputs step (ofTenant tenantId) st xs
    = Unwinding.outputs step (ofTenant tenantId) st ys
  lifecycles : ∀ lc, (Run.exec next st xs).Holds tenantId lc ↔ (Run.exec next st ys).Holds tenantId lc
  unmixed_left : Run.Always next Unmixed st xs
  unmixed_right : Run.Always next Unmixed st ys

variable [LawfulLifecycleStore σ]

structure Inv (st : TenantRun σ) : Prop where
  store : LawfulLifecycleStore.Inv st.store
  nodup : (st.applied.map (·.eventId)).Nodup
  ids : ∀ id lc, get st.store id = some lc → ∃ x ∈ st.applied, id = "lc_" ++ x.eventId
  eventTarget : ∀ eventId id, findByEvent st.store eventId = some id →
    ∃ lc, get st.store id = some lc ∧ eventId ∈ lc.eventIds
  eventIndex : ∀ id lc, get st.store id = some lc → ∀ eventId ∈ lc.eventIds,
    findByEvent st.store eventId = some id
  owned : ∀ id lc, get st.store id = some lc → ∀ eventId ∈ lc.contained,
    ∃ x ∈ st.applied, x.eventId = eventId ∧ x.tenantId = lc.tenantId
  nonempty : ∀ id lc, get st.store id = some lc → lc.eventIds ≠ []

-- What a write to the store has to meet to keep the invariant.
structure Write (st : TenantRun σ) (event : Event) (new : Lifecycle) : Prop where
  id : ∃ x ∈ st.applied ++ [event], new.id = "lc_" ++ x.eventId
  owned : ∀ eventId ∈ new.contained,
    ∃ x ∈ st.applied ++ [event], x.eventId = eventId ∧ x.tenantId = new.tenantId
  nonempty : new.eventIds ≠ []
  old : ∀ old, get st.store new.id = some old → old.eventIds ⊆ new.eventIds
  index : ∀ eventId ∈ new.eventIds, ∀ id, findByEvent st.store eventId = some id → id = new.id

theorem Inv.write {st : TenantRun σ} (h : st.Inv) {event : Event} {new : Lifecycle}
    (hw : st.Write event new) (hfresh : event.eventId ∉ st.applied.map (·.eventId)) {s' : σ}
    (hinv : LawfulLifecycleStore.Inv s')
    (hget : ∀ id, get s' id = if id = new.id then some new else get st.store id)
    (hfind : ∀ eventId, findByEvent s' eventId
      = if eventId ∈ new.eventIds then some new.id else findByEvent st.store eventId)
    : Inv ⟨s', st.applied ++ [event]⟩ := by
  have hmono : ∀ {P : Event → Prop}, (∃ x ∈ st.applied, P x) → ∃ x ∈ st.applied ++ [event], P x := by
    rintro P ⟨x, hx, hP⟩
    exact ⟨x, List.mem_append_left _ hx, hP⟩
  constructor
  . exact hinv
  . rw [List.map_append, List.map_singleton, ← List.concat_eq_append]
    exact List.Nodup.concat hfresh h.nodup
  . intro id lc hlc
    rw [hget] at hlc
    split at hlc
    . next hid =>
      rw [hid]
      exact hw.id
    . exact hmono (h.ids id lc hlc)
  . intro eventId id hevent
    rw [hfind] at hevent
    rw [hget]
    split at hevent
    . next hmem =>
      rw [if_pos (Option.some.inj hevent).symm]
      exact ⟨new, rfl, hmem⟩
    . next hnot =>
      rcases h.eventTarget eventId id hevent with ⟨lc, hlc, hmem⟩
      split
      . next hid =>
        rw [hid] at hlc
        exact absurd (hw.old lc hlc hmem) hnot
      . exact ⟨lc, hlc, hmem⟩
  . intro id lc hlc eventId hevent
    rw [hget] at hlc
    rw [hfind]
    split at hlc
    . next hid =>
      rw [← Option.some.inj hlc] at hevent
      rw [if_pos hevent, hid]
    . next hid =>
      have hold := h.eventIndex id lc hlc eventId hevent
      rw [if_neg, hold]
      intro hmem
      exact hid (hw.index eventId hmem id hold)
  . intro id lc hlc
    rw [hget] at hlc
    split at hlc
    . rw [← Option.some.inj hlc]
      exact hw.owned
    . intro eventId hevent
      exact hmono (h.owned id lc hlc eventId hevent)
  . intro id lc hlc
    rw [hget] at hlc
    split at hlc
    . rw [← Option.some.inj hlc]
      exact hw.nonempty
    . exact h.nonempty id lc hlc

theorem Inv.unbound {st : TenantRun σ} (h : st.Inv) {event : Event}
    (hfresh : event.eventId ∉ st.applied.map (·.eventId))
    : Inv ⟨st.store, st.applied ++ [event]⟩ := by
  refine ⟨h.store, ?_, ?_, h.eventTarget, h.eventIndex, ?_, h.nonempty⟩
  . rw [List.map_append, List.map_singleton, ← List.concat_eq_append]
    exact List.Nodup.concat hfresh h.nodup
  . intro id lc hlc
    rcases h.ids id lc hlc with ⟨x, hx, hid⟩
    exact ⟨x, List.mem_append_left _ hx, hid⟩
  . intro id lc hlc eventId hevent
    rcases h.owned id lc hlc eventId hevent with ⟨x, hx, heq⟩
    exact ⟨x, List.mem_append_left _ hx, heq⟩

theorem Inv.find_fresh {st : TenantRun σ} (h : st.Inv) {eventId : String}
    (hfresh : eventId ∉ st.applied.map (·.eventId)) : findByEvent st.store eventId = none := by
  cases hfind : findByEvent st.store eventId with
  | none => rfl
  | some id =>
    rcases h.eventTarget eventId id hfind with ⟨lc, hget, hmem⟩
    rcases h.owned id lc hget eventId (List.mem_append_left _ hmem) with ⟨x, hx, heq, _⟩
    exact absurd (List.mem_map.mpr ⟨x, hx, heq⟩) hfresh

theorem Inv.get_fresh {st : TenantRun σ} (h : st.Inv) {eventId : String}
    (hfresh : eventId ∉ st.applied.map (·.eventId))
    : get st.store ("lc_" ++ eventId) = none := by
  cases hget : get st.store ("lc_" ++ eventId) with
  | none => rfl
  | some lc =>
    rcases h.ids _ lc hget with ⟨x, hx, hid⟩
    exact absurd (List.mem_map.mpr ⟨x, hx, (lc_append_inj hid).symm⟩) hfresh

-- A later version of a stored lifecycle that contains one more event, of its own tenant.
theorem Inv.revised_write {st : TenantRun σ} (h : st.Inv) {event : Event}
    (hfresh : event.eventId ∉ st.applied.map (·.eventId)) {lc new : Lifecycle}
    (hget : get st.store lc.id = some lc) (hrev : new.Revises lc)
    (htenant : lc.tenantId = event.tenantId)
    (hevents : new.eventIds = lc.eventIds ∨ new.eventIds = lc.eventIds ++ [event.eventId])
    (hcontained : ∀ eventId ∈ new.contained, eventId ∈ lc.contained ∨ eventId = event.eventId)
    : st.Write event new where
  id := by
    rcases h.ids _ lc hget with ⟨x, hx, hid⟩
    rw [hrev.id_eq]
    exact ⟨x, List.mem_append_left _ hx, hid⟩
  owned eventId hevent := by
    rw [hrev.tenantId_eq]
    cases hcontained eventId hevent with
    | inl hold =>
      rcases h.owned _ lc hget eventId hold with ⟨x, hx, heq⟩
      exact ⟨x, List.mem_append_left _ hx, heq⟩
    | inr hnew => exact ⟨event, by simp, hnew.symm, htenant.symm⟩
  nonempty := by
    have := h.nonempty _ lc hget
    cases hevents with
    | inl hsame => rwa [hsame]
    | inr hmore => simp [hmore]
  old old hold := by
    rw [hrev.id_eq, hget, Option.some.injEq] at hold
    subst hold
    cases hevents with
    | inl hsame => rw [hsame]; exact List.Subset.refl _
    | inr hmore => rw [hmore]; exact List.subset_append_left _ _
  index eventId hevent id hfind := by
    have hold : eventId ∈ lc.eventIds → id = new.id := by
      intro hmem
      rw [h.eventIndex _ lc hget eventId hmem, Option.some.injEq] at hfind
      rw [hrev.id_eq, hfind]
    cases hevents with
    | inl hsame =>
      rw [hsame] at hevent
      exact hold hevent
    | inr hmore =>
      rw [hmore, List.mem_append, List.mem_singleton] at hevent
      cases hevent with
      | inl hmem => exact hold hmem
      | inr hnew =>
        rw [hnew, h.find_fresh hfresh] at hfind
        contradiction

theorem Inv.created_write {st : TenantRun σ} (h : st.Inv) {event : Event}
    (hfresh : event.eventId ∉ st.applied.map (·.eventId)) (lct : LifecycleType)
    (rid key : Option String) (nowMs : Nat)
    : st.Write event (Lifecycle.create event lct rid key nowMs) where
  id := ⟨event, by simp, rfl⟩
  owned eventId hevent := by
    have heq : eventId = event.eventId := by
      simpa [Lifecycle.contained] using hevent
    exact ⟨event, by simp, heq.symm, rfl⟩
  nonempty := by simp
  old old hold := by
    rw [Lifecycle.create_id, h.get_fresh hfresh] at hold
    contradiction
  index eventId hevent id hfind := by
    rw [Lifecycle.create_eventIds, List.mem_singleton] at hevent
    rw [hevent, h.find_fresh hfresh] at hfind
    contradiction

theorem contained_withLateEvent (lc : Lifecycle) (event : Event) (nowMs : Nat) (eventId : String)
    : eventId ∈ (lc.withLateEvent event nowMs).contained
        ↔ eventId ∈ lc.contained ∨ eventId = event.eventId := by
  simp [Lifecycle.contained, or_assoc]

theorem contained_withEvent (lc : Lifecycle) (event : Event) (tier : InferenceTier) (nowMs : Nat)
    (eventId : String)
    : eventId ∈ (lc.withEvent event tier nowMs).contained
        ↔ eventId ∈ lc.contained ∨ eventId = event.eventId := by
  simp only [Lifecycle.contained, Lifecycle.withEvent_eventIds, Lifecycle.withEvent_lateEvents,
    List.mem_append, List.mem_singleton]
  rw [or_right_comm]

theorem Inv.step {st : TenantRun σ} (h : st.Inv) {input : Event × Nat}
    (hfresh : input.1.eventId ∉ st.applied.map (·.eventId)) (hown : st.MatchesOwn input)
    : Inv (next st input) := by
  rcases input with ⟨event, nowMs⟩
  have happlied := apply_applied st.store event nowMs
  have hstep : next st (event, nowMs)
      = ⟨(LifecycleEngine.apply st.store event nowMs).1, st.applied ++ [event]⟩ := by
    rfl
  rw [hstep]
  generalize LifecycleEngine.apply st.store event nowMs = result at happlied
  rcases result with ⟨s', outcome⟩
  dsimp only at happlied hfresh ⊢
  cases happlied with
  | unbound => exact h.unbound hfresh
  | @late id tier lc hcorr hget hclosed =>
    have htenant := hown.tenantId_eq hcorr hget
    have hid := get_id h.store hget
    subst hid
    have hrev := lc.withLateEvent_revises event nowMs
    have hfits := fits_of_revises h.store hget hrev
    have hw := h.revised_write hfresh hget hrev htenant (Or.inl rfl)
      (fun eventId => (contained_withLateEvent lc event nowMs eventId).mp)
    exact h.write hw hfresh (inv_upsert h.store hfits) (get_upsert h.store hfits)
      (findByEvent_upsert st.store _)
  | @updated id tier lc hcorr hget hopen =>
    have htenant := hown.tenantId_eq hcorr hget
    have hid := get_id h.store hget
    subst hid
    have hrev := lc.withEvent_revises event tier nowMs
    have hfits := fits_of_revises h.store hget hrev
    have hw := h.revised_write hfresh hget hrev htenant (Or.inr rfl)
      (fun eventId => (contained_withEvent lc event tier nowMs eventId).mp)
    apply h.write hw hfresh
    . exact inv_recordEvent _ _ (inv_upsert h.store hfits)
    . rw [get_recordEvent]
      exact get_upsert h.store hfits
    . exact findByEvent_recordEvent_upsert st.store (by simp)
  | @created lct rid key hcorr =>
    have hfits := fits_of_new hcorr nowMs
    apply h.write (h.created_write hfresh lct rid key nowMs) hfresh
    . exact inv_recordEvent _ _ (inv_upsert h.store hfits)
    . rw [get_recordEvent]
      exact get_upsert h.store hfits
    . exact findByEvent_recordEvent_upsert st.store (by simp)

theorem Inv.init {store : σ} (hinv : LawfulLifecycleStore.Inv store)
    (hget : ∀ id, get store id = none) (hfind : ∀ eventId, findByEvent store eventId = none)
    : Inv (start store) := by
  have hnone : ∀ id lc, get (start store).store id ≠ some lc := by
    intro id lc h
    rw [start, hget] at h
    contradiction
  refine ⟨hinv, List.nodup_nil, ?_, ?_, ?_, ?_, ?_⟩
  . intro id lc h
    exact absurd h (hnone id lc)
  . intro eventId id h
    rw [start, hfind] at h
    contradiction
  . intro id lc h
    exact absurd h (hnone id lc)
  . intro id lc h
    exact absurd h (hnone id lc)
  . intro id lc h
    exact absurd h (hnone id lc)

-- Event ids are distinct, so a contained event is one of the tenant of the lifecycle.
theorem Inv.tenantId_eq {st : TenantRun σ} (h : st.Inv) {id : String} {lc : Lifecycle}
    (hget : get st.store id = some lc) {x : Event} (hx : x ∈ st.applied)
    (hmem : x.eventId ∈ lc.contained) : x.tenantId = lc.tenantId := by
  rcases h.owned id lc hget x.eventId hmem with ⟨y, hy, hid, htenant⟩
  rw [← List.inj_on_of_nodup_map h.nodup hy hx hid]
  exact htenant

theorem Inv.unmixed {st : TenantRun σ} (h : st.Inv) : st.Unmixed := by
  intro id lc hget x hx y hy hxmem hymem
  rw [h.tenantId_eq hget hx hxmem, h.tenantId_eq hget hy hymem]

theorem Inv.holds_iff {st : TenantRun σ} (h : st.Inv) {tenantId : String} {lc : Lifecycle}
    : st.Holds tenantId lc ↔ get st.store lc.id = some lc ∧ lc.tenantId = tenantId := by
  unfold Holds
  apply and_congr_right
  intro hget
  constructor
  . rintro ⟨x, hx, htenant, hmem⟩
    rw [← h.tenantId_eq hget hx hmem]
    exact htenant
  . intro htenant
    rcases List.exists_mem_of_ne_nil _ (h.nonempty _ lc hget) with ⟨eventId, hmem⟩
    have hcontained : eventId ∈ lc.contained := List.mem_append_left _ hmem
    rcases h.owned _ lc hget eventId hcontained with ⟨x, hx, hid, hxtenant⟩
    refine ⟨x, hx, hxtenant.trans htenant, ?_⟩
    rw [hid]
    exact hcontained

-- An event that correlates to the lifecycle of another tenant is recorded on it, late or not.
theorem Inv.not_unmixed {st : TenantRun σ} (h : st.Inv) {input : Event × Nat}
    (hforeign : ¬st.MatchesOwn input) : ¬(next st input).Unmixed := by
  rcases input with ⟨event, nowMs⟩
  simp only [MatchesOwn, Classical.not_forall] at hforeign
  rcases hforeign with ⟨id, tier, lc, hfirst, hget, hne⟩
  have hcorr : LifecycleEngine.correlate st.store event = .match' id tier := by
    rw [correlate_eq, hfirst]
  have hid := get_id h.store hget
  subst hid
  rcases List.exists_mem_of_ne_nil _ (h.nonempty _ lc hget) with ⟨eventId, hmem⟩
  have hcontained : eventId ∈ lc.contained := List.mem_append_left _ hmem
  rcases h.owned _ lc hget eventId hcontained with ⟨x, hx, hxid, hxtenant⟩
  have hmixed : ∀ new : Lifecycle, get (next st (event, nowMs)).store lc.id = some new →
      (∀ e, e ∈ new.contained ↔ e ∈ lc.contained ∨ e = event.eventId) →
      ¬(next st (event, nowMs)).Unmixed := by
    intro new hnew hevents hunmixed
    have hxmem : x ∈ (next st (event, nowMs)).applied := List.mem_append_left _ hx
    have hemem : event ∈ (next st (event, nowMs)).applied :=
      List.mem_append_right _ (List.mem_singleton_self _)
    have := hunmixed _ new hnew x hxmem event hemem
      ((hevents _).mpr (Or.inl (by rw [hxid]; exact hcontained))) ((hevents _).mpr (Or.inr rfl))
    exact hne (hxtenant.symm.trans this)
  have hstore : (next st (event, nowMs)).store
      = (LifecycleEngine.apply st.store event nowMs).1 := by
    rfl
  by_cases hclosed : lc.closure.isClosed
  . apply hmixed (lc.withLateEvent event nowMs) _ (contained_withLateEvent lc event nowMs)
    have hfits := fits_of_revises h.store hget (lc.withLateEvent_revises event nowMs)
    rw [hstore, apply_of_closed hcorr hget hclosed, get_upsert h.store hfits]
    exact if_pos rfl
  . apply hmixed (lc.withEvent event tier nowMs) _ (contained_withEvent lc event tier nowMs)
    have hfits := fits_of_revises h.store hget (lc.withEvent_revises event tier nowMs)
    rw [hstore, apply_of_open hcorr hget hclosed, get_recordEvent, get_upsert h.store hfits]
    exact if_pos rfl

theorem Inv.get_of_match {st : TenantRun σ} (h : st.Inv) {event : Event} {id : String}
    {tier : InferenceTier} (hcorr : correlate st.store event = .match' id tier)
    : ∃ lc, get st.store id = some lc := by
  have hlookup := lookupTier_of_match hcorr
  cases tier with
  | explicit =>
    rcases Option.bind_eq_some_iff.mp hlookup with ⟨k, _, hfind⟩
    exact get_of_findByBusinessKey h.store hfind
  | businessId =>
    rcases Option.bind_eq_some_iff.mp hlookup with ⟨k, _, hfind⟩
    exact get_of_findByBusinessKey h.store hfind
  | causation =>
    rcases Option.bind_eq_some_iff.mp hlookup with ⟨eventId, _, hfind⟩
    rcases h.eventTarget eventId id hfind with ⟨lc, hget, _⟩
    exact ⟨lc, hget⟩
  | resourceId =>
    rcases Option.bind_eq_some_iff.mp hlookup with ⟨r, _, hfind⟩
    exact get_of_findByResource h.store hfind
  | unknown => contradiction

-- The run beside its purged one.
structure View (tenantId : String) (st t : TenantRun σ) : Prop where
  store : TenantView tenantId st.store t.store
  inv : LawfulLifecycleStore.Inv t.store

theorem View.correlate {tenantId : String} {st t : TenantRun σ} (hview : View tenantId st t)
    (h : st.Inv) {input : Event × Nat} (hown : st.MatchesOwn input)
    (htenant : input.1.tenantId = tenantId)
    : LifecycleEngine.correlate t.store input.1 = LifecycleEngine.correlate st.store input.1 := by
  apply hview.store.correlate
  intro id tier hfirst
  have hcorr : LifecycleEngine.correlate st.store input.1 = .match' id tier := by
    rw [correlate_eq, hfirst]
  rcases h.get_of_match hcorr with ⟨lc, hget⟩
  rw [ownedBy, hget, Option.any_some, hown id tier lc hfirst hget]
  exact decide_eq_true htenant

theorem View.get_of_owned {tenantId : String} {st t : TenantRun σ} (hview : View tenantId st t)
    {id : String} {lc : Lifecycle} (hget : get st.store id = some lc)
    (htenant : lc.tenantId = tenantId) : get t.store id = some lc := by
  rw [hview.store.get, hget, Option.filter_some, if_pos (decide_eq_true htenant)]

theorem View.write {tenantId : String} {st t : TenantRun σ} (hview : View tenantId st t)
    (h : st.Inv) {new : Lifecycle} (hfits : Fits st.store new) (htenant : new.tenantId = tenantId)
    (hold : ∀ old, get st.store new.id = some old → new.Revises old)
    : TenantView tenantId (upsert st.store new) (upsert t.store new)
      ∧ LawfulLifecycleStore.Inv (upsert t.store new) := by
  constructor
  . apply hview.store.upsert_visible h.store hview.inv hfits htenant hold
    intro eventId id hfind
    rcases h.eventTarget eventId id hfind with ⟨lc, hget, _⟩
    exact ⟨lc, hget⟩
  . exact inv_upsert hview.inv (hview.store.fits hfits)

-- An event of the tenant moves both runs alike.
theorem View.step {tenantId : String} {st t : TenantRun σ} (hview : View tenantId st t)
    (h : st.Inv) {input : Event × Nat} (hfresh : input.1.eventId ∉ st.applied.map (·.eventId))
    (hown : st.MatchesOwn input) (htenant : input.1.tenantId = tenantId)
    : View tenantId (next st input) (next t input)
      ∧ (TenantRun.step st input).2 = (TenantRun.step t input).2 := by
  have hsame := hview.correlate h hown htenant
  rcases input with ⟨event, nowMs⟩
  dsimp only at hfresh htenant hsame
  unfold next Unwinding.next TenantRun.step
  cases hcorr : LifecycleEngine.correlate st.store event with
  | match' id tier =>
    rw [hcorr] at hsame
    rcases h.get_of_match hcorr with ⟨lc, hget⟩
    have hlc := (hown.tenantId_eq hcorr hget).trans htenant
    have hid := get_id h.store hget
    subst hid
    have hget' := hview.get_of_owned hget hlc
    by_cases hclosed : lc.closure.isClosed
    . rw [apply_of_closed hcorr hget hclosed, apply_of_closed hsame hget' hclosed]
      have hrev := lc.withLateEvent_revises event nowMs
      rcases hview.write h (fits_of_revises h.store hget hrev) hlc (hrev.of_get hget)
        with ⟨hstore, hinv⟩
      exact ⟨⟨hstore, hinv⟩, rfl⟩
    . rw [apply_of_open hcorr hget hclosed, apply_of_open hsame hget' hclosed]
      have hrev := lc.withEvent_revises event tier nowMs
      rcases hview.write h (fits_of_revises h.store hget hrev) hlc (hrev.of_get hget)
        with ⟨hstore, hinv⟩
      have hmem : event.eventId ∈ (lc.withEvent event tier nowMs).eventIds := by simp
      exact ⟨⟨(hstore.recordEvent_left hmem).recordEvent_right hmem, inv_recordEvent _ _ hinv⟩, rfl⟩
  | new lct rid key =>
    rw [hcorr] at hsame
    rw [apply_of_new hcorr, apply_of_new hsame]
    have hnone := h.get_fresh hfresh
    rcases hview.write h (fits_of_new hcorr nowMs) htenant (by simp [hnone]) with ⟨hstore, hinv⟩
    have hmem : event.eventId ∈ (Lifecycle.create event lct rid key nowMs).eventIds := by simp
    exact ⟨⟨(hstore.recordEvent_left hmem).recordEvent_right hmem, inv_recordEvent _ _ hinv⟩, rfl⟩
  | none =>
    rw [hcorr] at hsame
    rw [apply_of_none hcorr, apply_of_none hsame]
    exact ⟨⟨hview.store, hview.inv⟩, rfl⟩

-- An event of another tenant does not show.
theorem View.skip {tenantId : String} {st t : TenantRun σ} (hview : View tenantId st t)
    (h : st.Inv) {input : Event × Nat} (hfresh : input.1.eventId ∉ st.applied.map (·.eventId))
    (hown : st.MatchesOwn input) (htenant : input.1.tenantId ≠ tenantId)
    : View tenantId (next st input) t := by
  refine ⟨?_, hview.inv⟩
  rcases input with ⟨event, nowMs⟩
  dsimp only at hfresh htenant
  unfold next Unwinding.next TenantRun.step
  cases hcorr : LifecycleEngine.correlate st.store event with
  | match' id tier =>
    rcases h.get_of_match hcorr with ⟨lc, hget⟩
    have hlc := hown.tenantId_eq hcorr hget
    have hid := get_id h.store hget
    subst hid
    have hother : lc.tenantId ≠ tenantId := by
      rw [hlc]
      exact htenant
    by_cases hclosed : lc.closure.isClosed
    . rw [apply_of_closed hcorr hget hclosed]
      have hrev := lc.withLateEvent_revises event nowMs
      have hw := h.revised_write hfresh hget hrev hlc (Or.inl rfl)
        (fun eventId => (contained_withLateEvent lc event nowMs eventId).mp)
      exact hview.store.upsert_hidden h.store (fits_of_revises h.store hget hrev) hother
        (hrev.of_get hget) hw.index
    . rw [apply_of_open hcorr hget hclosed]
      have hrev := lc.withEvent_revises event tier nowMs
      have hw := h.revised_write hfresh hget hrev hlc (Or.inr rfl)
        (fun eventId => (contained_withEvent lc event tier nowMs eventId).mp)
      have hstore := hview.store.upsert_hidden h.store (fits_of_revises h.store hget hrev) hother
        (hrev.of_get hget) hw.index
      exact hstore.recordEvent_left (by simp)
  | new lct rid key =>
    rw [apply_of_new hcorr]
    have hnone := h.get_fresh hfresh
    have hw := h.created_write hfresh lct rid key nowMs
    have hstore := hview.store.upsert_hidden h.store (fits_of_new hcorr nowMs) htenant
      (by simp [hnone]) hw.index
    exact hstore.recordEvent_left (by simp)
  | none =>
    rw [apply_of_none hcorr]
    exact hview.store

omit [LawfulLifecycleStore σ] in
theorem next_applied (st : TenantRun σ) (input : Event × Nat)
    : (next st input).applied.map (·.eventId)
        = st.applied.map (·.eventId) ++ [input.1.eventId] := by
  exact List.map_append

omit [LawfulLifecycleStore σ] in
theorem guarded_fresh (store : σ) {inputs : List (Event × Nat)}
    (hdistinct : (inputs.map (·.1.eventId)).Nodup)
    : Run.Guarded next (fun st input => input.1.eventId ∉ st.applied.map (·.eventId)) (start store)
        inputs := by
  rw [List.map_eq_flatMap] at hdistinct
  have hnodup : ((start store).applied.map (·.eventId)
      ++ inputs.flatMap (fun input => [input.1.eventId])).Nodup := hdistinct
  have hfresh : Run.Guarded next
      (fun st input => ∀ k ∈ [input.1.eventId], k ∉ st.applied.map (·.eventId)) (start store)
      inputs :=
    Run.guarded_fresh next_applied hnodup
  intro pre input hpre
  exact hfresh pre input hpre _ (List.mem_singleton_self _)

theorem inv_start (backend : Backend) : Inv (start (DynStore.empty backend)) :=
  .init (DynStore.inv_empty backend) (DynStore.get_empty backend) (DynStore.findByEvent_empty backend)

theorem always_inv (backend : Backend) {inputs : List (Event × Nat)}
    (hdistinct : (inputs.map (·.1.eventId)).Nodup)
    (hown : Run.Guarded next MatchesOwn (start (DynStore.empty backend)) inputs)
    : Run.Always next Inv (start (DynStore.empty backend)) inputs := by
  apply Run.always_of_guarded (inv_start backend) _ ((guarded_fresh _ hdistinct).and hown)
  rintro st input hinv ⟨hfresh, hmatch⟩
  exact hinv.step hfresh hmatch

theorem View.init (backend : Backend) (tenantId : String)
    : View tenantId (start (DynStore.empty backend)) (start (DynStore.empty backend)) where
  store := by
    constructor
    . intro id
      rw [start, DynStore.get_empty, Option.filter_none]
    . intro r
      rw [start, DynStore.findByResource_empty, Option.filter_none]
    . intro k
      rw [start, DynStore.findByBusinessKey_empty, Option.filter_none]
    . intro eventId
      rw [start, DynStore.findByEvent_empty, Option.filter_none]
  inv := DynStore.inv_empty backend

-- A run in which every event meets its own tenant only, beside the run of one tenant alone.
theorem purge (backend : Backend) (tenantId : String) {inputs : List (Event × Nat)}
    (hdistinct : (inputs.map (·.1.eventId)).Nodup)
    (hown : Run.Guarded next MatchesOwn (start (DynStore.empty backend)) inputs)
    : View tenantId (Run.exec next (start (DynStore.empty backend)) inputs)
        (Run.exec next (start (DynStore.empty backend)) (inputs.filter (ofTenant tenantId)))
      ∧ Unwinding.outputs TenantRun.step (ofTenant tenantId) (start (DynStore.empty backend)) inputs
        = Unwinding.outputs TenantRun.step (ofTenant tenantId) (start (DynStore.empty backend))
            (inputs.filter (ofTenant tenantId)) := by
  have hpre := (always_inv backend hdistinct hown).guard ((guarded_fresh _ hdistinct).and hown)
  apply Unwinding.purge hpre (View.init backend tenantId)
  . rintro st t input ⟨hinv, hfresh, hmatch⟩ hvisible hview
    exact hview.step hinv hfresh hmatch (of_decide_eq_true hvisible)
  . rintro st t input ⟨hinv, hfresh, hmatch⟩ hhidden hview
    exact hview.skip hinv hfresh hmatch (of_decide_eq_false hhidden)

theorem holds_iff_of_view {st t : TenantRun σ} (h : st.Inv) {tenantId : String}
    (hview : View tenantId st t) (lc : Lifecycle)
    : st.Holds tenantId lc ↔ get t.store lc.id = some lc := by
  rw [h.holds_iff, hview.store.get, Option.filter_eq_some_iff, decide_eq_true_iff]

end TenantRun

/--
Two runs that agree on the events of one tenant, over either store, give the tenant the same
outcomes and the same lifecycles, and never mix tenants in a lifecycle, if and only if in neither
run an event ever correlates to a lifecycle of another tenant.
-/
theorem isolated_iff_matchesOwn (backend : Backend) (tenantId : String)
    (xs ys : List (Event × Nat)) (hxs : (xs.map (·.1.eventId)).Nodup)
    (hys : (ys.map (·.1.eventId)).Nodup)
    (hsame : xs.filter (TenantRun.ofTenant tenantId) = ys.filter (TenantRun.ofTenant tenantId))
    : TenantRun.Isolated tenantId (TenantRun.start (DynStore.empty backend)) xs ys
        ↔ Run.Guarded TenantRun.next TenantRun.MatchesOwn
            (TenantRun.start (DynStore.empty backend)) xs
          ∧ Run.Guarded TenantRun.next TenantRun.MatchesOwn
            (TenantRun.start (DynStore.empty backend)) ys := by
  have hunmixed : ∀ inputs : List (Event × Nat), (inputs.map (·.1.eventId)).Nodup →
      (Run.Always TenantRun.next TenantRun.Unmixed (TenantRun.start (DynStore.empty backend)) inputs
        ↔ Run.Guarded TenantRun.next TenantRun.MatchesOwn
            (TenantRun.start (DynStore.empty backend)) inputs) := by
    intro inputs hdistinct
    apply Run.always_iff_guarded_of_guarded (I := TenantRun.Inv)
      (TenantRun.guarded_fresh _ hdistinct) (TenantRun.inv_start backend)
    . intro st input hinv hfresh hmatch
      exact hinv.step hfresh hmatch
    . intro st hinv
      exact hinv.unmixed
    . intro st input hinv _ hforeign
      exact hinv.not_unmixed hforeign
  constructor
  . intro h
    exact ⟨(hunmixed xs hxs).mp h.unmixed_left, (hunmixed ys hys).mp h.unmixed_right⟩
  . rintro ⟨hx, hy⟩
    rcases TenantRun.purge backend tenantId hxs hx with ⟨hviewx, houtx⟩
    rcases TenantRun.purge backend tenantId hys hy with ⟨hviewy, houty⟩
    rw [hsame] at hviewx houtx
    constructor
    . rw [houtx, houty]
    . intro lc
      rw [TenantRun.holds_iff_of_view (TenantRun.always_inv backend hxs hx).last hviewx,
        TenantRun.holds_iff_of_view (TenantRun.always_inv backend hys hy).last hviewy]
    . exact (hunmixed xs hxs).mpr hx
    . exact (hunmixed ys hys).mpr hy

-- A tenant that shares a resource id with another one, and the same tenant alone.
def sharedResource : List (Event × Nat) :=
  [(paymentEvent "payment.create" "e1" "tnt_b" "pay_1", 0),
    (paymentEvent "payment.create" "e2" "tnt_a" "pay_1", 1000)]

def ownResource : List (Event × Nat) :=
  [(paymentEvent "payment.create" "e2" "tnt_a" "pay_1", 1000)]

theorem isolated_iff_matchesOwn_sharedResource
    : TenantRun.Isolated "tnt_a" (TenantRun.start (DynStore.empty .sqlite)) sharedResource
        ownResource
        ↔ Run.Guarded TenantRun.next TenantRun.MatchesOwn
            (TenantRun.start (DynStore.empty .sqlite)) sharedResource
          ∧ Run.Guarded TenantRun.next TenantRun.MatchesOwn
            (TenantRun.start (DynStore.empty .sqlite)) ownResource :=
  isolated_iff_matchesOwn .sqlite "tnt_a" sharedResource ownResource (by decide) (by decide) rfl

theorem sharedResource_not_isolated
    : ¬TenantRun.Isolated "tnt_a" (TenantRun.start (DynStore.empty .inMemory)) sharedResource
          ownResource
      ∧ ¬TenantRun.Isolated "tnt_a" (TenantRun.start (DynStore.empty .sqlite)) sharedResource
          ownResource := by
  constructor
  . intro h
    have := h.outcomes
    revert this
    decide +kernel
  . intro h
    have := h.outcomes
    revert this
    decide +kernel

end Athar
