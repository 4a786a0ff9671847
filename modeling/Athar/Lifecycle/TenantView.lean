import Athar.Lifecycle.Lemmas.Engine

/-!
This module contains the view that one tenant has of a lifecycle store: its own lifecycles, and the
lookups that find them. Writes of the tenant's lifecycles act on the view as on the store, and writes
of others do not show in it.
-/

namespace Athar

open LifecycleStore LawfulLifecycleStore LifecycleEngine

section View

variable {σ : Type} [LifecycleStore σ]

def ownedBy (tenantId : String) (s : σ) (id : String) : Bool :=
  (get s id).any (·.tenantId = tenantId)

structure TenantView (tenantId : String) (s t : σ) : Prop where
  get : ∀ id, get t id = (get s id).filter (·.tenantId = tenantId)
  resource : ∀ r, findByResource t r = (findByResource s r).filter (ownedBy tenantId s)
  businessKey : ∀ k, findByBusinessKey t k = (findByBusinessKey s k).filter (ownedBy tenantId s)
  event : ∀ eventId, findByEvent t eventId = (findByEvent s eventId).filter (ownedBy tenantId s)

theorem bind_filter {α β : Type} {f g : α → Option β} {p : β → Bool}
    (h : ∀ a, g a = (f a).filter p) (o : Option α) : o.bind g = (o.bind f).filter p := by
  cases o with
  | none => rfl
  | some a => exact h a

theorem TenantView.lookupTier {tenantId : String} {s t : σ} (h : TenantView tenantId s t)
    (event : Event) (tier : InferenceTier)
    : lookupTier t event tier = (lookupTier s event tier).filter (ownedBy tenantId s) := by
  cases tier with
  | explicit => exact bind_filter h.businessKey _
  | businessId => exact bind_filter h.businessKey _
  | causation => exact bind_filter h.event _
  | resourceId => exact bind_filter h.resource _
  | unknown => rfl

theorem findSome?_filter {α β : Type} {f : α → Option β} {p : β → Bool} {l : List α}
    (h : ∀ b, l.findSome? f = some b → p b = true)
    : l.findSome? (fun a => (f a).filter p) = l.findSome? f := by
  induction l with
  | nil => rfl
  | cons a l ih =>
    rw [List.findSome?_cons, List.findSome?_cons]
    cases hf : f a with
    | none =>
      apply ih
      intro b hb
      apply h
      rw [List.findSome?_cons, hf]
      exact hb
    | some b =>
      have : p b = true := by
        apply h
        rw [List.findSome?_cons, hf]
      rw [Option.filter_some, if_pos this]

-- When the first lookup that succeeds finds a lifecycle of the tenant, the view agrees on it.
theorem TenantView.correlate {tenantId : String} {s t : σ} (h : TenantView tenantId s t)
    {event : Event}
    (hown : ∀ id tier, firstMatch s event = some (id, tier) → ownedBy tenantId s id = true)
    : correlate t event = correlate s event := by
  have htier : ∀ tier, (LifecycleEngine.lookupTier t event tier).map (·, tier)
      = ((LifecycleEngine.lookupTier s event tier).map (·, tier)).filter
          (fun found => ownedBy tenantId s found.1) := by
    intro tier
    rw [h.lookupTier, Option.filter_map]
    rfl
  have hfirst : firstMatch t event = firstMatch s event := by
    unfold firstMatch
    simp only [htier]
    apply findSome?_filter
    intro found hfound
    exact hown found.1 found.2 hfound
  rw [correlate_eq, correlate_eq, hfirst]

theorem TenantView.fits {tenantId : String} {s t : σ} (h : TenantView tenantId s t)
    {lc : Lifecycle} (hfits : Fits s lc) : Fits t lc := by
  constructor
  . intro r id hr hfind
    rw [h.resource, Option.filter_eq_some_iff] at hfind
    exact hfits.resource r id hr hfind.1
  . intro k id hk hfind
    rw [h.businessKey, Option.filter_eq_some_iff] at hfind
    exact hfits.businessKey k id hk hfind.1

theorem filter_ownedBy_congr {tenantId : String} {s s' : σ} {found : Option String}
    (h : ∀ id, found = some id → ownedBy tenantId s' id = ownedBy tenantId s id)
    : found.filter (ownedBy tenantId s) = found.filter (ownedBy tenantId s') := by
  cases found with
  | none => rfl
  | some id => rw [Option.filter_some, Option.filter_some, h id rfl]

variable [LawfulLifecycleStore σ]

-- What a tenant owns does not change when a lifecycle is written that is new or keeps its tenant.
theorem ownedBy_upsert {tenantId : String} {s : σ} (h : Inv s) {lc : Lifecycle} (hfits : Fits s lc)
    (hold : ∀ old, LifecycleStore.get s lc.id = some old → lc.Revises old) {id : String}
    (hid : lc.tenantId = tenantId → ∃ lc, LifecycleStore.get s id = some lc)
    : ownedBy tenantId (upsert s lc) id = ownedBy tenantId s id := by
  unfold ownedBy
  rw [get_upsert h hfits]
  split
  . next heq =>
    subst heq
    cases hget : LifecycleStore.get s lc.id with
    | none =>
      have : lc.tenantId ≠ tenantId := by
        intro htenant
        rcases hid htenant with ⟨lc', hlc'⟩
        rw [hget] at hlc'
        contradiction
      simp [this]
    | some old => simp [(hold old hget).tenantId_eq]
  . rfl

theorem ownedBy_upsert_self {tenantId : String} {s : σ} (h : Inv s) {lc : Lifecycle}
    (hfits : Fits s lc)
    : ownedBy tenantId (upsert s lc) lc.id = decide (lc.tenantId = tenantId) := by
  unfold ownedBy
  rw [get_upsert h hfits, if_pos rfl]
  rfl

theorem TenantView.upsert_visible {tenantId : String} {s t : σ} (hs : Inv s) (ht : Inv t)
    (h : TenantView tenantId s t) {lc : Lifecycle} (hfits : Fits s lc)
    (htenant : lc.tenantId = tenantId)
    (hold : ∀ old, LifecycleStore.get s lc.id = some old → lc.Revises old)
    (hevents : ∀ eventId id, findByEvent s eventId = some id →
      ∃ lc, LifecycleStore.get s id = some lc)
    : TenantView tenantId (upsert s lc) (upsert t lc) := by
  have hfits' := h.fits hfits
  have hold' : ∀ old, LifecycleStore.get t lc.id = some old → lc.Revises old := by
    intro old hget
    rw [h.get, Option.filter_eq_some_iff] at hget
    exact hold old hget.1
  have hself : ownedBy tenantId (upsert s lc) lc.id = true := by
    rw [ownedBy_upsert_self hs hfits, htenant]
    exact decide_eq_true rfl
  have hkept : ∀ found, (∀ id, found = some id → ∃ lc, LifecycleStore.get s id = some lc) →
      found.filter (ownedBy tenantId s) = found.filter (ownedBy tenantId (upsert s lc)) := by
    intro found htarget
    apply filter_ownedBy_congr
    intro id hid
    exact ownedBy_upsert hs hfits hold (fun _ => htarget id hid)
  constructor
  . intro id
    rw [get_upsert hs hfits, get_upsert ht hfits']
    split
    . rw [Option.filter_some, if_pos (decide_eq_true htenant)]
    . exact h.get id
  . intro r
    rw [findByResource_upsert_eq hs hfits hold, findByResource_upsert_eq ht hfits' hold']
    split
    . rw [Option.filter_some, if_pos hself]
    . rw [h.resource]
      exact hkept _ (fun id => get_of_findByResource hs)
  . intro k
    rw [findByBusinessKey_upsert_eq hs hfits hold, findByBusinessKey_upsert_eq ht hfits' hold']
    split
    . rw [Option.filter_some, if_pos hself]
    . rw [h.businessKey]
      exact hkept _ (fun id => get_of_findByBusinessKey hs)
  . intro eventId
    rw [findByEvent_upsert, findByEvent_upsert]
    split
    . rw [Option.filter_some, if_pos hself]
    . rw [h.event]
      exact hkept _ (hevents eventId)

theorem TenantView.upsert_hidden {tenantId : String} {s t : σ} (hs : Inv s)
    (h : TenantView tenantId s t) {lc : Lifecycle} (hfits : Fits s lc)
    (htenant : lc.tenantId ≠ tenantId)
    (hold : ∀ old, LifecycleStore.get s lc.id = some old → lc.Revises old)
    (hevents : ∀ eventId ∈ lc.eventIds, ∀ id, findByEvent s eventId = some id → id = lc.id)
    : TenantView tenantId (upsert s lc) t := by
  have howned : ∀ id, ownedBy tenantId (upsert s lc) id = ownedBy tenantId s id := by
    intro id
    exact ownedBy_upsert hs hfits hold (fun heq => absurd heq htenant)
  have hself : ownedBy tenantId s lc.id = false := by
    rw [← howned, ownedBy_upsert_self hs hfits]
    exact decide_eq_false htenant
  have hnone : ∀ found : Option String, (∀ id, found = some id → id = lc.id) →
      found.filter (ownedBy tenantId s) = (some lc.id).filter (ownedBy tenantId s) := by
    intro found hfound
    cases found with
    | none => rw [Option.filter_none, Option.filter_some, hself, if_neg Bool.false_ne_true]
    | some id => rw [hfound id rfl]
  have hfilter : ownedBy tenantId (upsert s lc) = ownedBy tenantId s := funext howned
  constructor
  . intro id
    rw [h.get, get_upsert hs hfits]
    split
    . next hid =>
      subst hid
      have hself : ¬decide (lc.tenantId = tenantId) = true := by simpa using htenant
      rw [Option.filter_some, if_neg hself]
      cases hget : LifecycleStore.get s lc.id with
      | none => rfl
      | some old =>
        rw [(hold old hget).tenantId_eq] at hself
        rw [Option.filter_some, if_neg hself]
    . rfl
  . intro r
    rw [h.resource, findByResource_upsert_eq hs hfits hold, hfilter]
    split
    . next hr => exact hnone _ (fun id => hfits.resource r id hr)
    . rfl
  . intro k
    rw [h.businessKey, findByBusinessKey_upsert_eq hs hfits hold, hfilter]
    split
    . next hk => exact hnone _ (fun id => hfits.businessKey k id hk)
    . rfl
  . intro eventId
    rw [h.event, findByEvent_upsert, hfilter]
    split
    . next hmem => exact hnone _ (hevents eventId hmem)
    . rfl

theorem findByEvent_recordEvent_self (s : σ) {lc : Lifecycle} {eventId : String}
    (h : eventId ∈ lc.eventIds)
    : findByEvent (recordEvent (upsert s lc) eventId lc.id) = findByEvent (upsert s lc) := by
  funext eventId'
  rw [findByEvent_recordEvent_upsert s h, findByEvent_upsert]

theorem ownedBy_recordEvent (tenantId : String) (s : σ) (eventId id : String)
    : ownedBy tenantId (recordEvent s eventId id) = ownedBy tenantId s := by
  funext id'
  rw [ownedBy, get_recordEvent]
  rfl

theorem TenantView.recordEvent_left {tenantId : String} {s t : σ} {lc : Lifecycle}
    (h : TenantView tenantId (upsert s lc) t) {eventId : String} (hmem : eventId ∈ lc.eventIds)
    : TenantView tenantId (recordEvent (upsert s lc) eventId lc.id) t := by
  constructor
  . rw [get_recordEvent]
    exact h.get
  . rw [findByResource_recordEvent, ownedBy_recordEvent]
    exact h.resource
  . rw [findByBusinessKey_recordEvent, ownedBy_recordEvent]
    exact h.businessKey
  . rw [findByEvent_recordEvent_self s hmem, ownedBy_recordEvent]
    exact h.event

theorem TenantView.recordEvent_right {tenantId : String} {s t : σ} {lc : Lifecycle}
    (h : TenantView tenantId s (upsert t lc)) {eventId : String} (hmem : eventId ∈ lc.eventIds)
    : TenantView tenantId s (recordEvent (upsert t lc) eventId lc.id) := by
  constructor
  . rw [get_recordEvent]
    exact h.get
  . rw [findByResource_recordEvent]
    exact h.resource
  . rw [findByBusinessKey_recordEvent]
    exact h.businessKey
  . rw [findByEvent_recordEvent_self t hmem]
    exact h.event

end View

end Athar
