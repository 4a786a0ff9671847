import Athar.Lifecycle.Impl.Engine
import Athar.Lifecycle.Lemmas.Store

/-!
This module contains what one call of the engine and one round of the scanner can do to a store. All
later invariants are case analyses over `LifecycleEngine.Applied`.
-/

namespace Athar

open LifecycleStore LawfulLifecycleStore

-- A later version of the same lifecycle: everything the stores index it by is as before.
structure Lifecycle.Revises (lc old : Lifecycle) : Prop where
  id_eq : lc.id = old.id
  tenantId_eq : lc.tenantId = old.tenantId
  resourceId_eq : lc.resourceId = old.resourceId
  businessKey_eq : lc.businessKey = old.businessKey

namespace Lifecycle

theorem Revises.trans {a b c : Lifecycle} (hab : a.Revises b)
    (hbc : b.Revises c) : a.Revises c where
  id_eq := hab.id_eq.trans hbc.id_eq
  tenantId_eq := hab.tenantId_eq.trans hbc.tenantId_eq
  resourceId_eq := hab.resourceId_eq.trans hbc.resourceId_eq
  businessKey_eq := hab.businessKey_eq.trans hbc.businessKey_eq

theorem Revises.symm {a b : Lifecycle} (h : a.Revises b) : b.Revises a where
  id_eq := h.id_eq.symm
  tenantId_eq := h.tenantId_eq.symm
  resourceId_eq := h.resourceId_eq.symm
  businessKey_eq := h.businessKey_eq.symm

theorem Revises.of_get {σ : Type} [LifecycleStore σ] {s : σ} {lc new : Lifecycle}
    (h : new.Revises lc) (hget : get s lc.id = some lc)
    : ∀ old, get s new.id = some old → new.Revises old := by
  intro old hold
  rw [h.id_eq, hget] at hold
  rw [← Option.some.inj hold]
  exact h

theorem withEvent_revises (lc : Lifecycle) (event : Event) (tier : InferenceTier) (nowMs : Nat)
    : (lc.withEvent event tier nowMs).Revises lc := by
  constructor <;> rfl

theorem withLateEvent_revises (lc : Lifecycle) (event : Event) (nowMs : Nat)
    : (lc.withLateEvent event nowMs).Revises lc := by
  constructor <;> rfl

theorem timedOut_revises (lc : Lifecycle) (nowMs : Nat) : (lc.timedOut nowMs).Revises lc := by
  constructor <;> rfl

@[simp]
theorem withEvent_eventIds (lc : Lifecycle) (event : Event) (tier : InferenceTier) (nowMs : Nat)
    : (lc.withEvent event tier nowMs).eventIds = lc.eventIds ++ [event.eventId] := by
  rfl

@[simp]
theorem withEvent_lateEvents (lc : Lifecycle) (event : Event) (tier : InferenceTier) (nowMs : Nat)
    : (lc.withEvent event tier nowMs).lateEvents = lc.lateEvents := by
  rfl

@[simp]
theorem withEvent_tiers (lc : Lifecycle) (event : Event) (tier : InferenceTier) (nowMs : Nat)
    : (lc.withEvent event tier nowMs).tiers = lc.tiers ++ [tier] := by
  rfl

@[simp]
theorem withLateEvent_eventIds (lc : Lifecycle) (event : Event) (nowMs : Nat)
    : (lc.withLateEvent event nowMs).eventIds = lc.eventIds := by
  rfl

@[simp]
theorem withLateEvent_closure (lc : Lifecycle) (event : Event) (nowMs : Nat)
    : (lc.withLateEvent event nowMs).closure = lc.closure := by
  rfl

@[simp]
theorem withLateEvent_lateEvents (lc : Lifecycle) (event : Event) (nowMs : Nat)
    : (lc.withLateEvent event nowMs).lateEvents
        = lc.lateEvents
          ++ [⟨event.eventId, event.eventType, nowMs,
            LifecycleEngine.classifyLateEvent lc event⟩] := by
  rfl

@[simp]
theorem timedOut_eventIds (lc : Lifecycle) (nowMs : Nat)
    : (lc.timedOut nowMs).eventIds = lc.eventIds := by
  rfl

@[simp]
theorem timedOut_lateEvents (lc : Lifecycle) (nowMs : Nat)
    : (lc.timedOut nowMs).lateEvents = lc.lateEvents := by
  rfl

@[simp]
theorem create_id (event : Event) (lct : LifecycleType) (rid key : Option String) (nowMs : Nat)
    : (create event lct rid key nowMs).id = "lc_" ++ event.eventId := by
  rfl

@[simp]
theorem create_tenantId (event : Event) (lct : LifecycleType) (rid key : Option String)
    (nowMs : Nat) : (create event lct rid key nowMs).tenantId = event.tenantId := by
  rfl

@[simp]
theorem create_resourceId (event : Event) (lct : LifecycleType) (rid key : Option String)
    (nowMs : Nat) : (create event lct rid key nowMs).resourceId = rid := by
  rfl

@[simp]
theorem create_businessKey (event : Event) (lct : LifecycleType) (rid key : Option String)
    (nowMs : Nat) : (create event lct rid key nowMs).businessKey = key := by
  rfl

@[simp]
theorem create_eventIds (event : Event) (lct : LifecycleType) (rid key : Option String)
    (nowMs : Nat) : (create event lct rid key nowMs).eventIds = [event.eventId] := by
  rfl

@[simp]
theorem create_lateEvents (event : Event) (lct : LifecycleType) (rid key : Option String)
    (nowMs : Nat) : (create event lct rid key nowMs).lateEvents = [] := by
  rfl

end Lifecycle

theorem lc_append_inj {a b : String} (h : "lc_" ++ a = "lc_" ++ b) : a = b := by
  have := congrArg String.toList h
  simp only [String.toList_append, List.append_cancel_left_eq] at this
  exact String.toList_inj.mp this

namespace LifecycleEngine

section Correlate

variable {σ : Type} [LifecycleStore σ]

-- The lookup by which a tier finds a lifecycle for an event.
def lookupTier (s : σ) (event : Event) : InferenceTier → Option String
  | .explicit => event.operationId.bind (findByBusinessKey s)
  | .businessId => event.businessId.bind (findByBusinessKey s)
  | .causation => event.parent.bind (findByEvent s)
  | .resourceId => event.resourceId.bind (findByResource s)
  | .unknown => none

theorem lookupTier_of_match {s : σ} {event : Event} {id : String} {tier : InferenceTier}
    (h : correlate s event = .match' id tier) : lookupTier s event tier = some id := by
  unfold correlate at h
  repeat' split at h
  all_goals cases h
  all_goals assumption

-- Whether an event may start a lifecycle, and with which keys.
def startKeys (event : Event) : Option (LifecycleType × Option String × Option String) :=
  match LifecycleType.fromEventType event.eventType with
  | none => none
  | some lct =>
    match event.resourceId, event.businessId with
    | some rid, bid => some (lct, some rid, bid.or event.operationId)
    | none, some bid => some (lct, none, some bid)
    | none, none => none

theorem lookupTier_of_new {s : σ} {event : Event} {lct : LifecycleType}
    {rid key : Option String} (h : correlate s event = .new lct rid key)
    : ∀ tier, lookupTier s event tier = none := by
  unfold correlate at h
  repeat' split at h
  all_goals cases h
  all_goals
    intro tier
    cases tier
    all_goals first | assumption | rfl

-- The keys of a new lifecycle are keys of its event, and there is at least one.
theorem startKeys_spec {event : Event} {lct : LifecycleType} {rid key : Option String}
    (h : startKeys event = some (lct, rid, key))
    : (∀ r, rid = some r → event.resourceId = some r)
        ∧ (∀ k, key = some k → event.businessId = some k ∨ event.operationId = some k)
        ∧ (rid = none → key ≠ none) := by
  unfold startKeys at h
  split at h
  . contradiction
  . split at h
    . next r hr =>
      cases h
      refine ⟨?_, ?_, by simp⟩
      . intro r' hr'
        rw [hr, hr']
      . intro k hk
        cases hbid : event.businessId with
        | none =>
          rw [hbid] at hk
          exact Or.inr hk
        | some b =>
          rw [hbid] at hk
          exact Or.inl hk
    . next bid hr hbid =>
      cases h
      refine ⟨by simp, ?_, by simp⟩
      intro k hk
      rw [hbid, hk]
      exact Or.inl rfl
    . contradiction

-- The tiers in the order in which correlation tries them.
def correlationTiers : List InferenceTier :=
  [.explicit, .businessId, .causation, .resourceId]

def firstMatch (s : σ) (event : Event) : Option (String × InferenceTier) :=
  correlationTiers.findSome? (fun tier => (lookupTier s event tier).map (·, tier))

theorem correlate_eq (s : σ) (event : Event)
    : correlate s event
        = match firstMatch s event with
          | some (id, tier) => .match' id tier
          | none =>
            match startKeys event with
            | some (lct, rid, key) => .new lct rid key
            | none => .none := by
  unfold correlate firstMatch correlationTiers startKeys
  simp only [List.findSome?_cons, List.findSome?_nil, lookupTier]
  cases event.operationId.bind (findByBusinessKey s) with
  | some id => rfl
  | none =>
    cases event.businessId.bind (findByBusinessKey s) with
    | some id => rfl
    | none =>
      cases event.parent.bind (findByEvent s) with
      | some id => rfl
      | none =>
        cases event.resourceId.bind (findByResource s) with
        | some id => rfl
        | none =>
          cases LifecycleType.fromEventType event.eventType with
          | none => rfl
          | some lct => cases event.resourceId <;> cases event.businessId <;> rfl

theorem firstMatch_of_match {s : σ} {event : Event} {id : String} {tier : InferenceTier}
    (h : correlate s event = .match' id tier) : firstMatch s event = some (id, tier) := by
  rw [correlate_eq] at h
  split at h
  . next heq =>
    rw [heq]
    cases h
    rfl
  . split at h <;> contradiction

theorem startKeys_of_new {s : σ} {event : Event} {lct : LifecycleType} {rid key : Option String}
    (h : correlate s event = .new lct rid key) : startKeys event = some (lct, rid, key) := by
  rw [correlate_eq] at h
  split at h
  . contradiction
  . split at h
    . next heq =>
      rw [heq]
      cases h
      rfl
    . contradiction

theorem find_of_new {s : σ} {event : Event} {lct : LifecycleType} {rid key : Option String}
    (h : correlate s event = .new lct rid key)
    : (∀ r, rid = some r → findByResource s r = none)
        ∧ (∀ k, key = some k → findByBusinessKey s k = none) ∧ (rid = none → key ≠ none) := by
  have hnone := lookupTier_of_new h
  rcases startKeys_spec (startKeys_of_new h) with ⟨hresource, hkey, hsome⟩
  refine ⟨?_, ?_, hsome⟩
  . intro r hr
    have := hnone .resourceId
    rw [lookupTier, hresource r hr] at this
    exact this
  . intro k hk
    cases hkey k hk with
    | inl hbusiness =>
      have := hnone .businessId
      rw [lookupTier, hbusiness] at this
      exact this
    | inr hoperation =>
      have := hnone .explicit
      rw [lookupTier, hoperation] at this
      exact this

theorem fits_of_new {s : σ} {event : Event} {lct : LifecycleType} {rid key : Option String}
    (h : correlate s event = .new lct rid key) (nowMs : Nat)
    : Fits s (Lifecycle.create event lct rid key nowMs) := by
  rcases find_of_new h with ⟨hresource, hkey, _⟩
  constructor
  . intro r id hr hfind
    rw [hresource r hr] at hfind
    contradiction
  . intro k id hk hfind
    rw [hkey k hk] at hfind
    contradiction

-- Lookups that found something still do: no key is ever given up.
structure Keeps (s s' : σ) : Prop where
  resource : ∀ r, findByResource s r ≠ none → findByResource s' r ≠ none
  businessKey : ∀ k, findByBusinessKey s k ≠ none → findByBusinessKey s' k ≠ none
  event : ∀ eventId, findByEvent s eventId ≠ none → findByEvent s' eventId ≠ none

theorem Keeps.refl (s : σ) : Keeps s s :=
  ⟨fun _ h => h, fun _ h => h, fun _ h => h⟩

theorem Keeps.trans {s t u : σ} (hst : Keeps s t) (htu : Keeps t u) : Keeps s u where
  resource r h := htu.resource r (hst.resource r h)
  businessKey k h := htu.businessKey k (hst.businessKey k h)
  event eventId h := htu.event eventId (hst.event eventId h)

theorem bind_ne_none {α β : Type} {f g : α → Option β} (h : ∀ a, f a ≠ none → g a ≠ none)
    {o : Option α} (hfound : o.bind f ≠ none) : o.bind g ≠ none := by
  cases o with
  | none => exact hfound
  | some a => exact h a hfound

theorem Keeps.lookupTier {s s' : σ} (h : Keeps s s') {event : Event} {tier : InferenceTier}
    (hfound : LifecycleEngine.lookupTier s event tier ≠ none)
    : LifecycleEngine.lookupTier s' event tier ≠ none := by
  cases tier with
  | explicit => exact bind_ne_none h.businessKey hfound
  | businessId => exact bind_ne_none h.businessKey hfound
  | causation => exact bind_ne_none h.event hfound
  | resourceId => exact bind_ne_none h.resource hfound
  | unknown => exact absurd rfl hfound

theorem firstMatch_eq_none_iff (s : σ) (event : Event)
    : firstMatch s event = none ↔ ∀ tier ∈ correlationTiers, lookupTier s event tier = none := by
  unfold firstMatch
  simp

theorem Keeps.firstMatch {s s' : σ} (h : Keeps s s') {event : Event}
    (hfound : LifecycleEngine.firstMatch s event ≠ none)
    : LifecycleEngine.firstMatch s' event ≠ none := by
  intro hnone
  rw [firstMatch_eq_none_iff] at hnone
  apply hfound
  rw [firstMatch_eq_none_iff]
  intro tier htier
  by_contra hsome
  exact h.lookupTier hsome (hnone tier htier)

theorem firstMatch_of_new {s : σ} {event : Event} {lct : LifecycleType} {rid key : Option String}
    (h : correlate s event = .new lct rid key) : firstMatch s event = none := by
  rw [firstMatch_eq_none_iff]
  intro tier _
  exact lookupTier_of_new h tier

-- Everything one call of the engine can do to the store.
inductive Applied (s : σ) (event : Event) (nowMs : Nat) : σ → ApplyOutcome → Prop where
  | unbound (h : ∀ id tier, correlate s event = .match' id tier → get s id = none)
    (hnew : ∀ lct rid key, correlate s event ≠ .new lct rid key) : Applied s event nowMs s .unbound
  | late {id : String} {tier : InferenceTier} {lc : Lifecycle}
    (hcorr : correlate s event = .match' id tier) (hget : get s id = some lc)
    (hclosed : lc.closure.isClosed)
    : Applied s event nowMs (upsert s (lc.withLateEvent event nowMs))
        (.lateEvent id tier (classifyLateEvent lc event))
  | updated {id : String} {tier : InferenceTier} {lc : Lifecycle}
    (hcorr : correlate s event = .match' id tier) (hget : get s id = some lc)
    (hopen : ¬lc.closure.isClosed)
    : Applied s event nowMs
        (recordEvent (upsert s (lc.withEvent event tier nowMs)) event.eventId id)
        (.updated id tier (lc.withEvent event tier nowMs).state
          (lc.withEvent event tier nowMs).closure)
  | created {lct : LifecycleType} {rid key : Option String}
    (hcorr : correlate s event = .new lct rid key)
    : Applied s event nowMs
        (recordEvent (upsert s (Lifecycle.create event lct rid key nowMs)) event.eventId
          ("lc_" ++ event.eventId))
        (.created ("lc_" ++ event.eventId) lct (Lifecycle.create event lct rid key nowMs).state
          (Lifecycle.create event lct rid key nowMs).closure)

theorem apply_applied (s : σ) (event : Event) (nowMs : Nat)
    : Applied s event nowMs (apply s event nowMs).1 (apply s event nowMs).2 := by
  unfold apply
  split
  . next id tier hcorr =>
    split
    . next hnone =>
      apply Applied.unbound
      . intro id' tier' hcorr'
        rw [hcorr] at hcorr'
        cases hcorr'
        exact hnone
      . intro lct rid key hnew
        rw [hcorr] at hnew
        contradiction
    . next lc hget =>
      split
      . next hclosed => exact .late hcorr hget hclosed
      . next hopen => exact .updated hcorr hget hopen
  . next lct rid key hcorr => exact .created hcorr
  . next hcorr =>
    apply Applied.unbound
    . intro id tier hmatch
      rw [hcorr] at hmatch
      contradiction
    . intro lct rid key hnew
      rw [hcorr] at hnew
      contradiction

theorem apply_of_new {s : σ} {event : Event} {lct : LifecycleType} {rid key : Option String}
    (h : correlate s event = .new lct rid key) (nowMs : Nat)
    : apply s event nowMs
        = (recordEvent (upsert s (Lifecycle.create event lct rid key nowMs)) event.eventId
            ("lc_" ++ event.eventId),
          .created ("lc_" ++ event.eventId) lct (Lifecycle.create event lct rid key nowMs).state
            (Lifecycle.create event lct rid key nowMs).closure) := by
  unfold apply
  rw [h]
  rfl

theorem apply_of_none {s : σ} {event : Event} (h : correlate s event = .none) (nowMs : Nat)
    : apply s event nowMs = (s, .unbound) := by
  unfold apply
  rw [h]

theorem apply_of_open {s : σ} {event : Event} {id : String} {tier : InferenceTier} {lc : Lifecycle}
    (h : correlate s event = .match' id tier) (hget : get s id = some lc)
    (hopen : ¬lc.closure.isClosed) (nowMs : Nat)
    : apply s event nowMs
        = (recordEvent (upsert s (lc.withEvent event tier nowMs)) event.eventId id,
          .updated id tier (lc.withEvent event tier nowMs).state
            (lc.withEvent event tier nowMs).closure) := by
  unfold apply
  rw [h]
  dsimp only
  rw [hget]
  dsimp only
  rw [if_neg hopen]

theorem apply_of_closed {s : σ} {event : Event} {id : String} {tier : InferenceTier}
    {lc : Lifecycle} (h : correlate s event = .match' id tier) (hget : get s id = some lc)
    (hclosed : lc.closure.isClosed) (nowMs : Nat)
    : apply s event nowMs
        = (upsert s (lc.withLateEvent event nowMs),
          .lateEvent id tier (classifyLateEvent lc event)) := by
  unfold apply
  rw [h]
  dsimp only
  rw [hget]
  dsimp only
  rw [if_pos hclosed]

end Correlate

section Lawful

variable {σ : Type} [LifecycleStore σ] [LawfulLifecycleStore σ]

theorem fits_of_revises {s : σ} (h : Inv s) {lc old : Lifecycle} (hget : get s old.id = some old)
    (hrev : lc.Revises old) : Fits s lc := by
  constructor
  . intro r id hr hfind
    rw [hrev.resourceId_eq] at hr
    rw [findByResource_of_get h hget hr] at hfind
    rw [← Option.some.inj hfind, hrev.id_eq]
  . intro k id hk hfind
    rw [hrev.businessKey_eq] at hk
    rw [findByBusinessKey_of_get h hget hk] at hfind
    rw [← Option.some.inj hfind, hrev.id_eq]

theorem get_self {s : σ} (h : Inv s) {id : String} {lc : Lifecycle} (hget : get s id = some lc)
    : get s lc.id = some lc := by
  rw [get_id h hget]
  exact hget

theorem findByResource_upsert_self {s : σ} (h : Inv s) {lc : Lifecycle} (hfits : Fits s lc)
    {r : String} (hr : lc.resourceId = some r)
    : findByResource (upsert s lc) r = some lc.id := by
  apply findByResource_of_get (inv_upsert h hfits) _ hr
  rw [get_upsert h hfits, if_pos rfl]

theorem findByBusinessKey_upsert_self {s : σ} (h : Inv s) {lc : Lifecycle} (hfits : Fits s lc)
    {k : String} (hk : lc.businessKey = some k)
    : findByBusinessKey (upsert s lc) k = some lc.id := by
  apply findByBusinessKey_of_get (inv_upsert h hfits) _ hk
  rw [get_upsert h hfits, if_pos rfl]

-- An upsert of a new lifecycle, or of a later version of the stored one, adds its own keys only.
theorem findByResource_upsert_eq {s : σ} (h : Inv s) {lc : Lifecycle} (hfits : Fits s lc)
    (hold : ∀ old, get s lc.id = some old → lc.Revises old) (r : String)
    : findByResource (upsert s lc) r
        = if lc.resourceId = some r then some lc.id else findByResource s r := by
  split
  . next hr => exact findByResource_upsert_self h hfits hr
  . next hr =>
    apply findByResource_upsert h hfits r hr
    intro old hget
    rw [← (hold old hget).resourceId_eq]
    exact hr

theorem findByBusinessKey_upsert_eq {s : σ} (h : Inv s) {lc : Lifecycle} (hfits : Fits s lc)
    (hold : ∀ old, get s lc.id = some old → lc.Revises old) (k : String)
    : findByBusinessKey (upsert s lc) k
        = if lc.businessKey = some k then some lc.id else findByBusinessKey s k := by
  split
  . next hk => exact findByBusinessKey_upsert_self h hfits hk
  . next hk =>
    apply findByBusinessKey_upsert h hfits k hk
    intro old hget
    rw [← (hold old hget).businessKey_eq]
    exact hk

theorem keeps_upsert {s : σ} (h : Inv s) {lc : Lifecycle} (hfits : Fits s lc)
    (hold : ∀ old, get s lc.id = some old → lc.Revises old) : Keeps s (upsert s lc) := by
  constructor
  . intro r hr
    rw [findByResource_upsert_eq h hfits hold]
    split
    . simp
    . exact hr
  . intro k hk
    rw [findByBusinessKey_upsert_eq h hfits hold]
    split
    . simp
    . exact hk
  . intro eventId hevent
    rw [findByEvent_upsert]
    split
    . simp
    . exact hevent

theorem keeps_recordEvent (s : σ) (eventId id : String) : Keeps s (recordEvent s eventId id) := by
  constructor
  . intro r hr
    rwa [findByResource_recordEvent]
  . intro k hk
    rwa [findByBusinessKey_recordEvent]
  . intro eventId' hevent
    rw [findByEvent_recordEvent]
    split
    . simp
    . exact hevent

-- Binding an event that the lifecycle already lists changes no lookup.
theorem findByEvent_recordEvent_upsert (s : σ) {lc : Lifecycle} {eventId : String}
    (h : eventId ∈ lc.eventIds) (eventId' : String)
    : findByEvent (recordEvent (upsert s lc) eventId lc.id) eventId'
        = if eventId' ∈ lc.eventIds then some lc.id else findByEvent s eventId' := by
  rw [findByEvent_recordEvent, findByEvent_upsert]
  split
  . next heq => rw [heq, if_pos h]
  . rfl

theorem Applied.inv {s s' : σ} (h : Inv s) {event : Event} {nowMs : Nat} {outcome : ApplyOutcome}
    (happlied : Applied s event nowMs s' outcome) : Inv s' := by
  cases happlied with
  | unbound => exact h
  | late hcorr hget hclosed =>
    apply inv_upsert h
    exact fits_of_revises h (get_self h hget) (Lifecycle.withLateEvent_revises _ _ _)
  | updated hcorr hget hopen =>
    apply inv_recordEvent
    apply inv_upsert h
    exact fits_of_revises h (get_self h hget) (Lifecycle.withEvent_revises _ _ _ _)
  | created hcorr =>
    apply inv_recordEvent
    apply inv_upsert h
    exact fits_of_new hcorr nowMs

end Lawful

end LifecycleEngine

end Athar
