import Athar.Lifecycle.Calls
import Athar.Lifecycle.Instance

/-!
This module contains the events that share a key. A lifecycle is indexed by the keys that it is
created under and learns no others, so two events with a common key meet in one lifecycle when the
key leads each of them there: its lookup finds what the first successful lookup finds, or nothing is
found and the lifecycle is created under it.
-/

namespace Athar

open LifecycleStore LawfulLifecycleStore LifecycleEngine

-- What an index is looked up by: a resource id, or an operation or business id.
inductive CorrelationKey where
  | resource (r : String)
  | business (k : String)
  deriving DecidableEq, Repr

def Event.carries (event : Event) : CorrelationKey → Prop
  | .resource r => event.resourceId = some r
  | .business k => event.operationId = some k ∨ event.businessId = some k

def Lifecycle.hasKey (lc : Lifecycle) : CorrelationKey → Prop
  | .resource r => lc.resourceId = some r
  | .business k => lc.businessKey = some k

namespace ApplyOutcome

def boundTo : ApplyOutcome → Option String
  | .created lifecycleId _ _ _ => some lifecycleId
  | .updated lifecycleId _ _ _ => some lifecycleId
  | .lateEvent lifecycleId _ _ => some lifecycleId
  | .unbound => none

end ApplyOutcome

section Store

variable {σ : Type} [LifecycleStore σ]

def findKey (s : σ) : CorrelationKey → Option String
  | .resource r => findByResource s r
  | .business k => findByBusinessKey s k

-- An event that starts a lifecycle starts it under this key.
def Event.StartsUnder (event : Event) (key : CorrelationKey) : Prop :=
  ∃ lct rid bkey, startKeys event = some (lct, rid, bkey) ∧
    match key with
    | .resource r => rid = some r
    | .business k => bkey = some k

-- The event carries the key, and the key decides which lifecycle it is bound to.
def Leads (s : σ) (event : Event) (key : CorrelationKey) : Prop :=
  event.carries key
    ∧ ((∃ id tier, findKey s key = some id ∧ firstMatch s event = some (id, tier))
      ∨ (firstMatch s event = none ∧ event.StartsUnder key))

-- Every lifecycle is named after an event that has been seen.
def Named (seen : List String) (s : σ) : Prop :=
  ∀ id, get s id ≠ none → ∃ eventId ∈ seen, id = "lc_" ++ eventId

theorem Named.fresh {seen : List String} {s : σ} (h : Named seen s) {eventId : String}
    (hfresh : eventId ∉ seen) : get s ("lc_" ++ eventId) = none := by
  by_contra hstored
  rcases h _ hstored with ⟨eventId', hseen, hid⟩
  rw [← lc_append_inj hid] at hseen
  exact hfresh hseen

theorem firstMatch_ne_none_of_carries {s : σ} {event : Event} {key : CorrelationKey} {id : String}
    (hcarries : event.carries key) (hfind : findKey s key = some id)
    : firstMatch s event ≠ none := by
  intro hnone
  rw [firstMatch_eq_none_iff] at hnone
  cases key with
  | resource r =>
    have hcarries : event.resourceId = some r := hcarries
    have := hnone .resourceId (by decide)
    rw [lookupTier, hcarries, Option.bind_some] at this
    rw [findKey, this] at hfind
    contradiction
  | business k =>
    cases hcarries with
    | inl hoperation =>
      have := hnone .explicit (by decide)
      rw [lookupTier, hoperation, Option.bind_some] at this
      rw [findKey, this] at hfind
      contradiction
    | inr hbusiness =>
      have := hnone .businessId (by decide)
      rw [lookupTier, hbusiness, Option.bind_some] at this
      rw [findKey, this] at hfind
      contradiction

theorem correlate_of_firstMatch {s : σ} {event : Event} {id : String} {tier : InferenceTier}
    (h : firstMatch s event = some (id, tier)) : correlate s event = .match' id tier := by
  rw [correlate_eq, h]

variable [LawfulLifecycleStore σ]

theorem findKey_upsert {s : σ} (h : Inv s) {lc : Lifecycle} (hfits : Fits s lc)
    (hold : ∀ old, get s lc.id = some old → lc.Revises old) {key : CorrelationKey}
    (hkey : ¬lc.hasKey key) : findKey (upsert s lc) key = findKey s key := by
  cases key with
  | resource r =>
    unfold Lifecycle.hasKey at hkey
    rw [findKey, findByResource_upsert_eq h hfits hold, if_neg hkey, findKey]
  | business k =>
    unfold Lifecycle.hasKey at hkey
    rw [findKey, findByBusinessKey_upsert_eq h hfits hold, if_neg hkey, findKey]

theorem findKey_upsert_self {s : σ} (h : Inv s) {lc : Lifecycle} (hfits : Fits s lc)
    {key : CorrelationKey} (hkey : lc.hasKey key) : findKey (upsert s lc) key = some lc.id := by
  cases key with
  | resource r => exact findByResource_upsert_self h hfits hkey
  | business k => exact findByBusinessKey_upsert_self h hfits hkey

theorem findKey_recordEvent (s : σ) (eventId id : String) (key : CorrelationKey)
    : findKey (recordEvent s eventId id) key = findKey s key := by
  cases key with
  | resource r => rw [findKey, findByResource_recordEvent, findKey]
  | business k => rw [findKey, findByBusinessKey_recordEvent, findKey]

omit [LawfulLifecycleStore σ] in
theorem Fits.eq_of_findKey {s : σ} {lc : Lifecycle} (hfits : Fits s lc) {key : CorrelationKey}
    (hkey : lc.hasKey key) {id : String} (hfind : findKey s key = some id) : id = lc.id := by
  cases key with
  | resource r => exact hfits.resource r id hkey hfind
  | business k => exact hfits.businessKey k id hkey hfind

-- What an upsert that fits finds under a key it found before is the same lifecycle.
theorem findKey_upsert_stable {s : σ} (h : Inv s) {lc : Lifecycle} (hfits : Fits s lc)
    (hold : ∀ old, get s lc.id = some old → lc.Revises old) {key : CorrelationKey} {id : String}
    (hfind : findKey s key = some id) : findKey (upsert s lc) key = some id := by
  by_cases hkey : lc.hasKey key
  . rw [findKey_upsert_self h hfits hkey, hfits.eq_of_findKey hkey hfind]
  . rw [findKey_upsert h hfits hold hkey, hfind]

theorem get_of_findKey {s : σ} (h : Inv s) {key : CorrelationKey} {id : String}
    (hfind : findKey s key = some id) : ∃ lc, get s id = some lc := by
  cases key with
  | resource r => exact get_of_findByResource h hfind
  | business k => exact get_of_findByBusinessKey h hfind

theorem Named.upsert {seen : List String} {s : σ} (h : Named seen s) (hinv : Inv s)
    {lc : Lifecycle} (hfits : Fits s lc) (hid : ∃ eventId ∈ seen, lc.id = "lc_" ++ eventId)
    : Named seen (upsert s lc) := by
  intro id hstored
  rw [get_upsert hinv hfits] at hstored
  split at hstored
  . next heq =>
    rw [heq]
    exact hid
  . exact h id hstored

omit [LawfulLifecycleStore σ] in
theorem Named.mono {seen : List String} {s : σ} (h : Named seen s) (more : List String)
    : Named (seen ++ more) s := by
  intro id hstored
  rcases h id hstored with ⟨eventId, hseen, hid⟩
  exact ⟨eventId, List.mem_append_left _ hseen, hid⟩

theorem Named.recordEvent {seen : List String} {s : σ} (h : Named seen s) (eventId id : String)
    : Named seen (recordEvent s eventId id) := by
  unfold Named
  rw [get_recordEvent]
  exact h

-- A call with a new event keeps what every key finds.
theorem apply_stable {seen : List String} {s : σ} (hinv : Inv s) (hnamed : Named seen s)
    {event : Event} (hfresh : event.eventId ∉ seen) (nowMs : Nat)
    : Named (seen ++ [event.eventId]) (apply s event nowMs).1
        ∧ ∀ key id, findKey s key = some id → findKey (apply s event nowMs).1 key = some id := by
  have happlied := apply_applied s event nowMs
  generalize (apply s event nowMs).1 = s' at happlied ⊢
  generalize (apply s event nowMs).2 = outcome at happlied
  have hnamed' := hnamed.mono [event.eventId]
  cases happlied with
  | unbound => exact ⟨hnamed', fun _ _ h => h⟩
  | @late id tier lc hcorr hget hclosed =>
    have hrev := lc.withLateEvent_revises event nowMs
    have hstored := get_self hinv hget
    have hfits := fits_of_revises hinv hstored hrev
    constructor
    . apply hnamed'.upsert hinv hfits
      rw [hrev.id_eq]
      apply hnamed'
      rw [hstored]
      simp
    . intro key id' hfind
      exact findKey_upsert_stable hinv hfits (hrev.of_get hstored) hfind
  | @updated id tier lc hcorr hget hopen =>
    have hrev := lc.withEvent_revises event tier nowMs
    have hstored := get_self hinv hget
    have hfits := fits_of_revises hinv hstored hrev
    constructor
    . apply Named.recordEvent
      apply hnamed'.upsert hinv hfits
      rw [hrev.id_eq]
      apply hnamed'
      rw [hstored]
      simp
    . intro key id' hfind
      rw [findKey_recordEvent]
      exact findKey_upsert_stable hinv hfits (hrev.of_get hstored) hfind
  | @created lct rid bkey hcorr =>
    have hfits := fits_of_new hcorr nowMs
    constructor
    . apply Named.recordEvent
      apply hnamed'.upsert hinv hfits
      exact ⟨event.eventId, by simp, rfl⟩
    . intro key id' hfind
      rw [findKey_recordEvent]
      apply findKey_upsert_stable hinv hfits _ hfind
      intro old hold
      rw [Lifecycle.create_id, hnamed.fresh hfresh] at hold
      contradiction

-- After a call that a key leads, the key finds the lifecycle that the event is bound to.
theorem Leads.boundTo {seen : List String} {s : σ} (hinv : Inv s) (hnamed : Named seen s)
    {event : Event} (hfresh : event.eventId ∉ seen) {key : CorrelationKey}
    (hleads : Leads s event key) (nowMs : Nat)
    : ∃ id, (apply s event nowMs).2.boundTo = some id
        ∧ findKey (apply s event nowMs).1 key = some id
        ∧ ∀ found, findKey s key = some found → found = id := by
  rcases hleads with ⟨hcarries, ⟨id, tier, hfind, hmatch⟩ | ⟨hnone, lct, rid, bkey, hstart, hkey⟩⟩
  . have hcorr := correlate_of_firstMatch hmatch
    rcases get_of_findKey hinv hfind with ⟨lc, hget⟩
    refine ⟨id, ?_, (apply_stable hinv hnamed hfresh nowMs).2 key id hfind, ?_⟩
    . by_cases hclosed : lc.closure.isClosed
      . rw [apply_of_closed hcorr hget hclosed]
        rfl
      . rw [apply_of_open hcorr hget hclosed]
        rfl
    . intro found hfound
      rw [hfind, Option.some.injEq] at hfound
      exact hfound.symm
  . have hcorr : correlate s event = .new lct rid bkey := by
      rw [correlate_eq, hnone, hstart]
    refine ⟨"lc_" ++ event.eventId, ?_, ?_, ?_⟩
    . rw [apply_of_new hcorr]
      rfl
    . rw [apply_of_new hcorr, findKey_recordEvent]
      apply findKey_upsert_self hinv (fits_of_new hcorr nowMs)
      cases key with
      | resource r => exact hkey
      | business k => exact hkey
    . intro found hfound
      exact absurd hnone (firstMatch_ne_none_of_carries hcarries hfound)

-- The store after applying the events one after the other.
def applyAll (s : σ) (arrivals : List (Event × Nat)) : σ :=
  Run.exec EngineCall.step s (arrivals.map fun arrival => .apply arrival.1 arrival.2)

omit [LawfulLifecycleStore σ] in
theorem applyAll_append (s : σ) (a b : List (Event × Nat))
    : applyAll s (a ++ b) = applyAll (applyAll s a) b := by
  rw [applyAll, List.map_append, Run.exec_append, applyAll, applyAll]

theorem applyAll_stable {seen : List String} {s : σ} (hinv : Inv s) (hnamed : Named seen s)
    {arrivals : List (Event × Nat)} (hdistinct : (seen ++ arrivals.map (·.1.eventId)).Nodup)
    : Inv (applyAll s arrivals) ∧ Named (seen ++ arrivals.map (·.1.eventId)) (applyAll s arrivals)
        ∧ ∀ key id, findKey s key = some id → findKey (applyAll s arrivals) key = some id := by
  induction arrivals generalizing seen s with
  | nil =>
    rw [List.map_nil, List.append_nil]
    exact ⟨hinv, hnamed, fun _ _ h => h⟩
  | cons arrival arrivals ih =>
    have hfresh : arrival.1.eventId ∉ seen := by
      intro hmem
      have := (List.nodup_append.mp hdistinct).2.2 _ hmem arrival.1.eventId
      exact this (by simp) rfl
    rcases apply_stable hinv hnamed hfresh arrival.2 with ⟨hnamed', hstable⟩
    rw [List.map_cons, List.append_cons] at hdistinct ⊢
    rcases ih ((apply_applied s arrival.1 arrival.2).inv hinv) hnamed' hdistinct
      with ⟨hinv', hnamed'', hrest⟩
    refine ⟨hinv', hnamed'', ?_⟩
    intro key id hfind
    exact hrest key id (hstable key id hfind)

end Store

theorem named_empty (backend : Backend) : Named [] (DynStore.empty backend) := by
  intro id hstored
  exact absurd (DynStore.get_empty backend id) hstored

theorem nodup_of_arrived {arrivals pre : List (Event × Nat)} {a : Event × Nat}
    (hdistinct : (arrivals.map (·.1.eventId)).Nodup) (harrived : pre ++ [a] <+: arrivals)
    : (pre.map (·.1.eventId)).Nodup ∧ a.1.eventId ∉ pre.map (·.1.eventId) := by
  have hids := hdistinct.sublist (harrived.sublist.map (·.1.eventId))
  rw [List.map_append, List.map_singleton, ← List.concat_eq_append, List.nodup_concat] at hids
  exact hids.symm

-- The store that an event of the sequence is applied to.
theorem reached (backend : Backend) {arrivals pre : List (Event × Nat)} {a : Event × Nat}
    (hdistinct : (arrivals.map (·.1.eventId)).Nodup) (harrived : pre ++ [a] <+: arrivals)
    : Inv (applyAll (DynStore.empty backend) pre)
        ∧ Named (pre.map (·.1.eventId)) (applyAll (DynStore.empty backend) pre)
        ∧ a.1.eventId ∉ pre.map (·.1.eventId) := by
  rcases nodup_of_arrived hdistinct harrived with ⟨hnodup, hfresh⟩
  have hinit := DynStore.inv_empty backend
  rcases applyAll_stable hinit (named_empty backend) hnodup with ⟨hinv, hnamed, _⟩
  exact ⟨hinv, hnamed, hfresh⟩

/--
Of events with distinct ids, two that carry a common key are bound to the same lifecycle if the key
leads each of them when it is applied.
-/
theorem not_split_of_leads (backend : Backend) {arrivals pre mid : List (Event × Nat)}
    {a b : Event × Nat} (hdistinct : (arrivals.map (·.1.eventId)).Nodup)
    (harrived : pre ++ a :: mid ++ [b] <+: arrivals) {key : CorrelationKey}
    (hleads : Leads (applyAll (DynStore.empty backend) pre) a.1 key)
    (hleads' : Leads (applyAll (DynStore.empty backend) (pre ++ a :: mid)) b.1 key)
    : ∃ id, (apply (applyAll (DynStore.empty backend) pre) a.1 a.2).2.boundTo = some id
        ∧ (apply (applyAll (DynStore.empty backend) (pre ++ a :: mid)) b.1 b.2).2.boundTo
          = some id := by
  have hfirst : pre ++ [a] <+: arrivals := by
    apply List.IsPrefix.trans _ harrived
    exact ⟨mid ++ [b], by simp⟩
  rcases reached backend hdistinct hfirst with ⟨hinv, hnamed, hfresh⟩
  rcases reached backend hdistinct harrived with ⟨hinv', hnamed', hfresh'⟩
  rcases hleads.boundTo hinv hnamed hfresh a.2 with ⟨id, hbound, hfind, _⟩
  rcases hleads'.boundTo hinv' hnamed' hfresh' b.2 with ⟨id', hbound', _, hfound⟩
  have hlater : findKey (applyAll (DynStore.empty backend) (pre ++ a :: mid)) key = some id := by
    rcases apply_stable hinv hnamed hfresh a.2 with ⟨hnamed'', _⟩
    have hrest := (nodup_of_arrived hdistinct harrived).1
    rw [List.map_append, List.map_cons, List.append_cons] at hrest
    have hstable := applyAll_stable ((apply_applied _ a.1 a.2).inv hinv) hnamed'' hrest
    rw [applyAll_append]
    exact hstable.2.2 key id hfind
  refine ⟨id, hbound, ?_⟩
  rw [hbound', hfound id hlater]

-- Two events of one payment: its resource leads both.
theorem not_split_of_leads_resource
    : ∃ id, (apply (applyAll (DynStore.empty .sqlite) []) creation 5).2.boundTo = some id
        ∧ (apply (applyAll (DynStore.empty .sqlite) [(creation, 5)]) settlement 7).2.boundTo
          = some id := by
  have hdistinct : ([(creation, 5), (settlement, 7)].map (·.1.eventId)).Nodup := by
    decide
  have harrived : [] ++ (creation, 5) :: [] ++ [(settlement, 7)]
      <+: [(creation, 5), (settlement, 7)] := List.prefix_refl _
  have hfirst : Leads (applyAll (DynStore.empty .sqlite) []) creation (.resource "pay_1") :=
    ⟨rfl, Or.inr ⟨rfl, .payment, some "pay_1", none, by decide, rfl⟩⟩
  have hsecond : Leads (applyAll (DynStore.empty .sqlite) [(creation, 5)]) settlement
      (.resource "pay_1") :=
    ⟨rfl, Or.inl ⟨"lc_e1", .resourceId, by decide +kernel, by decide +kernel⟩⟩
  exact not_split_of_leads .sqlite hdistinct harrived hfirst hsecond

-- Any two events that carry a common key are bound to the same lifecycle.
def SharedKeysMeet (backend : Backend) (arrivals : List (Event × Nat)) : Prop :=
  ∀ pre mid a b key, pre ++ a :: mid ++ [b] <+: arrivals → a.1.carries key → b.1.carries key →
    ∃ id, (apply (applyAll (DynStore.empty backend) pre) a.1 a.2).2.boundTo = some id
      ∧ (apply (applyAll (DynStore.empty backend) (pre ++ a :: mid)) b.1 b.2).2.boundTo = some id

def withOperation (event : Event) (operationId : String) : Event :=
  { event with operation := some ⟨some operationId, "refund", .explicit, 1, none⟩ }

-- The second event is bound by its resource, so no lifecycle is known by its operation.
def operationLearnedLate : List (Event × Nat) :=
  [(paymentEvent "payment.create" "e1" "tnt_a" "pay_1", 1),
    (withOperation (paymentEvent "payment.process" "e2" "tnt_a" "pay_1") "op_1", 2),
    (withOperation (paymentEvent "payment.create" "e3" "tnt_a" "pay_2") "op_1", 3)]

theorem shared_operation_splits : ¬SharedKeysMeet .sqlite operationLearnedLate := by
  intro h
  rcases h (operationLearnedLate.take 1) []
    (withOperation (paymentEvent "payment.process" "e2" "tnt_a" "pay_1") "op_1", 2)
    (withOperation (paymentEvent "payment.create" "e3" "tnt_a" "pay_2") "op_1", 3)
    (.business "op_1") (List.prefix_refl _) (Or.inl rfl) (Or.inl rfl) with ⟨id, hfirst, hsecond⟩
  have hfirst' : (apply (applyAll (DynStore.empty .sqlite) (operationLearnedLate.take 1))
      (withOperation (paymentEvent "payment.process" "e2" "tnt_a" "pay_1") "op_1") 2).2.boundTo
        = some "lc_e1" := by
    decide +kernel
  have hsecond' : (apply (applyAll (DynStore.empty .sqlite) (operationLearnedLate.take 2))
      (withOperation (paymentEvent "payment.create" "e3" "tnt_a" "pay_2") "op_1") 3).2.boundTo
        = some "lc_e3" := by
    decide +kernel
  have hid := hfirst'.symm.trans hfirst
  have hid' := hsecond'.symm.trans hsecond
  rw [← hid'] at hid
  contradiction

end Athar
