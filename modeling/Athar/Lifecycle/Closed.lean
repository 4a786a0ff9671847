import Athar.Lifecycle.Instance

/-!
This module contains what becomes of a closed lifecycle over runs of the engine and the scanner. The
engine does not reopen the lifecycle it correlates an event to, and the scanner only takes open ones.
But the id of a new lifecycle is derived from its event, so an event whose id was seen before and
that correlates to nothing writes a new lifecycle over the old one.
-/

namespace Athar

open LifecycleStore LawfulLifecycleStore LifecycleEngine

structure Lifecycle.Frozen (lc old : Lifecycle) : Prop where
  state_eq : lc.state = old.state
  closure_eq : lc.closure = old.closure
  closedAtMs_eq : lc.closedAtMs = old.closedAtMs
  resourceId_eq : lc.resourceId = old.resourceId
  businessKey_eq : lc.businessKey = old.businessKey
  eventIds_eq : lc.eventIds = old.eventIds
  lateEvents_prefix : old.lateEvents <+: lc.lateEvents

namespace Lifecycle.Frozen

theorem refl (lc : Lifecycle) : lc.Frozen lc :=
  ⟨rfl, rfl, rfl, rfl, rfl, rfl, List.prefix_refl _⟩

theorem trans {a b c : Lifecycle} (hab : a.Frozen b) (hbc : b.Frozen c) : a.Frozen c where
  state_eq := hab.state_eq.trans hbc.state_eq
  closure_eq := hab.closure_eq.trans hbc.closure_eq
  closedAtMs_eq := hab.closedAtMs_eq.trans hbc.closedAtMs_eq
  resourceId_eq := hab.resourceId_eq.trans hbc.resourceId_eq
  businessKey_eq := hab.businessKey_eq.trans hbc.businessKey_eq
  eventIds_eq := hab.eventIds_eq.trans hbc.eventIds_eq
  lateEvents_prefix := hbc.lateEvents_prefix.trans hab.lateEvents_prefix

theorem withLateEvent (lc : Lifecycle) (event : Event) (nowMs : Nat)
    : (lc.withLateEvent event nowMs).Frozen lc :=
  ⟨rfl, rfl, rfl, rfl, rfl, rfl, List.prefix_append _ _⟩

end Lifecycle.Frozen

section ClosedStays

variable {σ : Type} [LifecycleStore σ]

def ClosedStays (s s' : σ) : Prop :=
  ∀ id lc, get s id = some lc → lc.closure.isClosed → ∃ lc', get s' id = some lc' ∧ lc'.Frozen lc

-- A new lifecycle is written over a closed one: its event id was used before.
def EngineCall.RecreatesClosed (s : σ) : EngineCall → Prop
  | .apply event _ =>
    (∃ lct rid key, correlate s event = .new lct rid key)
      ∧ ∃ lc, get s ("lc_" ++ event.eventId) = some lc ∧ lc.closure.isClosed
  | .sweep _ _ => False

theorem ClosedStays.refl (s : σ) : ClosedStays s s := by
  intro id lc hget _
  exact ⟨lc, hget, .refl lc⟩

theorem ClosedStays.trans (s t u : σ) (hst : ClosedStays s t) (htu : ClosedStays t u)
    : ClosedStays s u := by
  intro id lc hget hclosed
  rcases hst id lc hget hclosed with ⟨lc', hget', hfrozen⟩
  have hclosed' : lc'.closure.isClosed := by
    rw [hfrozen.closure_eq]
    exact hclosed
  rcases htu id lc' hget' hclosed' with ⟨lc'', hget'', hfrozen'⟩
  exact ⟨lc'', hget'', hfrozen'.trans hfrozen⟩

theorem not_closedStays_of_reopened {s s' : σ} (id : String)
    (h : (get s id).map (·.closure.isClosed) = some true)
    (h' : (get s' id).map (·.closure.isClosed) = some false) : ¬ClosedStays s s' := by
  rw [Option.map_eq_some_iff] at h h'
  rcases h with ⟨lc, hget, hclosed⟩
  rcases h' with ⟨lc', hget', hopen⟩
  intro hstays
  rcases hstays id lc hget hclosed with ⟨lc'', hget'', hfrozen⟩
  rw [hget', Option.some.injEq] at hget''
  subst hget''
  rw [hfrozen.closure_eq, hclosed] at hopen
  contradiction

variable [LawfulLifecycleStore σ]

-- An upsert leaves the closed lifecycles alone if it leaves the one of its own id alone.
theorem ClosedStays.upsert {s : σ} (h : Inv s) {lc : Lifecycle} (hfits : Fits s lc)
    (hown : ∀ old, get s lc.id = some old → old.closure.isClosed → lc.Frozen old)
    : ClosedStays s (upsert s lc) := by
  intro id old hget hclosed
  by_cases hid : id = lc.id
  . refine ⟨lc, by rw [get_upsert h hfits, if_pos hid], ?_⟩
    apply hown old _ hclosed
    rw [← hid]
    exact hget
  . refine ⟨old, ?_, .refl old⟩
    rw [get_upsert h hfits, if_neg hid]
    exact hget

theorem ClosedStays.recordEvent {s s' : σ} (h : ClosedStays s s') (eventId id : String)
    : ClosedStays s (recordEvent s' eventId id) := by
  unfold ClosedStays
  rw [get_recordEvent]
  exact h

theorem LifecycleEngine.Applied.closedStays {s s' : σ} (h : Inv s) {event : Event} {nowMs : Nat}
    {outcome : ApplyOutcome} (happlied : Applied s event nowMs s' outcome)
    (hkeep : ¬EngineCall.RecreatesClosed s (.apply event nowMs)) : ClosedStays s s' := by
  cases happlied with
  | unbound => exact .refl s
  | @late id tier lc hcorr hget hclosed =>
    have hrev := lc.withLateEvent_revises event nowMs
    apply ClosedStays.upsert h (fits_of_revises h (get_self h hget) hrev)
    intro old hold _
    rw [hrev.id_eq, get_self h hget] at hold
    rw [← Option.some.inj hold]
    exact .withLateEvent lc event nowMs
  | @updated id tier lc hcorr hget hopen =>
    have hrev := lc.withEvent_revises event tier nowMs
    apply ClosedStays.recordEvent
    apply ClosedStays.upsert h (fits_of_revises h (get_self h hget) hrev)
    intro old hold hclosed
    rw [hrev.id_eq, get_self h hget] at hold
    rw [← Option.some.inj hold] at hclosed
    contradiction
  | @created lct rid key hcorr =>
    apply ClosedStays.recordEvent
    apply ClosedStays.upsert h (fits_of_new hcorr nowMs)
    intro old hold hclosed
    exact absurd ⟨⟨lct, rid, key, hcorr⟩, old, hold, hclosed⟩ hkeep

theorem EngineCall.closedStays {s : σ} (h : Inv s) {call : EngineCall}
    (hkeep : ¬call.RecreatesClosed s) : ClosedStays s (call.step s) := by
  cases call with
  | apply event nowMs => exact (apply_applied s event nowMs).closedStays h hkeep
  | sweep order nowMs =>
    intro id lc hget hclosed
    refine ⟨lc, ?_, .refl lc⟩
    unfold EngineCall.step
    rw [(StalenessScanner.sweep_spec h order nowMs).2.1, hget, Option.map_some,
      Lifecycle.swept_of_closed hclosed]

-- The keys of a new lifecycle answer no lookup, so they are not those of a stored one.
theorem not_frozen_of_new {s : σ} (h : Inv s) (hkeys : HasKeys s) {event : Event}
    {lct : LifecycleType} {rid key : Option String} (hcorr : correlate s event = .new lct rid key)
    {id : String} {old : Lifecycle} (hget : get s id = some old) (nowMs : Nat)
    : ¬(Lifecycle.create event lct rid key nowMs).Frozen old := by
  intro hfrozen
  rcases find_of_new hcorr with ⟨hresource, hkey, hsome⟩
  have hr : rid = old.resourceId := hfrozen.resourceId_eq
  have hk : key = old.businessKey := hfrozen.businessKey_eq
  cases hold : old.resourceId with
  | some r =>
    have := findByResource_of_get h hget hold
    rw [hresource r (hr.trans hold)] at this
    contradiction
  | none =>
    rcases Option.ne_none_iff_exists'.mp (hkeys id old hget hold) with ⟨k, hbusiness⟩
    have := findByBusinessKey_of_get h hget hbusiness
    rw [hkey k (hk.trans hbusiness)] at this
    contradiction

theorem EngineCall.not_closedStays {s : σ} (h : Inv s) (hkeys : HasKeys s) {call : EngineCall}
    (hrecreates : call.RecreatesClosed s) : ¬ClosedStays s (call.step s) := by
  cases call with
  | apply event nowMs =>
    rcases hrecreates with ⟨⟨lct, rid, key, hcorr⟩, old, hget, hclosed⟩
    intro hstays
    rcases hstays _ old hget hclosed with ⟨lc, hlc, hfrozen⟩
    unfold EngineCall.step at hlc
    dsimp only at hlc
    rw [apply_of_new hcorr, get_recordEvent, get_upsert h (fits_of_new hcorr nowMs),
      Lifecycle.create_id, if_pos rfl] at hlc
    rw [← Option.some.inj hlc] at hfrozen
    exact not_frozen_of_new h hkeys hcorr hget nowMs hfrozen
  | sweep order nowMs => exact hrecreates.elim

end ClosedStays

/--
Along a run of the engine and the scanner over either store, every closed lifecycle stays as it was
closed, but for late events, if and only if no new lifecycle is written over a closed one.
-/
theorem closedStays_iff_not_recreatesClosed (backend : Backend) (calls : List EngineCall)
    : Run.Stable EngineCall.step ClosedStays (DynStore.empty backend) calls
        ↔ Run.Guarded EngineCall.step (fun s call => ¬call.RecreatesClosed s)
          (DynStore.empty backend) calls := by
  apply Run.stable_iff_guarded (I := fun s => Inv s ∧ HasKeys s)
  . constructor
    . exact DynStore.inv_empty backend
    . intro id lc hget
      rw [DynStore.get_empty] at hget
      contradiction
  . rintro s call ⟨hinv, hkeys⟩
    exact ⟨call.inv_step hinv, call.hasKeys_step hinv hkeys⟩
  . exact ClosedStays.refl
  . exact ClosedStays.trans
  . rintro s call ⟨hinv, _⟩ hkeep
    exact call.closedStays hinv hkeep
  . rintro s call ⟨hinv, hkeys⟩ hrecreates
    exact call.not_closedStays hinv hkeys (Classical.not_not.mp hrecreates)

-- The event id of a settled payment comes again, with another resource.
def recreatingCalls : List EngineCall :=
  [.apply (paymentEvent "payment.settle" "e1" "tnt_test" "pay_1") 1000,
    .apply (paymentEvent "payment.create" "e1" "tnt_test" "pay_2") 2000]

theorem recreatingCalls_not_stable
    : ¬Run.Stable EngineCall.step ClosedStays (DynStore.empty .inMemory) recreatingCalls
      ∧ ¬Run.Stable EngineCall.step ClosedStays (DynStore.empty .sqlite) recreatingCalls := by
  have hprefix : recreatingCalls.take 1 ++ recreatingCalls.drop 1 <+: recreatingCalls := by
    rw [List.take_append_drop]
  constructor
  . intro h
    refine not_closedStays_of_reopened "lc_e1" ?_ ?_ (h _ _ hprefix)
    . decide +kernel
    . decide +kernel
  . intro h
    refine not_closedStays_of_reopened "lc_e1" ?_ ?_ (h _ _ hprefix)
    . decide +kernel
    . decide +kernel

end Athar
