import Athar.Event.Lemmas
import Athar.Lifecycle.Lineage

/-!
This module contains the identifiers by which events are correlated and grouped. An unknown identifier
should be absent. The checks cover the tenant and the actors, but none of the identifiers that
correlation looks up.
-/

namespace Athar

open LifecycleStore LifecycleEngine

namespace Event

def lookedUp (event : Event) : List (Option String) :=
  [event.resourceId, event.operationId, event.businessId, event.causality.parentEventId,
    event.causality.causationId]

-- Every identifier that serves as a key.
def identifiers (event : Event) : List (Option String) :=
  event.lookedUp ++ [event.actor.bind (·.id), event.beneficiary.bind (·.id), some event.tenantId]

-- The identifier that the tier of this event looks up.
def keyOf (event : Event) : InferenceTier → Option String
  | .explicit => event.operationId
  | .businessId => event.businessId
  | .causation => event.parent
  | .resourceId => event.resourceId
  | .unknown => none

theorem keyOf_mem {event : Event} {tier : InferenceTier} {key : String}
    (h : event.keyOf tier = some key) : some key ∈ event.lookedUp := by
  unfold lookedUp
  cases tier with
  | explicit =>
    have h : event.operationId = some key := h
    simp [h]
  | businessId =>
    have h : event.businessId = some key := h
    simp [h]
  | causation =>
    have h : event.causality.parentEventId.or event.causality.causationId = some key := h
    rcases Option.or_eq_some_iff.mp h with h | ⟨_, h⟩
    . simp [h]
    . simp [h]
  | resourceId =>
    have h : event.resourceId = some key := h
    simp [h]
  | unknown => contradiction

-- What validation leaves unchecked is what correlation looks up.
theorem known_identifiers_iff {event : Event} (hvalid : event.validate = .ok ())
    : (∀ id ∈ event.identifiers, KnownOrAbsent id) ↔ ∀ id ∈ event.lookedUp, KnownOrAbsent id := by
  rcases validate_eq_ok_iff.mp hvalid with ⟨_, hstrings, hactors, _⟩
  have hactor : KnownOrAbsent (event.actor.bind (·.id)) := by
    intro s hs
    rcases Option.mem_bind_iff.mp hs with ⟨a, ha, hid⟩
    exact hactors a (by simp [actors, Option.mem_def.mp ha]) s hid
  have hbeneficiary : KnownOrAbsent (event.beneficiary.bind (·.id)) := by
    intro s hs
    rcases Option.mem_bind_iff.mp hs with ⟨a, ha, hid⟩
    exact hactors a (by simp [actors, Option.mem_def.mp ha]) s hid
  have htenant : KnownOrAbsent (some event.tenantId) := by
    rintro s ⟨⟩
    exact hstrings event.tenantId (by simp)
  simp [identifiers, hactor, hbeneficiary, htenant, or_imp, forall_and]

end Event

namespace LineageRun

variable {σ : Type} [LifecycleStore σ]

-- No event has joined a lifecycle by an identifier that is empty or a placeholder.
def JoinedByKnown (st : LineageRun σ) : Prop :=
  ∀ j ∈ st.joined, KnownOrAbsent (j.event.keyOf j.tier)

theorem JoinedByKnown.step {st : LineageRun σ} (h : st.JoinedByKnown) {arrival : Event × Nat}
    (hknown : ∀ id ∈ arrival.1.lookedUp, KnownOrAbsent id) : (st.step arrival).JoinedByKnown := by
  intro j hj
  rcases mem_joined_step hj with hold | ⟨hevent, _⟩
  . exact h j hold
  . rw [hevent]
    intro key hkey
    exact hknown _ (Event.keyOf_mem (Option.mem_def.mp hkey)) key rfl

end LineageRun

section Runs

open LineageRun

variable {σ : Type} [LifecycleStore σ]

-- The identifiers of the events are known or absent, so no two events meet by an unknown one.
structure UnknownNeverKey (store : σ) (arrivals : List (Event × Nat)) : Prop where
  identifiers : ∀ a ∈ arrivals, ∀ id ∈ a.1.identifiers, KnownOrAbsent id
  joined : Run.Always step JoinedByKnown (start store) arrivals

/--
Of accepted events no unknown identifier ever serves as a key if and only if the identifiers that
correlation looks up are known or absent in all of them.
-/
theorem unknownNeverKey_iff_lookedUp (store : σ) {arrivals : List (Event × Nat)}
    (hvalid : ∀ a ∈ arrivals, a.1.validate = .ok ())
    : UnknownNeverKey store arrivals
        ↔ ∀ a ∈ arrivals, ∀ id ∈ a.1.lookedUp, KnownOrAbsent id := by
  constructor
  . intro h a ha
    exact (Event.known_identifiers_iff (hvalid a ha)).mp (h.identifiers a ha)
  . intro h
    constructor
    . intro a ha
      exact (Event.known_identifiers_iff (hvalid a ha)).mpr (h a ha)
    . apply Run.always_of_guarded (I := JoinedByKnown) (G := fun _ a => a ∈ arrivals)
      . intro j hj
        contradiction
      . intro st a hst ha
        exact hst.step (h a ha)
      . exact Run.guarded_mem _ _

theorem unknownNeverKey_iff_lookedUp_payment
    : UnknownNeverKey (DynStore.empty .sqlite) [(creation, 5), (settlement, 7)]
        ↔ ∀ a ∈ [(creation, 5), (settlement, 7)], ∀ id ∈ a.1.lookedUp, KnownOrAbsent id :=
  unknownNeverKey_iff_lookedUp _ (by decide +kernel)

-- Two payments whose resources are not known.
def unknownResources : List (Event × Nat) :=
  [(paymentEvent "payment.create" "e1" "tnt_a" "unknown", 1),
    (paymentEvent "payment.create" "e2" "tnt_a" "unknown", 2)]

theorem unknownResources_meet
    : (∀ a ∈ unknownResources, a.1.validate = .ok ())
        ∧ ¬Run.Always step JoinedByKnown (start (DynStore.empty .sqlite)) unknownResources
        ∧ ¬UnknownNeverKey (DynStore.empty .sqlite) unknownResources := by
  have hmeet : ¬Run.Always step JoinedByKnown (start (DynStore.empty .sqlite)) unknownResources := by
    intro h
    have hlast := h.last
    revert hlast
    simp only [JoinedByKnown]
    decide +kernel
  refine ⟨by decide +kernel, hmeet, ?_⟩
  intro h
  exact hmeet h.joined

end Runs

end Athar
