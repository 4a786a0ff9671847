import Athar.Lifecycle.Lineage

/-!
This module contains the resources that lifecycles are about. The resource index is keyed by the id
alone, so an event joins the lifecycle of a resource of another type if their ids are the same and no
other key decides first.
-/

namespace Athar

open LifecycleStore LawfulLifecycleStore LifecycleEngine

def Event.resourceType (event : Event) : Option String :=
  event.resource.map (·.type)

namespace LineageRun

section Store

variable {σ : Type} [LifecycleStore σ]

-- Whoever joined by the resource id is about the same resource as the creator.
def SameResource (st : LineageRun σ) : Prop :=
  ∀ j ∈ st.joined, j.tier = .resourceId →
    ∃ creator ∈ st.created, j.lifecycleId = "lc_" ++ creator.eventId
      ∧ j.event.resourceId = creator.resourceId ∧ j.event.resourceType = creator.resourceType

-- No earlier event of another resource type created a lifecycle under the resource id of the event,
-- unless another key decides first.
def TypesAgree (st : LineageRun σ) (arrival : Event × Nat) : Prop :=
  st.UnmatchedBefore arrival.1 →
    ∀ creator ∈ st.created, ∀ r, creator.resourceId = some r → arrival.1.resourceId = some r →
      creator.resourceType = arrival.1.resourceType

variable [LawfulLifecycleStore σ] {st : LineageRun σ} {arrival : Event × Nat}

theorem SameResource.step (h : st.SameResource) (hinv : st.Inv) (hagree : st.TypesAgree arrival)
    : (st.step arrival).SameResource := by
  intro j hj htier
  rcases mem_joined_step hj with hold | ⟨hevent, hcorr⟩
  . rcases h j hold htier with ⟨creator, hcreator, hsame⟩
    exact ⟨creator, created_subset_step st arrival hcreator, hsame⟩
  . rw [htier, correlate_resourceId_iff, Option.bind_eq_some_iff] at hcorr
    rcases hcorr with ⟨hunmatched, r, hr, hfind⟩
    rcases (hinv.findByResource_iff r _).mp hfind with ⟨creator, hcreator, hcarries, hid⟩
    refine ⟨creator, created_subset_step st arrival hcreator, hid, ?_, ?_⟩
    . rw [hevent, hr, hcarries]
    . rw [hevent]
      exact (hagree hunmatched creator hcreator r hcarries hr).symm

-- The creator that the resource id finds is of another type, and the event joins its lifecycle.
theorem SameResource.break (hinv : st.Inv) (hdiffer : ¬st.TypesAgree arrival)
    : ¬(st.step arrival).SameResource := by
  simp only [TypesAgree, not_forall] at hdiffer
  rcases hdiffer with ⟨hunmatched, creator, hcreator, r, hcarries, hr, hne⟩
  have hfind := (hinv.findByResource_iff r _).mpr ⟨creator, hcreator, hcarries, rfl⟩
  have hcorr : correlate st.store arrival.1
      = .match' ("lc_" ++ creator.eventId) .resourceId := by
    rw [correlate_resourceId_iff, hr]
    exact ⟨hunmatched, hfind⟩
  rcases get_of_findByResource hinv.store hfind with ⟨lc, hget⟩
  rcases joined_step hcorr hget with ⟨hjoined, hcreated⟩
  intro hsame
  have hjoining : ⟨arrival.1, "lc_" ++ creator.eventId, .resourceId⟩ ∈ (st.step arrival).joined := by
    rw [hjoined]
    simp
  rcases hsame _ hjoining rfl with ⟨creator', hcreator', hid, _, htype⟩
  rw [hcreated] at hcreator'
  have heq := hinv.created_inj creator hcreator creator' hcreator' (lc_append_inj hid)
  rw [heq] at hne
  exact hne htype.symm

end Store

/--
Along a run over an empty store, events with distinct ids only ever join lifecycles of their own
resource by the resource id if and only if the resource types agree wherever that id decides.
-/
theorem sameResource_iff_typesAgree (backend : Backend) {arrivals : List (Event × Nat)}
    (hdistinct : (arrivals.map (·.1.eventId)).Nodup)
    : Run.Always step SameResource (start (DynStore.empty backend)) arrivals
        ↔ Run.Guarded step TypesAgree (start (DynStore.empty backend)) arrivals := by
  apply Run.always_iff_guarded_of_guarded (I := fun st => st.Inv ∧ st.SameResource)
    (guarded_fresh _ hdistinct)
  . refine ⟨Inv.start backend, ?_⟩
    intro j hj
    contradiction
  . rintro st arrival ⟨hinv, hsame⟩ hfresh hagree
    exact ⟨hinv.step hfresh, hsame.step hinv hagree⟩
  . rintro st ⟨_, hsame⟩
    exact hsame
  . rintro st arrival ⟨hinv, _⟩ _ hdiffer
    exact SameResource.break hinv hdiffer

end LineageRun

section Instances

open LineageRun

def invoiceEvent (eventType eventId tenantId resource : String) : Event :=
  { paymentEvent eventType eventId tenantId resource with
    resource := some ⟨some resource, "invoice", none⟩ }

theorem sameResource_iff_typesAgree_payment
    : Run.Always step SameResource (start (DynStore.empty .sqlite)) [(creation, 5), (settlement, 7)]
        ↔ Run.Guarded step TypesAgree (start (DynStore.empty .sqlite))
          [(creation, 5), (settlement, 7)] :=
  sameResource_iff_typesAgree .sqlite (by decide)

-- A payment and an invoice of one tenant, each numbered by its own table.
def sharedNumber : List (Event × Nat) :=
  [(paymentEvent "payment.create" "e1" "tnt_a" "42", 1),
    (invoiceEvent "invoice.issue" "e2" "tnt_a" "42", 2)]

theorem sharedNumber_merges
    : (sharedNumber.map (·.1.eventId)).Nodup ∧ (∀ a ∈ sharedNumber, a.1.tenantId = "tnt_a")
        ∧ ¬Run.Always step SameResource (start (DynStore.empty .sqlite)) sharedNumber := by
  refine ⟨by decide, by decide, ?_⟩
  intro h
  have hlast := h.last
  generalize hst : Run.exec step (start (DynStore.empty .sqlite)) sharedNumber = st at hlast
  have hjoined : (st.joined.map fun j => (j.event.resourceType, j.tier))
      = [(some "invoice", .resourceId)] := by
    rw [← hst]
    decide +kernel
  have hcreated : st.created.map Event.resourceType = [some "payment"] := by
    rw [← hst]
    decide +kernel
  have hmem : (some "invoice", InferenceTier.resourceId)
      ∈ st.joined.map fun j => (j.event.resourceType, j.tier) := by
    rw [hjoined]
    simp
  rcases List.mem_map.mp hmem with ⟨j, hj, heq⟩
  rcases Prod.mk.inj heq with ⟨hinvoice, htier⟩
  rcases hlast j hj htier with ⟨creator, hcreator, _, _, htype⟩
  have hpayment := List.mem_map_of_mem (f := Event.resourceType) hcreator
  rw [hcreated, ← htype, hinvoice] at hpayment
  contradiction

end Instances

end Athar
