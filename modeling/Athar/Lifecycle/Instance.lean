import Athar.Lifecycle.Calls

/-!
This module contains events to compute with: payment events with one resource and nothing else to
correlate them by.
-/

namespace Athar

def paymentEvent (eventType eventId tenantId resource : String) : Event where
  schemaVersion := SCHEMA_VERSION
  eventId := eventId
  eventType := eventType
  tenantId := tenantId
  timestamp := "2026-09-14T10:00:00.000000Z"
  receivedAt := "2026-09-14T10:00:00.000000Z"
  clock := ⟨.shim, none, 1⟩
  actor := none
  authenticatedPrincipal := none
  caller := none
  serviceIdentity := none
  onBehalfOf := none
  beneficiary := none
  resourceOwner := none
  resource := some ⟨some resource, "payment", none⟩
  operation := none
  lifecycle := none
  entryPoint := none
  technicalContext := none
  provenance := ⟨.unknown, .apiRequest, "test", none, none⟩
  truth := ⟨.observed, "test", none⟩
  trust := ⟨.unknown, 0, none, []⟩
  causality := ⟨none, none, none, ∅⟩
  coverage := ⟨true, [], [], none⟩
  data := none
  attributes := none

def creation : Event := paymentEvent "payment.create" "e1" "tnt_a" "pay_1"

def settlement : Event := paymentEvent "payment.settle" "e2" "tnt_a" "pay_1"

def IterationOrder.asStored : IterationOrder where
  permute lcs := lcs
  perm lcs := List.Perm.refl lcs

end Athar
