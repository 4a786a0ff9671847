import Mathlib.Data.List.AList
import Mathlib.Data.Rat.Defs

/-!
This module contains the canonical event that every integration normalizes into, and the structural
checks that the daemon makes on it before any downstream stage.
-/

namespace Athar

inductive Json where
  | null
  | bool (b : Bool)
  | number (n : ℚ)
  | string (s : String)
  | array (items : List Json)
  | object (members : List (String × Json))

namespace Json

def get : Json → String → Option Json
  | .object members, name => members.lookup name
  | _, _ => none

def asBool : Json → Option Bool
  | .bool b => some b
  | _ => none

end Json

def SCHEMA_VERSION : String := "1.0"

inductive ClockSource where
  | host
  | shim
  | adapter
  deriving DecidableEq, Repr

structure Clock where
  source : ClockSource
  skewEstimateMs : Option Int
  monotonicSeq : Nat
  deriving DecidableEq, Repr

inductive ResolutionStatus where
  | verified
  | probable
  | possible
  | unknown
  | conflicted
  | revoked
  deriving DecidableEq, Repr

inductive Calibration where
  | nominalUnvalidated
  | calibrated
  deriving DecidableEq, Repr

inductive EntityType where
  | user
  | service
  | agent
  | system
  | external
  | unknown
  deriving DecidableEq, Repr

abbrev Confidence := ℚ

structure EvidenceConflict where
  value : String
  source : String
  recordedAt : Option String
  deriving DecidableEq, Repr

structure ActorRef where
  id : Option String
  type : Option EntityType
  «namespace» : Option String
  resolution : ResolutionStatus
  confidence : Option Confidence
  calibration : Option Calibration
  conflicts : List EvidenceConflict
  deriving DecidableEq, Repr

structure ActorRefWithAuthn where
  actor : ActorRef
  authRef : Option String
  deriving DecidableEq, Repr

structure CallerRef where
  applicationId : Option String
  version : Option String
  platform : Option String
  deriving DecidableEq, Repr

structure ServiceIdentityRef where
  id : Option String
  auth : Option String
  spiffeId : Option String
  deriving DecidableEq, Repr

structure ResourceRef where
  id : Option String
  type : String
  «namespace» : Option String
  deriving DecidableEq, Repr

inductive OperationInference where
  | explicit
  | businessId
  | causation
  | resourceId
  | actorContext
  | semantic
  | temporal
  | unknown
  deriving DecidableEq, Repr

structure OperationRef where
  operationId : Option String
  type : String
  inference : OperationInference
  confidence : Confidence
  calibration : Option Calibration
  deriving DecidableEq, Repr

inductive LifecycleBinding where
  | explicit
  | businessId
  | causation
  | resourceId
  | actorContext
  | semantic
  | temporal
  | unknown
  deriving DecidableEq, Repr

structure LifecycleRef where
  lifecycleId : Option String
  binding : LifecycleBinding
  confidence : Option Confidence
  calibration : Option Calibration
  deriving DecidableEq, Repr

inductive EntryPointType where
  | httpEndpoint
  | queue
  | scheduler
  | cli
  | webhook
  | internal
  | unknown
  deriving DecidableEq, Repr

structure EntryPoint where
  type : EntryPointType
  endpointId : Option String
  method : Option String
  route : Option String
  routeTemplate : Option String
  deriving DecidableEq, Repr

structure TechnicalContext where
  applicationId : Option String
  applicationVersion : Option String
  platform : Option String
  module' : Option String
  feature : Option String
  serviceId : Option String
  serviceVersion : Option String
  repository : Option String
  build : Option String
  deploymentId : Option String
  instanceId : Option String
  environment : Option String
  deriving DecidableEq, Repr

inductive Origin where
  | human
  | system
  | external
  | scheduled
  | automated
  | unknown
  deriving DecidableEq, Repr

inductive Trigger where
  | userAction
  | apiRequest
  | backgroundJob
  | queue
  | scheduler
  | webhook
  | polling
  | databaseChange
  | systemRule
  | externalProcessor
  | reconciliation
  | manualAdminAction
  | unknown
  deriving DecidableEq, Repr

structure Provenance where
  origin : Origin
  trigger : Trigger
  source : String
  producer : Option String
  authority : Option String
  deriving DecidableEq, Repr

inductive TruthStage where
  | observed
  | executed
  | authorized
  | committed
  | approved
  | signed
  | audited
  | authoritative
  | inferred
  | uncertain
  deriving DecidableEq, Repr

structure Truth where
  stage : TruthStage
  assertedBy : String
  adapter : Option String
  deriving DecidableEq, Repr

inductive TrustLevel where
  | verified
  | probable
  | possible
  | unknown
  | conflicted
  deriving DecidableEq, Repr

structure Trust where
  level : TrustLevel
  confidence : Confidence
  calibration : Option Calibration
  factors : List String
  deriving DecidableEq, Repr

structure Causality where
  parentEventId : Option String
  causationId : Option String
  correlationId : Option String
  customerCorrelationIds : AList fun _ : String => String

inductive DegradationLevel where
  | L0
  | L1
  | L2
  | L3
  | L4
  deriving DecidableEq, Repr

structure Coverage where
  complete : Bool
  shed : List String
  redactedFields : List String
  degradationLevel : Option DegradationLevel
  deriving DecidableEq, Repr

structure Event where
  schemaVersion : String
  eventId : String
  eventType : String
  tenantId : String
  timestamp : String
  receivedAt : String
  clock : Clock
  actor : Option ActorRef
  authenticatedPrincipal : Option ActorRefWithAuthn
  caller : Option CallerRef
  serviceIdentity : Option ServiceIdentityRef
  onBehalfOf : Option ActorRef
  beneficiary : Option ActorRef
  resourceOwner : Option ActorRef
  resource : Option ResourceRef
  operation : Option OperationRef
  lifecycle : Option LifecycleRef
  entryPoint : Option EntryPoint
  technicalContext : Option TechnicalContext
  provenance : Provenance
  truth : Truth
  trust : Trust
  causality : Causality
  coverage : Coverage
  data : Option Json
  attributes : Option Json

inductive ValidationError where
  | schemaVersionMismatch (expected got : String)
  | missingRequired (field : String)
  | emptyStringForUnknown (field : String)
  | reservedUnknownToken (field value : String)
  | confidenceOutOfRange (field : String) (value : ℚ)
  deriving DecidableEq, Repr

def RESERVED_UNKNOWN_TOKENS : List String := ["unknown", "UNKNOWN", "null", "None", "-"]

def checkNonempty (field value : String) : Except ValidationError Unit :=
  if value.isEmpty then
    .error (.missingRequired field)
  else if value ∈ RESERVED_UNKNOWN_TOKENS then
    .error (.reservedUnknownToken field value)
  else
    .ok ()

def checkActor (field : String) (actor : ActorRef) : Except ValidationError Unit :=
  match actor.id with
  | none => .ok ()
  | some id =>
    if id.isEmpty then
      .error (.emptyStringForUnknown field)
    else if id ∈ RESERVED_UNKNOWN_TOKENS then
      .error (.reservedUnknownToken field id)
    else
      .ok ()

namespace Event

def checkActor? (field : String) : Option ActorRef → Except ValidationError Unit
  | none => .ok ()
  | some actor => checkActor field actor

def validate (event : Event) : Except ValidationError Unit := do
  if event.schemaVersion ≠ SCHEMA_VERSION then
    throw (.schemaVersionMismatch SCHEMA_VERSION event.schemaVersion)
  checkNonempty "event_id" event.eventId
  checkNonempty "event_type" event.eventType
  checkNonempty "tenant_id" event.tenantId
  checkNonempty "timestamp" event.timestamp
  checkNonempty "received_at" event.receivedAt
  checkActor? "actor" event.actor
  checkActor? "on_behalf_of" event.onBehalfOf
  checkActor? "beneficiary" event.beneficiary
  checkActor? "resource_owner" event.resourceOwner
  checkActor? "authenticated_principal" (event.authenticatedPrincipal.map (·.actor))
  if ¬(0 ≤ event.trust.confidence ∧ event.trust.confidence ≤ 1) then
    throw (.confidenceOutOfRange "trust.confidence" event.trust.confidence)

end Event

end Athar
