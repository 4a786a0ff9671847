import Athar.Event.Impl

/-!
This module contains how the event and its component types are read from a JSON value, as their derived
deserializers do it. A struct is read from an object by the names of its fields, or from an array by
their order; a variant without data is read from its name, or from an object that maps its name to a
unit. Members that no field has the name of are ignored.
-/

namespace Athar

-- A field is read from the value itself, or from the buffer that a flattened struct is read from.
inductive Buffer where
  | value
  | content
  deriving DecidableEq, Repr

namespace Deserialize

variable {α : Type}

def isUnit : Buffer → Json → Bool
  | _, .null => true
  | .content, .object [] => true
  | _, _ => false

def unitEnum (buffer : Buffer) (variants : List (String × α)) : Json → Option α
  | .string name => variants.lookup name
  | .object [(name, unit)] => if isUnit buffer unit then variants.lookup name else none
  | _ => none

def string : Json → Option String
  | .string s => some s
  | _ => none

def f64 : Json → Option ℚ
  | .number n => some n
  | _ => none

def integer (low high : Int) : Json → Option Int
  | .number n => if n.den = 1 ∧ low ≤ n.num ∧ n.num ≤ high then some n.num else none
  | _ => none

def I64_MIN : Int := -9223372036854775808

def I64_MAX : Int := 9223372036854775807

def U64_MAX : Int := 18446744073709551615

def i64 : Json → Option Int :=
  integer I64_MIN I64_MAX

def u64 (v : Json) : Option Nat :=
  (integer 0 U64_MAX v).map Int.toNat

def option (read : Json → Option α) : Json → Option (Option α)
  | .null => some none
  | v => (read v).map some

def vec (read : Json → Option α) : Json → Option (List α)
  | .array items => items.mapM read
  | _ => none

def stringMap : Json → Option (AList fun _ : String => String)
  | .object members => do
    let entries ← members.mapM fun member => do
      return Sigma.mk member.1 (← string member.2)
    return entries.toAList
  | _ => none

-- The values of the fields of a struct, by their names.
structure Members where
  positional : Bool
  get : String → Option Json

def members (fields : List String) : Json → Option Members
  | .object ms => some ⟨false, fun name => ms.lookup name⟩
  | .array items =>
    if items.length ≤ fields.length then
      some ⟨true, fun name => items[fields.idxOf name]?⟩
    else
      none
  | _ => none

-- A struct with a flattened field is read from an object alone.
def flatMembers : Json → Option Members
  | .object ms => some ⟨false, fun name => ms.lookup name⟩
  | _ => none

namespace Members

variable (m : Members) (name : String)

def required (read : Json → Option α) : Option α :=
  (m.get name).bind read

-- A field of a type `Option<T>` may be missing, but not from an array.
def option (read : Json → Option α) : Option (Option α) :=
  match m.get name with
  | some v => Deserialize.option read v
  | none => if m.positional then none else some none

-- A field with `#[serde(default)]`.
def default (fallback : α) (read : Json → Option α) : Option α :=
  match m.get name with
  | some v => read v
  | none => some fallback

def defaultOption (read : Json → Option α) : Option (Option α) :=
  m.default name none (Deserialize.option read)

end Members

end Deserialize

open Deserialize

def ClockSource.variants : List (String × ClockSource) :=
  [("host", .host), ("shim", .shim), ("adapter", .adapter)]

def ResolutionStatus.variants : List (String × ResolutionStatus) :=
  [("VERIFIED", .verified), ("PROBABLE", .probable), ("POSSIBLE", .possible),
    ("UNKNOWN", .unknown), ("CONFLICTED", .conflicted), ("REVOKED", .revoked)]

def Calibration.variants : List (String × Calibration) :=
  [("NOMINAL_UNVALIDATED", .nominalUnvalidated), ("CALIBRATED", .calibrated)]

def EntityType.variants : List (String × EntityType) :=
  [("user", .user), ("service", .service), ("agent", .agent), ("system", .system),
    ("external", .external), ("unknown", .unknown)]

def OperationInference.variants : List (String × OperationInference) :=
  [("EXPLICIT", .explicit), ("BUSINESS_ID", .businessId), ("CAUSATION", .causation),
    ("RESOURCE_ID", .resourceId), ("ACTOR_CONTEXT", .actorContext), ("SEMANTIC", .semantic),
    ("TEMPORAL", .temporal), ("UNKNOWN", .unknown)]

def LifecycleBinding.variants : List (String × LifecycleBinding) :=
  [("EXPLICIT", .explicit), ("BUSINESS_ID", .businessId), ("CAUSATION", .causation),
    ("RESOURCE_ID", .resourceId), ("ACTOR_CONTEXT", .actorContext), ("SEMANTIC", .semantic),
    ("TEMPORAL", .temporal), ("UNKNOWN", .unknown)]

def EntryPointType.variants : List (String × EntryPointType) :=
  [("HTTP_ENDPOINT", .httpEndpoint), ("QUEUE", .queue), ("SCHEDULER", .scheduler), ("CLI", .cli),
    ("WEBHOOK", .webhook), ("INTERNAL", .internal), ("UNKNOWN", .unknown)]

def Origin.variants : List (String × Origin) :=
  [("HUMAN", .human), ("SYSTEM", .system), ("EXTERNAL", .external), ("SCHEDULED", .scheduled),
    ("AUTOMATED", .automated), ("UNKNOWN", .unknown)]

def Trigger.variants : List (String × Trigger) :=
  [("USER_ACTION", .userAction), ("API_REQUEST", .apiRequest), ("BACKGROUND_JOB", .backgroundJob),
    ("QUEUE", .queue), ("SCHEDULER", .scheduler), ("WEBHOOK", .webhook), ("POLLING", .polling),
    ("DATABASE_CHANGE", .databaseChange), ("SYSTEM_RULE", .systemRule),
    ("EXTERNAL_PROCESSOR", .externalProcessor), ("RECONCILIATION", .reconciliation),
    ("MANUAL_ADMIN_ACTION", .manualAdminAction), ("UNKNOWN", .unknown)]

def TruthStage.variants : List (String × TruthStage) :=
  [("OBSERVED", .observed), ("EXECUTED", .executed), ("AUTHORIZED", .authorized),
    ("COMMITTED", .committed), ("APPROVED", .approved), ("SIGNED", .signed), ("AUDITED", .audited),
    ("AUTHORITATIVE", .authoritative), ("INFERRED", .inferred), ("UNCERTAIN", .uncertain)]

def TrustLevel.variants : List (String × TrustLevel) :=
  [("VERIFIED", .verified), ("PROBABLE", .probable), ("POSSIBLE", .possible),
    ("UNKNOWN", .unknown), ("CONFLICTED", .conflicted)]

def DegradationLevel.variants : List (String × DegradationLevel) :=
  [("L0", .L0), ("L1", .L1), ("L2", .L2), ("L3", .L3), ("L4", .L4)]

def Clock.FIELDS : List String := ["source", "skew_estimate_ms", "monotonic_seq"]

def Clock.visit (m : Members) : Option Clock := do
  return {
    source := ← m.required "source" (unitEnum .value ClockSource.variants)
    skewEstimateMs := ← m.option "skew_estimate_ms" i64
    monotonicSeq := ← m.required "monotonic_seq" u64
  }

def Clock.deserialize (v : Json) : Option Clock := do
  visit (← members FIELDS v)

def EvidenceConflict.FIELDS : List String := ["value", "source", "recorded_at"]

def EvidenceConflict.visit (m : Members) : Option EvidenceConflict := do
  return {
    value := ← m.required "value" string
    source := ← m.required "source" string
    recordedAt := ← m.defaultOption "recorded_at" string
  }

def EvidenceConflict.deserialize (v : Json) : Option EvidenceConflict := do
  visit (← members FIELDS v)

def ActorRef.FIELDS : List String :=
  ["id", "type", "namespace", "resolution", "confidence", "calibration", "conflicts"]

def ActorRef.visit (buffer : Buffer) (m : Members) : Option ActorRef := do
  return {
    id := ← m.defaultOption "id" string
    type := ← m.defaultOption "type" (unitEnum buffer EntityType.variants)
    «namespace» := ← m.defaultOption "namespace" string
    resolution := ← m.required "resolution" (unitEnum buffer ResolutionStatus.variants)
    confidence := ← m.defaultOption "confidence" f64
    calibration := ← m.defaultOption "calibration" (unitEnum buffer Calibration.variants)
    conflicts := ← m.default "conflicts" [] (vec EvidenceConflict.deserialize)
  }

def ActorRef.deserialize (v : Json) : Option ActorRef := do
  visit .value (← members FIELDS v)

-- The actor is a flattened field.
def ActorRefWithAuthn.deserialize (v : Json) : Option ActorRefWithAuthn := do
  let m ← flatMembers v
  return {
    actor := ← ActorRef.visit .content m
    authRef := ← m.defaultOption "auth_ref" string
  }

def CallerRef.FIELDS : List String := ["application_id", "version", "platform"]

def CallerRef.visit (m : Members) : Option CallerRef := do
  return {
    applicationId := ← m.option "application_id" string
    version := ← m.defaultOption "version" string
    platform := ← m.defaultOption "platform" string
  }

def CallerRef.deserialize (v : Json) : Option CallerRef := do
  visit (← members FIELDS v)

def ServiceIdentityRef.FIELDS : List String := ["id", "auth", "spiffe_id"]

def ServiceIdentityRef.visit (m : Members) : Option ServiceIdentityRef := do
  return {
    id := ← m.option "id" string
    auth := ← m.defaultOption "auth" string
    spiffeId := ← m.defaultOption "spiffe_id" string
  }

def ServiceIdentityRef.deserialize (v : Json) : Option ServiceIdentityRef := do
  visit (← members FIELDS v)

def ResourceRef.FIELDS : List String := ["id", "type", "namespace"]

def ResourceRef.visit (m : Members) : Option ResourceRef := do
  return {
    id := ← m.option "id" string
    type := ← m.required "type" string
    «namespace» := ← m.defaultOption "namespace" string
  }

def ResourceRef.deserialize (v : Json) : Option ResourceRef := do
  visit (← members FIELDS v)

def OperationRef.FIELDS : List String :=
  ["operation_id", "type", "inference", "confidence", "calibration"]

def OperationRef.visit (m : Members) : Option OperationRef := do
  return {
    operationId := ← m.defaultOption "operation_id" string
    type := ← m.required "type" string
    inference := ← m.required "inference" (unitEnum .value OperationInference.variants)
    confidence := ← m.required "confidence" f64
    calibration := ← m.defaultOption "calibration" (unitEnum .value Calibration.variants)
  }

def OperationRef.deserialize (v : Json) : Option OperationRef := do
  visit (← members FIELDS v)

def LifecycleRef.FIELDS : List String := ["lifecycle_id", "binding", "confidence", "calibration"]

def LifecycleRef.visit (m : Members) : Option LifecycleRef := do
  return {
    lifecycleId := ← m.defaultOption "lifecycle_id" string
    binding := ← m.required "binding" (unitEnum .value LifecycleBinding.variants)
    confidence := ← m.defaultOption "confidence" f64
    calibration := ← m.defaultOption "calibration" (unitEnum .value Calibration.variants)
  }

def LifecycleRef.deserialize (v : Json) : Option LifecycleRef := do
  visit (← members FIELDS v)

def EntryPoint.FIELDS : List String := ["type", "endpoint_id", "method", "route", "route_template"]

def EntryPoint.visit (m : Members) : Option EntryPoint := do
  return {
    type := ← m.required "type" (unitEnum .value EntryPointType.variants)
    endpointId := ← m.defaultOption "endpoint_id" string
    method := ← m.defaultOption "method" string
    route := ← m.defaultOption "route" string
    routeTemplate := ← m.defaultOption "route_template" string
  }

def EntryPoint.deserialize (v : Json) : Option EntryPoint := do
  visit (← members FIELDS v)

def TechnicalContext.FIELDS : List String :=
  ["application_id", "application_version", "platform", "module", "feature", "service_id",
    "service_version", "repository", "build", "deployment_id", "instance_id", "environment"]

def TechnicalContext.visit (m : Members) : Option TechnicalContext := do
  return {
    applicationId := ← m.defaultOption "application_id" string
    applicationVersion := ← m.defaultOption "application_version" string
    platform := ← m.defaultOption "platform" string
    module' := ← m.defaultOption "module" string
    feature := ← m.defaultOption "feature" string
    serviceId := ← m.defaultOption "service_id" string
    serviceVersion := ← m.defaultOption "service_version" string
    repository := ← m.defaultOption "repository" string
    build := ← m.defaultOption "build" string
    deploymentId := ← m.defaultOption "deployment_id" string
    instanceId := ← m.defaultOption "instance_id" string
    environment := ← m.defaultOption "environment" string
  }

def TechnicalContext.deserialize (v : Json) : Option TechnicalContext := do
  visit (← members FIELDS v)

def Provenance.FIELDS : List String := ["origin", "trigger", "source", "producer", "authority"]

def Provenance.visit (m : Members) : Option Provenance := do
  return {
    origin := ← m.required "origin" (unitEnum .value Origin.variants)
    trigger := ← m.required "trigger" (unitEnum .value Trigger.variants)
    source := ← m.required "source" string
    producer := ← m.option "producer" string
    authority := ← m.option "authority" string
  }

def Provenance.deserialize (v : Json) : Option Provenance := do
  visit (← members FIELDS v)

def Truth.FIELDS : List String := ["stage", "asserted_by", "adapter"]

def Truth.visit (m : Members) : Option Truth := do
  return {
    stage := ← m.required "stage" (unitEnum .value TruthStage.variants)
    assertedBy := ← m.required "asserted_by" string
    adapter := ← m.defaultOption "adapter" string
  }

def Truth.deserialize (v : Json) : Option Truth := do
  visit (← members FIELDS v)

def Trust.FIELDS : List String := ["level", "confidence", "calibration", "factors"]

def Trust.visit (m : Members) : Option Trust := do
  return {
    level := ← m.required "level" (unitEnum .value TrustLevel.variants)
    confidence := ← m.required "confidence" f64
    calibration := ← m.defaultOption "calibration" (unitEnum .value Calibration.variants)
    factors := ← m.default "factors" [] (vec string)
  }

def Trust.deserialize (v : Json) : Option Trust := do
  visit (← members FIELDS v)

def Causality.FIELDS : List String :=
  ["parent_event_id", "causation_id", "correlation_id", "customer_correlation_ids"]

def Causality.visit (m : Members) : Option Causality := do
  return {
    parentEventId := ← m.defaultOption "parent_event_id" string
    causationId := ← m.defaultOption "causation_id" string
    correlationId := ← m.defaultOption "correlation_id" string
    customerCorrelationIds := ← m.default "customer_correlation_ids" ∅ stringMap
  }

def Causality.deserialize (v : Json) : Option Causality := do
  visit (← members FIELDS v)

def Coverage.FIELDS : List String := ["complete", "shed", "redacted_fields", "degradation_level"]

def Coverage.visit (m : Members) : Option Coverage := do
  return {
    complete := ← m.required "complete" Json.asBool
    shed := ← m.default "shed" [] (vec string)
    redactedFields := ← m.default "redacted_fields" [] (vec string)
    degradationLevel := ← m.defaultOption "degradation_level"
      (unitEnum .value DegradationLevel.variants)
  }

def Coverage.deserialize (v : Json) : Option Coverage := do
  visit (← members FIELDS v)

namespace Event

def FIELDS : List String :=
  ["schema_version", "event_id", "event_type", "tenant_id", "timestamp", "received_at", "clock",
    "actor", "authenticated_principal", "caller", "service_identity", "on_behalf_of",
    "beneficiary", "resource_owner", "resource", "operation", "lifecycle", "entry_point",
    "technical_context", "provenance", "truth", "trust", "causality", "coverage", "data",
    "attributes"]

def visit (m : Members) : Option Event := do
  return {
    schemaVersion := ← m.required "schema_version" string
    eventId := ← m.required "event_id" string
    eventType := ← m.required "event_type" string
    tenantId := ← m.required "tenant_id" string
    timestamp := ← m.required "timestamp" string
    receivedAt := ← m.required "received_at" string
    clock := ← m.required "clock" Clock.deserialize
    actor := ← m.defaultOption "actor" ActorRef.deserialize
    authenticatedPrincipal := ← m.defaultOption "authenticated_principal"
      ActorRefWithAuthn.deserialize
    caller := ← m.defaultOption "caller" CallerRef.deserialize
    serviceIdentity := ← m.defaultOption "service_identity" ServiceIdentityRef.deserialize
    onBehalfOf := ← m.defaultOption "on_behalf_of" ActorRef.deserialize
    beneficiary := ← m.defaultOption "beneficiary" ActorRef.deserialize
    resourceOwner := ← m.defaultOption "resource_owner" ActorRef.deserialize
    resource := ← m.defaultOption "resource" ResourceRef.deserialize
    operation := ← m.defaultOption "operation" OperationRef.deserialize
    lifecycle := ← m.defaultOption "lifecycle" LifecycleRef.deserialize
    entryPoint := ← m.defaultOption "entry_point" EntryPoint.deserialize
    technicalContext := ← m.defaultOption "technical_context" TechnicalContext.deserialize
    provenance := ← m.required "provenance" Provenance.deserialize
    truth := ← m.required "truth" Truth.deserialize
    trust := ← m.required "trust" Trust.deserialize
    causality := ← m.required "causality" Causality.deserialize
    coverage := ← m.required "coverage" Coverage.deserialize
    data := ← m.defaultOption "data" some
    attributes := ← m.defaultOption "attributes" some
  }

def deserialize (v : Json) : Option Event := do
  visit (← members FIELDS v)

end Event

end Athar
