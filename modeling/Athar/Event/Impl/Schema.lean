import Mathlib.Computability.RegularExpressions
import Athar.Event.Impl

/-!
This module contains the schema of the canonical event, `schema/event.v1.0.json`, with the keywords of
JSON Schema that it is written in. The format `date-time` is an annotation and is left out.
-/

namespace Athar

abbrev Schema := Json → Bool

inductive JsonType where
  | null
  | boolean
  | object
  | array
  | number
  | integer
  | string
  deriving DecidableEq, Repr

def JsonType.is : JsonType → Json → Bool
  | .null, .null => true
  | .boolean, .bool _ => true
  | .object, .object _ => true
  | .array, .array _ => true
  | .number, .number _ => true
  | .integer, .number n => n.den = 1
  | .string, .string _ => true
  | _, _ => false

namespace Schema

def type (types : List JsonType) : Schema := fun v => types.any (·.is v)

def const (expected : String) : Schema
  | .string s => s = expected
  | _ => false

def enum (names : List String) : Schema
  | .string s => s ∈ names
  | _ => false

def pattern (expression : RegularExpression Char) : Schema
  | .string s => expression.rmatch s.toList
  | _ => true

def minLength (length : Nat) : Schema
  | .string s => length ≤ s.length
  | _ => true

def minimum (low : ℚ) : Schema
  | .number n => low ≤ n
  | _ => true

def maximum (high : ℚ) : Schema
  | .number n => n ≤ high
  | _ => true

def not (schema : Schema) : Schema := fun v => !schema v

def allOf (schemas : List Schema) : Schema := fun v => schemas.all (· v)

def oneOf (schemas : List Schema) : Schema := fun v => schemas.countP (· v) = 1

def items (schema : Schema) : Schema
  | .array xs => xs.all schema
  | _ => true

def required (names : List String) : Schema
  | .object ms => names.all fun name => (ms.lookup name).isSome
  | _ => true

def properties (schemas : List (String × Schema)) : Schema
  | .object ms => schemas.all fun p => (ms.lookup p.1).all p.2
  | _ => true

-- What the members that are not among the properties have to conform to.
def additionalProperties (known : List String) (schema : Schema) : Schema
  | .object ms => ms.all fun m => m.1 ∈ known || schema m.2
  | _ => true

-- An object without additional properties.
def record (names : List String) (schemas : List (String × Schema)) : Schema :=
  allOf [type [.object], additionalProperties (schemas.map (·.1)) fun _ => false, required names,
    properties schemas]

end Schema

namespace EventSchema

open Schema

def oneOfChars (chars : String) : RegularExpression Char :=
  (chars.toList.map .char).foldr (· + ·) 0

def lower : String := "abcdefghijklmnopqrstuvwxyz"

def upper : String := "ABCDEFGHIJKLMNOPQRSTUVWXYZ"

def digits : String := "0123456789"

-- `^[0-9A-HJKMNP-TV-Z]{26}$`
def ulidPattern : RegularExpression Char :=
  (List.replicate 26 (oneOfChars "0123456789ABCDEFGHJKMNPQRSTVWXYZ")).prod

-- `[a-z][a-z0-9_]*`
def wordPattern : RegularExpression Char :=
  oneOfChars lower * (oneOfChars (lower ++ digits ++ "_")).star

-- `^[a-z][a-z0-9_]*(\.[a-z][a-z0-9_]*)+$`
def eventTypePattern : RegularExpression Char :=
  let dotted := .char '.' * wordPattern
  wordPattern * (dotted * dotted.star)

-- `^tnt_[A-Za-z0-9_-]+$`
def tenantIdPattern : RegularExpression Char :=
  let rest := oneOfChars (upper ++ lower ++ digits ++ "_-")
  .char 't' * (.char 'n' * (.char 't' * (.char '_' * (rest * rest.star))))

def ulid : Schema := allOf [type [.string], pattern ulidPattern]

def nullableId : Schema :=
  oneOf [type [.null],
    allOf [type [.string], minLength 1, not (enum ["unknown", "UNKNOWN", "null", "None", "-"])]]

def tenantId : Schema := allOf [type [.string], pattern tenantIdPattern]

def isoInstant : Schema := type [.string]

def resolutionStatus : Schema :=
  allOf [type [.string],
    enum ["VERIFIED", "PROBABLE", "POSSIBLE", "UNKNOWN", "CONFLICTED", "REVOKED"]]

def confidence : Schema := allOf [type [.number], minimum 0, maximum 1]

def calibration : Schema := allOf [type [.string], enum ["NOMINAL_UNVALIDATED", "CALIBRATED"]]

def clock : Schema :=
  record ["source", "monotonic_seq"] [
    ("source", allOf [type [.string], enum ["host", "shim", "adapter"]]),
    ("skew_estimate_ms", type [.integer, .null]),
    ("monotonic_seq", allOf [type [.integer], minimum 0])]

def entityType : Schema :=
  allOf [type [.string], enum ["user", "service", "agent", "system", "external", "unknown"]]

def evidenceConflict : Schema :=
  record ["value", "source"] [
    ("value", type [.string]),
    ("source", type [.string]),
    ("recorded_at", isoInstant)]

def actorRef : Schema :=
  record ["resolution"] [
    ("id", nullableId),
    ("type", entityType),
    ("namespace", nullableId),
    ("resolution", resolutionStatus),
    ("confidence", confidence),
    ("calibration", calibration),
    ("conflicts", allOf [type [.array], items evidenceConflict])]

def actorRefWithAuthn : Schema :=
  allOf [actorRef,
    allOf [type [.object], properties [("auth_ref", type [.string, .null])]]]

def callerRef : Schema :=
  record ["application_id"] [
    ("application_id", type [.string, .null]),
    ("version", type [.string, .null]),
    ("platform", type [.string, .null])]

def serviceIdentityRef : Schema :=
  record ["id"] [
    ("id", type [.string, .null]),
    ("auth", type [.string, .null]),
    ("spiffe_id", type [.string, .null])]

def resourceRef : Schema :=
  record ["id", "type"] [
    ("id", type [.string, .null]),
    ("type", type [.string]),
    ("namespace", type [.string])]

def operationInference : Schema :=
  allOf [type [.string],
    enum ["EXPLICIT", "BUSINESS_ID", "CAUSATION", "RESOURCE_ID", "ACTOR_CONTEXT", "SEMANTIC",
      "TEMPORAL", "UNKNOWN"]]

def operationRef : Schema :=
  record ["type", "inference", "confidence"] [
    ("operation_id", type [.string, .null]),
    ("type", type [.string]),
    ("inference", operationInference),
    ("confidence", confidence),
    ("calibration", calibration)]

def lifecycleBinding : Schema :=
  allOf [type [.string],
    enum ["EXPLICIT", "BUSINESS_ID", "CAUSATION", "RESOURCE_ID", "ACTOR_CONTEXT", "SEMANTIC",
      "TEMPORAL", "UNKNOWN"]]

def lifecycleRef : Schema :=
  record [] [
    ("lifecycle_id", type [.string, .null]),
    ("binding", lifecycleBinding),
    ("confidence", confidence),
    ("calibration", calibration)]

def entryPoint : Schema :=
  record ["type"] [
    ("type", allOf [type [.string],
      enum ["HTTP_ENDPOINT", "QUEUE", "SCHEDULER", "CLI", "WEBHOOK", "INTERNAL", "UNKNOWN"]]),
    ("endpoint_id", type [.string, .null]),
    ("method", type [.string, .null]),
    ("route", type [.string, .null]),
    ("route_template", type [.string, .null])]

def technicalContext : Schema :=
  record [] [
    ("application_id", type [.string, .null]),
    ("application_version", type [.string, .null]),
    ("platform", type [.string, .null]),
    ("module", type [.string, .null]),
    ("feature", type [.string, .null]),
    ("service_id", type [.string, .null]),
    ("service_version", type [.string, .null]),
    ("repository", type [.string, .null]),
    ("build", type [.string, .null]),
    ("deployment_id", type [.string, .null]),
    ("instance_id", type [.string, .null]),
    ("environment", type [.string, .null])]

def provenance : Schema :=
  record ["origin", "trigger", "source"] [
    ("origin", allOf [type [.string],
      enum ["HUMAN", "SYSTEM", "EXTERNAL", "SCHEDULED", "AUTOMATED", "UNKNOWN"]]),
    ("trigger", allOf [type [.string],
      enum ["USER_ACTION", "API_REQUEST", "BACKGROUND_JOB", "QUEUE", "SCHEDULER", "WEBHOOK",
        "POLLING", "DATABASE_CHANGE", "SYSTEM_RULE", "EXTERNAL_PROCESSOR", "RECONCILIATION",
        "MANUAL_ADMIN_ACTION", "UNKNOWN"]]),
    ("source", type [.string]),
    ("producer", type [.string, .null]),
    ("authority", type [.string, .null])]

def truth : Schema :=
  record ["stage", "asserted_by"] [
    ("stage", allOf [type [.string],
      enum ["OBSERVED", "EXECUTED", "AUTHORIZED", "COMMITTED", "APPROVED", "SIGNED", "AUDITED",
        "AUTHORITATIVE", "INFERRED", "UNCERTAIN"]]),
    ("asserted_by", type [.string]),
    ("adapter", type [.string, .null])]

def trust : Schema :=
  record ["level", "confidence"] [
    ("level", allOf [type [.string],
      enum ["VERIFIED", "PROBABLE", "POSSIBLE", "UNKNOWN", "CONFLICTED"]]),
    ("confidence", confidence),
    ("calibration", calibration),
    ("factors", allOf [type [.array], items (type [.string])])]

def causality : Schema :=
  record [] [
    ("parent_event_id", type [.string, .null]),
    ("causation_id", type [.string, .null]),
    ("correlation_id", type [.string, .null]),
    ("customer_correlation_ids",
      allOf [type [.object], additionalProperties [] (type [.string])])]

def coverage : Schema :=
  record ["complete"] [
    ("complete", type [.boolean]),
    ("shed", allOf [type [.array], items (type [.string])]),
    ("redacted_fields", allOf [type [.array], items (type [.string])]),
    ("degradation_level", allOf [type [.string], enum ["L0", "L1", "L2", "L3", "L4"]])]

def event : Schema :=
  record ["schema_version", "event_id", "event_type", "tenant_id", "timestamp", "received_at",
      "clock", "provenance", "truth", "trust", "causality", "coverage"] [
    ("schema_version", allOf [type [.string], const "1.0"]),
    ("event_id", ulid),
    ("event_type", allOf [type [.string], pattern eventTypePattern]),
    ("tenant_id", tenantId),
    ("timestamp", isoInstant),
    ("received_at", isoInstant),
    ("clock", clock),
    ("actor", actorRef),
    ("authenticated_principal", actorRefWithAuthn),
    ("caller", callerRef),
    ("service_identity", serviceIdentityRef),
    ("on_behalf_of", actorRef),
    ("beneficiary", actorRef),
    ("resource_owner", actorRef),
    ("resource", resourceRef),
    ("operation", operationRef),
    ("lifecycle", lifecycleRef),
    ("entry_point", entryPoint),
    ("technical_context", technicalContext),
    ("provenance", provenance),
    ("truth", truth),
    ("trust", trust),
    ("causality", causality),
    ("coverage", coverage),
    ("data", type [.object]),
    ("attributes", type [.object])]

end EventSchema

end Athar
