import Athar.Shim.Impl.Redact

/-!
This module contains how the shim turns an observation into a frame: the events that the factory
builds, the correlation that the runtime adds, the redaction, and the encoding.
-/

namespace Athar.Shim

-- What an event takes from the clock and from the id generator.
structure Stamp where
  eventId : String
  now : String
  skewEstimateMs : Option Int
  nextSeq : Nat
  deriving Repr

structure EventFactory where
  tenantId : String
  adapter : String
  deriving Repr

structure Correlation where
  correlationId : String
  causationId : Option String
  deriving DecidableEq, Repr

structure Runtime where
  enabled : Bool
  factory : EventFactory
  correlationStack : List Correlation
  deriving Repr

def PhpArray.get (entries : PhpArray) (name : String) : Option PhpValue :=
  entries.lookup (.string name)

def PhpArray.set (entries : PhpArray) (name : String) (value : PhpValue) : PhpArray :=
  Entries.set (.string name) value entries

-- `$entries[$name] ?? $default`
def PhpArray.getOr (entries : PhpArray) (name : String) (default : PhpValue) : PhpValue :=
  PhpValue.coalesce (entries.get name) default

-- `isset($entries[$name])`
def PhpArray.isset (entries : PhpArray) (name : String) : Bool :=
  match entries.get name with
  | none => false
  | some .null => false
  | some _ => true

def ofOption : Option String → PhpValue
  | none => .null
  | some s => .string s

namespace EventFactory

def strtoupper (text : String) : String :=
  String.ofList (text.toList.map Char.toUpper)

-- `strtoupper(str_replace('.', '_', $eventType))`
def operationType (eventType : String) : String :=
  String.ofList (eventType.toList.map (fun c => (if c = '.' then '_' else c).toUpper))

def clockOf (stamp : Stamp) : PhpValue :=
  .array (assoc [
    ("source", .string "shim"),
    ("skew_estimate_ms", match stamp.skewEstimateMs with | none => .null | some ms => .int ms),
    ("monotonic_seq", .int stamp.nextSeq)])

def truthOf (factory : EventFactory) : PhpValue :=
  .array (assoc [
    ("stage", .string "OBSERVED"),
    ("asserted_by", .string "shim"),
    ("adapter", .string factory.adapter)])

def unknownTrust : PhpValue :=
  .array (assoc [
    ("level", .string "UNKNOWN"),
    ("confidence", .float 0),
    ("calibration", .string "NOMINAL_UNVALIDATED"),
    ("factors", .array [])])

def httpRequest (factory : EventFactory) (stamp : Stamp) (method routeTemplate : String)
    (context : PhpArray) : PhpArray :=
  assoc [
    ("schema_version", .string "1.0"),
    ("event_id", .string stamp.eventId),
    ("event_type", .string "http.request"),
    ("tenant_id", .string factory.tenantId),
    ("timestamp", .string stamp.now),
    ("received_at", .string stamp.now),
    ("clock", clockOf stamp),
    ("entry_point", .array (assoc [
      ("type", .string "HTTP_ENDPOINT"),
      ("endpoint_id", context.getOr "endpoint_id" .null),
      ("method", .string (strtoupper method)),
      ("route", context.getOr "route" (.string routeTemplate)),
      ("route_template", .string routeTemplate)])),
    -- `array_filter` keeps what is not null.
    ("technical_context", .array ((assoc [
      ("application_id", context.getOr "application_id" .null),
      ("application_version", context.getOr "application_version" .null),
      ("platform", .string "php"),
      ("service_id", context.getOr "service_id" .null),
      ("environment", context.getOr "environment" .null)]).filter
        (fun e => match e.2 with | .null => false | _ => true))),
    ("provenance", .array (assoc [
      ("origin", .string "UNKNOWN"),
      ("trigger", .string "API_REQUEST"),
      ("source", .string "HTTP"),
      ("producer", context.getOr "producer" .null),
      ("authority", .null)])),
    ("truth", truthOf factory),
    ("trust", unknownTrust),
    ("causality", .array (assoc [
      ("parent_event_id", .null),
      ("causation_id", .null),
      ("correlation_id", .null),
      ("customer_correlation_ids",
        (context.getOr "customer_correlation_ids" (.array [])).toObject)])),
    ("coverage", .array (assoc [
      ("complete", .bool true),
      ("shed", .array []),
      ("redacted_fields", context.getOr "redacted_fields" (.array [])),
      ("degradation_level", .string "L0")]))]

-- The role of an actor or a beneficiary, present when the context names one.
def participant (factory : EventFactory) (context : PhpArray) (role plural : String) : PhpArray :=
  match context.get (role ++ "_id") with
  | some (.string id) =>
    if id = "" then
      []
    else
      assoc [(role, .array (assoc [
        ("id", .string id),
        ("type", context.getOr (role ++ "_type") (.string "user")),
        ("namespace", context.getOr (role ++ "_namespace")
          (.string (factory.tenantId ++ "/" ++ plural))),
        ("resolution", context.getOr (role ++ "_resolution") (.string "PROBABLE")),
        ("confidence", context.getOr (role ++ "_confidence") (.float (7 / 10))),
        ("calibration", .string "NOMINAL_UNVALIDATED")]))]
  | _ => []

def businessEvent (factory : EventFactory) (stamp : Stamp)
    (eventType resourceId resourceType : String) (data context : PhpArray) : PhpArray :=
  assoc [
    ("schema_version", .string "1.0"),
    ("event_id", .string stamp.eventId),
    ("event_type", .string eventType),
    ("tenant_id", .string factory.tenantId),
    ("timestamp", .string stamp.now),
    ("received_at", .string stamp.now),
    ("clock", clockOf stamp),
    ("resource", .array (assoc [
      ("id", .string resourceId),
      ("type", .string resourceType),
      ("namespace", context.getOr "namespace"
        (.string (factory.tenantId ++ "/" ++ resourceType ++ "s")))])),
    ("operation",
      if context.isset "operation_id" || context.isset "operation_type" then
        .array (assoc [
          ("operation_id", context.getOr "operation_id" .null),
          ("type", context.getOr "operation_type" (.string (operationType eventType))),
          ("inference", .string "EXPLICIT"),
          ("confidence", .float 1),
          ("calibration", .string "NOMINAL_UNVALIDATED")])
      else
        .null),
    ("provenance", .array (assoc [
      ("origin", context.getOr "origin" (.string "HUMAN")),
      ("trigger", context.getOr "trigger" (.string "API_REQUEST")),
      ("source", context.getOr "source" (.string "HTTP")),
      ("producer", context.getOr "producer" .null),
      ("authority", context.getOr "authority" .null)])),
    ("truth", truthOf factory),
    ("trust", unknownTrust),
    ("causality", .array (assoc [
      ("parent_event_id", context.getOr "parent_event_id" .null),
      ("causation_id", context.getOr "causation_id" .null),
      ("correlation_id", context.getOr "correlation_id" .null),
      ("customer_correlation_ids",
        (context.getOr "customer_correlation_ids" (.array [])).toObject)])),
    ("coverage", .array (assoc [
      ("complete", .bool true),
      ("shed", .array []),
      ("redacted_fields", .array []),
      ("degradation_level", .string "L0")])),
    ("data", .array data)]
  ++ participant factory context "actor" "actors"
  ++ participant factory context "beneficiary" "beneficiaries"

def encodeFrame (event : PhpArray) : Option Json :=
  jsonEncode (.array event)

end EventFactory

namespace Runtime

def pushCorrelation (runtime : Runtime) (correlation : Correlation) : Runtime :=
  { runtime with correlationStack := runtime.correlationStack ++ [correlation] }

def popCorrelation (runtime : Runtime) : Runtime :=
  { runtime with correlationStack := runtime.correlationStack.dropLast }

-- `!empty($text)`
def nonEmpty (text : String) : Bool :=
  text ≠ "" && text ≠ "0"

-- Reads `empty($causality[$name])`, and throws on an object.
def emptyIn (name : String) : PhpValue → Option Bool
  | .array entries => some (PhpArray.getOr entries name .null).isEmpty
  | .object _ => none
  | _ => some true

-- Assigns `$causality[$name]`. A null or false turns into an array, any other scalar throws.
def assignIn (name : String) (value : PhpValue) : PhpValue → Option PhpValue
  | .array entries => some (.array (PhpArray.set entries name value))
  | .null => some (.array (assoc [(name, value)]))
  | .bool false => some (.array (assoc [(name, value)]))
  | _ => none

def fillIn (name : String) (id : Option String) (causality : PhpValue) : Option PhpValue := do
  let isEmpty ← emptyIn name causality
  match id with
  | some id => if isEmpty && nonEmpty id then assignIn name (.string id) causality else some causality
  | none => some causality

-- Fills the causality ids that the caller did not set from the top of the correlation stack.
def injectCorrelation (top : Option Correlation) (event : PhpArray) : Option PhpArray :=
  match top with
  | none => some event
  | some top => do
    let causality := event.getOr "causality" (.array [])
    let causality ← fillIn "correlation_id" (some top.correlationId) causality
    let causality ← fillIn "causation_id" top.causationId causality
    some (event.set "causality" causality)

-- `$safe['coverage']['redacted_fields']` when it is set. The inner `none` is an unset place; reading
-- into an object throws.
def redactedFields (safe : PhpArray) : Option (Option PhpValue) :=
  match safe.get "coverage" with
  | some (.array coverage) =>
    some (if PhpArray.isset coverage "redacted_fields" then
      PhpArray.get coverage "redacted_fields" else none)
  | some (.object _) => none
  | _ => some none

def setRedactedFields (safe : PhpArray) (fields : PhpValue) : PhpArray :=
  match safe.get "coverage" with
  | some (.array coverage) =>
    safe.set "coverage" (.array (PhpArray.set coverage "redacted_fields" fields))
  | _ => safe

-- Strips the secrets, and adds the dropped paths to the redacted fields that the event lists.
def redact (floatText : ℚ → String) (event : PhpArray) : Option PhpArray :=
  let (safe, droppedPaths) := Redact.stripSecrets event
  if droppedPaths = [] then
    some safe
  else do
    match ← redactedFields safe with
    | none => some safe
    | some fields =>
      let merged ← arrayUnique floatText (fields.toArrayValues ++ droppedPaths.map .string)
      some (setRedactedFields safe (.array (list merged)))

-- The frame that is pushed onto the buffer, if any.
def observe (floatText : ℚ → String) (runtime : Runtime) (event : PhpArray) : Option Json :=
  if runtime.enabled then do
    let event ← injectCorrelation runtime.correlationStack.getLast? event
    let safe ← redact floatText event
    EventFactory.encodeFrame safe
  else
    none

-- The frame that is sent to be evaluated, if any.
def evaluate (floatText : ℚ → String) (runtime : Runtime) (event : PhpArray) : Option Json :=
  if runtime.enabled then do
    let safe ← redact floatText event
    EventFactory.encodeFrame (safe.set "__evaluate__" (.bool true))
  else
    none

-- `$context[$name] = $id` with its default type, when an id is given.
def withParticipant (role : String) (id : Option String) (context : PhpArray) : PhpArray :=
  match id with
  | none => context
  | some id =>
    if id = "" then
      context
    else
      let context := context.set (role ++ "_id") (.string id)
      if context.isset (role ++ "_type") then
        context
      else
        context.set (role ++ "_type") (.string "user")

-- An id from the stack, where the context sets none.
def withDefaultId (name : String) (id : Option String) (context : PhpArray) : PhpArray :=
  match id with
  | none => context
  | some id =>
    if !context.isset name && nonEmpty id then context.set name (.string id) else context

def observeEvent (floatText : ℚ → String) (runtime : Runtime) (stamp : Stamp)
    (eventType resourceType resourceId : String) (data context : PhpArray)
    (beneficiaryId actorId : Option String) : Option Json :=
  if runtime.enabled then
    let context := withParticipant "beneficiary" beneficiaryId context
    let context := withParticipant "actor" actorId context
    let context := match runtime.correlationStack.getLast? with
      | none => context
      | some top =>
        withDefaultId "causation_id" top.causationId
          (withDefaultId "correlation_id" (some top.correlationId) context)
    observe floatText runtime
      (runtime.factory.businessEvent stamp eventType resourceId resourceType data context)
  else
    none

end Runtime

end Athar.Shim
