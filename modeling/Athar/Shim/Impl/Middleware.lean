import Athar.Lib.Scopes
import Athar.Shim.Impl.Runtime

/-!
This module contains what an application does to the shim while it serves requests: the calls that it
makes, the capture of the requests themselves, and the correlations that are held meanwhile. The code of
the application is unknown, apart from these calls.
-/

namespace Athar.Shim

-- What the capture reads off a request and its response. A reading that throws is missing.
structure Capture where
  method : Option String
  path : Option String
  -- The route that the framework found, or none, and then the path is the template.
  route : Option (Option String)
  status : Option Int
  latencyUs : Int
  deriving Repr

inductive AppCall where
  | context (attrs : PhpArray)
  | observe (event : PhpArray)
  | observeEvent (stamp : Stamp) (eventType resourceType resourceId : String) (data context : PhpArray)
      (beneficiaryId actorId : Option String)
  | emit (stamp : Stamp) (capture : Capture)

-- The runtime without its correlation stack, and the context that its captures are given.
structure Session where
  enabled : Bool
  factory : EventFactory
  context : PhpArray

abbrev AppCode := Scopes.Code Session Correlation AppCall

-- Code whose correlations are held by `withCorrelation` and by the middleware only.
abbrev AppScoped := Scopes.Scoped Session Correlation AppCall

namespace Session

def runtime (s : Session) (correlationStack : List Correlation) : Runtime where
  enabled := s.enabled
  factory := s.factory
  correlationStack

-- `array_merge`, which gives the integer keys new numbers.
def arrayMerge (a b : PhpArray) : PhpArray :=
  (a ++ b).foldl
    (fun merged entry =>
      match entry.1 with
      | .string name => PhpArray.set merged name entry.2
      | .int _ =>
        let next := merged.countP fun e => match e.1 with | .int _ => true | .string _ => false
        merged ++ [(.int next, entry.2)])
    []

def merge (s : Session) (attrs : PhpArray) : Session :=
  if s.enabled then { s with context := arrayMerge s.context attrs } else s

end Session

namespace HttpMiddleware

variable (sha256 : String → String)

def ltrimSlash (path : String) : String :=
  String.ofList (path.toList.dropWhile (· = '/'))

def endpointId (method route : String) : String :=
  "ep_" ++ String.ofList ((sha256 (EventFactory.strtoupper method ++ " " ++ route)).toList.take 16)

-- The event of a request. The readings that failed have defaults.
def event (factory : EventFactory) (context : PhpArray) (stamp : Stamp) (capture : Capture) : PhpArray :=
  let method := (capture.method.map EventFactory.strtoupper).getD "GET"
  let path := capture.path.map fun path => "/" ++ ltrimSlash path
  let routeTpl := capture.route.bind fun uri => uri.orElse fun _ => path
  let routeTpl := (routeTpl.orElse fun _ => path).getD "/"
  let event := factory.httpRequest stamp method routeTpl (assoc [
    ("application_id", context.getOr "application_id" (.string "laravel")),
    ("endpoint_id", .string (endpointId sha256 method routeTpl)),
    ("route", ofOption path),
    ("customer_correlation_ids", context.getOr "customer_correlation_ids" (.array [])),
    ("redacted_fields", .array (list [.string "headers.authorization", .string "headers.cookie",
      .string "body.*"]))])
  event.set "data" (.array (assoc [
    ("status_code", .int (capture.status.getD 0)),
    ("latency_us", .int capture.latencyUs)]))

-- The request is served under a correlation of its own, which goes whatever the application throws. Only
-- a request that was answered is captured.
def handle (ulid : String) (stamp : Stamp) (capture : Capture) (next : AppCode) : AppCode :=
  .seq (.push ⟨"req_" ++ ulid, none⟩) (.ensure (.seq next (.call (.emit stamp capture))) .pop)

end HttpMiddleware

def Runtime.withCorrelation (correlationId : String) (fn : AppCode) (causationId : Option String)
    : AppCode :=
  .seq (.push ⟨correlationId, causationId⟩) (.ensure fn .pop)

-- The frames that a call pushes onto the buffer.
def AppCall.perform (floatText : ℚ → String) (sha256 : String → String)
    (correlationStack : List Correlation) (s : Session) : AppCall → Session × List Json
  | .context attrs => (s.merge attrs, [])
  | .observe event => (s, ((s.runtime correlationStack).observe floatText event).toList)
  | .observeEvent stamp eventType resourceType resourceId data ctx beneficiaryId actorId =>
    (s, ((s.runtime correlationStack).observeEvent floatText stamp eventType resourceType resourceId data
      ctx beneficiaryId actorId).toList)
  | .emit stamp capture =>
    (s, ((s.runtime correlationStack).observe floatText
      (HttpMiddleware.event sha256 s.factory s.context stamp capture)).toList)

end Athar.Shim
