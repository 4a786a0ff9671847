import Athar.Ingest.Impl.Detection
import Athar.Shim.Impl.Runtime
import Athar.Wire.Impl

/-!
This module contains the synchronous evaluation of an event, from the shim to the daemon and back: the
connection that the daemon serves, the responses it writes, and the decision that the shim makes of the
response or, without one, by itself.

The texts of JSON documents and the decoding of a response are external.
-/

namespace Athar.Shim

structure Decision where
  decisionId : String
  action : String
  mode : String
  reasonCodes : List String
  outcomeReason : String
  latencyUs : Int
  deriving DecidableEq, Repr

namespace Decision

def ACTION_ALLOW : String := "ALLOW"

def ACTION_CHALLENGE : String := "CHALLENGE"

def ACTION_RESTRICT : String := "RESTRICT"

def ACTION_BLOCK : String := "BLOCK"

def MODE_OBSERVE : String := "OBSERVE"

def MODE_ENFORCE : String := "ENFORCE"

def OUTCOME_POLICY_MATCH : String := "POLICY_MATCH"

def OUTCOME_NO_POLICY_APPLIED : String := "NO_POLICY_APPLIED"

def OUTCOME_DEADLINE_EXCEEDED : String := "DEADLINE_EXCEEDED"

def OUTCOME_MALFORMED : String := "MALFORMED_RESPONSE"

def OUTCOME_DISABLED : String := "SHIM_DISABLED"

def OUTCOME_EXCEPTION : String := "SHIM_EXCEPTION"

def isMatched (d : Decision) : Bool :=
  d.outcomeReason = OUTCOME_POLICY_MATCH && d.action ≠ ACTION_ALLOW

def wouldRestrict (d : Decision) : Bool :=
  d.action ∈ [ACTION_BLOCK, ACTION_CHALLENGE, ACTION_RESTRICT]

def isEnforced (d : Decision) : Bool :=
  d.mode = MODE_ENFORCE

def isRealDecision (d : Decision) : Bool :=
  d.outcomeReason ∈ [OUTCOME_POLICY_MATCH, OUTCOME_NO_POLICY_APPLIED]

-- `random` is the hexadecimal text of six random bytes.
def failOpen (random reason : String) (latencyUs : Int) : Decision where
  decisionId := "dec_failopen_" ++ random
  action := ACTION_ALLOW
  mode := MODE_OBSERVE
  reasonCodes := []
  outcomeReason := reason
  latencyUs

def fromResponse (floatText : ℚ → String) (data : PhpArray) (latencyUs : Int) : Option Decision := do
  let decisionId ← (data.getOr "decision_id" (.string "dec_unknown")).text floatText
  let action ← (data.getOr "action" (.string ACTION_ALLOW)).text floatText
  let mode ← (data.getOr "mode" (.string MODE_OBSERVE)).text floatText
  let reasonCodes ← (data.getOr "reason_codes" (.array [])).toArrayValues.mapM (·.text floatText)
  let outcomeReason ← (data.getOr "outcome_reason" (.string OUTCOME_POLICY_MATCH)).text floatText
  return { decisionId, action, mode, reasonCodes, outcomeReason, latencyUs }

end Decision

-- `Runtime::evaluate` once the transport is known: `receive` gives the response to a frame.
def Runtime.evaluateWith (floatText : ℚ → String) (text : Json → List UInt8)
    (jsonDecode : List UInt8 → PhpValue) (receive : List UInt8 → Option (List UInt8)) (random : String)
    (latencyUs : Int) (runtime : Runtime) (event : PhpArray) : Decision :=
  if ¬runtime.enabled then
    .failOpen random Decision.OUTCOME_DISABLED 0
  else
    match runtime.evaluate floatText event with
    | none => .failOpen random Decision.OUTCOME_EXCEPTION latencyUs
    | some frame =>
      match receive (text frame) with
      | none => .failOpen random Decision.OUTCOME_DEADLINE_EXCEEDED latencyUs
      | some response =>
        match jsonDecode response with
        | .array data =>
          match Decision.fromResponse floatText data latencyUs with
          | some decision => decision
          | none => .failOpen random Decision.OUTCOME_EXCEPTION latencyUs
        | _ => .failOpen random Decision.OUTCOME_MALFORMED latencyUs

end Athar.Shim

namespace Athar.Wire

open Audit Records Incremental

-- The members of a document are written in the order of their names.
def decisionBody (decision : DecisionRecord) : Json :=
  let matched := (decision.policiesEvaluated.head?.map (·.matched)).getD false
  .object [
    ("action", .string decision.action.asStr),
    ("decision_id", .string decision.decisionId),
    ("latency_us", .number decision.latencyUs),
    ("mode", .string decision.mode.asStr),
    ("outcome_reason", .string (if matched then "POLICY_MATCH" else "NO_POLICY_APPLIED")),
    ("reason_codes", .array (decision.reasonCodes.map .string))]

def CARGO_PKG_VERSION : String := "0.1.0"

def statusBody (body : StatusBody) : Json :=
  .object [
    ("counts", .object [
      ("decisions_total", .number body.decisionsTotal),
      ("lifecycles_open", .number body.lifecyclesOpen),
      ("lifecycles_total", .number body.lifecyclesTotal),
      ("signals_total", .number body.signalsTotal)]),
    ("daemon_version", .string CARGO_PKG_VERSION),
    ("ingest", .object [
      ("pending_drops_bytes", .number body.pendingDropsBytes.toNat),
      ("pending_drops_frames", .number body.pendingDropsFrames.toNat)]),
    ("pressure_level", .string body.pressureLevel.debug),
    ("schema_version", .string "1.0"),
    ("timestamp_ms", .number body.timestampMs)]

-- How the two ends read and write: the texts of the shim, the reading of the daemon and its codec, the
-- texts of the daemon, and the decoding of the shim.
structure Formats where
  text : Json → List UInt8
  json : SerdeJson
  decode : List UInt8 → Found UInt8 (List UInt8)
  toVec : Json → List UInt8
  jsonDecode : List UInt8 → Shim.PhpValue

variable {c : Crates} {f : Floats} {db : DecisionDb} {fixed2 : ℚ → String}

def responseBody : Response (Detection.ofEngines f db fixed2) → Json
  | .status body => statusBody body
  | .decision decision => decisionBody decision

-- The loop of `process_stream`. `io` is what the ingest of each frame reads from outside.
def processStream {d : Detection} (json : SerdeJson) (decode : List UInt8 → Found UInt8 (List UInt8))
    (s : IngestServer c d) (io : Nat → Frame c) (reads : List (List UInt8)) : IngestServer c d :=
  ((framesOf decode reads).mapIdx fun i bytes => { io i with bytes }).foldl
    (fun s frame => (s.ingestOne json frame).1) s

-- What is written to a connection for the responses of a server since it was `s`.
def writtenSince (toVec : Json → List UInt8) (s s' : IngestServer c (.ofEngines f db fixed2))
    : List UInt8 :=
  (s'.responses.drop s.responses.length).flatMap fun response => writeFrame (toVec (responseBody response))

-- What an evaluation meets on its way: the shim's `fwrite` calls, the reads and the ingest of the
-- daemon, how much of what the daemon writes arrives in time, and the shim's `fread` calls.
structure Passage (c : Crates) where
  connected : Bool
  accepts : List Nat
  reads : List Nat
  io : Nat → Frame c
  arrives : Nat
  chunks : List Nat
  random : String
  latencyUs : Int

namespace Passage

variable (formats : Formats) (passage : Passage c) (s : IngestServer c (.ofEngines f db fixed2))

-- The server after a connection that brought these bytes.
def serve (sent : List UInt8) : IngestServer c (.ofEngines f db fixed2) :=
  processStream formats.json formats.decode s passage.io (readsOf passage.reads sent)

def receive (frame : List UInt8) : Option (List UInt8) :=
  Transport.sendAndReceive passage.connected passage.accepts passage.chunks
    (fun sent => (writtenSince formats.toVec s (passage.serve formats s sent)).take passage.arrives) frame

def evaluate (floatText : ℚ → String) (runtime : Shim.Runtime) (event : Shim.PhpArray)
    : Shim.Decision :=
  runtime.evaluateWith floatText formats.text formats.jsonDecode (passage.receive formats s)
    passage.random passage.latencyUs event

end Passage

end Athar.Wire
