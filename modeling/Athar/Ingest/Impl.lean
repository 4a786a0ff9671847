import Athar.Audit.Impl.Writer
import Athar.Governor.Impl
import Athar.Lifecycle.Impl.Engine
import Athar.Storage.Impl

/-!
This module contains the ingest of one frame: the pressure gate, parsing and validation, the append
to the evidence log, the commitment through the audit chain, and the lifecycle projection with the
detection that follows it.

Reading and writing of JSON is external. Detection is a parameter: it is best effort, reads what the
earlier stages made, and touches neither of the logs.
-/

namespace Athar

open Storage Audit

structure DropCounters where
  frames : UInt64
  bytes : UInt64
  sinceMs : Nat
  deriving DecidableEq, Repr

structure CoverageGapSummary where
  frames : UInt64
  bytes : UInt64
  windowStartedAtMs : Nat
  deriving DecidableEq, Repr

namespace DropCounters

def record (drops : DropCounters) (frameBytes nowMs : Nat) : DropCounters where
  frames := drops.frames + 1
  bytes := drops.bytes + UInt64.ofNat frameBytes
  sinceMs := if drops.frames = 0 then nowMs else drops.sinceMs

def pendingFrames (drops : DropCounters) : UInt64 := drops.frames

def pendingBytes (drops : DropCounters) : UInt64 := drops.bytes

def take (drops : DropCounters) : DropCounters × Option CoverageGapSummary :=
  if drops.frames = 0 then
    (drops, none)
  else
    (⟨0, 0, 0⟩, some ⟨drops.frames, drops.bytes, drops.sinceMs⟩)

end DropCounters

structure SerdeJson where
  fromSlice : List UInt8 → Option Json
  fromValue : Json → Option Event
  toVec : Event → List UInt8

structure Detection where
  State : Type
  Decision : Type
  evaluate : State → Event → Option String → (nowMs latencyUs : Nat) → PressureLevel →
    State × Decision
  countDecisions : State → Nat
  countSignals : State → Nat

inductive IngestError where
  | parseFrame
  | convertEvent
  | validateEvent (e : ValidationError)
  | appendEvidence (e : StorageError)
  | appendAudit (e : PersistError)
  deriving DecidableEq, Repr

structure StatusBody where
  timestampMs : Nat
  pressureLevel : PressureLevel
  pendingDropsFrames : UInt64
  pendingDropsBytes : UInt64
  lifecyclesTotal : Nat
  lifecyclesOpen : Nat
  decisionsTotal : Nat
  signalsTotal : Nat
  deriving DecidableEq, Repr

inductive Response (d : Detection) where
  | status (body : StatusBody)
  | decision (decision : d.Decision)

-- A frame with what its ingest reads from outside: the pressure level, at the gate and later, the
-- clock, and the outcomes of the file operations.
structure Frame (c : Crates) where
  bytes : List UInt8
  level : PressureLevel
  levelAfter : PressureLevel
  nowRfc3339 : String
  nowMs : Nat
  decisionMs : Nat
  latencyUs : Nat
  nowUs : Int64
  logIo : AppendIo
  auditIo : WriteOutcome c.Text

-- What the emission of a coverage gap reads from outside.
structure EmitIo (c : Crates) where
  recordedAtMs : Nat
  nowUs : Int64
  logIo : AppendIo
  auditIo : WriteOutcome c.Text

structure IngestServer (c : Crates) (d : Detection) where
  log : SegmentLog
  audit : AuditChainWriter c
  drops : DropCounters
  lifecycles : DynStore
  detection : d.State
  responses : List (Response d)

namespace IngestServer

variable {c : Crates} {d : Detection} (json : SerdeJson) (s : IngestServer c d)

open LifecycleStore

-- The server on what is in its data directory.
def new (logConfig : Storage.Config) (evidence : Storage.Dir) (segments : SegmentStore c)
    (signer : SigningKey) (auditRecordsPerSegment : Nat) (lifecycles : DynStore) (detection : d.State)
    : Except PersistError (IngestServer c d) := do
  let audit ← AuditChainWriter.open segments "tnt_default" signer
  return {
    log := SegmentLog.open logConfig evidence
    audit := audit.withMaxRecordsPerSegment auditRecordsPerSegment
    drops := ⟨0, 0, 0⟩
    lifecycles
    detection
    responses := []
  }

def flag (raw : Json) (name : String) : Bool :=
  ((raw.get name).bind Json.asBool).getD false

def buildStatusBody (nowMs : Nat) (level : PressureLevel) : StatusBody where
  timestampMs := nowMs
  pressureLevel := level
  pendingDropsFrames := s.drops.pendingFrames
  pendingDropsBytes := s.drops.pendingBytes
  lifecyclesTotal := count s.lifecycles
  lifecyclesOpen := countOpen s.lifecycles
  decisionsTotal := d.countDecisions s.detection
  signalsTotal := d.countSignals s.detection

def lifecycleId : ApplyOutcome → Option String
  | .created lifecycleId _ _ _ => some lifecycleId
  | .updated lifecycleId _ _ _ => some lifecycleId
  | .lateEvent lifecycleId _ _ => some lifecycleId
  | .unbound => none

-- What follows the commitment: the lifecycle projection, detection and the response.
def project (event : Event) (wantsResponse : Bool) (frame : Frame c) : IngestServer c d :=
  let (lifecycles, outcome) := LifecycleEngine.apply s.lifecycles event frame.nowMs
  let (detection, decision) :=
    d.evaluate s.detection event (lifecycleId outcome) frame.decisionMs frame.latencyUs
      frame.levelAfter
  { s with
    lifecycles
    detection
    responses := s.responses ++ if wantsResponse then [.decision decision] else [] }

-- The event of a frame, as it is recorded: it parses, validates and gets the daemon's clock.
def parseEvent (raw : Json) (nowRfc3339 : String) : Except IngestError Event :=
  match json.fromValue raw with
  | none => .error .convertEvent
  | some event =>
    match event.validate with
    | .error e => .error (.validateEvent e)
    | .ok () => .ok { event with receivedAt := nowRfc3339 }

-- Evidence first, then the audit chain, then the lifecycle.
def ingestEvent (event : Event) (wantsResponse : Bool) (frame : Frame c)
    : IngestServer c d × Except IngestError Unit :=
  let canonical := json.toVec event
  match s.log.append canonical frame.logIo with
  | (log, .error e) => ({ s with log }, .error (.appendEvidence e))
  | (log, .ok _) =>
    match s.audit.observe "event" canonical frame.nowUs frame.auditIo with
    | (audit, .error e) => ({ s with log, audit }, .error (.appendAudit e))
    | (audit, .ok ()) => (project { s with log, audit } event wantsResponse frame, .ok ())

def ingestOne (frame : Frame c) : IngestServer c d × Except IngestError Unit :=
  if ¬frame.level.allows .p1 then
    ({ s with drops := s.drops.record frame.bytes.length frame.nowMs }, .ok ())
  else
    match json.fromSlice frame.bytes with
    | none => (s, .error .parseFrame)
    | some raw =>
      if flag raw "__status__" then
        let status := s.buildStatusBody frame.nowMs frame.levelAfter
        ({ s with responses := s.responses ++ [.status status] }, .ok ())
      else
        match parseEvent json raw frame.nowRfc3339 with
        | .error e => (s, .error e)
        | .ok event => s.ingestEvent json event (flag raw "__evaluate__") frame

-- The drops since the last coverage gap, as a gap of their own. The commitment is made whether or not
-- the evidence log takes the gap.
def emitCoverageGapIfAny (toVec : CoverageGapSummary → Nat → Option (List UInt8)) (io : EmitIo c)
    : IngestServer c d × Option CoverageGapSummary :=
  match s.drops.take with
  | (drops, none) => ({ s with drops }, none)
  | (drops, some summary) =>
    match toVec summary io.recordedAtMs with
    | none => ({ s with drops }, none)
    | some payload =>
      let (log, _) := s.log.append payload io.logIo
      match s.audit.observe "coverage_gap" payload io.nowUs io.auditIo with
      | (audit, .error _) => ({ s with drops, log, audit }, none)
      | (audit, .ok ()) => ({ s with drops, log, audit }, some summary)

end IngestServer

end Athar
