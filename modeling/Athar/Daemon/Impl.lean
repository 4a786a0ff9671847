import Mathlib.Logic.Function.Basic
import Athar.Ingest.Impl
import Athar.Spool.Impl

/-!
This module contains the tasks of the daemon that share the evidence log and the audit chain: the
connections, the shim-spool collector, and the emitters of coverage gaps. The two stores are locked one
after the other, so a task that has appended its evidence waits for the audit chain while others go on,
and a connection is done with the chain before it comes to the lifecycles and the detection.
-/

namespace Athar

open Storage Audit Spool

inductive Client where
  | connection (id : Nat)
  | collector
  | emitter (atShutdown : Bool)
  deriving DecidableEq, Repr

variable {c : Crates} {d : Detection}

variable (c) in
-- What a task still has to do once it is done with the evidence log. `ticket` is the position of its
-- payload among those that the log took, `projects` what a connection does after the commitment.
structure InFlight where
  kind : String
  payload : List UInt8
  ticket : Option Nat
  nowUs : Int64
  auditIo : WriteOutcome c.Text
  projects : Option (Event × Bool × Frame c)

variable (c) in
-- What a connection still has to do once the audit chain has its event.
structure Projection where
  event : Event
  wantsResponse : Bool
  frame : Frame c
  ticket : Option Nat

-- A record that the audit chain took, whose it is, and the ticket it was committed with.
structure Committed where
  client : Client
  record : AuditRecord
  ticket : Option Nat

variable (c) in
inductive Daemon.Action where
  | ingest (connection : Nat) (frame : Frame c)
  | collect (record : ShimLossRecord) (io : RecordIo c)
  | emit (atShutdown : Bool) (io : EmitIo c)
  | commit (client : Client)
  | project (client : Client)
  | abort (client : Client)
  | flush (outcome : WriteOutcome c.Text)

-- How the payloads of the three kinds of tasks are written.
structure Writers where
  json : SerdeJson
  spool : SpoolJson
  toVec : CoverageGapSummary → Nat → Option (List UInt8)

variable (c d) in
structure Daemon where
  server : IngestServer c d
  inflight : Client → Option (InFlight c)
  projecting : Client → Option (Projection c)
  appended : List (List UInt8)
  ledger : List Committed

namespace IngestServer

-- `ingestOne` up to the evidence log: the event to record, and whether its client wants a response.
def receive (s : IngestServer c d) (json : SerdeJson) (frame : Frame c)
    : IngestServer c d × Option (Event × Bool) :=
  if ¬frame.level.allows .p1 then
    ({ s with drops := s.drops.record frame.bytes.length frame.nowMs }, none)
  else
    match json.fromSlice frame.bytes with
    | none => (s, none)
    | some raw =>
      if flag raw "__status__" then
        let status := s.buildStatusBody frame.nowMs frame.levelAfter
        ({ s with responses := s.responses ++ [.status status] }, none)
      else
        match parseEvent json raw frame.nowRfc3339 with
        | .error _ => (s, none)
        | .ok event => (s, some (event, flag raw "__evaluate__"))

end IngestServer

namespace Daemon

variable (w : Writers) (st : Daemon c d)

def start (server : IngestServer c d) : Daemon c d := ⟨server, fun _ => none, fun _ => none, [], []⟩

-- A connection reads its next frame only when it is through with the one before.
def busy (client : Client) : Bool :=
  (st.inflight client).isSome || (st.projecting client).isSome

def hold (client : Client) (work : InFlight c) (ticket : Option Nat) : Daemon c d :=
  { st with inflight := Function.update st.inflight client (some { work with ticket }) }

-- The evidence log has taken the payload.
def take (client : Client) (work : InFlight c) : Daemon c d :=
  hold { st with appended := st.appended ++ [work.payload] } client work (some st.appended.length)

-- A locked append, which the client does not go on from if it fails.
def append (client : Client) (work : InFlight c) (io : AppendIo) : Daemon c d :=
  match st.server.log.append work.payload io with
  | (log, .error _) => { st with server := { st.server with log } }
  | (log, .ok _) => take { st with server := { st.server with log } } client work

-- A locked append, which the client goes on from also if it fails.
def appendAnyway (client : Client) (work : InFlight c) (io : AppendIo) : Daemon c d :=
  match st.server.log.append work.payload io with
  | (log, .error _) => hold { st with server := { st.server with log } } client work none
  | (log, .ok _) => take { st with server := { st.server with log } } client work

def ingest (connection : Nat) (frame : Frame c) : Daemon c d :=
  match st.server.receive w.json frame with
  | (server, none) => { st with server }
  | (server, some (event, wantsResponse)) =>
    append { st with server } (.connection connection)
      ⟨"event", w.json.toVec event, none, frame.nowUs, frame.auditIo,
        some (event, wantsResponse, frame)⟩
      frame.logIo

def collect (record : ShimLossRecord) (io : RecordIo c) : Daemon c d :=
  st.append .collector
    ⟨"coverage_gap", w.spool.toVec (coverageGap record io.nowMs), none, io.nowUs, io.auditIo, none⟩
    io.logIo

def emit (atShutdown : Bool) (io : EmitIo c) : Daemon c d :=
  let (drops, summary) := st.server.drops.take
  let st := { st with server := { st.server with drops } }
  match summary.bind (w.toVec · io.recordedAtMs) with
  | none => st
  | some payload =>
    st.appendAnyway (.emitter atShutdown)
      ⟨"coverage_gap", payload, none, io.nowUs, io.auditIo, none⟩ io.logIo

-- A locked observe.
def commit (client : Client) (work : InFlight c) : Daemon c d :=
  let record := st.server.audit.nextRecord work.kind work.payload work.nowUs
  let (audit, result) := st.server.audit.observe work.kind work.payload work.nowUs work.auditIo
  { st with
    server := { st.server with audit }
    inflight := Function.update st.inflight client none
    projecting :=
      match result, work.projects with
      | .ok (), some (event, wantsResponse, frame) =>
        Function.update st.projecting client (some ⟨event, wantsResponse, frame, work.ticket⟩)
      | _, _ => st.projecting
    ledger := st.ledger ++ [⟨client, record, work.ticket⟩] }

-- What follows it, outside the locks of the two stores.
def project (client : Client) (next : Projection c) : Daemon c d :=
  { st with
    server := st.server.project next.event next.wantsResponse next.frame
    projecting := Function.update st.projecting client none }

-- A client starts anew only when it is through with what it did before. A task that is dropped stops where
-- it waits for a lock, so it still makes the projection of what the chain has taken.
def step : Daemon.Action c → Daemon c d
  | .ingest connection frame =>
    if st.busy (.connection connection) then st else st.ingest w connection frame
  | .collect record io =>
    match st.inflight .collector with
    | some _ => st
    | none => st.collect w record io
  | .emit atShutdown io =>
    match st.inflight (.emitter atShutdown) with
    | some _ => st
    | none => st.emit w atShutdown io
  | .commit client =>
    match st.inflight client with
    | some work => st.commit client work
    | none => st
  | .project client =>
    match st.projecting client with
    | some next => st.project client next
    | none => st
  | .abort client => { st with inflight := Function.update st.inflight client none }
  | .flush outcome =>
    { st with server := { st.server with audit := (st.server.audit.flush outcome).1 } }

end Daemon

end Athar
