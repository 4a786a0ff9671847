import Athar.Daemon.Impl
import Athar.Lib.Run

/-!
This module connects the steps of each client with the function of the source that makes them: with
nothing in between, they do what the function does.
-/

namespace Athar.Daemon

open Storage Audit Spool

variable {c : Crates} {d : Detection} (w : Writers) (st : Daemon c d)

theorem step_commit_of_none {client : Client} (h : st.inflight client = none)
    : st.step w (.commit client) = st := by
  simp [step, h]

theorem step_commit_of_some {client : Client} {work : InFlight c}
    (h : st.inflight client = some work) : st.step w (.commit client) = st.commit client work := by
  simp [step, h]

theorem step_project_of_none {client : Client} (h : st.projecting client = none)
    : st.step w (.project client) = st := by
  simp [step, h]

theorem step_project_of_some {client : Client} {next : Projection c}
    (h : st.projecting client = some next) : st.step w (.project client) = st.project client next := by
  simp [step, h]

theorem busy_eq_false {client : Client}
    : st.busy client = false ↔ st.inflight client = none ∧ st.projecting client = none := by
  simp [busy]

-- A client that has stopped does not go on.
theorem commit_project_of_idle {client : Client} (h : st.busy client = false)
    : (st.step w (.commit client)).step w (.project client) = st := by
  rw [busy_eq_false] at h
  rw [step_commit_of_none w st h.1, step_project_of_none w st h.2]

theorem inflight_hold (client : Client) (work : InFlight c) (ticket : Option Nat)
    : (st.hold client work ticket).inflight client = some { work with ticket } := by
  simp [hold]

-- A client that could append goes on to its commitment, and one that could not does not.
theorem append_commit {client : Client} (hidle : st.inflight client = none) (work : InFlight c)
    (io : AppendIo)
    : ((st.append client work io).step w (.commit client)).server
        = match st.server.log.append work.payload io with
          | (log, .error _) => { st.server with log }
          | (log, .ok _) =>
            (commit { st with server := { st.server with log } } client work).server := by
  unfold append
  generalize st.server.log.append work.payload io = appended
  rcases appended with ⟨log, _ | _⟩
  . dsimp only
    rw [step_commit_of_none]
    exact hidle
  . dsimp only [take]
    rw [step_commit_of_some w _ (inflight_hold _ client work _)]
    rfl

theorem commit_server (client : Client) (work : InFlight c)
    : (st.commit client work).server
        = { st.server with
            audit := (st.server.audit.observe work.kind work.payload work.nowUs work.auditIo).1 } := by
  rfl

-- A client that the chain took goes on to its projection, and one that it did not take does not.
theorem commit_project {client : Client} (hquiet : st.projecting client = none) (work : InFlight c)
    : ((st.commit client work).step w (.project client)).server
        = match st.server.audit.observe work.kind work.payload work.nowUs work.auditIo, work.projects with
          | (audit, .ok ()), some (event, wantsResponse, frame) =>
            IngestServer.project { st.server with audit } event wantsResponse frame
          | (audit, _), _ => { st.server with audit } := by
  unfold commit
  generalize st.server.audit.observe work.kind work.payload work.nowUs work.auditIo = observed
  rcases observed with ⟨audit, _ | _⟩
  . dsimp only
    rw [step_project_of_none]
    exact hquiet
  . cases work.projects with
    | none =>
      dsimp only
      rw [step_project_of_none]
      exact hquiet
    | some projects =>
      rcases projects with ⟨event, wantsResponse, frame⟩
      dsimp only
      rw [step_project_of_some w _ (Function.update_self _ _ _)]
      rfl

theorem ingestOne_eq (s : IngestServer c d) (json : SerdeJson) (frame : Frame c)
    : (s.ingestOne json frame).1
        = match s.receive json frame with
          | (s, none) => s
          | (s, some (event, wantsResponse)) => (s.ingestEvent json event wantsResponse frame).1 := by
  unfold IngestServer.ingestOne IngestServer.receive
  split
  . rfl
  . cases json.fromSlice frame.bytes with
    | none => rfl
    | some raw =>
      dsimp only
      split
      . rfl
      . cases IngestServer.parseEvent json raw frame.nowRfc3339 <;> rfl

theorem ingest_project {connection : Nat} (hidle : st.busy (.connection connection) = false)
    (frame : Frame c)
    : (Run.exec (step w) st [.ingest connection frame, .commit (.connection connection),
          .project (.connection connection)]).server
        = (st.server.ingestOne w.json frame).1 := by
  have hingest : st.step w (.ingest connection frame) = st.ingest w connection frame := by
    simp [step, hidle]
  rw [ingestOne_eq, Run.exec_cons, Run.exec_cons, Run.exec_cons, Run.exec_nil, hingest]
  unfold ingest
  generalize st.server.receive w.json frame = received
  rcases received with ⟨server, _ | ⟨event, wantsResponse⟩⟩
  . dsimp only
    rw [commit_project_of_idle]
    exact hidle
  . dsimp only
    unfold IngestServer.ingestEvent append
    dsimp only
    generalize server.log.append (w.json.toVec event) frame.logIo = appended
    rcases appended with ⟨log, _ | _⟩
    . dsimp only
      rw [commit_project_of_idle]
      exact hidle
    . dsimp only [take]
      rw [step_commit_of_some w _ (inflight_hold _ _ _ _), commit_project]
      dsimp only [hold]
      generalize server.audit.observe "event" (w.json.toVec event) frame.nowUs frame.auditIo
        = observed
      . rcases observed with ⟨audit, _ | _⟩ <;> rfl
      . exact ((busy_eq_false st).mp hidle).2

theorem collect_commit {F : Type} (hidle : st.inflight .collector = none) (gap : Gap F)
    (io : RecordIo c) (stores : Stores c F)
    : let server := (Run.exec (step w) st [.collect gap.record io, .commit .collector]).server
      let stores := (Stores.ingestRecord w.spool
        { stores with log := st.server.log, audit := st.server.audit } gap io).1
      server.log = stores.log ∧ server.audit = stores.audit := by
  have hcollect : st.step w (.collect gap.record io) = st.collect w gap.record io := by
    simp [step, hidle]
  dsimp only
  rw [Run.exec_cons, Run.exec_cons, Run.exec_nil, hcollect]
  unfold collect Stores.ingestRecord
  rw [append_commit _ _ hidle]
  dsimp only
  generalize st.server.log.append (w.spool.toVec (coverageGap gap.record io.nowMs)) io.logIo
    = appended
  rcases appended with ⟨log, _ | _⟩
  . exact ⟨rfl, rfl⟩
  . dsimp only
    rw [commit_server]
    dsimp only
    generalize st.server.audit.observe "coverage_gap"
      (w.spool.toVec (coverageGap gap.record io.nowMs)) io.nowUs io.auditIo = observed
    rcases observed with ⟨audit, _ | _⟩ <;> exact ⟨rfl, rfl⟩

theorem emit_commit {atShutdown : Bool} (hidle : st.inflight (.emitter atShutdown) = none)
    (io : EmitIo c)
    : (Run.exec (step w) st [.emit atShutdown io, .commit (.emitter atShutdown)]).server
        = (st.server.emitCoverageGapIfAny w.toVec io).1 := by
  have hemit : st.step w (.emit atShutdown io) = st.emit w atShutdown io := by
    simp [step, hidle]
  rw [Run.exec_cons, Run.exec_cons, Run.exec_nil, hemit]
  unfold emit IngestServer.emitCoverageGapIfAny
  generalize st.server.drops.take = taken
  rcases taken with ⟨drops, _ | summary⟩
  . dsimp only [Option.bind_none]
    rw [step_commit_of_none]
    exact hidle
  . dsimp only [Option.bind_some]
    cases w.toVec summary io.recordedAtMs with
    | none =>
      dsimp only
      rw [step_commit_of_none]
      exact hidle
    | some payload =>
      dsimp only
      unfold appendAnyway
      dsimp only
      generalize st.server.log.append payload io.logIo = appended
      rcases appended with ⟨log, _ | _⟩
      all_goals
        dsimp only [take]
        rw [step_commit_of_some w _ (inflight_hold _ _ _ _), commit_server]
        dsimp only [hold]
        generalize st.server.audit.observe "coverage_gap" payload io.nowUs io.auditIo = observed
        rcases observed with ⟨audit, _ | _⟩ <;> rfl

end Athar.Daemon
