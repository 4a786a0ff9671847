import Athar.Ingest.GapEmission
import Athar.Ingest.NoSilentLoss
import Athar.Lib.Queues
import Athar.Wire.Custody

/-!
This module contains several shims with one daemon. Every flush opens a connection of its own, the daemon
reads its connections in any order, and in between it reports what it dropped. What a shim observes is
followed from its buffer to the evidence log and the audit chain.
-/

namespace Athar.Wire

open Shim Records Incremental Audit Storage

variable {c : Crates} {d : Detection} {ν : Type*} [DecidableEq ν]

variable (c) in
inductive DeploymentCall (ν : Type*) where
  | shim (host : ν) (call : LinkCall)
  -- The next frame of a connection is ingested, with what else the daemon reads then.
  | ingest (connection : Nat) (io : Frame c)
  | emit (io : EmitIo c)

variable (c d) in
-- The calls so far are kept beside the parties: the frames that were ingested, each with the host that it
-- came from, and the coverage gaps that were committed, each with its payload.
structure Deployment (ν : Type*) where
  links : ν → Link
  connections : List (ν × List (List UInt8))
  server : IngestServer c d
  ingested : List (ν × Frame c)
  gaps : List (CoverageGapSummary × List UInt8)

namespace Deployment

section Step

variable (floatText : ℚ → String) (text : Json → List UInt8)
  (decode : List UInt8 → Found UInt8 (List UInt8)) (json : SerdeJson)
  (toVec : CoverageGapSummary → Nat → Option (List UInt8))

-- The frames that a call of a shim delivers.
def arrivals (l : Link) (call : LinkCall) : List (List UInt8) :=
  (l.step floatText text decode call).received.drop l.received.length

def step (st : Deployment c d ν) : DeploymentCall c ν → Deployment c d ν
  | .shim host call =>
    { st with
      links := Function.update st.links host ((st.links host).step floatText text decode call)
      connections :=
        st.connections ++ [(host, arrivals floatText text decode (st.links host) call)] }
  | .ingest connection io =>
    match Queues.take connection st.connections with
    | none => st
    | some ((host, bytes), connections) =>
      let frame := { io with bytes }
      { st with
        connections
        server := (st.server.ingestOne json frame).1
        ingested := st.ingested ++ [(host, frame)] }
  | .emit io =>
    let (server, emitted) := st.server.emitCoverageGapIfAny toVec io
    let gap := emitted.bind fun summary => (toVec summary io.recordedAtMs).map (summary, ·)
    { st with server, gaps := st.gaps ++ gap.toList }

def start (runtimes : ν → Runtime) (maxFrames maxBytes : Int) (server : IngestServer c d)
    : Deployment c d ν where
  links host := .start (runtimes host) maxFrames maxBytes
  connections := []
  server
  ingested := []
  gaps := []

-- What the sockets took arrives, loss records are written, the daemon handles the frames that it ingests,
-- and a gap that it reports gets into both logs.
def Handled (st : Deployment c d ν) : DeploymentCall c ν → Prop
  | .shim _ call => call.Arrives ∧ call.Spools
  | .ingest connection io =>
    ∀ taken ∈ Queues.take connection st.connections,
      IngestRun.Handled json ⟨st.server, []⟩ { io with bytes := taken.1.2 }
  | .emit io =>
    ∀ summary, st.server.drops.take.2 = some summary →
      ∃ payload, toVec summary io.recordedAtMs = some payload
        ∧ st.server.log.Accepts payload io.logIo
        ∧ payload.length < 256 ^ RECORD_HEADER_BYTES
        ∧ st.server.audit.Commits io.auditIo

-- The canonical bytes of the events that got past the gate.
def admitted (st : Deployment c d ν) : List (List UInt8) :=
  st.ingested.flatMap fun e =>
    if e.2.level.allows .p1 then ((e.2.event? json).map json.toVec).toList else []

def shed (st : Deployment c d ν) : Nat :=
  st.ingested.countP fun e => !e.2.level.allows .p1

def reported (st : Deployment c d ν) : Nat :=
  (st.gaps.map fun gap => gap.1.frames.toNat).sum

-- What the logs should hold.
def payloads (st : Deployment c d ν) : Multiset (List UInt8) :=
  ↑(st.admitted json) + ↑(st.gaps.map Prod.snd)

structure Accounted (firstEvidence firstAudit : Nat) (st : Deployment c d ν) : Prop where
  -- Every frame that a shim observed is in its buffer, was received, or is counted by the shim.
  custody : ∀ host, ∃ gone : List (Json × Fate),
    (st.links host).Custody text gone ∧ framesWith .vanished gone = [] ∧ framesWith .unrecorded gone = []
  -- Every frame that was received from a shim was ingested once, or waits to be.
  handed : ∀ host, ((st.links host).received : Multiset (List UInt8))
    = Queues.takenBy host (st.ingested.map fun e => (e.1, e.2.bytes))
      + Queues.waiting host st.connections
  -- The logs hold the events that were ingested and the gaps, nothing else and nothing twice.
  evidence : (st.server.log.evidenceSince firstEvidence : Multiset (List UInt8)) = st.payloads json
  commitments : (st.server.audit.commitmentsSince firstAudit : Multiset Hash)
    = (st.payloads json).map (payloadCommitment c)
  -- The other frames are counted in a gap, or will be in the next one.
  drops : (st.reported + st.server.drops.frames.toNat) % 2 ^ 64 = st.shed % 2 ^ 64

end Step

section Log

theorem observe_commits (hc : c.Lawful) {firstAudit : Nat} {w : AuditChainWriter c}
    (haudit : ∃ observed, WriterRun.Inv firstAudit ⟨w, observed⟩) (kind : String) (payload : List UInt8)
    (nowUs : Int64) {outcome : WriteOutcome c.Text} (hcommits : w.Commits outcome)
    : (∃ observed, WriterRun.Inv firstAudit ⟨(w.observe kind payload nowUs outcome).1, observed⟩)
        ∧ (w.observe kind payload nowUs outcome).1.commitmentsSince firstAudit
          = w.commitmentsSince firstAudit ++ [payloadCommitment c payload] := by
  rcases haudit with ⟨observed, hinv⟩
  have hnext : WriterRun.Inv firstAudit
      (WriterRun.step ⟨w, observed⟩ (.observe kind payload nowUs outcome)) :=
    hinv.step hc hcommits
  refine ⟨⟨_, hnext⟩, ?_⟩
  rw [IngestRun.commitments_of_inv hinv]
  refine (IngestRun.commitments_of_inv hnext).trans ?_
  exact List.map_append

variable {firstEvidence firstAudit : Nat} {s : IngestServer c d} {written : List (List UInt8)}
  {toVec : CoverageGapSummary → Nat → Option (List UInt8)} {io : EmitIo c}

-- A gap that is reported is written behind what the logs hold already.
theorem emit_writes (hc : c.Lawful) (h : IngestRun.Inv firstEvidence firstAudit ⟨s, written⟩)
    {summary : CoverageGapSummary} (htake : s.drops.take.2 = some summary) {payload : List UInt8}
    (hpayload : toVec summary io.recordedAtMs = some payload)
    (haccepts : s.log.Accepts payload io.logIo) (hshort : payload.length < 256 ^ RECORD_HEADER_BYTES)
    (hcommits : s.audit.Commits io.auditIo)
    : IngestRun.Inv firstEvidence firstAudit
        ⟨(s.emitCoverageGapIfAny toVec io).1, written ++ [payload]⟩ := by
  have hbefore : s.log.evidenceSince firstEvidence = written := h.evidence_eq
  have hinv : SegmentLog.Inv firstEvidence s.log := h.log
  have hobserved : ∃ observed, WriterRun.Inv firstAudit ⟨s.audit, observed⟩ := h.audit
  rcases hinv.append haccepts hshort with ⟨log, receipt, heq, hlog, hevidence⟩
  rcases observe_commits hc hobserved "coverage_gap" payload io.nowUs hcommits with
    ⟨haudit, hcommitments⟩
  have hserver : (s.emitCoverageGapIfAny toVec io).1
      = { s with
          drops := s.drops.take.1
          log
          audit := (s.audit.observe "coverage_gap" payload io.nowUs io.auditIo).1 } := by
    have hok := AuditChainWriter.observe_ok hcommits "coverage_gap" payload io.nowUs
    unfold IngestServer.emitCoverageGapIfAny
    generalize s.drops.take = taken at htake
    rcases taken with ⟨drops, taken⟩
    dsimp only at htake
    subst htake
    dsimp only
    rw [hpayload]
    dsimp only
    rw [heq]
    generalize s.audit.observe "coverage_gap" payload io.nowUs io.auditIo = observed at hok
    rcases observed with ⟨audit, result⟩
    dsimp only at hok
    subst hok
    rfl
  rw [hserver]
  constructor
  . exact hlog
  . rw [hbefore] at hevidence
    exact hevidence
  . exact haudit
  . rw [List.map_append, ← h.commitments_eq]
    exact hcommitments

theorem emit_none (htake : s.drops.take.2 = none) : s.emitCoverageGapIfAny toVec io = (s, none) := by
  have hsame := (DropRun.take_none htake).2
  unfold IngestServer.emitCoverageGapIfAny
  generalize s.drops.take = taken at htake hsame
  rcases taken with ⟨drops, taken⟩
  dsimp only at htake hsame
  subst htake hsame
  rfl

end Log

variable {floatText : ℚ → String} {text : Json → List UInt8}
  {decode : List UInt8 → Found UInt8 (List UInt8)} {json : SerdeJson}
  {toVec : CoverageGapSummary → Nat → Option (List UInt8)} {maxBytes : Int}

theorem received_step (l : Link) (call : LinkCall)
    : (l.step floatText text decode call).received
        = l.received ++ arrivals floatText text decode l call := by
  have hpre : l.received <+: (l.step floatText text decode call).received := by
    unfold Link.step
    cases call with
    | observe event =>
      dsimp
      split
      . exact List.prefix_refl _
      . exact List.prefix_refl _
    | flush connected accepts sizes undelivered context spooled => exact List.prefix_append _ _
  exact (List.prefix_iff_eq_append.mp hpre).symm

-- The gate sheds the frame and counts it, or lets it pass and counts nothing.
theorem ingestOne_counts (json : SerdeJson) (s : IngestServer c d) (written : List (List UInt8))
    (frame : Frame c)
    : IngestRun.step json ⟨s, written⟩ frame
          = ⟨(s.ingestOne json frame).1, written
              ++ if frame.level.allows .p1 then ((frame.event? json).map json.toVec).toList else []⟩
        ∧ (s.ingestOne json frame).1.drops.frames
          = s.drops.frames + (if frame.level.allows .p1 then 0 else 1) := by
  have hingested := s.ingestOne_ingested json frame
  generalize hserver : (s.ingestOne json frame).1 = s' at hingested
  generalize (s.ingestOne json frame).2 = result at hingested
  have hkeeps : frame.level.allows .p1 = true → s'.drops = s.drops →
      IngestRun.step json ⟨s, written⟩ frame
          = ⟨s', written
              ++ if frame.level.allows .p1 then ((frame.event? json).map json.toVec).toList else []⟩
        ∧ s'.drops.frames = s.drops.frames + (if frame.level.allows .p1 then 0 else 1) := by
    intro hlevel hdrops
    rw [IngestRun.step_of_uncounted hserver hdrops, if_pos hlevel, if_pos hlevel, hdrops,
      UInt64.add_zero]
    exact ⟨rfl, rfl⟩
  cases hingested with
  | dropped hlevel =>
    unfold IngestRun.step
    dsimp only
    rw [hserver, if_neg hlevel, if_neg hlevel]
    dsimp only
    rw [if_neg (DropCounters.frames_record_ne _ _ _), List.append_nil]
    exact ⟨rfl, rfl⟩
  | status hlevel => exact hkeeps hlevel rfl
  | refused hlevel => exact hkeeps hlevel rfl
  | unappended hlevel => exact hkeeps hlevel rfl
  | uncommitted hlevel => exact hkeeps hlevel rfl
  | recorded hlevel => exact hkeeps hlevel rfl

structure Inv (json : SerdeJson) (text : Json → List UInt8) (maxBytes : Int)
    (firstEvidence firstAudit : Nat) (st : Deployment c d ν) : Prop where
  links : ∀ host, ∃ gone : List (Json × Fate),
    (st.links host).Holds text maxBytes gone ∧ framesWith .vanished gone = []
      ∧ framesWith .unrecorded gone = []
  handed : ∀ host, ((st.links host).received : Multiset (List UInt8))
    = Queues.takenBy host (st.ingested.map fun e => (e.1, e.2.bytes))
      + Queues.waiting host st.connections
  written : ∃ written, IngestRun.Inv firstEvidence firstAudit ⟨st.server, written⟩
    ∧ (written : Multiset (List UInt8)) = st.payloads json
  drops : (st.reported + st.server.drops.frames.toNat) % 2 ^ 64 = st.shed % 2 ^ 64

variable {firstEvidence firstAudit : Nat} {st : Deployment c d ν}

theorem Inv.accounted (h : Inv json text maxBytes firstEvidence firstAudit st)
    : Accounted text json firstEvidence firstAudit st := by
  rcases h.written with ⟨written, hinv, hwritten⟩
  constructor
  . intro host
    rcases h.links host with ⟨gone, hholds, hnone⟩
    exact ⟨gone, hholds.custody, hnone⟩
  . exact h.handed
  . rw [hinv.evidence_eq, hwritten]
  . rw [hinv.commitments_eq, ← hwritten, Multiset.map_coe]
  . exact h.drops

theorem Inv.shim (hdecode : LengthDelimitedCodec LENGTH_FIELD_LENGTH MAX_FRAME_LENGTH decode)
    (hmax : maxBytes ≤ MAX_FRAME_LENGTH) (h : Inv json text maxBytes firstEvidence firstAudit st)
    (host : ν) {call : LinkCall} (harrives : call.Arrives) (hspools : call.Spools)
    : Inv json text maxBytes firstEvidence firstAudit
        (st.step floatText text decode json toVec (.shim host call)) := by
  refine ⟨?_, ?_, h.written, h.drops⟩
  . intro other
    unfold step
    dsimp only
    by_cases hother : other = host
    . subst hother
      rcases h.links other with ⟨gone, hholds, hvanished, hunrecorded⟩
      rcases hholds.step hdecode hmax call with ⟨more, hnext, hmore, hmore'⟩
      refine ⟨gone ++ more, ?_, ?_, ?_⟩
      . rw [Function.update_self]
        exact hnext
      . rw [framesWith_append, hvanished, hmore harrives, List.append_nil]
      . rw [framesWith_append, hunrecorded, hmore' hspools, List.append_nil]
    . rw [Function.update_of_ne hother]
      exact h.links other
  . intro other
    unfold step
    dsimp only
    rw [Queues.waiting_append, ← Multiset.coe_add, ← Multiset.add_assoc, ← h.handed other]
    by_cases hother : other = host
    . subst hother
      rw [Function.update_self, received_step, ← Multiset.coe_add]
      simp [Queues.waiting]
    . rw [Function.update_of_ne hother]
      simp [Queues.waiting, Ne.symm hother]

theorem Inv.ingest (hc : c.Lawful) (h : Inv json text maxBytes firstEvidence firstAudit st)
    {connection : Nat} {io : Frame c} (hhandled : st.Handled json toVec (.ingest connection io))
    : Inv json text maxBytes firstEvidence firstAudit
        (st.step floatText text decode json toVec (.ingest connection io)) := by
  unfold step
  dsimp only
  split
  . exact h
  . next host bytes connections htake =>
    rcases h.written with ⟨written, hinv, hwritten⟩
    have hnext := hinv.step hc (hhandled _ htake)
    rcases ingestOne_counts json st.server written { io with bytes } with ⟨hstep, hframes⟩
    rw [hstep] at hnext
    refine ⟨h.links, ?_, ⟨_, hnext, ?_⟩, ?_⟩
    . intro other
      dsimp only
      rw [h.handed other, Queues.waiting_of_take htake other, List.map_append, Queues.takenBy_append,
        ← Multiset.coe_add, Multiset.add_assoc]
      rfl
    . rw [← Multiset.coe_add, hwritten, payloads, payloads, admitted, admitted, List.flatMap_append,
        ← Multiset.coe_add, Multiset.add_assoc, Multiset.add_comm (Multiset.ofList _) (Multiset.ofList _),
        ← Multiset.add_assoc, List.flatMap_singleton]
    . have hold := h.drops
      unfold shed reported at hold ⊢
      rw [List.countP_append, List.countP_singleton]
      dsimp only
      rw [hframes]
      cases hlevel : io.level.allows .p1 with
      | true => simpa [hlevel] using hold
      | false =>
        rw [if_neg (by simp), if_pos (by simp), DropRun.toNat_add_one]
        omega

theorem Inv.emit (hc : c.Lawful) (h : Inv json text maxBytes firstEvidence firstAudit st)
    {io : EmitIo c} (hhandled : st.Handled json toVec (.emit io))
    : Inv json text maxBytes firstEvidence firstAudit
        (st.step floatText text decode json toVec (.emit io)) := by
  unfold step
  dsimp only
  cases htake : st.server.drops.take.2 with
  | none =>
    rw [emit_none htake, Option.bind_none, Option.toList_none, List.append_nil]
    exact h
  | some summary =>
    rcases hhandled summary htake with ⟨payload, hpayload, haccepts, hshort, hcommits⟩
    rcases h.written with ⟨written, hinv, hwritten⟩
    have hnext := emit_writes hc hinv htake hpayload haccepts hshort hcommits
    have hemitted := st.server.emitCoverageGapIfAny_kept toVec io htake (by simp [hpayload]) hcommits
    rw [hemitted, Option.bind_some, hpayload, Option.map_some, Option.toList_some]
    refine ⟨h.links, h.handed, ⟨_, hnext, ?_⟩, ?_⟩
    . rw [← Multiset.coe_add, hwritten, payloads, payloads, List.map_append, ← Multiset.coe_add,
        ← Multiset.add_assoc]
      rfl
    . have hold := h.drops
      rcases DropRun.take_some htake with ⟨_, hreset, rfl⟩
      unfold reported shed at hold ⊢
      dsimp only
      rw [List.map_append, List.sum_append, st.server.emitCoverageGapIfAny_drops toVec io, hreset]
      simpa using hold

theorem Inv.step (hc : c.Lawful)
    (hdecode : LengthDelimitedCodec LENGTH_FIELD_LENGTH MAX_FRAME_LENGTH decode)
    (hmax : maxBytes ≤ MAX_FRAME_LENGTH) (h : Inv json text maxBytes firstEvidence firstAudit st)
    {call : DeploymentCall c ν} (hhandled : st.Handled json toVec call)
    : Inv json text maxBytes firstEvidence firstAudit
        (st.step floatText text decode json toVec call) := by
  cases call with
  | shim host call => exact h.shim hdecode hmax host hhandled.1 hhandled.2
  | ingest connection io => exact h.ingest hc hhandled
  | emit io => exact h.emit hc hhandled

theorem Inv.start {segments : SegmentStore c} {report : VerifyReport}
    (hverify : segments.verifyAll = .ok report) {logConfig : Storage.Config} {evidence : Storage.Dir}
    {signer : SigningKey} {auditRecordsPerSegment : Nat} {lifecycles : DynStore} {detection : d.State}
    {s : IngestServer c d}
    (hnew : IngestServer.new logConfig evidence segments signer auditRecordsPerSegment lifecycles
      detection = .ok s) (runtimes : ν → Runtime) (maxFrames : Int)
    : Inv json text maxBytes s.log.nextSegId s.audit.nextSegmentId
        (start runtimes maxFrames maxBytes s) := by
  refine ⟨?_, ?_, ⟨[], IngestRun.Inv.new hverify hnew, rfl⟩, ?_⟩
  . intro host
    exact ⟨[], Link.holds_start text (runtimes host) maxFrames maxBytes, rfl, rfl⟩
  . intro host
    rfl
  . have hdrops : s.drops.frames = 0 := by
      unfold IngestServer.new at hnew
      cases hopen : AuditChainWriter.open segments "tnt_default" signer with
      | error e =>
        rw [hopen] at hnew
        contradiction
      | ok w =>
        rw [hopen] at hnew
        cases hnew
        rfl
    unfold Deployment.start reported shed
    rw [hdrops]
    rfl

end Deployment

/--
Whatever several shims observe and however their flushes, the ingests of their frames and the reports of
dropped frames follow each other: if what the sockets took arrives, loss records are written and the daemon
handles what it ingests, then at every moment every observed frame is accounted for by its shim or was
received, every received frame waits or was ingested once, and every ingested event is in both logs or its
frame is counted in a coverage gap, or will be.
-/
theorem accounted_of_handled (hc : c.Lawful) {decode : List UInt8 → Found UInt8 (List UInt8)}
    (hdecode : LengthDelimitedCodec LENGTH_FIELD_LENGTH MAX_FRAME_LENGTH decode) {maxBytes : Int}
    (hmax : maxBytes ≤ MAX_FRAME_LENGTH) {segments : SegmentStore c} {report : VerifyReport}
    (hverify : segments.verifyAll = .ok report) {logConfig : Storage.Config} {evidence : Storage.Dir}
    {signer : SigningKey} {auditRecordsPerSegment : Nat} {lifecycles : DynStore} {detection : d.State}
    {s : IngestServer c d}
    (hnew : IngestServer.new logConfig evidence segments signer auditRecordsPerSegment lifecycles
      detection = .ok s) (floatText : ℚ → String) (text : Json → List UInt8) (json : SerdeJson)
    (toVec : CoverageGapSummary → Nat → Option (List UInt8)) (runtimes : ν → Runtime) (maxFrames : Int)
    (calls : List (DeploymentCall c ν))
    (hhandled : Run.Guarded (Deployment.step floatText text decode json toVec)
      (Deployment.Handled json toVec) (.start runtimes maxFrames maxBytes s) calls)
    : Run.Always (Deployment.step floatText text decode json toVec)
        (Deployment.Accounted text json s.log.nextSegId s.audit.nextSegmentId)
        (.start runtimes maxFrames maxBytes s) calls := by
  have hstart : Deployment.Inv json text maxBytes s.log.nextSegId s.audit.nextSegmentId
      (.start runtimes maxFrames maxBytes s) :=
    .start hverify hnew runtimes maxFrames
  have hinv := Run.always_of_guarded hstart (fun st call h hcall => h.step hc hdecode hmax hcall) hhandled
  exact hinv.mono fun st h => h.accounted

section Instances

-- A short text stands in for that of a payment event.
def shortJson : SerdeJson :=
  { SerdeJson.ofPayments [created] with
    fromSlice := fun bytes => if bytes = [1, 2] then some (paymentValue created) else none
    toVec := fun _ => [1, 2] }

-- One of two hosts sends a frame, and the daemon ingests it.
def oneOfTwo : List (DeploymentCall Crates.toy Bool) :=
  [.shim true (.observe (assoc [("data", .int 1)])),
    .shim true (.flush true [3, 9] [2] 0 ⟨7, 1000, "tnt_a"⟩ true), .ingest 0 (paymentFrame created 1000)]

theorem handled_oneOfTwo
    : Run.Guarded
        (Deployment.step toString (fun _ => [1, 2])
          (lengthDelimited LENGTH_FIELD_LENGTH MAX_FRAME_LENGTH) shortJson gapBytes)
        (Deployment.Handled shortJson gapBytes)
        (.start (fun _ => shim) 5000 1048576 (emptyServer smallLog 2 .sqlite)) oneOfTwo := by
  unfold oneOfTwo
  rw [Run.guarded_cons, Run.guarded_cons, Run.guarded_cons]
  refine ⟨⟨trivial, trivial⟩, ⟨rfl, rfl⟩, ?_, Run.guarded_nil _⟩
  intro taken _ event _ _
  have hquery : Frame.statusQuery shortJson { paymentFrame created 1000 with bytes := taken.1.2 }
      = false := by
    unfold Frame.statusQuery shortJson
    dsimp only
    split <;> rfl
  refine ⟨hquery, ?_, ?_, fun _ => rfl⟩
  . exact (by decide +kernel : (emptyServer smallLog 2 .sqlite).log.Accepts [1, 2]
      (paymentFrame created 1000).logIo)
  . exact (by decide : [1, 2].length < 256 ^ RECORD_HEADER_BYTES)

theorem accounted_of_handled_oneOfTwo
    : Run.Always
        (Deployment.step toString (fun _ => [1, 2])
          (lengthDelimited LENGTH_FIELD_LENGTH MAX_FRAME_LENGTH) shortJson gapBytes)
        (Deployment.Accounted (fun _ => [1, 2]) shortJson 0 0)
        (.start (fun _ => shim) 5000 1048576 (emptyServer smallLog 2 .sqlite)) oneOfTwo :=
  have hverify : SegmentStore.verifyAll (c := Crates.toy) ⟨∅⟩ = .ok ⟨0, 0⟩ := rfl
  accounted_of_handled Crates.toy_lawful (lengthDelimited_codec _ _) (by decide) hverify
    (new_emptyServer smallLog 2 .sqlite) toString (fun _ => [1, 2]) shortJson gapBytes (fun _ => shim) 5000
    oneOfTwo handled_oneOfTwo

end Instances

end Athar.Wire
