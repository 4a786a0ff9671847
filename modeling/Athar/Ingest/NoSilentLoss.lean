import Mathlib.Data.Multiset.Basic
import Athar.Audit.WriteFailure
import Athar.Ingest.Instance
import Athar.Lib.Run
import Athar.Storage.Lemmas

/-!
This module contains the accounting of ingested frames. A frame that is an event should end up in the
evidence log and the audit chain, or be counted as dropped. Only the pressure gate counts: a frame
that a later stage turns away, or that also carries the status flag, leaves no trace.
-/

namespace Athar

open Storage Audit

variable {c : Crates} {d : Detection} {json : SerdeJson}

variable (c d) in
structure IngestRun where
  server : IngestServer c d
  -- The canonical bytes of the events seen that moved no drop counter.
  uncounted : List (List UInt8)

-- The payloads committed since a segment id, persisted or pending.
def Audit.AuditChainWriter.commitmentsSince (w : AuditChainWriter c) (firstId : Nat) : List Hash :=
  (w.store.persistedSince firstId ++ w.inner.records.map (·.record)).map (·.payloadCommitment)

namespace IngestRun

variable (json) in
def step (st : IngestRun c d) (frame : Frame c) : IngestRun c d :=
  let server := (st.server.ingestOne json frame).1
  { server
    uncounted :=
      if server.drops.frames = st.server.drops.frames then
        st.uncounted ++ ((frame.event? json).map json.toVec).toList
      else
        st.uncounted }

structure Accounted (firstEvidence firstAudit : Nat) (st : IngestRun c d) : Prop where
  evidence : (st.uncounted : Multiset (List UInt8)) ≤ st.server.log.evidenceSince firstEvidence
  committed : (st.uncounted.map (payloadCommitment c) : Multiset Hash)
    ≤ st.server.audit.commitmentsSince firstAudit

-- The frame is shed at the gate, or it is no status query and both logs take it.
variable (json) in
def Handled (st : IngestRun c d) (frame : Frame c) : Prop :=
  ∀ event, frame.event? json = some event → frame.level.allows .p1 = true →
    frame.statusQuery json = false
      ∧ st.server.log.Accepts (json.toVec event) frame.logIo
      ∧ (json.toVec event).length < 256 ^ RECORD_HEADER_BYTES
      ∧ st.server.audit.Commits frame.auditIo

-- Along a run of handled frames the logs hold exactly the events that were not counted, in order.
structure Inv (firstEvidence firstAudit : Nat) (st : IngestRun c d) : Prop where
  log : SegmentLog.Inv firstEvidence st.server.log
  evidence_eq : st.server.log.evidenceSince firstEvidence = st.uncounted
  audit : ∃ observed, WriterRun.Inv firstAudit ⟨st.server.audit, observed⟩
  commitments_eq : st.server.audit.commitmentsSince firstAudit = st.uncounted.map (payloadCommitment c)

theorem Inv.accounted {firstEvidence firstAudit : Nat} {st : IngestRun c d}
    (h : Inv firstEvidence firstAudit st) : Accounted firstEvidence firstAudit st := by
  constructor
  . rw [h.evidence_eq]
  . rw [h.commitments_eq]

theorem commitments_of_inv {firstAudit : Nat} {w : AuditChainWriter c} {observed : List AuditRecord}
    (h : WriterRun.Inv firstAudit ⟨w, observed⟩)
    : w.commitmentsSince firstAudit = observed.map (·.payloadCommitment) := by
  have heq := h.observed_eq
  dsimp only at heq
  rw [heq, List.map_map]
  rfl

-- A commit that goes through adds its payload, whether or not it closes a segment.
theorem observe_commits (hc : c.Lawful) {firstAudit : Nat} {w : AuditChainWriter c}
    (haudit : ∃ observed, WriterRun.Inv firstAudit ⟨w, observed⟩) (payload : List UInt8)
    (nowUs : Int64) {outcome : WriteOutcome c.Text} (hcommits : w.Commits outcome)
    : (∃ observed, WriterRun.Inv firstAudit ⟨(w.observe "event" payload nowUs outcome).1, observed⟩)
        ∧ (w.observe "event" payload nowUs outcome).1.commitmentsSince firstAudit
          = w.commitmentsSince firstAudit ++ [payloadCommitment c payload] := by
  rcases haudit with ⟨observed, hinv⟩
  have hnext : WriterRun.Inv firstAudit
      (WriterRun.step ⟨w, observed⟩ (.observe "event" payload nowUs outcome)) :=
    hinv.step hc hcommits
  refine ⟨⟨_, hnext⟩, ?_⟩
  rw [commitments_of_inv hinv]
  refine (commitments_of_inv hnext).trans ?_
  exact List.map_append

-- A commit that fails loses what was pending, so the payloads on disk are all that is left.
theorem observe_loses (firstAudit : Nat) {w : AuditChainWriter c} (payload : List UInt8)
    (nowUs : Int64) {outcome : WriteOutcome c.Text} (hfails : ¬w.Commits outcome)
    : ((w.observe "event" payload nowUs outcome).1.commitmentsSince firstAudit).length
        ≤ (w.commitmentsSince firstAudit).length := by
  rcases Classical.not_imp.mp hfails with ⟨hfull, hfailed⟩
  have hne := AuditChainWriter.push_records_ne_nil w "event" payload nowUs
  rcases AuditChainWriter.closeSegment_of_ne_nil hne outcome with ⟨last, _, heq⟩
  rw [AuditChainWriter.observe_eq, AuditChainWriter.push_records_length, if_pos hfull, heq]
  unfold AuditChainWriter.commitmentsSince
  dsimp only
  rw [SegmentStore.persistedSince_write_of_ne_done _ _ _ hfailed]
  simp [ChainWriter.fromTip, AuditChainWriter.push]

theorem step_of_uncounted {st : IngestRun c d} {frame : Frame c} {s' : IngestServer c d}
    (h : (st.server.ingestOne json frame).1 = s') (hdrops : s'.drops = st.server.drops)
    : step json st frame
        = ⟨s', st.uncounted ++ ((frame.event? json).map json.toVec).toList⟩ := by
  subst h
  unfold step
  dsimp only
  rw [hdrops, if_pos rfl]

theorem Inv.step (hc : c.Lawful) {firstEvidence firstAudit : Nat} {st : IngestRun c d}
    (h : Inv firstEvidence firstAudit st) {frame : Frame c} (hhandled : st.Handled json frame)
    : Inv firstEvidence firstAudit (step json st frame) := by
  have hingested := st.server.ingestOne_ingested json frame
  generalize hserver : (st.server.ingestOne json frame).1 = s' at hingested
  generalize (st.server.ingestOne json frame).2 = result at hingested
  cases hingested with
  | dropped hlevel =>
    have hstep : IngestRun.step json st frame
        = ⟨{ st.server with
            drops := st.server.drops.record frame.bytes.length frame.nowMs }, st.uncounted⟩ := by
      unfold IngestRun.step
      rw [hserver]
      dsimp only
      rw [if_neg (DropCounters.frames_record_ne _ _ _)]
    rw [hstep]
    exact ⟨h.log, h.evidence_eq, h.audit, h.commitments_eq⟩
  | status hlevel hstatus body =>
    rw [step_of_uncounted hserver rfl]
    cases hevent : frame.event? json with
    | none =>
      rw [Option.map_none, Option.toList_none, List.append_nil]
      exact ⟨h.log, h.evidence_eq, h.audit, h.commitments_eq⟩
    | some event =>
      rw [(hhandled event hevent hlevel).1] at hstatus
      contradiction
  | refused hlevel hevent e =>
    rw [step_of_uncounted hserver rfl, hevent, Option.map_none, Option.toList_none, List.append_nil]
    exact h
  | unappended hlevel hstatus hevent happend =>
    rcases hhandled _ hevent hlevel with ⟨_, haccepts, hshort, _⟩
    rcases h.log.append haccepts hshort with ⟨log, receipt, heq, _⟩
    rw [heq] at happend
    contradiction
  | uncommitted hlevel hstatus hevent happend haudit =>
    rcases hhandled _ hevent hlevel with ⟨_, _, _, hcommits⟩
    rw [AuditChainWriter.observe_ok hcommits] at haudit
    contradiction
  | recorded hlevel hstatus hevent happend haudit =>
    rcases hhandled _ hevent hlevel with ⟨_, haccepts, hshort, hcommits⟩
    rcases h.log.append haccepts hshort with ⟨log, receipt, heq, hinv, hevidence⟩
    rcases observe_commits hc h.audit _ frame.nowUs hcommits with ⟨hobserved, hcommitments⟩
    rw [step_of_uncounted hserver rfl, hevent, Option.map_some, Option.toList_some]
    rw [heq]
    constructor
    . exact hinv
    . rw [← h.evidence_eq]
      exact hevidence
    . exact hobserved
    . rw [List.map_append, ← h.commitments_eq]
      exact hcommitments

theorem Accounted.length_le {firstEvidence firstAudit : Nat} {st : IngestRun c d}
    (h : Accounted firstEvidence firstAudit st)
    : st.uncounted.length ≤ (st.server.log.evidenceSince firstEvidence).length
        ∧ st.uncounted.length ≤ (st.server.audit.commitmentsSince firstAudit).length := by
  have hevidence := Multiset.card_le_card h.evidence
  have hcommitted := Multiset.card_le_card h.committed
  simp only [Multiset.coe_card, List.length_map] at hevidence hcommitted
  exact ⟨hevidence, hcommitted⟩

theorem not_accounted_of_evidence {firstEvidence firstAudit : Nat} {st : IngestRun c d}
    (h : (st.server.log.evidenceSince firstEvidence).length < st.uncounted.length)
    : ¬Accounted firstEvidence firstAudit st := by
  intro haccounted
  have := haccounted.length_le.1
  omega

theorem not_accounted_of_commitments {firstEvidence firstAudit : Nat} {st : IngestRun c d}
    (h : (st.server.audit.commitmentsSince firstAudit).length < st.uncounted.length)
    : ¬Accounted firstEvidence firstAudit st := by
  intro haccounted
  have := haccounted.length_le.2
  omega

-- An event that is not handled is neither counted nor in both logs.
theorem Inv.break {firstEvidence firstAudit : Nat} {st : IngestRun c d}
    (h : Inv firstEvidence firstAudit st) {frame : Frame c} (hunhandled : ¬st.Handled json frame)
    : ¬Accounted firstEvidence firstAudit (IngestRun.step json st frame) := by
  simp only [Handled, Classical.not_forall] at hunhandled
  rcases hunhandled with ⟨event, hevent, hallows, hreason⟩
  have huncounted : ∀ s', (st.server.ingestOne json frame).1 = s' →
      s'.drops = st.server.drops →
      IngestRun.step json st frame = ⟨s', st.uncounted ++ [json.toVec event]⟩ := by
    intro s' hserver hdrops
    rw [step_of_uncounted hserver hdrops, hevent]
    rfl
  have hevidence := congrArg List.length h.evidence_eq
  have hcommitments := congrArg List.length h.commitments_eq
  rw [List.length_map] at hcommitments
  have hingested := st.server.ingestOne_ingested json frame
  generalize hserver : (st.server.ingestOne json frame).1 = s' at hingested
  generalize (st.server.ingestOne json frame).2 = result at hingested
  cases hingested with
  | dropped hlevel => exact absurd hallows hlevel
  | status hlevel hstatus body =>
    rw [huncounted _ hserver rfl]
    apply not_accounted_of_evidence
    simp [hevidence]
  | refused hlevel hnone e =>
    rw [hevent] at hnone
    contradiction
  | unappended hlevel hstatus hevent' happend =>
    rw [huncounted _ hserver rfl]
    apply not_accounted_of_commitments
    simp [hcommitments]
  | uncommitted hlevel hstatus hevent' happend haudit =>
    rw [hevent, Option.some.injEq] at hevent'
    subst hevent'
    rw [huncounted _ hserver rfl]
    apply not_accounted_of_commitments
    have hfails : ¬st.server.audit.Commits frame.auditIo := by
      intro hcommits
      rw [AuditChainWriter.observe_ok hcommits] at haudit
      contradiction
    have := observe_loses firstAudit (json.toVec event) frame.nowUs hfails
    simp only [List.length_append, List.length_singleton]
    omega
  | recorded hlevel hstatus hevent' happend haudit =>
    rw [hevent, Option.some.injEq] at hevent'
    subst hevent'
    have haccepts : st.server.log.Accepts (json.toVec event) frame.logIo := by
      by_contra hrejects
      rcases SegmentLog.append_error hrejects with ⟨e, he⟩
      rw [he] at happend
      contradiction
    have hcommits : st.server.audit.Commits frame.auditIo := by
      by_contra hfails
      rcases AuditChainWriter.observe_error hfails "event" (json.toVec event) frame.nowUs
        with ⟨e, he⟩
      rw [he] at haudit
      contradiction
    -- Only its length is left: the prefix of the record cannot hold it.
    have hlong : ¬(json.toVec event).length < 256 ^ RECORD_HEADER_BYTES := by
      intro hshort
      exact hreason ⟨hstatus, haccepts, hshort, hcommits⟩
    rw [huncounted _ hserver rfl]
    intro haccounted
    have hmem := Multiset.mem_of_le haccounted.evidence
      (Multiset.mem_coe.mpr (List.mem_append_right _ (List.mem_singleton_self _)))
    exact hlong (SegmentLog.length_lt_of_mem_evidenceSince (Multiset.mem_coe.mp hmem))

theorem Inv.new {logConfig : Storage.Config} {evidence : Storage.Dir} {segments : SegmentStore c}
    {report : VerifyReport} (hverify : segments.verifyAll = .ok report) {signer : SigningKey}
    {auditRecordsPerSegment : Nat} {lifecycles : DynStore} {detection : d.State}
    {s : IngestServer c d}
    (hnew : IngestServer.new logConfig evidence segments signer auditRecordsPerSegment lifecycles
      detection = .ok s)
    : Inv s.log.nextSegId s.audit.nextSegmentId ⟨s, []⟩ := by
  rcases AuditChainWriter.Synced.open hverify "tnt_default" signer with
    ⟨w, segs, hopen, _, hpending, _, _, _, _, hsynced⟩
  simp only [IngestServer.new, hopen, bind, Except.bind, pure, Except.pure, Except.ok.injEq] at hnew
  subst hnew
  have haudit := WriterRun.Inv.init hsynced hpending auditRecordsPerSegment
  constructor
  . exact SegmentLog.Inv.open logConfig evidence
  . exact SegmentLog.evidenceSince_open logConfig evidence
  . exact ⟨[], haudit⟩
  . exact commitments_of_inv haudit

end IngestRun

/--
From the start of a server, every event is in both logs or counted as dropped at every moment if and
only if every frame that is an event and passes the gate is no status query, is accepted by the
evidence log, and is committed without a failed write.
-/
theorem accounted_iff_handled (hc : c.Lawful) {segments : SegmentStore c} {report : VerifyReport}
    (hverify : segments.verifyAll = .ok report) {logConfig : Storage.Config}
    {evidence : Storage.Dir} {signer : SigningKey} {auditRecordsPerSegment : Nat}
    {lifecycles : DynStore} {detection : d.State} {s : IngestServer c d}
    (hnew : IngestServer.new logConfig evidence segments signer auditRecordsPerSegment lifecycles
      detection = .ok s) (frames : List (Frame c))
    : Run.Always (IngestRun.step json)
          (IngestRun.Accounted s.log.nextSegId s.audit.nextSegmentId) ⟨s, []⟩ frames
        ↔ Run.Guarded (IngestRun.step json) (IngestRun.Handled json) ⟨s, []⟩ frames := by
  apply Run.always_iff_guarded (IngestRun.Inv.new hverify hnew)
  . intro st frame hinv hhandled
    exact hinv.step hc hhandled
  . intro st hinv
    exact hinv.accounted
  . intro st frame hinv hunhandled
    exact hinv.break hunhandled

theorem accounted_iff_handled_created
    : Run.Always (IngestRun.step (.ofPayments [created])) (IngestRun.Accounted 0 0)
          ⟨emptyServer smallLog 2 .sqlite, []⟩ [paymentFrame created 1000]
        ↔ Run.Guarded (IngestRun.step (.ofPayments [created]))
          (IngestRun.Handled (.ofPayments [created]))
          ⟨emptyServer smallLog 2 .sqlite, []⟩ [paymentFrame created 1000] :=
  have hverify : SegmentStore.verifyAll (c := Crates.toy) ⟨∅⟩ = .ok ⟨0, 0⟩ := rfl
  accounted_iff_handled Crates.toy_lawful hverify (new_emptyServer smallLog 2 .sqlite) _

-- The quota of the log is used up, the record is too large for it, the audit segment cannot be
-- renamed: the event is in neither log or in one of them, and no drop is counted.
theorem created_lost
    : ¬Run.Always (IngestRun.step (.ofPayments [created])) (IngestRun.Accounted 0 0)
          ⟨emptyServer { smallLog with quota := ⟨0⟩ } 2 .sqlite, []⟩ [paymentFrame created 1000]
      ∧ ¬Run.Always (IngestRun.step (.ofPayments [created])) (IngestRun.Accounted 0 0)
          ⟨emptyServer { smallLog with maxRecordBytes := 4 } 2 .sqlite, []⟩
          [paymentFrame created 1000]
      ∧ ¬Run.Always (IngestRun.step (.ofPayments [created])) (IngestRun.Accounted 0 0)
          ⟨emptyServer smallLog 1 .sqlite, []⟩
          [{ paymentFrame created 1000 with auditIo := .renameFailed }] := by
  refine ⟨?_, ?_, ?_⟩
  . intro h
    have := h.last.length_le.1
    revert this
    decide +kernel
  . intro h
    have := h.last.length_le.1
    revert this
    decide +kernel
  . intro h
    have := h.last.length_le.2
    revert this
    decide +kernel

end Athar
