import Athar.Audit.Kept
import Athar.Spool.Lemmas
import Athar.Storage.Process

/-!
This module contains what the two stores hold of the records that were ingested. The evidence log has one
record for each append. The audit chain has one commitment, on disk or pending, for each commit, except those
that a failed write of their segment has taken out of it.
-/

namespace Athar.Spool

open Storage Audit

variable {c : Crates} {F : Type} (json : SpoolJson)

def RecordOf (gap : Gap F) (data : List UInt8) : Prop :=
  ∃ nowMs, data = json.toVec (coverageGap gap.record nowMs)

variable (c) in
def CommitmentOf (gap : Gap F) (r : AuditRecord) : Prop :=
  r.kind = "coverage_gap"
    ∧ ∃ nowMs, r.payloadCommitment = payloadCommitment c (json.toVec (coverageGap gap.record nowMs))

namespace Stores

/--
The log has what it had before and then one record for each appended gap. The chain has what it kept of what it
had before and then one commitment for each gap of `chained`.
-/
structure Held (firstEvidence firstAudit : Nat) (before st : Stores c F) : Prop where
  evidence : ∃ records,
    st.log.evidenceSince firstEvidence = before.log.evidenceSince firstEvidence ++ records
      ∧ List.Forall₂ (RecordOf json) st.appended records
  commitments : ∃ kept records,
    st.audit.recordsSince firstAudit = kept ++ records
      ∧ kept.Sublist (before.audit.recordsSince firstAudit)
      ∧ List.Forall₂ (CommitmentOf c json) st.chained records

structure Inv (firstEvidence firstAudit : Nat) (before st : Stores c F) : Prop where
  held : Held json firstEvidence firstAudit before st
  log : st.log.Inv firstEvidence
  short : st.log.config.maxRecordBytes < 256 ^ RECORD_HEADER_BYTES
  audit : st.audit.Fresh firstAudit
  sublist : st.chained.Sublist st.appended

variable {json} {firstEvidence firstAudit : Nat} {before st : Stores c F} {gap : Gap F} {io : RecordIo c}

-- What is left of the chain when it loses its pending records.
theorem Held.unchain (h : Held json firstEvidence firstAudit before st)
    : ∃ kept records, st.audit.store.persistedSince firstAudit = kept ++ records
        ∧ kept.Sublist (before.audit.recordsSince firstAudit)
        ∧ List.Forall₂ (CommitmentOf c json) st.unchain records := by
  rcases h.commitments with ⟨kept, records, heq, hkept, hrecords⟩
  have hlength : (kept ++ records).length - st.audit.pendingRecords - kept.length
      = st.chained.length - st.audit.pendingRecords := by
    rw [List.length_append, hrecords.length_eq]
    omega
  have hleft := st.audit.take_recordsSince firstAudit
  rw [heq, List.take_append, hlength] at hleft
  exact ⟨_, _, hleft.symm, (List.take_sublist _ kept).trans hkept, List.forall₂_take _ hrecords⟩

theorem recordOf_append {appended : List (Gap F)} {records : List (List UInt8)}
    (h : List.Forall₂ (RecordOf json) appended records) (gap : Gap F) (io : RecordIo c)
    : List.Forall₂ (RecordOf json) (appended ++ [gap]) (records ++ [payload json gap io]) :=
  List.rel_append h (.cons ⟨io.nowMs, rfl⟩ .nil)

theorem commitmentOf_append {chained : List (Gap F)} {records : List AuditRecord}
    (h : List.Forall₂ (CommitmentOf c json) chained records) (gap : Gap F) (io : RecordIo c)
    (w : AuditChainWriter c)
    : List.Forall₂ (CommitmentOf c json) (chained ++ [gap])
        (records ++ [w.nextRecord "coverage_gap" (payload json gap io) io.nowUs]) :=
  List.rel_append h (.cons ⟨rfl, io.nowMs, rfl⟩ .nil)

theorem Inv.refused (h : Inv json firstEvidence firstAudit before st) (hrefused : ¬st.Accepts json gap io)
    (hwhole : ¬io.logIo.Tears)
    : Inv json firstEvidence firstAudit before { st with log := st.logAfter json gap io } := by
  rcases h.log.append_refused hrefused hwhole with ⟨hinv, hevidence⟩
  constructor
  . constructor
    . rcases h.held.evidence with ⟨records, heq, hrecords⟩
      exact ⟨records, hevidence.trans heq, hrecords⟩
    . exact h.held.commitments
  . exact hinv
  . unfold logAfter
    rw [SegmentLog.append_config]
    exact h.short
  . exact h.audit
  . exact h.sublist

theorem Inv.append (h : Inv json firstEvidence firstAudit before st) (haccepts : st.Accepts json gap io)
    : (st.logAfter json gap io).Inv firstEvidence
        ∧ (st.logAfter json gap io).config = st.log.config
        ∧ ∃ records, (st.logAfter json gap io).evidenceSince firstEvidence
            = before.log.evidenceSince firstEvidence ++ records
          ∧ List.Forall₂ (RecordOf json) (st.appended ++ [gap]) records := by
  have hshort : (payload json gap io).length < 256 ^ RECORD_HEADER_BYTES :=
    Nat.lt_of_le_of_lt haccepts.size h.short
  rcases h.log.append haccepts hshort with ⟨log, receipt, happend, hinv, hevidence⟩
  rcases h.held.evidence with ⟨records, heq, hrecords⟩
  have hlog : st.logAfter json gap io = log := congrArg (·.1) happend
  refine ⟨hlog ▸ hinv, SegmentLog.append_config st.log _ _, _, ?_, recordOf_append hrecords gap io⟩
  rw [hlog, hevidence, heq, List.append_assoc]

theorem Inv.uncommitted (hc : c.Lawful) (h : Inv json firstEvidence firstAudit before st)
    (haccepts : st.Accepts json gap io) (hfails : ¬st.audit.Commits io.auditIo)
    : Inv json firstEvidence firstAudit before
        ⟨st.logAfter json gap io, st.auditAfter json gap io, st.appended ++ [gap], st.committed,
          st.unchain⟩ := by
  rcases h.append haccepts with ⟨hinv, hconfig, hevidence⟩
  constructor
  . refine ⟨hevidence, ?_⟩
    rcases h.held.unchain with ⟨kept, records, heq, hkept, hrecords⟩
    refine ⟨kept, records, ?_, hkept, hrecords⟩
    rw [← heq]
    exact AuditChainWriter.recordsSince_observe_fails hfails firstAudit _ _ _
  . exact hinv
  . rw [hconfig]
    exact h.short
  . exact (h.audit.observe hc _ _ _ _).1
  . exact ((List.take_sublist _ _).trans h.sublist).trans (List.sublist_append_left _ _)

theorem Inv.committed (hc : c.Lawful) (h : Inv json firstEvidence firstAudit before st)
    (haccepts : st.Accepts json gap io) (hcommits : st.audit.Commits io.auditIo)
    : Inv json firstEvidence firstAudit before
        ⟨st.logAfter json gap io, st.auditAfter json gap io, st.appended ++ [gap],
          st.committed ++ [gap], st.chained ++ [gap]⟩ := by
  rcases h.append haccepts with ⟨hinv, hconfig, hevidence⟩
  constructor
  . refine ⟨hevidence, ?_⟩
    rcases h.held.commitments with ⟨kept, records, heq, hkept, hrecords⟩
    refine ⟨kept, _, ?_, hkept, commitmentOf_append hrecords gap io st.audit⟩
    rw [← List.append_assoc, ← heq]
    exact AuditChainWriter.recordsSince_observe hc h.audit hcommits _ _ _
  . exact hinv
  . rw [hconfig]
    exact h.short
  . exact (h.audit.observe hc _ _ _ _).1
  . exact h.sublist.append (List.Sublist.refl _)

theorem Inv.ingestRecord (hc : c.Lawful) (h : Inv json firstEvidence firstAudit before st)
    (gap : Gap F) (hwhole : ¬io.logIo.Tears)
    : Inv json firstEvidence firstAudit before (st.ingestRecord json gap io).1 := by
  by_cases haccepts : st.Accepts json gap io
  . by_cases hcommits : st.audit.Commits io.auditIo
    . rw [ingestRecord_ok haccepts hcommits]
      exact h.committed hc haccepts hcommits
    . rcases ingestRecord_uncommitted haccepts hcommits with ⟨e, heq⟩
      rw [heq]
      exact h.uncommitted hc haccepts hcommits
  . rcases ingestRecord_refused haccepts with ⟨e, heq⟩
    rw [heq]
    exact h.refused haccepts hwhole

theorem Inv.ingestGaps (hc : c.Lawful) (h : Inv json firstEvidence firstAudit before st)
    {ios : Nat → RecordIo c} (hwhole : ∀ n, ¬(ios n).logIo.Tears) (gaps : List (Gap F))
    : Inv json firstEvidence firstAudit before (ingestGaps json ios gaps st).1 := by
  apply ingestGaps_keeps h
  intro st hst gap _
  exact hst.ingestRecord hc gap (hwhole gap.lineNo)

end Stores

end Athar.Spool
