import Mathlib.Data.Multiset.Basic
import Athar.Lib.Run
import Athar.Audit.Instance
import Athar.Audit.Process
import Athar.Audit.Lemmas.Writer

/-!
This module contains runs of one audit chain writer in which the write of a segment may fail.
Closing a segment takes the pending records and advances the tip before it writes, so a failed write
loses the records and leaves a hole in the chain. The directory stays verifiable and every observed
record stays accounted for along exactly the runs in which no attempted write fails.
-/

namespace Athar.Audit

def AuditRecord.unnumbered (r : AuditRecord) : AuditRecord := { r with seq := 0 }

variable {c : Crates}

variable (c) in
structure WriterRun where
  writer : AuditChainWriter c
  observed : List AuditRecord

namespace WriterRun

def step (st : WriterRun c) (call : Call c) : WriterRun c where
  writer := call.apply st.writer
  observed := st.observed ++ call.observed st.writer

structure NothingLost (firstId : Nat) (st : WriterRun c) : Prop where
  verifies : ∃ report, st.writer.store.verifyAll = .ok report
  accounted : (st.observed : Multiset AuditRecord)
    ≤ ((st.writer.store.persistedSince firstId
        ++ st.writer.inner.records.map (·.record)).map AuditRecord.unnumbered : List AuditRecord)
  flushed : (st.observed : Multiset AuditRecord)
    ≤ (((st.writer.flush .done).1.store.persistedSince firstId).map AuditRecord.unnumbered
        : List AuditRecord)

def WriteSucceeds (st : WriterRun c) (call : Call c) : Prop :=
  call.Writes st.writer → call.outcome = .done

end WriterRun

namespace SegmentStore

theorem recordsIn_congr {s s' : SegmentStore c} {id : Nat} (h : s'.read id = s.read id)
    : s'.recordsIn id = s.recordsIn id := by
  simp [recordsIn, h]

theorem persistedSince_write_of_ne_done (s : SegmentStore c) (seg : Segment) (firstId : Nat)
    {outcome : WriteOutcome c.Text} (h : outcome ≠ .done)
    : (s.write seg outcome).1.persistedSince firstId = s.persistedSince firstId := by
  have hrecords : (s.write seg outcome).1.recordsIn = s.recordsIn := by
    funext id
    exact recordsIn_congr (read_write_of_ne_done s seg h id)
  simp [persistedSince, list_write_of_ne_done s seg h, hrecords]

theorem persistedSince_write_done (hc : c.Lawful) (s : SegmentStore c) (seg : Segment)
    {firstId : Nat} (hfresh : ∀ id ∈ s.list, id < seg.segmentId) (hfirst : firstId ≤ seg.segmentId)
    : (s.write seg .done).1.persistedSince firstId
        = s.persistedSince firstId ++ seg.records.map (·.record) := by
  have hold : (s.list.filter (firstId ≤ ·)).flatMap (s.write seg .done).1.recordsIn
      = (s.list.filter (firstId ≤ ·)).flatMap s.recordsIn := by
    apply List.flatMap_congr
    intro id hid
    have hlt := hfresh id (List.mem_of_mem_filter hid)
    exact recordsIn_congr (read_write_done_of_ne s seg (Nat.ne_of_lt hlt))
  have hnew : (s.write seg .done).1.recordsIn seg.segmentId = seg.records.map (·.record) := by
    simp [recordsIn, read_write_done hc s seg]
  unfold persistedSince
  rw [list_write_done s seg hfresh, List.filter_append, List.flatMap_append, hold]
  simp [hfirst, hnew]

end SegmentStore

namespace WriterRun

-- What a run without failed writes maintains: nothing observed is missing, and in order.
structure Inv (firstId : Nat) (st : WriterRun c) : Prop where
  synced : ∃ segs, st.writer.Synced segs
  first_le : firstId ≤ st.writer.nextSegmentId
  observed_eq : st.observed = (st.writer.store.persistedSince firstId
      ++ st.writer.inner.records.map (·.record)).map AuditRecord.unnumbered

theorem closeSegment_persistedSince (hc : c.Lawful) {w : AuditChainWriter c} {segs : List Segment}
    (h : w.Synced segs) {firstId : Nat} (hfirst : firstId ≤ w.nextSegmentId)
    : (w.closeSegment .done).1.store.persistedSince firstId
        = w.store.persistedSince firstId ++ w.inner.records.map (·.record) := by
  by_cases hne : w.inner.records = []
  . simp [AuditChainWriter.closeSegment_of_nil hne, hne]
  . rcases AuditChainWriter.closeSegment_of_ne_nil hne .done with ⟨last, _, heq⟩
    rw [heq]
    exact SegmentStore.persistedSince_write_done hc _ w.pendingSegment h.fresh hfirst

theorem closeSegment_records (w : AuditChainWriter c) (outcome : WriteOutcome c.Text)
    : (w.closeSegment outcome).1.inner.records = [] := by
  by_cases hne : w.inner.records = []
  . rw [AuditChainWriter.closeSegment_of_nil hne, hne]
  . rcases AuditChainWriter.closeSegment_of_ne_nil hne outcome with ⟨last, _, heq⟩
    rw [heq]
    rfl

theorem Inv.closeSegment (hc : c.Lawful) {firstId : Nat} {st : WriterRun c} (h : Inv firstId st)
    : Inv firstId ⟨(st.writer.closeSegment .done).1, st.observed⟩ := by
  rcases h.synced with ⟨segs, hsynced⟩
  by_cases hne : st.writer.inner.records = []
  . rw [AuditChainWriter.closeSegment_of_nil hne]
    exact h
  . constructor
    . exact ⟨_, hsynced.closeSegment hc hne⟩
    . rcases AuditChainWriter.closeSegment_of_ne_nil hne .done with ⟨last, _, heq⟩
      have := h.first_le
      simp only [heq]
      omega
    . simp only [closeSegment_persistedSince hc hsynced h.first_le, closeSegment_records]
      simpa using h.observed_eq

theorem Inv.push {firstId : Nat} {st : WriterRun c} (h : Inv firstId st) (kind : String)
    (payload : List UInt8) (nowUs : Int64)
    : Inv firstId ⟨st.writer.push kind payload nowUs,
        st.observed ++ [st.writer.recordOf kind payload nowUs]⟩ := by
  constructor
  . rcases h.synced with ⟨segs, hsynced⟩
    exact ⟨segs, hsynced.push kind payload nowUs⟩
  . exact h.first_le
  . rw [h.observed_eq]
    simp [AuditChainWriter.push, ChainWriter.append, AuditRecord.unnumbered,
      AuditChainWriter.recordOf]

theorem Inv.step (hc : c.Lawful) {firstId : Nat} {st : WriterRun c} {call : Call c}
    (h : Inv firstId st) (hsucceeds : st.WriteSucceeds call) : Inv firstId (st.step call) := by
  have hclose : st.writer.inner.records ≠ [] → call.outcome = .done → Inv firstId
      ⟨(st.writer.closeSegment call.outcome).1, st.observed⟩ := by
    intro _ hdone
    rw [hdone]
    exact h.closeSegment hc
  cases call with
  | observe kind payload nowUs outcome =>
    have hpush := h.push kind payload nowUs
    simp only [WriterRun.step, Call.apply, Call.observed, AuditChainWriter.observe_eq]
    split
    . next hfull =>
      have hdone : outcome = .done := by
        apply hsucceeds
        rw [AuditChainWriter.push_records_length] at hfull
        exact hfull
      rw [hdone]
      exact hpush.closeSegment hc
    . exact hpush
  | closeSegment outcome =>
    simp only [WriterRun.step, Call.apply, Call.observed, List.append_nil]
    by_cases hne : st.writer.inner.records = []
    . rw [AuditChainWriter.closeSegment_of_nil hne]
      exact h
    . exact hclose hne (hsucceeds hne)
  | flush outcome =>
    simp only [WriterRun.step, Call.apply, Call.observed, List.append_nil, AuditChainWriter.flush]
    by_cases hne : st.writer.inner.records = []
    . rw [AuditChainWriter.closeSegment_of_nil hne]
      exact h
    . exact hclose hne (hsucceeds hne)

theorem Inv.nothingLost (hc : c.Lawful) {firstId : Nat} {st : WriterRun c} (h : Inv firstId st)
    : NothingLost firstId st := by
  rcases h.synced with ⟨segs, hsynced⟩
  constructor
  . exact ⟨_, hsynced.verifyAll⟩
  . rw [h.observed_eq]
  . rw [h.observed_eq, AuditChainWriter.flush,
      closeSegment_persistedSince hc hsynced h.first_le]

-- A failed write drops the pending records and leaves the segments on disk as they are.
theorem closeSegment_not_accounted {firstId : Nat} {w : AuditChainWriter c}
    {outcome : WriteOutcome c.Text} {observed : List AuditRecord}
    (hobserved : observed = (w.store.persistedSince firstId
      ++ w.inner.records.map (·.record)).map AuditRecord.unnumbered)
    (hne : w.inner.records ≠ []) (hfailed : outcome ≠ .done)
    : ¬NothingLost firstId ⟨(w.closeSegment outcome).1, observed⟩ := by
  intro hlost
  rcases AuditChainWriter.closeSegment_of_ne_nil hne outcome with ⟨last, _, heq⟩
  have hcard := Multiset.card_le_card hlost.accounted
  have hpos := List.length_pos_iff.mpr hne
  simp only [heq, hobserved, SegmentStore.persistedSince_write_of_ne_done _ _ _ hfailed,
    ChainWriter.fromTip] at hcard
  simp at hcard
  contradiction

theorem Inv.break {firstId : Nat} {st : WriterRun c} {call : Call c} (h : Inv firstId st)
    (hfails : ¬st.WriteSucceeds call) : ¬NothingLost firstId (st.step call) := by
  rcases Classical.not_imp.mp hfails with ⟨hwrites, hfailed⟩
  cases call with
  | observe kind payload nowUs outcome =>
    simp only [WriterRun.step, Call.apply, Call.observed, AuditChainWriter.observe_eq]
    rw [AuditChainWriter.push_records_length]
    have hfull : st.writer.maxRecordsPerSegment ≤ st.writer.inner.records.length + 1 := hwrites
    rw [if_pos hfull]
    apply closeSegment_not_accounted
    . exact (h.push kind payload nowUs).observed_eq
    . simp
    . exact hfailed
  | closeSegment outcome =>
    simp only [WriterRun.step, Call.apply, Call.observed, List.append_nil]
    exact closeSegment_not_accounted h.observed_eq hwrites hfailed
  | flush outcome =>
    simp only [WriterRun.step, Call.apply, Call.observed, List.append_nil]
    exact closeSegment_not_accounted h.observed_eq hwrites hfailed

theorem Inv.init {w : AuditChainWriter c} {segs : List Segment} (h : w.Synced segs)
    (hpending : w.inner.records = []) (maxRecords : Nat)
    : Inv w.nextSegmentId ⟨w.withMaxRecordsPerSegment maxRecords, []⟩ := by
  constructor
  . exact ⟨segs, h.reads, h.continuous, h.tip_eq, h.fresh, h.pending⟩
  . exact Nat.le_refl _
  . have hnone : w.store.list.filter (w.nextSegmentId ≤ ·) = [] := by
      rw [List.filter_eq_nil_iff]
      intro id hid
      have := h.fresh id hid
      simpa using this
    simp [AuditChainWriter.withMaxRecordsPerSegment, SegmentStore.persistedSince, hnone, hpending]

end WriterRun

/--
Along a run of one writer, opened on a directory that verifies, the directory verifies and every
observed record is persisted or pending at every moment if and only if no attempted write fails.
-/
theorem nothingLost_iff_writeSucceeds (hc : c.Lawful) {store : SegmentStore c}
    {report : VerifyReport} (hverify : store.verifyAll = .ok report) {tenantId : String}
    {signer : SigningKey} {w : AuditChainWriter c}
    (hopen : AuditChainWriter.open store tenantId signer = .ok w) (maxRecords : Nat)
    (calls : List (Call c))
    : Run.Always WriterRun.step (WriterRun.NothingLost w.nextSegmentId)
          ⟨w.withMaxRecordsPerSegment maxRecords, []⟩ calls
        ↔ Run.Guarded WriterRun.step WriterRun.WriteSucceeds
          ⟨w.withMaxRecordsPerSegment maxRecords, []⟩ calls := by
  rcases AuditChainWriter.Synced.open hverify tenantId signer with
    ⟨w', segs, hopen', _, hpending, _, _, _, _, hsynced⟩
  have hw : w' = w := by
    rw [hopen'] at hopen
    exact Except.ok.inj hopen
  subst hw
  apply Run.always_iff_guarded (I := WriterRun.Inv w'.nextSegmentId)
  . exact WriterRun.Inv.init hsynced hpending maxRecords
  . intro st call hinv hsucceeds
    exact hinv.step hc hsucceeds
  . intro st hinv
    exact hinv.nothingLost hc
  . intro st call hinv hfails
    exact hinv.break hfails

theorem nothingLost_iff_writeSucceeds_toy
    : Run.Always WriterRun.step (WriterRun.NothingLost 0)
          ⟨toyWriter.withMaxRecordsPerSegment 2, []⟩ [.observe "event" [1] 0 .done, .flush .done]
        ↔ Run.Guarded WriterRun.step WriterRun.WriteSucceeds
          ⟨toyWriter.withMaxRecordsPerSegment 2, []⟩
          [.observe "event" [1] 0 .done, .flush .done] :=
  have hverify : SegmentStore.verifyAll (c := Crates.toy) ⟨∅⟩ = .ok ⟨0, 0⟩ := rfl
  nothingLost_iff_writeSucceeds Crates.toy_lawful hverify open_toyWriter 2 _

theorem WriterRun.NothingLost.verifyAll_ne_error {firstId : Nat} {st : WriterRun c}
    (h : NothingLost firstId st) (e : PersistError) : st.writer.store.verifyAll ≠ .error e := by
  rcases h.verifies with ⟨report, hok⟩
  rw [hok]
  intro heq
  contradiction

-- One record a segment, and the file of the second segment cannot be renamed.
def failingRun : WriterRun Crates.toy :=
  Run.exec WriterRun.step ⟨toyWriter.withMaxRecordsPerSegment 1, []⟩
    [.observe "event" [1] 0 .done, .observe "event" [2] 0 .renameFailed,
      .observe "event" [3] 0 .done]

theorem failingRun_loses
    : failingRun.observed.length = 3
      ∧ (failingRun.writer.store.persistedSince 0).length = 2
      ∧ failingRun.writer.pendingRecords = 0
      ∧ failingRun.writer.store.verifyAll = .error (.verify (.chainBroken 0))
      ∧ ¬Run.Always WriterRun.step (WriterRun.NothingLost 0)
          ⟨toyWriter.withMaxRecordsPerSegment 1, []⟩
          [.observe "event" [1] 0 .done, .observe "event" [2] 0 .renameFailed,
            .observe "event" [3] 0 .done] := by
  have hbroken : failingRun.writer.store.verifyAll = .error (.verify (.chainBroken 0)) := by
    decide +kernel
  refine ⟨by decide +kernel, by decide +kernel, by decide +kernel, hbroken, ?_⟩
  intro halways
  have hlost : failingRun.NothingLost 0 := halways.last
  exact hlost.verifyAll_ne_error _ hbroken

end Athar.Audit
