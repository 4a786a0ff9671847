import Athar.Audit.Impl.Writer
import Athar.Audit.Lemmas.Persistence

/-!
This module contains the invariant that couples the in-memory state of the audit chain writer with
the segments on disk, and what closing a segment does to both.
-/

namespace Athar.Audit

variable {c : Crates}

theorem tipAfter_append (prevTip : Option Hash) (segs : List Segment) (seg : Segment)
    : SegmentStore.tipAfter prevTip (segs ++ [seg]) = some seg.tip := by
  simp [SegmentStore.tipAfter]

theorem continuous_append (prevTip : Option Hash) (segs : List Segment) (seg : Segment)
    : Continuous c prevTip (segs ++ [seg])
        ↔ Continuous c prevTip segs ∧ verifySegment c seg = .ok ()
          ∧ (∀ anchor ∈ SegmentStore.tipAfter prevTip segs,
              seg.records.head?.map (·.prevHash) = some anchor) := by
  induction segs generalizing prevTip with
  | nil => simp [Continuous, SegmentStore.tipAfter]
  | cons s segs ih =>
    simp only [List.cons_append, Continuous, ih]
    simp [SegmentStore.tipAfter, and_assoc]

theorem linked_head_prevHash {p : Hash} {n : UInt64} {rs : List ChainedRecord} (hne : rs ≠ [])
    (h : (chain c).Linked p n rs) : rs.head?.map (·.prevHash) = some p := by
  cases rs with
  | nil => contradiction
  | cons first rest => simpa using h.1

namespace AuditChainWriter

-- The segment that closing the pending records produces.
def pendingSegment (w : AuditChainWriter c) : Segment :=
  (w.inner.closeSegment c w.nextSegmentId w.signer).2

@[simp]
theorem pendingSegment_records (w : AuditChainWriter c)
    : w.pendingSegment.records = w.inner.records := by
  rfl

@[simp]
theorem pendingSegment_segmentId (w : AuditChainWriter c)
    : w.pendingSegment.segmentId = w.nextSegmentId := by
  rfl

theorem closeSegment_of_nil {w : AuditChainWriter c} (h : w.inner.records = [])
    (outcome : WriteOutcome c.Text) : (w.closeSegment outcome).1 = w := by
  simp [closeSegment, h]

theorem closeSegment_of_ne_nil {w : AuditChainWriter c} (h : w.inner.records ≠ [])
    (outcome : WriteOutcome c.Text)
    : ∃ last, w.inner.records.getLast? = some last ∧
        (w.closeSegment outcome).1 =
          { w with
            inner := ChainWriter.fromTip last.recordHash (last.record.seq + 1)
            store := (w.store.write w.pendingSegment outcome).1
            tip := last.recordHash
            nextSeq := last.record.seq + 1
            nextSegmentId := w.nextSegmentId + 1 } := by
  have hlast := List.getLast?_eq_some_getLast h
  refine ⟨w.inner.records.getLast h, hlast, ?_⟩
  have hrecords : (w.inner.closeSegment c w.nextSegmentId w.signer).2.records.getLast?
      = some (w.inner.records.getLast h) := hlast
  simp only [closeSegment, List.isEmpty_iff, h, ↓reduceIte, hrecords]
  rfl

-- `observe` up to the point where it may close the segment.
def push (w : AuditChainWriter c) (kind : String) (payload : List UInt8) (nowUs : Int64)
    : AuditChainWriter c :=
  { w with inner := (w.inner.append c (w.recordOf kind payload nowUs)).1 }

theorem observe_eq (w : AuditChainWriter c) (kind : String) (payload : List UInt8) (nowUs : Int64)
    (outcome : WriteOutcome c.Text)
    : (w.observe kind payload nowUs outcome).1
        = if w.maxRecordsPerSegment ≤ (w.push kind payload nowUs).inner.records.length then
            ((w.push kind payload nowUs).closeSegment outcome).1
          else
            w.push kind payload nowUs := by
  simp only [observe]
  split
  . next h => simp [push, h]
  . next h => simp [push, h]

theorem closeSegment_snd {w : AuditChainWriter c} (h : w.inner.records ≠ [])
    (outcome : WriteOutcome c.Text)
    : (w.closeSegment outcome).2 = (w.store.write w.pendingSegment outcome).2.map some := by
  simp only [closeSegment, List.isEmpty_iff, h, ↓reduceIte]
  rfl

@[simp]
theorem push_records_ne_nil (w : AuditChainWriter c) (kind : String) (payload : List UInt8)
    (nowUs : Int64) : (w.push kind payload nowUs).inner.records ≠ [] := by
  simp [push, ChainWriter.append]

theorem push_records_length (w : AuditChainWriter c) (kind : String) (payload : List UInt8)
    (nowUs : Int64)
    : (w.push kind payload nowUs).inner.records.length = w.inner.records.length + 1 := by
  simp [push, ChainWriter.append]

-- The write that `observe` may have to make succeeds.
def Commits (w : AuditChainWriter c) (outcome : WriteOutcome c.Text) : Prop :=
  w.maxRecordsPerSegment ≤ w.inner.records.length + 1 → outcome = .done

theorem observe_snd (w : AuditChainWriter c) (kind : String) (payload : List UInt8) (nowUs : Int64)
    (outcome : WriteOutcome c.Text)
    : (w.observe kind payload nowUs outcome).2
        = if w.maxRecordsPerSegment ≤ w.inner.records.length + 1 then
            ((w.push kind payload nowUs).closeSegment outcome).2.map (fun _ => ())
          else
            .ok () := by
  rw [← push_records_length w kind payload nowUs]
  simp only [observe]
  split
  . next h => simp [push, h]
  . next h => simp [push, h]

theorem observe_ok {w : AuditChainWriter c} {outcome : WriteOutcome c.Text} (h : w.Commits outcome)
    (kind : String) (payload : List UInt8) (nowUs : Int64)
    : (w.observe kind payload nowUs outcome).2 = .ok () := by
  rw [observe_snd]
  split
  . next hfull =>
    rw [closeSegment_snd (push_records_ne_nil w kind payload nowUs), h hfull]
    rfl
  . rfl

theorem observe_error {w : AuditChainWriter c} {outcome : WriteOutcome c.Text}
    (h : ¬w.Commits outcome) (kind : String) (payload : List UInt8) (nowUs : Int64)
    : ∃ e, (w.observe kind payload nowUs outcome).2 = .error e := by
  rcases Classical.not_imp.mp h with ⟨hfull, hfailed⟩
  rw [observe_snd, if_pos hfull, closeSegment_snd (push_records_ne_nil w kind payload nowUs)]
  cases outcome with
  | done => exact absurd rfl hfailed
  | createFailed => exact ⟨.io, rfl⟩
  | writeFailed partialText => exact ⟨.io, rfl⟩
  | syncFailed => exact ⟨.io, rfl⟩
  | renameFailed => exact ⟨.io, rfl⟩

-- `segs` are the segments on disk in id order, and the pending records extend the last of them.
structure Synced (w : AuditChainWriter c) (segs : List Segment) : Prop where
  reads : w.store.Reads w.store.list segs
  continuous : Continuous c none segs
  tip_eq : w.tip = (SegmentStore.tipAfter none segs).getD GENESIS_PREV_HASH
  fresh : ∀ id ∈ w.store.list, id < w.nextSegmentId
  pending : w.inner.Linked c w.tip w.nextSeq

theorem Synced.verifyAll {w : AuditChainWriter c} {segs : List Segment} (h : w.Synced segs)
    : w.store.verifyAll = .ok ⟨segs.length, SegmentStore.recordCount segs⟩ := by
  rw [SegmentStore.verifyAll_eq_ok_iff]
  exact ⟨segs, h.reads, h.continuous, rfl⟩

theorem Synced.push {w : AuditChainWriter c} {segs : List Segment} (h : w.Synced segs)
    (kind : String) (payload : List UInt8) (nowUs : Int64)
    : (w.push kind payload nowUs).Synced segs where
  reads := h.reads
  continuous := h.continuous
  tip_eq := h.tip_eq
  fresh := h.fresh
  pending := h.pending.append _

theorem Synced.pendingSegment_tip {w : AuditChainWriter c} {segs : List Segment}
    (h : w.Synced segs) (hne : w.inner.records ≠ []) : w.pendingSegment.tip = w.inner.tipHash := by
  rw [Segment.tip_eq (c := c), h.pending.tipHash_eq]
  apply HashChain.tip_eq_of_ne_nil
  exact hne

theorem Synced.verifySegment (hc : c.Lawful) {w : AuditChainWriter c} {segs : List Segment}
    (h : w.Synced segs) (hne : w.inner.records ≠ [])
    : verifySegment c w.pendingSegment = .ok () := by
  rw [verifySegment_eq_ok_iff]
  refine ⟨⟨w.tip, w.nextSeq, hne, h.pending.linked⟩, ?_⟩
  unfold Segment.SignedTip
  rw [h.pendingSegment_tip hne]
  exact hc.verify_sign w.signer w.inner.tipHash.toList

theorem reads_congr {s s' : SegmentStore c} {ids : List Nat} {segs : List Segment}
    (hread : ∀ id ∈ ids, s'.read id = s.read id) (h : s.Reads ids segs) : s'.Reads ids segs := by
  induction ids generalizing segs with
  | nil =>
    cases h
    exact List.Forall₂.nil
  | cons id ids ih =>
    cases h with
    | cons hhead htail =>
      apply List.Forall₂.cons
      . rw [hread id (by simp)]
        exact hhead
      . apply ih _ htail
        intro id' hid'
        exact hread id' (by simp [hid'])

theorem reads_concat {s : SegmentStore c} {ids : List Nat} {lastId : Nat} {segs : List Segment}
    (h : s.Reads (ids ++ [lastId]) segs)
    : ∃ segs' seg, segs = segs' ++ [seg] ∧ s.Reads ids segs' ∧ s.read lastId = .ok seg := by
  induction ids generalizing segs with
  | nil =>
    cases h with
    | cons hhead htail =>
      cases htail
      exact ⟨[], _, rfl, List.Forall₂.nil, hhead⟩
  | cons id ids ih =>
    cases h with
    | cons hhead htail =>
      rcases ih htail with ⟨segs', seg, rfl, hreads, hread⟩
      exact ⟨_ :: segs', seg, rfl, List.Forall₂.cons hhead hreads, hread⟩

theorem reads_write_done (hc : c.Lawful) {s : SegmentStore c} {segs : List Segment} {seg : Segment}
    (hreads : s.Reads s.list segs) (hfresh : ∀ id ∈ s.list, id < seg.segmentId)
    : (s.write seg .done).1.Reads (s.write seg .done).1.list (segs ++ [seg]) := by
  rw [SegmentStore.list_write_done s seg hfresh]
  apply List.rel_append
  . have : ∀ id ∈ s.list, (s.write seg .done).1.read id = s.read id := by
      intro id hid
      apply SegmentStore.read_write_done_of_ne
      exact Nat.ne_of_lt (hfresh id hid)
    exact reads_congr this hreads
  . exact List.Forall₂.cons (SegmentStore.read_write_done hc s seg) List.Forall₂.nil

theorem Synced.closeSegment (hc : c.Lawful) {w : AuditChainWriter c} {segs : List Segment}
    (h : w.Synced segs) (hne : w.inner.records ≠ [])
    : (w.closeSegment .done).1.Synced (segs ++ [w.pendingSegment]) := by
  rcases closeSegment_of_ne_nil hne .done with ⟨last, hlast, heq⟩
  have hverify := h.verifySegment hc hne
  rw [heq]
  constructor
  . exact reads_write_done hc h.reads h.fresh
  . rw [continuous_append]
    refine ⟨h.continuous, hverify, ?_⟩
    intro anchor hanchor
    rw [pendingSegment_records, linked_head_prevHash hne h.pending.linked, h.tip_eq]
    rw [Option.mem_def] at hanchor
    simp [hanchor]
  . rw [tipAfter_append]
    simp [Segment.tip, hlast]
  . intro id hid
    rw [SegmentStore.list_write_done _ _ h.fresh] at hid
    simp only [List.mem_append, List.mem_singleton, pendingSegment_segmentId] at hid
    cases hid with
    | inl hold => exact Nat.lt_succ_of_lt (h.fresh id hold)
    | inr hnew => simp [hnew]
  . apply ChainWriter.linked_fromTip

theorem list_le_last {s : SegmentStore c} {ids : List Nat} {lastId : Nat}
    (h : s.list = ids ++ [lastId]) : ∀ id ∈ s.list, id ≤ lastId := by
  have hsorted : (ids ++ [lastId]).Pairwise (· ≤ ·) := by
    rw [← h]
    apply List.pairwise_insertionSort
  intro id hid
  rw [h] at hid
  cases List.mem_append.mp hid with
  | inl hmem => exact (List.pairwise_append.mp hsorted).2.2 id hmem lastId (by simp)
  | inr hmem =>
    have : id = lastId := by simpa using hmem
    omega

theorem Synced.open {store : SegmentStore c} {report : VerifyReport}
    (hverify : store.verifyAll = .ok report) (tenantId : String) (signer : SigningKey)
    : ∃ w segs, AuditChainWriter.open store tenantId signer = .ok w ∧ w.store = store
        ∧ w.inner.records = [] ∧ w.tenantId = tenantId ∧ w.signer = signer
        ∧ w.maxRecordsPerSegment = 1000
        ∧ w.nextSeq = ((segs.getLast?.bind (·.records.getLast?)).map (·.record.seq + 1)).getD 0
        ∧ w.Synced segs := by
  rw [SegmentStore.verifyAll_eq_ok_iff] at hverify
  rcases hverify with ⟨segs, hreads, hcont, _⟩
  rcases List.eq_nil_or_concat store.list with hnil | ⟨ids, lastId, hids⟩
  . have hsegs : segs = [] := by
      rw [hnil] at hreads
      exact List.forall₂_nil_left_iff.mp hreads
    refine ⟨_, segs, by simp [AuditChainWriter.open, hnil]; rfl, rfl, rfl, rfl, rfl, rfl,
      by simp [hsegs], ?_⟩
    constructor
    . exact hreads
    . exact hcont
    . simp [hsegs, SegmentStore.tipAfter]
    . simp [hnil]
    . apply ChainWriter.linked_fromTip
  . rw [List.concat_eq_append] at hids
    have hread := hreads
    rw [hids] at hread
    rcases reads_concat hread with ⟨segs', seg, rfl, _, hlast⟩
    have hopen : AuditChainWriter.open store tenantId signer = .ok {
        inner := ChainWriter.fromTip seg.tip ((seg.records.getLast?.map (·.record.seq + 1)).getD 0)
        store, signer, tenantId
        tip := seg.tip
        nextSeq := (seg.records.getLast?.map (·.record.seq + 1)).getD 0
        nextSegmentId := lastId + 1
        maxRecordsPerSegment := 1000 } := by
      simp [AuditChainWriter.open, hids, hlast, Segment.tip, pure, Except.pure, bind, Except.bind]
    refine ⟨_, segs' ++ [seg], hopen, rfl, rfl, rfl, rfl, rfl, by simp, ?_⟩
    constructor
    . exact hreads
    . exact hcont
    . simp [tipAfter_append]
    . intro id hid
      have := list_le_last hids id hid
      dsimp only
      omega
    . apply ChainWriter.linked_fromTip

end AuditChainWriter

end Athar.Audit
