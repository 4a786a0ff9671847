import Athar.Audit.Instance
import Athar.Audit.Lemmas.Persistence

/-!
This module contains what `verifyAll` establishes about the directory as a whole. It checks that
adjacent segments are linked by hash, but neither that the first segment starts at genesis nor that
sequence numbers go on across segments, so the records on disk are one chain from genesis only if
the directory meets these two conditions itself.
-/

namespace Athar.Audit

def Follows (a b : ChainedRecord) : Prop :=
  b.prevHash = a.recordHash ∧ b.record.seq = a.record.seq + 1

structure OneChainFromGenesis (rs : List ChainedRecord) : Prop where
  start : ∀ first ∈ rs.head?, first.prevHash = GENESIS_PREV_HASH ∧ first.record.seq = 0
  isChain : rs.IsChain Follows

def StartsAtGenesis (segs : List Segment) : Prop :=
  ∀ seg ∈ segs.head?, ∀ first ∈ seg.records.head?,
    first.prevHash = GENESIS_PREV_HASH ∧ first.record.seq = 0

def SeqContinues (seg next : Segment) : Prop :=
  ∀ last ∈ seg.records.getLast?, ∀ first ∈ next.records.head?,
    first.record.seq = last.record.seq + 1

-- What is left of a directory whose oldest segments, and then oldest records, were removed.
def Truncates (segs segs' : List Segment) : Prop :=
  ∃ older seg newer k, k < seg.records.length ∧ segs = older ++ seg :: newer
    ∧ segs' = { seg with records := seg.records.drop k } :: newer

variable {c : Crates}

theorem Continuous.of_append {prevTip : Option Hash} {older segs : List Segment}
    (h : Continuous c prevTip (older ++ segs)) : ∃ anchor, Continuous c anchor segs := by
  induction older generalizing prevTip with
  | nil => exact ⟨prevTip, h⟩
  | cons seg older ih => exact ih h.2.2

theorem Segment.tip_drop (seg : Segment) {k : Nat} (hk : k < seg.records.length)
    : Segment.tip { seg with records := seg.records.drop k } = seg.tip := by
  simp only [Segment.tip, List.getLast?_drop]
  rw [if_neg (by omega)]

-- The verifier anchors a segment to its own first record, whichever that is.
theorem verifySegment_drop {seg : Segment} (h : verifySegment c seg = .ok ()) {k : Nat}
    (hk : k < seg.records.length)
    : verifySegment c { seg with records := seg.records.drop k } = .ok () := by
  rw [verifySegment_eq_ok_iff] at h ⊢
  rcases h with ⟨⟨p, n, _, hlinked⟩, hsigned⟩
  rw [← List.take_append_drop k seg.records, HashChain.linked_append] at hlinked
  constructor
  . refine ⟨_, _, ?_, hlinked.2⟩
    rw [ne_eq, List.drop_eq_nil_iff]
    omega
  . unfold Segment.SignedTip
    rw [seg.tip_drop hk]
    exact hsigned

theorem Continuous.of_truncates {segs segs' : List Segment} (h : Continuous c none segs)
    (htrunc : Truncates segs segs') : Continuous c none segs' := by
  rcases htrunc with ⟨older, seg, newer, k, hk, rfl, rfl⟩
  rcases h.of_append with ⟨anchor, hverify, _, hcont⟩
  refine ⟨verifySegment_drop hverify hk, by simp, ?_⟩
  rw [seg.tip_drop hk]
  exact hcont

theorem Continuous.compute_eq {prevTip : Option Hash} {segs : List Segment}
    (h : Continuous c prevTip segs)
    : ∀ cr ∈ segs.flatMap (·.records), (chain c).compute cr = (chain c).hash cr := by
  intro cr hcr
  rcases List.mem_flatMap.mp hcr with ⟨seg, hseg, hrecord⟩
  rcases (verifySegment_eq_ok_iff seg).mp (h.verifySegment_eq_ok seg hseg) with
    ⟨⟨_, _, _, hlinked⟩, _⟩
  exact hlinked.compute_eq cr hrecord

-- Induction over the segments: a segment links to the rest exactly where `SeqContinues` holds.
theorem Continuous.linked_iff {prevTip : Option Hash} {segs : List Segment}
    (h : Continuous c prevTip segs) (p : Hash) (n : UInt64)
    : (chain c).Linked p n (segs.flatMap (·.records))
        ↔ (∀ seg ∈ segs.head?, ∀ first ∈ seg.records.head?,
            first.prevHash = p ∧ first.record.seq = n) ∧ segs.IsChain SeqContinues := by
  induction segs generalizing prevTip p n with
  | nil => simp
  | cons seg segs ih =>
    rcases h with ⟨hverify, _, hcont⟩
    rcases (verifySegment_eq_ok_iff seg).mp hverify with ⟨⟨q, m, hne, hlinked⟩, _⟩
    have hhead : (chain c).Linked p n seg.records
        ↔ ∀ first ∈ seg.records.head?, first.prevHash = p ∧ first.record.seq = n := by
      cases hrecords : seg.records with
      | nil => contradiction
      | cons first rest =>
        rw [hrecords] at hlinked
        rw [hlinked.eq_of_cons]
        simp
    rw [List.flatMap_cons, HashChain.linked_append, hhead, ih hcont]
    simp only [List.head?_cons, Option.mem_def, Option.some.injEq, forall_eq']
    apply and_congr_right
    intro hstart
    have htip : (chain c).tip p seg.records = seg.tip := by
      rw [Segment.tip_eq (c := c)]
      apply HashChain.tip_eq_of_ne_nil
      exact hne
    have hlast := List.getLast?_eq_some_getLast hne
    have hseq := (hhead.mpr hstart).last_seq hlast
    cases segs with
    | nil => simp
    | cons next rest =>
      rcases hcont with ⟨_, hanchor, _⟩
      have hanchor := hanchor seg.tip rfl
      rw [List.isChain_cons_cons, htip, ← hseq]
      apply and_congr_left
      intro _
      simp only [SeqContinues, hlast, Option.mem_def, Option.some.injEq, forall_eq',
        List.head?_cons, chain_succ, chain_seq]
      constructor
      . intro hfirst first hmem
        exact (hfirst first hmem).2
      . intro hfirst first hmem
        rw [hmem] at hanchor
        exact ⟨by simpa using hanchor, hfirst first hmem⟩

/--
The records of a directory that verifies are one chain from genesis if and only if its oldest
segment starts at genesis and sequence numbers go on at every segment boundary. What truncation
leaves of the directory verifies as well.
-/
theorem verifyAll_oneChainFromGenesis_iff {s : SegmentStore c} {report : VerifyReport}
    (hverify : s.verifyAll = .ok report) {segs : List Segment} (hreads : s.Reads s.list segs)
    : (OneChainFromGenesis (segs.flatMap (·.records))
          ↔ StartsAtGenesis segs ∧ segs.IsChain SeqContinues)
        ∧ ∀ (s' : SegmentStore c) (segs' : List Segment), s'.Reads s'.list segs' →
            Truncates segs segs' → ∃ report', s'.verifyAll = .ok report' := by
  rcases (SegmentStore.verifyAll_eq_ok_iff s report).mp hverify with ⟨segs', hreads', hcont, _⟩
  have hsegs : segs' = segs := SegmentStore.Reads.unique hreads' hreads
  subst hsegs
  constructor
  . have hlinked := (chain c).linked_iff_isChain hcont.compute_eq GENESIS_PREV_HASH 0
    rw [hcont.linked_iff] at hlinked
    unfold StartsAtGenesis
    rw [hlinked]
    constructor
    . intro h
      exact ⟨h.start, h.isChain⟩
    . rintro ⟨hstart, hchain⟩
      exact ⟨hstart, hchain⟩
  . intro s' segs'' hreads'' htrunc
    refine ⟨_, (SegmentStore.verifyAll_eq_ok_iff s' _).mpr ⟨segs'', hreads'', ?_, rfl⟩⟩
    exact hcont.of_truncates htrunc

-- The directory after two segments of one record each.
def twoSegments : AuditChainWriter Crates.toy :=
  let w := (toyWriter.withMaxRecordsPerSegment 1).observe "event" [1] 0 .done
  (w.1.observe "event" [2] 0 .done).1

def firstSegment : Segment := segmentOf toyKey [1] GENESIS_PREV_HASH 0 0

def secondSegment : Segment := segmentOf toyKey [2] firstSegment.tip 1 1

theorem verifyAll_oneChainFromGenesis_iff_twoSegments
    : OneChainFromGenesis ([firstSegment, secondSegment].flatMap (·.records))
        ↔ StartsAtGenesis [firstSegment, secondSegment]
          ∧ [firstSegment, secondSegment].IsChain SeqContinues :=
  have hverify : twoSegments.store.verifyAll = .ok ⟨2, 2⟩ := by decide +kernel
  have hreads : twoSegments.store.Reads twoSegments.store.list [firstSegment, secondSegment] :=
    .cons (by decide +kernel) (.cons (by decide +kernel) .nil)
  (verifyAll_oneChainFromGenesis_iff hverify hreads).1

-- The same directory after the file of the oldest segment was removed.
def withoutOldest : SegmentStore Crates.toy :=
  ⟨twoSegments.store.files.erase (SegmentStore.pathFor 0)⟩

theorem withoutOldest_verifies
    : withoutOldest.verifyAll = .ok ⟨1, 1⟩
      ∧ withoutOldest.Reads withoutOldest.list [secondSegment]
      ∧ ¬OneChainFromGenesis ([secondSegment].flatMap (·.records)) := by
  have hlist : withoutOldest.list = [1] := by decide +kernel
  refine ⟨by decide +kernel, ?_, ?_⟩
  . rw [hlist]
    exact .cons (by decide +kernel) .nil
  . intro h
    have hstart := (h.start _ rfl).2
    revert hstart
    decide +kernel

end Athar.Audit
