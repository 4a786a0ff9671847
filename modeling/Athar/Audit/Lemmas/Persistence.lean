import Athar.Audit.Impl.Persistence
import Athar.Audit.Lemmas.Chain
import Mathlib.Algebra.GroupWithZero.Nat

/-!
This module contains the lemmas about file names and the segment directory: which ids a directory
lists, what a write changes, and what `verifyAll` accepts.
-/

namespace Athar.Audit

open Hex

namespace SegmentStore

@[simp]
theorem idOf_pathFor (id : Nat) : idOf (pathFor id) = some id := by
  simp [idOf, pathFor, stripSuffix_append, fromStrRadix16_hex16]

@[simp]
theorem idOf_tmpPathFor (id : Nat) : idOf (tmpPathFor id) = none := by
  have hsuffix : ¬SUFFIX <:+ hex16 id ++ TMP_SUFFIX := by
    intro h
    have : SUFFIX <:+ TMP_SUFFIX := by
      apply List.suffix_of_suffix_length_le h (List.suffix_append _ _)
      decide
    revert this
    decide
  simp [idOf, tmpPathFor, stripSuffix, hsuffix]

theorem pathFor_inj {i j : Nat} (h : pathFor i = pathFor j) : i = j := by
  have := congrArg idOf h
  simpa using this

theorem pathFor_ne_tmpPathFor (i j : Nat) : pathFor i ≠ tmpPathFor j := by
  intro h
  have := congrArg idOf h
  simp at this

end SegmentStore

theorem filterMap_erase_of_none {α β : Type*} [DecidableEq α] (f : α → Option β) {a : α}
    (ha : f a = none) (l : List α) : (l.erase a).filterMap f = l.filterMap f := by
  induction l with
  | nil => rfl
  | cons b l ih =>
    by_cases hb : b = a
    . subst hb
      simp [ha]
    . have : (b == a) = false := by simpa using hb
      rw [List.erase_cons, this]
      simp [List.filterMap_cons, ih]

theorem orderedInsert_last {a : Nat} {l : List Nat} (h : ∀ b ∈ l, b < a)
    : l.orderedInsert (· ≤ ·) a = l ++ [a] := by
  induction l with
  | nil => rfl
  | cons b l ih =>
    have hb : ¬a ≤ b := by
      have := h b (by simp)
      omega
    rw [List.orderedInsert_cons, if_neg hb, ih]
    . rfl
    . intro b' hb'
      exact h b' (by simp [hb'])

namespace SegmentStore

variable {c : Crates}

theorem list_insert_of_idOf_none (files : Dir c.Text) {name : String} (h : idOf name = none)
    (text : c.Text) : list ⟨files.insert name text⟩ = list ⟨files⟩ := by
  simp [list, h, filterMap_erase_of_none]

theorem list_erase_of_idOf_none (files : Dir c.Text) {name : String} (h : idOf name = none)
    : list ⟨files.erase name⟩ = list ⟨files⟩ := by
  simp [list, AList.keys_erase, h, filterMap_erase_of_none]

theorem mem_list (s : SegmentStore c) (id : Nat)
    : id ∈ s.list ↔ ∃ name ∈ s.files.keys, idOf name = some id := by
  simp [list, List.mem_insertionSort]

theorem list_insert_pathFor (files : Dir c.Text) {id : Nat} (h : ∀ i ∈ list ⟨files⟩, i < id)
    (text : c.Text) : list ⟨files.insert (pathFor id) text⟩ = list ⟨files⟩ ++ [id] := by
  have hfresh : pathFor id ∉ files.keys := by
    intro hmem
    have : id < id := h id ((mem_list _ id).mpr ⟨pathFor id, hmem, idOf_pathFor id⟩)
    omega
  have hkeys : (files.insert (pathFor id) text).keys = pathFor id :: files.keys := by
    rw [AList.keys_insert, List.erase_of_not_mem hfresh]
  unfold list
  rw [hkeys, List.filterMap_cons, idOf_pathFor]
  simp only [List.insertionSort_cons]
  apply orderedInsert_last
  exact h

theorem read_insert_of_ne (files : Dir c.Text) {name : String} {id : Nat} (h : pathFor id ≠ name)
    (text : c.Text) : read ⟨files.insert name text⟩ id = read ⟨files⟩ id := by
  simp [read, AList.lookup_insert_ne h]

theorem read_erase_of_ne (files : Dir c.Text) {name : String} {id : Nat} (h : pathFor id ≠ name)
    : read ⟨files.erase name⟩ id = read ⟨files⟩ id := by
  simp [read, AList.lookup_erase_ne h]

theorem list_write_of_ne_done (s : SegmentStore c) (seg : Segment)
    {outcome : WriteOutcome c.Text} (h : outcome ≠ .done)
    : (s.write seg outcome).1.list = s.list := by
  cases outcome with
  | done => contradiction
  | createFailed => rfl
  | writeFailed partialText => exact list_insert_of_idOf_none s.files (idOf_tmpPathFor _) _
  | syncFailed => exact list_insert_of_idOf_none s.files (idOf_tmpPathFor _) _
  | renameFailed => exact list_insert_of_idOf_none s.files (idOf_tmpPathFor _) _

theorem read_write_of_ne_done (s : SegmentStore c) (seg : Segment) {outcome : WriteOutcome c.Text}
    (h : outcome ≠ .done) (id : Nat) : (s.write seg outcome).1.read id = s.read id := by
  cases outcome with
  | done => contradiction
  | createFailed => rfl
  | writeFailed partialText => exact read_insert_of_ne s.files (pathFor_ne_tmpPathFor _ _) _
  | syncFailed => exact read_insert_of_ne s.files (pathFor_ne_tmpPathFor _ _) _
  | renameFailed => exact read_insert_of_ne s.files (pathFor_ne_tmpPathFor _ _) _

theorem list_write_done (s : SegmentStore c) (seg : Segment) (h : ∀ i ∈ s.list, i < seg.segmentId)
    : (s.write seg .done).1.list = s.list ++ [seg.segmentId] := by
  have htmp := idOf_tmpPathFor seg.segmentId
  have hlist : list ⟨(s.files.insert (tmpPathFor seg.segmentId) (c.toVecPretty seg)).erase
      (tmpPathFor seg.segmentId)⟩ = s.list := by
    rw [list_erase_of_idOf_none _ htmp, list_insert_of_idOf_none _ htmp]
  simp only [write]
  rw [list_insert_pathFor, hlist]
  rw [hlist]
  exact h

theorem read_write_done_of_ne (s : SegmentStore c) (seg : Segment) {id : Nat}
    (h : id ≠ seg.segmentId) : (s.write seg .done).1.read id = s.read id := by
  simp only [write]
  rw [read_insert_of_ne, read_erase_of_ne, read_insert_of_ne]
  . exact pathFor_ne_tmpPathFor _ _
  . exact pathFor_ne_tmpPathFor _ _
  . intro heq
    exact h (pathFor_inj heq)

theorem read_write_done (hc : c.Lawful) (s : SegmentStore c) (seg : Segment)
    : (s.write seg .done).1.read seg.segmentId = .ok seg := by
  simp [write, read, hc.fromSlice_toVecPretty]

theorem checkAnchor_eq_ok_iff (prevTip : Option Hash) (seg : Segment)
    (hverify : verifySegment c seg = .ok ())
    : checkAnchor c prevTip seg = .ok ()
        ↔ ∀ anchor ∈ prevTip, seg.records.head?.map (·.prevHash) = some anchor := by
  rcases (verifySegment_eq_ok_iff seg).mp hverify with ⟨⟨p, n, hne, hlinked⟩, _⟩
  cases prevTip with
  | none => simp [checkAnchor]
  | some anchor =>
    cases hrecords : seg.records with
    | nil => contradiction
    | cons first rest =>
      rw [hrecords] at hlinked hne
      have hstart := (HashChain.linked_cons p n first rest).mp hlinked
      simp only [chain_prev, chain_seq] at hstart
      simp only [checkAnchor, hrecords]
      split
      . next hanchor => simpa using hanchor
      . next hanchor =>
        simp only [ne_eq, Decidable.not_not] at hanchor
        have hp : p = anchor := by rw [← hstart.1, hanchor]
        have hn : n = first.record.seq := hstart.2.1.symm
        subst hp hn
        have := (verifyChain_eq_ok_iff (c := c) _ _ _ _).mpr ⟨hne, hlinked, rfl⟩
        rw [this]
        simp [hanchor]

end SegmentStore

-- The segments read in id order: each verifies on its own and anchors to the tip before it.
def Continuous (c : Crates) : Option Hash → List Segment → Prop
  | _, [] => True
  | prevTip, seg :: segs => verifySegment c seg = .ok ()
      ∧ (∀ anchor ∈ prevTip, seg.records.head?.map (·.prevHash) = some anchor)
      ∧ Continuous c (some seg.tip) segs

theorem Continuous.verifySegment_eq_ok {c : Crates} {prevTip : Option Hash} {segs : List Segment}
    (h : Continuous c prevTip segs) : ∀ seg ∈ segs, verifySegment c seg = .ok () := by
  induction segs generalizing prevTip with
  | nil => simp
  | cons seg segs ih =>
    rcases h with ⟨hverify, _, hcont⟩
    intro seg' hmem
    cases List.mem_cons.mp hmem with
    | inl heq =>
      rw [heq]
      exact hverify
    | inr hrest => exact ih hcont seg' hrest

theorem Continuous.records_ne_nil {c : Crates} {prevTip : Option Hash} {segs : List Segment}
    (h : Continuous c prevTip segs) : ∀ seg ∈ segs, seg.records ≠ [] := by
  intro seg hseg
  rcases (verifySegment_eq_ok_iff seg).mp (h.verifySegment_eq_ok seg hseg) with ⟨⟨_, _, hne, _⟩, _⟩
  exact hne

namespace SegmentStore

variable {c : Crates}

def Reads (s : SegmentStore c) (ids : List Nat) (segs : List Segment) : Prop :=
  List.Forall₂ (fun id seg => s.read id = .ok seg) ids segs

theorem Reads.unique {s : SegmentStore c} {ids : List Nat} {segs segs' : List Segment}
    (h : s.Reads ids segs) (h' : s.Reads ids segs') : segs = segs' := by
  induction ids generalizing segs segs' with
  | nil =>
    cases h
    cases h'
    rfl
  | cons id ids ih =>
    cases h with
    | cons hhead htail =>
      cases h' with
      | cons hhead' htail' =>
        rw [hhead] at hhead'
        rw [ih htail htail', Except.ok.inj hhead']

def tipAfter (prevTip : Option Hash) (segs : List Segment) : Option Hash :=
  segs.foldl (fun _ seg => some seg.tip) prevTip

def recordCount (segs : List Segment) : Nat :=
  (segs.map (·.records.length)).sum

theorem verifyNext_eq_ok_iff (s : SegmentStore c) (state state' : Option Hash × VerifyReport)
    (id : Nat)
    : s.verifyNext state id = .ok state'
        ↔ ∃ seg, s.read id = .ok seg ∧ verifySegment c seg = .ok ()
          ∧ (∀ anchor ∈ state.1, seg.records.head?.map (·.prevHash) = some anchor)
          ∧ state' = (some seg.tip,
              ⟨state.2.segmentsVerified + 1, state.2.recordsVerified + seg.records.length⟩) := by
  unfold verifyNext
  split
  . next e hread => simp [hread]
  . next seg hread =>
    have hone : ∀ seg', s.read id = .ok seg' ↔ seg = seg' := by
      intro seg'
      simp [hread]
    simp only [hone, exists_eq_left']
    split
    . next e hverify => simp [hverify]
    . next hverify =>
      have hne : seg.records ≠ [] := by
        rcases (verifySegment_eq_ok_iff seg).mp hverify with ⟨⟨_, _, hne, _⟩, _⟩
        exact hne
      have htip : seg.records.getLast?.map (·.recordHash) = some seg.tip := by
        simp [Segment.tip, List.getLast?_eq_getLast_of_ne_nil hne]
      have hanchor := checkAnchor_eq_ok_iff state.1 seg hverify
      rw [htip, ← hanchor]
      split
      . next e hcheck => simp [hcheck]
      . next hcheck => simp [hcheck, hverify, eq_comm]

theorem foldlM_verifyNext_eq_ok_iff (s : SegmentStore c) (ids : List Nat)
    (state state' : Option Hash × VerifyReport)
    : ids.foldlM s.verifyNext state = .ok state'
        ↔ ∃ segs, s.Reads ids segs ∧ Continuous c state.1 segs
          ∧ state' = (tipAfter state.1 segs,
              ⟨state.2.segmentsVerified + segs.length,
                state.2.recordsVerified + recordCount segs⟩) := by
  induction ids generalizing state with
  | nil => simp [Reads, Continuous, tipAfter, recordCount, pure, Except.pure, eq_comm]
  | cons id ids ih =>
    rw [List.foldlM_cons]
    constructor
    . intro h
      cases hnext : s.verifyNext state id with
      | error e =>
        rw [hnext] at h
        contradiction
      | ok next =>
        rw [hnext] at h
        rcases (ih next).mp h with ⟨segs, hreads, hcont, rfl⟩
        rcases (verifyNext_eq_ok_iff s state next id).mp hnext with
          ⟨seg, hread, hverify, hanchor, rfl⟩
        refine ⟨seg :: segs, List.Forall₂.cons hread hreads, ⟨hverify, hanchor, hcont⟩, ?_⟩
        simp [tipAfter, recordCount]
        omega
    . rintro ⟨segs, hreads, hcont, rfl⟩
      cases hreads with
      | @cons _ seg _ segs hread hreads =>
        rcases hcont with ⟨hverify, hanchor, hcont⟩
        have hnext := (verifyNext_eq_ok_iff s state _ id).mpr ⟨seg, hread, hverify, hanchor, rfl⟩
        rw [hnext]
        apply (ih _).mpr
        refine ⟨segs, hreads, hcont, ?_⟩
        simp [tipAfter, recordCount]
        omega

theorem verifyAll_eq_ok_iff (s : SegmentStore c) (report : VerifyReport)
    : s.verifyAll = .ok report
        ↔ ∃ segs, s.Reads s.list segs ∧ Continuous c none segs
          ∧ report = ⟨segs.length, recordCount segs⟩ := by
  have hfold := foldlM_verifyNext_eq_ok_iff s s.list (none, ⟨0, 0⟩)
  unfold verifyAll
  constructor
  . intro h
    cases hrun : s.list.foldlM s.verifyNext (none, ⟨0, 0⟩) with
    | error e =>
      rw [hrun] at h
      contradiction
    | ok state =>
      rw [hrun] at h
      rcases (hfold state).mp hrun with ⟨segs, hreads, hcont, rfl⟩
      refine ⟨segs, hreads, hcont, ?_⟩
      simpa [pure, Except.pure, bind, Except.bind, eq_comm] using h
  . rintro ⟨segs, hreads, hcont, rfl⟩
    have hrun := (hfold _).mpr ⟨segs, hreads, hcont, rfl⟩
    rw [hrun]
    simp [pure, Except.pure, bind, Except.bind]

end SegmentStore

end Athar.Audit
