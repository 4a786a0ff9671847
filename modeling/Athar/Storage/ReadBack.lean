import Athar.Lib.Grouping
import Athar.Storage.Process

/-!
This module contains runs of the evidence log whose file operations all succeed. Closed segments read
back, one after the other, as the records that were appended to them, a crash moves the records of the
active segment to a quarantined file, and every receipt says where its record is.
-/

namespace Athar.Storage

inductive Operation where
  | «open»
  | append (data : List UInt8)
  | rotate
  | sync
  | close
  | crash

def Operation.command : Operation → Command
  | .open => .open none
  | .append data => .append data .done
  | .rotate => .rotate .done
  | .sync => .sync true
  | .close => .close .done true
  | .crash => .crash

-- The segment that is written to, or was when the process crashed.
def Session.live (s : Session) : Option Nat :=
  match s.process with
  | .up log => log.active.map (·.id)
  | .down _ => s.interrupted

-- The state of every segment tells what became of it.
structure Tidy (live : Option Nat) (crashed : List Nat) (segs : List Segment) : Prop where
  state_eq : ∀ seg ∈ segs, seg.state
    = if live = some seg.id then .active else if seg.id ∈ crashed then .quarantined else .closed
  known : ∀ id ∈ crashed, ∃ seg ∈ segs, seg.id = id
  apart : ∀ id ∈ crashed, live ≠ some id

namespace Tidy

variable {live : Option Nat} {crashed : List Nat} {segs older : List Segment} {last : Segment}

theorem push (h : Tidy live crashed (older ++ [last])) (data : List UInt8)
    : Tidy live crashed (older ++ [last.push data]) := by
  constructor
  . intro seg hseg
    rw [List.mem_append, List.mem_singleton] at hseg
    rcases hseg with hseg | rfl
    . exact h.state_eq seg (List.mem_append_left _ hseg)
    . exact h.state_eq last (by simp)
  . intro id hid
    apply exists_id_replaceLast _ (h.known id hid)
    rfl
  . exact h.apart

theorem fresh {id : Nat} (h : Tidy none crashed segs) (hfresh : ∀ seg ∈ segs, seg.id < id)
    : Tidy (some id) crashed (segs ++ [freshSegment id]) := by
  have hnotCrashed : id ∉ crashed := by
    intro hmem
    rcases h.known id hmem with ⟨seg, hseg, heq⟩
    have := hfresh seg hseg
    omega
  constructor
  . intro seg hseg
    rw [List.mem_append, List.mem_singleton] at hseg
    rcases hseg with hseg | rfl
    . have hne : ¬(some id = some seg.id) := by
        have := hfresh seg hseg
        rw [Option.some.injEq]
        omega
      rw [if_neg hne]
      exact h.state_eq seg hseg
    . exact (if_pos rfl).symm
  . intro id' hid'
    rcases h.known id' hid' with ⟨seg, hseg, heq⟩
    exact ⟨seg, List.mem_append_left _ hseg, heq⟩
  . intro id' hid' heq
    rw [Option.some.injEq] at heq
    rw [heq] at hnotCrashed
    exact hnotCrashed hid'

theorem recovered (h : Tidy live crashed segs) (hlive : ∀ id, live = some id → ∃ seg ∈ segs, seg.id = id)
    : Tidy none (crashed ++ live.toList) (segs.map Segment.recovered) := by
  constructor
  . intro seg hseg
    rcases List.mem_map.mp hseg with ⟨old, hold, rfl⟩
    have hstate := h.state_eq old hold
    rw [old.recovered_id]
    unfold Segment.recovered
    by_cases hlive : live = some old.id
    . rw [if_pos hlive] at hstate
      simp [hstate, hlive]
    . rw [if_neg hlive] at hstate
      have hmem : old.id ∈ crashed ++ live.toList ↔ old.id ∈ crashed := by
        rw [List.mem_append, Option.mem_toList]
        simp [hlive]
      by_cases hcrashed : old.id ∈ crashed
      . simp [hstate, hmem, hcrashed]
      . simp [hstate, hmem, hcrashed]
  . intro id hid
    have hknown : ∃ seg ∈ segs, seg.id = id := by
      rw [List.mem_append, Option.mem_toList] at hid
      rcases hid with hid | hid
      . exact h.known id hid
      . exact hlive id hid
    rcases hknown with ⟨seg, hseg, heq⟩
    exact ⟨seg.recovered, List.mem_map_of_mem hseg, (seg.recovered_id).trans heq⟩
  . simp

-- A rotation closes the live segment.
theorem closing {l : SegmentLog} {io : RotateIo} {mid : List Segment}
    (h : Tidy (l.active.map (·.id)) crashed segs) (hholds : Holds l.files segs)
    (hio : l.active ≠ none → io.sync = true ∧ io.rename = true) (hclosing : Closing l io segs mid)
    : Tidy none crashed mid := by
  cases hclosing with
  | kept hkept =>
    have hnone : l.active = none := by
      by_contra hsome
      rcases hkept with hnone | hlost
      . exact hsome hnone
      . exact hlost (hio hsome)
    rw [hnone] at h
    exact h
  | @closed a older last hactive hbacks _ hsegs =>
    subst hsegs
    rw [hactive, Option.map_some, hbacks.id_eq] at h
    have hlast : last.id ∉ crashed := fun hmem => h.apart last.id hmem rfl
    constructor
    . intro seg hseg
      rw [List.mem_append, List.mem_singleton] at hseg
      rcases hseg with hseg | rfl
      . have hne : ¬(some last.id = some seg.id) := by
          have hlt := (List.pairwise_append.mp hholds.sorted).2.2 seg hseg last (by simp)
          rw [Option.some.injEq]
          omega
        have hstate := h.state_eq seg (List.mem_append_left _ hseg)
        rw [if_neg hne] at hstate
        rw [if_neg (by simp)]
        exact hstate
      . have hlast' : last.closed.id ∉ crashed := hlast
        rw [if_neg (by simp), if_neg hlast']
        rfl
    . intro id hid
      apply exists_id_replaceLast _ (h.known id hid)
      rfl
    . simp

end Tidy

-- Every receipt counts the records and the bytes that its segment had before.
def Located (accepted : List Accepted) : Prop :=
  ∀ before x after, accepted = before ++ x :: after →
    x.receipt.recordIndex = (recordsIn before x.segmentId).length
      ∧ x.receipt.offsetInSegment
        = (Records.encodeAll RECORD_HEADER_BYTES (recordsIn before x.segmentId)).length
      ∧ x.receipt.bytesWritten = RECORD_HEADER_BYTES + x.data.length

theorem located_nil : Located [] := by
  intro before x after h
  simp at h

theorem Located.append {accepted : List Accepted} (h : Located accepted) {x : Accepted}
    (hindex : x.receipt.recordIndex = (recordsIn accepted x.segmentId).length)
    (hoffset : x.receipt.offsetInSegment
      = (Records.encodeAll RECORD_HEADER_BYTES (recordsIn accepted x.segmentId)).length)
    (hwritten : x.receipt.bytesWritten = RECORD_HEADER_BYTES + x.data.length)
    : Located (accepted ++ [x]) := by
  intro before y after heq
  rcases List.eq_nil_or_concat after with rfl | ⟨after, z, rfl⟩
  . rcases List.append_inj' heq rfl with ⟨rfl, hy⟩
    rw [List.singleton_inj] at hy
    rw [← hy]
    exact ⟨hindex, hoffset, hwritten⟩
  . rw [List.concat_eq_append, ← List.cons_append, ← List.append_assoc] at heq
    exact h before y after (List.append_inj' heq rfl).1

namespace Session

structure Faithful (config : Config) (s : Session) (segs : List Segment) : Prop where
  inv : s.Inv config segs
  tidy : Tidy s.live s.crashed segs
  known : ∀ id, s.live = some id → ∃ seg ∈ segs, seg.id = id
  located : Located s.accepted
  short : ∀ x ∈ s.accepted, x.data.length < 256 ^ RECORD_HEADER_BYTES
  uninterrupted : ∀ log, s.process = .up log → s.interrupted = none

theorem faithful_start (config : Config) : start.Faithful config [] := by
  constructor
  . exact inv_start config
  . constructor
    . simp
    . simp [start]
    . simp [start]
  . intro id hid
    contradiction
  . exact located_nil
  . simp [start]
  . intro log hup
    contradiction

end Session

theorem not_tears_done : ¬AppendIo.done.Tears := by
  rintro (⟨written, hheader, _⟩ | ⟨_, written, hbody⟩)
  . cases hheader
  . cases hbody

-- After a rotation the new segment is the live one.
theorem Rotated.tidy {accepted : List Accepted} {l l' : SegmentLog} {segs segs' : List Segment}
    {result : Except StorageError (Option String)} {crashed : List Nat}
    (hrotated : Rotated l .done segs l' result segs') (hlogged : Logged accepted l segs)
    (hlogged' : Logged accepted l' segs') (h : Tidy (l.active.map (·.id)) crashed segs)
    : Tidy (l'.active.map (·.id)) crashed segs' := by
  cases hrotated with
  | failed e hio => exact absurd (done_rotates l) hio
  | @opened path mid a hio hclosing hactive hbacks =>
    rw [hactive, Option.map_some]
    apply (h.closing hlogged.shelved.holds hio.1 hclosing).fresh
    intro seg hseg
    exact (List.pairwise_append.mp hlogged'.shelved.holds.sorted).2.2 seg hseg (freshSegment a.id)
      (List.mem_singleton_self _)

theorem Ready.tidy {accepted : List Accepted} {l l₁ : SegmentLog} {segs segs₁ : List Segment}
    {data : List UInt8} {crashed : List Nat} (hready : Ready l data .done segs l₁ segs₁)
    (hlogged : Logged accepted l segs) (hlogged₁ : Logged accepted l₁ segs₁)
    (h : Tidy (l.active.map (·.id)) crashed segs) : Tidy (l₁.active.map (·.id)) crashed segs₁ := by
  cases hready with
  | room => exact h
  | rotated hmust hrotated => exact hrotated.tidy hlogged hlogged₁ h

-- The active segment is one of the directory.
theorem Logged.known {accepted : List Accepted} {l : SegmentLog} {segs : List Segment}
    (h : Logged accepted l segs) {id : Nat} (hid : l.active.map (·.id) = some id)
    : ∃ seg ∈ segs, seg.id = id := by
  rcases Option.map_eq_some_iff.mp hid with ⟨a, hactive, rfl⟩
  rcases h.active a hactive with ⟨older, last, rfl, hbacks⟩
  exact ⟨last, by simp, hbacks.id_eq.symm⟩

namespace Session

def ShortData : Operation → Prop
  | .append data => data.length < 256 ^ RECORD_HEADER_BYTES
  | _ => True

theorem faithful_append {config : Config} {log : SegmentLog} {accepted : List Accepted}
    {crashed : List Nat} {segs : List Segment} (hconfig : log.config = config)
    (hlogged : Logged accepted log segs) (htidy : Tidy (log.active.map (·.id)) crashed segs)
    (hlocated : Located accepted)
    (hshort : ∀ x ∈ accepted, x.data.length < 256 ^ RECORD_HEADER_BYTES) {data : List UInt8}
    (hdata : data.length < 256 ^ RECORD_HEADER_BYTES)
    : ∃ segs', Faithful config
        ⟨.up (log.append data .done).1, acceptedAfter accepted (.up log) (.append data .done), crashed,
          none⟩ segs' := by
  have hwhole : log.Reaches data .done → ¬AppendIo.done.Tears := fun _ => not_tears_done
  rcases hlogged.append hwhole with ⟨accepted', segs', happended, hlogged', hconfig'⟩
  rw [happended.acceptedAfter]
  generalize (log.append data .done).1 = log', (log.append data .done).2 = result
    at happended hlogged' hconfig'
  have hinv : Inv config ⟨.up log', accepted', crashed, none⟩ segs' :=
    ⟨hconfig'.trans hconfig, hlogged'⟩
  refine ⟨segs', hinv, ?_, fun _ => hlogged'.known, ?_, ?_, fun _ _ => rfl⟩
  . unfold live
    dsimp only
    cases happended with
    | rejected hadmits hl =>
      rw [hl]
      exact htidy
    | notRotated hadmits hmust hrotated =>
      cases hrotated with
      | failed e hio => exact absurd (done_rotates log) hio
    | notWritten hreaches hwriting hactive hio => cases hio
    | @written l₁ older last a hreaches hwriting hactive =>
      have htidy₁ := hwriting.ready.tidy hlogged hwriting.logged htidy
      rw [hwriting.active] at htidy₁
      rw [hactive]
      exact htidy₁.push data
  . cases happended with
    | rejected => exact hlocated
    | notRotated => exact hlocated
    | notWritten => exact hlocated
    | @written l₁ older last a hreaches hwriting hactive =>
      have hid : (Accepted.mk (a.receipt data) data).segmentId = last.id := hwriting.backs.id_eq
      have hrecords := hwriting.logged.shelved.records last (by simp)
      apply hlocated.append
      . rw [hid, ← hrecords]
        exact hwriting.backs.recordCount_eq
      . rw [hid, ← hrecords]
        exact hwriting.backs.writtenBytes_eq
      . rfl
  . intro x hx
    cases happended with
    | rejected => exact hshort x hx
    | notRotated => exact hshort x hx
    | notWritten => exact hshort x hx
    | written =>
      rw [List.mem_append, List.mem_singleton] at hx
      rcases hx with hx | rfl
      . exact hshort x hx
      . exact hdata

theorem faithful_step {config : Config} {s : Session} {segs : List Segment} (h : s.Faithful config segs)
    {op : Operation} (hdata : ShortData op)
    : ∃ segs', (s.step config op.command).Faithful config segs' := by
  rcases s with ⟨process, accepted, crashed, interrupted⟩
  rcases h with ⟨hinv, htidy, hknown, hlocated, hshort, hidle⟩
  cases process with
  | down files =>
    cases op with
    | «open» =>
      refine ⟨segs.map Segment.recovered, ⟨rfl, Shelved.open hinv⟩, htidy.recovered hknown, ?_, hlocated,
        hshort, fun _ _ => rfl⟩
      intro id hid
      contradiction
    | _ => exact ⟨segs, hinv, htidy, hknown, hlocated, hshort, hidle⟩
  | up log =>
    rcases hinv with ⟨hconfig, hlogged⟩
    have hnone : interrupted = none := hidle log rfl
    subst hnone
    cases op with
    | «open» => exact ⟨segs, ⟨hconfig, hlogged⟩, htidy, hknown, hlocated, hshort, hidle⟩
    | sync => exact ⟨segs, ⟨hconfig, hlogged⟩, htidy, hknown, hlocated, hshort, hidle⟩
    | rotate =>
      rcases hlogged.rotate .done with ⟨segs', hrotated, hlogged', hconfig'⟩
      refine ⟨segs', ⟨hconfig'.trans hconfig, hlogged'⟩, hrotated.tidy hlogged hlogged' htidy, ?_,
        hlocated, hshort, fun _ _ => rfl⟩
      intro id hid
      exact hlogged'.known hid
    | crash =>
      have hshelved := hlogged.shelved
      rw [hconfig] at hshelved
      exact ⟨segs, hshelved, htidy, hknown, hlocated, hshort, fun _ hup => by contradiction⟩
    | close =>
      rcases hlogged.close .done true with ⟨segs', hended, hshelved⟩
      rw [hconfig] at hshelved
      have htidy' : Tidy none crashed segs' := by
        cases hended with
        | idle hactive =>
          unfold live at htidy
          dsimp only at htidy
          rw [hactive] at htidy
          exact htidy
        | failed hrotated =>
          cases hrotated with
          | failed e hio => exact absurd (done_rotates log) hio
        | discarded hio hclosing => exact htidy.closing hlogged.shelved.holds hio.1 hclosing
        | left id hio hclosing hremoves => contradiction
      refine ⟨segs', hshelved, htidy', ?_, hlocated, hshort, fun _ hup => by contradiction⟩
      intro id hid
      contradiction
    | append data => exact faithful_append hconfig hlogged htidy hlocated hshort hdata

end Session

-- The records of the closed segments, in the order of the segments.
def readClosed (files : Dir) (active : Option Active) : Except ReadError (List (List UInt8)) :=
  (((segments files active).filter (·.state = .closed)).mapM (readSegmentRecords files ·.path)).map
    List.flatten

-- The record is where the receipt says, by its index and by its offset.
def Locates (files : Dir) (path : String) (x : Accepted) : Prop :=
  ∃ bytes records, files.lookup path = some bytes ∧ readSegmentRecords files path = .ok records
    ∧ records[x.receipt.recordIndex]? = some x.data
    ∧ Records.encode RECORD_HEADER_BYTES x.data <+: bytes.drop x.receipt.offsetInSegment
    ∧ x.receipt.bytesWritten = (Records.encode RECORD_HEADER_BYTES x.data).length

structure ReadsBack (config : Config) (s : Session) : Prop where
  closed : readClosed s.process.files s.process.active
    = .ok ((s.accepted.filter
        (fun x => x.segmentId ∉ s.crashed ∧ s.live ≠ some x.segmentId)).map (·.data))
  ascending : ((segments s.process.files s.process.active).map (·.id)).Pairwise (· < ·)
  located : ∀ x ∈ s.accepted, ∃ info ∈ segments s.process.files s.process.active,
    info.id = x.segmentId ∧ Locates s.process.files info.path x
  quarantined : ∀ id ∈ s.crashed, ∃ info ∈ segments s.process.files s.process.active,
    info.id = id ∧ info.state = .quarantined
      ∧ readSegmentRecords s.process.files info.path = .ok (recordsIn s.accepted id)
  sized : ∀ info ∈ segments s.process.files s.process.active, info.state = .closed →
    info.sizeBytes ≤ config.maxSegmentBytes
      ∨ ∃ r, readSegmentRecords s.process.files info.path = .ok [r]

theorem mapM_ok {α β ε : Type} {f : α → Except ε β} {g : α → β} {l : List α}
    (h : ∀ a ∈ l, f a = .ok (g a)) : l.mapM f = .ok (l.map g) := by
  induction l with
  | nil => rfl
  | cons a l ih =>
    rw [List.mapM_cons, h a (by simp), ih (fun b hb => h b (by simp [hb]))]
    rfl

theorem Located.locates {accepted : List Accepted} (h : Located accepted) {files : Dir}
    {segs : List Segment} (hholds : Holds files segs) {seg : Segment} (hseg : seg ∈ segs)
    (hrecords : seg.records = recordsIn accepted seg.id) (hshort : seg.Short) {x : Accepted}
    (hx : x ∈ accepted) (hid : seg.id = x.segmentId) : Locates files seg.path x := by
  rcases List.mem_iff_append.mp hx with ⟨before, after, rfl⟩
  rcases h before x after rfl with ⟨hindex, hoffset, hwritten⟩
  have hsplit : seg.records
      = recordsIn before x.segmentId ++ x.data :: recordsIn after x.segmentId := by
    rw [hrecords, hid, recordsIn_append]
    simp [recordsIn]
  refine ⟨seg.bytes, seg.records, hholds.lookup hseg,
    (hholds.readSegmentRecords_eq_iff hseg).mpr hshort, ?_, ?_, ?_⟩
  . rw [hsplit, hindex]
    simp
  . rw [Segment.bytes, hsplit, Records.encodeAll_append, Records.encodeAll_cons, hoffset,
      List.drop_left]
    exact List.prefix_append _ _
  . rw [hwritten, Records.encode, List.length_append, Bytes.length_bigEndian]

namespace Session.Faithful

variable {config : Config} {s : Session} {segs : List Segment}

theorem seg_short (h : s.Faithful config segs) {seg : Segment} (hseg : seg ∈ segs) : seg.Short := by
  intro r hr
  rw [h.inv.shelved.records seg hseg] at hr
  rcases List.mem_map.mp hr with ⟨x, hx, rfl⟩
  exact h.short x (List.mem_of_mem_filter hx)

theorem read_eq (h : s.Faithful config segs) {seg : Segment} (hseg : seg ∈ segs)
    : readSegmentRecords s.process.files seg.path = .ok (recordsIn s.accepted seg.id) := by
  rw [← h.inv.shelved.records seg hseg]
  exact (h.inv.shelved.holds.readSegmentRecords_eq_iff hseg).mpr (h.seg_short hseg)

theorem closed_iff (h : s.Faithful config segs) {x : Accepted} (hx : x ∈ s.accepted)
    : x.segmentId ∈ (segs.filter (·.state = .closed)).map (·.id)
        ↔ x.segmentId ∉ s.crashed ∧ s.live ≠ some x.segmentId := by
  have hstate : ∀ seg ∈ segs, seg.state = .closed ↔ seg.id ∉ s.crashed ∧ s.live ≠ some seg.id := by
    intro seg hseg
    rw [h.tidy.state_eq seg hseg]
    split
    . next hlive => simp [hlive]
    . next hlive =>
      split
      . next hcrashed => simp [hcrashed]
      . next hcrashed => simp [hcrashed, hlive]
  rw [List.mem_map]
  constructor
  . rintro ⟨seg, hseg, heq⟩
    rw [List.mem_filter, decide_eq_true_iff] at hseg
    rw [← heq]
    exact (hstate seg hseg.1).mp hseg.2
  . intro hx'
    rcases h.inv.shelved.kept x hx with ⟨seg, hseg, heq⟩
    rw [← heq] at hx' ⊢
    refine ⟨seg, ?_, rfl⟩
    rw [List.mem_filter, decide_eq_true_iff]
    exact ⟨hseg, (hstate seg hseg).mpr hx'⟩

theorem readClosed_eq (h : s.Faithful config segs)
    : readClosed s.process.files s.process.active
        = .ok ((s.accepted.filter
            (fun x => x.segmentId ∉ s.crashed ∧ s.live ≠ some x.segmentId)).map (·.data)) := by
  have hread : ∀ info ∈ (segs.map (·.info s.process.active)).filter (·.state = .closed),
      readSegmentRecords s.process.files info.path = .ok (recordsIn s.accepted info.id) := by
    intro info hinfo
    rcases List.mem_map.mp (List.mem_of_mem_filter hinfo) with ⟨seg, hseg, rfl⟩
    exact h.read_eq hseg
  have hclosed : (segs.map (·.info s.process.active)).filter (·.state = .closed)
      = (segs.filter (·.state = .closed)).map (·.info s.process.active) :=
    List.filter_map
  have hids : ((segs.filter (·.state = .closed)).map (·.id)).Pairwise (· < ·) := by
    rw [List.pairwise_map]
    exact h.inv.shelved.holds.sorted.filter _
  have hgroups := Grouping.flatMap_filter h.inv.shelved.ordered hids
  have hfilter : s.accepted.filter (·.segmentId ∈ (segs.filter (·.state = .closed)).map (·.id))
      = s.accepted.filter (fun x => x.segmentId ∉ s.crashed ∧ s.live ≠ some x.segmentId) := by
    apply List.filter_congr
    intro x hx
    exact decide_eq_decide.mpr (h.closed_iff hx)
  unfold readClosed
  rw [h.inv.shelved.holds.segments_eq, mapM_ok hread, hclosed, ← hfilter, ← hgroups]
  unfold recordsIn
  rw [List.map_map, List.map_flatMap, List.flatMap_map]
  rfl

theorem readsBack (h : s.Faithful config segs) : ReadsBack config s := by
  have hsegments := h.inv.shelved.holds.segments_eq s.process.active
  constructor
  . exact h.readClosed_eq
  . rw [hsegments, List.map_map, List.pairwise_map]
    exact h.inv.shelved.holds.sorted
  . intro x hx
    rcases h.inv.shelved.kept x hx with ⟨seg, hseg, hid⟩
    rw [hsegments]
    refine ⟨_, List.mem_map_of_mem hseg, hid, ?_⟩
    exact h.located.locates h.inv.shelved.holds hseg (h.inv.shelved.records seg hseg)
      (h.seg_short hseg) hx hid
  . intro id hid
    rcases h.tidy.known id hid with ⟨seg, hseg, heq⟩
    rw [hsegments]
    refine ⟨_, List.mem_map_of_mem hseg, heq, ?_, ?_⟩
    . have hstate := h.tidy.state_eq seg hseg
      rw [heq, if_neg (h.tidy.apart id hid), if_pos hid] at hstate
      exact hstate
    . rw [← heq]
      exact h.read_eq hseg
  . intro info hinfo hclosed
    rw [hsegments] at hinfo
    rcases List.mem_map.mp hinfo with ⟨seg, hseg, rfl⟩
    rcases h.inv.shelved.sized seg hseg with hsize | hone
    . exact .inl hsize
    . rcases List.length_eq_one_iff.mp hone with ⟨r, hr⟩
      right
      refine ⟨r, ?_⟩
      rw [← hr, h.inv.shelved.records seg hseg]
      exact h.read_eq hseg

end Session.Faithful

/--
In every state that a run of successful operations on short records reaches, the closed segments read
back as the accepted records outside the segments that are active or were at a crash, the receipts locate
their records, what a crash interrupted is in quarantined files, and no closed segment is too large unless
it holds a single record.
-/
theorem reads_back (config : Config) (ops : List Operation)
    (hshort : ∀ data, .append data ∈ ops → data.length < 2 ^ 32)
    : Run.Always (fun s op => Session.step config s op.command) (ReadsBack config) .start ops := by
  have hmem : Run.Guarded (fun s (op : Operation) => Session.step config s op.command)
      (fun _ op => op ∈ ops) Session.start ops :=
    Run.guarded_mem Session.start ops
  have hfaithful : Run.Always (fun s (op : Operation) => Session.step config s op.command)
      (fun s => ∃ segs, s.Faithful config segs) Session.start ops := by
    refine Run.always_of_guarded ?_ ?_ hmem
    . exact ⟨[], Session.faithful_start config⟩
    . rintro s op ⟨segs, h⟩ hop
      apply Session.faithful_step h
      cases op with
      | append data => exact hshort data hop
      | _ => trivial
  refine hfaithful.mono ?_
  rintro s ⟨segs, h⟩
  exact h.readsBack

-- A segment that is full, a rotation by hand, a crash, and a log that is opened again and closed.
def readBackRun : List Operation :=
  [.open, .append [1, 2], .append [3], .rotate, .append [4], .crash, .open, .append [5], .sync, .close]

theorem reads_back_readBackRun
    : Run.Always (fun s op => Session.step ⟨10, 100, ⟨10000⟩⟩ s op.command)
        (ReadsBack ⟨10, 100, ⟨10000⟩⟩) .start readBackRun := by
  apply reads_back
  intro data hdata
  simp only [readBackRun, List.mem_cons, Operation.append.injEq, List.not_mem_nil, reduceCtorEq,
    false_or, or_false] at hdata
  rcases hdata with rfl | rfl | rfl | rfl <;> decide

end Athar.Storage
