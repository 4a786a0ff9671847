import Athar.Storage.Directory

/-!
This module contains what a log knows of its directory: how many bytes it holds, which ids are free, and what
is in the active segment. Every operation whose file operations succeed, and opening the log again, keeps
that in step with the files, whatever configuration the log is opened with.
-/

namespace Athar.Storage

-- What the log keeps in memory of its active segment.
structure Segment.Backs (seg : Segment) (a : Active) : Prop where
  id_eq : a.id = seg.id
  state_eq : seg.state = .active
  path_eq : a.path = seg.path
  writtenBytes_eq : a.writtenBytes = seg.bytes.length
  recordCount_eq : a.recordCount = seg.records.length

/--
The log is in step with its directory, which holds the given segments.
-/
structure Tracks (l : SegmentLog) (segs : List Segment) : Prop where
  holds : Holds l.files segs
  fresh : ∀ seg ∈ segs, seg.id < l.nextSegId
  total : l.totalBytes = l.files.bytes
  active : ∀ a, l.active = some a → ∃ older last, segs = older ++ [last] ∧ last.Backs a

section

variable {older : List Segment} {last last' : Segment} {id : Nat}

theorem exists_id_replaceLast (hid : last'.id = last.id) (h : ∃ seg ∈ older ++ [last], seg.id = id)
    : ∃ seg ∈ older ++ [last'], seg.id = id := by
  rcases h with ⟨seg, hseg, heq⟩
  rw [List.mem_append, List.mem_singleton] at hseg
  rcases hseg with hseg | rfl
  . exact ⟨seg, List.mem_append_left _ hseg, heq⟩
  . exact ⟨last', by simp, hid.trans heq⟩

theorem id_lt_replaceLast (hid : last'.id = last.id) (h : ∀ seg ∈ older ++ [last], seg.id < id)
    : ∀ seg ∈ older ++ [last'], seg.id < id := by
  intro seg hseg
  rw [List.mem_append, List.mem_singleton] at hseg
  rcases hseg with hseg | rfl
  . exact h seg (List.mem_append_left _ hseg)
  . rw [hid]
    exact h last (by simp)

end

def Segment.closed (seg : Segment) : Segment := { seg with state := .closed }

-- The segment that the next `openActive` adds.
def freshSegment (id : Nat) : Segment := ⟨id, .active, []⟩

-- What the first half of a rotation does to the segments.
inductive Closing (l : SegmentLog) (io : RotateIo) (segs : List Segment) : List Segment → Prop
  | kept (h : l.active = none ∨ ¬(io.sync = true ∧ io.rename = true)) : Closing l io segs segs
  | closed {a : Active} {older : List Segment} {last : Segment} (hactive : l.active = some a)
    (hbacks : last.Backs a) (hio : io.sync = true ∧ io.rename = true) (hsegs : segs = older ++ [last])
    : Closing l io segs (older ++ [last.closed])

def Segment.push (seg : Segment) (data : List UInt8) : Segment :=
  { seg with records := seg.records ++ [data] }

def Active.push (a : Active) (data : List UInt8) : Active :=
  { a with
    writtenBytes := a.writtenBytes + (RECORD_HEADER_BYTES + data.length)
    recordCount := a.recordCount + 1 }

def Active.receipt (a : Active) (data : List UInt8) : AppendReceipt :=
  ⟨a.id, a.recordCount, a.writtenBytes, RECORD_HEADER_BYTES + data.length⟩

theorem Segment.bytes_push (seg : Segment) (data : List UInt8)
    : (seg.push data).bytes
        = seg.bytes ++ (Bytes.bigEndian RECORD_HEADER_BYTES data.length ++ data) := by
  unfold Segment.bytes Segment.push
  rw [Records.encodeAll_append, Records.encodeAll_singleton, Records.encode]

theorem Segment.Backs.push {seg : Segment} {a : Active} (h : seg.Backs a) (data : List UInt8)
    : (seg.push data).Backs (a.push data) := by
  constructor
  . exact h.id_eq
  . exact h.state_eq
  . exact h.path_eq
  . rw [seg.bytes_push, List.length_append, List.length_append, Bytes.length_bigEndian,
      ← h.writtenBytes_eq]
    rfl
  . have := h.recordCount_eq
    simp [Segment.push, Active.push, this]

theorem freshSegment_backs (id : Nat) : (freshSegment id).Backs ⟨id, wipPath id, 0, 0⟩ := by
  constructor
  . rfl
  . rfl
  . rfl
  . rfl
  . rfl

-- Files move or grow, the segments follow.
theorem Holds.bytes_congr {files files' : Dir} {segs' : List Segment} (h : Holds files segs)
    (h' : Holds files' segs') (hbytes : segs'.flatMap Segment.bytes = segs.flatMap Segment.bytes)
    : files'.bytes = files.bytes := by
  rw [h.bytes_eq, h'.bytes_eq, hbytes]

theorem Dir.bytes_append {files : Dir} {name : String} {old : List UInt8}
    {rest : List ((_ : String) × List UInt8)} (h : files.entries.Perm (⟨name, old⟩ :: rest))
    (bytes : List UInt8)
    : (files.append name bytes).entries.Perm (⟨name, old ++ bytes⟩ :: rest)
        ∧ (files.append name bytes).bytes = files.bytes + bytes.length := by
  have hlookup : files.lookup name = some old := Assoc.lookup_of_perm h (by simp)
  have hperm : (files.append name bytes).entries.Perm (⟨name, old ++ bytes⟩ :: rest) := by
    unfold Dir.append
    rw [hlookup]
    exact Assoc.perm_insert h _
  refine ⟨hperm, ?_⟩
  unfold Dir.bytes
  rw [(hperm.flatMap_right (·.2)).length_eq, (h.flatMap_right (·.2)).length_eq]
  simp only [List.flatMap_cons, List.length_append]
  omega

-- The checks of `append` before it comes to any file.
def SegmentLog.Admits (l : SegmentLog) (data : List UInt8) : Prop :=
  data.length ≤ l.config.maxRecordBytes
    ∧ l.config.quota.check l.totalBytes (RECORD_HEADER_BYTES + data.length) = .yes

theorem done_rotates (l : SegmentLog) : l.Rotates .done :=
  ⟨fun _ => ⟨rfl, rfl⟩, rfl⟩

namespace SegmentLog

section

variable {l : SegmentLog} {io : RotateIo} {a : Active}

theorem closeActive_none (h : l.active = none) (io : RotateIo) : l.closeActive io = (l, .ok none) := by
  unfold SegmentLog.closeActive
  rw [h]

theorem closeActive_closed (h : l.active = some a) (hio : io.sync = true ∧ io.rename = true)
    : l.closeActive io
        = ({ l with
            active := none
            files := l.files.rename a.path (withExtension a.path SEG_EXT) },
          .ok (some (withExtension a.path SEG_EXT))) := by
  simp [SegmentLog.closeActive, h, hio]

end

theorem append_rejected {l : SegmentLog} {data : List UInt8} (h : ¬l.Admits data) (io : AppendIo)
    : ∃ e, l.append data io = (l, .error e) := by
  unfold SegmentLog.append
  split
  . exact ⟨_, rfl⟩
  . next hsize =>
    dsimp only
    cases hquota : l.config.quota.check l.totalBytes (RECORD_HEADER_BYTES + data.length) with
    | no overBy => exact ⟨_, rfl⟩
    | yes => exact absurd ⟨Nat.not_lt.mp hsize, hquota⟩ h

theorem append_admitted {l : SegmentLog} {data : List UInt8} (h : l.Admits data) (io : AppendIo)
    : l.append data io
        = if l.mustRotate (RECORD_HEADER_BYTES + data.length) then
            match l.rotate io.rotate with
            | (l, .error e) => (l, .error e)
            | (l, .ok _) => l.writeRecord data io
          else
            l.writeRecord data io := by
  have hquota := h.2
  unfold SegmentLog.append
  rw [if_neg (Nat.not_lt.mpr h.1)]
  dsimp only
  generalize l.config.quota.check l.totalBytes (RECORD_HEADER_BYTES + data.length) = fits at hquota ⊢
  subst hquota
  rfl

end SegmentLog

namespace Tracks

variable {l : SegmentLog} {segs older newer : List Segment} {last seg : Segment} {a : Active}

theorem closeActive (h : Tracks l (older ++ [last])) (hactive : l.active = some a)
    (hbacks : last.Backs a) {io : RotateIo} (hio : io.sync = true ∧ io.rename = true)
    : Tracks (l.closeActive io).1 (older ++ [last.closed]) := by
  have hpath : withExtension a.path SEG_EXT = segmentPath last.id .closed := by
    rw [hbacks.path_eq, Segment.path, hbacks.state_eq]
    exact withExtension_wipPath last.id
  have hholds := h.holds.rename .closed
  rw [SegmentLog.closeActive_closed hactive hio, hpath, hbacks.path_eq]
  constructor
  . exact hholds
  . apply id_lt_replaceLast _ h.fresh
    rfl
  . refine h.total.trans (h.holds.bytes_congr hholds ?_).symm
    simp [Segment.bytes]
  . intro a ha
    contradiction

theorem taken (h : Tracks l segs) : Tracks { l with active := none } segs where
  holds := h.holds
  fresh := h.fresh
  total := h.total
  active a ha := by contradiction

theorem openActive (h : Tracks l segs) {io : RotateIo} (hopen : io.open = true)
    : Tracks (l.openActive io).1 (segs ++ [freshSegment l.nextSegId]) := by
  have hholds := h.holds.openAppend h.fresh
  unfold SegmentLog.openActive
  rw [hopen]
  constructor
  . exact hholds
  . intro seg hseg
    rw [List.mem_append, List.mem_singleton] at hseg
    rcases hseg with hseg | rfl
    . exact Nat.lt_succ_of_lt (h.fresh seg hseg)
    . exact Nat.lt_succ_self _
  . refine h.total.trans (h.holds.bytes_congr hholds ?_).symm
    simp [Segment.bytes]
  . intro a ha
    rw [← Option.some.inj ha]
    exact ⟨segs, _, rfl, freshSegment_backs l.nextSegId⟩

theorem writeRecord (h : Tracks l (older ++ [last])) (hactive : l.active = some a)
    (hbacks : last.Backs a) {data : List UInt8} {io : AppendIo} (hheader : io.header = .done)
    (hbody : io.body = .done) : Tracks (l.writeRecord data io).1 (older ++ [last.push data]) := by
  have hpath := hbacks.path_eq
  have hfirst := Dir.bytes_append h.holds.entries_middle
    (Bytes.bigEndian RECORD_HEADER_BYTES data.length)
  have hsecond := Dir.bytes_append hfirst.1 data
  rw [SegmentLog.writeRecord_done hactive data hheader hbody]
  constructor
  . apply h.holds.of_entries_middle (last.push data) rfl
    dsimp only
    rw [hpath]
    have hentry : (last.push data).entry = ⟨last.path, last.bytes
        ++ Bytes.bigEndian RECORD_HEADER_BYTES data.length ++ data⟩ := by
      unfold Segment.entry
      rw [last.bytes_push, List.append_assoc]
      rfl
    rw [hentry]
    exact hsecond.1
  . apply id_lt_replaceLast _ h.fresh
    rfl
  . dsimp only
    rw [hpath, hsecond.2, hfirst.2, h.total, Bytes.length_bigEndian]
    omega
  . intro a' ha'
    rw [← Option.some.inj ha']
    exact ⟨older, _, rfl, hbacks.push data⟩

theorem active_id_ne (h : Tracks l (older ++ seg :: newer)) (hclosed : seg.state = .closed)
    (ha : l.active = some a) : a.id ≠ seg.id := by
  intro heq
  rcases h.active a ha with ⟨before, last, hsegs, hbacks⟩
  have hlast : last ∈ older ++ seg :: newer := by
    rw [hsegs]
    simp
  have hsame : last = seg := by
    apply h.holds.eq_of_id_eq hlast (by simp)
    rw [← hbacks.id_eq]
    exact heq
  have hstate := hbacks.state_eq
  rw [hsame, hclosed] at hstate
  contradiction

-- The active segment is the last one and is not closed, so it is not the one that goes.
theorem evict (h : Tracks l (older ++ seg :: newer)) (hclosed : seg.state = .closed)
    : Tracks { l with
        files := l.files.erase seg.path
        totalBytes := l.totalBytes - seg.bytes.length } (older ++ newer) := by
  have hholds := h.holds.erase
  have hkeeps : ∀ other ∈ older ++ newer, other ∈ older ++ seg :: newer :=
    ((List.sublist_cons_self seg newer).append_left older).subset
  constructor
  . exact hholds
  . intro other hother
    exact h.fresh other (hkeeps other hother)
  . dsimp only
    rw [h.total, h.holds.bytes_eq, hholds.bytes_eq]
    simp only [List.flatMap_append, List.flatMap_cons, List.length_append]
    omega
  . intro a ha
    rcases h.active a ha with ⟨older', last, hsegs, hbacks⟩
    rcases List.eq_nil_or_concat newer with rfl | ⟨newer', last', rfl⟩
    . have hlast := (List.append_inj' hsegs rfl).2
      rw [List.singleton_inj] at hlast
      rw [hlast, hbacks.state_eq] at hclosed
      contradiction
    . rw [List.concat_eq_append, ← List.cons_append, ← List.append_assoc] at hsegs
      have hlast := (List.append_inj' hsegs rfl).2
      rw [List.singleton_inj] at hlast
      rw [← hlast] at hbacks
      exact ⟨older ++ newer', last', by simp, hbacks⟩

end Tracks

theorem Holds.open_tracks {files : Dir} {segs : List Segment} (h : Holds files segs) (config : Config)
    : Tracks (SegmentLog.open config files) (segs.map Segment.recovered) := by
  rcases h.open config with ⟨hholds, hfresh, htotal⟩
  constructor
  . exact hholds
  . intro seg hseg
    rcases List.mem_map.mp hseg with ⟨old, hold, rfl⟩
    rw [old.recovered_id]
    exact hfresh old hold
  . exact htotal
  . intro a ha
    contradiction

end Athar.Storage
