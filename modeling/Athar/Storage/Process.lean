import Athar.Lib.Run
import Athar.Storage.Tracking

/-!
This module contains what holds of a log and its directory in every run whose failed writes leave nothing
behind: every segment holds the records that were accepted for it, in their order, and the log knows how
much it has written. Each operation of the log comes with what it does to the row of segments.
-/

namespace Athar.Storage

def Accepted.segmentId (x : Accepted) : Nat := x.receipt.segmentId

def recordsIn (accepted : List Accepted) (id : Nat) : List (List UInt8) :=
  (accepted.filter (·.segmentId = id)).map (·.data)

theorem recordsIn_append (accepted more : List Accepted) (id : Nat)
    : recordsIn (accepted ++ more) id = recordsIn accepted id ++ recordsIn more id := by
  rw [recordsIn, recordsIn, recordsIn, List.filter_append, List.map_append]

structure Shelved (config : Config) (accepted : List Accepted) (files : Dir) (segs : List Segment)
    : Prop where
  holds : Holds files segs
  records : ∀ seg ∈ segs, seg.records = recordsIn accepted seg.id
  kept : ∀ x ∈ accepted, ∃ seg ∈ segs, seg.id = x.segmentId
  ordered : accepted.Pairwise (·.segmentId ≤ ·.segmentId)
  sized : ∀ seg ∈ segs, seg.bytes.length ≤ config.maxSegmentBytes ∨ seg.records.length = 1

structure Logged (accepted : List Accepted) (l : SegmentLog) (segs : List Segment) : Prop where
  shelved : Shelved l.config accepted l.files segs
  fresh : ∀ seg ∈ segs, seg.id < l.nextSegId
  total : l.totalBytes = l.files.bytes
  active : ∀ a, l.active = some a → ∃ older last, segs = older ++ [last] ∧ last.Backs a

theorem shelved_empty (config : Config) : Shelved config [] ∅ [] := by
  constructor
  . exact holds_empty
  . simp
  . simp
  . exact List.Pairwise.nil
  . simp

namespace Shelved

variable {config : Config} {accepted : List Accepted} {files files' : Dir} {segs older newer : List Segment}
  {seg : Segment}

-- Files are renamed, so that segments change their state and nothing else.
theorem restate (h : Shelved config accepted files segs) (f : Segment → Segment)
    (hid : ∀ seg, (f seg).id = seg.id) (hrecords : ∀ seg, (f seg).records = seg.records)
    (hholds : Holds files' (segs.map f)) : Shelved config accepted files' (segs.map f) := by
  constructor
  . exact hholds
  . intro seg hseg
    rcases List.mem_map.mp hseg with ⟨old, hold, rfl⟩
    rw [hid, hrecords]
    exact h.records old hold
  . intro x hx
    rcases h.kept x hx with ⟨seg, hseg, heq⟩
    exact ⟨f seg, List.mem_map_of_mem hseg, (hid seg).trans heq⟩
  . exact h.ordered
  . intro seg hseg
    rcases List.mem_map.mp hseg with ⟨old, hold, rfl⟩
    rw [Segment.bytes, hrecords]
    exact h.sized old hold

theorem close (h : Shelved config accepted files (older ++ [seg]))
    (hholds : Holds files' (older ++ [{ seg with state := .closed }]))
    : Shelved config accepted files' (older ++ [{ seg with state := .closed }]) := by
  constructor
  . exact hholds
  . intro other hother
    rw [List.mem_append, List.mem_singleton] at hother
    rcases hother with hother | rfl
    . exact h.records other (List.mem_append_left _ hother)
    . exact h.records seg (by simp)
  . intro x hx
    apply exists_id_replaceLast _ (h.kept x hx)
    rfl
  . exact h.ordered
  . intro other hother
    rw [List.mem_append, List.mem_singleton] at hother
    rcases hother with hother | rfl
    . exact h.sized other (List.mem_append_left _ hother)
    . exact h.sized seg (by simp)

theorem recordsIn_fresh (h : Shelved config accepted files segs) {id : Nat}
    (hfresh : ∀ seg ∈ segs, seg.id ≠ id) : recordsIn accepted id = [] := by
  unfold recordsIn
  rw [List.map_eq_nil_iff, List.filter_eq_nil_iff]
  intro x hx heq
  rcases h.kept x hx with ⟨seg, hseg, hid⟩
  exact hfresh seg hseg (hid.trans (of_decide_eq_true heq))

theorem add (h : Shelved config accepted files segs) {id : Nat} (hfresh : ∀ seg ∈ segs, seg.id < id)
    : Shelved config accepted (files.openAppend (wipPath id)) (segs ++ [⟨id, .active, []⟩]) := by
  have hne : ∀ seg ∈ segs, seg.id ≠ id := by
    intro seg hseg
    have := hfresh seg hseg
    omega
  constructor
  . exact h.holds.openAppend hfresh
  . intro seg hseg
    rw [List.mem_append, List.mem_singleton] at hseg
    rcases hseg with hseg | rfl
    . exact h.records seg hseg
    . exact (h.recordsIn_fresh hne).symm
  . intro x hx
    rcases h.kept x hx with ⟨seg, hseg, heq⟩
    exact ⟨seg, List.mem_append_left _ hseg, heq⟩
  . exact h.ordered
  . intro seg hseg
    rw [List.mem_append, List.mem_singleton] at hseg
    rcases hseg with hseg | rfl
    . exact h.sized seg hseg
    . exact .inl (Nat.zero_le _)

-- A record goes into the last segment.
theorem accept (h : Shelved config accepted files (older ++ [seg])) {x : Accepted}
    (hid : x.segmentId = seg.id)
    (hsize : seg.records = []
      ∨ seg.bytes.length + (RECORD_HEADER_BYTES + x.data.length) ≤ config.maxSegmentBytes)
    (hholds : Holds files' (older ++ [{ seg with records := seg.records ++ [x.data] }]))
    : Shelved config (accepted ++ [x]) files'
        (older ++ [{ seg with records := seg.records ++ [x.data] }]) := by
  have holder : ∀ other ∈ older, other.id < seg.id := by
    intro other hother
    exact (List.pairwise_append.mp h.holds.sorted).2.2 other hother seg (by simp)
  constructor
  . exact hholds
  . intro other hother
    rw [List.mem_append, List.mem_singleton] at hother
    rcases hother with hother | rfl
    . have hne : ¬x.segmentId = other.id := by
        have := holder other hother
        omega
      rw [recordsIn_append, ← h.records other (List.mem_append_left _ hother)]
      simp [recordsIn, hne]
    . rw [recordsIn_append, ← h.records seg (by simp)]
      simp [recordsIn, hid]
  . intro y hy
    rw [List.mem_append, List.mem_singleton] at hy
    rcases hy with hy | rfl
    . apply exists_id_replaceLast _ (h.kept y hy)
      rfl
    . exact ⟨{ seg with records := seg.records ++ [y.data] }, by simp, hid.symm⟩
  . rw [List.pairwise_append]
    refine ⟨h.ordered, List.pairwise_singleton _ _, ?_⟩
    intro y hy z hz
    rw [List.mem_singleton] at hz
    rw [hz, hid]
    rcases h.kept y hy with ⟨other, hother, heq⟩
    rw [List.mem_append, List.mem_singleton] at hother
    rw [← heq]
    rcases hother with hother | rfl
    . exact Nat.le_of_lt (holder other hother)
    . exact Nat.le_refl _
  . intro other hother
    rw [List.mem_append, List.mem_singleton] at hother
    rcases hother with hother | rfl
    . exact h.sized other (List.mem_append_left _ hother)
    . rcases hsize with hnil | hroom
      . right
        simp [hnil]
      . left
        unfold Segment.bytes at hroom ⊢
        rw [Records.encodeAll_append, Records.encodeAll_singleton, Records.encode, List.length_append,
          List.length_append, Bytes.length_bigEndian]
        exact hroom

theorem evict (h : Shelved config accepted files (older ++ seg :: newer))
    : Shelved config (accepted.filter (·.segmentId ≠ seg.id)) (files.erase seg.path)
        (older ++ newer) := by
  have hkeeps : ∀ other ∈ older ++ newer, other ∈ older ++ seg :: newer :=
    ((List.sublist_cons_self seg newer).append_left older).subset
  constructor
  . exact h.holds.erase
  . intro other hother
    have hne := h.holds.id_ne hother
    rw [h.records other (hkeeps other hother)]
    unfold recordsIn
    rw [List.filter_filter]
    congr 1
    apply List.filter_congr
    intro x _
    by_cases hx : x.segmentId = other.id
    . simp [hx, hne]
    . simp [hx]
  . intro x hx
    rw [List.mem_filter] at hx
    rcases h.kept x hx.1 with ⟨other, hother, heq⟩
    refine ⟨other, ?_, heq⟩
    rw [List.mem_append, List.mem_cons] at hother
    rw [List.mem_append]
    rcases hother with hother | rfl | hother
    . exact .inl hother
    . exact absurd heq.symm (of_decide_eq_true hx.2)
    . exact .inr hother
  . exact h.ordered.filter _
  . intro other hother
    exact h.sized other (hkeeps other hother)

end Shelved

namespace SegmentLog

variable {l : SegmentLog} {io : RotateIo} {a : Active}

theorem closeActive_lost (h : l.active = some a) (hio : ¬(io.sync = true ∧ io.rename = true))
    : l.closeActive io = ({ l with active := none }, .error .io) := by
  unfold SegmentLog.closeActive
  rw [h]
  cases hsync : io.sync with
  | false => rfl
  | true =>
    cases hrename : io.rename with
    | false => rfl
    | true => exact absurd ⟨hsync, hrename⟩ hio

end SegmentLog

namespace Logged

variable {accepted : List Accepted} {l : SegmentLog} {segs : List Segment}

theorem tracks (h : Logged accepted l segs) : Tracks l segs where
  holds := h.shelved.holds
  fresh := h.fresh
  total := h.total
  active := h.active

theorem of_tracks (h : Tracks l segs) (hshelved : Shelved l.config accepted l.files segs)
    : Logged accepted l segs where
  shelved := hshelved
  fresh := h.fresh
  total := h.total
  active := h.active

theorem closeActive (h : Logged accepted l segs) (io : RotateIo)
    : ∃ segs', Closing l io segs segs' ∧ Logged accepted (l.closeActive io).1 segs'
        ∧ (l.closeActive io).1.active = none ∧ (l.closeActive io).1.config = l.config := by
  cases hactive : l.active with
  | none =>
    rw [SegmentLog.closeActive_none hactive]
    exact ⟨segs, .kept (.inl hactive), h, hactive, rfl⟩
  | some a =>
    by_cases hio : io.sync = true ∧ io.rename = true
    . rcases h.active a hactive with ⟨older, last, rfl, hbacks⟩
      have htracks := h.tracks.closeActive hactive hbacks hio
      rw [SegmentLog.closeActive_closed hactive hio] at htracks ⊢
      exact ⟨older ++ [last.closed], .closed hactive hbacks hio rfl,
        of_tracks htracks (h.shelved.close htracks.holds), rfl, rfl⟩
    . rw [SegmentLog.closeActive_lost hactive hio]
      exact ⟨segs, .kept (.inr hio), of_tracks h.tracks.taken h.shelved, rfl, rfl⟩

theorem openActive (h : Logged accepted l segs) {io : RotateIo} (hopen : io.open = true)
    : Logged accepted (l.openActive io).1 (segs ++ [freshSegment l.nextSegId])
        ∧ (l.openActive io).1.active = some ⟨l.nextSegId, wipPath l.nextSegId, 0, 0⟩
        ∧ (l.openActive io).1.config = l.config := by
  have htracks := h.tracks.openActive hopen
  have hshelved := h.shelved.add h.fresh
  unfold SegmentLog.openActive at htracks ⊢
  rw [hopen] at htracks ⊢
  exact ⟨of_tracks htracks hshelved, rfl, rfl⟩

theorem not_openActive (h : Logged accepted l segs) (hactive : l.active = none) {io : RotateIo}
    (hopen : ¬io.open = true)
    : Logged accepted (l.openActive io).1 segs ∧ (l.openActive io).1.active = none
        ∧ (l.openActive io).1.config = l.config := by
  unfold SegmentLog.openActive
  rw [if_pos hopen]
  refine ⟨?_, hactive, rfl⟩
  constructor
  . exact h.shelved
  . intro seg hseg
    exact Nat.lt_succ_of_lt (h.fresh seg hseg)
  . exact h.total
  . intro a ha
    rw [hactive] at ha
    contradiction

end Logged

-- What a rotation does to the segments, by its result.
inductive Rotated (l : SegmentLog) (io : RotateIo) (segs : List Segment) (l' : SegmentLog)
    : Except StorageError (Option String) → List Segment → Prop
  | opened (path : Option String) {mid : List Segment} {a : Active} (hio : l.Rotates io)
    (hclosing : Closing l io segs mid) (hactive : l'.active = some a)
    (hbacks : (freshSegment a.id).Backs a)
    : Rotated l io segs l' (.ok path) (mid ++ [freshSegment a.id])
  | failed (e : StorageError) {mid : List Segment} (hio : ¬l.Rotates io)
    (hclosing : Closing l io segs mid) (hactive : l'.active = none)
    : Rotated l io segs l' (.error e) mid

theorem Logged.rotate {accepted : List Accepted} {l : SegmentLog} {segs : List Segment}
    (h : Logged accepted l segs) (io : RotateIo)
    : ∃ segs', Rotated l io segs (l.rotate io).1 (l.rotate io).2 segs'
        ∧ Logged accepted (l.rotate io).1 segs' ∧ (l.rotate io).1.config = l.config := by
  rcases h.closeActive io with ⟨mid, hclosing, hmid, hnone, hconfig⟩
  unfold SegmentLog.rotate
  have hok : (∃ path, (l.closeActive io).2 = .ok path)
      ↔ (l.active ≠ none → io.sync = true ∧ io.rename = true) := by
    cases hactive : l.active with
    | none => simp [SegmentLog.closeActive_none hactive]
    | some a =>
      by_cases hio : io.sync = true ∧ io.rename = true
      . simp [SegmentLog.closeActive_closed hactive hio, hio]
      . simp [SegmentLog.closeActive_lost hactive hio, hio]
  generalize l.closeActive io = result at hmid hnone hconfig hok
  rcases result with ⟨l₁, e | path⟩
  . refine ⟨mid, .failed e ?_ hclosing hnone, hmid, hconfig⟩
    rintro ⟨hio, _⟩
    rcases hok.mpr hio with ⟨path, hpath⟩
    contradiction
  . have hclosed := hok.mp ⟨path, rfl⟩
    dsimp only at hmid hnone hconfig ⊢
    by_cases hopen : io.open = true
    . rcases hmid.openActive hopen with ⟨hlogged, hactive, hconfig'⟩
      have hok : (l₁.openActive io).2 = .ok () := by
        simp [SegmentLog.openActive, hopen]
      generalize l₁.openActive io = result at hok hlogged hactive hconfig'
      rcases result with ⟨l₂, _⟩
      dsimp only at hok
      rw [hok]
      exact ⟨_, .opened path ⟨hclosed, hopen⟩ hclosing hactive (freshSegment_backs _), hlogged,
        hconfig'.trans hconfig⟩
    . rcases hmid.not_openActive hnone hopen with ⟨hlogged, hactive, hconfig'⟩
      have herror : (l₁.openActive io).2 = .error .io := by
        simp [SegmentLog.openActive, hopen]
      generalize l₁.openActive io = result at herror hlogged hactive hconfig'
      rcases result with ⟨l₂, _⟩
      dsimp only at herror
      rw [herror]
      refine ⟨mid, .failed _ ?_ hclosing hactive, hlogged, hconfig'.trans hconfig⟩
      rintro ⟨_, hio⟩
      exact hopen hio

-- A failed write leaves bytes of the record behind.
def AppendIo.Tears (io : AppendIo) : Prop :=
  (∃ written, io.header = .failed written ∧ 0 < written)
    ∨ (io.header = .done ∧ ∃ written, io.body = .failed written)

-- What has happened when `append` comes to write the record.
inductive Ready (l : SegmentLog) (data : List UInt8) (io : AppendIo) (segs : List Segment)
    : SegmentLog → List Segment → Prop
  | room (h : l.mustRotate (RECORD_HEADER_BYTES + data.length) = false) : Ready l data io segs l segs
  | rotated {l' : SegmentLog} {path : Option String} {segs' : List Segment}
    (h : l.mustRotate (RECORD_HEADER_BYTES + data.length) = true)
    (hrotated : Rotated l io.rotate segs l' (.ok path) segs') : Ready l data io segs l' segs'

namespace Logged

variable {accepted : List Accepted} {l : SegmentLog} {older : List Segment} {last : Segment} {a : Active}

theorem writeRecord (h : Logged accepted l (older ++ [last])) (hactive : l.active = some a)
    (hbacks : last.Backs a) {data : List UInt8} {io : AppendIo}
    (hroom : last.records = []
      ∨ a.writtenBytes + (RECORD_HEADER_BYTES + data.length) ≤ l.config.maxSegmentBytes)
    (hheader : io.header = .done) (hbody : io.body = .done)
    : (l.writeRecord data io).2 = .ok (a.receipt data)
        ∧ Logged (accepted ++ [⟨a.receipt data, data⟩]) (l.writeRecord data io).1
            (older ++ [last.push data])
        ∧ (l.writeRecord data io).1.active = some (a.push data)
        ∧ (l.writeRecord data io).1.config = l.config := by
  have htracks : Tracks (l.writeRecord data io).1 (older ++ [last.push data]) :=
    h.tracks.writeRecord hactive hbacks hheader hbody
  rw [SegmentLog.writeRecord_done hactive data hheader hbody] at htracks ⊢
  refine ⟨rfl, of_tracks htracks ?_, rfl, rfl⟩
  apply h.shelved.accept
  . exact hbacks.id_eq
  . rw [← hbacks.writtenBytes_eq]
    exact hroom
  . exact htracks.holds

-- A write that fails before its first byte changes nothing but the result.
theorem not_writeRecord (h : Logged accepted l (older ++ [last])) (hactive : l.active = some a)
    (hbacks : last.Backs a) (data : List UInt8) {io : AppendIo} (hheader : io.header = .failed 0)
    : (l.writeRecord data io).2 = .error .io
        ∧ Logged accepted (l.writeRecord data io).1 (older ++ [last])
        ∧ (l.writeRecord data io).1.active = some a
        ∧ (l.writeRecord data io).1.config = l.config := by
  have hresult : l.writeRecord data io
      = ({ l with files := l.files.append a.path [] }, .error .io) := by
    simp only [SegmentLog.writeRecord, hactive, hheader, SegmentLog.writeAll, List.take_zero]
  rw [hresult]
  refine ⟨rfl, ?_, hactive, rfl⟩
  have hwrite := Dir.bytes_append h.shelved.holds.entries_middle []
  have hholds : Holds (l.files.append a.path []) (older ++ [last]) := by
    apply h.shelved.holds.of_entries_middle last rfl
    rw [hbacks.path_eq]
    have hentry : last.entry = ⟨last.path, last.bytes ++ []⟩ := by
      rw [List.append_nil]
      rfl
    rw [hentry]
    exact hwrite.1
  constructor
  . exact ⟨hholds, h.shelved.records, h.shelved.kept, h.shelved.ordered, h.shelved.sized⟩
  . exact h.fresh
  . dsimp only
    rw [hbacks.path_eq, hwrite.2]
    exact h.total
  . exact h.active

-- A torn record is on disk, but the log does not count it.
theorem total_lt_of_tears (h : Logged accepted l (older ++ [last])) (hactive : l.active = some a)
    (hbacks : last.Backs a) (data : List UInt8) {io : AppendIo} (htears : io.Tears)
    : (l.writeRecord data io).1.totalBytes < (l.writeRecord data io).1.files.bytes := by
  have hentries := h.shelved.holds.entries_middle
  have htotal := h.total
  have hpath := hbacks.path_eq
  rcases htears with ⟨written, hheader, hpos⟩ | ⟨hheader, written, hbody⟩
  . have hresult : (l.writeRecord data io).1
        = { l with
            files := l.files.append a.path
              ((Bytes.bigEndian RECORD_HEADER_BYTES data.length).take written) } := by
      simp only [SegmentLog.writeRecord, hactive, hheader, SegmentLog.writeAll]
    have hwrite := Dir.bytes_append hentries
      ((Bytes.bigEndian RECORD_HEADER_BYTES data.length).take written)
    rw [hresult]
    dsimp only
    have hheaderBytes : 0 < RECORD_HEADER_BYTES := by decide
    rw [hpath, hwrite.2, List.length_take, Bytes.length_bigEndian]
    omega
  . have hresult : (l.writeRecord data io).1
        = { l with
            files := (l.files.append a.path
              (Bytes.bigEndian RECORD_HEADER_BYTES data.length)).append a.path (data.take written) } := by
      simp only [SegmentLog.writeRecord, hactive, hheader, hbody, SegmentLog.writeAll]
    have hfirst := Dir.bytes_append hentries (Bytes.bigEndian RECORD_HEADER_BYTES data.length)
    have hsecond := Dir.bytes_append hfirst.1 (data.take written)
    rw [hresult]
    dsimp only
    have hheaderBytes : 0 < RECORD_HEADER_BYTES := by decide
    rw [hpath, hsecond.2, hfirst.2, Bytes.length_bigEndian]
    omega

end Logged

-- The three ways in which the two writes of a record can end.
theorem AppendIo.cases (io : AppendIo)
    : io.Tears ∨ io.header = .failed 0 ∨ (io.header = .done ∧ io.body = .done) := by
  unfold AppendIo.Tears
  cases hheader : io.header with
  | failed written =>
    cases written with
    | zero => exact .inr (.inl rfl)
    | succ written => exact .inl (.inl ⟨written + 1, rfl, Nat.succ_pos _⟩)
  | done =>
    cases hbody : io.body with
    | failed written => exact .inl (.inr ⟨rfl, written, rfl⟩)
    | done => exact .inr (.inr ⟨rfl, rfl⟩)

namespace SegmentLog

-- `append` comes to write: the checks are passed and there is a segment with room.
def Reaches (l : SegmentLog) (data : List UInt8) (io : AppendIo) : Prop :=
  l.Admits data ∧ (l.mustRotate (RECORD_HEADER_BYTES + data.length) = true → l.Rotates io.rotate)

end SegmentLog

-- The log with its active segment, when `append` comes to write.
structure Writing (accepted : List Accepted) (l : SegmentLog) (data : List UInt8) (io : AppendIo)
    (segs : List Segment) (l₁ : SegmentLog) (older : List Segment) (last : Segment) (a : Active)
    : Prop where
  ready : Ready l data io segs l₁ (older ++ [last])
  logged : Logged accepted l₁ (older ++ [last])
  active : l₁.active = some a
  backs : last.Backs a
  room : last.records = []
    ∨ a.writtenBytes + (RECORD_HEADER_BYTES + data.length) ≤ l₁.config.maxSegmentBytes
  append_eq : l.append data io = l₁.writeRecord data io
  config_eq : l₁.config = l.config

theorem Logged.writing {accepted : List Accepted} {l : SegmentLog} {segs : List Segment}
    (h : Logged accepted l segs) {data : List UInt8} {io : AppendIo} (hreaches : l.Reaches data io)
    : ∃ l₁ older last a, Writing accepted l data io segs l₁ older last a := by
  have happend := SegmentLog.append_admitted hreaches.1 io
  cases hmust : l.mustRotate (RECORD_HEADER_BYTES + data.length) with
  | true =>
    rw [hmust, if_pos rfl] at happend
    rcases h.rotate io.rotate with ⟨segs', hrotated, hlogged, hconfig⟩
    generalize l.rotate io.rotate = result at hrotated hlogged hconfig happend
    rcases result with ⟨l₁, result⟩
    dsimp only at hrotated hlogged hconfig happend
    cases hrotated with
    | failed e hio => exact absurd (hreaches.2 hmust) hio
    | opened path hio hclosing hactive hbacks =>
      exact ⟨l₁, _, _, _, .rotated hmust (.opened path hio hclosing hactive hbacks), hlogged, hactive,
        hbacks, .inl rfl, happend, hconfig⟩
  | false =>
    rw [hmust, if_neg (by simp)] at happend
    cases hactive : l.active with
    | none => simp [SegmentLog.mustRotate, hactive] at hmust
    | some a =>
      have hroom : a.writtenBytes + (RECORD_HEADER_BYTES + data.length) ≤ l.config.maxSegmentBytes := by
        simpa [SegmentLog.mustRotate, hactive] using hmust
      rcases h.active a hactive with ⟨older, last, rfl, hbacks⟩
      exact ⟨l, older, last, a, .room hmust, h, hactive, hbacks, .inr hroom, happend, rfl⟩

-- What `append` does to the accepted records and the segments, unless it tears a record.
inductive Appended (accepted : List Accepted) (l : SegmentLog) (data : List UInt8) (io : AppendIo)
    (segs : List Segment) (l' : SegmentLog)
    : Except StorageError AppendReceipt → List Accepted → List Segment → Prop
  | rejected {e : StorageError} (h : ¬l.Admits data) (hl : l' = l)
    : Appended accepted l data io segs l' (.error e) accepted segs
  | notRotated {e e' : StorageError} {segs' : List Segment} (hadmits : l.Admits data)
    (hmust : l.mustRotate (RECORD_HEADER_BYTES + data.length) = true)
    (hrotated : Rotated l io.rotate segs l' (.error e') segs')
    : Appended accepted l data io segs l' (.error e) accepted segs'
  | notWritten {e : StorageError} {l₁ : SegmentLog} {older : List Segment} {last : Segment} {a : Active}
    (hreaches : l.Reaches data io) (hwriting : Writing accepted l data io segs l₁ older last a)
    (hactive : l'.active = some a) (hio : io.header = .failed 0)
    : Appended accepted l data io segs l' (.error e) accepted (older ++ [last])
  | written {l₁ : SegmentLog} {older : List Segment} {last : Segment} {a : Active}
    (hreaches : l.Reaches data io) (hwriting : Writing accepted l data io segs l₁ older last a)
    (hactive : l'.active = some (a.push data))
    : Appended accepted l data io segs l' (.ok (a.receipt data)) (accepted ++ [⟨a.receipt data, data⟩])
        (older ++ [last.push data])

theorem Logged.append {accepted : List Accepted} {l : SegmentLog} {segs : List Segment}
    (h : Logged accepted l segs) {data : List UInt8} {io : AppendIo}
    (hwhole : l.Reaches data io → ¬io.Tears)
    : ∃ accepted' segs', Appended accepted l data io segs (l.append data io).1 (l.append data io).2
          accepted' segs'
        ∧ Logged accepted' (l.append data io).1 segs' ∧ (l.append data io).1.config = l.config := by
  by_cases hadmits : l.Admits data
  . by_cases hreaches : l.Reaches data io
    . rcases h.writing hreaches with ⟨l₁, older, last, a, hwriting⟩
      rw [hwriting.append_eq, ← hwriting.config_eq]
      rcases io.cases with htears | hheader | ⟨hheader, hbody⟩
      . exact absurd htears (hwhole hreaches)
      . rcases hwriting.logged.not_writeRecord hwriting.active hwriting.backs data hheader
          with ⟨hresult, hlogged, hactive, hconfig⟩
        rw [hresult]
        exact ⟨_, _, .notWritten hreaches hwriting hactive hheader, hlogged, hconfig⟩
      . rcases hwriting.logged.writeRecord hwriting.active hwriting.backs hwriting.room hheader hbody
          with ⟨hresult, hlogged, hactive, hconfig⟩
        rw [hresult]
        exact ⟨_, _, .written hreaches hwriting hactive, hlogged, hconfig⟩
    . have hmust : l.mustRotate (RECORD_HEADER_BYTES + data.length) = true
          ∧ ¬l.Rotates io.rotate := by
        unfold SegmentLog.Reaches at hreaches
        rw [not_and, Classical.not_imp] at hreaches
        exact hreaches hadmits
      have happend := SegmentLog.append_admitted hadmits io
      rw [hmust.1, if_pos rfl] at happend
      rw [happend]
      rcases h.rotate io.rotate with ⟨segs', hrotated, hlogged, hconfig⟩
      generalize l.rotate io.rotate = result at hrotated hlogged hconfig
      rcases result with ⟨l₁, result⟩
      dsimp only at hrotated hlogged hconfig
      cases hrotated with
      | opened path hio => exact absurd hio hmust.2
      | failed e hio hclosing hactive =>
        exact ⟨_, _, .notRotated hadmits hmust.1 (.failed e hio hclosing hactive), hlogged, hconfig⟩
  . rcases SegmentLog.append_rejected hadmits io with ⟨e, hresult⟩
    rw [hresult]
    exact ⟨_, _, .rejected hadmits rfl, h, rfl⟩

theorem Appended.acceptedAfter {accepted accepted' : List Accepted} {l : SegmentLog} {data : List UInt8}
    {io : AppendIo} {segs segs' : List Segment}
    (h : Appended accepted l data io segs (l.append data io).1 (l.append data io).2 accepted' segs')
    : Session.acceptedAfter accepted (.up l) (.append data io) = accepted' := by
  unfold Session.acceptedAfter
  dsimp only
  generalize (l.append data io).2 = result at h
  cases h with
  | rejected => rfl
  | notRotated => rfl
  | notWritten => rfl
  | written => rfl

-- A segment without records goes without a trace.
theorem Shelved.discard {config : Config} {accepted : List Accepted} {files : Dir}
    {older newer : List Segment} {seg : Segment}
    (h : Shelved config accepted files (older ++ seg :: newer)) (hempty : seg.records = [])
    : Shelved config accepted (files.erase seg.path) (older ++ newer) := by
  have hkeeps : accepted.filter (·.segmentId ≠ seg.id) = accepted := by
    rw [List.filter_eq_self]
    intro x hx
    rw [decide_eq_true_iff]
    intro hid
    have hrecords := h.records seg (by simp)
    rw [hempty, recordsIn] at hrecords
    have hnone := List.filter_eq_nil_iff.mp (List.map_eq_nil_iff.mp hrecords.symm) x hx
    exact hnone (decide_eq_true hid)
  have hevict := h.evict
  rw [hkeeps] at hevict
  exact hevict

-- What `close` leaves of the segments.
inductive Ended (l : SegmentLog) (io : RotateIo) (removes : Bool) (segs : List Segment)
    : List Segment → Prop
  | idle (hactive : l.active = none) : Ended l io removes segs segs
  | failed {l' : SegmentLog} {e : StorageError} {segs' : List Segment}
    (hrotated : Rotated l io segs l' (.error e) segs') (hactive : l.active ≠ none)
    : Ended l io removes segs segs'
  | discarded {mid : List Segment} (hio : l.Rotates io) (hclosing : Closing l io segs mid)
    (hremoves : removes = true) : Ended l io removes segs mid
  | left (id : Nat) {mid : List Segment} (hio : l.Rotates io) (hclosing : Closing l io segs mid)
    (hremoves : removes = false) : Ended l io removes segs (mid ++ [freshSegment id])

theorem Logged.close {accepted : List Accepted} {l : SegmentLog} {segs : List Segment}
    (h : Logged accepted l segs) (io : RotateIo) (removes : Bool)
    : ∃ segs', Ended l io removes segs segs' ∧ Shelved l.config accepted (l.close io removes).1 segs' := by
  unfold SegmentLog.close
  cases hactive : l.active with
  | none => exact ⟨segs, .idle hactive, h.shelved⟩
  | some a =>
    rcases h.rotate io with ⟨segs', hrotated, hlogged, hconfig⟩
    dsimp only
    generalize l.rotate io = result at hrotated hlogged hconfig
    rcases result with ⟨l₁, result⟩
    dsimp only at hrotated hlogged hconfig
    rw [← hconfig]
    cases hrotated with
    | failed e hio hclosing hnone =>
      exact ⟨_, .failed (.failed e hio hclosing hnone) (by simp [hactive]), hlogged.shelved⟩
    | @opened path mid a' hio hclosing hnew hbacks =>
      dsimp only
      rw [hnew]
      have hwritten : a'.writtenBytes = 0 := hbacks.writtenBytes_eq
      cases removes with
      | false =>
        refine ⟨_, .left a'.id hio hclosing rfl, ?_⟩
        simpa [hwritten] using hlogged.shelved
      | true =>
        have hdiscard := hlogged.shelved.discard rfl
        rw [List.append_nil] at hdiscard
        refine ⟨mid, .discarded hio hclosing rfl, ?_⟩
        simpa [hwritten, hbacks.path_eq] using hdiscard

-- What eviction does to the accepted records and the segments.
inductive Evicted (accepted : List Accepted) (l : SegmentLog) (removes : Bool) (segs : List Segment)
    : List Accepted → List Segment → Prop
  | kept : Evicted accepted l removes segs accepted segs
  | removed {older newer : List Segment} {seg : Segment} (hremoves : removes = true)
    (hsegs : segs = older ++ seg :: newer)
    : Evicted accepted l removes segs (accepted.filter (·.segmentId ≠ seg.id)) (older ++ newer)

theorem Logged.evictOldestClosed {accepted : List Accepted} {l : SegmentLog} {segs : List Segment}
    (h : Logged accepted l segs) (removes : Bool)
    : ∃ accepted' segs', Evicted accepted l removes segs accepted' segs'
        ∧ Logged accepted' (l.evictOldestClosed removes).1 segs'
        ∧ (l.evictOldestClosed removes).1.config = l.config
        ∧ accepted' = Session.acceptedAfter accepted (.up l) (.evictOldestClosed removes) := by
  unfold Session.acceptedAfter
  dsimp only
  unfold SegmentLog.evictOldestClosed
  rw [h.shelved.holds.segments_eq]
  cases hfind : (segs.map (·.info l.active)).find? (·.state = .closed) with
  | none => exact ⟨accepted, segs, .kept, h, rfl, rfl⟩
  | some target =>
    cases removes with
    | false => exact ⟨accepted, segs, .kept, h, rfl, rfl⟩
    | true =>
      have hclosed := List.find?_some hfind
      rcases List.mem_map.mp (List.mem_of_find?_eq_some hfind) with ⟨seg, hseg, rfl⟩
      rcases List.mem_iff_append.mp hseg with ⟨older, newer, rfl⟩
      have htracks := h.tracks.evict (of_decide_eq_true hclosed)
      exact ⟨_, _, .removed rfl rfl, of_tracks htracks h.shelved.evict, rfl, rfl⟩

theorem Shelved.open {config : Config} {accepted : List Accepted} {files : Dir} {segs : List Segment}
    (h : Shelved config accepted files segs)
    : Logged accepted (SegmentLog.open config files) (segs.map Segment.recovered) := by
  have htracks := h.holds.open_tracks config
  exact Logged.of_tracks htracks (h.restate Segment.recovered Segment.recovered_id Segment.recovered_records
    htracks.holds)

theorem quarantined_id (names : List String) (seg : Segment) : (Holds.quarantined names seg).id = seg.id := by
  unfold Holds.quarantined
  split
  . rfl
  . rfl

theorem quarantined_records (names : List String) (seg : Segment)
    : (Holds.quarantined names seg).records = seg.records := by
  unfold Holds.quarantined
  split
  . rfl
  . rfl

namespace Session

def Inv (config : Config) (s : Session) (segs : List Segment) : Prop :=
  match s.process with
  | .down files => Shelved config s.accepted files segs
  | .up log => log.config = config ∧ Logged s.accepted log segs

theorem inv_start (config : Config) : start.Inv config [] :=
  shelved_empty config

theorem Inv.shelved {config : Config} {s : Session} {segs : List Segment} (h : s.Inv config segs)
    : Shelved config s.accepted s.process.files segs := by
  unfold Inv at h
  split at h
  . next files hprocess =>
    rw [hprocess]
    exact h
  . next log hprocess =>
    rw [hprocess, ← h.1]
    exact h.2.shelved

theorem Inv.logged {config : Config} {s : Session} {segs : List Segment} (h : s.Inv config segs)
    {log : SegmentLog} (hup : s.process = .up log) : log.config = config ∧ Logged s.accepted log segs := by
  unfold Inv at h
  rw [hup] at h
  exact h

end Session

namespace SegmentLog

variable {firstId : Nat} {l : SegmentLog} {a : Active}

theorem Inv.taken (h : Inv firstId l) : Inv firstId { l with active := none } where
  first_le := h.first_le
  absent := h.absent
  active a ha := by contradiction

-- A rotation that fails may have closed the active segment, and may have used up an id.
theorem Inv.rotate_failed (h : Inv firstId l) {io : RotateIo} (hio : ¬l.Rotates io)
    : Inv firstId (l.rotate io).1 ∧ (l.rotate io).1.evidenceSince firstId = l.evidenceSince firstId := by
  by_cases hclose : l.active ≠ none → io.sync = true ∧ io.rename = true
  . rcases h.closeActive hclose with ⟨path, files, heq, hfile, habsent⟩
    have hopen : ¬io.open = true := by
      intro hopen
      exact hio ⟨hclose, hopen⟩
    have hrotate : (l.rotate io).1
        = { l with active := none, nextSegId := l.nextSegId + 1, files } := by
      simp [SegmentLog.rotate, heq, openActive, hopen]
    rw [hrotate]
    constructor
    . constructor
      . exact Nat.le_succ_of_le h.first_le
      . intro id hid
        exact habsent id (Nat.le_of_succ_le hid)
      . intro a ha
        contradiction
    . rw [evidenceSince_concat rfl h.first_le, recordsOf_of_file_nil, List.append_nil]
      . apply flatMap_recordsOf_congr
        intro id _
        exact hfile id
      . have hnew := habsent l.nextSegId (Nat.le_refl _)
        unfold fileOf
        dsimp only [Absent] at hnew ⊢
        rw [hnew.1, hnew.2]
        rfl
  . rcases Classical.not_imp.mp hclose with ⟨hactive, hlost⟩
    rcases Option.ne_none_iff_exists'.mp hactive with ⟨a, ha⟩
    have hrotate : (l.rotate io).1 = { l with active := none } := by
      simp [SegmentLog.rotate, closeActive_lost ha hlost]
    rw [hrotate]
    exact ⟨h.taken, rfl⟩

theorem Inv.not_writeRecord (h : Inv firstId l) (hactive : l.active = some a) (data : List UInt8)
    {io : AppendIo} (hheader : io.header = .failed 0)
    : Inv firstId (l.writeRecord data io).1
        ∧ (l.writeRecord data io).1.evidenceSince firstId = l.evidenceSince firstId := by
  have hfile := h.active a hactive
  rcases hfile.wellFormed with ⟨rs, hlookup, hrs⟩
  have hsame : ∀ name, (l.files.append a.path []).lookup name = l.files.lookup name := by
    intro name
    by_cases hname : name = a.path
    . rw [hname, Dir.lookup_append_self, hfile.path_eq, hlookup, Option.getD_some, List.append_nil]
    . rw [Dir.lookup_append_of_ne _ hname]
  have hresult : (l.writeRecord data io).1 = { l with files := l.files.append a.path [] } := by
    simp only [SegmentLog.writeRecord, hactive, hheader, writeAll, List.take_zero]
  rw [hresult]
  constructor
  . constructor
    . exact h.first_le
    . intro id hid
      unfold Absent
      rw [hsame, hsame]
      exact h.absent id hid
    . intro a' ha'
      have hold := h.active a' ha'
      constructor
      . exact hold.path_eq
      . exact hold.latest
      . exact hold.first_le
      . rw [hsame]
        exact hold.notClosed
      . rw [hsame]
        exact hold.wellFormed
  . apply List.flatMap_congr
    intro id _
    apply recordsOf_congr
    unfold fileOf
    rw [hsame, hsame]

-- An append that fails without a trace in the file leaves the evidence as it is.
theorem Inv.append_refused (h : Inv firstId l) {data : List UInt8} {io : AppendIo}
    (hrefused : ¬l.Accepts data io) (hwhole : ¬io.Tears)
    : Inv firstId (l.append data io).1
        ∧ (l.append data io).1.evidenceSince firstId = l.evidenceSince firstId := by
  by_cases hadmits : l.Admits data
  . rw [append_admitted hadmits]
    have hwrites : (l.mustRotate (RECORD_HEADER_BYTES + data.length) = true → l.Rotates io.rotate) →
        io.header = .failed 0 := by
      intro hrotates
      rcases io.cases with htears | hheader | ⟨hheader, hbody⟩
      . exact absurd htears hwhole
      . exact hheader
      . exact absurd ⟨hadmits.1, hadmits.2, hrotates, hheader, hbody⟩ hrefused
    split
    . next hmust =>
      by_cases hio : l.Rotates io.rotate
      . rcases h.rotate hio with ⟨l₁, path, a, hrotate, hinv, hactive, hevidence⟩
        rw [hrotate, ← hevidence]
        exact hinv.not_writeRecord hactive data (hwrites fun _ => hio)
      . rcases rotate_error hio with ⟨e, he⟩
        have hfailed := h.rotate_failed hio
        generalize l.rotate io.rotate = result at he hfailed
        rcases result with ⟨l₁, _⟩
        dsimp only at he hfailed
        rw [he]
        exact hfailed
    . next hroom =>
      cases hactive : l.active with
      | none => simp [mustRotate, hactive] at hroom
      | some a =>
        apply h.not_writeRecord hactive
        apply hwrites
        intro hmust
        exact absurd hmust hroom
  . rcases append_rejected hadmits io with ⟨e, he⟩
    rw [he]
    exact ⟨h, rfl⟩

theorem append_config (l : SegmentLog) (data : List UInt8) (io : AppendIo)
    : (l.append data io).1.config = l.config := by
  have hwrite : ∀ l' : SegmentLog, (l'.writeRecord data io).1.config = l'.config := by
    intro l'
    unfold SegmentLog.writeRecord
    cases l'.active with
    | none => rfl
    | some a => cases io.header <;> cases io.body <;> rfl
  have hrotate : (l.rotate io.rotate).1.config = l.config := by
    unfold SegmentLog.rotate SegmentLog.closeActive openActive
    cases l.active <;> cases io.rotate.sync <;> cases io.rotate.rename <;> cases io.rotate.open <;> rfl
  by_cases hadmits : l.Admits data
  . rw [append_admitted hadmits]
    split
    . split
      . next heq =>
        rw [heq] at hrotate
        exact hrotate
      . next heq =>
        rw [heq] at hrotate
        exact (hwrite _).trans hrotate
    . exact hwrite l
  . rcases append_rejected hadmits io with ⟨e, he⟩
    rw [he]

end SegmentLog

end Athar.Storage
