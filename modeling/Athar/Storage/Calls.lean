import Athar.Lib.Run
import Athar.Storage.Tracking

/-!
This module contains the log as its clients see it when no file operation fails: a directory and calls that
open a log on it, with any configuration, work with the log, close it or crash. Each call comes with what it
does to the row of segments.
-/

namespace Athar.Storage

inductive LogCall where
  | «open» (config : Config)
  | append (data : List UInt8)
  | rotate
  | close
  | evictOldestClosed
  | crash

def LogCall.step : Process → LogCall → Process
  | .down files, .open config => .up (SegmentLog.open config files)
  | .down files, _ => .down files
  | .up log, .open _ => .up log
  | .up log, .append data => .up (log.append data .done).1
  | .up log, .rotate => .up (log.rotate .done).1
  | .up log, .close => .down (log.close .done true).1
  | .up log, .evictOldestClosed => .up (log.evictOldestClosed true).1
  | .up log, .crash => .down log.files

def Segment.contents (seg : Segment) : Nat × List (List UInt8) := (seg.id, seg.records)

theorem Segment.bytes_of_contents {seg other : Segment} (h : seg.contents = other.contents)
    : seg.bytes = other.bytes := by
  unfold Segment.bytes
  rw [(Prod.mk.inj h).2]

theorem flatMap_bytes_of_contents {segs segs' : List Segment}
    (h : segs'.map Segment.contents = segs.map Segment.contents)
    : segs'.flatMap Segment.bytes = segs.flatMap Segment.bytes := by
  have hbytes : ∀ segs : List Segment, segs.flatMap Segment.bytes
      = (segs.map Segment.contents).flatMap (fun c => Records.encodeAll RECORD_HEADER_BYTES c.2) := by
    intro segs
    rw [List.flatMap_map]
    rfl
  rw [hbytes, hbytes, h]

theorem exists_contents {segs segs' : List Segment}
    (h : segs'.map Segment.contents = segs.map Segment.contents) {seg : Segment} (hseg : seg ∈ segs')
    : ∃ old ∈ segs, old.contents = seg.contents := by
  have hmem := List.mem_map_of_mem (f := Segment.contents) hseg
  rw [h] at hmem
  exact List.mem_map.mp hmem

theorem Holds.bytes_of_contents {files files' : Dir} {segs segs' : List Segment} (h : Holds files segs)
    (h' : Holds files' segs') (hcontents : segs'.map Segment.contents = segs.map Segment.contents)
    : files'.bytes = files.bytes :=
  h.bytes_congr h' (flatMap_bytes_of_contents hcontents)

theorem Closing.contents {l : SegmentLog} {io : RotateIo} {segs mid : List Segment}
    (h : Closing l io segs mid) : mid.map Segment.contents = segs.map Segment.contents := by
  cases h with
  | kept => rfl
  | closed hactive hbacks hio hsegs =>
    rw [hsegs, List.map_append, List.map_append]
    rfl

theorem recovered_contents (segs : List Segment)
    : (segs.map Segment.recovered).map Segment.contents = segs.map Segment.contents := by
  rw [List.map_map]
  apply List.map_congr_left
  intro seg _
  unfold Segment.contents
  rw [Function.comp_apply, seg.recovered_id, seg.recovered_records]

theorem SegmentLog.closeActive_done (l : SegmentLog)
    : ∃ path files, l.closeActive .done = ({ l with active := none, files }, .ok path) := by
  cases hactive : l.active with
  | none =>
    refine ⟨none, l.files, ?_⟩
    rw [SegmentLog.closeActive_none hactive, ← hactive]
  | some a => exact ⟨_, _, SegmentLog.closeActive_closed hactive ⟨rfl, rfl⟩⟩

theorem SegmentLog.rotate_done (l : SegmentLog)
    : ∃ path files, l.rotate .done
        = ({ l with
            active := some ⟨l.nextSegId, wipPath l.nextSegId, 0, 0⟩
            nextSegId := l.nextSegId + 1
            files }, .ok path) := by
  rcases l.closeActive_done with ⟨path, files, hclose⟩
  refine ⟨path, files.openAppend (wipPath l.nextSegId), ?_⟩
  unfold SegmentLog.rotate
  rw [hclose]
  rfl

namespace Tracks

variable {l : SegmentLog} {segs : List Segment}

theorem closing (h : Tracks l segs)
    : ∃ mid, Closing l .done segs mid ∧ Tracks (l.closeActive .done).1 mid := by
  cases hactive : l.active with
  | none =>
    rw [SegmentLog.closeActive_none hactive]
    exact ⟨segs, .kept (.inl hactive), h⟩
  | some a =>
    rcases h.active a hactive with ⟨older, last, rfl, hbacks⟩
    have hio : RotateIo.done.sync = true ∧ RotateIo.done.rename = true := ⟨rfl, rfl⟩
    exact ⟨_, .closed hactive hbacks hio rfl, h.closeActive hactive hbacks hio⟩

theorem rotate (h : Tracks l segs)
    : ∃ mid, Closing l .done segs mid
        ∧ Tracks (l.rotate .done).1 (mid ++ [freshSegment l.nextSegId]) := by
  rcases h.closing with ⟨mid, hclosing, htracks⟩
  rcases l.closeActive_done with ⟨path, files, hclose⟩
  rw [hclose] at htracks
  refine ⟨mid, hclosing, ?_⟩
  unfold SegmentLog.rotate
  rw [hclose]
  have hopen : RotateIo.done.open = true := rfl
  exact htracks.openActive hopen

-- Closing the log leaves the segments there are: the empty one that `rotate` opens is deleted again.
theorem close (h : Tracks l segs)
    : ∃ mid, Closing l .done segs mid ∧ Holds (l.close .done true).1 mid := by
  cases hactive : l.active with
  | none =>
    unfold SegmentLog.close
    rw [hactive]
    exact ⟨segs, .kept (.inl hactive), h.holds⟩
  | some a =>
    rcases h.rotate with ⟨mid, hclosing, htracks⟩
    rcases l.rotate_done with ⟨path, files, hrotate⟩
    have hholds := htracks.holds.erase
    rw [List.append_nil, hrotate] at hholds
    refine ⟨mid, hclosing, ?_⟩
    unfold SegmentLog.close
    rw [hactive]
    dsimp only
    rw [hrotate]
    exact hholds

end Tracks

-- Where a record that is admitted goes: into the last segment of the log, as it is or freshly opened.
structure Landing (l : SegmentLog) (data : List UInt8) (segs : List Segment) (l₁ : SegmentLog)
    (older : List Segment) (last : Segment) (a : Active) : Prop where
  prepared : (l.mustRotate (RECORD_HEADER_BYTES + data.length) = false ∧ l₁ = l ∧ segs = older ++ [last])
    ∨ (l.mustRotate (RECORD_HEADER_BYTES + data.length) = true ∧ l₁ = (l.rotate .done).1
      ∧ last = freshSegment l.nextSegId ∧ Closing l .done segs older)
  tracks : Tracks l₁ (older ++ [last])
  active : l₁.active = some a
  backs : last.Backs a
  append_eq : l.append data .done = l₁.writeRecord data .done

namespace Landing

variable {l l₁ : SegmentLog} {data : List UInt8} {segs older : List Segment} {last : Segment} {a : Active}

theorem unchanged (h : Landing l data segs l₁ older last a)
    : l₁.config = l.config ∧ l₁.totalBytes = l.totalBytes := by
  rcases h.prepared with ⟨_, hl, _⟩ | ⟨_, hl, _⟩
  . rw [hl]
    exact ⟨rfl, rfl⟩
  . rcases l.rotate_done with ⟨path, files, hrotate⟩
    rw [hl, hrotate]
    exact ⟨rfl, rfl⟩

theorem result (h : Landing l data segs l₁ older last a)
    : (l.append data .done).2 = .ok (a.receipt data)
        ∧ (l.append data .done).1.active = some (a.push data)
        ∧ (l.append data .done).1.nextSegId = l₁.nextSegId
        ∧ (l.append data .done).1.config = l.config
        ∧ (l.append data .done).1.totalBytes = l.totalBytes + (RECORD_HEADER_BYTES + data.length) := by
  rw [h.append_eq, SegmentLog.writeRecord_done h.active data rfl rfl, ← h.unchanged.1,
    ← h.unchanged.2]
  exact ⟨rfl, rfl, rfl, rfl, rfl⟩

theorem appended (h : Landing l data segs l₁ older last a)
    : Tracks (l.append data .done).1 (older ++ [last.push data]) := by
  rw [h.append_eq]
  exact h.tracks.writeRecord h.active h.backs rfl rfl

end Landing

namespace Tracks

variable {l : SegmentLog} {segs : List Segment}

theorem landing (h : Tracks l segs) {data : List UInt8} (hadmits : l.Admits data)
    : ∃ l₁ older last a, Landing l data segs l₁ older last a := by
  have happend := SegmentLog.append_admitted hadmits .done
  cases hmust : l.mustRotate (RECORD_HEADER_BYTES + data.length) with
  | true =>
    rcases h.rotate with ⟨mid, hclosing, htracks⟩
    rcases l.rotate_done with ⟨path, files, hrotate⟩
    have hrotate' : l.rotate AppendIo.done.rotate = _ := hrotate
    rw [hmust, if_pos rfl, hrotate'] at happend
    refine ⟨(l.rotate .done).1, mid, freshSegment l.nextSegId, ⟨l.nextSegId, wipPath l.nextSegId, 0, 0⟩,
      .inr ⟨hmust, rfl, rfl, hclosing⟩, htracks, ?_, freshSegment_backs _, ?_⟩
    . rw [hrotate]
    . rw [happend, hrotate]
  | false =>
    rw [hmust, if_neg (by simp)] at happend
    cases hactive : l.active with
    | none => simp [SegmentLog.mustRotate, hactive] at hmust
    | some a =>
      rcases h.active a hactive with ⟨older, last, rfl, hbacks⟩
      exact ⟨l, older, last, a, .inl ⟨hmust, rfl, rfl⟩, h, hactive, hbacks, happend⟩

theorem evictOldestClosed (h : Tracks l segs)
    : (l.evictOldestClosed true = (l, .ok none) ∧ ∀ seg ∈ segs, seg.state ≠ .closed)
        ∨ ∃ older seg newer, segs = older ++ seg :: newer ∧ seg.state = .closed
          ∧ l.evictOldestClosed true
            = ({ l with
                files := l.files.erase seg.path
                totalBytes := l.totalBytes - seg.bytes.length }, .ok (some seg.id))
          ∧ Tracks { l with
              files := l.files.erase seg.path
              totalBytes := l.totalBytes - seg.bytes.length } (older ++ newer) := by
  unfold SegmentLog.evictOldestClosed
  rw [h.holds.segments_eq]
  cases hfind : (segs.map (·.info l.active)).find? (·.state = .closed) with
  | none =>
    left
    refine ⟨rfl, ?_⟩
    intro seg hseg hclosed
    have hnot := List.find?_eq_none.mp hfind _ (List.mem_map_of_mem hseg)
    exact hnot (decide_eq_true hclosed)
  | some target =>
    right
    have hfound := List.find?_some hfind
    have hclosed := of_decide_eq_true hfound
    rcases List.mem_map.mp (List.mem_of_find?_eq_some hfind) with ⟨seg, hseg, rfl⟩
    rcases List.mem_iff_append.mp hseg with ⟨older, newer, rfl⟩
    exact ⟨older, seg, newer, rfl, hclosed, rfl, h.evict hclosed⟩

end Tracks

end Athar.Storage
