import Mathlib.Data.List.Flatten
import Athar.Storage.Calls

/-!
This module contains the bookkeeping of the log: that its total is what its files add up to, that the quota
bounds it, and that the `u64` arithmetic behind it gives what natural numbers give. A segment id is the one
number that nothing bounds but the length of a run.
-/

namespace Athar.Storage

inductive U64Op where
  | add (a b : Nat)
  | sub (a b : Nat)
  | saturatingSub (a b : Nat)
  deriving DecidableEq, Repr

-- There is no overflow, and nothing saturates.
def U64Op.Exact : U64Op → Prop
  | .add a b => a + b < 2 ^ 64
  | .sub a b => b ≤ a
  | .saturatingSub a b => b ≤ a

def loopOps {σ ι : Type} (round : σ → ι → σ) (ops : σ → ι → List U64Op) : σ → List ι → List U64Op
  | _, [] => []
  | s, i :: is => ops s i ++ loopOps round ops (round s i) is

namespace SegmentLog

def quarantineOps (acc : Dir × Nat) (name : String) : List U64Op :=
  if endsWith name WIP_EXT then [.add acc.2 (acc.1.size name)] else []

def countSegmentOps (files : Dir) (acc : Option Nat × Nat) (name : String) : List U64Op :=
  if endsWith name SEG_EXT ∨ endsWith name QUARANTINE_EXT then [.add acc.2 (files.size name)] else []

def openOps (files : Dir) : List U64Op :=
  let recovered := (files.keys.foldl quarantine (files, 0)).1
  let highestId := (recovered.keys.foldl (countSegment recovered) (none, 0)).1
  loopOps quarantine quarantineOps (files, 0) files.keys
    ++ loopOps (countSegment recovered) (countSegmentOps recovered) (none, 0) recovered.keys
    ++ highestId.toList.map (.add · 1)

end SegmentLog

-- `checked_add` is no operation that overflows.
def Quota.checkOps (q : Quota) (currentTotal recordSize : Nat) : List U64Op :=
  let total := currentTotal + recordSize
  if 2 ^ 64 ≤ total ∨ total ≤ q.limitBytes then [] else [.sub total q.limitBytes]

namespace SegmentLog

variable (l : SegmentLog)

def mustRotateOps (recordSizeOnDisk : Nat) : List U64Op :=
  match l.active with
  | none => []
  | some a => [.add a.writtenBytes recordSizeOnDisk]

def rotateOps : List U64Op := [.add l.nextSegId 1]

def writeRecordOps (recordSizeOnDisk : Nat) : List U64Op :=
  match l.active with
  | none => []
  | some a =>
    [.add a.writtenBytes recordSizeOnDisk, .add a.recordCount 1, .add l.totalBytes recordSizeOnDisk]

def appendOps (data : List UInt8) : List U64Op :=
  if l.config.maxRecordBytes < data.length then
    []
  else
    let recordSizeOnDisk := RECORD_HEADER_BYTES + data.length
    .add RECORD_HEADER_BYTES data.length :: l.config.quota.checkOps l.totalBytes recordSizeOnDisk ++
      match l.config.quota.check l.totalBytes recordSizeOnDisk with
      | .no _ => []
      | .yes =>
        l.mustRotateOps recordSizeOnDisk ++
          if l.mustRotate recordSizeOnDisk then
            l.rotateOps ++ (l.rotate .done).1.writeRecordOps recordSizeOnDisk
          else
            l.writeRecordOps recordSizeOnDisk

-- `segments` counts the records of every closed segment.
def segmentOps (entry : (_ : String) × List UInt8) : List U64Op :=
  match segmentState entry.1, parseSegmentId entry.1 with
  | some .closed, some _ => (List.range (countRecordsBestEffort entry.2)).map (.add · 1)
  | _, _ => []

def evictOldestClosedOps : List U64Op :=
  l.files.entries.flatMap segmentOps ++
    match (segments l.files l.active).find? (·.state = .closed) with
    | none => []
    | some target => [.saturatingSub l.totalBytes target.sizeBytes]

end SegmentLog

def LogCall.ops : Process → LogCall → List U64Op
  | .down files, .open _ => SegmentLog.openOps files
  | .up log, .append data => log.appendOps data
  | .up log, .rotate => log.rotateOps
  | .up log, .evictOldestClosed => log.evictOldestClosedOps
  | _, _ => []

-- The calls that may take a segment id for good.
def LogCall.takesId : LogCall → Bool
  | .append _ => true
  | .rotate => true
  | _ => false

def Dir.segmentBytes (files : Dir) : Nat :=
  ((files.entries.filter (fun e => (segmentState e.1).isSome)).map (·.2.length)).sum

def TotalExact : Process → Prop
  | .down _ => True
  | .up log => log.totalBytes = log.files.segmentBytes

-- What `append` promises about the total, whether it takes the record or not.
def WithinQuota : Process → LogCall → Prop
  | .up log, .append data =>
    ((log.append data .done).1.totalBytes ≤ log.config.quota.limitBytes
        ∨ (log.append data .done).1.totalBytes = log.totalBytes)
      ∧ ∀ e, (log.append data .done).2 = .error e → (log.append data .done).1 = log
  | _, _ => True

/--
The accounts of a run are exact: the total is that of the files in every state, and no call exceeds the quota
or calculates anything that does not fit.
-/
def AccountsExact (calls : List LogCall) : Prop :=
  Run.Always LogCall.step TotalExact (.down ∅) calls
    ∧ Run.Guarded LogCall.step (fun p c => WithinQuota p c ∧ ∀ op ∈ c.ops p, op.Exact) (.down ∅) calls

theorem exact_loopOps {σ ι : Type} {round : σ → ι → σ} {ops : σ → ι → List U64Op} {s : σ} {is : List ι}
    (h : Run.Guarded round (fun s i => ∀ op ∈ ops s i, op.Exact) s is)
    : ∀ op ∈ loopOps round ops s is, op.Exact := by
  induction is generalizing s with
  | nil =>
    exact List.forall_mem_nil _
  | cons i is ih =>
    rw [Run.guarded_cons] at h
    intro op hop
    rw [loopOps, List.mem_append] at hop
    rcases hop with hop | hop
    . exact h.1 op hop
    . exact ih h.2 op hop

theorem exact_count {n : Nat} (h : n < 2 ^ 64) : ∀ op ∈ (List.range n).map (U64Op.add · 1), op.Exact := by
  intro op hop
  rcases List.mem_map.mp hop with ⟨i, hi, rfl⟩
  rw [List.mem_range] at hi
  unfold U64Op.Exact
  omega

theorem Holds.segmentBytes_eq {files : Dir} {segs : List Segment} (h : Holds files segs)
    : files.segmentBytes = files.bytes := by
  have hall : files.entries.filter (fun e => (segmentState e.1).isSome) = files.entries := by
    rw [List.filter_eq_self]
    intro e he
    rcases List.mem_map.mp (h.entries.mem_iff.mp he) with ⟨seg, _, rfl⟩
    have hstate := segmentState_segmentPath seg.id seg.state
    rw [Segment.entry, Segment.path, hstate]
    rfl
  unfold Dir.segmentBytes Dir.bytes
  rw [hall, List.length_flatMap]

theorem Holds.segment_le {files : Dir} {segs : List Segment} (h : Holds files segs) {seg : Segment}
    (hseg : seg ∈ segs) : seg.bytes.length ≤ files.bytes := by
  have hmem : seg.bytes ∈ segs.map Segment.bytes := List.mem_map_of_mem hseg
  rw [h.bytes_eq, List.flatMap_def]
  exact (List.sublist_flatten_of_mem hmem).length_le

-- The bytes that opening the log is about to quarantine.
def wipBytes (segs : List Segment) : Nat :=
  ((segs.filter (·.state = .active)).flatMap Segment.bytes).length

theorem wipBytes_le (segs : List Segment) : wipBytes segs ≤ (segs.flatMap Segment.bytes).length := by
  unfold wipBytes
  exact (List.filter_sublist.flatMap _).length_le

theorem wipBytes_middle (older newer : List Segment) (seg : Segment)
    : wipBytes (older ++ seg :: newer)
        = wipBytes (older ++ newer) + if seg.state = .active then seg.bytes.length else 0 := by
  unfold wipBytes
  by_cases hactive : seg.state = .active
  . simp [hactive]
    omega
  . simp [hactive]

theorem Holds.quarantine_bytes {files : Dir} {segs : List Segment} (h : Holds files segs) (n : Nat)
    (name : String)
    : (SegmentLog.quarantine (files, n) name).2 + wipBytes (segs.map (Holds.quarantined [name]))
        = n + wipBytes segs := by
  unfold SegmentLog.quarantine
  rcases h.quarantined_one name with ⟨hsame, hnotMem⟩ | ⟨older, seg, newer, rfl, hactive, rfl, hnew⟩
  . rw [hsame]
    split
    . next hwip =>
      dsimp only
      unfold Dir.size
      rw [AList.lookup_eq_none.mpr (hnotMem hwip)]
      rfl
    . rfl
  . have hmem : seg ∈ older ++ seg :: newer := by simp
    have hlookup := h.lookup hmem
    rw [hnew, if_pos (Holds.endsWith_wip_path hactive), wipBytes_middle, wipBytes_middle, if_pos hactive,
      if_neg (by simp)]
    dsimp only
    unfold Dir.size
    rw [hlookup, Option.getD_some]
    omega

-- A state of the recovery loop that can go on: what is still to be quarantined fits.
def Recovering (acc : Dir × Nat) : Prop :=
  ∃ segs, Holds acc.1 segs ∧ acc.2 + wipBytes segs < 2 ^ 64

theorem Recovering.quarantine {acc : Dir × Nat} (h : Recovering acc) (name : String)
    : Recovering (SegmentLog.quarantine acc name) := by
  rcases h with ⟨segs, hholds, hfits⟩
  refine ⟨_, hholds.quarantine_one acc.2 name, ?_⟩
  rw [hholds.quarantine_bytes]
  exact hfits

theorem exact_quarantineOps {acc : Dir × Nat} {name : String}
    (h : Recovering (SegmentLog.quarantine acc name))
    : ∀ op ∈ SegmentLog.quarantineOps acc name, op.Exact := by
  rcases h with ⟨segs, _, hfits⟩
  intro op hop
  unfold SegmentLog.quarantineOps at hop
  split at hop
  . next hwip =>
    unfold SegmentLog.quarantine at hfits
    rw [if_pos hwip] at hfits
    dsimp only at hfits
    rw [List.mem_singleton.mp hop]
    unfold U64Op.Exact
    omega
  . contradiction

theorem exact_recovery {acc : Dir × Nat} (h : Recovering acc) (names : List String)
    : ∀ op ∈ loopOps SegmentLog.quarantine SegmentLog.quarantineOps acc names, op.Exact := by
  have halways := Run.always_of_step names h (fun acc name hacc => hacc.quarantine name)
  apply exact_loopOps
  exact Run.Guarded.imp (fun acc name hnext => exact_quarantineOps hnext) halways.after

theorem foldl_countSegment_snd (files : Dir) (names : List String) (acc : Option Nat × Nat)
    : acc.2 ≤ (names.foldl (SegmentLog.countSegment files) acc).2 := by
  induction names generalizing acc with
  | nil => exact Nat.le_refl _
  | cons name names ih =>
    apply Nat.le_trans _ (ih _)
    unfold SegmentLog.countSegment
    split
    . dsimp only
      split
      . exact Nat.le_add_right _ _
      . exact Nat.le_add_right _ _
    . exact Nat.le_refl _

theorem exact_countSegmentOps (files : Dir) (names : List String) (acc : Option Nat × Nat)
    (hfits : (names.foldl (SegmentLog.countSegment files) acc).2 < 2 ^ 64)
    : ∀ op ∈ loopOps (SegmentLog.countSegment files) (SegmentLog.countSegmentOps files) acc names,
        op.Exact := by
  induction names generalizing acc with
  | nil =>
    exact List.forall_mem_nil _
  | cons name names ih =>
    intro op hop
    rw [loopOps, List.mem_append] at hop
    rcases hop with hop | hop
    . unfold SegmentLog.countSegmentOps at hop
      split at hop
      . next hends =>
        have hle := foldl_countSegment_snd files names (SegmentLog.countSegment files acc name)
        have hone := countSegment_snd files acc hends
        rw [List.foldl_cons] at hfits
        rw [List.mem_singleton.mp hop]
        unfold U64Op.Exact
        omega
      . contradiction
    . exact ih _ hfits op hop

-- The log that the operations of `openOps` lead to does not depend on the configuration.
theorem exact_openOps {files : Dir} {segs : List Segment} (h : Holds files segs) {n : Nat}
    (hids : ∀ seg ∈ segs, seg.id < n) (hn : n < 2 ^ 64) (hbytes : files.bytes < 2 ^ 64) (config : Config)
    : ∀ op ∈ SegmentLog.openOps files, op.Exact := by
  rcases h.open config with ⟨hholds, _, htotal⟩
  have hsame := h.bytes_of_contents hholds (recovered_contents segs)
  intro op hop
  unfold SegmentLog.openOps at hop
  rw [List.mem_append, List.mem_append] at hop
  rcases hop with (hop | hop) | hop
  . have hwip := wipBytes_le segs
    rw [← h.bytes_eq] at hwip
    have hstart : Recovering (files, 0) := ⟨segs, h, by omega⟩
    exact exact_recovery hstart files.keys op hop
  . have hfits : (SegmentLog.open config files).totalBytes < 2 ^ 64 := by
      rw [htotal, hsame]
      exact hbytes
    exact exact_countSegmentOps _ _ _ hfits op hop
  . rcases List.mem_map.mp hop with ⟨highest, hhighest, rfl⟩
    have hnext : (SegmentLog.open config files).nextSegId = highest + 1 :=
      congrArg (·.elim 0 (· + 1)) (Option.mem_toList.mp hhighest)
    unfold U64Op.Exact
    rcases h.open_nextSegId config with hzero | ⟨seg, hseg, hid⟩
    . omega
    . have := hids seg hseg
      omega

theorem Quota.check_yes {q : Quota} {currentTotal recordSize : Nat}
    (h : q.check currentTotal recordSize = .yes)
    : currentTotal + recordSize < 2 ^ 64 ∧ currentTotal + recordSize ≤ q.limitBytes := by
  unfold Quota.check at h
  dsimp only at h
  split at h
  . contradiction
  . next hfits =>
    split at h
    . next hlimit => exact ⟨Nat.not_le.mp hfits, hlimit⟩
    . contradiction

theorem exact_checkOps (q : Quota) (currentTotal recordSize : Nat)
    : ∀ op ∈ q.checkOps currentTotal recordSize, op.Exact := by
  unfold Quota.checkOps
  dsimp only
  split
  . exact List.forall_mem_nil _
  . rw [List.forall_mem_singleton]
    unfold U64Op.Exact
    omega

theorem exact_rotateOps {l : SegmentLog} (h : l.nextSegId + 1 < 2 ^ 64) : ∀ op ∈ l.rotateOps, op.Exact := by
  unfold SegmentLog.rotateOps
  rw [List.forall_mem_singleton]
  exact h

namespace Tracks

variable {l : SegmentLog} {segs : List Segment}

-- What the log remembers of its active segment is bounded by what it knows of all.
theorem active_le (h : Tracks l segs) {a : Active} (hactive : l.active = some a)
    : a.writtenBytes ≤ l.totalBytes ∧ a.recordCount ≤ a.writtenBytes := by
  rcases h.active a hactive with ⟨older, last, rfl, hbacks⟩
  have hle := h.holds.segment_le (List.mem_append_right older (List.mem_singleton_self last))
  have hcount := Records.length_le_length_encodeAll (w := RECORD_HEADER_BYTES) (by decide) last.records
  rw [hbacks.writtenBytes_eq, hbacks.recordCount_eq, h.total]
  exact ⟨hle, hcount⟩

theorem exact_writeRecordOps (h : Tracks l segs) {recordSizeOnDisk : Nat} (hrecord : 0 < recordSizeOnDisk)
    (hfits : l.totalBytes + recordSizeOnDisk < 2 ^ 64)
    : ∀ op ∈ l.writeRecordOps recordSizeOnDisk, op.Exact := by
  unfold SegmentLog.writeRecordOps
  cases hactive : l.active with
  | none =>
    exact List.forall_mem_nil _
  | some a =>
    rcases h.active_le hactive with ⟨hwritten, hcount⟩
    simp only [List.forall_mem_cons, U64Op.Exact]
    refine ⟨by omega, by omega, by omega, ?_⟩
    exact List.forall_mem_nil _

theorem exact_mustRotateOps (h : Tracks l segs) {recordSizeOnDisk : Nat}
    (hfits : l.totalBytes + recordSizeOnDisk < 2 ^ 64)
    : ∀ op ∈ l.mustRotateOps recordSizeOnDisk, op.Exact := by
  unfold SegmentLog.mustRotateOps
  cases hactive : l.active with
  | none =>
    exact List.forall_mem_nil _
  | some a =>
    rcases h.active_le hactive with ⟨hwritten, _⟩
    rw [List.forall_mem_singleton]
    unfold U64Op.Exact
    omega

theorem exact_appendOps (h : Tracks l segs) (hnext : l.nextSegId + 1 < 2 ^ 64) {data : List UInt8}
    (hdata : data.length < 2 ^ 63) : ∀ op ∈ l.appendOps data, op.Exact := by
  unfold SegmentLog.appendOps
  split
  . exact List.forall_mem_nil _
  . dsimp only
    rw [List.cons_append, List.forall_mem_cons, List.forall_mem_append]
    refine ⟨?_, exact_checkOps _ _ _, ?_⟩
    . unfold U64Op.Exact RECORD_HEADER_BYTES
      omega
    . split
      . exact List.forall_mem_nil _
      . next hcheck =>
        have hfits := (Quota.check_yes hcheck).1
        have hrecord : 0 < RECORD_HEADER_BYTES + data.length := Nat.add_pos_left (by decide) _
        rw [List.forall_mem_append]
        refine ⟨h.exact_mustRotateOps hfits, ?_⟩
        split
        . rcases h.rotate with ⟨mid, _, htracks⟩
          rcases l.rotate_done with ⟨path, files, hrotate⟩
          rw [List.forall_mem_append]
          constructor
          . exact exact_rotateOps hnext
          . apply htracks.exact_writeRecordOps hrecord
            rw [hrotate]
            exact hfits
        . exact h.exact_writeRecordOps hrecord hfits

theorem exact_evictOldestClosedOps (h : Tracks l segs) (hfits : l.totalBytes < 2 ^ 64)
    : ∀ op ∈ l.evictOldestClosedOps, op.Exact := by
  unfold SegmentLog.evictOldestClosedOps
  rw [List.forall_mem_append]
  constructor
  . intro op hop
    rcases List.mem_flatMap.mp hop with ⟨e, he, hop⟩
    rcases List.mem_map.mp (h.holds.entries.mem_iff.mp he) with ⟨seg, hseg, rfl⟩
    have hle := h.holds.segment_le hseg
    have hcount := Records.length_read_le (w := RECORD_HEADER_BYTES) (by decide) seg.bytes
    unfold SegmentLog.segmentOps at hop
    split at hop
    . apply exact_count _ op hop
      rw [h.total] at hfits
      exact Nat.lt_of_le_of_lt (hcount.trans hle) hfits
    . contradiction
  . split
    . exact List.forall_mem_nil _
    . next target hfind =>
      intro op hop
      have htarget := List.mem_of_find?_eq_some hfind
      rw [h.holds.segments_eq] at htarget
      rcases List.mem_map.mp htarget with ⟨seg, hseg, rfl⟩
      rw [List.mem_singleton.mp hop]
      unfold U64Op.Exact
      rw [h.total]
      exact h.holds.segment_le hseg

end Tracks

-- A process after calls that took no more than `n` ids.
def Kept (n : Nat) : Process → Prop
  | .down files => ∃ segs, Holds files segs ∧ (∀ seg ∈ segs, seg.id < n) ∧ files.bytes < 2 ^ 64
  | .up log => ∃ segs, Tracks log segs ∧ log.nextSegId ≤ n ∧ log.totalBytes < 2 ^ 64

theorem kept_down {files : Dir} {segs segs' : List Segment} {n : Nat} (h : Holds files segs)
    (hcontents : segs.map Segment.contents = segs'.map Segment.contents)
    (hids : ∀ seg ∈ segs', seg.id < n) (hbytes : files.bytes < 2 ^ 64) : Kept n (.down files) := by
  refine ⟨segs, h, ?_, hbytes⟩
  intro seg hseg
  rcases exists_contents hcontents hseg with ⟨old, hold, heq⟩
  have hid := hids old hold
  rwa [(Prod.mk.inj heq).1] at hid

theorem kept_open {files : Dir} {n : Nat} (h : Kept n (.down files)) (config : Config)
    : Kept n (.up (SegmentLog.open config files)) := by
  rcases h with ⟨segs, hholds, hids, hbytes⟩
  have htracks := hholds.open_tracks config
  refine ⟨_, htracks, ?_, ?_⟩
  . rcases hholds.open_nextSegId config with hzero | ⟨seg, hseg, hid⟩
    . rw [hzero]
      exact Nat.zero_le n
    . rw [hid]
      exact hids seg hseg
  . rw [htracks.total, hholds.bytes_of_contents htracks.holds (recovered_contents segs)]
    exact hbytes

theorem kept_append {l : SegmentLog} {n : Nat} (h : Kept n (.up l)) (data : List UInt8)
    : Kept (n + 1) (.up (l.append data .done).1) := by
  rcases h with ⟨segs, htracks, hnext, hfits⟩
  by_cases hadmits : l.Admits data
  . rcases htracks.landing hadmits with ⟨l₁, older, last, a, hlanding⟩
    rcases hlanding.result with ⟨_, _, hnext', _, htotal⟩
    refine ⟨_, hlanding.appended, ?_, ?_⟩
    . rw [hnext']
      rcases hlanding.prepared with ⟨_, hl, _⟩ | ⟨_, hl, _⟩
      . rw [hl]
        exact Nat.le_succ_of_le hnext
      . rcases l.rotate_done with ⟨path, files, hrotate⟩
        rw [hl, hrotate]
        exact Nat.succ_le_succ hnext
    . rw [htotal]
      exact (Quota.check_yes hadmits.2).1
  . rcases SegmentLog.append_rejected hadmits .done with ⟨e, herror⟩
    rw [herror]
    exact ⟨segs, htracks, Nat.le_succ_of_le hnext, hfits⟩

theorem kept_step {p : Process} {n : Nat} (h : Kept n p) (c : LogCall)
    : Kept (n + if c.takesId then 1 else 0) (c.step p) := by
  cases p with
  | down files =>
    have hdown : Kept (n + if c.takesId then 1 else 0) (.down files) := by
      rcases h with ⟨segs, hholds, hids, hbytes⟩
      refine ⟨segs, hholds, ?_, hbytes⟩
      intro seg hseg
      exact Nat.lt_add_right _ (hids seg hseg)
    cases c with
    | «open» config => exact kept_open h config
    | append | rotate | close | evictOldestClosed | crash => exact hdown
  | up log =>
    cases c with
    | append data => exact kept_append h data
    | «open» => exact h
    | rotate =>
      rcases h with ⟨segs, htracks, hnext, hfits⟩
      rcases htracks.rotate with ⟨mid, _, hrotated⟩
      rcases log.rotate_done with ⟨path, files, hrotate⟩
      refine ⟨_, hrotated, ?_, ?_⟩
      . rw [hrotate]
        exact Nat.succ_le_succ hnext
      . rw [hrotate]
        exact hfits
    | close =>
      rcases h with ⟨segs, htracks, hnext, hfits⟩
      rcases htracks.close with ⟨mid, hclosing, hholds⟩
      apply kept_down hholds hclosing.contents
      . intro seg hseg
        exact Nat.lt_of_lt_of_le (htracks.fresh seg hseg) hnext
      . rw [htracks.holds.bytes_of_contents hholds hclosing.contents, ← htracks.total]
        exact hfits
    | evictOldestClosed =>
      rcases h with ⟨segs, htracks, hnext, hfits⟩
      rcases htracks.evictOldestClosed with ⟨hnone, _⟩ | ⟨older, seg, newer, _, _, hsome, hevicted⟩
      . have hstep : LogCall.step (.up log) .evictOldestClosed = .up log := by
          unfold LogCall.step
          dsimp only
          rw [hnone]
        rw [hstep]
        exact ⟨segs, htracks, hnext, hfits⟩
      . unfold LogCall.step
        dsimp only
        rw [hsome]
        exact ⟨_, hevicted, hnext, Nat.lt_of_le_of_lt (Nat.sub_le _ _) hfits⟩
    | crash =>
      rcases h with ⟨segs, htracks, hnext, hfits⟩
      apply kept_down htracks.holds rfl
      . intro seg hseg
        exact Nat.lt_of_lt_of_le (htracks.fresh seg hseg) hnext
      . rw [← htracks.total]
        exact hfits

theorem kept_run (calls : List LogCall)
    : Kept (calls.countP LogCall.takesId) (Run.exec LogCall.step (.down ∅) calls) := by
  induction calls using List.reverseRecOn with
  | nil => exact ⟨[], holds_empty, by simp, by decide⟩
  | append_singleton calls c ih =>
    rw [Run.exec_append, List.countP_append, List.countP_singleton]
    exact kept_step ih c

theorem Kept.totalExact {p : Process} {n : Nat} (h : Kept n p) : TotalExact p := by
  cases p with
  | down => trivial
  | up log =>
    rcases h with ⟨segs, htracks, _⟩
    exact htracks.total.trans htracks.holds.segmentBytes_eq.symm

theorem Kept.withinQuota {p : Process} {n : Nat} (h : Kept n p) (c : LogCall) : WithinQuota p c := by
  cases p with
  | down => trivial
  | up log =>
    cases c with
    | «open» | rotate | close | evictOldestClosed | crash => trivial
    | append data =>
      rcases h with ⟨segs, htracks, _⟩
      by_cases hadmits : log.Admits data
      . rcases htracks.landing hadmits with ⟨l₁, older, last, a, hlanding⟩
        rcases hlanding.result with ⟨hok, _, _, _, htotal⟩
        constructor
        . left
          rw [htotal]
          exact (Quota.check_yes hadmits.2).2
        . intro e herror
          rw [hok] at herror
          contradiction
      . rcases SegmentLog.append_rejected hadmits .done with ⟨e, herror⟩
        unfold WithinQuota
        dsimp only
        rw [herror]
        exact ⟨.inr rfl, fun _ _ => rfl⟩

theorem Kept.exact {p : Process} {n : Nat} (h : Kept n p) {c : LogCall}
    (hn : n + (if c.takesId then 1 else 0) < 2 ^ 64)
    (hslice : ∀ data, c = .append data → data.length < 2 ^ 63) : ∀ op ∈ c.ops p, op.Exact := by
  cases p with
  | down files =>
    cases c with
    | «open» config =>
      rcases h with ⟨segs, hholds, hids, hbytes⟩
      exact exact_openOps hholds hids hn hbytes config
    | append | rotate | close | evictOldestClosed | crash =>
      exact List.forall_mem_nil _
  | up log =>
    rcases h with ⟨segs, htracks, hnext, hfits⟩
    cases c with
    | append data =>
      apply htracks.exact_appendOps _ (hslice data rfl)
      exact Nat.lt_of_le_of_lt (Nat.succ_le_succ hnext) hn
    | rotate => exact exact_rotateOps (Nat.lt_of_le_of_lt (Nat.succ_le_succ hnext) hn)
    | evictOldestClosed => exact htracks.exact_evictOldestClosedOps hfits
    | «open» | close | crash =>
      exact List.forall_mem_nil _

/--
The total of a log is that of its files after any calls, the quota bounds it, an `append` that is turned
down changes nothing, and no operation on `u64` overflows or saturates, as long as fewer than `2 ^ 64` calls
may have taken a segment id. A slice has fewer than `2 ^ 63` bytes.
-/
theorem accounts_exact (calls : List LogCall)
    (hslices : ∀ data, .append data ∈ calls → data.length < 2 ^ 63)
    (hids : calls.countP LogCall.takesId < 2 ^ 64) : AccountsExact calls := by
  constructor
  . intro pre _
    exact (kept_run pre).totalExact
  . intro pre c hpre
    have hkept := kept_run pre
    have hcount := hpre.sublist.countP_le (p := LogCall.takesId)
    rw [List.countP_append, List.countP_singleton] at hcount
    have hmem : c ∈ calls := hpre.subset (List.mem_append_right pre (List.mem_singleton_self c))
    refine ⟨hkept.withinQuota c, hkept.exact (by omega) ?_⟩
    rintro data rfl
    exact hslices data hmem

-- The second record is turned down, the third goes to a segment of its own.
def quotaRun : List LogCall :=
  [.open ⟨10, 8, ⟨20⟩⟩, .append [1, 2, 3], .append [0, 0, 0, 0, 0, 0, 0, 0, 0], .append [4, 5, 6],
    .evictOldestClosed, .crash, .open ⟨10, 8, ⟨10⟩⟩, .append [7]]

theorem accounts_exact_quotaRun : AccountsExact quotaRun := by
  apply accounts_exact
  . simp [quotaRun]
  . decide

-- Every record needs a segment of its own.
def overflowConfig : Config := ⟨0, 1, ⟨16⟩⟩

def overflowRun (n : Nat) : List LogCall :=
  (.open overflowConfig :: List.replicate n .rotate) ++ [.append [0]]

theorem exec_rotations (n : Nat)
    : ∃ log, Run.exec LogCall.step (.down ∅) (.open overflowConfig :: List.replicate n .rotate) = .up log
        ∧ log.config = overflowConfig ∧ log.totalBytes = 0 ∧ log.nextSegId = n := by
  induction n with
  | zero => exact ⟨SegmentLog.open overflowConfig ∅, rfl, rfl, rfl, rfl⟩
  | succ n ih =>
    rcases ih with ⟨log, hexec, hconfig, htotal, hnext⟩
    rcases log.rotate_done with ⟨path, files, hrotate⟩
    refine ⟨(log.rotate .done).1, ?_, ?_⟩
    . rw [List.replicate_succ', ← List.cons_append, Run.exec_append, hexec]
      rfl
    . rw [hrotate, ← hnext]
      exact ⟨hconfig, htotal, rfl⟩

theorem overflowRun_ops {log : SegmentLog} (hconfig : log.config = overflowConfig)
    (htotal : log.totalBytes = 0) : .add log.nextSegId 1 ∈ log.appendOps [0] := by
  have hcheck : log.config.quota.check log.totalBytes (RECORD_HEADER_BYTES + [(0 : UInt8)].length) = .yes := by
    rw [hconfig, htotal]
    rfl
  have hmust : log.mustRotate (RECORD_HEADER_BYTES + [(0 : UInt8)].length) = true := by
    unfold SegmentLog.mustRotate
    split
    . rfl
    . rw [hconfig]
      apply decide_eq_true
      exact Nat.add_pos_right _ (by decide)
  have hsize : ¬log.config.maxRecordBytes < [(0 : UInt8)].length := by
    rw [hconfig]
    decide
  unfold SegmentLog.appendOps
  rw [if_neg hsize]
  dsimp only
  rw [hcheck]
  dsimp only
  rw [if_pos hmust]
  simp [SegmentLog.rotateOps]

theorem overflowRun_inexact {n : Nat} (h : 2 ^ 64 ≤ n + 1) : ¬AccountsExact (overflowRun n) := by
  rintro ⟨_, hguarded⟩
  rcases exec_rotations n with ⟨log, hexec, hconfig, htotal, hnext⟩
  have happend := (hguarded _ (.append [0]) (List.prefix_refl _)).2
  rw [hexec] at happend
  have hexact := happend _ (overflowRun_ops hconfig htotal)
  unfold U64Op.Exact at hexact
  omega

-- Nothing keeps a log from being rotated until its ids run out.
theorem overflowRun_overflows
    : (∀ data, .append data ∈ overflowRun (2 ^ 64 - 1) → data.length < 2 ^ 63)
        ∧ ¬AccountsExact (overflowRun (2 ^ 64 - 1)) := by
  constructor
  . intro data hdata
    unfold overflowRun at hdata
    rw [List.mem_append, List.mem_singleton, List.mem_cons, List.mem_replicate] at hdata
    rcases hdata with (hopen | ⟨_, hrotate⟩) | happend
    . contradiction
    . contradiction
    . rw [LogCall.append.inj happend]
      decide
  . exact overflowRun_inexact (by decide)

end Athar.Storage
