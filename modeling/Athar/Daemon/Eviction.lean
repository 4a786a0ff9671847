import Mathlib.Data.Rat.Lemmas
import Mathlib.Order.Bounds.Basic
import Mathlib.Tactic.Linarith
import Athar.Lib.Assoc
import Athar.Lib.Grouping
import Athar.Storage.Segments

/-!
This module contains the eviction pass of the daemon, which deletes the oldest closed segments of the evidence
log while it is too full, over any directory. Fill levels and water marks are exact numbers here, where the
daemon computes with floating point numbers.
-/

namespace Athar

open Storage

structure EvictionConfig where
  highWaterPct : ℚ
  lowWaterPct : ℚ
  maxEvictionsPerTick : Nat

structure EvictionOutcome where
  evicted : Nat
  initialFill : ℚ
  finalFill : ℚ
  ranDry : Bool
  deriving DecidableEq

namespace Eviction

def fillPct (l : SegmentLog) : ℚ :=
  if l.config.quota.limitBytes = 0 then
    100
  else
    l.totalBytes / l.config.quota.limitBytes * 100

-- The loop of `run_once`, with the evictions that the cap still allows. `removes` says which of the
-- deletions succeed.
def evictLoop (config : EvictionConfig) (initialFill : ℚ) (removes : Nat → Bool)
    : Nat → Nat → SegmentLog → SegmentLog × EvictionOutcome
  | 0, evicted, l => (l, ⟨evicted, initialFill, fillPct l, false⟩)
  | left + 1, evicted, l =>
    match l.evictOldestClosed (removes evicted) with
    | (l, .ok (some _)) =>
      if fillPct l < config.lowWaterPct then
        (l, ⟨evicted + 1, initialFill, fillPct l, false⟩)
      else
        evictLoop config initialFill removes left (evicted + 1) l
    | (l, .ok none) => (l, ⟨evicted, initialFill, fillPct l, true⟩)
    | (l, .error _) => (l, ⟨evicted, initialFill, fillPct l, false⟩)

def runOnce (config : EvictionConfig) (removes : Nat → Bool) (l : SegmentLog)
    : SegmentLog × EvictionOutcome :=
  if fillPct l < config.highWaterPct then
    (l, ⟨0, fillPct l, fillPct l, false⟩)
  else
    evictLoop config (fillPct l) removes config.maxEvictionsPerTick 0 l

end Eviction

namespace Storage

theorem segmentInfo_path {active : Option Active} {entry : (_ : String) × List UInt8}
    {info : SegmentInfo} (h : segmentInfo active entry = some info) : info.path = entry.1 := by
  unfold segmentInfo at h
  split at h
  . rw [← Option.some.inj h]
  . contradiction

-- The listing of a directory without a file is the listing without its segment.
theorem segments_erase (files : Dir) (active : Option Active) (path : String)
    : segments (files.erase path) active
        = (segments files active).filter (fun info => decide (info.path ≠ path)) := by
  unfold segments
  rw [← Grouping.insertionSort_filter, Assoc.entries_erase, List.filterMap_filter,
    List.filter_filterMap]
  congr 1
  apply List.filterMap_congr
  intro entry _
  cases hinfo : segmentInfo active entry with
  | none => simp
  | some info =>
    rw [← segmentInfo_path hinfo]
    by_cases hpath : info.path = path
    . simp [Option.filter_some, hpath]
    . simp [Option.filter_some, hpath]

theorem nodup_segments_path (files : Dir) (active : Option Active)
    : ((segments files active).map (·.path)).Nodup := by
  have hentries : (files.entries.filterMap (segmentInfo active)).Pairwise (·.path ≠ ·.path) := by
    apply (List.nodupKeys_iff_pairwise.mp files.nodupKeys).filterMap
    intro a a' hne info hinfo info' hinfo'
    rw [segmentInfo_path (Option.mem_def.mp hinfo), segmentInfo_path (Option.mem_def.mp hinfo')]
    exact hne
  have hperm := List.perm_insertionSort (fun a b : SegmentInfo => a.id ≤ b.id)
    (files.entries.filterMap (segmentInfo active))
  unfold segments
  rw [(hperm.map _).nodup_iff, List.Nodup, List.pairwise_map]
  exact hentries

namespace SegmentLog

def closedSegments (l : SegmentLog) : List SegmentInfo :=
  (segments l.files l.active).filter (·.state = .closed)

-- One segment deleted after the other.
def without (l : SegmentLog) (gone : List SegmentInfo) : SegmentLog :=
  gone.foldl
    (fun l info => { l with
      files := l.files.erase info.path
      totalBytes := l.totalBytes - info.sizeBytes }) l

def withoutOldest (l : SegmentLog) (n : Nat) : SegmentLog :=
  l.without (l.closedSegments.take n)

theorem pairwise_closedSegments (l : SegmentLog) : l.closedSegments.Pairwise (·.id ≤ ·.id) :=
  (Grouping.pairwise_insertionSort _).filter _

theorem nodup_closedSegments_path (l : SegmentLog) : (l.closedSegments.map (·.path)).Nodup :=
  (nodup_segments_path l.files l.active).sublist (List.filter_sublist.map _)

theorem evictOldestClosed_nil {l : SegmentLog} (h : l.closedSegments = []) (removes : Bool)
    : l.evictOldestClosed removes = (l, .ok none) := by
  have hfind : (segments l.files l.active).find? (·.state = .closed) = none := by
    rw [← List.head?_filter]
    exact congrArg List.head? h
  unfold evictOldestClosed
  rw [hfind]

theorem evictOldestClosed_cons {l : SegmentLog} {oldest : SegmentInfo} {rest : List SegmentInfo}
    (h : l.closedSegments = oldest :: rest)
    : l.evictOldestClosed true = (l.without [oldest], .ok (some oldest.id)) := by
  have hfind : (segments l.files l.active).find? (·.state = .closed) = some oldest := by
    rw [← List.head?_filter]
    exact congrArg List.head? h
  unfold evictOldestClosed
  rw [hfind]
  rfl

theorem closedSegments_without {l : SegmentLog} {oldest : SegmentInfo} {rest : List SegmentInfo}
    (h : l.closedSegments = oldest :: rest) : (l.without [oldest]).closedSegments = rest := by
  have hnodup := l.nodup_closedSegments_path
  have hsegments : (l.without [oldest]).closedSegments
      = (segments (l.files.erase oldest.path) l.active).filter (·.state = .closed) := rfl
  rw [h, List.map_cons, List.nodup_cons] at hnodup
  rw [hsegments, segments_erase, List.filter_comm]
  have hclosed : (segments l.files l.active).filter (·.state = .closed) = oldest :: rest := h
  rw [hclosed, List.filter_cons_of_neg (by simp), List.filter_eq_self]
  intro info hinfo
  rw [decide_eq_true_iff]
  intro heq
  apply hnodup.1
  rw [← heq]
  exact List.mem_map_of_mem hinfo

theorem lookup_without (l : SegmentLog) (gone : List SegmentInfo) (name : String)
    : (l.without gone).files.lookup name
        = if name ∈ gone.map (·.path) then none else l.files.lookup name := by
  induction gone generalizing l with
  | nil => rfl
  | cons info gone ih =>
    have hstep : l.without (info :: gone) = (l.without [info]).without gone := rfl
    rw [hstep, ih]
    by_cases hname : name = info.path
    . have herased : (l.without [info]).files.lookup name = none := by
        rw [hname]
        exact AList.lookup_erase _ _
      rw [herased]
      simp [hname]
    . have hkept : (l.without [info]).files.lookup name = l.files.lookup name :=
        AList.lookup_erase_ne hname
      rw [hkept]
      simp [hname]

end SegmentLog

end Storage

namespace Eviction

-- The fill is compared as the exact numbers `total * 100` and `pct * limit`.
def BelowExactly (pct : ℚ) (l : SegmentLog) : Prop :=
  l.totalBytes * 100 < pct * l.config.quota.limitBytes

-- A log whose quota is zero is full.
def Below (pct : ℚ) (l : SegmentLog) : Prop :=
  if l.config.quota.limitBytes = 0 then 100 < pct else BelowExactly pct l

theorem fillPct_lt_iff (l : SegmentLog) (pct : ℚ) : fillPct l < pct ↔ Below pct l := by
  unfold fillPct Below BelowExactly
  split
  . rfl
  . next hlimit =>
    have hpos : (0 : ℚ) < l.config.quota.limitBytes := by
      exact_mod_cast Nat.pos_of_ne_zero hlimit
    rw [div_mul_eq_mul_div, div_lt_iff₀ hpos]

section Spec

variable (below : ℚ → SegmentLog → Prop) (config : EvictionConfig)

-- Numbers of deletions, at least one, after which the log is not too full any more.
def Enough (l : SegmentLog) : Set Nat :=
  {n | 1 ≤ n ∧ below config.lowWaterPct (l.withoutOldest n)}

-- The most that the cap and the closed segments allow.
def most (left : Nat) (l : SegmentLog) : Nat :=
  min left l.closedSegments.length

-- What a pass does to a log, for a way to tell that it is filled below a water mark.
structure EvictsLeast (l : SegmentLog) (result : SegmentLog × EvictionOutcome) : Prop where
  idle : below config.highWaterPct l →
    result.1 = l ∧ result.2.evicted = 0 ∧ result.2.ranDry = false
  least : ¬below config.highWaterPct l →
    IsLeast (Enough below config l ∪ {most config.maxEvictionsPerTick l}) result.2.evicted
  oldestFirst : l.closedSegments.Pairwise (·.id ≤ ·.id)
  deletes : ∀ name, result.1.files.lookup name
    = if name ∈ (l.closedSegments.take result.2.evicted).map (·.path) then none
      else l.files.lookup name
  keeps : ∀ info ∈ segments l.files l.active, info.state ≠ .closed →
    result.1.files.lookup info.path = l.files.lookup info.path
  ranDry : result.2.ranDry = true
    ↔ ¬below config.highWaterPct l ∧ result.2.evicted = l.closedSegments.length
      ∧ result.2.evicted < config.maxEvictionsPerTick ∧ result.2.evicted ∉ Enough below config l

end Spec

theorem withoutOldest_zero (l : SegmentLog) : l.withoutOldest 0 = l := by
  rfl

-- Deleting the oldest segment first leaves one deletion less to do.
theorem withoutOldest_succ {l : SegmentLog} {oldest : SegmentInfo} {rest : List SegmentInfo}
    (h : l.closedSegments = oldest :: rest) (n : Nat)
    : l.withoutOldest (n + 1) = (l.without [oldest]).withoutOldest n := by
  unfold SegmentLog.withoutOldest
  rw [SegmentLog.closedSegments_without h, h]
  rfl

theorem mem_enough_succ {below : ℚ → SegmentLog → Prop} {config : EvictionConfig} {l : SegmentLog}
    {oldest : SegmentInfo} {rest : List SegmentInfo} (h : l.closedSegments = oldest :: rest)
    (hnot : ¬below config.lowWaterPct (l.without [oldest])) {n : Nat}
    : n + 1 ∈ Enough below config l ↔ n ∈ Enough below config (l.without [oldest]) := by
  unfold Enough
  rw [Set.mem_ofPred_eq, Set.mem_ofPred_eq, withoutOldest_succ h]
  cases n with
  | zero =>
    rw [withoutOldest_zero]
    simp [hnot]
  | succ n => simp

-- What the loop does: induction on the evictions left, the log is the one without the oldest segments.
theorem evictLoop_spec (config : EvictionConfig) (initialFill : ℚ) (left evicted : Nat) (l : SegmentLog)
    : ∃ n ran, evictLoop config initialFill (fun _ => true) left evicted l
          = (l.withoutOldest n, ⟨evicted + n, initialFill, fillPct (l.withoutOldest n), ran⟩)
        ∧ IsLeast (Enough Below config l ∪ {most left l}) n
        ∧ (ran = true ↔ n = l.closedSegments.length ∧ n < left ∧ n ∉ Enough Below config l) := by
  induction left generalizing evicted l with
  | zero =>
    refine ⟨0, false, rfl, ⟨?_, ?_⟩, ?_⟩
    . right
      simp [most]
    . intro n _
      exact Nat.zero_le n
    . simp
  | succ left ih =>
    cases h : l.closedSegments with
    | nil =>
      refine ⟨0, true, ?_, ⟨?_, ?_⟩, ?_⟩
      . rw [evictLoop, SegmentLog.evictOldestClosed_nil h]
        rfl
      . right
        simp [most, h]
      . intro n _
        exact Nat.zero_le n
      . simp [Enough]
    | cons oldest rest =>
      have hrest := SegmentLog.closedSegments_without h
      have hone : l.withoutOldest 1 = l.without [oldest] := by
        rw [withoutOldest_succ h, withoutOldest_zero]
      rw [evictLoop, SegmentLog.evictOldestClosed_cons h]
      dsimp only
      by_cases hlow : Below config.lowWaterPct (l.without [oldest])
      . have henough : 1 ∈ Enough Below config l := by
          refine ⟨Nat.le_refl 1, ?_⟩
          rw [hone]
          exact hlow
        rw [if_pos ((fillPct_lt_iff _ _).mpr hlow)]
        refine ⟨1, false, ?_, ⟨.inl henough, ?_⟩, ?_⟩
        . rw [hone]
        . rintro n (hn | hn)
          . exact hn.1
          . rw [hn, most, h, List.length_cons]
            omega
        . simp [henough]
      . rw [if_neg (fun hlt => hlow ((fillPct_lt_iff _ _).mp hlt))]
        rcases ih (evicted + 1) (l.without [oldest]) with ⟨n, ran, hloop, hleast, hran⟩
        have hmost : most (left + 1) l = most left (l.without [oldest]) + 1 := by
          unfold most
          rw [h, hrest, List.length_cons, Nat.add_min_add_right]
        refine ⟨n + 1, ran, ?_, ⟨?_, ?_⟩, ?_⟩
        . rw [hloop, withoutOldest_succ h, Nat.add_right_comm, Nat.add_assoc]
        . rcases hleast.1 with hn | hn
          . exact .inl ((mem_enough_succ h hlow).mpr hn)
          . right
            rw [Set.mem_singleton_iff] at hn ⊢
            rw [hmost, hn]
        . rintro m (hm | hm)
          . cases m with
            | zero => exact absurd hm.1 (by decide)
            | succ m => exact Nat.succ_le_succ (hleast.2 (.inl ((mem_enough_succ h hlow).mp hm)))
          . rw [Set.mem_singleton_iff] at hm
            rw [hm, hmost]
            exact Nat.succ_le_succ (hleast.2 (.inr rfl))
        . rw [hran, hrest, mem_enough_succ h hlow]
          simp

theorem runOnce_of_below {config : EvictionConfig} {l : SegmentLog} (h : Below config.highWaterPct l)
    (removes : Nat → Bool)
    : runOnce config removes l = (l, ⟨0, fillPct l, fillPct l, false⟩) := by
  rw [runOnce, if_pos ((fillPct_lt_iff _ _).mpr h)]

theorem runOnce_of_not_below {config : EvictionConfig} {l : SegmentLog}
    (h : ¬Below config.highWaterPct l)
    : ∃ n ran, runOnce config (fun _ => true) l
          = (l.withoutOldest n, ⟨n, fillPct l, fillPct (l.withoutOldest n), ran⟩)
        ∧ IsLeast (Enough Below config l ∪ {most config.maxEvictionsPerTick l}) n
        ∧ (ran = true ↔ n = l.closedSegments.length ∧ n < config.maxEvictionsPerTick
          ∧ n ∉ Enough Below config l) := by
  rcases evictLoop_spec config (fillPct l) config.maxEvictionsPerTick 0 l with ⟨n, ran, hloop, hspec⟩
  refine ⟨n, ran, ?_, hspec⟩
  rw [runOnce, if_neg (fun hlt => h ((fillPct_lt_iff _ _).mp hlt)), hloop, Nat.zero_add]

-- The files that are left when the oldest closed segments are deleted: no other segment has their paths.
theorem lookup_withoutOldest (l : SegmentLog) (n : Nat)
    : (∀ name, (l.withoutOldest n).files.lookup name
          = if name ∈ (l.closedSegments.take n).map (·.path) then none else l.files.lookup name)
        ∧ ∀ info ∈ segments l.files l.active, info.state ≠ .closed →
          (l.withoutOldest n).files.lookup info.path = l.files.lookup info.path := by
  refine ⟨l.lookup_without _, ?_⟩
  intro info hinfo hstate
  unfold SegmentLog.withoutOldest
  rw [l.lookup_without, if_neg]
  rw [List.mem_map]
  rintro ⟨gone, hgone, hpath⟩
  have hclosed := List.mem_filter.mp (List.mem_of_mem_take hgone)
  have heq := List.inj_on_of_nodup_map (nodup_segments_path l.files l.active) hclosed.1 hinfo hpath
  rw [heq, decide_eq_true_iff] at hclosed
  exact hstate hclosed.2

/--
In every state of the log and for every setting, a pass whose deletions succeed does nothing below the high
water mark, and else deletes the fewest of the oldest closed segments, at least one, that bring the log below
the low water mark, or as many as the cap and the closed segments allow. It has run dry exactly if there was
no closed segment left to delete.
-/
theorem runOnce_evictsLeast (config : EvictionConfig) (l : SegmentLog)
    : EvictsLeast Below config l (runOnce config (fun _ => true) l) := by
  by_cases hhigh : Below config.highWaterPct l
  . rw [runOnce_of_below hhigh]
    constructor
    . intro _
      exact ⟨rfl, rfl, rfl⟩
    . intro hnot
      exact absurd hhigh hnot
    . exact l.pairwise_closedSegments
    . intro name
      simp
    . intro info _ _
      rfl
    . simp [hhigh]
  . rcases runOnce_of_not_below hhigh with ⟨n, ran, hrun, hleast, hran⟩
    rcases lookup_withoutOldest l n with ⟨hdeletes, hkeeps⟩
    rw [hrun]
    constructor
    . intro hbelow
      exact absurd hbelow hhigh
    . intro _
      exact hleast
    . exact l.pairwise_closedSegments
    . exact hdeletes
    . exact hkeeps
    . rw [hran, and_iff_right hhigh]

-- A log that may hold nothing and holds one closed segment.
def overQuota : SegmentLog :=
  .open ⟨1000, 100, ⟨0⟩⟩ (AList.insert "0000000000000000.seg.seg" [0, 0, 0, 1, 7] ∅)

-- It counts as exactly full, so nothing is deleted if the high water mark is above that.
theorem overQuota_kept
    : ¬EvictsLeast BelowExactly ⟨101, 70, 32⟩ overQuota
        (runOnce ⟨101, 70, 32⟩ (fun _ => true) overQuota) := by
  intro h
  have hclosed : overQuota.closedSegments.length = 1 := by decide +kernel
  have hhigh : Below 101 overQuota := by
    have hlimit : overQuota.config.quota.limitBytes = 0 := rfl
    rw [Below, if_pos hlimit]
    norm_num
  have hnot : ¬BelowExactly 101 overQuota := by
    have hlimit : overQuota.config.quota.limitBytes = 0 := rfl
    rw [BelowExactly, hlimit]
    simp
  have hleast := (h.least hnot).1
  rw [runOnce_of_below hhigh] at hleast
  rcases hleast with hzero | hzero
  . exact absurd hzero.1 (by decide)
  . rw [Set.mem_singleton_iff, most, hclosed] at hzero
    contradiction

end Eviction

end Athar
