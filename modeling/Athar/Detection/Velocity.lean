import Athar.Detection.Impl.Trackers
import Athar.Lib.Recent

/-!
This module contains what the velocity tracker counts. Its windows are only pruned from the front, so a
sample that is too old still counts while a more recent one stands before it. Samples stand in the
order in which they were taken, and the clock may be set back between two of them.
-/

namespace Athar

namespace VelocityConfig

variable (config : VelocityConfig) (nowMs : Nat) (window : List Nat)

def stale (sample : Nat) : Bool :=
  sample < nowMs - config.windowMs

-- The retained samples of the rolling window, when one more is taken.
def inWindow : Nat :=
  (window ++ [nowMs]).countP (!config.stale nowMs ·)

-- The samples older than the rolling window that stand behind one that is not.
def leftBehind : Nat :=
  (window.dropWhile (config.stale nowMs)).countP (config.stale nowMs)

theorem length_sample
    : (config.sample nowMs window).length
        = config.inWindow nowMs window + config.leftBehind nowMs window := by
  have hsample : config.sample nowMs window = window.dropWhile (config.stale nowMs) ++ [nowMs] := rfl
  have hnow : config.stale nowMs nowMs = false := by simp [stale]
  have hdrop := Recent.length_dropWhile (config.stale nowMs) window
  unfold inWindow leftBehind
  rw [hsample, List.length_append, List.length_singleton, List.countP_append, List.countP_singleton, hnow]
  simp only [Bool.not_false, if_true]
  omega

variable {config nowMs window}

theorem leftBehind_of_sorted (h : window.Pairwise (· ≤ ·)) : config.leftBehind nowMs window = 0 := by
  apply Recent.countP_dropWhile_of_pairwise
  apply h.imp
  intro earlier later hle hstale
  unfold stale at hstale ⊢
  rw [decide_eq_true_iff] at hstale ⊢
  omega

theorem sorted_sample {latest : Nat} (h : window.Pairwise (· ≤ ·)) (hlatest : ∀ x ∈ window, x ≤ latest)
    (hnow : latest ≤ nowMs)
    : (config.sample nowMs window).Pairwise (· ≤ ·) ∧ ∀ x ∈ config.sample nowMs window, x ≤ nowMs := by
  have hsublist : (window.dropWhile (· < nowMs - config.windowMs)).Sublist window :=
    List.dropWhile_sublist _
  have hle : ∀ x ∈ window.dropWhile (· < nowMs - config.windowMs), x ≤ nowMs := by
    intro x hx
    exact (hlatest x (hsublist.subset hx)).trans hnow
  unfold sample
  constructor
  . rw [List.pairwise_append]
    refine ⟨h.sublist hsublist, List.pairwise_singleton _ _, ?_⟩
    intro x hx y hy
    rw [List.mem_singleton.mp hy]
    exact hle x hx
  . rw [List.forall_mem_append, List.forall_mem_singleton]
    exact ⟨hle, le_rfl⟩

end VelocityConfig

namespace VelocityTracker

def step (t : VelocityTracker) (call : String × Nat) : VelocityTracker :=
  (t.observe call.1 call.2).1

def retained (t : VelocityTracker) (subject : String) : List Nat :=
  t.windows.value [] subject

-- The count that a call compares with the threshold.
def count (t : VelocityTracker) (call : String × Nat) : UInt32 :=
  UInt32.ofNat ((t.step call).retained call.1).length

structure CountsExactly (t : VelocityTracker) (call : String × Nat) : Prop where
  count_eq : (t.count call).toNat = t.config.inWindow call.2 (t.retained call.1)
  result_eq : (t.observe call.1 call.2).2
    = if t.config.threshold < t.count call then some (t.count call) else none

-- No stale sample is left behind. The count is a machine word, which 2³² of them would not change.
structure PrunesAll (t : VelocityTracker) (call : String × Nat) : Prop where
  leftBehind : 2 ^ 32 ∣ t.config.leftBehind call.2 (t.retained call.1)
  inWindow : t.config.inWindow call.2 (t.retained call.1) < 2 ^ 32

theorem retained_step (t : VelocityTracker) (call : String × Nat)
    : (t.step call).retained call.1 = t.config.sample call.2 (t.retained call.1) := by
  apply Lru.value_touch_self

theorem countsExactly_iff (t : VelocityTracker) (call : String × Nat)
    : t.CountsExactly call ↔ t.PrunesAll call := by
  have hcount : (t.count call).toNat
      = (t.config.inWindow call.2 (t.retained call.1)
        + t.config.leftBehind call.2 (t.retained call.1)) % 2 ^ 32 := by
    unfold count
    rw [retained_step, VelocityConfig.length_sample, UInt32.toNat_ofNat']
  constructor
  . intro h
    have hexact := h.count_eq
    rw [hcount] at hexact
    constructor
    . omega
    . omega
  . intro h
    have hbehind := h.leftBehind
    have hwindow := h.inWindow
    constructor
    . rw [hcount]
      omega
    . rfl

-- Every window is in the order of time.
def Sorted (latest : Nat) (t : VelocityTracker) : Prop :=
  ∀ subject, (t.retained subject).Pairwise (· ≤ ·) ∧ ∀ x ∈ t.retained subject, x ≤ latest

theorem Sorted.step {latest : Nat} {t : VelocityTracker} (h : Sorted latest t) {call : String × Nat}
    (hlatest : latest ≤ call.2) : Sorted call.2 (t.step call) := by
  intro subject
  by_cases hsubject : subject = call.1
  . rw [hsubject, retained_step]
    exact VelocityConfig.sorted_sample (h call.1).1 (h call.1).2 hlatest
  . unfold VelocityTracker.step observe retained
    rcases t.windows.value_touch_of_ne hsubject (t.config.sample call.2) with hkept | ⟨_, hevicted⟩
    . rw [hkept]
      exact ⟨(h subject).1, fun x hx => ((h subject).2 x hx).trans hlatest⟩
    . rw [hevicted]
      exact ⟨List.Pairwise.nil, by simp⟩

theorem leftBehind_of_sorted {latest : Nat} {t : VelocityTracker} {calls : List (String × Nat)}
    (h : Sorted latest t) (hlatest : ∀ call ∈ calls, latest ≤ call.2)
    (hsorted : (calls.map (·.2)).Pairwise (· ≤ ·))
    : Run.Guarded VelocityTracker.step
        (fun t call => t.config.leftBehind call.2 (t.retained call.1) = 0) t calls := by
  induction calls generalizing latest t with
  | nil => simp
  | cons call calls ih =>
    rw [List.map_cons, List.pairwise_cons, List.forall_mem_map] at hsorted
    rw [Run.guarded_cons]
    constructor
    . exact VelocityConfig.leftBehind_of_sorted (h call.1).1
    . exact ih (h.step (hlatest call (by simp))) hsorted.1 hsorted.2

theorem leftBehind_new_of_sorted (config : VelocityConfig) {calls : List (String × Nat)}
    (hsorted : (calls.map (·.2)).Pairwise (· ≤ ·))
    : Run.Guarded VelocityTracker.step
        (fun t call => t.config.leftBehind call.2 (t.retained call.1) = 0) (new config) calls := by
  have hnew : Sorted 0 (new config) := by
    intro subject
    exact ⟨List.Pairwise.nil, by simp [new, retained, Lru.value, Lru.empty]⟩
  exact leftBehind_of_sorted hnew (fun call _ => Nat.zero_le call.2) hsorted

/--
Every count of a run is the number of the samples in the rolling window if and only if no sample
older than the window ever stands behind a retained one that is not.
-/
theorem counts_iff_prunes (config : VelocityConfig) (calls : List (String × Nat)) (subject : String)
    : Run.Guarded step (fun t call => call.1 = subject → t.CountsExactly call) (new config) calls
        ↔ Run.Guarded step (fun t call => call.1 = subject → t.PrunesAll call) (new config) calls := by
  apply Run.guarded_congr (D := fun _ _ => True)
  . exact Run.Guarded.of_forall calls fun _ _ => trivial
  . intro t call _
    rw [countsExactly_iff]

-- The clock goes back after the first sample, which then hides the second.
def setBack : List (String × Nat) := [("actor", 100), ("actor", 0), ("actor", 150)]

theorem setBack_miscounts
    : ¬∀ (config : VelocityConfig) (calls : List (String × Nat)) (subject : String),
        Run.Guarded step (fun t call => call.1 = subject → t.CountsExactly call) (new config) calls := by
  intro hclaim
  have hlast := hclaim { windowMs := 60, threshold := 2 } setBack "actor"
    [("actor", 100), ("actor", 0)] ("actor", 150) (List.prefix_refl _) rfl
  exact absurd hlast.count_eq (by decide)

end VelocityTracker

end Athar
