import Athar.Detection.Targets
import Athar.Detection.Velocity

/-!
This module contains how the trackers keep their subjects: the LRU list names the tracked subjects in
the order of their last observations, and the first of them is the one that is evicted.
-/

namespace Athar

namespace VelocityTracker

def run (config : VelocityConfig) (calls : List (String × Nat)) : VelocityTracker :=
  Run.exec step (new config) calls

theorem run_eq (config : VelocityConfig) (calls : List (String × Nat))
    : run config calls
        = ⟨config, Run.exec (Lru.step config.maxSubjects [] config.sample) .empty calls⟩ := by
  unfold run
  induction calls using List.reverseRecOn with
  | nil => rfl
  | append_singleton calls call ih =>
    rw [Run.exec_append, Run.exec_append, ih]
    rfl

structure KeepsRecency (config : VelocityConfig) (calls : List (String × Nat)) : Prop where
  subjects : (run config calls).windows.Represents config.maxSubjects (calls.map (·.1))
  evicts : ∀ call, Lru.LosesOldest (calls.map (·.1)) (run config calls).windows
    ((run config calls).step call).windows

theorem keepsRecency (config : VelocityConfig) (calls : List (String × Nat))
    : KeepsRecency config calls := by
  have hsubjects : (run config calls).windows.Represents config.maxSubjects (calls.map (·.1)) := by
    rw [run_eq]
    exact Lru.represents_run calls
  constructor
  . exact hsubjects
  . intro call
    rw [run_eq] at hsubjects ⊢
    exact hsubjects.losesOldest call.1 (config.sample call.2)

end VelocityTracker

namespace TargetTracker

structure KeepsRecency (config : TargetConfig) (calls : List Call) : Prop where
  subjects : (run config calls).windows.Represents config.maxSubjects (calls.map (·.1))
  targets : ∀ subject, ((run config calls).held subject).length ≤ max 1 config.maxTargetsPerSubject
  evicts : ∀ call, Lru.LosesOldest (calls.map (·.1)) (run config calls).windows
    ((run config calls).step call).windows

theorem keepsRecency (config : TargetConfig) (calls : List Call) : KeepsRecency config calls := by
  have hsubjects : (run config calls).windows.Represents config.maxSubjects (calls.map (·.1)) := by
    rw [run_eq]
    exact Lru.represents_run calls
  constructor
  . exact hsubjects
  . intro subject
    exact (forall_length_le config calls).value (Nat.zero_le _) subject
  . intro call
    rw [run_eq] at hsubjects ⊢
    exact hsubjects.losesOldest call.1 (config.sample call.2)

end TargetTracker

/--
After any calls, the LRU list of a tracker holds each tracked subject once and nothing else, in the
order of the last observations, and both kinds of limits are kept. A call evicts the tracked subject
whose last observation is the earliest.
-/
theorem trackers_keepRecency (velocity : VelocityConfig) (targets : TargetConfig)
    (samples : List (String × Nat)) (calls : List TargetTracker.Call)
    : VelocityTracker.KeepsRecency velocity samples ∧ TargetTracker.KeepsRecency targets calls := by
  constructor
  . exact VelocityTracker.keepsRecency velocity samples
  . exact TargetTracker.keepsRecency targets calls

-- With no room at all a tracker still holds one subject, the last one.
example : (VelocityTracker.run { maxSubjects := 0 } [("a", 1), ("b", 2)]).windows.order = ["b"] := by
  decide

end Athar
