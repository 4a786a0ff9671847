import Athar.Lib.Lru

/-!
This module contains the trackers of the signal engine. For each subject they keep what happened in a
rolling window, and they answer once there is more of it than a threshold. Subjects that do not fit are
evicted, the least recently active one first.

The flags that only decide whether a warning is logged are left out.
-/

namespace Athar

structure VelocityConfig where
  windowMs : Nat := 60000
  threshold : UInt32 := 10
  maxSubjects : Nat := 10000
  deriving DecidableEq, Repr

structure TargetConfig where
  windowMs : Nat := 60 * 60 * 1000
  threshold : UInt32 := 5
  maxSubjects : Nat := 10000
  maxTargetsPerSubject : Nat := 1024
  deriving DecidableEq, Repr

-- The count, if it strictly exceeds the threshold.
def exceeding (threshold : UInt32) (length : Nat) : Option UInt32 :=
  let count := UInt32.ofNat length
  if threshold < count then some count else none

namespace VelocityConfig

variable (config : VelocityConfig)

-- The samples of a subject, oldest first, when one more is taken.
def sample (nowMs : Nat) (window : List Nat) : List Nat :=
  window.dropWhile (· < nowMs - config.windowMs) ++ [nowMs]

end VelocityConfig

structure VelocityTracker where
  config : VelocityConfig
  windows : Lru String (List Nat)

namespace VelocityTracker

def new (config : VelocityConfig) : VelocityTracker := ⟨config, .empty⟩

def observe (t : VelocityTracker) (subject : String) (nowMs : Nat)
    : VelocityTracker × Option UInt32 :=
  let windows := t.windows.touch t.config.maxSubjects [] subject (t.config.sample nowMs)
  ({ t with windows }, exceeding t.config.threshold (windows.value [] subject).length)

end VelocityTracker

-- `BTreeMap<String, u64>`, in the order of its keys: the targets with the time they were last seen.
abbrev TargetMap := List (String × Nat)

namespace TargetMap

def insert : TargetMap → String → Nat → TargetMap
  | [], target, ts => [(target, ts)]
  | entry :: rest, target, ts =>
    if target < entry.1 then
      (target, ts) :: entry :: rest
    else if target = entry.1 then
      (target, ts) :: rest
    else
      entry :: insert rest target ts

def containsKey (entry : TargetMap) (target : String) : Bool :=
  entry.any (·.1 = target)

def remove (entry : TargetMap) (target : String) : TargetMap :=
  entry.filter (·.1 ≠ target)

-- The first of the targets that were seen the longest time ago.
def oldest : TargetMap → Option (String × Nat)
  | [] => none
  | entry :: rest =>
    match oldest rest with
    | some other => if other.2 < entry.2 then some other else some entry
    | none => some entry

end TargetMap

namespace TargetConfig

variable (config : TargetConfig)

-- The targets of a subject when one more is seen.
def sample (input : String × Nat) (targets : TargetMap) : TargetMap :=
  let entry : TargetMap := targets.filter (input.2 - config.windowMs ≤ ·.2)
  let entry :=
    if config.maxTargetsPerSubject ≤ entry.length ∧ ¬TargetMap.containsKey entry input.1 then
      match TargetMap.oldest entry with
      | some oldest => TargetMap.remove entry oldest.1
      | none => entry
    else
      entry
  TargetMap.insert entry input.1 input.2

end TargetConfig

structure TargetTracker where
  config : TargetConfig
  windows : Lru String TargetMap

namespace TargetTracker

def new (config : TargetConfig) : TargetTracker := ⟨config, .empty⟩

def observe (t : TargetTracker) (subject target : String) (nowMs : Nat)
    : TargetTracker × Option UInt32 :=
  let windows := t.windows.touch t.config.maxSubjects [] subject (t.config.sample (target, nowMs))
  ({ t with windows }, exceeding t.config.threshold (windows.value [] subject).length)

end TargetTracker

end Athar
