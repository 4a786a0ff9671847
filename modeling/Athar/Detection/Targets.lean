import Mathlib.Data.String.Basic
import Athar.Detection.Impl.Trackers
import Athar.Lib.Hex
import Athar.Lib.Recent

/-!
This module contains what the target tracker counts: of the targets that a subject turned to within
the rolling window, as many as there is room for, the most recent ones. A target that had to make room
for another can only be missed once the other is gone as well, because it was seen before it.
-/

namespace Athar

namespace TargetMap

-- The entries of a B-tree map are in the order of their keys.
def Sorted (entry : TargetMap) : Prop :=
  entry.Pairwise (·.1 < ·.1)

variable {entry : TargetMap}

theorem Sorted.nodup (h : Sorted entry) : (entry.map (·.1)).Nodup := by
  unfold List.Nodup
  rw [List.pairwise_map]
  exact h.imp ne_of_lt

theorem remove_cons (first : String × Nat) (rest : TargetMap) (target : String)
    : remove (first :: rest) target
        = if first.1 = target then remove rest target else first :: remove rest target := by
  unfold remove
  rw [List.filter_cons]
  split
  . next h => rw [if_neg (of_decide_eq_true h)]
  . next h => rw [if_pos (by simpa using h)]

theorem mem_remove {target : String} {e : String × Nat}
    : e ∈ remove entry target ↔ e ∈ entry ∧ e.1 ≠ target := by
  unfold remove
  rw [List.mem_filter, decide_eq_true_iff]

theorem remove_of_notMem {target : String} (h : target ∉ entry.map (·.1))
    : remove entry target = entry := by
  unfold remove
  rw [List.filter_eq_self]
  rintro e he
  apply decide_eq_true
  rintro rfl
  exact h (List.mem_map_of_mem he)

-- Nothing behind an entry that is not before the target is the target's.
theorem remove_of_le {first : String × Nat} {rest : TargetMap} (h : Sorted (first :: rest))
    {target : String} (hle : target ≤ first.1) : remove rest target = rest := by
  unfold remove
  rw [List.filter_eq_self]
  intro e he
  exact decide_eq_true (hle.trans_lt (List.rel_of_pairwise_cons h he)).ne'

theorem insert_perm (h : Sorted entry) (target : String) (ts : Nat)
    : (insert entry target ts).Perm ((target, ts) :: remove entry target) := by
  induction entry with
  | nil => rfl
  | cons first rest ih =>
    unfold insert
    rw [remove_cons]
    split
    . next hlt => rw [if_neg hlt.ne', remove_of_le h hlt.le]
    . split
      . next heq => rw [if_pos heq.symm, remove_of_le h heq.le]
      . next hne =>
        rw [if_neg (Ne.symm hne)]
        exact ((ih h.of_cons).cons first).trans (List.Perm.swap _ _ _)

theorem Sorted.insert (h : Sorted entry) (target : String) (ts : Nat)
    : Sorted (insert entry target ts) := by
  induction entry with
  | nil => exact List.pairwise_singleton _ _
  | cons first rest ih =>
    unfold TargetMap.insert
    split
    . next hlt =>
      refine List.pairwise_cons.mpr ⟨?_, h⟩
      intro e he
      rcases List.mem_cons.mp he with rfl | hmem
      . exact hlt
      . exact hlt.trans (List.rel_of_pairwise_cons h hmem)
    . next hle =>
      split
      . next heq =>
        refine List.pairwise_cons.mpr ⟨?_, h.of_cons⟩
        intro e he
        rw [heq]
        exact List.rel_of_pairwise_cons h he
      . next hne =>
        refine List.pairwise_cons.mpr ⟨?_, ih h.of_cons⟩
        intro e he
        rcases List.mem_cons.mp ((insert_perm h.of_cons target ts).mem_iff.mp he) with rfl | hmem
        . exact lt_of_le_of_ne (not_lt.mp hle) (Ne.symm hne)
        . exact List.rel_of_pairwise_cons h (mem_remove.mp hmem).1

theorem remove_perm (h : Sorted entry) {e : String × Nat} (he : e ∈ entry)
    : entry.Perm (e :: remove entry e.1) := by
  induction entry with
  | nil => contradiction
  | cons first rest ih =>
    rw [remove_cons]
    rcases List.mem_cons.mp he with rfl | hmem
    . rw [if_pos rfl, remove_of_le h le_rfl]
    . have hlt : first.1 < e.1 := List.rel_of_pairwise_cons h hmem
      rw [if_neg hlt.ne]
      exact ((ih h.of_cons hmem).cons first).trans (List.Perm.swap _ _ _)

theorem oldest_spec (hne : entry ≠ [])
    : ∃ e, oldest entry = some e ∧ e ∈ entry ∧ ∀ e' ∈ entry, e.2 ≤ e'.2 := by
  induction entry with
  | nil => contradiction
  | cons first rest ih =>
    by_cases hrest : rest = []
    . subst hrest
      exact ⟨first, rfl, by simp⟩
    . rcases ih hrest with ⟨e, he, hmem, hmin⟩
      unfold oldest
      rw [he]
      dsimp only
      split
      . next hlt =>
        refine ⟨e, rfl, List.mem_cons_of_mem _ hmem, ?_⟩
        rw [List.forall_mem_cons]
        exact ⟨hlt.le, hmin⟩
      . next hle =>
        refine ⟨first, rfl, List.mem_cons_self, ?_⟩
        rw [List.forall_mem_cons]
        exact ⟨le_rfl, fun e' he' => (not_lt.mp hle).trans (hmin e' he')⟩

end TargetMap

namespace TargetConfig

variable (config : TargetConfig)

-- A target that is seen always finds a place.
def room : Nat := max 1 config.maxTargetsPerSubject

-- The targets in the window, with the ones that have to make room for one more taken out.
def kept (target : String) (entry : TargetMap) : TargetMap :=
  if config.maxTargetsPerSubject ≤ entry.length ∧ ¬TargetMap.containsKey entry target then
    match TargetMap.oldest entry with
    | some oldest => TargetMap.remove entry oldest.1
    | none => entry
  else
    entry

def memory (observations : List (String × Nat)) : TargetMap :=
  observations.foldl (fun targets input => config.sample input targets) []

-- The cutoff of the last observation.
def lastCutoff (observations : List (String × Nat)) : Nat :=
  observations.getLast?.elim 0 (·.2) - config.windowMs

variable {config} {log : List (String × Nat)} {cutoff : Nat} {entry : TargetMap}

theorem sample_eq (input : String × Nat) (targets : TargetMap)
    : config.sample input targets
        = TargetMap.insert (config.kept input.1 (targets.filter (input.2 - config.windowMs ≤ ·.2)))
          input.1 input.2 := by
  rfl

theorem containsKey_iff {target : String}
    : TargetMap.containsKey entry target = true ↔ target ∈ entry.map (·.1) := by
  unfold TargetMap.containsKey
  rw [List.any_eq_true]
  simp

-- At most one entry goes: the one of the target itself, or the oldest one of a full table.
theorem kept_spec (hsorted : TargetMap.Sorted entry) (hroom : entry.length ≤ config.room) (target : String)
    : ∃ gone : Option (String × Nat),
        entry.Perm (gone.toList ++ TargetMap.remove (config.kept target entry) target)
          ∧ (TargetMap.remove (config.kept target entry) target).length < config.room
          ∧ ∀ e ∈ gone, e.1 = target
            ∨ (TargetMap.remove (config.kept target entry) target).length + 1 = config.room
              ∧ ∀ e' ∈ entry, e.2 ≤ e'.2 := by
  unfold room at hroom ⊢
  unfold kept
  by_cases hknown : target ∈ entry.map (·.1)
  . rw [if_neg (fun h => h.2 (containsKey_iff.mpr hknown))]
    rcases List.mem_map.mp hknown with ⟨own, hown, rfl⟩
    have hperm := TargetMap.remove_perm hsorted hown
    have hlength := hperm.length_eq
    rw [List.length_cons] at hlength
    refine ⟨some own, hperm, by omega, ?_⟩
    rintro e ⟨⟩
    exact Or.inl rfl
  . split
    . next hfull =>
      by_cases hempty : entry = []
      . subst hempty
        exact ⟨none, List.Perm.refl _, by simp [TargetMap.oldest, TargetMap.remove], by simp⟩
      . rcases TargetMap.oldest_spec hempty with ⟨oldest, holdest, hmem, hmin⟩
        have hperm := TargetMap.remove_perm hsorted hmem
        have hout : target ∉ (TargetMap.remove entry oldest.1).map (·.1) := by
          intro hin
          rcases List.mem_map.mp hin with ⟨e, he, rfl⟩
          exact hknown (List.mem_map_of_mem (TargetMap.mem_remove.mp he).1)
        have hlength := hperm.length_eq
        rw [List.length_cons] at hlength
        rw [holdest]
        dsimp only
        rw [TargetMap.remove_of_notMem hout]
        refine ⟨some oldest, hperm, by omega, ?_⟩
        rintro e ⟨⟩
        exact Or.inr ⟨by omega, hmin⟩
    . next hfree =>
      rw [TargetMap.remove_of_notMem hknown]
      refine ⟨none, List.Perm.refl _, ?_, by simp⟩
      have : ¬config.maxTargetsPerSubject ≤ entry.length := fun h =>
        hfree ⟨h, fun hkey => hknown (containsKey_iff.mp hkey)⟩
      omega

-- What one more target does: some of the targets in the window stay, and it stands beside them.
theorem sample_spec (hsorted : TargetMap.Sorted entry) (hroom : entry.length ≤ config.room)
    (input : String × Nat)
    : TargetMap.Sorted (config.sample input entry)
        ∧ ∃ (gone : Option (String × Nat)) (rest : TargetMap),
          (entry.filter (input.2 - config.windowMs ≤ ·.2)).Perm (gone.toList ++ rest)
            ∧ (config.sample input entry).Perm (input :: rest)
            ∧ input.1 ∉ rest.map (·.1)
            ∧ rest.length < config.room
            ∧ ∀ e ∈ gone, e.1 = input.1
              ∨ rest.length + 1 = config.room
                ∧ ∀ e' ∈ entry.filter (input.2 - config.windowMs ≤ ·.2), e.2 ≤ e'.2 := by
  have hpruned : TargetMap.Sorted (entry.filter (input.2 - config.windowMs ≤ ·.2)) :=
    List.Pairwise.filter _ hsorted
  have hlength : (entry.filter (input.2 - config.windowMs ≤ ·.2)).length ≤ config.room :=
    (List.length_filter_le _ _).trans hroom
  have hkept : TargetMap.Sorted (config.kept input.1 (entry.filter (input.2 - config.windowMs ≤ ·.2))) := by
    unfold kept
    split
    . split
      . exact List.Pairwise.filter _ hpruned
      . exact hpruned
    . exact hpruned
  rcases kept_spec hpruned hlength input.1 with ⟨gone, hperm, hrest, hgone⟩
  rw [sample_eq]
  refine ⟨hkept.insert _ _, gone, _, hperm, TargetMap.insert_perm hkept _ _, ?_, hrest, hgone⟩
  intro hin
  rcases List.mem_map.mp hin with ⟨e, he, heq⟩
  exact (TargetMap.mem_remove.mp he).2 heq

theorem sample_le_room (input : String × Nat) (h : TargetMap.Sorted entry ∧ entry.length ≤ config.room)
    : TargetMap.Sorted (config.sample input entry) ∧ (config.sample input entry).length ≤ config.room := by
  rcases sample_spec h.1 h.2 input with ⟨hsorted, gone, rest, _, hperm, _, hrest, _⟩
  refine ⟨hsorted, ?_⟩
  rw [hperm.length_eq, List.length_cons]
  exact hrest

theorem holds_sample (hsorted : TargetMap.Sorted entry) (h : Recent.Holds config.room log cutoff entry)
    {input : String × Nat} (hlog : ∀ e ∈ log, e.2 ≤ input.2) (hcutoff : cutoff ≤ input.2 - config.windowMs)
    : TargetMap.Sorted (config.sample input entry)
        ∧ Recent.Holds config.room (log ++ [input]) (input.2 - config.windowMs)
          (config.sample input entry) := by
  rcases sample_spec hsorted h.length_le input with ⟨hsample, gone, rest, hpruned, hperm, hout, hrest, hgone⟩
  refine ⟨hsample, Recent.Holds.perm ?_ hperm⟩
  exact (h.prune hcutoff).see hlog (Nat.sub_le _ _) hpruned hout hrest hgone

theorem memory_append (observations : List (String × Nat)) (input : String × Nat)
    : config.memory (observations ++ [input]) = config.sample input (config.memory observations) := by
  unfold memory
  rw [List.foldl_append]
  rfl

theorem holds_memory {observations : List (String × Nat)} (h : (observations.map (·.2)).Pairwise (· ≤ ·))
    : TargetMap.Sorted (config.memory observations)
        ∧ Recent.Holds config.room observations (config.lastCutoff observations)
          (config.memory observations) := by
  induction observations using List.reverseRecOn with
  | nil => exact ⟨List.Pairwise.nil, Recent.Holds.nil _ _⟩
  | append_singleton observations input ih =>
    rw [List.map_append, List.pairwise_append, List.map_singleton] at h
    have hlog : ∀ e ∈ observations, e.2 ≤ input.2 := by
      intro e he
      exact h.2.2 e.2 (List.mem_map_of_mem he) input.2 (List.mem_singleton_self _)
    have hcutoff : config.lastCutoff observations ≤ input.2 - config.windowMs := by
      unfold lastCutoff
      cases hlast : observations.getLast? with
      | none => simp
      | some e =>
        have := hlog e (List.mem_of_getLast? hlast)
        simp only [Option.elim]
        omega
    have hlastCutoff : config.lastCutoff (observations ++ [input])
        = input.2 - config.windowMs := by
      simp [lastCutoff]
    rw [hlastCutoff, memory_append]
    exact holds_sample (ih h.1).1 (ih h.1).2 hlog hcutoff

end TargetConfig

namespace TargetTracker

-- A call of `observe`: the subject, the target and the time.
abbrev Call := String × String × Nat

def step (t : TargetTracker) (call : Call) : TargetTracker :=
  (t.observe call.1 call.2.1 call.2.2).1

def held (t : TargetTracker) (subject : String) : TargetMap :=
  t.windows.value [] subject

def run (config : TargetConfig) (calls : List Call) : TargetTracker :=
  Run.exec step (new config) calls

def observations (calls : List Call) (subject : String) : List (String × Nat) :=
  (calls.filter (·.1 = subject)).map (·.2)

-- No call takes the place of the subject.
def NeverEvicted (config : TargetConfig) (calls : List Call) (subject : String) : Prop :=
  Run.Guarded step (fun t call => subject ∈ t.windows.table → subject ∈ (t.step call).windows.table)
    (new config) calls

-- The distinct targets of the subject in the window, counted from its observations.
def distinct (config : TargetConfig) (calls : List Call) (call : Call) : Nat :=
  (Recent.current (observations (calls ++ [call]) call.1) (call.2.2 - config.windowMs)).card

structure Recounts (config : TargetConfig) (calls : List Call) (call : Call) : Prop where
  held : Recent.MostRecent config.room (observations (calls ++ [call]) call.1)
    (call.2.2 - config.windowMs) ((run config (calls ++ [call])).held call.1)
  answer : ((run config calls).observe call.1 call.2.1 call.2.2).2.map (·.toNat)
    = if config.threshold.toNat < min (distinct config calls call) config.room then
        some (min (distinct config calls call) config.room)
      else
        none

variable {config : TargetConfig} {calls : List Call}

theorem run_eq (config : TargetConfig) (calls : List Call)
    : run config calls
        = ⟨config, Run.exec (Lru.step config.maxSubjects [] config.sample) .empty calls⟩ := by
  unfold run
  induction calls using List.reverseRecOn with
  | nil => rfl
  | append_singleton calls call ih =>
    rw [Run.exec_append, Run.exec_append, ih]
    rfl

theorem forall_length_le (config : TargetConfig) (calls : List Call)
    : (run config calls).windows.Forall (·.length ≤ config.room) := by
  have hvalues : Lru.Forall (fun entry => TargetMap.Sorted entry ∧ entry.length ≤ config.room)
      (Run.exec (Lru.step config.maxSubjects [] config.sample) .empty calls) := by
    apply Lru.forall_run
    . exact ⟨List.Pairwise.nil, Nat.zero_le _⟩
    . intro input entry
      exact TargetConfig.sample_le_room input
  rw [run_eq]
  intro e he
  exact (hvalues e he).2

theorem keeps_iff {subject : String}
    : NeverEvicted config calls subject ↔ Lru.Keeps config.maxSubjects [] config.sample calls subject := by
  have hrun (pre : List Call) : Run.exec step (new config) pre
      = ⟨config, Run.exec (Lru.step config.maxSubjects [] config.sample) .empty pre⟩ := run_eq config pre
  unfold NeverEvicted Lru.Keeps Run.Guarded
  simp only [hrun]
  rfl

theorem held_run {subject : String} (h : NeverEvicted config calls subject)
    : (run config calls).held subject = config.memory (observations calls subject) := by
  have hvalue := Lru.value_run_of_keeps (keeps_iff.mp h)
  rw [run_eq]
  unfold held TargetConfig.memory observations
  rw [hvalue, List.foldl_map]
  rfl

theorem run_append (config : TargetConfig) (calls : List Call) (call : Call)
    : run config (calls ++ [call]) = (run config calls).step call := by
  unfold run
  rw [Run.exec_append, Run.exec_cons, Run.exec_nil]

theorem mostRecent_run {call : Call} (hsorted : ((calls ++ [call]).map (·.2.2)).Pairwise (· ≤ ·))
    (hkept : NeverEvicted config (calls ++ [call]) call.1)
    : Recent.MostRecent config.room (observations (calls ++ [call]) call.1)
        (call.2.2 - config.windowMs) ((run config (calls ++ [call])).held call.1) := by
  have hown : ((observations (calls ++ [call]) call.1).map (·.2)).Pairwise (· ≤ ·) := by
    unfold observations
    rw [List.map_map]
    exact hsorted.sublist (List.filter_sublist.map _)
  have hlast : config.lastCutoff (observations (calls ++ [call]) call.1) = call.2.2 - config.windowMs := by
    simp [TargetConfig.lastCutoff, observations]
  have h : Recent.Holds config.room (observations (calls ++ [call]) call.1)
      (config.lastCutoff (observations (calls ++ [call]) call.1))
      (config.memory (observations (calls ++ [call]) call.1)) := (TargetConfig.holds_memory hown).2
  rw [hlast] at h
  rw [held_run hkept]
  exact h.mostRecent

theorem answer_run {call : Call} (hsorted : ((calls ++ [call]).map (·.2.2)).Pairwise (· ≤ ·))
    (hkept : NeverEvicted config (calls ++ [call]) call.1)
    : ((run config calls).observe call.1 call.2.1 call.2.2).2
        = exceeding config.threshold (min (distinct config calls call) config.room) := by
  have hlength := (mostRecent_run hsorted hkept).length_eq
  rw [run_append] at hlength
  unfold distinct
  rw [← hlength]
  rw [run_eq]
  rfl

-- The count is a machine word.
theorem exceeding_exact_iff (threshold : UInt32) (number : Nat)
    : ((exceeding threshold number).map (·.toNat) = if threshold.toNat < number then some number else none)
        ↔ number < 2 ^ 32 := by
  have hcount : (UInt32.ofNat number).toNat = number % 2 ^ 32 := UInt32.toNat_ofNat'
  have hthreshold : threshold.toNat < 2 ^ 32 := threshold.toNat_lt
  unfold exceeding
  simp only [UInt32.lt_iff_toNat_lt, hcount]
  constructor
  . intro h
    by_contra hlarge
    have hexceeds : threshold.toNat < number := by omega
    rw [if_pos hexceeds] at h
    split at h
    . rw [Option.map_some, hcount, Option.some.injEq] at h
      omega
    . contradiction
  . intro h
    rw [Nat.mod_eq_of_lt h]
    split
    . rw [Option.map_some, hcount, Nat.mod_eq_of_lt h]
    . rfl

/--
At every call for a subject that was not evicted, when times do not decrease, the tracker holds the
most recent targets of the window and answers with their number, if and only if it fits a machine word.
-/
theorem recounts_iff (config : TargetConfig) (calls : List Call) (call : Call)
    (hsorted : ((calls ++ [call]).map (·.2.2)).Pairwise (· ≤ ·))
    (hkept : NeverEvicted config (calls ++ [call]) call.1)
    : Recounts config calls call ↔ min (distinct config calls call) config.room < 2 ^ 32 := by
  rw [← exceeding_exact_iff config.threshold, ← answer_run hsorted hkept]
  constructor
  . exact Recounts.answer
  . intro hanswer
    exact ⟨mostRecent_run hsorted hkept, hanswer⟩

section Instances

theorem neverEvicted_of_forall {subject : String} (h : ∀ call ∈ calls, call.1 = subject)
    : NeverEvicted config calls subject :=
  keeps_iff.mpr (Lru.keeps_of_forall h)

def returning : List Call := [("actor", "b1", 100), ("actor", "b2", 200), ("actor", "b3", 200)]

theorem recounts_iff_returning
    : Recounts { maxTargetsPerSubject := 2 } returning ("actor", "b1", 300)
        ↔ min (distinct { maxTargetsPerSubject := 2 } returning ("actor", "b1", 300))
          (TargetConfig.room { maxTargetsPerSubject := 2 }) < 2 ^ 32 :=
  recounts_iff { maxTargetsPerSubject := 2 } returning ("actor", "b1", 300) (by decide)
    (neverEvicted_of_forall (by decide))

-- Targets with numbers for names, all at one time.
def fanout (n : Nat) : List Call :=
  (List.range n).map fun i => ("actor", String.ofList (Hex.hex16 i), 0)

def fanoutCall (n : Nat) : Call := ("actor", String.ofList (Hex.hex16 n), 0)

theorem fanout_succ (n : Nat) : fanout n ++ [fanoutCall n] = fanout (n + 1) := by
  unfold fanout
  rw [List.range_succ, List.map_append]
  rfl

theorem observations_fanout (n : Nat) : observations (fanout n) "actor" = (fanout n).map (·.2) := by
  unfold observations
  rw [List.filter_eq_self.mpr]
  simp [fanout]

theorem distinct_fanout (config : TargetConfig) (n : Nat)
    : distinct config (fanout n) (fanoutCall n) = n + 1 := by
  have hkeys : (observations (fanout (n + 1)) "actor").map (·.1)
      = (List.range (n + 1)).map fun i => String.ofList (Hex.hex16 i) := by
    rw [observations_fanout, fanout, List.map_map, List.map_map]
    rfl
  have hnodup : ((List.range (n + 1)).map fun i => String.ofList (Hex.hex16 i)).Nodup := by
    apply List.nodup_range.map
    intro i j hij
    have hread := congrArg Hex.fromStrRadix16 (String.ofList_injective hij)
    rwa [Hex.fromStrRadix16_hex16, Hex.fromStrRadix16_hex16, Option.some_inj] at hread
  have hzero : (fanoutCall n).2.2 - config.windowMs = 0 := Nat.zero_sub _
  unfold distinct
  rw [fanout_succ, hzero, Recent.current_zero]
  unfold fanoutCall
  rw [hkeys, List.toFinset_card_of_nodup hnodup, List.length_map, List.length_range]

def roomy : TargetConfig where
  maxTargetsPerSubject := 2 ^ 32

theorem fanout_unanswered
    : ¬∀ (config : TargetConfig) (calls : List Call) (call : Call),
        ((calls ++ [call]).map (·.2.2)).Pairwise (· ≤ ·) → NeverEvicted config (calls ++ [call]) call.1 →
        Recounts config calls call := by
  intro hclaim
  have hfits (n : Nat) : min (n + 1) roomy.room < 2 ^ 32 := by
    have hsorted : ((fanout n ++ [fanoutCall n]).map (·.2.2)).Pairwise (· ≤ ·) := by
      have htimes : (fanout (n + 1)).map (·.2.2) = List.replicate (n + 1) 0 := by
        simp [fanout, Function.comp_def]
      rw [fanout_succ, htimes]
      exact List.pairwise_replicate.mpr (Or.inr le_rfl)
    have hkept : NeverEvicted roomy (fanout n ++ [fanoutCall n]) (fanoutCall n).1 := by
      apply neverEvicted_of_forall
      rw [fanout_succ]
      simp [fanout, fanoutCall]
    have hanswer := (hclaim roomy _ _ hsorted hkept).answer
    rw [answer_run hsorted hkept, exceeding_exact_iff, distinct_fanout] at hanswer
    exact hanswer
  have hfull := hfits (2 ^ 32 - 1)
  simp only [TargetConfig.room, roomy] at hfull
  omega

end Instances

end TargetTracker

end Athar
