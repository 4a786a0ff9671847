import Athar.Detection.Targets
import Athar.Detection.TenantIsolation
import Athar.Detection.Velocity

/-!
This module contains the signals as a recount of the history finds them, which goes through all events
again and keeps nothing in between. As long as the clock is not set back, the windows of the engine
come to the same.
-/

namespace Athar

theorem VelocityConfig.foldl_sample (config : VelocityConfig) {samples : List Nat} {nowMs : Nat}
    (h : (samples ++ [nowMs]).Pairwise (· ≤ ·))
    : (samples ++ [nowMs]).foldl (fun window sample => config.sample sample window) []
        = (samples ++ [nowMs]).filter (nowMs - config.windowMs ≤ ·) := by
  induction samples using List.reverseRecOn generalizing nowMs with
  | nil => simp [sample]
  | append_singleton samples previous ih =>
    have hsplit := List.pairwise_append.mp h
    have hprevious : previous ≤ nowMs := hsplit.2.2 previous (by simp) nowMs (by simp)
    have hwindow : ((samples ++ [previous]).filter (previous - config.windowMs ≤ ·)).Pairwise
        fun x y => config.stale nowMs y = true → config.stale nowMs x = true := by
      apply (hsplit.1.filter _).imp
      intro x y hle hstale
      unfold stale at hstale ⊢
      rw [decide_eq_true_iff] at hstale ⊢
      omega
    have hdrop := Recent.dropWhile_eq_filter (config.stale nowMs) hwindow
    rw [List.foldl_append, ih hsplit.1]
    unfold stale at hdrop
    simp only [List.foldl_cons, List.foldl_nil, sample]
    rw [hdrop, List.filter_filter, List.filter_append _ [nowMs]]
    congr 1
    . apply List.filter_congr
      intro x _
      rw [Bool.eq_iff_iff]
      simp
      omega
    . simp

-- The number, if it exceeds the threshold.
def above (threshold : UInt32) (number : Nat) : Option UInt32 :=
  if threshold.toNat < number then some (.ofNat number) else none

theorem exceeding_eq_above {threshold : UInt32} {number : Nat} (h : number < 2 ^ 32)
    : exceeding threshold number = above threshold number := by
  have hcount : (UInt32.ofNat number).toNat = number := by
    rw [UInt32.toNat_ofNat', Nat.mod_eq_of_lt h]
  unfold exceeding above
  simp only [UInt32.lt_iff_toNat_lt, hcount]

namespace SignalEngineConfig

variable {f : Floats} (config : SignalEngineConfig f)

-- The events of the subject of an event in the window that ends with it.
def recent (windowMs : Nat) (history : History) (input : Event × Nat) : History :=
  (history ++ [input]).filter fun i =>
    i.1.subject = input.1.subject ∧ input.2 - windowMs ≤ i.2

def velocityRecount (history : History) (input : Event × Nat) : Nat :=
  (recent config.velocity.windowMs history input).length

def failureRecount (history : History) (input : Event × Nat) : Nat :=
  (recent config.credentialStuffing.windowMs history input).countP
    (config.credentialStuffing.qualifies ·.1)

-- No more of the targets count than there is room for.
def targetRecount (history : History) (input : Event × Nat) : Nat :=
  min ((recent config.targets.windowMs history input).filterMap
    (·.1.beneficiary.bind (·.id))).toFinset.card config.targets.room

def recount (history : History) (input : Event × Nat) : List Signal :=
  (newBeneficiary history input.1).toList ++ (config.highAmountSignal input.1).toList
    ++ ((above config.velocity.threshold (config.velocityRecount history input)).map
      (config.highVelocitySignal input.1)).toList
    ++ (if config.credentialStuffing.qualifies input.1 then
        (above config.credentialStuffing.threshold (config.failureRecount history input)).map
          (config.credentialStuffingSignal input.1)
      else
        none).toList
    ++ ((input.1.beneficiary.bind (·.id)).bind fun _ =>
      (above config.targets.threshold (config.targetRecount history input)).map
        (config.distinctTargetsSignal input.1)).toList

variable {config} {history : History} {input : Event × Nat}

theorem length_recent_le (windowMs : Nat)
    : (recent windowMs history input).length ≤ history.length + 1 := by
  unfold recent
  apply (List.length_filter_le _ _).trans
  simp

theorem filter_subject_self (history : History) (input : Event × Nat)
    : (history ++ [input]).filter (·.1.subject = input.1.subject)
        = history.filter (·.1.subject = input.1.subject) ++ [input] := by
  simp

theorem recent_eq (windowMs : Nat)
    : recent windowMs history input
        = (history.filter (·.1.subject = input.1.subject) ++ [input]).filter
          (input.2 - windowMs ≤ ·.2) := by
  rw [← filter_subject_self, List.filter_filter]
  apply List.filter_congr
  intro i _
  rw [Bool.decide_and, Bool.and_comm]

-- The times at which one subject was seen, when the samples of a history are taken.
theorem valueOf_velocitySamples (velocity : VelocityConfig)
    (hsorted : ((history ++ [input]).map (·.2)).Pairwise (· ≤ ·))
    : (Lru.valueOf [] velocity.sample (velocitySamples (history ++ [input])) input.1.subject).length
        = (recent velocity.windowMs history input).length := by
  have htimes := hsorted.sublist
    ((List.filter_sublist (p := fun i : Event × Nat => i.1.subject = input.1.subject)).map Prod.snd)
  rw [filter_subject_self, List.map_append, List.map_singleton] at htimes
  have hmemory : Lru.valueOf [] velocity.sample (velocitySamples (history ++ [input])) input.1.subject
      = ((history.filter (·.1.subject = input.1.subject)).map Prod.snd ++ [input.2]).foldl
        (fun window sample => velocity.sample sample window) [] := by
    unfold Lru.valueOf
    rw [velocitySamples_filter, filter_subject_self, velocitySamples, List.map_append,
      List.map_singleton, List.foldl_append, List.foldl_append, List.foldl_map, List.foldl_map]
    rfl
  rw [hmemory, velocity.foldl_sample htimes, recent_eq]
  rw [← List.map_singleton (f := Prod.snd), ← List.map_append, List.filter_map, List.length_map]
  rfl

theorem velocityCount_eq (hsorted : ((history ++ [input]).map (·.2)).Pairwise (· ≤ ·))
    : config.velocityCount history input = config.velocityRecount history input :=
  valueOf_velocitySamples config.velocity hsorted

theorem failureCount_eq (hsorted : ((history ++ [input]).map (·.2)).Pairwise (· ≤ ·))
    (hqualifies : config.credentialStuffing.qualifies input.1 = true)
    : config.failureCount history input = config.failureRecount history input := by
  have happend : (history ++ [input]).filter (config.credentialStuffing.qualifies ·.1)
      = history.filter (config.credentialStuffing.qualifies ·.1) ++ [input] := by
    simp [hqualifies]
  have hfiltered := hsorted.sublist ((List.filter_sublist
    (p := fun i : Event × Nat => config.credentialStuffing.qualifies i.1)).map Prod.snd)
  rw [happend] at hfiltered
  unfold failureCount failureSamples failureRecount
  rw [happend, valueOf_velocitySamples _ hfiltered, List.countP_eq_length_filter]
  unfold recent
  rw [← happend, List.filter_filter, List.filter_filter]
  simp only [Bool.and_comm]
  rfl

-- The targets that a subject turned to.
def observations (history : History) : List (String × Nat) :=
  history.filterMap fun i => (i.1.beneficiary.bind (·.id)).map (·, i.2)

theorem pairwise_observations (h : (history.map (·.2)).Pairwise (· ≤ ·))
    : ((observations history).map (·.2)).Pairwise (· ≤ ·) := by
  unfold observations
  rw [List.pairwise_map, List.pairwise_filterMap]
  rw [List.pairwise_map] at h
  apply h.imp
  intro i j hle e he e' he'
  rcases Option.map_eq_some_iff.mp he with ⟨_, _, rfl⟩
  rcases Option.map_eq_some_iff.mp he' with ⟨_, _, rfl⟩
  exact hle

theorem map_filter_observations (cutoff : Nat)
    : ((observations history).filter (cutoff ≤ ·.2)).map (·.1)
        = (history.filter (cutoff ≤ ·.2)).filterMap (·.1.beneficiary.bind (·.id)) := by
  unfold observations
  rw [List.filter_filterMap, List.map_filterMap, List.filterMap_filter]
  apply List.filterMap_congr
  intro i _
  cases i.1.beneficiary.bind (·.id) with
  | none => simp
  | some target =>
    by_cases hcutoff : cutoff ≤ i.2
    . simp [hcutoff, Option.filter]
    . simp [hcutoff, Option.filter]

theorem valueOf_targetSamples (config : TargetConfig) (history : History) (subject : String)
    : Lru.valueOf [] config.sample (targetSamples history) subject
        = config.memory (observations (history.filter (·.1.subject = subject))) := by
  unfold Lru.valueOf TargetConfig.memory
  have hobservations : observations (history.filter (·.1.subject = subject))
      = (targetSamples (history.filter (·.1.subject = subject))).map (·.2) := by
    unfold observations targetSamples
    rw [List.map_filterMap]
    apply List.filterMap_congr
    intro i _
    cases i.1.beneficiary.bind (·.id) <;> rfl
  rw [targetSamples_filter, hobservations, List.foldl_map]

theorem targetCount_eq (hsorted : ((history ++ [input]).map (·.2)).Pairwise (· ≤ ·)) {target : String}
    (htarget : input.1.beneficiary.bind (·.id) = some target)
    : config.targetCount history input = config.targetRecount history input := by
  have htimes := hsorted.sublist
    ((List.filter_sublist (p := fun i : Event × Nat => i.1.subject = input.1.subject)).map Prod.snd)
  rw [filter_subject_self] at htimes
  have hobservations := pairwise_observations htimes
  have hlast : observations (history.filter (·.1.subject = input.1.subject) ++ [input])
      = observations (history.filter (·.1.subject = input.1.subject)) ++ [(target, input.2)] := by
    unfold observations
    rw [List.filterMap_append, List.filterMap_cons, htarget]
    rfl
  have hcutoff : config.targets.lastCutoff
      (observations (history.filter (·.1.subject = input.1.subject) ++ [input]))
      = input.2 - config.targets.windowMs := by
    rw [hlast, TargetConfig.lastCutoff, List.getLast?_concat]
    rfl
  have hholds : Recent.Holds config.targets.room _ (config.targets.lastCutoff _) (config.targets.memory _) :=
    (TargetConfig.holds_memory hobservations).2
  have hlength := hholds.length_eq
  rw [hcutoff, Recent.current_of_pairwise hobservations, map_filter_observations] at hlength
  unfold targetCount targetRecount
  rw [valueOf_targetSamples, filter_subject_self, hlength, recent_eq]

/--
As long as the clock is not set back and there are fewer than 2³² events, the signals of an event are
those that a recount of the history finds.
-/
theorem report_eq_recount (hsorted : ((history ++ [input]).map (·.2)).Pairwise (· ≤ ·))
    (hfew : history.length + 1 < 2 ^ 32) : config.report history input = config.recount history input := by
  have hvelocity : config.velocityRecount history input < 2 ^ 32 :=
    (length_recent_le config.velocity.windowMs).trans_lt hfew
  have hfailures : config.failureRecount history input < 2 ^ 32 := by
    apply ((List.countP_le_length).trans (length_recent_le _)).trans_lt hfew
  have htargets : config.targetRecount history input < 2 ^ 32 := by
    unfold targetRecount
    apply ((min_le_left _ _).trans ((List.toFinset_card_le _).trans _)).trans_lt hfew
    exact (List.length_filterMap_le _ _).trans (length_recent_le _)
  unfold report recount highVelocity credentialStuffingPattern distinctTargets
  congr 1
  . congr 1
    . rw [velocityCount_eq hsorted, exceeding_eq_above hvelocity]
    . split
      . next hqualifies => rw [failureCount_eq hsorted hqualifies, exceeding_eq_above hfailures]
      . rfl
  . cases htarget : input.1.beneficiary.bind (·.id) with
    | none => rfl
    | some target => rw [targetCount_eq hsorted htarget, exceeding_eq_above htargets]

end SignalEngineConfig

end Athar
