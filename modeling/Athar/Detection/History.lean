import Athar.Detection.Impl.SignalEngine

/-!
This module contains what the memory of the signal engine amounts to. As long as no tracker has to evict
a subject, the signals of an event depend on the events before it alone, and of those only on the ones
that share its resource key or its subject.
-/

namespace Athar

-- The events that the engine was given, with the time at which it evaluated each.
abbrev History := List (Event × Nat)

namespace SignalEngineConfig

variable {f : Floats} (config : SignalEngineConfig f)

def knownKeys (history : History) : List String :=
  history.filterMap fun i => (i.1.resource.bind (·.id)).map i.1.knownKey

-- The samples that each tracker takes, with their subjects.
def velocitySamples (history : History) : List (String × Nat) :=
  history.map fun i => (i.1.subject, i.2)

def failureSamples (history : History) : List (String × Nat) :=
  velocitySamples (history.filter (config.credentialStuffing.qualifies ·.1))

def targetSamples (history : History) : List (String × String × Nat) :=
  history.filterMap fun i => (i.1.beneficiary.bind (·.id)).map fun target => (i.1.subject, target, i.2)

-- How many samples of its subject are in the window of each tracker after an event.
def velocityCount (history : History) (input : Event × Nat) : Nat :=
  (Lru.valueOf [] config.velocity.sample (velocitySamples (history ++ [input]))
    input.1.subject).length

def failureCount (history : History) (input : Event × Nat) : Nat :=
  (Lru.valueOf [] config.credentialStuffing.asVelocity.sample
    (config.failureSamples (history ++ [input])) input.1.subject).length

def targetCount (history : History) (input : Event × Nat) : Nat :=
  (Lru.valueOf [] config.targets.sample (targetSamples (history ++ [input])) input.1.subject).length

def newBeneficiary (history : History) (event : Event) : Option Signal :=
  (event.resource.bind (·.id)).bind fun rid =>
    if event.knownKey rid ∈ knownKeys history then none else some (newBeneficiarySignal rid)

def highVelocity (history : History) (input : Event × Nat) : Option Signal :=
  (exceeding config.velocity.threshold (config.velocityCount history input)).map
    (config.highVelocitySignal input.1)

def credentialStuffingPattern (history : History) (input : Event × Nat) : Option Signal :=
  if config.credentialStuffing.qualifies input.1 then
    (exceeding config.credentialStuffing.threshold (config.failureCount history input)).map
      (config.credentialStuffingSignal input.1)
  else
    none

def distinctTargets (history : History) (input : Event × Nat) : Option Signal :=
  (input.1.beneficiary.bind (·.id)).bind fun _ =>
    (exceeding config.targets.threshold (config.targetCount history input)).map
      (config.distinctTargetsSignal input.1)

-- The signals of an event after a history.
def report (history : History) (input : Event × Nat) : List Signal :=
  (newBeneficiary history input.1).toList ++ (config.highAmountSignal input.1).toList
    ++ (config.highVelocity history input).toList
    ++ (config.credentialStuffingPattern history input).toList
    ++ (config.distinctTargets history input).toList

-- There are fewer subjects than each tracker has places for.
structure Fits (history : History) : Prop where
  velocity : (history.map (·.1.subject)).toFinset.card < config.velocity.maxSubjects
  targets : (history.map (·.1.subject)).toFinset.card < config.targets.maxSubjects
  credentialStuffing
    : (history.map (·.1.subject)).toFinset.card < config.credentialStuffing.maxSubjects

variable {config}

theorem Fits.sublist {history shorter : History} (h : config.Fits history)
    (hsub : shorter.Sublist history) : config.Fits shorter := by
  have hle : (shorter.map (·.1.subject)).toFinset.card ≤ (history.map (·.1.subject)).toFinset.card := by
    apply Finset.card_le_card
    intro s hs
    rw [List.mem_toFinset] at hs ⊢
    exact (hsub.map _).subset hs
  exact ⟨hle.trans_lt h.velocity, hle.trans_lt h.targets, hle.trans_lt h.credentialStuffing⟩

theorem velocitySamples_subjects (history : History)
    : (velocitySamples history).map (·.1) = history.map (·.1.subject) := by
  simp [velocitySamples]

theorem targetSamples_subjects (history : History)
    : (targetSamples history).map (·.1) ⊆ history.map (·.1.subject) := by
  intro s hs
  rcases List.mem_map.mp hs with ⟨sample, hsample, rfl⟩
  rcases List.mem_filterMap.mp hsample with ⟨i, hi, hsome⟩
  rcases Option.map_eq_some_iff.mp hsome with ⟨target, _, rfl⟩
  exact List.mem_map_of_mem hi

theorem card_le_of_subset {samples history : List String} (h : samples ⊆ history)
    : samples.toFinset.card ≤ history.toFinset.card := by
  apply Finset.card_le_card
  intro s hs
  rw [List.mem_toFinset] at hs ⊢
  exact h hs

end SignalEngineConfig

theorem VelocityTracker.observe_eq {config : VelocityConfig} {samples : List (String × Nat)}
    {subject : String} {nowMs : Nat}
    (hroom : ((samples ++ [(subject, nowMs)]).map (·.1)).toFinset.card ≤ config.maxSubjects)
    : VelocityTracker.observe
          ⟨config, Run.exec (Lru.step config.maxSubjects [] config.sample) .empty samples⟩ subject nowMs
        = (⟨config, Run.exec (Lru.step config.maxSubjects [] config.sample) .empty
            (samples ++ [(subject, nowMs)])⟩,
          exceeding config.threshold
            (Lru.valueOf [] config.sample (samples ++ [(subject, nowMs)]) subject).length) := by
  rw [← Lru.value_run hroom, Run.exec_append, Run.exec_cons, Run.exec_nil]
  rfl

theorem TargetTracker.observe_eq {config : TargetConfig} {samples : List (String × String × Nat)}
    {subject target : String} {nowMs : Nat}
    (hroom : ((samples ++ [(subject, target, nowMs)]).map (·.1)).toFinset.card ≤ config.maxSubjects)
    : TargetTracker.observe
          ⟨config, Run.exec (Lru.step config.maxSubjects [] config.sample) .empty samples⟩ subject target
          nowMs
        = (⟨config, Run.exec (Lru.step config.maxSubjects [] config.sample) .empty
            (samples ++ [(subject, target, nowMs)])⟩,
          exceeding config.threshold
            (Lru.valueOf [] config.sample (samples ++ [(subject, target, nowMs)]) subject).length) := by
  rw [← Lru.value_run hroom, Run.exec_append, Run.exec_cons, Run.exec_nil]
  rfl

namespace SignalEngine

open SignalEngineConfig

variable {f : Floats} {config : SignalEngineConfig f}

def step (engine : SignalEngine f) (input : Event × Nat) : SignalEngine f × List Signal :=
  engine.evaluate input.1 input.2

-- The trackers after a history.
def velocityAfter (config : SignalEngineConfig f) (history : History) : VelocityTracker where
  config := config.velocity
  windows := Run.exec (Lru.step config.velocity.maxSubjects [] config.velocity.sample) .empty
    (velocitySamples history)

def targetsAfter (config : SignalEngineConfig f) (history : History) : TargetTracker where
  config := config.targets
  windows := Run.exec (Lru.step config.targets.maxSubjects [] config.targets.sample) .empty
    (targetSamples history)

def credstuffAfter (config : SignalEngineConfig f) (history : History) : VelocityTracker where
  config := config.credentialStuffing.asVelocity
  windows := Run.exec (Lru.step config.credentialStuffing.asVelocity.maxSubjects []
    config.credentialStuffing.asVelocity.sample) .empty (config.failureSamples history)

-- The engine after a history.
structure Remembers (config : SignalEngineConfig f) (history : History) (engine : SignalEngine f)
    : Prop where
  config_eq : engine.config = config
  known : ∀ key, key ∈ engine.known ↔ key ∈ knownKeys history
  velocity : engine.velocity = velocityAfter config history
  targets : engine.targets = targetsAfter config history
  credstuff : engine.credstuff = credstuffAfter config history

theorem Remembers.new (config : SignalEngineConfig f) : Remembers config [] (new config) := by
  constructor
  . rfl
  . intro key
    rfl
  . rfl
  . rfl
  . rfl

variable {history : History} (engine : SignalEngine f) (input : Event × Nat)

theorem observeResource_eq (hknown : ∀ key, key ∈ engine.known ↔ key ∈ knownKeys history)
    : ∃ known, engine.observeResource input.1
          = ({ engine with known }, newBeneficiary history input.1)
        ∧ ∀ key, key ∈ known ↔ key ∈ knownKeys (history ++ [input]) := by
  have happend : ∀ key, key ∈ knownKeys (history ++ [input])
      ↔ key ∈ knownKeys history ∨ (input.1.resource.bind (·.id)).map input.1.knownKey = some key := by
    intro key
    simp [knownKeys]
  unfold observeResource newBeneficiary
  cases hid : input.1.resource.bind (·.id) with
  | none =>
    refine ⟨engine.known, rfl, ?_⟩
    intro key
    rw [happend, hid, hknown]
    simp
  | some rid =>
    dsimp only [Option.bind_some]
    by_cases hmem : input.1.knownKey rid ∈ engine.known
    . rw [if_pos hmem, if_pos ((hknown _).mp hmem)]
      refine ⟨engine.known, rfl, ?_⟩
      intro key
      rw [happend, hid, Option.map_some, Option.some.injEq, ← hknown]
      constructor
      . exact Or.inl
      . rintro (hold | rfl)
        . exact hold
        . exact hmem
    . rw [if_neg hmem, if_neg (fun h => hmem ((hknown _).mpr h))]
      refine ⟨_, rfl, ?_⟩
      intro key
      rw [happend, hid, Option.map_some, Option.some.injEq, List.mem_cons, hknown, eq_comm, or_comm]

theorem observeVelocity_eq (hconfig : engine.config = config)
    (hvelocity : engine.velocity = velocityAfter config history)
    (hfits : config.Fits (history ++ [input]))
    : engine.observeVelocity input.1 input.2
        = ({ engine with velocity := velocityAfter config (history ++ [input]) },
          config.highVelocity history input) := by
  have happend : velocitySamples (history ++ [input])
      = velocitySamples history ++ [(input.1.subject, input.2)] := by
    simp [velocitySamples]
  have hroom : ((velocitySamples history ++ [(input.1.subject, input.2)]).map (·.1)).toFinset.card
      ≤ config.velocity.maxSubjects := by
    rw [← happend, velocitySamples_subjects]
    exact hfits.velocity.le
  unfold observeVelocity highVelocity velocityCount
  rw [hvelocity, velocityAfter, VelocityTracker.observe_eq hroom, velocityAfter, happend, hconfig]

theorem observeFailure_eq (hconfig : engine.config = config)
    (hcredstuff : engine.credstuff = credstuffAfter config history)
    (hfits : config.Fits (history ++ [input]))
    : engine.observeFailure input.1 input.2
        = ({ engine with credstuff := credstuffAfter config (history ++ [input]) },
          config.credentialStuffingPattern history input) := by
  subst hconfig
  unfold observeFailure credentialStuffingPattern failureCount
  by_cases hqualifies : engine.config.credentialStuffing.qualifies input.1 = true
  . have happend : engine.config.failureSamples (history ++ [input])
        = engine.config.failureSamples history ++ [(input.1.subject, input.2)] := by
      simp [failureSamples, velocitySamples, hqualifies]
    have hroom : ((engine.config.failureSamples history ++ [(input.1.subject, input.2)]).map
        (·.1)).toFinset.card ≤ engine.config.credentialStuffing.asVelocity.maxSubjects := by
      rw [← happend, failureSamples, velocitySamples_subjects]
      exact (hfits.sublist List.filter_sublist).credentialStuffing.le
    rw [if_pos hqualifies, if_pos hqualifies, hcredstuff, credstuffAfter]
    have hobserve := VelocityTracker.observe_eq hroom
    rw [← happend] at hobserve
    rw [hobserve, credstuffAfter]
    rfl
  . have happend : engine.config.failureSamples (history ++ [input])
        = engine.config.failureSamples history := by
      simp [failureSamples, hqualifies]
    rw [if_neg hqualifies, if_neg hqualifies, credstuffAfter, happend, ← credstuffAfter, ← hcredstuff]

theorem observeTarget_eq (hconfig : engine.config = config)
    (htargets : engine.targets = targetsAfter config history)
    (hfits : config.Fits (history ++ [input]))
    : engine.observeTarget input.1 input.2
        = ({ engine with targets := targetsAfter config (history ++ [input]) },
          config.distinctTargets history input) := by
  unfold observeTarget distinctTargets targetCount
  cases hid : input.1.beneficiary.bind (·.id) with
  | none =>
    have happend : targetSamples (history ++ [input]) = targetSamples history := by
      simp only [targetSamples, List.filterMap_append, List.filterMap_cons, hid, Option.map_none,
        List.filterMap_nil, List.append_nil]
    rw [targetsAfter, happend, ← targetsAfter, ← htargets]
    rfl
  | some target =>
    have happend : targetSamples (history ++ [input])
        = targetSamples history ++ [(input.1.subject, target, input.2)] := by
      simp only [targetSamples, List.filterMap_append, List.filterMap_cons, hid, Option.map_some,
        List.filterMap_nil]
    have hroom : ((targetSamples history ++ [(input.1.subject, target, input.2)]).map
        (·.1)).toFinset.card ≤ config.targets.maxSubjects := by
      rw [← happend]
      exact (card_le_of_subset (targetSamples_subjects _)).trans hfits.targets.le
    dsimp only [Option.bind_some]
    rw [htargets, targetsAfter, TargetTracker.observe_eq hroom, targetsAfter, happend, hconfig]

variable {engine input}

-- One event: the engine reports what the history says, and remembers it.
theorem Remembers.step (h : Remembers config history engine)
    (hfits : config.Fits (history ++ [input]))
    : Remembers config (history ++ [input]) (engine.step input).1
        ∧ (engine.step input).2 = config.report history input := by
  rcases observeResource_eq engine input h.known with ⟨known, hresource, hknown⟩
  have hvelocity := observeVelocity_eq { engine with known } input h.config_eq h.velocity hfits
  have hfailure := observeFailure_eq
    { engine with known, velocity := velocityAfter config (history ++ [input]) } input
    h.config_eq h.credstuff hfits
  have htarget := observeTarget_eq
    { engine with
      known
      velocity := velocityAfter config (history ++ [input])
      credstuff := credstuffAfter config (history ++ [input]) } input
    h.config_eq h.targets hfits
  have hstep : engine.step input
      = ({ engine with
            known
            velocity := velocityAfter config (history ++ [input])
            credstuff := credstuffAfter config (history ++ [input])
            targets := targetsAfter config (history ++ [input]) },
          config.report history input) := by
    unfold SignalEngine.step evaluate
    rw [hresource]
    dsimp only
    rw [hvelocity]
    dsimp only
    rw [hfailure]
    dsimp only
    rw [htarget, h.config_eq]
    rfl
  rw [hstep]
  exact ⟨⟨h.config_eq, hknown, rfl, rfl, rfl⟩, rfl⟩

end SignalEngine

end Athar
