import Athar.Detection.Impl.Decision
import Athar.Lifecycle.Instance

/-!
This module contains how a decision reflects the rule that made it: the first enabled rule whose
signals are present. Its mode arrives in the record of the decision; its fail mode gets lost on the way,
because the decision of the policy engine has no place for it.
-/

namespace Athar

-- A rule of the configuration with the policy it belongs to and the signals that it waits for.
structure PolicyTrigger where
  policyId : String
  reasonCode : String
  rule : PolicyRule
  kinds : List SignalKind
  deriving DecidableEq, Repr

def PolicyTrigger.Fires (t : PolicyTrigger) (signals : List Signal) : Prop :=
  t.rule.enabled = true ∧ ∀ kind ∈ t.kinds, ∃ s ∈ signals, s.kind = kind

instance (t : PolicyTrigger) (signals : List Signal) : Decidable (t.Fires signals) :=
  inferInstanceAs (Decidable (_ ∧ _))

namespace PolicyConfig

variable (config : PolicyConfig)

def triggers : List PolicyTrigger :=
  [⟨"pol_new_beneficiary_high_amount", "TARGET_NEW_BENEFICIARY_HIGH_AMOUNT",
      config.highAmountNewBeneficiary, [.newBeneficiary, .highAmount]⟩,
    ⟨"pol_high_velocity", "VELOCITY_HIGH_RATE", config.highVelocity, [.highVelocity]⟩,
    ⟨"pol_distinct_targets", "TARGET_DISTINCT_FANOUT", config.distinctTargets, [.distinctTargets]⟩,
    ⟨"pol_credential_stuffing", "AUTH_CREDENTIAL_STUFFING", config.credentialStuffing,
      [.credentialStuffingPattern]⟩]

-- The first rule that is enabled and finds its signals.
def deciding (signals : List Signal) : Option PolicyTrigger :=
  config.triggers.find? (·.Fires signals)

end PolicyConfig

def SameKinds (signals signals' : List Signal) : Prop :=
  ∀ kind, (∃ s ∈ signals, s.kind = kind) ↔ ∃ s ∈ signals', s.kind = kind

namespace PolicyEngine

theorem has_iff (signals : List Signal) (kind : SignalKind)
    : has signals kind = true ↔ ∃ s ∈ signals, s.kind = kind := by
  simp [has]

theorem find?_trigger (t : PolicyTrigger) (ts : List PolicyTrigger) (signals : List Signal)
    : ((t :: ts).find? (·.Fires signals)).elim noPolicyMatched
          (fun t => challengeBy t.policyId t.rule t.reasonCode)
        = if t.Fires signals then challengeBy t.policyId t.rule t.reasonCode
          else (ts.find? (·.Fires signals)).elim noPolicyMatched
            (fun t => challengeBy t.policyId t.rule t.reasonCode) := by
  by_cases h : t.Fires signals
  . rw [List.find?_cons_of_pos (by simpa using h), if_pos h]
    rfl
  . rw [List.find?_cons_of_neg (by simpa using h), if_neg h]

theorem evaluate_eq_deciding (config : PolicyConfig) (signals : List Signal)
    : evaluate config signals
        = (config.deciding signals).elim noPolicyMatched
          (fun t => challengeBy t.policyId t.rule t.reasonCode) := by
  unfold evaluate PolicyConfig.deciding PolicyConfig.triggers
  -- The source goes through the rules in the order of the list.
  iterate 4 rw [find?_trigger]
  simp only [PolicyTrigger.Fires, List.forall_mem_cons, List.not_mem_nil, false_imp_iff, implies_true,
    and_true, ← has_iff, Bool.and_eq_true, and_assoc]
  rfl

theorem deciding_congr {config : PolicyConfig} {signals signals' : List Signal}
    (h : SameKinds signals signals') : config.deciding signals = config.deciding signals' := by
  have hfires (t : PolicyTrigger) : t.Fires signals ↔ t.Fires signals' := by
    unfold PolicyTrigger.Fires
    simp only [h _]
  unfold PolicyConfig.deciding
  simp only [hfires]

end PolicyEngine

open PolicyEngine

-- What the record of a decision says about the rule that made it.
structure Reflects (config : PolicyConfig) (signals : List Signal) (record : DecisionRecord) : Prop where
  evaluated : record.policiesEvaluated = [evaluate config signals]
  kindsOnly : ∀ signals', SameKinds signals signals' →
    evaluate config signals' = evaluate config signals
  matched : ∀ t, config.deciding signals = some t →
    (evaluate config signals).matched = true ∧ (evaluate config signals).policyId = t.policyId
      ∧ record.mode = t.rule.mode ∧ record.failMode = t.rule.failMode
  unmatched : config.deciding signals = none →
    (evaluate config signals).matched = false
      ∧ record.mode = .observe ∧ record.failMode = .open ∧ record.action = .allow

variable (fixed2 : ℚ → String)

/--
The decision of the ingest reflects the rule that made it if and only if that rule is configured to
fail open.
-/
theorem reflects_iff_failsOpen (config : PolicyConfig) (event : Event) (lifecycleId : Option String)
    (signals : List Signal) (io : DetectionIo)
    : Reflects config signals (decisionOf fixed2 config event lifecycleId signals io)
        ↔ ∀ t, config.deciding signals = some t → t.rule.failMode = .open := by
  constructor
  . intro h t ht
    exact (h.matched t ht).2.2.2.symm
  . intro hopen
    have hevaluate := evaluate_eq_deciding config signals
    constructor
    . rfl
    . intro signals' hsame
      rw [evaluate_eq_deciding, hevaluate, deciding_congr hsame]
    . intro t ht
      rw [ht] at hevaluate
      unfold decisionOf DecisionRecord.build
      rw [hevaluate]
      exact ⟨rfl, rfl, rfl, (hopen t ht).symm⟩
    . intro hnone
      rw [hnone] at hevaluate
      unfold decisionOf DecisionRecord.build
      rw [hevaluate]
      exact ⟨rfl, rfl, rfl, rfl⟩

section Instances

-- A rule that is enforced, and closed when in doubt.
def closedVelocity : PolicyConfig where
  highVelocity := { mode := .enforce, failMode := .closed }

def highRate : Signal := ⟨.highVelocity, 90 / 100, "subject=7 count=11 window_ms=60000", some ">10"⟩

def someDetection : DetectionIo := ⟨0, 0, 0, .l0Normal, fun _ => "01", "02"⟩

theorem closedVelocity_recordedOpen
    : ¬∀ (fixed2 : ℚ → String) (config : PolicyConfig) (event : Event) (lifecycleId : Option String)
        (signals : List Signal) (io : DetectionIo),
        Reflects config signals (decisionOf fixed2 config event lifecycleId signals io) := by
  intro hclaim
  have h := hclaim (fun _ => "0.90") closedVelocity creation none [highRate] someDetection
  have hclosed := (h.matched _ rfl).2.2.2
  contradiction

end Instances

end Athar
