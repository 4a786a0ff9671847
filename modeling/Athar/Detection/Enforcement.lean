import Athar.Detection.Impl
import Athar.Lib.FirstMatch

/-!
This module contains when more signals may turn an enforced decision into one that is not. The
policies are rules of which the first that fires decides, so this is a matter of which modes the
earlier rules are in.
-/

namespace Athar

open PolicyEngine FirstMatch

def PolicyDecision.Enforced (d : PolicyDecision) : Prop :=
  d.matched = true ∧ d.mode = .enforce

instance (d : PolicyDecision) : Decidable d.Enforced :=
  inferInstanceAs (Decidable (_ ∧ _))

def PolicyConfig.inOrder (config : PolicyConfig) : List PolicyRule :=
  [config.highAmountNewBeneficiary, config.highVelocity, config.distinctTargets,
    config.credentialStuffing]

-- No enabled rule in another mode stands before an enabled rule in ENFORCE mode.
def PolicyConfig.EnforcedFirst (config : PolicyConfig) : Prop :=
  (config.inOrder.filter (·.enabled)).Pairwise
    (fun earlier later => later.mode = .enforce → earlier.mode = .enforce)

instance (config : PolicyConfig) : Decidable config.EnforcedFirst :=
  inferInstanceAs (Decidable (List.Pairwise _ _))

-- Every kind of signal in the first list occurs in the second.
def KindsWithin (signals signals' : List Signal) : Prop :=
  ∀ s ∈ signals, ∃ s' ∈ signals', s'.kind = s.kind

namespace PolicyEngine

-- The rules in order, each with the facts that trigger it and its decision.
def candidates (config : PolicyConfig) : List (PolicyRule × Rule SignalKind PolicyDecision) :=
  [(config.highAmountNewBeneficiary, ⟨[.newBeneficiary, .highAmount], ruleA config⟩),
    (config.highVelocity, ⟨[.highVelocity], ruleB config⟩),
    (config.distinctTargets, ⟨[.distinctTargets], ruleC config⟩),
    (config.credentialStuffing, ⟨[.credentialStuffingPattern], ruleD config⟩)]

def rules (config : PolicyConfig) : List (Rule SignalKind PolicyDecision) :=
  ((candidates config).filter (·.1.enabled)).map (·.2)

def kinds (signals : List Signal) : List SignalKind :=
  signals.map (·.kind)

theorem has_eq (signals : List Signal) (kind : SignalKind)
    : has signals kind = decide (kind ∈ kinds signals) := by
  unfold has kinds
  rw [Bool.eq_iff_iff]
  simp

-- The first candidate decides if it is enabled and fires.
theorem evaluate_candidates_cons (c : PolicyRule × Rule SignalKind PolicyDecision)
    (cs : List (PolicyRule × Rule SignalKind PolicyDecision)) (facts : List SignalKind)
    (otherwise : PolicyDecision)
    : (FirstMatch.evaluate (((c :: cs).filter (·.1.enabled)).map (·.2)) facts).getD otherwise
        = if c.1.enabled = true ∧ c.2.Fires facts then c.2.verdict
          else (FirstMatch.evaluate ((cs.filter (·.1.enabled)).map (·.2)) facts).getD otherwise := by
  by_cases henabled : c.1.enabled = true
  . rw [List.filter_cons, if_pos henabled, List.map_cons]
    by_cases hfires : c.2.Fires facts
    . rw [evaluate_cons_of_fires hfires, if_pos ⟨henabled, hfires⟩]
      rfl
    . rw [evaluate_cons_of_not_fires hfires, if_neg fun h => hfires h.2]
  . rw [List.filter_cons, if_neg henabled, if_neg fun h => henabled h.1]

theorem evaluate_eq (config : PolicyConfig) (signals : List Signal)
    : PolicyEngine.evaluate config signals
        = (FirstMatch.evaluate (rules config) (kinds signals)).getD noPolicyMatched := by
  unfold PolicyEngine.evaluate rules candidates
  -- The source goes through the rules in the order of the list.
  iterate 4 rw [evaluate_candidates_cons]
  simp only [Rule.Fires, List.forall_mem_cons, List.not_mem_nil, false_imp_iff, implies_true,
    and_true, has_eq, Bool.and_eq_true, decide_eq_true_eq, and_assoc]
  rfl

theorem enforced_of_candidate {config : PolicyConfig}
    {c : PolicyRule × Rule SignalKind PolicyDecision} (h : c ∈ candidates config)
    : c.2.verdict.Enforced ↔ c.1.mode = .enforce := by
  unfold candidates at h
  simp only [List.mem_cons, List.not_mem_nil, or_false] at h
  rcases h with rfl | rfl | rfl | rfl <;> exact and_iff_right rfl

theorem goodFirst_iff (config : PolicyConfig)
    : GoodFirst PolicyDecision.Enforced (rules config) ↔ config.EnforcedFirst := by
  have hrules : config.inOrder = (candidates config).map (·.1) := by rfl
  unfold GoodFirst rules PolicyConfig.EnforcedFirst
  rw [hrules, List.filter_map, List.pairwise_map, List.pairwise_map]
  apply List.Pairwise.iff_of_mem
  intro earlier later hearlier hlater
  rw [enforced_of_candidate (List.mem_of_mem_filter hearlier),
    enforced_of_candidate (List.mem_of_mem_filter hlater)]

-- The last fact of each trigger belongs to no other rule.
def own (rule : Rule SignalKind PolicyDecision) : SignalKind :=
  rule.trigger.getLastD .highAmount

theorem separate_candidates (config : PolicyConfig)
    : Separate own ((candidates config).map (·.2)) := by
  constructor
  . simp [candidates]
  . simp [candidates, own]
  . simp [candidates, own]

theorem separate_rules (config : PolicyConfig) : Separate own (rules config) := by
  have hsublist : (rules config).Sublist ((candidates config).map (·.2)) :=
    List.filter_sublist.map _
  have h := separate_candidates config
  constructor
  . exact h.nodup.sublist hsublist
  . intro rule hrule
    exact h.mem rule (hsublist.subset hrule)
  . intro rule hrule rule' hrule'
    exact h.eq rule (hsublist.subset hrule) rule' (hsublist.subset hrule')

theorem enforced_evaluate_iff (config : PolicyConfig) (signals : List Signal)
    : (PolicyEngine.evaluate config signals).Enforced
        ↔ ∃ d, FirstMatch.evaluate (rules config) (kinds signals) = some d ∧ d.Enforced := by
  rw [evaluate_eq]
  cases FirstMatch.evaluate (rules config) (kinds signals) with
  | none => simp [noPolicyMatched, PolicyDecision.Enforced]
  | some d => simp

theorem kindsWithin_iff (signals signals' : List Signal)
    : KindsWithin signals signals' ↔ ∀ k ∈ kinds signals, k ∈ kinds signals' := by
  simp [KindsWithin, kinds]

-- Signals of the given kinds.
def signalsOf (kinds : List SignalKind) : List Signal :=
  kinds.map (fun kind => ⟨kind, 1, "", none⟩)

theorem kinds_signalsOf (ks : List SignalKind) : kinds (signalsOf ks) = ks := by
  unfold kinds signalsOf
  rw [List.map_map]
  exact List.map_id ks

/--
More kinds of signals never take the enforcement of a decision away if and only if no enabled rule
in another mode stands before one in ENFORCE mode.
-/
theorem enforcement_mono_iff (config : PolicyConfig)
    : (∀ signals signals', KindsWithin signals signals' →
        (PolicyEngine.evaluate config signals).Enforced →
        (PolicyEngine.evaluate config signals').Enforced)
        ↔ config.EnforcedFirst := by
  rw [← goodFirst_iff]
  constructor
  . intro hmono
    apply (separate_rules config).goodFirst
    intro facts facts' d hsub hd hgood
    have := hmono (signalsOf facts) (signalsOf facts')
    rw [kindsWithin_iff, enforced_evaluate_iff, enforced_evaluate_iff, kinds_signalsOf,
      kinds_signalsOf] at this
    exact this hsub ⟨d, hd, hgood⟩
  . intro hgood signals signals' hwithin henforced
    rw [kindsWithin_iff] at hwithin
    rw [enforced_evaluate_iff] at henforced ⊢
    rcases henforced with ⟨d, hd, henforced⟩
    exact hgood.evaluate_mono hwithin hd henforced

-- High velocity is enforced; high amounts to new beneficiaries are only observed.
def promotedVelocity : PolicyConfig where
  highVelocity := { mode := .enforce }

theorem observed_rule_hides_enforced
    : ¬∀ (config : PolicyConfig) (signals signals' : List Signal), KindsWithin signals signals' →
        (PolicyEngine.evaluate config signals).Enforced →
        (PolicyEngine.evaluate config signals').Enforced := by
  intro hclaim
  have := hclaim promotedVelocity (signalsOf [.highVelocity])
    (signalsOf [.highVelocity, .newBeneficiary, .highAmount]) (by simp [KindsWithin, signalsOf])
    (by decide)
  exact absurd this (by decide)

end PolicyEngine

end Athar
