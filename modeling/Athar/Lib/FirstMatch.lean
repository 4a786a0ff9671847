import Mathlib.Data.List.Basic
import Mathlib.Data.List.Pairwise

/-!
This module contains ordered rules of which the first that fires decides. A rule fires when all the
facts of its trigger are present, so more facts make more rules fire, and an earlier rule may take
over. A kind of verdict is never taken over exactly when all earlier rules give that kind, as long
as every rule has a fact of its own.
-/

namespace FirstMatch

variable {κ ν : Type*}

structure Rule (κ ν : Type*) where
  trigger : List κ
  verdict : ν

def Rule.Fires (rule : Rule κ ν) (facts : List κ) : Prop :=
  ∀ k ∈ rule.trigger, k ∈ facts

instance [DecidableEq κ] (rule : Rule κ ν) (facts : List κ) : Decidable (rule.Fires facts) :=
  inferInstanceAs (Decidable (∀ k ∈ rule.trigger, k ∈ facts))

def evaluate [DecidableEq κ] (rules : List (Rule κ ν)) (facts : List κ) : Option ν :=
  (rules.find? (fun rule => rule.Fires facts)).map (·.verdict)

-- No rule with another verdict stands before one with a good verdict.
def GoodFirst (good : ν → Prop) (rules : List (Rule κ ν)) : Prop :=
  rules.Pairwise (fun earlier later => good later.verdict → good earlier.verdict)

theorem Rule.Fires.mono {rule : Rule κ ν} {facts facts' : List κ} (h : rule.Fires facts)
    (hsub : ∀ k ∈ facts, k ∈ facts') : rule.Fires facts' := by
  intro k hk
  apply hsub
  exact h k hk

variable [DecidableEq κ]

theorem evaluate_cons_of_fires {rule : Rule κ ν} {facts : List κ} (h : rule.Fires facts)
    (rules : List (Rule κ ν)) : evaluate (rule :: rules) facts = some rule.verdict := by
  unfold evaluate
  rw [List.find?_cons_of_pos (by simpa using h)]
  rfl

theorem evaluate_cons_of_not_fires {rule : Rule κ ν} {facts : List κ} (h : ¬rule.Fires facts)
    (rules : List (Rule κ ν)) : evaluate (rule :: rules) facts = evaluate rules facts := by
  unfold evaluate
  rw [List.find?_cons_of_neg (by simpa using h)]

theorem exists_of_evaluate {rules : List (Rule κ ν)} {facts : List κ} {v : ν}
    (h : evaluate rules facts = some v)
    : ∃ rule ∈ rules, rule.verdict = v ∧ rule.Fires facts := by
  unfold evaluate at h
  rw [Option.map_eq_some_iff] at h
  rcases h with ⟨rule, hfind, hverdict⟩
  have hfires := List.find?_some hfind
  exact ⟨rule, List.mem_of_find?_eq_some hfind, hverdict, by simpa using hfires⟩

theorem evaluate_append_of_none {rules : List (Rule κ ν)} {facts : List κ}
    (h : ∀ rule ∈ rules, ¬rule.Fires facts) (rest : List (Rule κ ν))
    : evaluate (rules ++ rest) facts = evaluate rest facts := by
  induction rules with
  | nil => rfl
  | cons rule rules ih =>
    rw [List.cons_append, evaluate_cons_of_not_fires (h rule (by simp))]
    apply ih
    intro rule' hrule'
    exact h rule' (by simp [hrule'])

/--
More facts keep a good verdict good when no rule with another verdict stands before a good one.
-/
theorem GoodFirst.evaluate_mono {good : ν → Prop} {rules : List (Rule κ ν)}
    (h : GoodFirst good rules) {facts facts' : List κ} (hsub : ∀ k ∈ facts, k ∈ facts')
    {v : ν} (hv : evaluate rules facts = some v) (hgood : good v)
    : ∃ v', evaluate rules facts' = some v' ∧ good v' := by
  unfold GoodFirst at h
  induction rules with
  | nil => cases hv
  | cons rule rules ih =>
    rw [List.pairwise_cons] at h
    by_cases hfires' : rule.Fires facts'
    . refine ⟨rule.verdict, evaluate_cons_of_fires hfires' rules, ?_⟩
      rcases exists_of_evaluate hv with ⟨decider, hmem, rfl, _⟩
      rw [List.mem_cons] at hmem
      rcases hmem with rfl | hmem
      . exact hgood
      . exact h.1 decider hmem hgood
    . have hfires : ¬rule.Fires facts := fun hfires => hfires' (hfires.mono hsub)
      rw [evaluate_cons_of_not_fires hfires] at hv
      rw [evaluate_cons_of_not_fires hfires']
      exact ih h.2 hv

-- Every rule has a fact that triggers no other rule.
structure Separate (own : Rule κ ν → κ) (rules : List (Rule κ ν)) : Prop where
  nodup : rules.Nodup
  mem : ∀ rule ∈ rules, own rule ∈ rule.trigger
  eq : ∀ rule ∈ rules, ∀ rule' ∈ rules, own rule ∈ rule'.trigger → rule = rule'

omit [DecidableEq κ] in
theorem Separate.eq_of_fires {own : Rule κ ν → κ} {rules : List (Rule κ ν)} (h : Separate own rules)
    {rule a b : Rule κ ν} (hrule : rule ∈ rules) (ha : a ∈ rules) (hb : b ∈ rules)
    (hfires : rule.Fires (a.trigger ++ b.trigger)) : rule = a ∨ rule = b := by
  have := hfires (own rule) (h.mem rule hrule)
  rw [List.mem_append] at this
  cases this with
  | inl hmem => exact Or.inl (h.eq rule hrule a ha hmem)
  | inr hmem => exact Or.inr (h.eq rule hrule b hb hmem)

/--
Where a rule with another verdict stands before a good one, the facts of both together turn the good
verdict into the other.
-/
theorem Separate.goodFirst {own : Rule κ ν → κ} {rules : List (Rule κ ν)} (h : Separate own rules)
    {good : ν → Prop}
    (hmono : ∀ facts facts' v, (∀ k ∈ facts, k ∈ facts') → evaluate rules facts = some v → good v →
      ∃ v', evaluate rules facts' = some v' ∧ good v') : GoodFirst good rules := by
  unfold GoodFirst
  rw [List.pairwise_iff_forall_sublist]
  intro earlier later hsublist hgood
  rcases List.cons_sublist_iff.mp hsublist with ⟨before, after, hsplit, hbefore, hafter⟩
  rw [List.singleton_sublist] at hafter
  rcases List.append_of_mem hbefore with ⟨front, middle, rfl⟩
  have hrules : rules = front ++ earlier :: (middle ++ after) := by
    rw [hsplit, List.append_assoc, List.cons_append]
  have hearlier : earlier ∈ rules := by simp [hrules]
  have hlater : later ∈ rules := by simp [hrules, hafter]
  have hnodup := h.nodup
  rw [hrules, List.nodup_append] at hnodup
  have hfront : ∀ rule ∈ front, rule ∈ rules ∧ rule ≠ earlier ∧ rule ≠ later := by
    intro rule hrule
    refine ⟨by simp [hrules, hrule], ?_, ?_⟩
    . exact hnodup.2.2 rule hrule earlier (by simp)
    . exact hnodup.2.2 rule hrule later (by simp [hafter])
  have hne : later ≠ earlier := by
    rintro rfl
    have := hnodup.2.1
    rw [List.nodup_cons] at this
    exact this.1 (by simp [hafter])
  have hquiet : ∀ rule ∈ rules, rule ≠ later → ¬rule.Fires later.trigger := by
    intro rule hrule hdiff hfires
    exact hdiff (h.eq rule hrule later hlater (hfires _ (h.mem rule hrule)))
  have hdecides : ∃ v, evaluate rules later.trigger = some v ∧ v = later.verdict := by
    have hfind : ∃ rule, rules.find? (fun rule => rule.Fires later.trigger) = some rule := by
      rw [← Option.isSome_iff_exists, List.find?_isSome]
      exact ⟨later, hlater, by simp [Rule.Fires]⟩
    rcases hfind with ⟨rule, hfind⟩
    have hfires : rule.Fires later.trigger := by
      simpa using List.find?_some hfind
    have hrule := List.mem_of_find?_eq_some hfind
    refine ⟨rule.verdict, by rw [evaluate, hfind]; rfl, ?_⟩
    by_contra hdiff
    exact hquiet rule hrule (fun heq => hdiff (by rw [heq])) hfires
  rcases hdecides with ⟨v, hv, rfl⟩
  have hboth : ∀ k ∈ later.trigger, k ∈ earlier.trigger ++ later.trigger := by
    intro k hk
    simp [hk]
  rcases hmono _ _ _ hboth hv hgood with ⟨v', hv', hgood'⟩
  have htakes : evaluate rules (earlier.trigger ++ later.trigger) = some earlier.verdict := by
    rw [hrules, evaluate_append_of_none]
    . apply evaluate_cons_of_fires
      intro k hk
      simp [hk]
    . intro rule hrule hfires
      rcases hfront rule hrule with ⟨hmem, hne₁, hne₂⟩
      cases h.eq_of_fires hmem hearlier hlater hfires with
      | inl heq => exact hne₁ heq
      | inr heq => exact hne₂ heq
  rw [htakes] at hv'
  rw [Option.some.inj hv']
  exact hgood'

end FirstMatch
