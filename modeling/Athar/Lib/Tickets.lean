import Mathlib.Data.List.Nodup
import Mathlib.Data.Multiset.MapFold
import Mathlib.Data.Multiset.Range
import Mathlib.Logic.Function.Basic

/-!
This module contains tickets, for work in two steps that others may come between. The first step issues
a ticket to its client, the second spends it, and a client may also give up. However the clients take
turns, no ticket is ever spent twice, nor is it in a second round that the spent tickets go through.
-/

variable {κ : Type*} [DecidableEq κ]

-- Tickets are numbered in the order of their issue.
structure Tickets (κ : Type*) where
  issued : Nat
  held : κ → Option Nat
  spent : List Nat

namespace Tickets

variable (s : Tickets κ) (k : κ)

def issue : Tickets κ where
  issued := s.issued + 1
  held := Function.update s.held k (some s.issued)
  spent := s.spent

def give : Tickets κ :=
  { s with held := Function.update s.held k none }

def spend : Tickets κ :=
  { s.give k with spent := s.spent ++ (s.held k).toList }

omit [DecidableEq κ] in
structure Inv (s : Tickets κ) : Prop where
  nodup : s.spent.Nodup
  spent_lt : ∀ t ∈ s.spent, t < s.issued
  held_lt : ∀ k t, s.held k = some t → t < s.issued
  held_unspent : ∀ k t, s.held k = some t → t ∉ s.spent
  held_inj : ∀ k k' t, s.held k = some t → s.held k' = some t → k = k'

omit [DecidableEq κ] in
theorem Inv.start : Inv (⟨0, fun _ => none, []⟩ : Tickets κ) := by
  constructor <;> simp

variable {s} {k}

theorem held_update {α : Type*} {held : κ → Option α} {v : Option α} {k' : κ} {t : α}
    (h : Function.update held k v k' = some t) : (k' = k ∧ v = some t) ∨ (k' ≠ k ∧ held k' = some t) := by
  by_cases heq : k' = k
  . subst heq
    rw [Function.update_self] at h
    exact Or.inl ⟨rfl, h⟩
  . rw [Function.update_of_ne heq] at h
    exact Or.inr ⟨heq, h⟩

theorem Inv.issue (h : s.Inv) : (s.issue k).Inv := by
  constructor
  . exact h.nodup
  . intro t ht
    exact Nat.lt_succ_of_lt (h.spent_lt t ht)
  . intro k' t hheld
    rcases held_update hheld with ⟨_, hnew⟩ | ⟨_, hold⟩
    . cases hnew
      exact Nat.lt_succ_self _
    . exact Nat.lt_succ_of_lt (h.held_lt k' t hold)
  . intro k' t hheld hspent
    rcases held_update hheld with ⟨_, hnew⟩ | ⟨_, hold⟩
    . cases hnew
      exact Nat.lt_irrefl _ (h.spent_lt _ hspent)
    . exact h.held_unspent k' t hold hspent
  . intro k₁ k₂ t h₁ h₂
    rcases held_update h₁ with ⟨rfl, hnew₁⟩ | ⟨_, hold₁⟩
    . rcases held_update h₂ with ⟨rfl, _⟩ | ⟨_, hold₂⟩
      . rfl
      . cases hnew₁
        exact absurd (h.held_lt _ _ hold₂) (Nat.lt_irrefl _)
    . rcases held_update h₂ with ⟨rfl, hnew₂⟩ | ⟨_, hold₂⟩
      . cases hnew₂
        exact absurd (h.held_lt _ _ hold₁) (Nat.lt_irrefl _)
      . exact h.held_inj k₁ k₂ t hold₁ hold₂

theorem Inv.give (h : s.Inv) : (s.give k).Inv := by
  have hheld : ∀ k' t, (s.give k).held k' = some t → s.held k' = some t := by
    intro k' t hk'
    rcases held_update hk' with ⟨_, hnone⟩ | ⟨_, hold⟩
    . contradiction
    . exact hold
  constructor
  . exact h.nodup
  . exact h.spent_lt
  . intro k' t hk'
    exact h.held_lt k' t (hheld k' t hk')
  . intro k' t hk'
    exact h.held_unspent k' t (hheld k' t hk')
  . intro k₁ k₂ t h₁ h₂
    exact h.held_inj k₁ k₂ t (hheld k₁ t h₁) (hheld k₂ t h₂)

theorem Inv.spend (h : s.Inv) : (s.spend k).Inv := by
  have hgive : (s.give k).Inv := h.give
  have hmem : ∀ t, t ∈ s.spent ++ (s.held k).toList ↔ t ∈ s.spent ∨ s.held k = some t := by
    simp
  constructor
  . change (s.spent ++ (s.held k).toList).Nodup
    rw [List.nodup_append]
    refine ⟨h.nodup, ?_, ?_⟩
    . cases s.held k <;> simp
    . rintro t hspent t' ht' rfl
      rw [Option.mem_toList] at ht'
      exact h.held_unspent k t ht' hspent
  . intro t ht
    rcases (hmem t).mp ht with hspent | hheld
    . exact h.spent_lt t hspent
    . exact h.held_lt k t hheld
  . exact hgive.held_lt
  . intro k' t hk' hspent
    rcases held_update hk' with ⟨_, hnone⟩ | ⟨hne, hold⟩
    . contradiction
    . rcases (hmem t).mp hspent with hspent | hheld
      . exact h.held_unspent k' t hold hspent
      . exact hne (h.held_inj k' k t hold hheld)
  . exact hgive.held_inj

omit [DecidableEq κ] in
-- All clients give up.
theorem Inv.release (h : s.Inv) : ({ s with held := fun _ => none } : Tickets κ).Inv := by
  constructor
  . exact h.nodup
  . exact h.spent_lt
  . simp
  . simp
  . simp

section Rounds

variable {next : Tickets κ}

def hand (next : Tickets κ) (k : κ) (ticket : Option Nat) : Tickets κ :=
  { next with held := Function.update next.held k ticket }

omit [DecidableEq κ] in
-- What the second round holds or has spent, the first has spent.
structure Follows (next s : Tickets κ) : Prop where
  held_mem : ∀ k t, next.held k = some t → t ∈ s.spent
  spent_mem : ∀ t ∈ next.spent, t ∈ s.spent

-- The second round takes over a ticket that the first is about to spend.
theorem Inv.hand (h : next.Inv) (hs : s.Inv) (hfollows : next.Follows s) (hissued : s.issued ≤ next.issued)
    : (next.hand k (s.held k)).Inv := by
  have hunused : ∀ t, s.held k = some t → t ∉ next.spent ∧ ∀ k', next.held k' ≠ some t := by
    intro t hheld
    have hunspent := hs.held_unspent k t hheld
    constructor
    . intro hspent
      exact hunspent (hfollows.spent_mem t hspent)
    . intro k' hk'
      exact hunspent (hfollows.held_mem k' t hk')
  constructor
  . exact h.nodup
  . exact h.spent_lt
  . intro k' t hk'
    rcases held_update hk' with ⟨_, hnew⟩ | ⟨_, hold⟩
    . exact (hs.held_lt k t hnew).trans_le hissued
    . exact h.held_lt k' t hold
  . intro k' t hk'
    rcases held_update hk' with ⟨_, hnew⟩ | ⟨_, hold⟩
    . exact (hunused t hnew).1
    . exact h.held_unspent k' t hold
  . intro k₁ k₂ t h₁ h₂
    rcases held_update h₁ with ⟨rfl, hnew₁⟩ | ⟨_, hold₁⟩
    . rcases held_update h₂ with ⟨rfl, _⟩ | ⟨_, hold₂⟩
      . rfl
      . exact absurd hold₂ ((hunused t hnew₁).2 k₂)
    . rcases held_update h₂ with ⟨rfl, hnew₂⟩ | ⟨_, hold₂⟩
      . exact absurd hold₁ ((hunused t hnew₂).2 k₁)
      . exact h.held_inj k₁ k₂ t hold₁ hold₂

theorem Follows.hand (h : next.Follows s) : (next.hand k (s.held k)).Follows (s.spend k) := by
  have hmem : ∀ t, t ∈ (s.spend k).spent ↔ t ∈ s.spent ∨ s.held k = some t := by
    simp [Tickets.spend]
  constructor
  . intro k' t hk'
    rw [hmem]
    rcases held_update hk' with ⟨_, hnew⟩ | ⟨_, hold⟩
    . exact Or.inr hnew
    . exact Or.inl (h.held_mem k' t hold)
  . intro t ht
    rw [hmem]
    exact Or.inl (h.spent_mem t ht)

theorem Follows.spend (h : next.Follows s) : (next.spend k).Follows s := by
  constructor
  . intro k' t hk'
    rcases held_update hk' with ⟨_, hnone⟩ | ⟨_, hold⟩
    . contradiction
    . exact h.held_mem k' t hold
  . intro t ht
    rcases List.mem_append.mp ht with hold | hnew
    . exact h.spent_mem t hold
    . exact h.held_mem k t (Option.mem_toList.mp hnew)

omit [DecidableEq κ] in
theorem Follows.of_spent_subset {s' : Tickets κ} (h : next.Follows s) (hspent : s.spent ⊆ s'.spent)
    : next.Follows s' :=
  ⟨fun k t hk => hspent (h.held_mem k t hk), fun t ht => hspent (h.spent_mem t ht)⟩

omit [DecidableEq κ] in
theorem Inv.of_issued_le (h : s.Inv) {issued : Nat} (hle : s.issued ≤ issued)
    : ({ s with issued } : Tickets κ).Inv :=
  ⟨h.nodup, fun t ht => (h.spent_lt t ht).trans_le hle,
    fun k t hk => (h.held_lt k t hk).trans_le hle, h.held_unspent, h.held_inj⟩

end Rounds

-- Things that have a ticket each have one of their own if no ticket is there twice.
theorem nodup_map {β : Type*} {l : List β} {f : β → Option Nat} (hsome : ∀ b ∈ l, ∃ n, f b = some n)
    (h : (l.filterMap f).Nodup) : (l.map f).Nodup := by
  have hmap : l.map f = (l.filterMap f).map some := by
    induction l with
    | nil => rfl
    | cons b l ih =>
      rcases hsome b (by simp) with ⟨n, hn⟩
      rw [List.filterMap_cons_some hn] at h ⊢
      rw [List.map_cons, List.map_cons, hn, ih (fun b hb => hsome b (by simp [hb])) h.of_cons]
  rw [hmap]
  exact h.map (Option.some_injective _)

section Positions

variable {α : Type*} {xs ys : List α} {positions : List Nat}

theorem map_range_getElem? (ys : List α) : (List.range ys.length).map (ys[·]?) = ys.map some := by
  apply List.ext_getElem
  . simp
  . intro i hi _
    simp only [List.length_map, List.length_range] at hi
    simp [hi]

theorem map_filterMap_eq {β : Type*} {l : List β} {f : β → Option Nat} {g : Nat → Option α} {x : β → α}
    (h : ∀ b ∈ l, ∃ n, f b = some n ∧ g n = some (x b)) : (l.filterMap f).map g = (l.map x).map some := by
  induction l with
  | nil => rfl
  | cons b l ih =>
    rw [List.forall_mem_cons] at h
    rcases h.1 with ⟨n, hn, hx⟩
    rw [List.filterMap_cons_some hn, List.map_cons, hx, ih h.2, List.map_cons, List.map_cons]

-- What stands at positions that are taken once each is no more than there is.
theorem le_of_positions (hnodup : positions.Nodup) (hget : positions.map (ys[·]?) = xs.map some)
    : (xs : Multiset α) ≤ ys := by
  have hsubset : positions ⊆ List.range ys.length := by
    intro position hposition
    have hmem : ys[position]? ∈ xs.map some := by
      rw [← hget]
      exact List.mem_map_of_mem hposition
    rcases List.mem_map.mp hmem with ⟨x, _, hx⟩
    rw [List.mem_range]
    exact (List.getElem?_eq_some_iff.mp hx.symm).1
  have hle : (positions : Multiset Nat) ≤ List.range ys.length :=
    Multiset.coe_le.mpr (hnodup.subperm hsubset)
  have hmap := Multiset.map_le_map (f := (ys[·]?)) hle
  rw [Multiset.map_coe, Multiset.map_coe, hget, map_range_getElem?, ← Multiset.map_coe,
    ← Multiset.map_coe] at hmap
  exact (Multiset.map_le_map_iff (Option.some_injective α)).mp hmap

-- What stands at positions that leave none out is no less.
theorem le_of_covering (hcovers : List.range ys.length ⊆ positions)
    (hget : positions.map (ys[·]?) = xs.map some) : (ys : Multiset α) ≤ xs := by
  have hle : (List.range ys.length : Multiset Nat) ≤ positions :=
    Multiset.coe_le.mpr (List.nodup_range.subperm hcovers)
  have hmap := Multiset.map_le_map (f := (ys[·]?)) hle
  rw [Multiset.map_coe, Multiset.map_coe, hget, map_range_getElem?, ← Multiset.map_coe,
    ← Multiset.map_coe] at hmap
  exact (Multiset.map_le_map_iff (Option.some_injective α)).mp hmap

end Positions

end Tickets
