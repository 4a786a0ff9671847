import Mathlib.Data.List.Basic

/-!
This module contains comparisons of two tests that are meant to accept the same things. A comparison says
what both of them demand, and what only the left or only the right one demands. The tests agree on a thing
exactly if it lacks what both demand, or if the rest of their demands makes no difference.
-/

structure Comparison (α : Type*) where
  common : α → Prop
  leftOnly : α → Prop
  rightOnly : α → Prop

namespace Comparison

variable {α β ι : Type*}

def left (c : Comparison α) (a : α) : Prop :=
  c.common a ∧ c.leftOnly a

def right (c : Comparison α) (a : α) : Prop :=
  c.common a ∧ c.rightOnly a

-- The comparison is one of these two tests.
structure Compares (c : Comparison α) (p q : α → Prop) : Prop where
  left_iff : ∀ a, p a ↔ c.left a
  right_iff : ∀ a, q a ↔ c.right a

/--
Two tests agree on a thing if and only if what sets them apart makes no difference to it.
-/
theorem Compares.agree_iff {c : Comparison α} {p q : α → Prop} (h : c.Compares p q) {a : α}
    : (p a ↔ q a) ↔ (c.common a → (c.leftOnly a ↔ c.rightOnly a)) := by
  rw [h.left_iff, h.right_iff]
  exact and_congr_right_iff

theorem Compares.congr {c : Comparison α} {p p' q q' : α → Prop} (h : c.Compares p q)
    (hp : ∀ a, p' a ↔ p a) (hq : ∀ a, q' a ↔ q a) : c.Compares p' q' where
  left_iff a := (hp a).trans (h.left_iff a)
  right_iff a := (hq a).trans (h.right_iff a)

theorem compares_self (c : Comparison α) : c.Compares c.left c.right where
  left_iff _ := Iff.rfl
  right_iff _ := Iff.rfl

def same (p : α → Prop) : Comparison α where
  common := p
  leftOnly _ := True
  rightOnly _ := True

theorem Compares.same (p : α → Prop) : (Comparison.same p).Compares p p where
  left_iff a := by simp [left, Comparison.same]
  right_iff a := by simp [right, Comparison.same]

-- Tests of which the one demands more.
def leftDemands (c : Comparison α) (p : α → Prop) : Comparison α where
  common := c.common
  leftOnly a := p a ∧ c.leftOnly a
  rightOnly := c.rightOnly

theorem Compares.leftDemands {c : Comparison α} {l r : α → Prop} (h : c.Compares l r)
    (p : α → Prop) : (c.leftDemands p).Compares (fun a => p a ∧ l a) r where
  left_iff a := by
    rw [h.left_iff]
    exact and_left_comm
  right_iff := h.right_iff

def rightDemands (c : Comparison α) (p : α → Prop) : Comparison α where
  common := c.common
  leftOnly := c.leftOnly
  rightOnly a := p a ∧ c.rightOnly a

theorem Compares.rightDemands {c : Comparison α} {l r : α → Prop} (h : c.Compares l r)
    (p : α → Prop) : (c.rightDemands p).Compares l (fun a => p a ∧ r a) where
  left_iff := h.left_iff
  right_iff a := by
    rw [h.right_iff]
    exact and_left_comm

-- Tests that let the same things pass whatever else they demand.
def bothAllow (c : Comparison α) (p : α → Prop) : Comparison α where
  common a := p a ∨ c.common a
  leftOnly a := p a ∨ c.leftOnly a
  rightOnly a := p a ∨ c.rightOnly a

theorem Compares.bothAllow {c : Comparison α} {l r : α → Prop} (h : c.Compares l r)
    (p : α → Prop) : (c.bothAllow p).Compares (fun a => p a ∨ l a) (fun a => p a ∨ r a) where
  left_iff a := by
    rw [h.left_iff]
    exact or_and_left
  right_iff a := by
    rw [h.right_iff]
    exact or_and_left

-- Tests of which only the one lets some things pass.
def leftAllows (c : Comparison α) (p : α → Prop) : Comparison α where
  common a := p a ∨ c.common a
  leftOnly a := p a ∨ c.leftOnly a
  rightOnly a := ¬p a ∧ c.rightOnly a

theorem Compares.leftAllows {c : Comparison α} {l r p : α → Prop} (h : c.Compares l r)
    (hp : ∀ a, p a → ¬r a) : (c.leftAllows p).Compares (fun a => p a ∨ l a) r where
  left_iff a := by
    rw [h.left_iff]
    exact or_and_left
  right_iff a := by
    have hnot := hp a
    rw [h.right_iff] at hnot ⊢
    unfold right Comparison.leftAllows at *
    tauto

def rightAllows (c : Comparison α) (p : α → Prop) : Comparison α where
  common a := p a ∨ c.common a
  leftOnly a := ¬p a ∧ c.leftOnly a
  rightOnly a := p a ∨ c.rightOnly a

theorem Compares.rightAllows {c : Comparison α} {l r p : α → Prop} (h : c.Compares l r)
    (hp : ∀ a, p a → ¬l a) : (c.rightAllows p).Compares l (fun a => p a ∨ r a) where
  left_iff a := by
    have hnot := hp a
    rw [h.left_iff] at hnot ⊢
    unfold left Comparison.rightAllows at *
    tauto
  right_iff a := by
    rw [h.right_iff]
    exact or_and_left

def each (c : Comparison α) : Comparison (List α) where
  common as := ∀ a ∈ as, c.common a
  leftOnly as := ∀ a ∈ as, c.leftOnly a
  rightOnly as := ∀ a ∈ as, c.rightOnly a

theorem Compares.each {c : Comparison α} {p q : α → Prop} (h : c.Compares p q)
    : c.each.Compares (fun as => ∀ a ∈ as, p a) (fun as => ∀ a ∈ as, q a) where
  left_iff as := by simp only [h.left_iff, left, Comparison.each, forall₂_and]
  right_iff as := by simp only [h.right_iff, right, Comparison.each, forall₂_and]

def all (is : List ι) (c : ι → Comparison α) : Comparison α where
  common a := ∀ i ∈ is, (c i).common a
  leftOnly a := ∀ i ∈ is, (c i).leftOnly a
  rightOnly a := ∀ i ∈ is, (c i).rightOnly a

theorem Compares.all {c : ι → Comparison α} {p q : ι → α → Prop}
    (h : ∀ i, (c i).Compares (p i) (q i)) (is : List ι)
    : (Comparison.all is c).Compares (fun a => ∀ i ∈ is, p i a) (fun a => ∀ i ∈ is, q i a) where
  left_iff a := by simp only [(h _).left_iff, left, Comparison.all, forall₂_and]
  right_iff a := by simp only [(h _).right_iff, right, Comparison.all, forall₂_and]

-- The tests of what a thing contains, which it has to.
def within (get : α → Option β) (c : Comparison β) : Comparison α where
  common a := ∃ b ∈ get a, c.common b
  leftOnly a := ∃ b ∈ get a, c.leftOnly b
  rightOnly a := ∃ b ∈ get a, c.rightOnly b

theorem Compares.within (get : α → Option β) {c : Comparison β} {p q : β → Prop}
    (h : c.Compares p q)
    : (Comparison.within get c).Compares (fun a => ∃ b ∈ get a, p b)
        (fun a => ∃ b ∈ get a, q b) where
  left_iff a := by
    simp only [h.left_iff, left, Comparison.within]
    cases get a <;> simp
  right_iff a := by
    simp only [h.right_iff, right, Comparison.within]
    cases get a <;> simp

end Comparison
