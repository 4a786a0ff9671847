import Mathlib.Data.List.Basic
import Mathlib.Data.List.Pairwise
import Mathlib.Data.List.Sort

/-!
This module contains lists that are sorted by a key, and their groups: the elements with one key. A list
is its groups one after the other, in the order of the keys.
-/

namespace Grouping

variable {α : Type*} {key : α → Nat}

-- All of the first kind come before all of the second.
theorem filter_or {l : List α} (h : l.Pairwise (key · ≤ key ·)) {p q : α → Bool}
    (hpq : ∀ a b, p a = true → q b = true → key a < key b)
    : l.filter (fun a => p a || q a) = l.filter p ++ l.filter q := by
  induction l with
  | nil => rfl
  | cons x l ih =>
    rw [List.pairwise_cons] at h
    have ih := ih h.2
    cases hp : p x with
    | true =>
      have hq : q x = false := by
        rw [Bool.eq_false_iff]
        intro hq
        exact Nat.lt_irrefl _ (hpq x x hp hq)
      simp [hp, hq, ih]
    | false =>
      cases hq : q x with
      | false => simp [hp, hq, ih]
      | true =>
        have hnone : l.filter p = [] := by
          rw [List.filter_eq_nil_iff]
          intro y hy hpy
          have hlt := hpq y x hpy hq
          have hle := h.1 y hy
          omega
        simp [hp, hq, ih, hnone]

/--
The groups of ascending keys, one after the other, are the elements with one of the keys.
-/
theorem flatMap_filter {l : List α} (h : l.Pairwise (key · ≤ key ·)) {keys : List Nat}
    (hkeys : keys.Pairwise (· < ·))
    : keys.flatMap (fun k => l.filter (key · = k)) = l.filter (key · ∈ keys) := by
  induction keys with
  | nil => simp
  | cons k keys ih =>
    rw [List.pairwise_cons] at hkeys
    rw [List.flatMap_cons, ih hkeys.2, ← filter_or h]
    . apply List.filter_congr
      intro a _
      simp
    . intro a b ha hb
      rw [decide_eq_true_iff] at ha hb
      rw [ha]
      exact hkeys.1 _ hb

-- In a sorted list an element goes before the same others, whether or not some are left out.
theorem orderedInsert_filter {l : List α} (h : l.Pairwise (key · ≤ key ·)) {p : α → Bool} {a : α}
    (ha : p a = true)
    : (l.orderedInsert (key · ≤ key ·) a).filter p = (l.filter p).orderedInsert (key · ≤ key ·) a := by
  induction l with
  | nil => simp [ha]
  | cons x l ih =>
    rw [List.pairwise_cons] at h
    by_cases hle : key a ≤ key x
    . have hall : ∀ y ∈ (x :: l).filter p, key a ≤ key y := by
        intro y hy
        have hmem := List.mem_of_mem_filter hy
        rw [List.mem_cons] at hmem
        rcases hmem with rfl | hmem
        . exact hle
        . exact Nat.le_trans hle (h.1 y hmem)
      rw [List.orderedInsert_cons, if_pos hle, List.filter_cons_of_pos ha]
      cases hrest : (x :: l).filter p with
      | nil => rfl
      | cons y rest =>
        rw [hrest] at hall
        rw [List.orderedInsert_cons, if_pos (hall y (by simp))]
    . rw [List.orderedInsert_cons, if_neg hle]
      cases hx : p x with
      | true =>
        rw [List.filter_cons_of_pos hx, ih h.2, List.filter_cons_of_pos hx,
          List.orderedInsert_cons, if_neg hle]
      | false =>
        rw [List.filter_cons_of_neg (by simp [hx]), ih h.2, List.filter_cons_of_neg (by simp [hx])]

theorem orderedInsert_filter_of_neg {p : α → Bool} {a : α} (ha : p a = false) (l : List α)
    : (l.orderedInsert (key · ≤ key ·) a).filter p = l.filter p := by
  induction l with
  | nil => simp [ha]
  | cons x l ih =>
    rw [List.orderedInsert_cons]
    split
    . rw [List.filter_cons_of_neg (by simp [ha])]
    . rw [List.filter_cons, ih, List.filter_cons]

theorem pairwise_insertionSort (l : List α)
    : (l.insertionSort (key · ≤ key ·)).Pairwise (key · ≤ key ·) := by
  have htotal : Std.Total (fun a b : α => key a ≤ key b) := ⟨fun a b => Nat.le_total (key a) (key b)⟩
  have htrans : IsTrans α (fun a b => key a ≤ key b) := ⟨fun _ _ _ => Nat.le_trans⟩
  exact List.pairwise_insertionSort _ _

/--
Sorting by a key is stable: what is left out of the list is left out of the sorted list.
-/
theorem insertionSort_filter (l : List α) (p : α → Bool)
    : (l.filter p).insertionSort (key · ≤ key ·) = (l.insertionSort (key · ≤ key ·)).filter p := by
  induction l with
  | nil => rfl
  | cons x l ih =>
    rw [List.insertionSort_cons]
    cases hx : p x with
    | true =>
      rw [orderedInsert_filter (pairwise_insertionSort l) hx, ← ih, List.filter_cons_of_pos hx,
        List.insertionSort_cons]
    | false =>
      rw [orderedInsert_filter_of_neg hx, ← ih, List.filter_cons_of_neg (by simp [hx])]

-- Groups whose elements tell which one they belong to can be told apart after they were joined.
theorem filter_flatMap_snd {κ ο : Type*} {groups : List (κ × List ο)} (h : (groups.map Prod.fst).Nodup)
    {belongs : κ → ο → Bool} (hbelongs : ∀ g ∈ groups, ∀ o ∈ g.2, ∀ k, belongs k o = true ↔ k = g.1)
    : ∀ g ∈ groups, (groups.flatMap Prod.snd).filter (belongs g.1) = g.2 := by
  induction groups with
  | nil =>
    intro g hg
    contradiction
  | cons g groups ih =>
    rw [List.map_cons, List.nodup_cons] at h
    rw [List.forall_mem_cons] at hbelongs ⊢
    have hne : ∀ g' ∈ groups, g'.1 ≠ g.1 := by
      intro g' hg' heq
      exact h.1 (heq ▸ List.mem_map_of_mem hg')
    constructor
    . have hself : g.2.filter (belongs g.1) = g.2 := by
        rw [List.filter_eq_self]
        intro o ho
        exact (hbelongs.1 o ho _).mpr rfl
      have hothers : (groups.flatMap Prod.snd).filter (belongs g.1) = [] := by
        rw [List.filter_eq_nil_iff]
        intro o ho
        rcases List.mem_flatMap.mp ho with ⟨g', hg', ho⟩
        rw [hbelongs.2 g' hg' o ho]
        exact (hne g' hg').symm
      rw [List.flatMap_cons, List.filter_append, hself, hothers, List.append_nil]
    . intro g' hg'
      have hothers : g.2.filter (belongs g'.1) = [] := by
        rw [List.filter_eq_nil_iff]
        intro o ho
        rw [hbelongs.1 o ho]
        exact hne g' hg'
      rw [List.flatMap_cons, List.filter_append, hothers, List.nil_append]
      exact ih h.2 hbelongs.2 g' hg'

end Grouping
