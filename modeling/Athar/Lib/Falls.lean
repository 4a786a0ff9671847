import Mathlib.Data.List.Basic
import Mathlib.Data.List.Induction

/-!
This module contains the falls of a predicate along a list: how often it holds of an entry and no longer
of the next one. Who looks at the list now and then sees no fall that was not there.
-/

namespace Falls

variable {α : Type*} (p : α → Bool)

def count : List α → Nat
  | [] => 0
  | [_] => 0
  | x :: y :: rest => (if p x && !p y then 1 else 0) + count (y :: rest)

-- The predicate holds of the last entry.
def up (xs : List α) : Bool :=
  xs.getLast?.any p

theorem up_append (xs : List α) (y : α) : up p (xs ++ [y]) = p y := by
  simp [up]

theorem count_append (xs : List α) (y : α)
    : count p (xs ++ [y]) = count p xs + if up p xs && !p y then 1 else 0 := by
  induction xs with
  | nil => rfl
  | cons x xs ih =>
    cases xs with
    | nil => simp [count, up]
    | cons x' xs =>
      have hup : up p (x :: x' :: xs) = up p (x' :: xs) := by
        simp [up]
      have hcons : count p (x :: x' :: xs ++ [y])
          = (if p x && !p x' then 1 else 0) + count p (x' :: xs ++ [y]) := rfl
      rw [hcons, ih, hup, count, Nat.add_assoc]

variable {p} {xs zs : List α}

theorem count_le_of_prefix (h : xs <+: zs) : count p xs ≤ count p zs := by
  rcases h with ⟨ys, rfl⟩
  induction ys using List.reverseRecOn with
  | nil => simp
  | append_singleton ys y ih =>
    rw [← List.append_assoc, count_append]
    exact Nat.le_trans ih (Nat.le_add_right _ _)

-- Between an entry at which the predicate holds and a later one at which it does not, it has fallen.
theorem count_lt_of_prefix (h : xs <+: zs) (hxs : up p xs = true) (hzs : up p zs = false)
    : count p xs < count p zs := by
  rcases h with ⟨ys, rfl⟩
  induction ys using List.reverseRecOn with
  | nil =>
    rw [List.append_nil, hxs] at hzs
    contradiction
  | append_singleton ys y ih =>
    rw [← List.append_assoc, up_append] at hzs
    rw [← List.append_assoc, count_append, hzs]
    cases hup : up p (xs ++ ys) with
    | true =>
      have := count_le_of_prefix (p := p) (List.prefix_append xs ys)
      simpa using Nat.lt_succ_of_le this
    | false => exact Nat.lt_of_lt_of_le (ih hup) (Nat.le_add_right _ _)

end Falls
