import Mathlib.Data.List.DropRight
import Mathlib.Data.List.Induction
import Mathlib.Data.List.Pairwise

/-!
This module contains the sustained properties of a log of timed readings. A property is sustained for a
window when every reading of the window has it. The readings since the last one without the property are
its current run, and the first of them is when the run began.
-/

namespace Sustained

variable {α : Type*} (time : α → ℕ) (p : α → Bool)

-- Every reading that is at most the window back has the property.
def Throughout (window now : ℕ) (log : List α) : Prop :=
  ∀ x ∈ log, now ≤ time x + window → p x = true

-- The first of the readings since the last one without the property.
def began (log : List α) : Option α :=
  (log.rtakeWhile p).head?

variable {time p}

@[simp]
theorem began_nil : began p ([] : List α) = none := by
  simp [began]

theorem began_append (log : List α) (x : α)
    : began p (log ++ [x]) = if p x then (began p log).or (some x) else none := by
  unfold began
  rw [List.rtakeWhile_concat]
  split
  . simp
  . rfl

theorem began_isSome {log : List α} {x : α} (hlast : log.getLast? = some x) (hp : p x = true)
    : ∃ first, began p log = some first := by
  induction log using List.reverseRecOn with
  | nil => contradiction
  | append_singleton log y _ =>
    rw [List.getLast?_concat, Option.some.injEq] at hlast
    rw [began_append, hlast, if_pos hp]
    cases began p log with
    | none => exact ⟨x, rfl⟩
    | some first => exact ⟨first, rfl⟩

theorem began_of_last_failing {log : List α} {x : α} (hlast : log.getLast? = some x) (hp : ¬p x = true)
    : began p log = none := by
  induction log using List.reverseRecOn with
  | nil => rfl
  | append_singleton log y _ =>
    rw [List.getLast?_concat, Option.some.injEq] at hlast
    rw [began_append, hlast, if_neg hp]

theorem throughout_append {window now : ℕ} {log : List α} {x : α}
    : Throughout time p window now (log ++ [x])
        ↔ Throughout time p window now log ∧ (now ≤ time x + window → p x = true) := by
  unfold Throughout
  rw [List.forall_mem_append, List.forall_mem_singleton]

end Sustained
