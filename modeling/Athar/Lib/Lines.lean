import Mathlib.Data.List.Basic

/-!
This module contains the lines of a text. A line ends with a line feed, which may follow a carriage
return; the last line may lack it.
-/

namespace Lines

def splitInclusive : List Char → List (List Char)
  | [] => []
  | ch :: text =>
    if ch = '\n' then
      [ch] :: splitInclusive text
    else
      match splitInclusive text with
      | [] => [[ch]]
      | line :: lines => (ch :: line) :: lines

def stripEnd (line : List Char) : List Char :=
  match line.reverse with
  | '\n' :: '\r' :: rest => rest.reverse
  | '\n' :: rest => rest.reverse
  | _ => line

def lines (text : List Char) : List (List Char) :=
  (splitInclusive text).map stripEnd

-- Every line of the text is ended.
def Ended (text : List Char) : Prop :=
  text = [] ∨ text.getLast? = some '\n'

theorem ended_nil : Ended [] := by
  exact Or.inl rfl

theorem Ended.append_line {text : List Char} (line : List Char)
    : Ended (text ++ (line ++ ['\n'])) := by
  apply Or.inr
  rw [← List.append_assoc]
  exact List.getLast?_concat

@[simp]
theorem lines_nil : lines [] = [] := by
  rfl

theorem splitInclusive_feed (text : List Char)
    : splitInclusive ('\n' :: text) = ['\n'] :: splitInclusive text := by
  rfl

theorem splitInclusive_cons {ch : Char} (h : ch ≠ '\n') (text : List Char)
    : splitInclusive (ch :: text) =
        match splitInclusive text with
        | [] => [[ch]]
        | line :: lines => (ch :: line) :: lines := by
  rw [splitInclusive, if_neg h]

theorem splitInclusive_ne_nil {text : List Char} (h : text ≠ []) : splitInclusive text ≠ [] := by
  cases text with
  | nil => contradiction
  | cons ch text =>
    unfold splitInclusive
    split
    . simp
    . split <;> simp

theorem splitInclusive_append {text : List Char} (h : Ended text) (more : List Char)
    : splitInclusive (text ++ more) = splitInclusive text ++ splitInclusive more := by
  induction text with
  | nil => rfl
  | cons ch text ih =>
    have hlast : (ch :: text).getLast? = some '\n' := by
      cases h with
      | inl h => contradiction
      | inr h => exact h
    rw [List.cons_append]
    by_cases hch : ch = '\n'
    . have htail : Ended text := by
        cases text with
        | nil => exact Or.inl rfl
        | cons ch' text => exact Or.inr (by simpa using hlast)
      rw [hch, splitInclusive_feed, splitInclusive_feed, ih htail, List.cons_append]
    . have hne : text ≠ [] := by
        intro hnil
        rw [hnil] at hlast
        apply hch
        simpa using hlast
      have htail : Ended text := by
        cases text with
        | nil => contradiction
        | cons ch' text => exact Or.inr (by simpa using hlast)
      rw [splitInclusive_cons hch, splitInclusive_cons hch, ih htail]
      cases hsplit : splitInclusive text with
      | nil => exact absurd hsplit (splitInclusive_ne_nil hne)
      | cons line lines => rfl

theorem splitInclusive_line {line : List Char} (h : '\n' ∉ line)
    : splitInclusive (line ++ ['\n']) = [line ++ ['\n']] := by
  induction line with
  | nil => rfl
  | cons ch line ih =>
    rw [List.mem_cons, not_or] at h
    rw [List.cons_append, splitInclusive_cons (Ne.symm h.1), ih h.2]

theorem stripEnd_line {line : List Char} (h : line.getLast? ≠ some '\r')
    : stripEnd (line ++ ['\n']) = line := by
  unfold stripEnd
  rw [List.reverse_append]
  cases hrev : line.reverse with
  | nil =>
    rw [List.reverse_eq_nil_iff] at hrev
    rw [hrev]
    rfl
  | cons ch rest =>
    have hline : line = rest.reverse ++ [ch] := by
      rw [← List.reverse_reverse line, hrev, List.reverse_cons]
    have hch : ch ≠ '\r' := by
      intro hcr
      apply h
      rw [hline, hcr, List.getLast?_concat]
    rw [hline]
    simp [hch]

-- A line written behind ended ones is one more line.
theorem lines_append_line {text : List Char} (hended : Ended text) {line : List Char}
    (hfeed : '\n' ∉ line) (hreturn : line.getLast? ≠ some '\r')
    : lines (text ++ (line ++ ['\n'])) = lines text ++ [line] := by
  unfold lines
  rw [splitInclusive_append hended, splitInclusive_line hfeed, List.map_append, List.map_singleton,
    stripEnd_line hreturn]

theorem lines_line {line : List Char} (hfeed : '\n' ∉ line) (hreturn : line.getLast? ≠ some '\r')
    : lines (line ++ ['\n']) = [line] := by
  exact lines_append_line ended_nil hfeed hreturn

end Lines
