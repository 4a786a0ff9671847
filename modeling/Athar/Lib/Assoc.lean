import Mathlib.Data.List.AList

/-!
This module contains association lists up to the order of their entries: what inserting and erasing do
to a list that the entries are a permutation of.
-/

namespace Assoc

variable {α : Type*} {β : α → Type*} [DecidableEq α]

theorem lookup_of_perm {s : AList β} {l : List (Sigma β)} (h : s.entries.Perm l) {a : α} {b : β a}
    (hmem : ⟨a, b⟩ ∈ l) : s.lookup a = some b := by
  apply AList.mem_lookup_iff.mpr
  exact h.mem_iff.mpr hmem

omit [DecidableEq α] in
theorem mem_iff_of_perm {s : AList β} {l : List (Sigma β)} (h : s.entries.Perm l) {a : α}
    : a ∈ s ↔ ∃ e ∈ l, e.1 = a := by
  rw [AList.mem_keys, AList.keys, List.keys, List.mem_map]
  constructor
  . rintro ⟨e, he, rfl⟩
    exact ⟨e, h.mem_iff.mp he, rfl⟩
  . rintro ⟨e, he, rfl⟩
    exact ⟨e, h.mem_iff.mpr he, rfl⟩

theorem perm_erase {s : AList β} {a : α} {b : β a} {rest : List (Sigma β)}
    (h : s.entries.Perm (⟨a, b⟩ :: rest)) : (s.erase a).entries.Perm rest := by
  have hcons : List.kerase a ((⟨a, b⟩ : Sigma β) :: rest) = rest := List.kerase_cons_eq rfl
  rw [← hcons]
  exact h.kerase s.nodupKeys

theorem entries_erase (s : AList β) (a : α)
    : (s.erase a).entries = s.entries.filter (fun e => decide (e.1 ≠ a)) := by
  rcases s with ⟨entries, hnodup⟩
  have hkerase : ∀ {l : List (Sigma β)}, l.NodupKeys →
      l.kerase a = l.filter (fun e => decide (e.1 ≠ a)) := by
    intro l hl
    induction l with
    | nil => rfl
    | cons e l ih =>
      rw [List.nodupKeys_cons] at hl
      by_cases he : a = e.1
      . have hrest : l.filter (fun e => decide (e.1 ≠ a)) = l := by
          rw [List.filter_eq_self]
          intro e' he'
          rw [decide_eq_true_iff]
          intro heq
          apply hl.1
          rw [← he, ← heq]
          exact List.mem_map_of_mem he'
        rw [List.kerase_cons_eq he, List.filter_cons_of_neg (by simp [he]), hrest]
      . rw [List.kerase_cons_ne he, ih hl.2, List.filter_cons_of_pos (by simpa using fun h => he h.symm)]
  exact hkerase hnodup

theorem perm_insert {s : AList β} {a : α} {b : β a} {rest : List (Sigma β)}
    (h : s.entries.Perm (⟨a, b⟩ :: rest)) (b' : β a)
    : (s.insert a b').entries.Perm (⟨a, b'⟩ :: rest) := by
  rw [AList.entries_insert]
  exact (perm_erase h).cons _

theorem perm_insert_new {s : AList β} {l : List (Sigma β)} (h : s.entries.Perm l) {a : α}
    (hnew : a ∉ s) (b : β a) : (s.insert a b).entries.Perm (⟨a, b⟩ :: l) := by
  rw [AList.entries_insert_of_notMem hnew]
  exact h.cons _

-- The entry of one key is taken out and comes back under another.
theorem perm_insert_erase {s : AList β} {a a' : α} {b : β a} {rest : List (Sigma β)}
    (h : s.entries.Perm (⟨a, b⟩ :: rest)) (hnew : ∀ e ∈ rest, e.1 ≠ a') (b' : β a')
    : ((s.erase a).insert a' b').entries.Perm (⟨a', b'⟩ :: rest) := by
  have herase := perm_erase h
  apply perm_insert_new herase
  rw [mem_iff_of_perm herase]
  rintro ⟨e, he, heq⟩
  exact hnew e he heq

end Assoc
