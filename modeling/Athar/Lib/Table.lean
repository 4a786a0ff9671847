import Mathlib.Data.List.Dedup
import Mathlib.Data.List.Induction
import Mathlib.Data.List.Pairwise

/-!
This module contains tables as lists of rows with partial keys. A key is unique when no two rows have
the same value of it, and then looking a value up finds the row that has it. Replacing rows keeps a
key unique when the rows that stay do not have the value of the new one.
-/

namespace Table

variable {α κ : Type*}

def UniqueOn (key : α → Option κ) (rows : List α) : Prop :=
  rows.Pairwise (fun a b => ∀ k, key a = some k → key b ≠ some k)

def find [DecidableEq κ] (key : α → Option κ) (rows : List α) (k : κ) : Option α :=
  rows.find? (fun row => key row = some k)

def replace (conflicts : α → Bool) (rows : List α) (new : α) : List α :=
  rows.filter (fun row => !conflicts row) ++ [new]

theorem mem_replace {conflicts : α → Bool} {rows : List α} {new row : α}
    : row ∈ replace conflicts rows new
        ↔ (row ∈ rows ∧ conflicts row = false) ∨ row = new := by
  simp [replace]

variable {key : α → Option κ}

theorem uniqueOn_nil : UniqueOn key [] :=
  List.Pairwise.nil

theorem UniqueOn.eq {rows : List α} (h : UniqueOn key rows) {a b : α} (ha : a ∈ rows)
    (hb : b ∈ rows) {k : κ} (hka : key a = some k) (hkb : key b = some k) : a = b := by
  by_contra hne
  have hsymm : Std.Symm (fun a b : α => ∀ k, key a = some k → key b ≠ some k) := by
    constructor
    intro a b hab k hkb hka
    exact hab k hka hkb
  exact List.Pairwise.forall h ha hb hne k hka hkb

theorem ne_of_find_eq_none [DecidableEq κ] {rows : List α} {k : κ} (h : find key rows k = none)
    {row : α} (hrow : row ∈ rows) : key row ≠ some k := by
  have := List.find?_eq_none.mp h row hrow
  simpa using this

theorem UniqueOn.find_eq_some_iff [DecidableEq κ] {rows : List α} (h : UniqueOn key rows) {k : κ} {a : α}
    : find key rows k = some a ↔ a ∈ rows ∧ key a = some k := by
  unfold find
  constructor
  . intro hfind
    have hkey := List.find?_some hfind
    exact ⟨List.mem_of_find?_eq_some hfind, by simpa using hkey⟩
  . rintro ⟨hmem, hkey⟩
    cases hfind : rows.find? (fun row => key row = some k) with
    | none =>
      have := List.find?_eq_none.mp hfind a hmem
      simp [hkey] at this
    | some b =>
      have hb := List.find?_some hfind
      rw [h.eq (List.mem_of_find?_eq_some hfind) hmem (by simpa using hb) hkey]

theorem UniqueOn.replace {rows : List α} (h : UniqueOn key rows) {conflicts : α → Bool} {new : α}
    (hnew : ∀ row ∈ rows, conflicts row = false → ∀ k, key row = some k → key new ≠ some k)
    : UniqueOn key (replace conflicts rows new) := by
  unfold Table.replace UniqueOn
  rw [List.pairwise_append]
  refine ⟨h.filter _, by simp, ?_⟩
  intro row hrow new' hnew'
  rw [List.mem_filter] at hrow
  rw [List.mem_singleton] at hnew'
  subst hnew'
  exact hnew row hrow.1 (by simpa using hrow.2)

-- A lookup that neither the rows taken out nor the new row answer stays as it was.
theorem find_replace_of_ne [DecidableEq κ] {rows : List α} {conflicts : α → Bool} {new : α} {k : κ}
    (hold : ∀ row ∈ rows, conflicts row = true → key row ≠ some k) (hnew : key new ≠ some k)
    : find key (replace conflicts rows new) k = find key rows k := by
  unfold find Table.replace
  induction rows with
  | nil => simp [hnew]
  | cons row rows ih =>
    have ih := ih (fun row' hrow' => hold row' (by simp [hrow']))
    cases hconflicts : conflicts row with
    | true =>
      have hne := hold row (by simp) hconflicts
      simpa [hconflicts, hne] using ih
    | false =>
      by_cases hkey : key row = some k
      . simp [hconflicts, hkey]
      . simpa [hconflicts, hkey] using ih

section Upserts

variable [DecidableEq κ] (keyOf : α → κ)

-- Rows that are inserted one after the other, each in place of the one with its key.
def upserts (rows : List α) : List α :=
  rows.foldl (fun kept row => replace (keyOf · = keyOf row) kept row) []

@[simp]
theorem upserts_nil : upserts keyOf [] = [] := by
  rfl

@[simp]
theorem upserts_append_singleton (rows : List α) (row : α)
    : upserts keyOf (rows ++ [row]) = replace (keyOf · = keyOf row) (upserts keyOf rows) row := by
  simp [upserts]

-- What a table holds of a key is the row that was inserted last.
theorem find_upserts (rows : List α) (k : κ)
    : (upserts keyOf rows).find? (keyOf · = k) = rows.reverse.find? (keyOf · = k) := by
  induction rows using List.reverseRecOn with
  | nil => rfl
  | append_singleton rows row ih =>
    rw [upserts_append_singleton, List.reverse_append, List.reverse_singleton, List.singleton_append,
      List.find?_cons, replace, List.find?_append]
    by_cases hkey : keyOf row = k
    . have hnone : ((upserts keyOf rows).filter fun r => !decide (keyOf r = keyOf row)).find?
          (keyOf · = k) = none := by
        rw [List.find?_eq_none]
        intro r hr
        rw [List.mem_filter] at hr
        simpa [hkey] using hr.2
      rw [hnone]
      simp [hkey]
    . have hfilter : ((upserts keyOf rows).filter fun r => !decide (keyOf r = keyOf row)).find?
          (keyOf · = k) = (upserts keyOf rows).find? (keyOf · = k) := by
        rw [List.find?_filter]
        congr 1
        funext r
        by_cases hr : keyOf r = k
        . simp [hr, Ne.symm hkey]
        . simp [hr]
      rw [hfilter, ih]
      simp [hkey]

theorem nodup_upserts (rows : List α) : ((upserts keyOf rows).map keyOf).Nodup := by
  induction rows using List.reverseRecOn with
  | nil => simp
  | append_singleton rows row ih =>
    rw [upserts_append_singleton, replace, List.map_append, List.nodup_append]
    refine ⟨ih.sublist (List.filter_sublist.map keyOf), by simp, ?_⟩
    intro k hk k' hk' heq
    rcases List.mem_map.mp hk with ⟨r, hr, rfl⟩
    rw [List.mem_filter] at hr
    simp at hk' hr
    exact hr.2 (heq.trans hk')

theorem mem_upserts_iff {rows : List α} {row : α}
    : row ∈ upserts keyOf rows ↔ rows.reverse.find? (keyOf · = keyOf row) = some row := by
  rw [← find_upserts]
  constructor
  . intro hmem
    cases hfind : (upserts keyOf rows).find? (keyOf · = keyOf row) with
    | none =>
      have := List.find?_eq_none.mp hfind row hmem
      simp at this
    | some r =>
      have hkey := List.find?_some hfind
      have heq := List.inj_on_of_nodup_map (nodup_upserts keyOf rows) (List.mem_of_find?_eq_some hfind)
        hmem (by simpa using hkey)
      rw [heq]
  . intro hfind
    exact List.mem_of_find?_eq_some hfind

theorem mem_map_upserts_iff {rows : List α} {k : κ}
    : k ∈ (upserts keyOf rows).map keyOf ↔ k ∈ rows.map keyOf := by
  induction rows using List.reverseRecOn with
  | nil => simp
  | append_singleton rows row ih =>
    rw [upserts_append_singleton, List.map_append, List.mem_append, ← ih]
    simp only [List.mem_map, mem_replace, List.mem_singleton, decide_eq_false_iff_not]
    constructor
    . rintro ⟨r, hr | rfl, rfl⟩
      . exact .inl ⟨r, hr.1, rfl⟩
      . exact .inr ⟨r, rfl, rfl⟩
    . rintro (⟨r, hr, rfl⟩ | ⟨r, rfl, rfl⟩)
      . by_cases hkey : keyOf r = keyOf row
        . exact ⟨row, .inr rfl, hkey.symm⟩
        . exact ⟨r, .inl ⟨hr, hkey⟩, rfl⟩
      . exact ⟨r, .inr rfl, rfl⟩

-- There is one row for each key.
theorem length_upserts (rows : List α)
    : (upserts keyOf rows).length = (rows.map keyOf).dedup.length := by
  have hperm : ((upserts keyOf rows).map keyOf).Perm (rows.map keyOf).dedup := by
    rw [List.perm_ext_iff_of_nodup (nodup_upserts keyOf rows) (List.nodup_dedup _)]
    intro k
    rw [List.mem_dedup, mem_map_upserts_iff]
  simpa using hperm.length_eq

end Upserts

end Table
