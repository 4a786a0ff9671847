import Mathlib.Data.List.Basic

/-!
This module contains ordered lists of keyed values: assigning a key replaces its value in place, or
appends the pair when the key is new. What a test finds in such a list splits into what it finds
under one key and what it finds without that key, so an assignment only changes the first part.
-/

namespace Entries

variable {κ ν μ : Type*} [DecidableEq κ]

def set (key : κ) (value : ν) : List (κ × ν) → List (κ × ν)
  | [] => [(key, value)]
  | (k, v) :: entries =>
    if k = key then (key, value) :: entries else (k, v) :: set key value entries

def without (key : κ) : List (κ × ν) → List (κ × ν)
  | [] => []
  | (k, v) :: entries => if k = key then entries else (k, v) :: without key entries

theorem lookup_cons_of_ne {key k : κ} (h : k ≠ key) (v : ν) (entries : List (κ × ν))
    : ((k, v) :: entries).lookup key = entries.lookup key := by
  have : (key == k) = false := by
    simpa using fun h' => h h'.symm
  rw [List.lookup_cons, this]

theorem any_eq (p : κ × ν → Bool) (key : κ) (entries : List (κ × ν))
    : entries.any p
        = ((entries.lookup key).any (fun v => p (key, v)) || (without key entries).any p) := by
  induction entries with
  | nil => rfl
  | cons entry entries ih =>
    rcases entry with ⟨k, v⟩
    unfold without
    by_cases hk : k = key
    . subst hk
      simp
    . rw [lookup_cons_of_ne hk, if_neg hk, List.any_cons, List.any_cons, ih]
      exact Bool.or_left_comm _ _ _

theorem any_set (p : κ × ν → Bool) (key : κ) (value : ν) (entries : List (κ × ν))
    : (set key value entries).any p = (p (key, value) || (without key entries).any p) := by
  induction entries with
  | nil => rfl
  | cons entry entries ih =>
    rcases entry with ⟨k, v⟩
    unfold set without
    by_cases hk : k = key
    . rw [if_pos hk, if_pos hk, List.any_cons]
    . rw [if_neg hk, if_neg hk, List.any_cons, List.any_cons, ih]
      exact Bool.or_left_comm _ _ _

/--
An assignment changes nothing for a test that says the same of the value it replaces and of the one
it writes.
-/
theorem any_set_eq_any {p : κ × ν → Bool} {key : κ} {value : ν} {entries : List (κ × ν)}
    (h : (entries.lookup key).any (fun v => p (key, v)) = p (key, value))
    : (set key value entries).any p = entries.any p := by
  rw [any_set, any_eq p key entries, h]

theorem lookup_set_of_ne {key other : κ} (h : key ≠ other) (value : ν) (entries : List (κ × ν))
    : (set key value entries).lookup other = entries.lookup other := by
  induction entries with
  | nil =>
    unfold set
    exact lookup_cons_of_ne h value []
  | cons entry entries ih =>
    rcases entry with ⟨k, v⟩
    unfold set
    by_cases hk : k = key
    . subst hk
      rw [if_pos rfl, lookup_cons_of_ne h, lookup_cons_of_ne h]
    . rw [if_neg hk, List.lookup_cons, List.lookup_cons, ih]

theorem lookup_set_self (key : κ) (value : ν) (entries : List (κ × ν))
    : (set key value entries).lookup key = some value := by
  induction entries with
  | nil => simp [set]
  | cons entry entries ih =>
    rcases entry with ⟨k, v⟩
    unfold set
    split
    . simp
    . next hne => rw [lookup_cons_of_ne hne, ih]

theorem set_of_lookup {key : κ} {value : ν} {entries : List (κ × ν)}
    (h : entries.lookup key = some value) : set key value entries = entries := by
  induction entries with
  | nil => contradiction
  | cons entry entries ih =>
    rcases entry with ⟨k, v⟩
    unfold set
    by_cases hk : k = key
    . subst hk
      rw [if_pos rfl]
      simp_all
    . rw [lookup_cons_of_ne hk] at h
      rw [if_neg hk, ih h]

theorem lookup_without_of_ne {key other : κ} (h : key ≠ other) (entries : List (κ × ν))
    : (without key entries).lookup other = entries.lookup other := by
  induction entries with
  | nil => rfl
  | cons entry entries ih =>
    rcases entry with ⟨k, v⟩
    unfold without
    by_cases hk : k = key
    . subst hk
      rw [if_pos rfl, lookup_cons_of_ne h]
    . rw [if_neg hk, List.lookup_cons, List.lookup_cons, ih]

theorem without_set_of_ne {key other : κ} (h : key ≠ other) (value : ν) (entries : List (κ × ν))
    : without other (set key value entries) = set key value (without other entries) := by
  induction entries with
  | nil => simp [set, without, h]
  | cons entry entries ih =>
    rcases entry with ⟨k, v⟩
    by_cases hk : k = key
    . subst hk
      simp [set, without, h]
    . by_cases hother : k = other
      . subst hother
        simp [set, without, hk]
      . simp [set, without, hk, hother, ih]

theorem mem_without_of_ne {key k : κ} {v : ν} {entries : List (κ × ν)} (h : (k, v) ∈ entries)
    (hne : k ≠ key) : (k, v) ∈ without key entries := by
  induction entries with
  | nil => cases h
  | cons entry entries ih =>
    unfold without
    rcases List.mem_cons.mp h with heq | hmem
    . subst heq
      rw [if_neg hne]
      exact List.mem_cons_self
    . split
      . exact hmem
      . exact List.mem_cons_of_mem _ (ih hmem)

section Selected

-- Some keys are kept, with their values rewritten.
def selected (keep : κ → Bool) (f : ν → μ) (entries : List (κ × ν)) : List (κ × μ) :=
  (entries.filter (fun e => keep e.1)).map (fun e => (e.1, f e.2))

variable {keep : κ → Bool} {f : ν → μ}

omit [DecidableEq κ] in
theorem selected_cons_of_keep {key : κ} (h : keep key = true) (value : ν) (entries : List (κ × ν))
    : selected keep f ((key, value) :: entries) = (key, f value) :: selected keep f entries := by
  simp [selected, h]

omit [DecidableEq κ] in
theorem selected_cons_of_drop {key : κ} (h : keep key = false) (value : ν) (entries : List (κ × ν))
    : selected keep f ((key, value) :: entries) = selected keep f entries := by
  simp [selected, h]

theorem lookup_selected {key : κ} (h : keep key = true) (entries : List (κ × ν))
    : (selected keep f entries).lookup key = (entries.lookup key).map f := by
  induction entries with
  | nil => rfl
  | cons entry entries ih =>
    rcases entry with ⟨k, v⟩
    by_cases hk : k = key
    . subst hk
      rw [selected_cons_of_keep h, List.lookup_cons_self, List.lookup_cons_self]
      rfl
    . rw [lookup_cons_of_ne hk, ← ih]
      cases hkeep : keep k with
      | true => rw [selected_cons_of_keep hkeep, lookup_cons_of_ne hk]
      | false => rw [selected_cons_of_drop hkeep]

theorem without_selected {key : κ} (h : keep key = true) (entries : List (κ × ν))
    : without key (selected keep f entries) = selected keep f (without key entries) := by
  induction entries with
  | nil => rfl
  | cons entry entries ih =>
    rcases entry with ⟨k, v⟩
    by_cases hk : k = key
    . subst hk
      simp [selected_cons_of_keep h, without]
    . cases hkeep : keep k with
      | true => simp [selected_cons_of_keep hkeep, without, hk, ih]
      | false => simp [selected_cons_of_drop hkeep, without, hk, ih]

theorem set_selected {key : κ} (h : keep key = true) (value : ν) (entries : List (κ × ν))
    : set key (f value) (selected keep f entries) = selected keep f (set key value entries) := by
  induction entries with
  | nil => simp [selected, set, h]
  | cons entry entries ih =>
    rcases entry with ⟨k, v⟩
    by_cases hk : k = key
    . subst hk
      simp [selected_cons_of_keep h, set]
    . cases hkeep : keep k with
      | true => simp [selected_cons_of_keep hkeep, set, hk, ih]
      | false => simp [selected_cons_of_drop hkeep, set, hk, ih]

end Selected

end Entries
