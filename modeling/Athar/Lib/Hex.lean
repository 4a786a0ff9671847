import Mathlib.Data.List.Basic

/-!
This module contains hexadecimal names: numbers padded to sixteen digits, and reading them back from
a file name.
-/

namespace Hex

def hex16 (id : Nat) : List Char :=
  List.leftpad 16 '0' (Nat.toDigits 16 id)

def hexDigit (ch : Char) : Option Nat :=
  if '0' ≤ ch ∧ ch ≤ '9' then
    some (ch.toNat - '0'.toNat)
  else if 'a' ≤ ch ∧ ch ≤ 'f' then
    some (ch.toNat - 'a'.toNat + 10)
  else if 'A' ≤ ch ∧ ch ≤ 'F' then
    some (ch.toNat - 'A'.toNat + 10)
  else
    none

-- A number that overflows 64 bits is refused. Numbers have no bound here, so a name that `hex16` gives to
-- a larger one still reads as that number.
def fromStrRadix16 (stem : List Char) : Option Nat :=
  let digits := if stem.head? = some '+' then stem.tail else stem
  if digits.isEmpty then
    none
  else
    (digits.foldlM (fun acc ch => (hexDigit ch).map (fun d => acc * 16 + d)) 0).filter
      fun id => id < UInt64.size ∨ stem = hex16 id

def stripSuffix (name suffix : List Char) : Option (List Char) :=
  if suffix <:+ name then some (name.take (name.length - suffix.length)) else none

theorem hexDigit_digitChar {d : Nat} (h : d < 16) : hexDigit d.digitChar = some d := by
  have : ∀ d : Fin 16, hexDigit d.val.digitChar = some d.val := by decide
  exact this ⟨d, h⟩

theorem toDigits_foldlM (id : Nat)
    : (Nat.toDigits 16 id).foldlM (fun acc ch => (hexDigit ch).map (fun d => acc * 16 + d)) 0
        = some id := by
  induction id using Nat.strongRecOn with
  | ind id ih =>
    rw [Nat.toDigits_eq_if (by omega)]
    split
    . next hlt => simp [hexDigit_digitChar hlt]
    . next hge =>
      have hdiv : id / 16 < id := by omega
      have hmod : id % 16 < 16 := by omega
      rw [List.foldlM_append, ih (id / 16) hdiv]
      simp only [Option.bind_eq_bind, Option.bind_some, List.foldlM_cons, List.foldlM_nil,
        hexDigit_digitChar hmod, Option.map_some, Option.pure_def, Option.some.injEq]
      omega

theorem hexDigit_zero : hexDigit '0' = some 0 := by
  decide

theorem replicate_foldlM (n : Nat) (ds : List Char)
    : (List.replicate n '0' ++ ds).foldlM
          (fun acc ch => (hexDigit ch).map (fun d => acc * 16 + d)) 0
        = ds.foldlM (fun acc ch => (hexDigit ch).map (fun d => acc * 16 + d)) 0 := by
  induction n with
  | zero => rfl
  | succ n ih =>
    rw [List.replicate_succ, List.cons_append, List.foldlM_cons, hexDigit_zero]
    exact ih

theorem hexDigit_of_mem_toDigits (id : Nat) : ∀ ch ∈ Nat.toDigits 16 id, hexDigit ch ≠ none := by
  induction id using Nat.strongRecOn with
  | ind id ih =>
    rw [Nat.toDigits_eq_if (by omega)]
    split
    . next hlt => simp [hexDigit_digitChar hlt]
    . next hge =>
      intro ch hch
      cases List.mem_append.mp hch with
      | inl hmem => exact ih (id / 16) (by omega) ch hmem
      | inr hmem =>
        have hdigit : ch = (id % 16).digitChar := by simpa using hmem
        have hlt : id % 16 < 16 := by omega
        rw [hdigit, hexDigit_digitChar hlt]
        simp

theorem hexDigit_of_mem_hex16 {id : Nat} {ch : Char} (h : ch ∈ hex16 id) : hexDigit ch ≠ none := by
  rw [hex16, List.leftpad, List.mem_append] at h
  cases h with
  | inl hpad =>
    rw [List.eq_of_mem_replicate hpad, hexDigit_zero]
    simp
  | inr hdig => exact hexDigit_of_mem_toDigits id ch hdig

theorem fromStrRadix16_hex16 (id : Nat) : fromStrRadix16 (hex16 id) = some id := by
  have hne : hex16 id ≠ [] := by
    simp [hex16, List.leftpad, Nat.toDigits_ne_nil]
  have hplus : (hex16 id).head? ≠ some '+' := by
    intro hhead
    have hmem : '+' ∈ hex16 id := List.mem_of_mem_head? (by rw [hhead]; rfl)
    exact hexDigit_of_mem_hex16 hmem (by decide)
  unfold fromStrRadix16
  simp only [hplus, ↓reduceIte, List.isEmpty_iff, hne]
  have hdigits : (hex16 id).foldlM (fun acc ch => (hexDigit ch).map (fun d => acc * 16 + d)) 0 = some id := by
    rw [hex16, List.leftpad, replicate_foldlM]
    apply toDigits_foldlM
  rw [hdigits, Option.filter_some]
  simp

theorem stripSuffix_append (stem suffix : List Char)
    : stripSuffix (stem ++ suffix) suffix = some stem := by
  simp [stripSuffix]

end Hex
