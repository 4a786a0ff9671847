import Mathlib.Algebra.Order.Group.Nat
import Mathlib.Data.Char
import Mathlib.Data.List.Induction
import Mathlib.Data.List.Lex

/-!
This module contains numerals of a fixed width and their lexicographic order. With all digits written,
the most significant one first, and digits that are ordered like the numbers they stand for, a smaller
number has the smaller numeral, and the numeral determines the number.
-/

namespace Digits

section Lex

variable {α β : Type*}

-- A list of the length of another one is compared with it first.
theorem append_lt_append_iff [LT α] {l l' r r' : List α} (h : l.length = l'.length)
    : l ++ r < l' ++ r' ↔ l < l' ∨ l = l' ∧ r < r' := by
  induction l generalizing l' with
  | nil =>
    rw [List.length_nil, eq_comm, List.length_eq_zero_iff] at h
    simp [h]
  | cons a l ih =>
    cases l' with
    | nil => contradiction
    | cons a' l' =>
      rw [List.cons_append, List.cons_append, List.cons_lt_cons_iff, List.cons_lt_cons_iff,
        ih (Nat.succ.inj h), List.cons.injEq]
      tauto

theorem map_lt_map_iff [LT α] [LT β] {f : α → β} {l l' : List α}
    (h : ∀ a ∈ l, ∀ a' ∈ l', f a < f a' ↔ a < a') (hinj : ∀ a ∈ l, ∀ a' ∈ l', f a = f a' → a = a')
    : l.map f < l'.map f ↔ l < l' := by
  induction l generalizing l' with
  | nil => cases l' <;> simp
  | cons a l ih =>
    cases l' with
    | nil => simp
    | cons a' l' =>
      have hhead : f a = f a' ↔ a = a' := by
        constructor
        . exact hinj a (by simp) a' (by simp)
        . intro heq
          rw [heq]
      rw [List.map_cons, List.map_cons, List.cons_lt_cons_iff, List.cons_lt_cons_iff,
        h a (by simp) a' (by simp), hhead, ih]
      . intro x hx x' hx'
        exact h x (by simp [hx]) x' (by simp [hx'])
      . intro x hx x' hx'
        exact hinj x (by simp [hx]) x' (by simp [hx'])

end Lex

variable {b width n m : ℕ}

-- The last digits of a number, the most significant one first.
def fixed (b : ℕ) : ℕ → ℕ → List ℕ
  | 0, _ => []
  | width + 1, n => fixed b width (n / b) ++ [n % b]

@[simp]
theorem length_fixed (b width n : ℕ) : (fixed b width n).length = width := by
  induction width generalizing n with
  | zero => rfl
  | succ width ih => simp [fixed, ih]

theorem lt_of_mem_fixed (hb : 0 < b) {d : ℕ} (h : d ∈ fixed b width n) : d < b := by
  induction width generalizing n with
  | zero => simp [fixed] at h
  | succ width ih =>
    rw [fixed, List.mem_append, List.mem_singleton] at h
    cases h with
    | inl hfront => exact ih hfront
    | inr hlast =>
      rw [hlast]
      exact Nat.mod_lt n hb

theorem fixed_zero (b width : ℕ) : fixed b width 0 = List.replicate width 0 := by
  induction width with
  | zero => rfl
  | succ width ih => rw [fixed, Nat.zero_div, Nat.zero_mod, ih, List.replicate_succ']

theorem div_lt_pow (h : n < b ^ (width + 1)) : n / b < b ^ width := by
  apply Nat.div_lt_of_lt_mul
  rwa [← Nat.pow_succ']

theorem fixed_inj (hn : n < b ^ width) (hm : m < b ^ width) (h : fixed b width n = fixed b width m)
    : n = m := by
  induction width generalizing n m with
  | zero =>
    rw [Nat.pow_zero] at hn hm
    omega
  | succ width ih =>
    obtain ⟨hfront, hlast⟩ := List.append_inj' h rfl
    have hdiv := ih (div_lt_pow hn) (div_lt_pow hm) hfront
    rw [← Nat.div_add_mod n b, ← Nat.div_add_mod m b, hdiv, List.singleton_inj.mp hlast]

theorem lt_iff_div_mod (hb : 0 < b) : n < m ↔ n / b < m / b ∨ n / b = m / b ∧ n % b < m % b := by
  have hn := Nat.div_add_mod n b
  have hm := Nat.div_add_mod m b
  have hmod := Nat.mod_lt n hb
  constructor
  . intro h
    cases Nat.lt_or_eq_of_le (Nat.div_le_div_right (c := b) h.le) with
    | inl hlt => exact Or.inl hlt
    | inr heq =>
      rw [heq] at hn
      omega
  . intro h
    cases h with
    | inl hlt =>
      have hstep := Nat.mul_le_mul_left b (Nat.succ_le_of_lt hlt)
      rw [Nat.mul_succ] at hstep
      omega
    | inr heq =>
      rw [heq.1] at hn
      omega

theorem fixed_lt_fixed_iff (hb : 0 < b) (hn : n < b ^ width) (hm : m < b ^ width)
    : fixed b width n < fixed b width m ↔ n < m := by
  induction width generalizing n m with
  | zero =>
    rw [Nat.pow_zero] at hn hm
    simp [fixed]
    omega
  | succ width ih =>
    have hinj : fixed b width (n / b) = fixed b width (m / b) ↔ n / b = m / b := by
      constructor
      . exact fixed_inj (div_lt_pow hn) (div_lt_pow hm)
      . intro heq
        rw [heq]
    rw [fixed, fixed, append_lt_append_iff (by simp), ih (div_lt_pow hn) (div_lt_pow hm), hinj,
      lt_iff_div_mod (n := n) (m := m) hb]
    simp [List.cons_lt_cons_iff]

section Value

variable {ds es : List ℕ}

-- The number that a list of digits stands for, the most significant one first.
def value (b : ℕ) (ds : List ℕ) : ℕ :=
  ds.foldl (fun n d => b * n + d) 0

@[simp]
theorem value_concat (b : ℕ) (ds : List ℕ) (d : ℕ) : value b (ds ++ [d]) = b * value b ds + d := by
  simp [value]

theorem value_lt (h : ∀ d ∈ ds, d < b) : value b ds < b ^ ds.length := by
  induction ds using List.reverseRecOn with
  | nil => simp [value]
  | append_singleton ds d ih =>
    have hd := h d (by simp)
    have hds := Nat.mul_le_mul_left b (Nat.succ_le_of_lt (ih fun e he => h e (by simp [he])))
    rw [Nat.mul_succ] at hds
    rw [value_concat, List.length_append, List.length_singleton, Nat.pow_succ']
    omega

-- The number has the digits that it was read from.
theorem fixed_value (h : ∀ d ∈ ds, d < b) : fixed b ds.length (value b ds) = ds := by
  induction ds using List.reverseRecOn with
  | nil => rfl
  | append_singleton ds d ih =>
    have hd := h d (by simp)
    have hb : 0 < b := by omega
    rw [value_concat, List.length_append, List.length_singleton, fixed, Nat.mul_add_div hb,
      Nat.div_eq_of_lt hd, Nat.add_zero, Nat.mul_add_mod, Nat.mod_eq_of_lt hd,
      ih fun e he => h e (by simp [he])]

theorem value_inj (hds : ∀ d ∈ ds, d < b) (hes : ∀ e ∈ es, e < b) (hlen : ds.length = es.length)
    (h : value b ds = value b es)
    : ds = es := by
  rw [← fixed_value hds, ← fixed_value hes, h, hlen]

end Value

section Cut

variable {α : Type*}

-- Numbers that are written one after the other in one width can be read back.
theorem flatMap_fixed_inj {ns ms : List ℕ} (hlen : ns.length = ms.length)
    (hns : ∀ n ∈ ns, n < b ^ width) (hms : ∀ m ∈ ms, m < b ^ width)
    (h : ns.flatMap (fixed b width) = ms.flatMap (fixed b width))
    : ns = ms := by
  induction ns generalizing ms with
  | nil =>
    rw [List.length_nil, eq_comm, List.length_eq_zero_iff] at hlen
    rw [hlen]
  | cons n ns ih =>
    cases ms with
    | nil => contradiction
    | cons m ms =>
      rw [List.flatMap_cons, List.flatMap_cons] at h
      obtain ⟨hhead, htail⟩ := List.append_inj h (by simp)
      rw [fixed_inj (hns n (by simp)) (hms m (by simp)) hhead,
        ih (Nat.succ.inj hlen) (fun x hx => hns x (by simp [hx])) (fun x hx => hms x (by simp [hx])) htail]

-- One of the pieces of equal length that a list is cut into.
def piece (size : ℕ) (l : List α) (i : ℕ) : List α :=
  (l.drop (i * size)).take size

theorem flatMap_piece (size count : ℕ) (l : List α)
    : (List.range count).flatMap (piece size l) = l.take (count * size) := by
  induction count with
  | zero => simp
  | succ count ih => simp [List.range_succ, List.flatMap_append, ih, piece, Nat.succ_mul, List.take_add]

theorem eq_of_piece_eq {size count : ℕ} {l l' : List α} (hl : l.length = count * size)
    (hl' : l'.length = count * size) (h : ∀ i < count, piece size l i = piece size l' i)
    : l = l' := by
  have hcut : (List.range count).flatMap (piece size l) = (List.range count).flatMap (piece size l') := by
    apply List.flatMap_congr
    intro i hi
    exact h i (List.mem_range.mp hi)
  rwa [flatMap_piece, flatMap_piece, List.take_of_length_le hl.le, List.take_of_length_le hl'.le] at hcut

end Cut

section Numeral

variable {α : Type*} {f : ℕ → α}

def numeral (f : ℕ → α) (b width n : ℕ) : List α :=
  (fixed b width n).map f

@[simp]
theorem length_numeral (f : ℕ → α) (b width n : ℕ) : (numeral f b width n).length = width := by
  simp [numeral]

variable [LinearOrder α]

-- The digits below a base are ordered like their values.
def Increasing (b : ℕ) (f : ℕ → α) : Prop :=
  ∀ d < b, ∀ e < b, f d < f e ↔ d < e

-- Two pairs that are ordered alike are also equal alike.
theorem eq_iff_of_lt_iff {β : Type*} [LinearOrder β] {x y : α} {z w : β} (hlt : x < y ↔ z < w)
    (hgt : y < x ↔ w < z)
    : x = y ↔ z = w := by
  simp only [le_antisymm_iff, ← not_lt, hlt, hgt]

theorem Increasing.inj (hf : Increasing b f) {d e : ℕ} (hd : d < b) (he : e < b) (h : f d = f e)
    : d = e :=
  (eq_iff_of_lt_iff (hf d hd e he) (hf e he d hd)).mp h

theorem numeral_lt_numeral_iff (hf : Increasing b f) (hb : 0 < b) (hn : n < b ^ width)
    (hm : m < b ^ width)
    : numeral f b width n < numeral f b width m ↔ n < m := by
  unfold numeral
  rw [map_lt_map_iff, fixed_lt_fixed_iff hb hn hm]
  . intro d hd e he
    exact hf d (lt_of_mem_fixed hb hd) e (lt_of_mem_fixed hb he)
  . intro d hd e he
    exact hf.inj (lt_of_mem_fixed hb hd) (lt_of_mem_fixed hb he)

theorem numeral_eq_numeral_iff (hf : Increasing b f) (hb : 0 < b) (hn : n < b ^ width)
    (hm : m < b ^ width)
    : numeral f b width n = numeral f b width m ↔ n = m := by
  apply eq_iff_of_lt_iff
  . exact numeral_lt_numeral_iff hf hb hn hm
  . exact numeral_lt_numeral_iff hf hb hm hn

-- Texts that begin with a numeral are ordered by its number first.
theorem numeral_append_lt_iff (hf : Increasing b f) (hb : 0 < b) (hn : n < b ^ width)
    (hm : m < b ^ width) {r r' : List α}
    : numeral f b width n ++ r < numeral f b width m ++ r' ↔ n < m ∨ n = m ∧ r < r' := by
  rw [append_lt_append_iff (by simp), numeral_lt_numeral_iff hf hb hn hm,
    numeral_eq_numeral_iff hf hb hn hm]

end Numeral

theorem leftpad_concat {α : Type*} (width : ℕ) (a x : α) (l : List α)
    : List.leftpad (width + 1) a (l ++ [x]) = List.leftpad width a l ++ [x] := by
  simp [List.leftpad]

-- Padding with zeros writes all digits out.
theorem leftpad_toDigits (hb : 1 < b) (h : n < b ^ (width + 1))
    : List.leftpad (width + 1) '0' (Nat.toDigits b n) = numeral Nat.digitChar b (width + 1) n := by
  induction width generalizing n with
  | zero =>
    rw [Nat.zero_add, Nat.pow_one] at h
    rw [Nat.toDigits_of_lt_base h]
    simp [numeral, fixed, List.leftpad, Nat.mod_eq_of_lt h]
  | succ width ih =>
    have hsplit : numeral Nat.digitChar b (width + 1 + 1) n
        = numeral Nat.digitChar b (width + 1) (n / b) ++ [(n % b).digitChar] := by
      rw [numeral, fixed, List.map_append]
      rfl
    rw [hsplit, Nat.toDigits_eq_if hb]
    split
    . next hlt =>
      rw [← List.nil_append [n.digitChar], leftpad_concat, Nat.mod_eq_of_lt hlt, Nat.div_eq_of_lt hlt,
        numeral, fixed_zero]
      simp [List.leftpad]
    . rw [leftpad_concat, ih (div_lt_pow h)]

theorem increasing_digitChar (hb : b ≤ 16) : Increasing b Nat.digitChar := by
  have hall : ∀ d e : Fin 16, d.val.digitChar < e.val.digitChar ↔ d.val < e.val := by decide
  intro d hd e he
  exact hall ⟨d, by omega⟩ ⟨e, by omega⟩

end Digits
