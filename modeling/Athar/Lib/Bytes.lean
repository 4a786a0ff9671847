import Mathlib.Data.List.Basic
import Mathlib.Algebra.Order.Group.Nat

/-!
This module contains the fixed-width big endian encoding of natural numbers.
-/

namespace Bytes

def bigEndian : (w : Nat) → (n : Nat) → List UInt8
  | 0, _ => []
  | w + 1, n => UInt8.ofNat (n / 256 ^ w) :: bigEndian w n

@[simp]
theorem length_bigEndian (w n : Nat) : (bigEndian w n).length = w := by
  induction w with
  | zero => rfl
  | succ w ih => simp [bigEndian, ih]

theorem bigEndian_inj {w n m : Nat} (h : bigEndian w n = bigEndian w m)
    : n % 256 ^ w = m % 256 ^ w := by
  induction w with
  | zero => simp [Nat.mod_one]
  | succ w ih =>
    simp only [bigEndian, List.cons.injEq] at h
    have hhead : n / 256 ^ w % 256 = m / 256 ^ w % 256 := by
      have := congrArg UInt8.toNat h.1
      simpa using this
    rw [Nat.mod_pow_succ, Nat.mod_pow_succ, hhead, ih h.2]

theorem bigEndian_inj_of_lt {w n m : Nat} (hn : n < 256 ^ w) (hm : m < 256 ^ w)
    (h : bigEndian w n = bigEndian w m) : n = m := by
  have := bigEndian_inj h
  rwa [Nat.mod_eq_of_lt hn, Nat.mod_eq_of_lt hm] at this

end Bytes
