import Athar.Lib.Digits

/-!
This module contains the bytes of texts in ASCII, which are the codes of the characters.
-/

namespace Ascii

def IsText (text : List Char) : Prop :=
  ∀ ch ∈ text, ch.toNat < 128

@[simp]
theorem isText_nil : IsText [] := by
  simp [IsText]

@[simp]
theorem isText_cons {ch : Char} {text : List Char} : IsText (ch :: text) ↔ ch.toNat < 128 ∧ IsText text :=
  List.forall_mem_cons

@[simp]
theorem isText_append {s t : List Char} : IsText (s ++ t) ↔ IsText s ∧ IsText t :=
  List.forall_mem_append

theorem isText_numeral {b : ℕ} (hpos : 0 < b) (hb : b ≤ 16) (width n : ℕ)
    : IsText (Digits.numeral Nat.digitChar b width n) := by
  have hall : ∀ d : Fin 16, d.val.digitChar.toNat < 128 := by decide
  intro ch hch
  obtain ⟨d, hd, rfl⟩ := List.mem_map.mp hch
  have hlt := Digits.lt_of_mem_fixed hpos hd
  exact hall ⟨d, by omega⟩

def code (ch : Char) : UInt8 :=
  ch.val.toUInt8

theorem toNat_code {ch : Char} (h : ch.toNat < 128) : (code ch).toNat = ch.toNat := by
  have hcode : (code ch).toNat = ch.toNat % 2 ^ 8 := rfl
  omega

theorem utf8EncodeChar_eq {ch : Char} (h : ch.toNat < 128) : String.utf8EncodeChar ch = [code ch] := by
  apply String.utf8EncodeChar_eq_singleton
  rw [Char.utf8Size_eq_one_iff, UInt32.le_iff_toNat_le]
  exact Nat.le_of_lt_succ h

theorem toList_utf8Encode {text : List Char} (h : IsText text)
    : text.utf8Encode.data.toList = text.map code := by
  unfold List.utf8Encode
  rw [List.toList_data_toByteArray]
  induction text with
  | nil => rfl
  | cons ch text ih =>
    rw [List.flatMap_cons, utf8EncodeChar_eq (h ch (by simp)), List.map_cons, List.singleton_append,
      ih fun c hc => h c (by simp [hc])]

theorem code_lt_iff {a b : Char} (ha : a.toNat < 128) (hb : b.toNat < 128) : code a < code b ↔ a < b := by
  rw [UInt8.lt_iff_toNat_lt, toNat_code ha, toNat_code hb]
  rfl

theorem code_inj {a b : Char} (ha : a.toNat < 128) (hb : b.toNat < 128) (h : code a = code b) : a = b := by
  apply Char.toNat_inj.mp
  rw [← toNat_code ha, ← toNat_code hb, h]

-- The bytes of texts are ordered like the texts.
theorem bytes_lt_iff {s t : String} (hs : IsText s.toList) (ht : IsText t.toList)
    : s.toUTF8.data.toList < t.toUTF8.data.toList ↔ s.toList < t.toList := by
  rw [String.toUTF8, String.toUTF8, ← String.utf8Encode_toList, ← String.utf8Encode_toList,
    toList_utf8Encode hs, toList_utf8Encode ht]
  apply Digits.map_lt_map_iff
  . intro a ha b hb
    exact code_lt_iff (hs a ha) (ht b hb)
  . intro a ha b hb
    exact code_inj (hs a ha) (ht b hb)

end Ascii
