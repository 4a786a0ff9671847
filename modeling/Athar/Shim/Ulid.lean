import Mathlib.Data.List.GetD
import Mathlib.Tactic.IntervalCases
import Athar.Event.Impl.Schema
import Athar.Lib.Ascii
import Athar.Shim.Impl.Ulid

/-!
This module contains the properties of the event identifiers that the shim generates. They have the
format of the schema, they are ordered in time, and nothing of what goes into them is lost.
-/

namespace Athar.Shim.Ulid

open Digits

-- The digit of a number below 32.
def digit (i : ℕ) : Char :=
  ALPHABET.toList.getD i '0'

theorem offset_eq {i : ℕ} (h : i < 32) : offset i = [digit i] := by
  have hlen : i < ALPHABET.toList.length := h
  unfold offset digit
  rw [List.getD_eq_getElem _ _ hlen, List.getElem?_eq_getElem hlen]
  rfl

theorem digit_mem {i : ℕ} (h : i < 32) : digit i ∈ ALPHABET.toList := by
  have hlen : i < ALPHABET.toList.length := h
  unfold digit
  rw [List.getD_eq_getElem _ _ hlen]
  exact List.getElem_mem hlen

theorem increasing_digit : Increasing 32 digit := by
  have hall : ∀ d e : Fin 32, digit d < digit e ↔ d.val < e.val := by decide +kernel
  intro d hd e he
  exact hall ⟨d, hd⟩ ⟨e, he⟩

theorem toInt_shift (ts : Int64) : (ts >>> 5).toInt = ts.toInt / 32 := by
  have hshift : (ts >>> 5).toBitVec = ts.toBitVec.sshiftRight 5 := by
    rw [Int64.toBitVec_shiftRight, BitVec.sshiftRight_eq']
    rfl
  rw [← Int64.toInt_toBitVec, hshift, BitVec.toInt_sshiftRight, Int.shiftRight_eq_div_pow]
  rfl

theorem toInt_mask (ts : Int64) : (ts &&& 0x1F).toInt = ts.toInt % 32 := by
  have hmod : ts.toBitVec.toNat &&& 31 = ts.toBitVec.toNat % 32 := Nat.and_two_pow_sub_one_eq_mod _ 5
  have hmask : (ts &&& 0x1F).toBitVec.toInt = Int.bmod (ts.toBitVec.toNat &&& 31 : ℕ) (2 ^ 64) := by
    rw [Int64.toBitVec_and, BitVec.toInt_and]
    rfl
  have hts := BitVec.toInt_eq_toNat_cond ts.toBitVec
  rw [hmod, Int.bmod_def] at hmask
  rw [Int64.toInt_toBitVec] at hmask hts
  split at hts <;> split at hmask <;> omega

theorem go_eq (out : List Char) {ts : Int64} (h : 0 ≤ ts.toInt) (rounds : ℕ)
    : encodeTimestamp.go out ts rounds = out ++ (numeral digit 32 rounds ts.toInt.toNat).reverse := by
  induction rounds generalizing out ts with
  | zero => simp [encodeTimestamp.go, numeral, fixed]
  | succ rounds ih =>
    have hdigit : (ts &&& 0x1F).toNatClampNeg = ts.toInt.toNat % 32 := by
      rw [← Int64.toNat_toInt, toInt_mask]
      omega
    have hrest : (ts >>> 5).toInt.toNat = ts.toInt.toNat / 32 := by
      rw [toInt_shift]
      omega
    have hpos : 0 ≤ (ts >>> 5).toInt := by
      rw [toInt_shift]
      omega
    rw [encodeTimestamp.go, ih _ hpos, hdigit, hrest, offset_eq (Nat.mod_lt _ (by decide))]
    simp [numeral, fixed]

theorem toList_encodeTimestamp {ts : Int64} (h : 0 ≤ ts.toInt)
    : (encodeTimestamp ts).toList = numeral digit 32 10 ts.toInt.toNat := by
  simp [encodeTimestamp, go_eq [] h]

example : encodeTimestamp 1469918176385 = "01ARYZ6S41" := by decide +kernel

-- The binary digits of the random bytes.
def binary (bytes : Vector UInt8 10) : List ℕ :=
  bytes.toList.flatMap fun byte => fixed 2 8 byte.toNat

theorem bits_eq (bytes : Vector UInt8 10) : bits bytes = (binary bytes).map Nat.digitChar := by
  rw [bits, binary, List.map_flatMap]
  apply List.flatMap_congr
  intro byte hbyte
  exact leftpad_toDigits (by decide) byte.toNat_lt

theorem lt_of_mem_binary {bytes : Vector UInt8 10} {d : ℕ} (h : d ∈ binary bytes) : d < 2 := by
  obtain ⟨byte, hbyte, hd⟩ := List.mem_flatMap.mp h
  exact lt_of_mem_fixed (by decide) hd

@[simp]
theorem length_binary (bytes : Vector UInt8 10) : (binary bytes).length = 80 := by
  simp [binary, List.length_flatMap]

theorem binary_inj {bytes bytes' : Vector UInt8 10} (h : binary bytes = binary bytes')
    : bytes = bytes' := by
  have hlt : ∀ bytes : Vector UInt8 10, ∀ n ∈ bytes.toList.map UInt8.toNat, n < 2 ^ 8 := by
    intro bytes n hn
    obtain ⟨byte, hbyte, rfl⟩ := List.mem_map.mp hn
    exact byte.toNat_lt
  have hnats : bytes.toList.map UInt8.toNat = bytes'.toList.map UInt8.toNat := by
    apply flatMap_fixed_inj (by simp) (hlt bytes) (hlt bytes')
    simpa [binary, List.flatMap_map] using h
  apply Vector.toList_inj.mp
  exact List.map_injective_iff.mpr (fun _ _ => UInt8.toNat_inj.mp) hnats

theorem digitChar_of_lt_two {d : ℕ} (h : d < 2) : d.digitChar = '0' ∨ d.digitChar = '1' := by
  interval_cases d <;> simp

theorem ofDigitChars_map {ds : List ℕ} (h : ∀ d ∈ ds, d < 2) (n : ℕ)
    : Nat.ofDigitChars 2 (ds.map Nat.digitChar) n = ds.foldl (fun n d => 2 * n + d) n := by
  induction ds generalizing n with
  | nil => simp
  | cons d ds ih =>
    have hd := h d (by simp)
    rw [List.map_cons, Nat.ofDigitChars_cons, List.foldl_cons, ih fun e he => h e (by simp [he])]
    interval_cases d <;> rfl

theorem bindec_map {ds : List ℕ} (h : ∀ d ∈ ds, d < 2) : bindec (ds.map Nat.digitChar) = value 2 ds := by
  have hkept : (ds.map Nat.digitChar).filter (fun ch => ch = '0' ∨ ch = '1') = ds.map Nat.digitChar := by
    apply List.filter_eq_self.mpr
    intro ch hch
    obtain ⟨d, hd, rfl⟩ := List.mem_map.mp hch
    simpa using digitChar_of_lt_two (h d hd)
  rw [bindec, hkept, ofDigitChars_map h, value]

-- The bits of one of the characters.
def chunk (bytes : Vector UInt8 10) (i : ℕ) : List ℕ :=
  piece 5 (binary bytes) i

theorem lt_of_mem_chunk {bytes : Vector UInt8 10} {i d : ℕ} (h : d ∈ chunk bytes i) : d < 2 :=
  lt_of_mem_binary (List.mem_of_mem_drop (List.mem_of_mem_take h))

theorem length_chunk (bytes : Vector UInt8 10) {i : ℕ} (h : i < 16) : (chunk bytes i).length = 5 := by
  simp [chunk, piece]
  omega

theorem value_chunk_lt (bytes : Vector UInt8 10) {i : ℕ} (h : i < 16) : value 2 (chunk bytes i) < 32 := by
  have hlt : value 2 (chunk bytes i) < 2 ^ (chunk bytes i).length :=
    value_lt fun _ => lt_of_mem_chunk
  rwa [length_chunk bytes h] at hlt

theorem bindec_substr (bytes : Vector UInt8 10) (i : ℕ)
    : bindec (substr (bits bytes) (i * 5) 5) = value 2 (chunk bytes i) := by
  rw [← bindec_map fun _ => lt_of_mem_chunk, substr, bits_eq, chunk, piece, List.map_take, List.map_drop]

theorem toList_encodeRandom (bytes : Vector UInt8 10)
    : (encodeRandom bytes).toList = (List.range 16).map fun i => digit (value 2 (chunk bytes i)) := by
  rw [encodeRandom, String.toList_ofList, List.map_eq_flatMap]
  apply List.flatMap_congr
  intro i hi
  rw [bindec_substr, offset_eq (value_chunk_lt bytes (List.mem_range.mp hi))]

theorem encodeRandom_inj {bytes bytes' : Vector UInt8 10} (h : encodeRandom bytes = encodeRandom bytes')
    : bytes = bytes' := by
  have hchars := congrArg String.toList h
  rw [toList_encodeRandom, toList_encodeRandom, List.map_inj_left] at hchars
  apply binary_inj
  have hlen : ∀ bytes : Vector UInt8 10, (binary bytes).length = 16 * 5 := length_binary
  apply eq_of_piece_eq (hlen bytes) (hlen bytes')
  intro i hi
  apply value_inj (b := 2)
  . exact fun _ => lt_of_mem_chunk
  . exact fun _ => lt_of_mem_chunk
  . exact (length_chunk bytes hi).trans (length_chunk bytes' hi).symm
  . exact increasing_digit.inj (value_chunk_lt bytes hi) (value_chunk_lt bytes' hi)
      (hchars i (List.mem_range.mpr hi))

theorem mem_oneOfChars {chars : String} {ch : Char} (h : ch ∈ chars.toList)
    : [ch] ∈ (EventSchema.oneOfChars chars).matches' := by
  unfold EventSchema.oneOfChars
  generalize chars.toList = alphabet at h
  induction alphabet with
  | nil => contradiction
  | cons c rest ih =>
    rw [List.map_cons, List.foldr_cons, RegularExpression.matches'_add, Language.mem_add]
    cases List.mem_cons.mp h with
    | inl heq =>
      left
      rw [heq]
      exact Set.mem_singleton [c]
    | inr hrest => exact Or.inr (ih hrest)

-- A text of characters that a class has matches as many copies of it.
theorem mem_replicate_oneOfChars {chars : String} {text : List Char} (h : ∀ ch ∈ text, ch ∈ chars.toList)
    : text ∈ (List.replicate text.length (EventSchema.oneOfChars chars)).prod.matches' := by
  induction text with
  | nil => simp
  | cons ch text ih =>
    rw [List.length_cons, List.replicate_succ]
    show ch :: text ∈ (EventSchema.oneOfChars chars * _).matches'
    rw [RegularExpression.matches'_mul, Language.mem_mul]
    exact ⟨[ch], mem_oneOfChars (h ch (by simp)), text, ih fun c hc => h c (by simp [hc]), rfl⟩

theorem mem_alphabet {ts : Int64} (h : 0 ≤ ts.toInt) (bytes : Vector UInt8 10) {ch : Char}
    (hch : ch ∈ (encodeTimestamp ts ++ encodeRandom bytes).toList)
    : ch ∈ ALPHABET.toList := by
  rw [String.toList_append, toList_encodeTimestamp h, toList_encodeRandom, List.mem_append, numeral,
    List.mem_map, List.mem_map] at hch
  obtain ⟨d, hd, rfl⟩ | ⟨i, hi, rfl⟩ := hch
  . exact digit_mem (lt_of_mem_fixed (by decide) hd)
  . exact digit_mem (value_chunk_lt bytes (List.mem_range.mp hi))

theorem length_ulid {ts : Int64} (h : 0 ≤ ts.toInt) (bytes : Vector UInt8 10)
    : (encodeTimestamp ts ++ encodeRandom bytes).toList.length = 26 := by
  rw [String.toList_append, toList_encodeTimestamp h, toList_encodeRandom]
  simp

theorem rmatch_ulidPattern {text : List Char} (h : ∀ ch ∈ text, ch ∈ ALPHABET.toList)
    (hlen : text.length = 26)
    : EventSchema.ulidPattern.rmatch text = true := by
  have hpattern : EventSchema.ulidPattern
      = (List.replicate text.length (EventSchema.oneOfChars ALPHABET)).prod := by
    rw [hlen]
    rfl
  rw [RegularExpression.rmatch_iff_matches', hpattern]
  exact mem_replicate_oneOfChars h

theorem rmatch_ulid {ts : Int64} (h : 0 ≤ ts.toInt) (bytes : Vector UInt8 10)
    : EventSchema.ulidPattern.rmatch (encodeTimestamp ts ++ encodeRandom bytes).toList = true := by
  apply rmatch_ulidPattern
  . intro ch hch
    exact mem_alphabet h bytes hch
  . exact length_ulid h bytes

theorem isText_ulid {ts : Int64} (h : 0 ≤ ts.toInt) (bytes : Vector UInt8 10)
    : Ascii.IsText (encodeTimestamp ts ++ encodeRandom bytes).toList := by
  have hall : ALPHABET.toList.all (fun ch => ch.toNat < 128) = true := by decide +kernel
  intro ch hch
  simpa using List.all_eq_true.mp hall ch (mem_alphabet h bytes hch)

-- An identifier that `generate` makes passes the check of the schema.
theorem ulid_generate {timestampMs : Option Int64} {now : Int64} (h : 0 ≤ (timestampMs.getD now).toInt)
    (rand : Vector UInt8 10)
    : EventSchema.ulid (.string (generate timestampMs now rand)) = true := by
  have hpattern : Schema.pattern EventSchema.ulidPattern (.string (generate timestampMs now rand)) = true :=
    rmatch_ulid h rand
  simp only [EventSchema.ulid, Schema.allOf, Schema.type, List.all_cons, List.any_cons, hpattern]
  rfl

theorem toNat_lt {ts : Int64} (hlt : ts < 2 ^ 50) : ts.toInt.toNat < 32 ^ 10 := by
  rw [Int64.lt_iff_toInt_lt] at hlt
  have hbound : (2 ^ 50 : Int64).toInt = 32 ^ 10 := by decide
  omega

theorem ulid_inj {ts ts' : Int64} {bytes bytes' : Vector UInt8 10} (hpos : 0 ≤ ts.toInt)
    (hlt : ts < 2 ^ 50) (hpos' : 0 ≤ ts'.toInt) (hlt' : ts' < 2 ^ 50)
    (h : encodeTimestamp ts ++ encodeRandom bytes = encodeTimestamp ts' ++ encodeRandom bytes')
    : ts = ts' ∧ bytes = bytes' := by
  have hchars := congrArg String.toList h
  rw [String.toList_append, String.toList_append, toList_encodeTimestamp hpos,
    toList_encodeTimestamp hpos'] at hchars
  obtain ⟨htime, hrandom⟩ := List.append_inj hchars (by simp)
  rw [numeral_eq_numeral_iff increasing_digit (by decide) (toNat_lt hlt) (toNat_lt hlt')] at htime
  constructor
  . apply Int64.toInt_inj.mp
    omega
  . exact encodeRandom_inj (String.toList_inj.mp hrandom)

theorem ulid_lt {ts ts' : Int64} (hpos : 0 ≤ ts.toInt) (hlt : ts < 2 ^ 50) (hpos' : 0 ≤ ts'.toInt)
    (hlt' : ts' < 2 ^ 50) (bytes bytes' : Vector UInt8 10) (h : ts < ts')
    : (encodeTimestamp ts ++ encodeRandom bytes).toList
        < (encodeTimestamp ts' ++ encodeRandom bytes').toList := by
  rw [Int64.lt_iff_toInt_lt] at h
  rw [String.toList_append, String.toList_append, toList_encodeTimestamp hpos,
    toList_encodeTimestamp hpos', numeral_append_lt_iff increasing_digit (by decide) (toNat_lt hlt)
    (toNat_lt hlt')]
  omega

theorem ulid_wellFormed (ts ts' : Int64) (hpos : 0 ≤ ts) (hlt : ts < 2 ^ 50) (hpos' : 0 ≤ ts')
    (hlt' : ts' < 2 ^ 50) (bytes bytes' : Vector UInt8 10)
    : let s := encodeTimestamp ts ++ encodeRandom bytes
      let s' := encodeTimestamp ts' ++ encodeRandom bytes'
      (s.length = 26 ∧ EventSchema.ulidPattern.rmatch s.toList = true)
        ∧ (s = s' → ts = ts' ∧ bytes = bytes')
        ∧ (ts < ts' → s.toUTF8.data.toList < s'.toUTF8.data.toList) := by
  rw [Int64.le_iff_toInt_le, Int64.toInt_zero] at hpos hpos'
  intro s s'
  constructor
  . constructor
    . rw [← String.length_toList]
      exact length_ulid hpos bytes
    . exact rmatch_ulid hpos bytes
  . constructor
    . intro h
      exact ulid_inj hpos hlt hpos' hlt' h
    . intro h
      apply (Ascii.bytes_lt_iff (isText_ulid hpos bytes) (isText_ulid hpos' bytes')).mpr
      exact ulid_lt hpos hlt hpos' hlt' bytes bytes' h

-- The last identifier of a millisecond is before the first one of the next.
theorem ulid_wellFormed_next
    : (encodeTimestamp 0 ++ encodeRandom (Vector.replicate 10 255)).toUTF8.data.toList
        < (encodeTimestamp 1 ++ encodeRandom (Vector.replicate 10 0)).toUTF8.data.toList :=
  (ulid_wellFormed 0 1 (by decide) (by decide) (by decide) (by decide) _ _).2.2 (by decide)

end Athar.Shim.Ulid
