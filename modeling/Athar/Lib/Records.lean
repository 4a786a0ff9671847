import Mathlib.Tactic.Ring
import Athar.Lib.Bytes

/-!
This module contains sequences of length-prefixed records: each record is preceded by its length in
`w` big endian bytes. Reading is best effort, it stops at the first record that is not complete.
-/

namespace Records

open Bytes

def ofBigEndian (bytes : List UInt8) : Nat :=
  bytes.foldl (fun acc b => acc * 256 + b.toNat) 0

def encode (w : Nat) (record : List UInt8) : List UInt8 :=
  bigEndian w record.length ++ record

def encodeAll (w : Nat) (records : List (List UInt8)) : List UInt8 :=
  records.flatMap (encode w)

def read.go (w : Nat) : Nat → List UInt8 → List (List UInt8)
  | 0, _ => []
  | fuel + 1, bytes =>
    if bytes.length < w then
      []
    else
      let len := ofBigEndian (bytes.take w)
      let rest := bytes.drop w
      if rest.length < len then [] else rest.take len :: go w fuel (rest.drop len)

-- With `0 < w` every record takes a byte, so there are no more records than bytes.
def read (w : Nat) (bytes : List UInt8) : List (List UInt8) :=
  read.go w (bytes.length + 1) bytes

def readStrict.go (w : Nat) : Nat → List UInt8 → Nat → Except Nat (List (List UInt8))
  | 0, _, _ => .ok []
  | fuel + 1, bytes, offset =>
    if bytes.length < w then
      .ok []
    else
      let len := ofBigEndian (bytes.take w)
      let rest := bytes.drop w
      if rest.length < len then
        .error offset
      else
        (go w fuel (rest.drop len) (offset + (w + len))).map (rest.take len :: ·)

-- The error is the offset of the record whose body is cut short.
def readStrict (w : Nat) (bytes : List UInt8) : Except Nat (List (List UInt8)) :=
  readStrict.go w (bytes.length + 1) bytes 0

theorem foldl_bytes (acc : Nat) (bytes : List UInt8)
    : bytes.foldl (fun acc b => acc * 256 + b.toNat) acc
        = acc * 256 ^ bytes.length + ofBigEndian bytes := by
  unfold ofBigEndian
  induction bytes generalizing acc with
  | nil => simp
  | cons b bytes ih =>
    rw [List.foldl_cons, List.foldl_cons, ih, ih (0 * 256 + b.toNat), List.length_cons, pow_succ]
    ring

theorem ofBigEndian_cons (b : UInt8) (bytes : List UInt8)
    : ofBigEndian (b :: bytes) = b.toNat * 256 ^ bytes.length + ofBigEndian bytes := by
  rw [ofBigEndian, List.foldl_cons, foldl_bytes]
  simp

theorem ofBigEndian_lt (bytes : List UInt8) : ofBigEndian bytes < 256 ^ bytes.length := by
  induction bytes with
  | nil => decide
  | cons b bytes ih =>
    have hb : b.toNat ≤ 255 := by
      have := b.toNat_lt
      omega
    have := Nat.mul_le_mul_right (256 ^ bytes.length) hb
    rw [ofBigEndian_cons, List.length_cons, pow_succ]
    omega

theorem ofBigEndian_bigEndian (w n : Nat) : ofBigEndian (bigEndian w n) = n % 256 ^ w := by
  induction w with
  | zero => simp [bigEndian, ofBigEndian, Nat.mod_one]
  | succ w ih =>
    rw [bigEndian, ofBigEndian_cons, ih, length_bigEndian, Nat.mod_pow_succ]
    simp only [UInt8.toNat_ofNat', Nat.reducePow]
    ring

theorem ofBigEndian_inj {as bs : List UInt8} (hlength : as.length = bs.length)
    (h : ofBigEndian as = ofBigEndian bs) : as = bs := by
  induction as generalizing bs with
  | nil => exact (List.length_eq_zero_iff.mp hlength.symm).symm
  | cons a as ih =>
    cases bs with
    | nil => contradiction
    | cons b bs =>
      rw [List.length_cons, List.length_cons, Nat.add_right_cancel_iff] at hlength
      have ha := ofBigEndian_lt as
      have hb := ofBigEndian_lt bs
      rw [ofBigEndian_cons, ofBigEndian_cons, ← hlength] at h
      rw [← hlength] at hb
      have hhead : a.toNat = b.toNat := by
        have hpos : 0 < 256 ^ as.length := Nat.pow_pos (by decide)
        have := congrArg (· / 256 ^ as.length) h
        simpa [Nat.mul_comm _ (256 ^ as.length), Nat.mul_add_div hpos, Nat.div_eq_of_lt ha,
          Nat.div_eq_of_lt hb] using this
      rw [hhead, Nat.add_left_cancel_iff] at h
      rw [UInt8.toNat_inj.mp hhead, ih hlength h]

theorem bigEndian_ofBigEndian {w : Nat} {bytes : List UInt8} (h : bytes.length = w)
    : bigEndian w (ofBigEndian bytes) = bytes := by
  have hlt := ofBigEndian_lt bytes
  rw [h] at hlt
  apply ofBigEndian_inj
  . rw [length_bigEndian, h]
  . rw [ofBigEndian_bigEndian, Nat.mod_eq_of_lt hlt]

@[simp]
theorem encodeAll_nil (w : Nat) : encodeAll w [] = [] := by
  rfl

theorem encodeAll_append (w : Nat) (rs ts : List (List UInt8))
    : encodeAll w (rs ++ ts) = encodeAll w rs ++ encodeAll w ts := by
  exact List.flatMap_append

@[simp]
theorem encodeAll_singleton (w : Nat) (r : List UInt8) : encodeAll w [r] = encode w r := by
  simp [encodeAll]

theorem length_le_length_encodeAll {w : Nat} (hw : 0 < w) (rs : List (List UInt8))
    : rs.length ≤ (encodeAll w rs).length := by
  induction rs with
  | nil => simp
  | cons r rs ih =>
    have : (encodeAll w (r :: rs)).length = w + r.length + (encodeAll w rs).length := by
      simp [encodeAll, encode, Nat.add_assoc]
    rw [this, List.length_cons]
    omega

theorem encodeAll_cons (w : Nat) (r : List UInt8) (rs : List (List UInt8))
    : encodeAll w (r :: rs) = encode w r ++ encodeAll w rs := by
  exact List.flatMap_cons

theorem take_encode (w : Nat) (r rest : List UInt8)
    : (encode w r ++ rest).take w = bigEndian w r.length := by
  rw [encode, List.append_assoc, List.take_append_of_le_length (by simp),
    List.take_of_length_le (by simp)]

theorem drop_encode (w : Nat) (r rest : List UInt8)
    : (encode w r ++ rest).drop w = r ++ rest := by
  rw [encode, List.append_assoc, List.drop_append_of_le_length (by simp),
    List.drop_of_length_le (by simp), List.nil_append]

theorem not_length_encode_lt (w : Nat) (r rest : List UInt8)
    : ¬(encode w r ++ rest).length < w := by
  rw [encode, List.length_append, List.length_append, length_bigEndian]
  omega

theorem ofBigEndian_length {w : Nat} {r : List UInt8} (h : r.length < 256 ^ w)
    : ofBigEndian (bigEndian w r.length) = r.length := by
  rw [ofBigEndian_bigEndian, Nat.mod_eq_of_lt h]

theorem go_encodeAll {w fuel : Nat} {rs : List (List UInt8)} (h : ∀ r ∈ rs, r.length < 256 ^ w)
    (hw : 0 < w) (hfuel : rs.length < fuel) : read.go w fuel (encodeAll w rs) = rs := by
  induction rs generalizing fuel with
  | nil =>
    cases fuel with
    | zero => omega
    | succ fuel =>
      rw [encodeAll_nil, read.go]
      simp [hw]
  | cons r rs ih =>
    cases fuel with
    | zero => omega
    | succ fuel =>
      rw [List.length_cons] at hfuel
      rw [encodeAll_cons, read.go, if_neg (not_length_encode_lt w r _)]
      dsimp only
      rw [take_encode, drop_encode, ofBigEndian_length (h r (by simp)), if_neg, List.take_left,
        List.drop_left, ih (fun r' hr' => h r' (by simp [hr'])) (by omega)]
      rw [List.length_append]
      omega

/--
Records that are short enough for their prefix are read back.
-/
theorem read_encodeAll {w : Nat} (hw : 0 < w) {rs : List (List UInt8)}
    (h : ∀ r ∈ rs, r.length < 256 ^ w) : read w (encodeAll w rs) = rs := by
  apply go_encodeAll h hw
  exact Nat.lt_succ_of_le (length_le_length_encodeAll hw rs)

theorem length_lt_of_mem_go {w fuel : Nat} {bytes r : List UInt8} (h : r ∈ read.go w fuel bytes)
    : r.length < 256 ^ w := by
  induction fuel generalizing bytes with
  | zero => simp [read.go] at h
  | succ fuel ih =>
    rw [read.go] at h
    split at h
    . contradiction
    . next hheader =>
      dsimp only at h
      split at h
      . contradiction
      . cases h with
        | head =>
          have := ofBigEndian_lt (bytes.take w)
          rw [List.length_take, Nat.min_eq_left (by omega)] at this
          rw [List.length_take]
          omega
        | tail _ htail => exact ih htail

theorem length_lt_of_mem_read {w : Nat} {bytes r : List UInt8} (h : r ∈ read w bytes)
    : r.length < 256 ^ w :=
  length_lt_of_mem_go h

theorem length_go_le {w : Nat} (hw : 0 < w) (fuel : Nat) (bytes : List UInt8)
    : (read.go w fuel bytes).length ≤ bytes.length := by
  induction fuel generalizing bytes with
  | zero => simp [read.go]
  | succ fuel ih =>
    rw [read.go]
    split
    . simp
    . next hheader =>
      dsimp only
      split
      . simp
      . have hrest := ih ((bytes.drop w).drop (ofBigEndian (bytes.take w)))
        rw [List.length_drop, List.length_drop] at hrest
        rw [List.length_cons]
        omega

theorem length_read_le {w : Nat} (hw : 0 < w) (bytes : List UInt8)
    : (read w bytes).length ≤ bytes.length :=
  length_go_le hw _ bytes

theorem strict_go_encodeAll {w fuel : Nat} {rs : List (List UInt8)}
    (h : ∀ r ∈ rs, r.length < 256 ^ w) {tail : List UInt8} (htail : tail.length < w)
    (hfuel : rs.length < fuel) (offset : Nat)
    : readStrict.go w fuel (encodeAll w rs ++ tail) offset = .ok rs := by
  induction rs generalizing fuel offset with
  | nil =>
    cases fuel with
    | zero => omega
    | succ fuel =>
      rw [encodeAll_nil, List.nil_append, readStrict.go, if_pos htail]
  | cons r rs ih =>
    cases fuel with
    | zero => omega
    | succ fuel =>
      rw [List.length_cons] at hfuel
      rw [encodeAll_cons, List.append_assoc, readStrict.go, if_neg (not_length_encode_lt w r _)]
      dsimp only
      rw [take_encode, drop_encode, ofBigEndian_length (h r (by simp)), if_neg, List.take_left,
        List.drop_left, ih (fun r' hr' => h r' (by simp [hr'])) (by omega)]
      . rfl
      . rw [List.length_append]
        omega

-- What is read without an error is what the best effort finds.
theorem strict_go_ok {w fuel offset : Nat} {bytes : List UInt8} {rs : List (List UInt8)}
    (h : readStrict.go w fuel bytes offset = .ok rs) : read.go w fuel bytes = rs := by
  induction fuel generalizing bytes offset rs with
  | zero =>
    rw [readStrict.go] at h
    rw [read.go]
    exact Except.ok.inj h
  | succ fuel ih =>
    rw [readStrict.go] at h
    rw [read.go]
    split at h
    . next hheader =>
      rw [if_pos hheader]
      exact Except.ok.inj h
    . next hheader =>
      dsimp only at h ⊢
      rw [if_neg hheader]
      split at h
      . contradiction
      . next hbody =>
        rw [if_neg hbody]
        generalize htail : readStrict.go w fuel _ _ = tail at h
        cases tail with
        | error _ => contradiction
        | ok tail =>
          rw [ih htail]
          exact Except.ok.inj h

-- Reading has gone over all bytes but the last few, which are no header.
theorem strict_go_exact {w fuel offset : Nat} {bytes : List UInt8} {rs : List (List UInt8)}
    (hw : 0 < w) (hfuel : bytes.length < fuel) (h : readStrict.go w fuel bytes offset = .ok rs)
    : ∃ tail, bytes = encodeAll w rs ++ tail ∧ tail.length < w := by
  induction fuel generalizing bytes offset rs with
  | zero => omega
  | succ fuel ih =>
    rw [readStrict.go] at h
    split at h
    . next hheader =>
      rw [← Except.ok.inj h]
      exact ⟨bytes, by simp, hheader⟩
    . next hheader =>
      dsimp only at h
      split at h
      . contradiction
      . next hbody =>
        generalize hgo : readStrict.go w fuel _ _ = result at h
        cases result with
        | error _ => contradiction
        | ok rest =>
          have hlength : ((bytes.drop w).drop (ofBigEndian (bytes.take w))).length < fuel := by
            rw [List.length_drop, List.length_drop]
            omega
          rcases ih hlength hgo with ⟨tail, hrest, htail⟩
          refine ⟨tail, ?_, htail⟩
          have hsize : ((bytes.drop w).take (ofBigEndian (bytes.take w))).length
              = ofBigEndian (bytes.take w) := by
            rw [List.length_take]
            omega
          have hprefix : bigEndian w (ofBigEndian (bytes.take w)) = bytes.take w := by
            apply bigEndian_ofBigEndian
            rw [List.length_take]
            omega
          rw [← Except.ok.inj h, encodeAll_cons, encode, hsize, hprefix, List.append_assoc,
            List.append_assoc, ← hrest, List.take_append_drop, List.take_append_drop]

/--
The strict reader accepts the encodings of records that are short enough for their prefix, followed by
fewer bytes than a prefix has.
-/
theorem readStrict_eq_ok_iff {w : Nat} (hw : 0 < w) (bytes : List UInt8) (rs : List (List UInt8))
    : readStrict w bytes = .ok rs
        ↔ (∀ r ∈ rs, r.length < 256 ^ w) ∧ ∃ tail, bytes = encodeAll w rs ++ tail ∧ tail.length < w := by
  constructor
  . intro h
    refine ⟨?_, strict_go_exact hw (Nat.lt_succ_self _) h⟩
    intro r hr
    have hread : read w bytes = rs := strict_go_ok h
    rw [← hread] at hr
    exact length_lt_of_mem_read hr
  . rintro ⟨h, tail, rfl, htail⟩
    apply strict_go_encodeAll h htail
    have := length_le_length_encodeAll hw rs
    rw [List.length_append]
    omega

/--
Records are read back without an error exactly when they are short enough for their prefix.
-/
theorem readStrict_encodeAll_iff {w : Nat} (hw : 0 < w) (rs : List (List UInt8))
    : readStrict w (encodeAll w rs) = .ok rs ↔ ∀ r ∈ rs, r.length < 256 ^ w := by
  rw [readStrict_eq_ok_iff hw]
  constructor
  . intro h
    exact h.1
  . intro h
    exact ⟨h, [], by simp, hw⟩

end Records
