import Athar.Lib.Records

/-!
This module contains decoders of streams. A decoder looks at what has arrived: it finds a frame at the
front, needs more, or finds that the stream is broken. What arrives comes in chunks of any size, and a
stream that is broken stays so.

The second part is the decoder of length-prefixed frames that refuses a frame over a maximal length.
-/

namespace Incremental

variable {α F : Type*}

inductive Found (α F : Type*) where
  | more
  | frame (f : F) (rest : List α)
  | broken
  deriving DecidableEq

-- What is found at the front does not depend on what arrives later, and a frame takes up room.
structure Lawful (decode : List α → Found α F) : Prop where
  frame_append : ∀ {held rest : List α} {f : F} (later : List α),
    decode held = .frame f rest → decode (held ++ later) = .frame f (rest ++ later)
  broken_append : ∀ {held : List α} (later : List α),
    decode held = .broken → decode (held ++ later) = .broken
  length_lt : ∀ {held rest : List α} {f : F}, decode held = .frame f rest → rest.length < held.length

variable (decode : List α → Found α F)

-- The frames at the front, and what is held after them unless the stream is broken.
def pull.go : Nat → List α → List F × Option (List α)
  | 0, held => ([], some held)
  | fuel + 1, held =>
    match decode held with
    | .more => ([], some held)
    | .broken => ([], none)
    | .frame f rest =>
      let (frames, left) := go fuel rest
      (f :: frames, left)

-- Every frame takes up room, so there are no more frames than there is room.
def pull (held : List α) : List F × Option (List α) :=
  pull.go decode (held.length + 1) held

def feed (left : Option (List α)) (chunk : List α) : List F × Option (List α) :=
  match left with
  | none => ([], none)
  | some held => pull decode (held ++ chunk)

def feedAll : Option (List α) → List (List α) → List F × Option (List α)
  | left, [] => ([], left)
  | left, chunk :: chunks =>
    let (frames, left) := feed decode left chunk
    let (later, left) := feedAll left chunks
    (frames ++ later, left)

variable {decode}

namespace Lawful

theorem go_fuel (h : Lawful decode) {fuel fuel' : Nat} {held : List α} (hfuel : held.length < fuel)
    (hfuel' : held.length < fuel') : pull.go decode fuel held = pull.go decode fuel' held := by
  induction fuel generalizing fuel' held with
  | zero => omega
  | succ fuel ih =>
    cases fuel' with
    | zero => omega
    | succ fuel' =>
      rw [pull.go, pull.go]
      split
      . rfl
      . rfl
      . next f rest hdecode =>
        have hlt := h.length_lt hdecode
        have hgo : pull.go decode fuel rest = pull.go decode fuel' rest := ih (by omega) (by omega)
        rw [hgo]

theorem pull_more {held : List α} (hdecode : decode held = .more)
    : pull decode held = ([], some held) := by
  rw [pull, pull.go, hdecode]

theorem pull_broken {held : List α} (hdecode : decode held = .broken)
    : pull decode held = ([], none) := by
  rw [pull, pull.go, hdecode]

theorem pull_frame (h : Lawful decode) {held rest : List α} {f : F}
    (hdecode : decode held = .frame f rest)
    : pull decode held = (f :: (pull decode rest).1, (pull decode rest).2) := by
  have hlt := h.length_lt hdecode
  have hgo : pull.go decode held.length rest = pull.go decode (rest.length + 1) rest :=
    h.go_fuel (by omega) (by omega)
  rw [pull, pull.go, hdecode, pull]
  dsimp
  rw [hgo]

-- Pulling frames out of a longer stream: first the ones that are there already.
theorem pull_append (h : Lawful decode) (held later : List α)
    : pull decode (held ++ later)
        = ((pull decode held).1 ++ (feed decode (pull decode held).2 later).1,
            (feed decode (pull decode held).2 later).2) := by
  induction hn : held.length using Nat.strongRecOn generalizing held with
  | ind n ih =>
    cases hdecode : decode held with
    | more => simp [pull_more hdecode, feed]
    | broken => simp [pull_broken hdecode, pull_broken (h.broken_append later hdecode), feed]
    | frame f rest =>
      have hlt := h.length_lt hdecode
      rw [h.pull_frame hdecode, h.pull_frame (h.frame_append later hdecode),
        ih rest.length (by omega) rest rfl]
      simp

-- What is held after pulling gives no frame by itself.
theorem pull_left (h : Lawful decode) {held left : List α} (hleft : (pull decode held).2 = some left)
    : decode left = .more := by
  induction hn : held.length using Nat.strongRecOn generalizing held with
  | ind n ih =>
    cases hdecode : decode held with
    | more =>
      rw [pull_more hdecode] at hleft
      rw [← Option.some.inj hleft, hdecode]
    | broken => simp [pull_broken hdecode] at hleft
    | frame f rest =>
      have hlt := h.length_lt hdecode
      rw [h.pull_frame hdecode] at hleft
      exact ih rest.length (by omega) hleft rfl

theorem feedAll_none (chunks : List (List α)) : feedAll decode none chunks = ([], none) := by
  induction chunks with
  | nil => rfl
  | cons chunk chunks ih => simp [feedAll, feed, ih]

theorem feedAll_some (h : Lawful decode) {held : List α} (hheld : decode held = .more)
    (chunks : List (List α))
    : feedAll decode (some held) chunks = pull decode (held ++ chunks.flatten) := by
  induction chunks generalizing held with
  | nil => simp [feedAll, pull_more hheld]
  | cons chunk chunks ih =>
    rw [List.flatten_cons, ← List.append_assoc, h.pull_append, feedAll]
    dsimp [feed]
    cases hleft : (pull decode (held ++ chunk)).2 with
    | none => simp [feedAll_none]
    | some left =>
      dsimp
      rw [ih (h.pull_left hleft)]

/--
How a stream is cut into chunks does not matter for the frames that come out of it.
-/
theorem feedAll_eq_pull (h : Lawful decode) (hnil : decode [] = .more) (chunks : List (List α))
    : feedAll decode (some []) chunks = pull decode chunks.flatten := by
  rw [h.feedAll_some hnil, List.nil_append]

-- A stream that is cut off yields the first of its frames.
theorem prefix_pull (h : Lawful decode) {cut stream : List α} (hcut : cut <+: stream)
    : (pull decode cut).1 <+: (pull decode stream).1 := by
  rcases hcut with ⟨later, rfl⟩
  rw [h.pull_append]
  exact List.prefix_append _ _

end Lawful

end Incremental

namespace Records

open Bytes Incremental

-- The header is judged before the body is there.
def lengthDelimited (w maxLength : Nat) (held : List UInt8) : Found UInt8 (List UInt8) :=
  if held.length < w then
    .more
  else
    let len := ofBigEndian (held.take w)
    let rest := held.drop w
    if maxLength < len then
      .broken
    else if rest.length < len then
      .more
    else
      .frame (rest.take len) (rest.drop len)

variable {w maxLength : Nat}

theorem lengthDelimited_lawful (hw : 0 < w) : Lawful (lengthDelimited w maxLength) := by
  constructor
  . intro held rest f later h
    unfold lengthDelimited at h ⊢
    split at h
    . contradiction
    . next hheader =>
      dsimp at h
      split at h
      . contradiction
      . next hmax =>
        split at h
        . contradiction
        . next hbody =>
          rw [Found.frame.injEq] at h
          have htake : (held ++ later).take w = held.take w :=
            List.take_append_of_le_length (by omega)
          have hdrop : (held ++ later).drop w = held.drop w ++ later :=
            List.drop_append_of_le_length (by omega)
          dsimp
          rw [htake, hdrop, if_neg (by simp; omega), if_neg hmax, if_neg (by simp at hbody ⊢; omega),
            List.take_append_of_le_length (by omega), List.drop_append_of_le_length (by omega), h.1, h.2]
  . intro held later h
    unfold lengthDelimited at h ⊢
    split at h
    . contradiction
    . next hheader =>
      dsimp at h
      split at h
      . next hmax =>
        have htake : (held ++ later).take w = held.take w :=
          List.take_append_of_le_length (by omega)
        dsimp
        rw [htake, if_neg (by simp; omega), if_pos hmax]
      . split at h <;> contradiction
  . intro held rest f h
    unfold lengthDelimited at h
    split at h
    . contradiction
    . dsimp at h
      split at h
      . contradiction
      . split at h
        . contradiction
        . rw [Found.frame.injEq] at h
          rw [← h.2]
          simp
          omega

theorem lengthDelimited_nil (hw : 0 < w) : lengthDelimited w maxLength [] = .more := by
  simp [lengthDelimited, hw]

theorem lengthDelimited_encode {r : List UInt8} (hr : r.length < 256 ^ w) (rest : List UInt8)
    : lengthDelimited w maxLength (encode w r ++ rest)
        = if maxLength < r.length then .broken else .frame r rest := by
  rw [lengthDelimited, if_neg (not_length_encode_lt w r _)]
  dsimp
  rw [take_encode, drop_encode, ofBigEndian_length hr, List.take_left, List.drop_left]
  split
  . rfl
  . rw [if_neg (by rw [List.length_append]; omega)]

-- A record that is not there in full is not found.
theorem lengthDelimited_cut {r cut : List UInt8} (hr : r.length < 256 ^ w) (hcut : cut <+: encode w r)
    (hne : cut ≠ encode w r)
    : lengthDelimited w maxLength cut = .more ∨ lengthDelimited w maxLength cut = .broken := by
  rcases hcut with ⟨later, hlater⟩
  have hlength : cut.length + later.length = w + r.length := by
    simpa [encode] using congrArg List.length hlater
  have hpos : later ≠ [] := by
    rintro rfl
    simp [hne] at hlater
  have := List.length_pos_iff.mpr hpos
  unfold lengthDelimited
  split
  . exact .inl rfl
  . next hheader =>
    have htake : cut.take w = bigEndian w r.length := by
      rw [← take_encode w r [], List.append_nil, ← hlater]
      exact (List.take_append_of_le_length (by omega)).symm
    dsimp
    rw [htake, ofBigEndian_length hr, List.length_drop]
    split
    . exact .inr rfl
    . rw [if_pos (by omega)]
      exact .inl rfl

/--
The frames that are read from the encoded records, of which the last one may be cut short, are the
records in front of the first one over the maximal length.
-/
theorem pull_encodeAll (hw : 0 < w) {rs : List (List UInt8)} (h : ∀ r ∈ rs, r.length < 256 ^ w)
    {r cut : List UInt8} (hr : r.length < 256 ^ w) (hcut : cut <+: encode w r)
    (hne : cut ≠ encode w r)
    : (pull (lengthDelimited w maxLength) (encodeAll w rs ++ cut)).1
        = rs.takeWhile (·.length ≤ maxLength) := by
  have hlawful : Lawful (lengthDelimited w maxLength) := lengthDelimited_lawful hw
  induction rs with
  | nil =>
    rw [encodeAll_nil, List.nil_append, List.takeWhile_nil]
    have hdecode : lengthDelimited w maxLength cut = .more ∨ lengthDelimited w maxLength cut = .broken :=
      lengthDelimited_cut hr hcut hne
    cases hdecode with
    | inl hmore => rw [Lawful.pull_more hmore]
    | inr hbroken => rw [Lawful.pull_broken hbroken]
  | cons q rs ih =>
    have hq : lengthDelimited w maxLength (encode w q ++ (encodeAll w rs ++ cut))
        = if maxLength < q.length then .broken else .frame q (encodeAll w rs ++ cut) :=
      lengthDelimited_encode (h q (by simp)) _
    rw [encodeAll_cons, List.append_assoc]
    split at hq
    . next hmax =>
      rw [Lawful.pull_broken hq, List.takeWhile_cons_of_neg (by simpa using hmax)]
    . next hmax =>
      rw [hlawful.pull_frame hq, List.takeWhile_cons_of_pos (by simpa using hmax),
        ih (fun r' hr' => h r' (by simp [hr']))]

theorem lengthDelimited_eq_frame {held f rest : List UInt8}
    (h : lengthDelimited w maxLength held = .frame f rest) : held = encode w f ++ rest := by
  unfold lengthDelimited at h
  split at h
  . contradiction
  . next hheader =>
    dsimp at h
    split at h
    . contradiction
    . split at h
      . contradiction
      . next hbody =>
        rw [Found.frame.injEq] at h
        have hlength : f.length = ofBigEndian (held.take w) := by
          rw [← h.1, List.length_take]
          omega
        rw [← h.1] at hlength
        rw [← h.1, ← h.2, encode, hlength, bigEndian_ofBigEndian (by simp; omega), List.append_assoc,
          List.take_append_drop, List.take_append_drop]

-- The frames that are found are there with their headers, one after the other.
theorem prefix_encodeAll_pull (hw : 0 < w) (held : List UInt8)
    : encodeAll w (pull (lengthDelimited w maxLength) held).1 <+: held := by
  induction hn : held.length using Nat.strongRecOn generalizing held with
  | ind n ih =>
    cases hdecode : lengthDelimited w maxLength held with
    | more => simp [Lawful.pull_more hdecode]
    | broken => simp [Lawful.pull_broken hdecode]
    | frame f rest =>
      have hlt := (lengthDelimited_lawful hw).length_lt hdecode
      rw [(lengthDelimited_lawful hw).pull_frame hdecode, lengthDelimited_eq_frame hdecode,
        encodeAll_cons]
      exact (List.prefix_append_right_inj _).mpr (ih rest.length (by omega) rest rfl)

end Records
