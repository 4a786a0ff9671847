import Mathlib.Data.List.TakeWhile
import Athar.Wire.Impl

/-!
This module contains what the daemon reads of the frames that a shim sends over one connection. However
the socket takes the bytes and however they arrive, the frames that come out are the first of those that
were sent, and the count that the shim keeps is theirs unless a frame is too long for the daemon.
-/

namespace Athar.Wire

open Records Incremental

theorem LengthDelimitedCodec.eq {w maxLength : Nat} {decode : List UInt8 → Found UInt8 (List UInt8)}
    (h : LengthDelimitedCodec w maxLength decode) : decode = lengthDelimited w maxLength := by
  funext held
  unfold lengthDelimited
  by_cases hheader : held.length < w
  . rw [if_pos hheader, h.no_header held hheader]
  . have hlength : (held.take w).length = w := by
      rw [List.length_take]
      omega
    have hheld := List.take_append_drop w held
    rw [if_neg hheader]
    dsimp
    by_cases hmax : maxLength < ofBigEndian (held.take w)
    . rw [if_pos hmax]
      have := h.too_long (held.take w) (held.drop w) hlength hmax
      rwa [hheld] at this
    . rw [if_neg hmax]
      by_cases hbody : (held.drop w).length < ofBigEndian (held.take w)
      . rw [if_pos hbody]
        have := h.no_body (held.take w) (held.drop w) hlength (by omega) hbody
        rwa [hheld] at this
      . rw [if_neg hbody]
        have htake : ((held.drop w).take (ofBigEndian (held.take w))).length
            = ofBigEndian (held.take w) := by
          rw [List.length_take]
          omega
        have := h.body (held.take w) ((held.drop w).take (ofBigEndian (held.take w)))
          ((held.drop w).drop (ofBigEndian (held.take w))) hlength htake (by omega)
        rwa [List.take_append_drop, hheld] at this

theorem lengthDelimited_append {w maxLength : Nat} {header : List UInt8} (h : header.length = w)
    (held : List UInt8)
    : lengthDelimited w maxLength (header ++ held)
        = if maxLength < ofBigEndian header then .broken
          else if held.length < ofBigEndian header then .more
          else .frame (held.take (ofBigEndian header)) (held.drop (ofBigEndian header)) := by
  subst h
  rw [lengthDelimited, if_neg (by simp), List.take_left, List.drop_left]

-- A codec as the documentation has it.
theorem lengthDelimited_codec (w maxLength : Nat)
    : LengthDelimitedCodec w maxLength (lengthDelimited w maxLength) := by
  constructor
  . intro held hheader
    rw [lengthDelimited, if_pos hheader]
  . intro header held hlength hmax
    rw [lengthDelimited_append hlength, if_pos hmax]
  . intro header held hlength hmax hbody
    rw [lengthDelimited_append hlength, if_neg (by omega), if_pos hbody]
  . intro header frame held hlength hframe hmax
    rw [lengthDelimited_append hlength, if_neg (by omega), if_neg (by simp; omega), ← hframe,
      List.take_left, List.drop_left]

theorem flatten_readsOf (sizes : List Nat) (bytes : List UInt8)
    : (readsOf sizes bytes).flatten = bytes := by
  induction sizes generalizing bytes with
  | nil => simp [readsOf]
  | cons size sizes ih => rw [readsOf, List.flatten_cons, ih, List.take_append_drop]

-- The daemon's frames do not depend on how the bytes are spread over the reads.
theorem framesOf_eq_pull (reads : List (List UInt8))
    : framesOf (lengthDelimited LENGTH_FIELD_LENGTH MAX_FRAME_LENGTH) reads
        = (pull (lengthDelimited LENGTH_FIELD_LENGTH MAX_FRAME_LENGTH) reads.flatten).1 := by
  have hw : 0 < LENGTH_FIELD_LENGTH := by decide
  rw [framesOf, (lengthDelimited_lawful hw).feedAll_eq_pull (lengthDelimited_nil hw)]

theorem writeAll_fst_prefix (accepts : List Nat) (payload : List UInt8)
    : (writeAll accepts payload).1 <+: payload := by
  induction accepts generalizing payload with
  | nil => cases payload <;> simp [writeAll]
  | cons n accepts ih =>
    cases payload with
    | nil => simp [writeAll]
    | cons b payload =>
      rw [writeAll]
      split
      . simp
      . conv_rhs => rw [← List.take_append_drop n (b :: payload)]
        exact (List.prefix_append_right_inj _).mpr (ih _)

-- A write fails exactly when some of the bytes were not taken.
theorem writeAll_snd_eq_none_iff (accepts : List Nat) (payload : List UInt8)
    : (writeAll accepts payload).2 = none ↔ (writeAll accepts payload).1 ≠ payload := by
  induction accepts generalizing payload with
  | nil => cases payload <;> simp [writeAll]
  | cons n accepts ih =>
    cases payload with
    | nil => simp [writeAll]
    | cons b payload =>
      rw [writeAll]
      split
      . simp
      . have hsplit := List.take_append_drop n (b :: payload)
        dsimp
        rw [ih]
        constructor
        . intro hne heq
          apply hne
          apply List.append_cancel_left
          rw [heq, hsplit]
        . intro hne heq
          apply hne
          rw [heq, hsplit]

namespace Transport

-- The frames that `send` does not skip.
def sendable (frames : List (List UInt8)) : List (List UInt8) :=
  frames.filter (·.length ≤ MAX_FRAME)

-- A record that is cut short, or not begun.
def Cut (cut : List UInt8) : Prop :=
  ∃ frame : List UInt8, frame.length ≤ MAX_FRAME ∧ cut <+: encode 4 frame ∧ cut ≠ encode 4 frame

theorem cut_nil : Cut [] := by
  refine ⟨[], by simp, by simp, ?_⟩
  intro h
  simpa [encode] using congrArg List.length h

theorem Cut.of_prefix {cut cut' : List UInt8} (h : Cut cut) (hcut : cut' <+: cut) : Cut cut' := by
  rcases h with ⟨frame, hframe, hpre, hne⟩
  refine ⟨frame, hframe, hcut.trans hpre, ?_⟩
  rintro rfl
  exact hne (hpre.eq_of_length_le hcut.length_le)

theorem go_snd (accepts : List Nat) (frames : List (List UInt8))
    : ∃ cut, Cut cut
        ∧ (send.go accepts frames).2
            = encodeAll 4 ((sendable frames).take (send.go accepts frames).1) ++ cut := by
  induction frames generalizing accepts with
  | nil => exact ⟨[], cut_nil, by simp [send.go]⟩
  | cons frame frames ih =>
    rw [send.go]
    split
    . next hmax =>
      have hskip : sendable (frame :: frames) = sendable frames :=
        List.filter_cons_of_neg (by simpa using hmax)
      rw [hskip]
      exact ih accepts
    . next hmax =>
      have hkeep : sendable (frame :: frames) = frame :: sendable frames :=
        List.filter_cons_of_pos (by simpa using hmax)
      split
      . next sent hwrite =>
        have hpre := writeAll_fst_prefix accepts (encode 4 frame)
        have hne := (writeAll_snd_eq_none_iff accepts (encode 4 frame)).mp (by rw [hwrite])
        rw [hwrite] at hpre hne
        exact ⟨sent, ⟨frame, by omega, hpre, hne⟩, by simp⟩
      . next sent accepts' hwrite =>
        have hall : sent = encode 4 frame := by
          by_contra hne
          have := (writeAll_snd_eq_none_iff accepts (encode 4 frame)).mpr (by rwa [hwrite])
          simp [hwrite] at this
        rcases ih accepts' with ⟨cut, hcut, hsnd⟩
        refine ⟨cut, hcut, ?_⟩
        dsimp
        rw [hsnd, hkeep, List.take_succ_cons, encodeAll_cons, hall, List.append_assoc]

theorem send_snd (connected : Bool) (accepts : List Nat) (frames : List (List UInt8))
    : ∃ cut, Cut cut
        ∧ (send connected accepts frames).2
            = encodeAll 4 ((sendable frames).take (send connected accepts frames).1) ++ cut := by
  unfold send
  split
  . exact ⟨[], cut_nil, by simp⟩
  . split
    . exact ⟨[], cut_nil, by simp⟩
    . exact go_snd accepts frames

theorem length_lt_of_mem_sendable {frames : List (List UInt8)} {n : Nat} {frame : List UInt8}
    (h : frame ∈ (sendable frames).take n) : frame.length < 256 ^ 4 := by
  have := List.mem_of_mem_take h
  unfold sendable at this
  rw [List.mem_filter, decide_eq_true_iff] at this
  have hmax : MAX_FRAME < 256 ^ 4 := by decide
  omega

theorem pull_cut (frames : List (List UInt8)) (n : Nat) {cut : List UInt8} (h : Cut cut)
    : (pull (lengthDelimited LENGTH_FIELD_LENGTH MAX_FRAME_LENGTH)
          (encodeAll 4 ((sendable frames).take n) ++ cut)).1
        = ((sendable frames).take n).takeWhile (·.length ≤ MAX_FRAME_LENGTH) := by
  rcases h with ⟨frame, hframe, hcut, hne⟩
  have hmax : MAX_FRAME < 256 ^ 4 := by decide
  apply pull_encodeAll (by decide)
  . intro r hr
    exact length_lt_of_mem_sendable hr
  . exact Nat.lt_of_le_of_lt hframe hmax
  . exact hcut
  . exact hne

theorem sendable_of_short {frames : List (List UInt8)}
    (h : ∀ frame ∈ frames, frame.length ≤ MAX_FRAME_LENGTH) : sendable frames = frames := by
  unfold sendable
  rw [List.filter_eq_self]
  intro frame hframe
  have := h frame hframe
  have hmax : MAX_FRAME_LENGTH ≤ MAX_FRAME := by decide
  simp
  omega

end Transport

open Transport

variable {decode : List UInt8 → Found UInt8 (List UInt8)}

/--
When all that the socket took arrives, the daemon reads the frames that were written, up to the first
one that is too long for it.
-/
theorem framesOf_send (hdecode : LengthDelimitedCodec LENGTH_FIELD_LENGTH MAX_FRAME_LENGTH decode)
    (connected : Bool) (accepts : List Nat) (frames reads : List (List UInt8))
    (hreads : reads.flatten = (send connected accepts frames).2)
    : framesOf decode reads
        = ((frames.filter (·.length ≤ MAX_FRAME)).take (send connected accepts frames).1).takeWhile
            (·.length ≤ MAX_FRAME_LENGTH) := by
  rcases send_snd connected accepts frames with ⟨cut, hcut, hsent⟩
  rw [hdecode.eq, framesOf_eq_pull, hreads, hsent, pull_cut frames _ hcut]
  rfl

-- The socket takes the first frame in two parts, and what it took is read in three.
def twoFrames : List (List UInt8) := [[1], [2, 3]]

def threeReads : List (List UInt8) := [[0, 0], [0, 1, 1, 0, 0], [0, 2, 2, 3]]

theorem framesOf_send_threeReads
    : framesOf (lengthDelimited LENGTH_FIELD_LENGTH MAX_FRAME_LENGTH) threeReads
        = ((twoFrames.filter (·.length ≤ MAX_FRAME)).take (send true [3, 9, 9] twoFrames).1).takeWhile
            (·.length ≤ MAX_FRAME_LENGTH) :=
  framesOf_send (lengthDelimited_codec _ _) true [3, 9, 9] twoFrames threeReads (by decide)

section Short

variable {connected : Bool} {accepts : List Nat} {frames : List (List UInt8)} {bytes : List UInt8}

-- What the daemon finds of frames that it takes.
theorem pull_eq_of_arrived (hframes : ∀ frame ∈ frames, frame.length ≤ MAX_FRAME_LENGTH)
    (hbytes : bytes <+: (send connected accepts frames).2)
    (harrived : encodeAll 4 (frames.take (send connected accepts frames).1) <+: bytes)
    : (pull (lengthDelimited LENGTH_FIELD_LENGTH MAX_FRAME_LENGTH) bytes).1
        = frames.take (send connected accepts frames).1 := by
  rcases send_snd connected accepts frames with ⟨cut, hcut, hsent⟩
  rcases harrived with ⟨cut', rfl⟩
  rw [sendable_of_short hframes] at hsent
  rw [hsent, List.prefix_append_right_inj] at hbytes
  have hpull := pull_cut frames (send connected accepts frames).1 (hcut.of_prefix hbytes)
  rw [sendable_of_short hframes] at hpull
  rw [hpull, List.takeWhile_eq_self_iff]
  intro frame hframe
  simpa using hframes frame (List.mem_of_mem_take hframe)

theorem prefix_encodeAll_written (hframes : ∀ frame ∈ frames, frame.length ≤ MAX_FRAME_LENGTH)
    : encodeAll 4 (frames.take (send connected accepts frames).1)
        <+: (send connected accepts frames).2 := by
  rcases send_snd connected accepts frames with ⟨cut, _, hsent⟩
  rw [hsent, sendable_of_short hframes]
  exact List.prefix_append _ _

theorem prefix_pull_written (hframes : ∀ frame ∈ frames, frame.length ≤ MAX_FRAME_LENGTH)
    (hbytes : bytes <+: (send connected accepts frames).2)
    : (pull (lengthDelimited LENGTH_FIELD_LENGTH MAX_FRAME_LENGTH) bytes).1
        <+: frames.take (send connected accepts frames).1 := by
  have hw : 0 < LENGTH_FIELD_LENGTH := by decide
  have hall := pull_eq_of_arrived hframes (List.prefix_refl (send connected accepts frames).2)
    (prefix_encodeAll_written hframes)
  rw [← hall]
  exact (lengthDelimited_lawful hw).prefix_pull hbytes

end Short

/--
Frames that the daemon takes arrive in order, none twice and none in part. Those that were counted as
written arrive exactly when their bytes do.
-/
theorem framesOf_send_iff (hdecode : LengthDelimitedCodec LENGTH_FIELD_LENGTH MAX_FRAME_LENGTH decode)
    (connected : Bool) (accepts : List Nat) (frames reads : List (List UInt8))
    (hframes : ∀ frame ∈ frames, frame.length ≤ MAX_FRAME_LENGTH)
    (hreads : reads.flatten <+: (send connected accepts frames).2)
    : framesOf decode reads <+: frames.take (send connected accepts frames).1
        ∧ (framesOf decode reads = frames.take (send connected accepts frames).1
            ↔ encodeAll 4 (frames.take (send connected accepts frames).1) <+: reads.flatten) := by
  rw [hdecode.eq, framesOf_eq_pull]
  constructor
  . exact prefix_pull_written hframes hreads
  . constructor
    . intro h
      rw [← h]
      exact prefix_encodeAll_pull (by decide) _
    . exact pull_eq_of_arrived hframes hreads

-- The end of the second frame is still on its way.
theorem framesOf_send_iff_threeReads
    : framesOf (lengthDelimited LENGTH_FIELD_LENGTH MAX_FRAME_LENGTH) (threeReads.take 2)
          <+: twoFrames.take (send true [3, 9, 9] twoFrames).1
        ∧ (framesOf (lengthDelimited LENGTH_FIELD_LENGTH MAX_FRAME_LENGTH) (threeReads.take 2)
              = twoFrames.take (send true [3, 9, 9] twoFrames).1
            ↔ encodeAll 4 (twoFrames.take (send true [3, 9, 9] twoFrames).1)
                <+: (threeReads.take 2).flatten) :=
  framesOf_send_iff (lengthDelimited_codec _ _) true [3, 9, 9] twoFrames (threeReads.take 2)
    (by decide) (by decide)

end Athar.Wire
