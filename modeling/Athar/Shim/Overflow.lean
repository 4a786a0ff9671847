import Athar.Shim.Accounting
import Mathlib.Algebra.GroupWithZero.Nat

/-!
This module contains what the buffer of the shim drops when it overflows. A frame that fits the byte
budget takes the place of as few of the oldest frames as possible. A frame that does not fit it also
takes all of them with it, since the loop only finds this out once the buffer is empty.
-/

namespace Athar.Shim

inductive BufferCall where
  | push (frame : Json)
  | drain
  | resetDroppedCounter

namespace Buffer

variable (strlen : Json → Nat)

def step (b : Buffer) : BufferCall → Buffer
  | .push frame => b.push strlen frame
  | .drain => b.drain.1
  | .resetDroppedCounter => b.resetDroppedCounter.1

def size (frames : List Json) : Nat :=
  (frames.map strlen).sum

-- Frames that are within both limits.
def Within (maxFrames maxBytes : Int) (frames : List Json) : Prop :=
  (frames.length : Int) ≤ maxFrames ∧ (size strlen frames : Int) ≤ maxBytes

-- The frames are the longest end of a list that is within both limits.
structure LongestWithin (maxFrames maxBytes : Int) (all frames : List Json) : Prop where
  suffix : frames <:+ all
  within : Within strlen maxFrames maxBytes frames
  longest : ∀ other, other <:+ all → Within strlen maxFrames maxBytes other →
    other.length ≤ frames.length

-- What a push should do.
structure DropsLeast (b : Buffer) (frame : Json) : Prop where
  fits : (strlen frame : Int) ≤ b.maxBytes →
    LongestWithin strlen b.maxFrames b.maxBytes (b.frames ++ [frame]) (b.push strlen frame).frames
  oversized : b.maxBytes < strlen frame → (b.push strlen frame).frames = b.frames
  dropped_eq : (b.push strlen frame).dropped + (b.push strlen frame).frames.length
    = b.dropped + (b.frames.length + 1)
  bytes_eq : (b.push strlen frame).totalBytes = size strlen (b.push strlen frame).frames

variable {strlen} {b : Buffer} {frame : Json}

theorem size_append (frames more : List Json)
    : size strlen (frames ++ more) = size strlen frames + size strlen more := by
  simp [size]

theorem size_singleton (frame : Json) : size strlen [frame] = strlen frame := by
  simp [size]

theorem bytes_tail {old : Json} {frames : List Json} (h : b.totalBytes = size strlen (old :: frames))
    : b.totalBytes - strlen old = size strlen frames := by
  unfold size at h ⊢
  rw [List.map_cons, List.sum_cons] at h
  omega

theorem full_iff {frames : List Json} (hbytes : b.totalBytes = size strlen frames)
    : full { b with frames } (strlen frame) = true
        ↔ ¬Within strlen b.maxFrames b.maxBytes (frames ++ [frame]) := by
  unfold full Within
  rw [size_append, size_singleton, List.length_append, List.length_singleton, Bool.or_eq_true, decide_eq_true_iff,
    decide_eq_true_iff, hbytes]
  dsimp only
  omega

theorem LongestWithin.self {maxFrames maxBytes : Int} {frames : List Json}
    (h : Within strlen maxFrames maxBytes frames)
    : LongestWithin strlen maxFrames maxBytes frames frames := by
  constructor
  . exact List.suffix_refl frames
  . exact h
  . intro other hother _
    exact hother.length_le

theorem LongestWithin.cons {maxFrames maxBytes : Int} {all frames : List Json} {old : Json}
    (hnot : ¬Within strlen maxFrames maxBytes (old :: all))
    (h : LongestWithin strlen maxFrames maxBytes all frames)
    : LongestWithin strlen maxFrames maxBytes (old :: all) frames := by
  constructor
  . exact h.suffix.trans (List.suffix_cons old all)
  . exact h.within
  . intro other hother hwithin
    rcases List.suffix_cons_iff.mp hother with rfl | hsuffix
    . exact absurd hwithin hnot
    . exact h.longest other hsuffix hwithin

theorem within_singleton (hframes : 1 ≤ b.maxFrames) (hfits : (strlen frame : Int) ≤ b.maxBytes)
    : Within strlen b.maxFrames b.maxBytes [frame] := by
  unfold Within size
  simp [hframes, hfits]

-- The loop stops at the first end of the frames that leaves room for the new one.
theorem push_go_fits (hframes : 1 ≤ b.maxFrames) (hfits : (strlen frame : Int) ≤ b.maxBytes)
    {frames : List Json} (hbytes : b.totalBytes = size strlen frames)
    : LongestWithin strlen b.maxFrames b.maxBytes (frames ++ [frame])
        (push.go strlen frame b frames).frames := by
  induction frames generalizing b with
  | nil =>
    have hwithin := within_singleton hframes hfits
    have hroom : ¬full { b with frames := [] } (strlen frame) = true := by
      rw [full_iff hbytes, not_not]
      exact hwithin
    unfold push.go
    rw [if_neg hroom]
    exact LongestWithin.self hwithin
  | cons old frames ih =>
    unfold push.go
    split
    . next hfull =>
      rw [full_iff hbytes] at hfull
      let shifted := { b with totalBytes := b.totalBytes - strlen old, dropped := b.dropped + 1 }
      have hrest : shifted.totalBytes = size strlen frames := bytes_tail hbytes
      exact LongestWithin.cons hfull (ih (b := shifted) hframes hfits hrest)
    . next hroom =>
      rw [full_iff hbytes, not_not] at hroom
      exact LongestWithin.self hroom

theorem push_go_oversized (hover : b.maxBytes < strlen frame) {frames : List Json}
    (hbytes : b.totalBytes = size strlen frames) : (push.go strlen frame b frames).frames = [] := by
  induction frames generalizing b with
  | nil =>
    unfold push.go
    split
    . rfl
    . next hroom =>
      rw [full_iff hbytes, not_not] at hroom
      have hwithin := hroom.2
      rw [size_append, size_singleton] at hwithin
      omega
  | cons old frames ih =>
    have hfull : full { b with frames := old :: frames } (strlen frame) = true := by
      rw [full_iff hbytes]
      rintro ⟨_, hwithin⟩
      rw [size_append, size_singleton] at hwithin
      omega
    unfold push.go
    rw [if_pos hfull]
    exact ih hover (bytes_tail hbytes)

theorem push_go_bytes {frames : List Json} (hbytes : b.totalBytes = size strlen frames)
    : (push.go strlen frame b frames).totalBytes = size strlen (push.go strlen frame b frames).frames := by
  induction frames generalizing b with
  | nil =>
    unfold push.go
    split
    . exact hbytes
    . dsimp only
      rw [hbytes]
      simp [size]
  | cons old frames ih =>
    unfold push.go
    split
    . exact ih (bytes_tail hbytes)
    . dsimp only
      rw [hbytes, size_append, size_singleton]
      rfl

-- The frame fits the byte budget, or finds the buffer empty.
def FitsOrAlone (strlen : Json → Nat) (b : Buffer) (frame : Json) : Prop :=
  (strlen frame : Int) ≤ b.maxBytes ∨ b.frames = []

-- The bytes are counted, whatever was pushed.
structure Counted (strlen : Json → Nat) (maxFrames : Int) (b : Buffer) : Prop where
  maxFrames_eq : b.maxFrames = maxFrames
  bytes_eq : b.totalBytes = size strlen b.frames

theorem push_go_maxFrames (frames : List Json)
    : (push.go strlen frame b frames).maxFrames = b.maxFrames := by
  induction frames generalizing b with
  | nil =>
    unfold push.go
    split <;> rfl
  | cons old frames ih =>
    unfold push.go
    split
    . exact ih
    . rfl

theorem Counted.step {maxFrames : Int} (h : Counted strlen maxFrames b) (call : BufferCall)
    : Counted strlen maxFrames (b.step strlen call) := by
  cases call with
  | push frame =>
    constructor
    . exact (push_go_maxFrames b.frames).trans h.maxFrames_eq
    . exact push_go_bytes h.bytes_eq
  | drain => exact ⟨h.maxFrames_eq, rfl⟩
  | resetDroppedCounter => exact ⟨h.maxFrames_eq, h.bytes_eq⟩

theorem dropsLeast_iff {maxFrames : Int} (h : Counted strlen maxFrames b) (hframes : 1 ≤ maxFrames)
    : DropsLeast strlen b frame ↔ FitsOrAlone strlen b frame := by
  have hmaxFrames : 1 ≤ b.maxFrames := by
    rw [h.maxFrames_eq]
    exact hframes
  constructor
  . intro hleast
    by_cases hfits : (strlen frame : Int) ≤ b.maxBytes
    . exact Or.inl hfits
    . right
      have hover : b.maxBytes < strlen frame := by omega
      rw [← hleast.oversized hover]
      exact push_go_oversized hover h.bytes_eq
  . intro hfits
    constructor
    . intro hle
      exact push_go_fits hmaxFrames hle h.bytes_eq
    . intro hover
      have halone : b.frames = [] := by
        rcases hfits with hle | halone
        . omega
        . exact halone
      rw [halone]
      exact push_go_oversized hover h.bytes_eq
    . have := push_count strlen b frame
      omega
    . exact push_go_bytes h.bytes_eq

end Buffer

open Athar.Shim.Buffer

/--
Every push of a run drops as little as possible if and only if every frame that is pushed fits the
byte budget or finds the buffer empty.
-/
theorem dropsLeast_iff_fitsOrAlone (strlen : Json → Nat) (maxFrames maxBytes : Int)
    (hframes : 1 ≤ maxFrames) (calls : List BufferCall)
    : Run.Guarded (step strlen) (fun b call => ∀ frame, call = .push frame → DropsLeast strlen b frame)
          (.new maxFrames maxBytes) calls
        ↔ Run.Guarded (step strlen) (fun b call => ∀ frame, call = .push frame → FitsOrAlone strlen b frame)
          (.new maxFrames maxBytes) calls := by
  have hcounted : Run.Always (step strlen) (Counted strlen maxFrames) (.new maxFrames maxBytes) calls :=
    Run.always_of_step calls ⟨rfl, rfl⟩ fun b call h => h.step call
  have hguarded := hcounted.guard (Run.Guarded.of_forall calls fun _ _ => trivial)
  apply Run.guarded_congr hguarded
  rintro b call ⟨h, _⟩
  simp only [dropsLeast_iff h hframes]

section Instances

-- Texts stand for the frames of their length.
def textLength : Json → Nat
  | .string text => text.length
  | _ => 0

def smallThenLarge : List BufferCall := [.push (.string "small"), .push (.string "much too large")]

theorem dropsLeast_iff_fitsOrAlone_small
    : Run.Guarded (step textLength)
          (fun b call => ∀ frame, call = .push frame → DropsLeast textLength b frame) (.new 1 10)
          [.push (.string "small"), .push (.string "smaller")]
        ↔ Run.Guarded (step textLength)
          (fun b call => ∀ frame, call = .push frame → FitsOrAlone textLength b frame) (.new 1 10)
          [.push (.string "small"), .push (.string "smaller")] :=
  dropsLeast_iff_fitsOrAlone textLength 1 10 (by decide) _

theorem smallThenLarge_dropsBoth
    : ¬∀ (strlen : Json → Nat) (maxFrames maxBytes : Int) (calls : List BufferCall), 1 ≤ maxFrames →
        Run.Guarded (step strlen) (fun b call => ∀ frame, call = .push frame → DropsLeast strlen b frame)
          (.new maxFrames maxBytes) calls := by
  intro hclaim
  have hlast := hclaim textLength 512 10 smallThenLarge (by decide) [.push (.string "small")]
    (.push (.string "much too large")) (List.prefix_refl _) _ rfl
  have hkept := congrArg List.length (hlast.oversized (by decide))
  contradiction

end Instances

end Athar.Shim
