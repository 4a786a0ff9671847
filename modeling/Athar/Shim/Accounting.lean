import Athar.Lib.Run
import Athar.Shim.Impl.Buffer

/-!
This module contains what becomes of the frames that a shim observes. A frame is written to the
daemon, counted in a loss record, still in the buffer, or was dropped by the buffer, and only the
drops are in no account.
-/

namespace Athar.Shim

inductive ShimCall where
  | observe (event : PhpArray)
  | flush (written : Nat) (context : SpoolContext)

structure ShimProcess where
  runtime : Runtime
  buffer : Buffer
  observed : Nat
  written : Nat
  spool : List LossRecord

variable (floatText : ℚ → String) (strlen : Json → Nat)

def ShimProcess.step (p : ShimProcess) : ShimCall → ShimProcess
  | .observe event =>
    match p.runtime.observe floatText event with
    | none => p
    | some frame => { p with buffer := p.buffer.push strlen frame, observed := p.observed + 1 }
  | .flush written context =>
    let flushed := p.buffer.flush strlen context written
    { p with
      buffer := flushed.1
      written := p.written + flushed.2.1.length
      spool := p.spool ++ flushed.2.2.toList }

def ShimProcess.start (runtime : Runtime) (maxFrames maxBytes : Int) : ShimProcess where
  runtime
  buffer := .new maxFrames maxBytes
  observed := 0
  written := 0
  spool := []

def lostIn : List LossRecord → Nat
  | [] => 0
  | record :: spool => record.framesLost + lostIn spool

def ShimProcess.Accounted (p : ShimProcess) : Prop :=
  p.observed = p.written + lostIn p.spool + p.buffer.frames.length

-- An observed frame finds room in the buffer.
def ShimProcess.HasRoom (p : ShimProcess) : ShimCall → Prop
  | .observe event =>
    ∀ frame, p.runtime.observe floatText event = some frame →
      p.buffer.full (strlen frame) = false
  | .flush _ _ => True

theorem lostIn_append (a b : List LossRecord) : lostIn (a ++ b) = lostIn a + lostIn b := by
  induction a with
  | nil => simp [lostIn]
  | cons record a ih =>
    rw [List.cons_append, lostIn, lostIn, ih]
    omega

theorem Buffer.push_of_room {b : Buffer} {frame : Json} (h : b.full (strlen frame) = false)
    : b.push strlen frame
        = { b with
            frames := b.frames ++ [frame]
            totalBytes := b.totalBytes + strlen frame } := by
  unfold Buffer.push
  cases hframes : b.frames with
  | nil =>
    have : full { b with frames := [] } (strlen frame) = false := by
      rw [← hframes]
      exact h
    unfold Buffer.push.go
    rw [this]
    rfl
  | cons old frames =>
    have : full { b with frames := old :: frames } (strlen frame) = false := by
      rw [← hframes]
      exact h
    unfold Buffer.push.go
    rw [this]
    rfl

theorem Buffer.push_go_count (frame : Json) (b : Buffer) (frames : List Json)
    : (Buffer.push.go strlen frame b frames).frames.length
        + (Buffer.push.go strlen frame b frames).dropped = frames.length + 1 + b.dropped := by
  induction frames generalizing b with
  | nil =>
    unfold Buffer.push.go
    split
    . dsimp
      omega
    . rfl
  | cons old frames ih =>
    unfold Buffer.push.go
    split
    . rw [ih, List.length_cons]
      dsimp
      omega
    . rw [List.length_append]
      rfl

theorem Buffer.push_go_dropped_le (frame : Json) (b : Buffer) (frames : List Json)
    : b.dropped ≤ (Buffer.push.go strlen frame b frames).dropped := by
  induction frames generalizing b with
  | nil =>
    unfold Buffer.push.go
    split
    . exact Nat.le_succ _
    . exact Nat.le_refl _
  | cons old frames ih =>
    unfold Buffer.push.go
    split
    . exact Nat.le_trans (Nat.le_succ _) (ih { b with
        totalBytes := b.totalBytes - strlen old
        dropped := b.dropped + 1 })
    . exact Nat.le_refl _

theorem Buffer.push_count (b : Buffer) (frame : Json)
    : (b.push strlen frame).frames.length + (b.push strlen frame).dropped
        = b.frames.length + 1 + b.dropped := by
  apply Buffer.push_go_count

-- A push without room drops a frame, be it an old one or the new one itself.
theorem Buffer.dropped_lt_of_full {b : Buffer} {frame : Json} (h : b.full (strlen frame) = true)
    : b.dropped < (b.push strlen frame).dropped := by
  unfold Buffer.push
  cases hframes : b.frames with
  | nil =>
    have : full { b with frames := [] } (strlen frame) = true := by
      rw [← hframes]
      exact h
    unfold Buffer.push.go
    rw [if_pos this]
    dsimp
    omega
  | cons old frames =>
    have : full { b with frames := old :: frames } (strlen frame) = true := by
      rw [← hframes]
      exact h
    unfold Buffer.push.go
    rw [if_pos this]
    have := Buffer.push_go_dropped_le strlen frame
      { b with totalBytes := b.totalBytes - strlen old, dropped := b.dropped + 1 } frames
    dsimp at this
    omega

theorem Buffer.flush_fst (context : SpoolContext) (b : Buffer) (written : Nat)
    : (b.flush strlen context written).1 = { b with frames := [], totalBytes := 0 } := by
  unfold Buffer.flush Buffer.drain
  dsimp
  split <;> rfl

-- Every drained frame is either written or counted as lost.
theorem Buffer.flush_count (context : SpoolContext) (b : Buffer) (written : Nat)
    : (b.flush strlen context written).2.1.length
        + lostIn (b.flush strlen context written).2.2.toList
        = b.frames.length := by
  unfold Buffer.flush Buffer.drain
  dsimp
  split
  . next hnil =>
    rw [hnil]
    rfl
  . unfold lossOf
    split
    . dsimp [lossRecord, lostIn]
      rw [List.length_take, List.length_drop]
      omega
    . dsimp [lostIn]
      rw [List.length_take]
      omega

-- The frames that the buffer dropped are the ones that no account has.
structure ShimProcess.Inv (runtime : Runtime) (p : ShimProcess) : Prop where
  runtime_eq : p.runtime = runtime
  observed_eq : p.observed
    = p.written + lostIn p.spool + p.buffer.frames.length + p.buffer.dropped

namespace ShimProcess

variable {floatText} {strlen} {runtime : Runtime} {p : ShimProcess} {call : ShimCall}

theorem Inv.step (h : p.Inv runtime) (call : ShimCall)
    : (p.step floatText strlen call).Inv runtime := by
  cases call with
  | observe event =>
    unfold ShimProcess.step
    dsimp
    split
    next => exact h
    next frame _ =>
      constructor
      . exact h.runtime_eq
      . have hcount := Buffer.push_count strlen p.buffer frame
        have hobserved := h.observed_eq
        dsimp
        omega
  | flush written context =>
    unfold ShimProcess.step
    constructor
    . exact h.runtime_eq
    . have hcount := Buffer.flush_count strlen context p.buffer written
      have hfst := Buffer.flush_fst strlen context p.buffer written
      have hobserved := h.observed_eq
      dsimp
      rw [hfst, lostIn_append]
      dsimp
      omega

theorem Inv.accounted_iff (h : p.Inv runtime) : p.Accounted ↔ p.buffer.dropped = 0 := by
  have := h.observed_eq
  unfold ShimProcess.Accounted
  omega

theorem dropped_step_of_room (h : p.HasRoom floatText strlen call)
    : (p.step floatText strlen call).buffer.dropped = p.buffer.dropped := by
  cases call with
  | observe event =>
    unfold ShimProcess.step
    dsimp
    split
    next => rfl
    next frame hframe =>
      dsimp
      rw [Buffer.push_of_room strlen (h frame hframe)]
  | flush written context =>
    unfold ShimProcess.step
    dsimp
    rw [Buffer.flush_fst]

theorem dropped_step_of_no_room (h : ¬p.HasRoom floatText strlen call)
    : (p.step floatText strlen call).buffer.dropped ≠ 0 := by
  cases call with
  | observe event =>
    unfold ShimProcess.HasRoom at h
    push Not at h
    rcases h with ⟨frame, hframe, hfull⟩
    rw [ne_eq, Bool.not_eq_false] at hfull
    have := Buffer.dropped_lt_of_full strlen hfull
    unfold ShimProcess.step
    dsimp
    rw [hframe]
    dsimp
    omega
  | flush written context => exact absurd trivial h

theorem inv_start (runtime : Runtime) (maxFrames maxBytes : Int)
    : (start runtime maxFrames maxBytes).Inv runtime := by
  constructor <;> rfl

end ShimProcess

/--
Every observed frame is accounted for at every moment of a run if and only if every observed frame
found room in the buffer.
-/
theorem accounted_iff_hasRoom (floatText : ℚ → String) (strlen : Json → Nat) (runtime : Runtime)
    (maxFrames maxBytes : Int) (calls : List ShimCall)
    : Run.Always (ShimProcess.step floatText strlen) ShimProcess.Accounted
        (.start runtime maxFrames maxBytes) calls
        ↔ Run.Guarded (ShimProcess.step floatText strlen) (ShimProcess.HasRoom floatText strlen)
            (.start runtime maxFrames maxBytes) calls := by
  apply Run.always_iff_guarded (I := fun p => p.Inv runtime ∧ p.buffer.dropped = 0)
  . exact ⟨ShimProcess.inv_start runtime maxFrames maxBytes, rfl⟩
  . rintro p call ⟨hinv, hdropped⟩ hroom
    refine ⟨hinv.step call, ?_⟩
    rw [ShimProcess.dropped_step_of_room hroom, hdropped]
  . rintro p ⟨hinv, hdropped⟩
    rw [hinv.accounted_iff, hdropped]
  . rintro p call ⟨hinv, _⟩ hroom
    rw [(hinv.step call).accounted_iff]
    exact ShimProcess.dropped_step_of_no_room hroom

def plainEvent : PhpArray :=
  assoc [("event_id", .string "evt_1")]

-- A buffer for one frame drops the first of two, and a flush that reaches nobody spools the other.
theorem overflow_unaccounted
    : ¬∀ (floatText : ℚ → String) (strlen : Json → Nat) (runtime : Runtime)
        (maxFrames maxBytes : Int) (calls : List ShimCall),
        (Run.exec (ShimProcess.step floatText strlen) (.start runtime maxFrames maxBytes)
          calls).Accounted := by
  intro hclaim
  have := hclaim toString (fun _ => 10) ⟨true, ⟨"tnt_a", "php-shim@0.1.0"⟩, []⟩ 1 1024
    [.observe plainEvent, .observe plainEvent, .flush 0 ⟨1, 0, "tnt_a"⟩]
  revert this
  unfold ShimProcess.Accounted
  decide +kernel

end Athar.Shim
