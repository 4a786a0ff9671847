import Athar.Shim.Overflow
import Athar.Wire.Delivery

/-!
This module contains what becomes of every frame that a shim observes, down to the bytes on the wire. A
frame has one fate: the daemon reads it, it is counted in a loss record, it is dropped by the buffer, it
was written and its bytes do not arrive, or it was not written and neither was a loss record for it.
-/

namespace Athar.Wire

open Shim Records Incremental Transport

inductive LinkCall where
  | observe (event : PhpArray)
  -- The last `undelivered` bytes that the socket took get lost; the others are read in the given sizes.
  -- A loss record is written if `spooled`, which is what `Spool::writeLoss` returns.
  | flush (connected : Bool) (accepts sizes : List Nat) (undelivered : Nat) (context : SpoolContext)
    (spooled : Bool)

-- A shim with the frames it observed, and the ones that the daemon read.
structure Link where
  process : ShimProcess
  observed : List Json
  received : List (List UInt8)

inductive Fate where
  | received
  | vanished
  | spooled
  | unrecorded
  | dropped
  deriving DecidableEq

def LinkCall.Arrives : LinkCall → Prop
  | .observe _ => True
  | .flush _ _ _ undelivered _ _ => undelivered = 0

def LinkCall.Spools : LinkCall → Prop
  | .observe _ => True
  | .flush _ _ _ _ _ spooled => spooled = true

def lostBytesIn (spool : List LossRecord) : Nat :=
  (spool.map (·.bytesLost)).sum

section Link

variable (floatText : ℚ → String) (text : Json → List UInt8)
  (decode : List UInt8 → Found UInt8 (List UInt8))

def strlen (frame : Json) : Nat :=
  (text frame).length

-- What a flush puts on the wire.
def Link.sends (l : Link) (connected : Bool) (accepts : List Nat) : Nat × List UInt8 :=
  send connected accepts (l.process.buffer.frames.map text)

def Link.step (l : Link) : LinkCall → Link
  | .observe event =>
    match l.process.runtime.observe floatText event with
    | none => l
    | some frame =>
      { l with
        process := l.process.step floatText (strlen text) (.observe event)
        observed := l.observed ++ [frame] }
  | .flush connected accepts sizes undelivered context spooled =>
    let (written, sent) := l.sends text connected accepts
    let arrived := sent.take (sent.length - undelivered)
    let process := l.process.step floatText (strlen text) (.flush written context)
    { l with
      -- The result of `writeLoss` is not looked at: without the file there is no trace of the loss.
      process := if spooled then process else { process with spool := l.process.spool }
      received := l.received ++ framesOf decode (readsOf sizes arrived) }

def Link.start (runtime : Runtime) (maxFrames maxBytes : Int) : Link where
  process := .start runtime maxFrames maxBytes
  observed := []
  received := []

def framesWith (fate : Fate) (gone : List (Json × Fate)) : List Json :=
  (gone.filter (·.2 = fate)).map Prod.fst

-- The frames that left the buffer, in order and each with its fate.
structure Link.Custody (l : Link) (gone : List (Json × Fate)) : Prop where
  observed_eq : l.observed = gone.map Prod.fst ++ l.process.buffer.frames
  received_eq : l.received = (framesWith .received gone).map text
  lost_eq : lostIn l.process.spool = (framesWith .spooled gone).length
  lostBytes_eq : lostBytesIn l.process.spool = Buffer.size (strlen text) (framesWith .spooled gone)
  dropped_eq : l.process.buffer.dropped = (framesWith .dropped gone).length

end Link

theorem framesWith_append (fate : Fate) (gone more : List (Json × Fate))
    : framesWith fate (gone ++ more) = framesWith fate gone ++ framesWith fate more := by
  simp [framesWith]

theorem framesWith_map (fate fate' : Fate) (frames : List Json)
    : framesWith fate (frames.map (·, fate')) = if fate' = fate then frames else [] := by
  unfold framesWith
  split
  . next h => simp [h, List.filter_map, Function.comp_def]
  . next h => simp [h, List.filter_map, Function.comp_def]

theorem map_fst_map (fate : Fate) (frames : List Json)
    : (frames.map (·, fate)).map Prod.fst = frames := by
  simp [Function.comp_def]

variable {decode : List UInt8 → Found UInt8 (List UInt8)}

section Buffer

variable {strlen : Json → Nat} {b : Shim.Buffer} {frame : Json}

-- The frames of a push: an end of those there were and the new one.
theorem push_go_suffix (frames : List Json)
    : (Buffer.push.go strlen frame b frames).frames <:+ frames ++ [frame] := by
  induction frames generalizing b with
  | nil =>
    unfold Buffer.push.go
    split <;> simp
  | cons old frames ih =>
    unfold Buffer.push.go
    split
    . exact ih.trans (List.suffix_cons old _)
    . exact List.suffix_refl _

theorem push_go_maxBytes (frames : List Json)
    : (Buffer.push.go strlen frame b frames).maxBytes = b.maxBytes := by
  induction frames generalizing b with
  | nil =>
    unfold Buffer.push.go
    split <;> rfl
  | cons old frames ih =>
    unfold Buffer.push.go
    split
    . exact ih
    . rfl

-- No frame is over the byte budget.
structure Budgeted (strlen : Json → Nat) (maxBytes : Int) (b : Shim.Buffer) : Prop where
  maxBytes_eq : b.maxBytes = maxBytes
  bytes_eq : b.totalBytes = Buffer.size strlen b.frames
  short : ∀ frame ∈ b.frames, (strlen frame : Int) ≤ maxBytes

theorem push_go_short {frames : List Json} (hbytes : b.totalBytes = Buffer.size strlen frames)
    (h : ∀ old ∈ frames, (strlen old : Int) ≤ b.maxBytes)
    : ∀ f ∈ (Buffer.push.go strlen frame b frames).frames, (strlen f : Int) ≤ b.maxBytes := by
  have hroom (kept : List Json) (hkept : Buffer.Within strlen b.maxFrames b.maxBytes (kept ++ [frame]))
      : (strlen frame : Int) ≤ b.maxBytes := by
    have := hkept.2
    rw [Buffer.size_append, Buffer.size_singleton] at this
    omega
  induction frames generalizing b with
  | nil =>
    unfold Buffer.push.go
    split
    . simp
    . next hfull =>
      rw [Buffer.full_iff hbytes, not_not] at hfull
      simpa using hroom [] hfull
  | cons old frames ih =>
    unfold Buffer.push.go
    split
    . exact ih (Buffer.bytes_tail hbytes) (fun f hf => h f (List.mem_cons_of_mem old hf)) hroom
    . next hfull =>
      rw [Buffer.full_iff hbytes, not_not] at hfull
      intro f hf
      rw [List.mem_append, List.mem_singleton] at hf
      cases hf with
      | inl hold => exact h f hold
      | inr hnew =>
        rw [hnew]
        exact hroom _ hfull

theorem Budgeted.push {maxBytes : Int} (h : Budgeted strlen maxBytes b) (frame : Json)
    : Budgeted strlen maxBytes (b.push strlen frame) := by
  have hshort := h.short
  rw [← h.maxBytes_eq] at hshort
  constructor
  . exact (push_go_maxBytes b.frames).trans h.maxBytes_eq
  . exact Buffer.push_go_bytes h.bytes_eq
  . have hpush : ∀ f ∈ (b.push strlen frame).frames, (strlen f : Int) ≤ b.maxBytes :=
      push_go_short h.bytes_eq hshort
    rwa [h.maxBytes_eq] at hpush

theorem Budgeted.flush {maxBytes : Int} (h : Budgeted strlen maxBytes b) (context : SpoolContext)
    (written : Nat) : Budgeted strlen maxBytes (b.flush strlen context written).1 := by
  rw [Buffer.flush_fst]
  exact ⟨h.maxBytes_eq, rfl, by simp⟩

end Buffer

namespace Link

variable {floatText : ℚ → String} {text : Json → List UInt8} {l : Link} {gone : List (Json × Fate)}

theorem observe_custody (h : l.Custody text gone) (event : PhpArray)
    : ∃ dropped : List Json,
        (l.step floatText text decode (.observe event)).Custody text
          (gone ++ dropped.map (·, Fate.dropped)) := by
  unfold Link.step
  dsimp
  split
  . exact ⟨[], by simpa using h⟩
  . next frame hframe =>
    have hsuffix : (l.process.buffer.push (strlen text) frame).frames
        <:+ l.process.buffer.frames ++ [frame] := push_go_suffix _
    rcases hsuffix with ⟨dropped, hdropped⟩
    have hcount := Buffer.push_count (strlen text) l.process.buffer frame
    have hlength : dropped.length + (l.process.buffer.push (strlen text) frame).frames.length
        = l.process.buffer.frames.length + 1 := by
      simpa using congrArg List.length hdropped
    refine ⟨dropped, ?_⟩
    unfold ShimProcess.step
    dsimp
    rw [hframe]
    constructor
    . dsimp
      rw [List.map_append, map_fst_map, List.append_assoc, hdropped, h.observed_eq, List.append_assoc]
    . rw [framesWith_append, framesWith_map, if_neg (by decide), List.append_nil]
      exact h.received_eq
    . rw [framesWith_append, framesWith_map, if_neg (by decide), List.append_nil]
      exact h.lost_eq
    . rw [framesWith_append, framesWith_map, if_neg (by decide), List.append_nil]
      exact h.lostBytes_eq
    . have := h.dropped_eq
      rw [framesWith_append, framesWith_map, if_pos rfl, List.length_append]
      dsimp
      omega

-- A flush of which the daemon read the first `k` frames.
def fatesOf (frames : List Json) (written k : Nat) (spooled : Bool) : List (Json × Fate) :=
  (frames.take k).map (·, Fate.received) ++ ((frames.take written).drop k).map (·, Fate.vanished)
    ++ (frames.drop written).map (·, if spooled then Fate.spooled else .unrecorded)

theorem map_fst_fatesOf (frames : List Json) {written k : Nat} (hk : k ≤ written) (spooled : Bool)
    : (fatesOf frames written k spooled).map Prod.fst = frames := by
  have htake : (frames.take written).take k = frames.take k := by
    rw [List.take_take, Nat.min_eq_left hk]
  unfold fatesOf
  rw [List.map_append, List.map_append, map_fst_map, map_fst_map, map_fst_map, ← htake,
    List.take_append_drop, List.take_append_drop]

theorem framesWith_fatesOf (frames : List Json) (written k : Nat) (spooled : Bool) (fate : Fate)
    : framesWith fate (fatesOf frames written k spooled) = match fate with
        | .received => frames.take k
        | .vanished => (frames.take written).drop k
        | .spooled => if spooled then frames.drop written else []
        | .unrecorded => if spooled then [] else frames.drop written
        | .dropped => [] := by
  unfold fatesOf
  rw [framesWith_append, framesWith_append, framesWith_map, framesWith_map, framesWith_map]
  cases fate <;> cases spooled <;> simp

theorem lostIn_lossOf (strlen : Json → Nat) (context : SpoolContext) (frames : List Json) (written : Nat)
    : lostIn (lossOf strlen context frames written).toList = (frames.drop written).length := by
  unfold lossOf
  split
  . simp [lostIn, lossRecord]
  . next h =>
    rw [List.drop_eq_nil_of_le (by omega)]
    rfl

theorem lostBytesIn_append (spool more : List LossRecord)
    : lostBytesIn (spool ++ more) = lostBytesIn spool + lostBytesIn more := by
  simp [lostBytesIn]

theorem lostBytesIn_lossOf (strlen : Json → Nat) (context : SpoolContext) (frames : List Json)
    (written : Nat)
    : lostBytesIn (lossOf strlen context frames written).toList
        = Buffer.size strlen (frames.drop written) := by
  unfold lossOf
  split
  . simp [lostBytesIn, lossRecord, Buffer.size, List.sum_eq_foldl]
  . next h =>
    rw [List.drop_eq_nil_of_le (by omega)]
    rfl

theorem flush_spool (strlen : Json → Nat) (context : SpoolContext) (b : Shim.Buffer) (written : Nat)
    : (b.flush strlen context written).2.2 = lossOf strlen context b.frames written := by
  unfold Buffer.flush Buffer.drain
  dsimp
  split
  . next hnil => simp [hnil, lossOf]
  . rfl

-- What the daemon reads of a flush: the first of the frames that were written.
theorem flush_received (hshort : ∀ frame ∈ l.process.buffer.frames, strlen text frame ≤ MAX_FRAME_LENGTH)
    (connected : Bool) (accepts : List Nat) (undelivered : Nat)
    : ∃ k ≤ (l.sends text connected accepts).1,
        (pull (lengthDelimited LENGTH_FIELD_LENGTH MAX_FRAME_LENGTH)
            ((l.sends text connected accepts).2.take
              ((l.sends text connected accepts).2.length - undelivered))).1
          = (l.process.buffer.frames.take k).map text
        ∧ (undelivered = 0 →
            (l.process.buffer.frames.take (l.sends text connected accepts).1).drop k = []) := by
  unfold Link.sends
  generalize hwritten : send connected accepts (l.process.buffer.frames.map text) = written
  generalize hfound : (pull (lengthDelimited LENGTH_FIELD_LENGTH MAX_FRAME_LENGTH)
    (written.2.take (written.2.length - undelivered))).1 = found
  have hframes : ∀ frame ∈ l.process.buffer.frames.map text, frame.length ≤ MAX_FRAME_LENGTH := by
    intro frame hframe
    rcases List.mem_map.mp hframe with ⟨json, hjson, rfl⟩
    exact hshort json hjson
  have hprefix : found <+: (l.process.buffer.frames.map text).take written.1 := by
    rw [← hfound, ← hwritten]
    exact prefix_pull_written hframes (List.take_prefix _ _)
  have hle := hprefix.length_le
  rw [List.length_take, List.length_map] at hle
  refine ⟨found.length, by omega, ?_, ?_⟩
  . have htake := List.prefix_iff_eq_take.mp hprefix
    rwa [List.take_take, Nat.min_eq_left (by omega), ← List.map_take] at htake
  . intro hall
    have hsent : found = (l.process.buffer.frames.map text).take written.1 := by
      rw [← hfound, ← hwritten, hall, Nat.sub_zero, List.take_length]
      exact pull_eq_of_arrived hframes (List.prefix_refl _) (prefix_encodeAll_written hframes)
    have hlength := congrArg List.length hsent
    rw [List.length_take, List.length_map] at hlength
    rw [List.drop_eq_nil_iff, List.length_take]
    omega

-- The loss records after a flush: a new one counts the frames that were not written, or there is none.
theorem flush_spooled (floatText : ℚ → String) (text : Json → List UInt8)
    (decode : List UInt8 → Found UInt8 (List UInt8)) (l : Link) (connected : Bool)
    (accepts sizes : List Nat) (undelivered : Nat) (context : SpoolContext) (spooled : Bool)
    : (l.step floatText text decode
          (.flush connected accepts sizes undelivered context spooled)).process.spool
        = l.process.spool ++ if spooled then
            (lossOf (strlen text) context l.process.buffer.frames (l.sends text connected accepts).1).toList
          else [] := by
  unfold Link.step ShimProcess.step
  dsimp
  cases spooled with
  | true => rw [if_pos rfl, if_pos rfl, flush_spool]
  | false => simp

theorem flush_buffer (floatText : ℚ → String) (text : Json → List UInt8)
    (decode : List UInt8 → Found UInt8 (List UInt8)) (l : Link) (connected : Bool)
    (accepts sizes : List Nat) (undelivered : Nat) (context : SpoolContext) (spooled : Bool)
    : (l.step floatText text decode
          (.flush connected accepts sizes undelivered context spooled)).process.buffer
        = (l.process.buffer.flush (strlen text) context (l.sends text connected accepts).1).1 := by
  unfold Link.step ShimProcess.step
  dsimp
  cases spooled with
  | true => rfl
  | false => rfl

theorem flush_custody (hdecode : LengthDelimitedCodec LENGTH_FIELD_LENGTH MAX_FRAME_LENGTH decode)
    (hshort : ∀ frame ∈ l.process.buffer.frames, strlen text frame ≤ MAX_FRAME_LENGTH)
    (h : l.Custody text gone) (connected : Bool) (accepts sizes : List Nat) (undelivered : Nat)
    (context : SpoolContext) (spooled : Bool)
    : ∃ more : List (Json × Fate),
        (l.step floatText text decode
          (.flush connected accepts sizes undelivered context spooled)).Custody text (gone ++ more)
        ∧ (undelivered = 0 → framesWith .vanished more = [])
        ∧ (spooled = true → framesWith .unrecorded more = []) := by
  rcases flush_received hshort connected accepts undelivered with ⟨k, hk, hread, hall⟩
  refine ⟨fatesOf l.process.buffer.frames (l.sends text connected accepts).1 k spooled, ?_, ?_, ?_⟩
  . constructor
    . rw [flush_buffer, Buffer.flush_fst, List.map_append, map_fst_fatesOf _ hk, List.append_nil,
        ← h.observed_eq]
      rfl
    . unfold Link.step
      dsimp
      rw [hdecode.eq, framesOf_eq_pull, flatten_readsOf, hread, framesWith_append, List.map_append,
        framesWith_fatesOf, h.received_eq]
    . rw [flush_spooled, lostIn_append, framesWith_append, framesWith_fatesOf, List.length_append,
        h.lost_eq]
      cases spooled with
      | true => simp [lostIn_lossOf]
      | false => rfl
    . rw [flush_spooled, lostBytesIn_append, framesWith_append, framesWith_fatesOf, Buffer.size_append,
        h.lostBytes_eq]
      cases spooled with
      | true => simp [lostBytesIn_lossOf]
      | false => rfl
    . rw [flush_buffer, Buffer.flush_fst, framesWith_append, framesWith_fatesOf, List.append_nil]
      exact h.dropped_eq
  . intro hdelivered
    rw [framesWith_fatesOf]
    exact hall hdelivered
  . rintro rfl
    rw [framesWith_fatesOf]
    rfl

-- What holds of a link at every moment, with the frames that left its buffer.
structure Holds (text : Json → List UInt8) (maxBytes : Int) (l : Link) (gone : List (Json × Fate))
    : Prop where
  custody : l.Custody text gone
  budgeted : Budgeted (strlen text) maxBytes l.process.buffer

theorem Holds.step (hdecode : LengthDelimitedCodec LENGTH_FIELD_LENGTH MAX_FRAME_LENGTH decode)
    {maxBytes : Int} (hmax : maxBytes ≤ MAX_FRAME_LENGTH) (h : l.Holds text maxBytes gone)
    (call : LinkCall)
    : ∃ more : List (Json × Fate),
        (l.step floatText text decode call).Holds text maxBytes (gone ++ more)
        ∧ (call.Arrives → framesWith .vanished more = [])
        ∧ (call.Spools → framesWith .unrecorded more = []) := by
  cases call with
  | observe event =>
    rcases observe_custody h.custody event with ⟨dropped, hcustody⟩
    refine ⟨_, ⟨hcustody, ?_⟩, ?_, ?_⟩
    . unfold Link.step ShimProcess.step
      dsimp
      split
      . exact h.budgeted
      . next frame hframe => simpa [hframe] using h.budgeted.push frame
    . intro _
      rw [framesWith_map, if_neg (by decide)]
    . intro _
      rw [framesWith_map, if_neg (by decide)]
  | flush connected accepts sizes undelivered context spooled =>
    have hshort : ∀ frame ∈ l.process.buffer.frames, strlen text frame ≤ MAX_FRAME_LENGTH := by
      intro frame hframe
      have := h.budgeted.short frame hframe
      omega
    rcases flush_custody hdecode hshort h.custody connected accepts sizes undelivered context spooled with
      ⟨more, hcustody, hvanished, hunrecorded⟩
    refine ⟨more, ⟨hcustody, ?_⟩, hvanished, hunrecorded⟩
    rw [flush_buffer]
    exact h.budgeted.flush context _

theorem holds_start (text : Json → List UInt8) (runtime : Runtime) (maxFrames maxBytes : Int)
    : (start runtime maxFrames maxBytes).Holds text maxBytes [] := by
  refine ⟨?_, rfl, rfl, ?_⟩
  . constructor <;> rfl
  . intro frame hframe
    contradiction

end Link

-- The frames of this fate, if there are any, are the doing of calls that do not meet a condition.
theorem framesWith_none {fate : Fate} {P : LinkCall → Prop} {calls : List LinkCall} {call : LinkCall}
    {gone more : List (Json × Fate)} (h : (∀ call ∈ calls, P call) → framesWith fate gone = [])
    (hmore : P call → framesWith fate more = [])
    : (∀ other ∈ calls ++ [call], P other) → framesWith fate (gone ++ more) = [] := by
  intro hall
  rw [framesWith_append, hmore (hall call (by simp)), List.append_nil]
  apply h
  intro other hother
  exact hall other (by simp [hother])

/--
Whatever a shim observes and however its flushes go, every frame has one fate: it is still in the
buffer, or the daemon read it, a loss record counts it with its bytes, the buffer counts it as dropped, it
vanished, or its loss record could not be written. None vanishes while what the sockets take arrives, and
none goes unrecorded while the loss records are written.
-/
theorem observed_eq_fates (hdecode : LengthDelimitedCodec LENGTH_FIELD_LENGTH MAX_FRAME_LENGTH decode)
    (floatText : ℚ → String) (text : Json → List UInt8) (runtime : Runtime) (maxFrames maxBytes : Int)
    (hmax : maxBytes ≤ MAX_FRAME_LENGTH) (calls : List LinkCall)
    : ∃ gone : List (Json × Fate),
        (Run.exec (Link.step floatText text decode) (.start runtime maxFrames maxBytes) calls).Custody
          text gone
        ∧ ((∀ call ∈ calls, call.Arrives) → framesWith .vanished gone = [])
        ∧ ((∀ call ∈ calls, call.Spools) → framesWith .unrecorded gone = []) := by
  suffices h : ∃ gone : List (Json × Fate),
      (Run.exec (Link.step floatText text decode) (.start runtime maxFrames maxBytes) calls).Holds
        text maxBytes gone
      ∧ ((∀ call ∈ calls, call.Arrives) → framesWith .vanished gone = [])
      ∧ ((∀ call ∈ calls, call.Spools) → framesWith .unrecorded gone = []) by
    rcases h with ⟨gone, hholds, hfates⟩
    exact ⟨gone, hholds.custody, hfates⟩
  induction calls using List.reverseRecOn with
  | nil => exact ⟨[], Link.holds_start text runtime maxFrames maxBytes, fun _ => rfl, fun _ => rfl⟩
  | append_singleton calls call ih =>
    rcases ih with ⟨gone, hholds, hvanished, hunrecorded⟩
    rcases hholds.step hdecode hmax call with ⟨more, hnext, hmore, hmore'⟩
    rw [Run.exec_append, Run.exec_cons, Run.exec_nil]
    exact ⟨gone ++ more, hnext, framesWith_none hvanished hmore, framesWith_none hunrecorded hmore'⟩

section Instances

-- The first flush writes its frame, whose last byte gets lost, and the second one reaches no daemon and
-- cannot write its loss record either.
def twoFlushes : List LinkCall :=
  let context : SpoolContext := ⟨7, 1000, "tnt_a"⟩
  [.observe (assoc [("data", .int 1)]), .flush true [3, 9] [2] 1 context true,
    .observe (assoc [("data", .int 2)]), .flush false [] [] 0 context false]

def shim : Runtime := ⟨true, ⟨"tnt_a", "php-shim@0.1.0"⟩, []⟩

theorem observed_eq_fates_twoFlushes
    : ∃ gone : List (Json × Fate),
        (Run.exec (Link.step toString (fun _ => [1, 2]) (lengthDelimited LENGTH_FIELD_LENGTH MAX_FRAME_LENGTH))
          (.start shim 5000 1048576) twoFlushes).Custody (fun _ => [1, 2]) gone
        ∧ ((∀ call ∈ twoFlushes, call.Arrives) → framesWith .vanished gone = [])
        ∧ ((∀ call ∈ twoFlushes, call.Spools) → framesWith .unrecorded gone = []) :=
  observed_eq_fates (lengthDelimited_codec _ _) toString (fun _ => [1, 2]) shim 5000 1048576
    (by decide) twoFlushes

end Instances

end Athar.Wire
