import Athar.Shim.Impl.Runtime

/-!
This module contains the bounded buffer of the shim, and the flush that hands its frames to the
transport and spools a loss record for those that were not written. What the transport manages to
write is an input.
-/

namespace Athar.Shim

structure Buffer where
  maxFrames : Int
  maxBytes : Int
  frames : List Json
  totalBytes : Int
  dropped : Nat

variable (strlen : Json → Nat)

namespace Buffer

def new (maxFrames maxBytes : Int) : Buffer where
  maxFrames
  maxBytes
  frames := []
  totalBytes := 0
  dropped := 0

-- There is no room for one more frame of the given size.
def full (b : Buffer) (size : Int) : Bool :=
  b.maxFrames ≤ b.frames.length || b.maxBytes < b.totalBytes + size

-- The loop of `push`, which shifts the oldest frame out until the new one fits.
def push.go (frame : Json) (b : Buffer) : List Json → Buffer
  | [] =>
    if full { b with frames := [] } (strlen frame) then
      { b with frames := [], dropped := b.dropped + 1 }
    else
      { b with frames := [frame], totalBytes := b.totalBytes + strlen frame }
  | old :: frames =>
    if full { b with frames := old :: frames } (strlen frame) then
      push.go frame
        { b with totalBytes := b.totalBytes - strlen old, dropped := b.dropped + 1 } frames
    else
      { b with
        frames := old :: frames ++ [frame]
        totalBytes := b.totalBytes + strlen frame }

def push (b : Buffer) (frame : Json) : Buffer :=
  push.go strlen frame b b.frames

def drain (b : Buffer) : Buffer × List Json :=
  ({ b with frames := [], totalBytes := 0 }, b.frames)

def resetDroppedCounter (b : Buffer) : Buffer × Nat :=
  ({ b with dropped := 0 }, b.dropped)

end Buffer

-- The line of a spool file.
structure LossRecord where
  kind : String
  reason : String
  shimPid : Nat
  atMs : Nat
  framesLost : Nat
  bytesLost : Nat
  tenantId : String
  deriving DecidableEq, Repr

-- What a loss record takes from the process and its environment.
structure SpoolContext where
  pid : Nat
  nowMs : Nat
  tenantId : String
  deriving DecidableEq, Repr

def lossRecord (context : SpoolContext) (reason : String) (framesLost bytesLost : Nat)
    : LossRecord where
  kind := "shim_loss"
  reason
  shimPid := context.pid
  atMs := context.nowMs
  framesLost
  bytesLost
  tenantId := context.tenantId

-- The loss record of a flush of which the transport wrote the given number of frames.
def lossOf (context : SpoolContext) (frames : List Json) (written : Nat) : Option LossRecord :=
  if written < frames.length then
    let lost := frames.drop written
    some (lossRecord context "daemon_unreachable" lost.length ((lost.map strlen).foldl (· + ·) 0))
  else
    none

-- The buffer after a flush, what was sent, and what is spooled.
def Buffer.flush (context : SpoolContext) (b : Buffer) (written : Nat)
    : Buffer × List Json × Option LossRecord :=
  let (b, frames) := b.drain
  if frames = [] then
    (b, [], none)
  else
    (b, frames.take written, lossOf strlen context frames written)

end Athar.Shim
