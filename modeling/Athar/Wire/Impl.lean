import Athar.Lib.Incremental

/-!
This module contains the two ends of a connection between a shim and the daemon. The shim writes
length-prefixed frames to a socket that may take any part of what it is given, and reads a response
that may arrive in any pieces. The daemon cuts what it reads into frames with a codec.

The codec is external. What it is documented to do with the bytes it holds is a structure of its own.
-/

namespace Athar.Wire

open Records Incremental

-- The loop over `fwrite`, which takes the next number of bytes or all it is given when that is less. A 0
-- stands for a `false` as well. What comes out is what the socket took and, unless a write failed, what
-- `fwrite` does next.
def writeAll : List Nat → List UInt8 → List UInt8 × Option (List Nat)
  | accepts, [] => ([], some accepts)
  | [], _ :: _ => ([], none)
  | n :: accepts, b :: payload =>
    if n = 0 then
      ([], none)
    else
      let (sent, accepts) := writeAll accepts ((b :: payload).drop n)
      ((b :: payload).take n ++ sent, accepts)

-- The loop over `fread`, which returns at most what it is asked for, and nothing on a timeout or at the
-- end. Beside the bytes read it gives what `fread` does next and what is still to be read.
def readExact : List Nat → Nat → List UInt8 → Option (List UInt8 × List Nat × List UInt8)
  | sizes, 0, incoming => some ([], sizes, incoming)
  | [], _ + 1, _ => none
  | size :: sizes, n + 1, incoming =>
    let chunk := incoming.take (min size (n + 1))
    if chunk = [] then
      none
    else
      match readExact sizes (n + 1 - chunk.length) (incoming.drop chunk.length) with
      | none => none
      | some (bytes, sizes, incoming) => some (chunk ++ bytes, sizes, incoming)

namespace Transport

def MAX_FRAME : Nat := 0x7fffffff

def MAX_RESPONSE : Nat := 8 * 1024 * 1024

def send.go : List Nat → List (List UInt8) → Nat × List UInt8
  | _, [] => (0, [])
  | accepts, frame :: frames =>
    -- A frame over 2 GB is skipped, and not counted.
    if MAX_FRAME < frame.length then
      go accepts frames
    else
      match writeAll accepts (encode 4 frame) with
      | (sent, none) => (0, sent)
      | (sent, some accepts) =>
        let (written, later) := go accepts frames
        (written + 1, sent ++ later)

-- The number of frames written in full, and all that the socket took.
def send (connected : Bool) (accepts : List Nat) (frames : List (List UInt8)) : Nat × List UInt8 :=
  if frames = [] then
    (0, [])
  else if ¬connected then
    (0, [])
  else
    send.go accepts frames

-- `answer` gives what comes back on the socket for what was sent.
def sendAndReceive (connected : Bool) (accepts sizes : List Nat) (answer : List UInt8 → List UInt8)
    (frame : List UInt8) : Option (List UInt8) :=
  if ¬connected then
    none
  else if frame.length = 0 ∨ MAX_FRAME < frame.length then
    none
  else
    match writeAll accepts (encode 4 frame) with
    | (_, none) => none
    | (sent, some _) => do
      let (header, sizes, incoming) ← readExact sizes 4 (answer sent)
      let respLen := ofBigEndian header
      if respLen = 0 ∨ MAX_RESPONSE < respLen then
        none
      else
        let (body, _, _) ← readExact sizes respLen incoming
        return body

end Transport

def LENGTH_FIELD_LENGTH : Nat := 4

def MAX_FRAME_LENGTH : Nat := 64 * 1024 * 1024

-- What the documentation of the codec says about the bytes that have arrived.
structure LengthDelimitedCodec (lengthFieldLength maxFrameLength : Nat)
    (decode : List UInt8 → Found UInt8 (List UInt8)) : Prop where
  no_header : ∀ held : List UInt8, held.length < lengthFieldLength → decode held = .more
  too_long : ∀ header held : List UInt8, header.length = lengthFieldLength →
    maxFrameLength < ofBigEndian header → decode (header ++ held) = .broken
  no_body : ∀ header held : List UInt8, header.length = lengthFieldLength →
    ofBigEndian header ≤ maxFrameLength → held.length < ofBigEndian header →
    decode (header ++ held) = .more
  body : ∀ header frame held : List UInt8, header.length = lengthFieldLength →
    frame.length = ofBigEndian header → frame.length ≤ maxFrameLength →
    decode (header ++ (frame ++ held)) = .frame frame held

-- The frames that the loop of `process_stream` goes over, for what each read returns. It ends with the
-- stream, and it breaks off on a decode error.
def framesOf (decode : List UInt8 → Found UInt8 (List UInt8)) (reads : List (List UInt8))
    : List (List UInt8) :=
  (feedAll decode (some []) reads).1

-- Reads of the given sizes, and one of what is left.
def readsOf : List Nat → List UInt8 → List (List UInt8)
  | [], bytes => [bytes]
  | size :: sizes, bytes => bytes.take size :: readsOf sizes (bytes.drop size)

-- The header of a response counts its bytes in a `u32`.
def writeFrame (body : List UInt8) : List UInt8 :=
  encode 4 body

end Athar.Wire
