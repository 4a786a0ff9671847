import Athar.Ingest.Impl

/-!
This module contains the drop counters operation by operation. The connections and the emitter of coverage
gaps share the three counters, and what they do to them interleaves. The operations are relaxed, so those
of one call on different counters take effect in any order, unless one depends on what another returned.
-/

namespace Athar

-- An operation on a counter that has not taken effect yet, with what its call does next.
inductive DropOp where
  -- `record`
  | countFrame (nowMs : Nat)
  | storeSince (nowMs : Nat)
  | countBytes (frameBytes : Nat)
  -- `take`
  | swapFrames
  | swapRest (frames : UInt64) (bytes : Option UInt64) (sinceMs : Option Nat)
  deriving DecidableEq, Repr

inductive RacingCall where
  | record (frameBytes nowMs : Nat)
  | take
  -- Some operation takes effect. Of the two swaps that are left to a `take`, it may be the second one.
  | advance (k : Nat) (second : Bool)
  deriving DecidableEq, Repr

structure RacingDrops where
  drops : DropCounters
  ops : List DropOp
  -- The frames that were recorded, each with its length, and what the takes returned.
  recorded : List Nat
  taken : List CoverageGapSummary
  deriving Repr

namespace RacingDrops

def start : RacingDrops := ⟨⟨0, 0, 0⟩, [], [], []⟩

-- The effect of an operation, the operations that follow from it, and what a `take` returns with it.
def effect (drops : DropCounters) (second : Bool)
    : DropOp → DropCounters × List DropOp × Option CoverageGapSummary
  | .countFrame nowMs =>
    ({ drops with frames := drops.frames + 1 }, if drops.frames = 0 then [.storeSince nowMs] else [], none)
  | .storeSince nowMs => ({ drops with sinceMs := nowMs }, [], none)
  | .countBytes frameBytes => ({ drops with bytes := drops.bytes + UInt64.ofNat frameBytes }, [], none)
  | .swapFrames =>
    ({ drops with frames := 0 }, if drops.frames = 0 then [] else [.swapRest drops.frames none none], none)
  | .swapRest frames none none =>
    if second then
      ({ drops with sinceMs := 0 }, [.swapRest frames none (some drops.sinceMs)], none)
    else
      ({ drops with bytes := 0 }, [.swapRest frames (some drops.bytes) none], none)
  | .swapRest frames none (some sinceMs) =>
    ({ drops with bytes := 0 }, [], some ⟨frames, drops.bytes, sinceMs⟩)
  | .swapRest frames (some bytes) none =>
    ({ drops with sinceMs := 0 }, [], some ⟨frames, bytes, drops.sinceMs⟩)
  | .swapRest frames (some bytes) (some sinceMs) => (drops, [], some ⟨frames, bytes, sinceMs⟩)

def step (st : RacingDrops) : RacingCall → RacingDrops
  | .record frameBytes nowMs =>
    { st with
      ops := st.ops ++ [.countFrame nowMs, .countBytes frameBytes]
      recorded := st.recorded ++ [frameBytes] }
  | .take => { st with ops := st.ops ++ [.swapFrames] }
  | .advance k second =>
    match st.ops[k]? with
    | none => st
    | some op =>
      let (drops, next, taken) := effect st.drops second op
      { st with drops, ops := st.ops.eraseIdx k ++ next, taken := st.taken ++ taken.toList }

end RacingDrops

end Athar
