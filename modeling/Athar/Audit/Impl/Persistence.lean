import Mathlib.Data.List.AList
import Mathlib.Data.List.Sort
import Athar.Audit.Impl.Basic
import Athar.Lib.Hex

/-!
This module contains the on-disk store of audit segments: one file per segment, named by its id in
hexadecimal, written through a temporary file that is renamed.

Segment ids are natural numbers: no run closes `2 ^ 64` segments.
-/

namespace Athar.Audit

open Hex

def SUFFIX : List Char := ".audit.json".toList

def TMP_SUFFIX : List Char := ".audit.json.tmp".toList

inductive PersistError where
  | io
  | json
  | verify (e : VerifyError)
  deriving DecidableEq, Repr

structure VerifyReport where
  segmentsVerified : Nat
  recordsVerified : Nat
  deriving DecidableEq, Repr

inductive WriteOutcome (Text : Type) where
  | done
  | createFailed
  | writeFailed (partialText : Text)
  | syncFailed
  | renameFailed

abbrev Dir (Text : Type) := AList fun _ : String => Text

variable (c : Crates)

structure SegmentStore where
  files : Dir c.Text

namespace SegmentStore

variable {c} (s : SegmentStore c)

def pathFor (id : Nat) : String := String.ofList (hex16 id ++ SUFFIX)

def tmpPathFor (id : Nat) : String := String.ofList (hex16 id ++ TMP_SUFFIX)

def write (seg : Segment) (outcome : WriteOutcome c.Text)
    : SegmentStore c × Except PersistError String :=
  let finalPath := pathFor seg.segmentId
  let tmpPath := tmpPathFor seg.segmentId
  let json := c.toVecPretty seg
  match outcome with
  | .createFailed => (s, .error .io)
  | .writeFailed partialText => (⟨s.files.insert tmpPath partialText⟩, .error .io)
  | .syncFailed => (⟨s.files.insert tmpPath json⟩, .error .io)
  | .renameFailed => (⟨s.files.insert tmpPath json⟩, .error .io)
  | .done => (⟨((s.files.insert tmpPath json).erase tmpPath).insert finalPath json⟩, .ok finalPath)

def read (id : Nat) : Except PersistError Segment :=
  match s.files.lookup (pathFor id) with
  | none => .error .io
  | some bytes =>
    match c.fromSlice bytes with
    | none => .error .json
    | some seg => .ok seg

def idOf (name : String) : Option Nat :=
  (stripSuffix name.toList SUFFIX).bind fromStrRadix16

def list : List Nat :=
  (s.files.keys.filterMap idOf).insertionSort (· ≤ ·)

-- The continuity check of `verifyAll`: the segment must anchor to the tip of the one before it.
def checkAnchor (c : Crates) (prevTip : Option Hash) (seg : Segment) : Except PersistError Unit :=
  match prevTip, seg.records with
  | some anchor, first :: _ =>
    if first.prevHash ≠ anchor then
      .error (.verify (.chainBroken 0))
    else
      match verifyChain c seg.records anchor first.record.seq with
      | .error e => .error (.verify e)
      | .ok _ => .ok ()
  | _, _ => .ok ()

-- One round of the loop of `verifyAll`, over the previous tip and the report so far.
def verifyNext (state : Option Hash × VerifyReport) (id : Nat)
    : Except PersistError (Option Hash × VerifyReport) :=
  match s.read id with
  | .error e => .error e
  | .ok seg =>
    match verifySegment c seg with
    | .error e => .error (.verify e)
    | .ok () =>
      match checkAnchor c state.1 seg with
      | .error e => .error e
      | .ok () =>
        .ok (seg.records.getLast?.map (·.recordHash),
          ⟨state.2.segmentsVerified + 1, state.2.recordsVerified + seg.records.length⟩)

def verifyAll : Except PersistError VerifyReport := do
  let (_, report) ← s.list.foldlM s.verifyNext (none, ⟨0, 0⟩)
  return report

end SegmentStore

end Athar.Audit
