import Mathlib.Data.List.Sort
import Athar.Lib.Records
import Athar.Storage.Impl

/-!
This module contains the rest of the evidence log, the listing and the reading of its segments, eviction
and a clean close, and the daemon that uses it: a process that opens the log, works with it and closes
it or crashes. A crash loses the log but not what was written to the files.
-/

namespace Athar.Storage

inductive SegmentState where
  | closed
  | active
  | quarantined
  deriving DecidableEq, Repr

structure SegmentInfo where
  id : Nat
  path : String
  sizeBytes : Nat
  recordCount : Nat
  state : SegmentState
  deriving DecidableEq, Repr

inductive ReadError where
  | io
  | segmentCorrupt (path : String) (offset : Nat) (reason : String)
  deriving DecidableEq, Repr

def segmentState (name : String) : Option SegmentState :=
  if endsWith name SEG_EXT then
    some .closed
  else if endsWith name WIP_EXT then
    some .active
  else if endsWith name QUARANTINE_EXT then
    some .quarantined
  else
    none

def countRecordsBestEffort (bytes : List UInt8) : Nat :=
  (Records.read RECORD_HEADER_BYTES bytes).length

def segmentInfo (active : Option Active) (entry : (_ : String) × List UInt8) : Option SegmentInfo :=
  match segmentState entry.1, parseSegmentId entry.1 with
  | some state, some id =>
    some {
      id
      path := entry.1
      sizeBytes := entry.2.length
      recordCount :=
        if state = .closed then
          countRecordsBestEffort entry.2
        else
          (active.filter (·.id = id)).elim 0 (·.recordCount)
      state }
  | _, _ => none

def segments (files : Dir) (active : Option Active) : List SegmentInfo :=
  (files.entries.filterMap (segmentInfo active)).insertionSort (·.id ≤ ·.id)

def readSegmentRecords (files : Dir) (path : String) : Except ReadError (List (List UInt8)) :=
  match files.lookup path with
  | none => .error .io
  | some bytes =>
    match Records.readStrict RECORD_HEADER_BYTES bytes with
    | .error offset => .error (.segmentCorrupt path offset "truncated record body")
    | .ok records => .ok records

namespace SegmentLog

variable (l : SegmentLog)

def sync (succeeds : Bool) : Except StorageError Unit :=
  match l.active with
  | none => .ok ()
  | some _ => if succeeds then .ok () else .error .io

-- The log is gone after `close`, whatever it returns: what is left is the directory.
def close (io : RotateIo) (removes : Bool) : Dir × Except StorageError Unit :=
  match l.active with
  | none => (l.files, .ok ())
  | some _ =>
    match l.rotate io with
    | (l, .error e) => (l.files, .error e)
    | (l, .ok _) =>
      match l.active with
      | none => (l.files, .ok ())
      | some a =>
        if a.writtenBytes = 0 ∧ removes then
          (l.files.erase a.path, .ok ())
        else
          (l.files, .ok ())

def evictOldestClosed (removes : Bool) : SegmentLog × Except StorageError (Option Nat) :=
  match (segments l.files l.active).find? (·.state = .closed) with
  | none => (l, .ok none)
  | some target =>
    if ¬removes then
      (l, .error .io)
    else
      ({ l with
          files := l.files.erase target.path
          totalBytes := l.totalBytes - target.sizeBytes },
        .ok (some target.id))

end SegmentLog

def RotateIo.done : RotateIo := ⟨true, true, true⟩

def AppendIo.done : AppendIo := ⟨.done, .done, .done⟩

-- The log is open, or the directory is all there is.
inductive Process where
  | down (files : Dir)
  | up (log : SegmentLog)

inductive Command where
  -- How many files the recovery of `open` has gone through when it fails, if it does.
  | «open» (failsAfter : Option Nat)
  | append (data : List UInt8) (io : AppendIo)
  | rotate (io : RotateIo)
  | sync (succeeds : Bool)
  | close (io : RotateIo) (removes : Bool)
  | evictOldestClosed (removes : Bool)
  | crash

namespace Process

def files : Process → Dir
  | .down files => files
  | .up log => log.files

def active : Process → Option Active
  | .down _ => none
  | .up log => log.active

def «open» (config : Config) (files : Dir) : Option Nat → Process
  | none => .up (SegmentLog.open config files)
  | some failsAfter => .down ((files.keys.take failsAfter).foldl SegmentLog.quarantine (files, 0)).1

def step (config : Config) : Process → Command → Process
  | .down files, .open failsAfter => Process.open config files failsAfter
  | .down files, _ => .down files
  | .up log, .append data io => .up (log.append data io).1
  | .up log, .rotate io => .up (log.rotate io).1
  | .up log, .close io removes => .down (log.close io removes).1
  | .up log, .evictOldestClosed removes => .up (log.evictOldestClosed removes).1
  | .up log, .crash => .down log.files
  | .up log, _ => .up log

end Process

-- A record whose append returned Ok, with what it returned.
structure Accepted where
  receipt : AppendReceipt
  data : List UInt8
  deriving DecidableEq, Repr

/--
The history of a process: the accepted records, less those of the segments that were evicted, the segments
that were active at a crash, and the one that is until the log is opened again.
-/
structure Session where
  process : Process
  accepted : List Accepted
  crashed : List Nat
  interrupted : Option Nat

namespace Session

def start : Session := ⟨.down ∅, [], [], none⟩

def acceptedAfter (accepted : List Accepted) : Process → Command → List Accepted
  | .up log, .append data io =>
    match (log.append data io).2 with
    | .ok receipt => accepted ++ [⟨receipt, data⟩]
    | .error _ => accepted
  | .up log, .evictOldestClosed removes =>
    match (log.evictOldestClosed removes).2 with
    | .ok (some id) => accepted.filter (·.receipt.segmentId ≠ id)
    | _ => accepted
  | _, _ => accepted

def crashedAfter (crashed : List Nat) (interrupted : Option Nat)
    : Process → Command → List Nat × Option Nat
  | .up log, .crash => (crashed, log.active.map (·.id))
  | .down _, .open none => (crashed ++ interrupted.toList, none)
  | _, _ => (crashed, interrupted)

def step (config : Config) (s : Session) (cmd : Command) : Session where
  process := s.process.step config cmd
  accepted := acceptedAfter s.accepted s.process cmd
  crashed := (crashedAfter s.crashed s.interrupted s.process cmd).1
  interrupted := (crashedAfter s.crashed s.interrupted s.process cmd).2

end Session

end Athar.Storage
