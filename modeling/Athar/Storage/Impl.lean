import Mathlib.Data.List.AList
import Athar.Lib.Bytes
import Athar.Lib.Hex

/-!
This module contains the evidence log: a directory of segment files, each a sequence of
length-prefixed records. The active segment carries a `.wip` suffix until it is rotated, and what a
crash leaves of it is quarantined when the log is opened.

File operations report success or failure, which is an input here; a failed write may leave any
prefix of its bytes. Segment ids, sizes and totals are natural numbers: no log gets `2 ^ 64` of them.
-/

namespace Athar.Storage

open Hex

def SEG_EXT : List Char := "seg".toList

def WIP_EXT : List Char := "seg.wip".toList

def QUARANTINE_EXT : List Char := "seg.quarantine".toList

def RECORD_HEADER_BYTES : Nat := 4

inductive Fits where
  | yes
  | no (overBy : Nat)
  deriving DecidableEq, Repr

structure Quota where
  limitBytes : Nat
  deriving DecidableEq, Repr

def Quota.check (q : Quota) (currentTotal recordSize : Nat) : Fits :=
  let total := currentTotal + recordSize
  if 2 ^ 64 ≤ total then
    .no (2 ^ 64 - 1)
  else if total ≤ q.limitBytes then
    .yes
  else
    .no (total - q.limitBytes)

structure Config where
  maxSegmentBytes : Nat
  maxRecordBytes : Nat
  quota : Quota
  deriving DecidableEq, Repr

inductive StorageError where
  | io
  | recordTooLarge (size max : Nat)
  | quotaExceeded (total record limit : Nat)
  | noActiveSegment
  deriving DecidableEq, Repr

structure AppendReceipt where
  segmentId : Nat
  recordIndex : Nat
  offsetInSegment : Nat
  bytesWritten : Nat
  deriving DecidableEq, Repr

abbrev Dir := AList fun _ : String => List UInt8

namespace Dir

def rename (files : Dir) (source target : String) : Dir :=
  match files.lookup source with
  | none => files
  | some bytes => (files.erase source).insert target bytes

-- Opens a file for appending, creating it when it is not there.
def openAppend (files : Dir) (name : String) : Dir :=
  files.insert name ((files.lookup name).getD [])

def append (files : Dir) (name : String) (bytes : List UInt8) : Dir :=
  files.insert name ((files.lookup name).getD [] ++ bytes)

def size (files : Dir) (name : String) : Nat :=
  ((files.lookup name).getD []).length

end Dir

def fileStem (name : List Char) : List Char :=
  match name.reverse.dropWhile (· ≠ '.') with
  | [] => name
  | ['.'] => name
  | _ :: stem => stem.reverse

def withExtension (name : String) (ext : List Char) : String :=
  String.ofList (fileStem name.toList ++ '.' :: ext)

def endsWith (name : String) (ext : List Char) : Bool :=
  ('.' :: ext) <:+ name.toList

def wipPath (id : Nat) : String := String.ofList (hex16 id ++ '.' :: WIP_EXT)

def parseSegmentId (name : String) : Option Nat :=
  fromStrRadix16 (name.toList.takeWhile (· ≠ '.'))

structure Active where
  id : Nat
  path : String
  writtenBytes : Nat
  recordCount : Nat
  deriving DecidableEq, Repr

structure SegmentLog where
  config : Config
  active : Option Active
  totalBytes : Nat
  nextSegId : Nat
  quarantinedAtOpen : Nat
  files : Dir

inductive WriteAll where
  | done
  | failed (written : Nat)
  deriving DecidableEq, Repr

-- The outcomes of `sync_all`, `rename` and `open` in one rotation.
structure RotateIo where
  sync : Bool
  rename : Bool
  «open» : Bool
  deriving DecidableEq, Repr

structure AppendIo where
  rotate : RotateIo
  header : WriteAll
  body : WriteAll
  deriving DecidableEq, Repr

namespace SegmentLog

-- One round of the recovery loop of `open`, over the directory and the quarantined bytes.
def quarantine (acc : Dir × Nat) (name : String) : Dir × Nat :=
  if endsWith name WIP_EXT then
    (acc.1.rename name (withExtension name QUARANTINE_EXT), acc.2 + acc.1.size name)
  else
    acc

-- One round of the second loop of `open`, over the highest id and the total bytes.
def countSegment (files : Dir) (acc : Option Nat × Nat) (name : String) : Option Nat × Nat :=
  if endsWith name SEG_EXT ∨ endsWith name QUARANTINE_EXT then
    let total := acc.2 + files.size name
    match parseSegmentId name with
    | some id => (some (acc.1.elim id (max · id)), total)
    | none => (acc.1, total)
  else
    acc

def «open» (config : Config) (files : Dir) : SegmentLog :=
  let (files, quarantinedAtOpen) := files.keys.foldl quarantine (files, 0)
  let (highestId, totalBytes) := files.keys.foldl (countSegment files) (none, 0)
  { config
    active := none
    totalBytes
    nextSegId := highestId.elim 0 (· + 1)
    quarantinedAtOpen
    files }

variable (l : SegmentLog)

-- The first half of `rotate`: whatever goes wrong, the active segment has been taken.
def closeActive (io : RotateIo) : SegmentLog × Except StorageError (Option String) :=
  match l.active with
  | none => (l, .ok none)
  | some a =>
    let l := { l with active := none }
    if ¬io.sync then
      (l, .error .io)
    else
      let closed := withExtension a.path SEG_EXT
      if ¬io.rename then
        (l, .error .io)
      else
        ({ l with files := l.files.rename a.path closed }, .ok (some closed))

def openActive (io : RotateIo) : SegmentLog × Except StorageError Unit :=
  let id := l.nextSegId
  let l := { l with nextSegId := id + 1 }
  let path := wipPath id
  if ¬io.open then
    (l, .error .io)
  else
    ({ l with
        files := l.files.openAppend path
        active := some ⟨id, path, 0, 0⟩ },
      .ok ())

def rotate (io : RotateIo) : SegmentLog × Except StorageError (Option String) :=
  match l.closeActive io with
  | (l, .error e) => (l, .error e)
  | (l, .ok closedPath) =>
    match l.openActive io with
    | (l, .error e) => (l, .error e)
    | (l, .ok ()) => (l, .ok closedPath)

def writeAll (path : String) (bytes : List UInt8)
    : WriteAll → SegmentLog × Except StorageError Unit
  | .done => ({ l with files := l.files.append path bytes }, .ok ())
  | .failed written =>
    ({ l with files := l.files.append path (bytes.take written) }, .error .io)

-- The second half of `append`: the record is accepted and there is room for it.
def writeRecord (data : List UInt8) (io : AppendIo)
    : SegmentLog × Except StorageError AppendReceipt :=
  match l.active with
  | none => (l, .error .noActiveSegment)
  | some a =>
    let recordSizeOnDisk := RECORD_HEADER_BYTES + data.length
    match l.writeAll a.path (Bytes.bigEndian RECORD_HEADER_BYTES data.length) io.header with
    | (l, .error e) => (l, .error e)
    | (l, .ok ()) =>
      match l.writeAll a.path data io.body with
      | (l, .error e) => (l, .error e)
      | (l, .ok ()) =>
        ({ l with
            active := some { a with
              writtenBytes := a.writtenBytes + recordSizeOnDisk
              recordCount := a.recordCount + 1 }
            totalBytes := l.totalBytes + recordSizeOnDisk },
          .ok ⟨a.id, a.recordCount, a.writtenBytes, recordSizeOnDisk⟩)

def mustRotate (recordSizeOnDisk : Nat) : Bool :=
  match l.active with
  | none => true
  | some a => l.config.maxSegmentBytes < a.writtenBytes + recordSizeOnDisk

def append (data : List UInt8) (io : AppendIo) : SegmentLog × Except StorageError AppendReceipt :=
  if l.config.maxRecordBytes < data.length then
    (l, .error (.recordTooLarge data.length l.config.maxRecordBytes))
  else
    let recordSizeOnDisk := RECORD_HEADER_BYTES + data.length
    match l.config.quota.check l.totalBytes recordSizeOnDisk with
    | .no _ =>
      (l, .error (.quotaExceeded l.totalBytes recordSizeOnDisk l.config.quota.limitBytes))
    | .yes =>
      if l.mustRotate recordSizeOnDisk then
        match l.rotate io.rotate with
        | (l, .error e) => (l, .error e)
        | (l, .ok _) => l.writeRecord data io
      else
        l.writeRecord data io

end SegmentLog

end Athar.Storage
