import Athar.Audit.Impl.Writer
import Athar.Event.Impl
import Athar.Lib.Lines
import Athar.Storage.Impl

/-!
This module contains the shim-spool collector of the daemon: a scan of the spool directory reads
each file line by line, appends every loss record to the evidence log and commits it through the
audit chain, and deletes the file when all of it went through.

Reading and writing of JSON is external. What the file operations of the two stores do is an input,
and so are the clocks; files are read and deleted without failure.
-/

namespace Athar.Spool

open Storage Audit

structure ShimLossRecord where
  kind : String
  reason : String
  shimPid : Int64
  atMs : UInt64
  framesLost : UInt64
  bytesLost : UInt64
  tenantId : String
  deriving DecidableEq, Repr

structure SpoolJson where
  fromStr : List Char → Option ShimLossRecord
  toVec : Json → List UInt8

-- The characters with the property White_Space.
def isWhitespace (ch : Char) : Bool :=
  let n := ch.toNat
  (9 ≤ n ∧ n ≤ 13) ∨ n = 32 ∨ n = 0x85 ∨ n = 0xA0 ∨ n = 0x1680 ∨ (0x2000 ≤ n ∧ n ≤ 0x200A)
    ∨ n = 0x2028 ∨ n = 0x2029 ∨ n = 0x202F ∨ n = 0x205F ∨ n = 0x3000

def trim (text : List Char) : List Char :=
  ((text.dropWhile isWhitespace).reverse.dropWhile isWhitespace).reverse

def readToString (bytes : List UInt8) : Option String :=
  String.fromUTF8? ⟨bytes.toArray⟩

def extension (name : List Char) : Option (List Char) :=
  match name.reverse.dropWhile (· ≠ '.') with
  | [] => none
  | ['.'] => none
  | _ => some (name.reverse.takeWhile (· ≠ '.')).reverse

-- A loss record with the file and the line it was read from.
structure Gap (F : Type) where
  file : F
  lineNo : Nat
  record : ShimLossRecord
  deriving DecidableEq, Repr

inductive SpoolError where
  | readFile
  | appendEvidence (e : StorageError)
  | appendAudit (e : PersistError)
  deriving DecidableEq, Repr

-- What the ingestion of one record reads from outside.
structure RecordIo (c : Crates) where
  nowMs : Nat
  nowUs : Int64
  logIo : AppendIo
  auditIo : WriteOutcome c.Text

-- The two stores, with the records that each of them has taken, and those of which the audit chain still has
-- the commitment, on disk or pending.
structure Stores (c : Crates) (F : Type) where
  log : SegmentLog
  audit : AuditChainWriter c
  appended : List (Gap F)
  committed : List (Gap F)
  chained : List (Gap F)

def coverageGap (record : ShimLossRecord) (nowMs : Nat) : Json :=
  .object
    [("kind", .string "coverage_gap"),
      ("cause", .string "SHIM_DAEMON_UNREACHABLE"),
      ("reason", .string record.reason),
      ("shim_pid", .number record.shimPid.toInt),
      ("frames", .number record.framesLost.toNat),
      ("bytes", .number record.bytesLost.toNat),
      ("window_started_at_ms", .number record.atMs.toNat),
      ("recorded_at_ms", .number nowMs),
      ("tenant_id", .string record.tenantId)]

variable {c : Crates} {F : Type} (json : SpoolJson)

-- The record of a line, unless the line is blank or malformed.
def parseLine (raw : List Char) : Option ShimLossRecord :=
  let raw := trim raw
  if raw.isEmpty then none else json.fromStr raw

namespace Stores

variable (st : Stores c F)

-- The records whose commitments are pending: the last ones.
def pending : List (Gap F) :=
  st.chained.drop (st.chained.length - st.audit.pendingRecords)

-- A segment that cannot be written takes the pending commitments with it.
def unchain : List (Gap F) :=
  st.chained.take (st.chained.length - st.audit.pendingRecords)

def ingestRecord (gap : Gap F) (io : RecordIo c) : Stores c F × Except SpoolError Unit :=
  let payload := json.toVec (coverageGap gap.record io.nowMs)
  match st.log.append payload io.logIo with
  | (log, .error e) => ({ st with log }, .error (.appendEvidence e))
  | (log, .ok _) =>
    let st := { st with log, appended := st.appended ++ [gap] }
    match st.audit.observe "coverage_gap" payload io.nowUs io.auditIo with
    | (audit, .error e) => ({ st with audit, chained := st.unchain }, .error (.appendAudit e))
    | (audit, .ok ()) =>
      ({ st with audit, committed := st.committed ++ [gap], chained := st.chained ++ [gap] }, .ok ())

-- The loop of `ingest_file` over the lines from a line number on.
def ingestLines (file : F) (ios : Nat → RecordIo c)
    : List (List Char) → Nat → Stores c F → Stores c F × Except SpoolError Nat
  | [], _, st => (st, .ok 0)
  | raw :: rest, lineNo, st =>
    match parseLine json raw with
    | none => ingestLines file ios rest (lineNo + 1) st
    | some record =>
      match st.ingestRecord json ⟨file, lineNo, record⟩ (ios lineNo) with
      | (st, .error e) => (st, .error e)
      | (st, .ok ()) =>
        let (st, n) := ingestLines file ios rest (lineNo + 1) st
        (st, n.map (· + 1))

def ingestFile (file : F) (bytes : List UInt8) (ios : Nat → RecordIo c)
    : Stores c F × Except SpoolError Nat :=
  match readToString bytes with
  | none => (st, .error .readFile)
  | some content => ingestLines json file ios (Lines.lines content.toList) 0 st

end Stores

structure ShimSpoolCollector (c : Crates) where
  spoolDir : Dir
  stores : Stores c String

-- An entry of the directory scan, with the outcomes for the record of each line.
structure Entry (c : Crates) where
  path : String
  ios : Nat → RecordIo c

namespace ShimSpoolCollector

variable (s : ShimSpoolCollector c)

def drainEntry (entry : Entry c) : ShimSpoolCollector c × Nat :=
  match s.spoolDir.lookup entry.path with
  | none => (s, 0)
  | some bytes =>
    if extension entry.path.toList ≠ some "jsonl".toList then
      (s, 0)
    else
      match s.stores.ingestFile json entry.path bytes entry.ios with
      | (stores, .error _) => ({ s with stores }, 0)
      | (stores, .ok n) => (⟨s.spoolDir.erase entry.path, stores⟩, n)

def drain (entries : List (Entry c)) : ShimSpoolCollector c × Nat :=
  entries.foldl
    (fun acc entry =>
      let (s, n) := acc.1.drainEntry json entry
      (s, acc.2 + n))
    (s, 0)

end ShimSpoolCollector

end Athar.Spool
