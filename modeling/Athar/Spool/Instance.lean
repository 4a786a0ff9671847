import Mathlib.Data.List.Sort
import Athar.Audit.Instance
import Athar.Spool.Impl

/-!
This module contains a spool directory to compute with. Its JSON reading knows the loss records of a
list, as the compact texts that a shim writes.
-/

namespace Athar.Spool

open Storage Audit

def digits (n : Nat) : List Char := Nat.toDigits 10 n

def lossText (record : ShimLossRecord) : List Char :=
  "\x7b\"kind\":\"".toList ++ record.kind.toList
    ++ "\",\"reason\":\"".toList ++ record.reason.toList
    ++ "\",\"shim_pid\":".toList ++ digits record.shimPid.toInt.toNat
    ++ ",\"at_ms\":".toList ++ digits record.atMs.toNat
    ++ ",\"frames_lost\":".toList ++ digits record.framesLost.toNat
    ++ ",\"bytes_lost\":".toList ++ digits record.bytesLost.toNat
    ++ ",\"tenant_id\":\"".toList ++ record.tenantId.toList ++ "\"\x7d".toList

def valueText : Json → String
  | .string s => "\"" ++ s ++ "\""
  | .number n => toString n.num
  | _ => "null"

-- The compact text of an object of strings and whole numbers, with its names in order.
def objectText : Json → String
  | .object members =>
    let sorted := members.insertionSort fun a b => a.1 ≤ b.1
    "\x7b" ++ ",".intercalate (sorted.map fun (name, value) =>
      "\"" ++ name ++ "\":" ++ valueText value) ++ "\x7d"
  | _ => "null"

def SpoolJson.ofRecords (records : List ShimLossRecord) : SpoolJson where
  fromStr raw := records.find? fun record => lossText record = raw
  toVec value := asBytes (objectText value)

theorem SpoolJson.fromStr_lossText (record : ShimLossRecord)
    : (SpoolJson.ofRecords [record]).fromStr (lossText record) = some record := by
  simp only [SpoolJson.ofRecords, List.find?_cons, decide_true]

def loss : ShimLossRecord where
  kind := "shim_loss"
  reason := "daemon_unreachable"
  shimPid := 1234
  atMs := 1700000000000
  framesLost := 7
  bytesLost := 2048
  tenantId := "tnt_x"

-- The text of the record is one line with nothing to trim.
theorem lossText_loss
    : '\n' ∉ lossText loss ∧ (lossText loss).head? = some '\x7b'
        ∧ (lossText loss).getLast? = some '\x7d' := by
  decide +kernel

def smallEvidence : Storage.Config := ⟨65536, 8192, ⟨65536⟩⟩

def emptyEvidence : SegmentLog := SegmentLog.open smallEvidence ∅

def workingIo (auditIo : WriteOutcome Crates.toy.Text) : RecordIo Crates.toy where
  nowMs := 1700000005000
  nowUs := 1700000005000000
  logIo := ⟨⟨true, true, true⟩, .done, .done⟩
  auditIo := auditIo

end Athar.Spool
