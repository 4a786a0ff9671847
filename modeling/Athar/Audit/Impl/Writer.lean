import Athar.Audit.Impl.Persistence

/-!
This module contains the audit chain writer of the daemon, which combines the chain writer, a
signing key and the segment store. It closes a segment when enough records are pending, and resumes
the chain from the last segment on disk when it is opened.
-/

namespace Athar.Audit

variable (c : Crates)

structure AuditChainWriter where
  inner : ChainWriter
  store : SegmentStore c
  signer : SigningKey
  tenantId : String
  tip : Hash
  nextSeq : UInt64
  nextSegmentId : Nat
  maxRecordsPerSegment : Nat

namespace AuditChainWriter

variable {c}

def «open» (store : SegmentStore c) (tenantId : String) (signer : SigningKey)
    : Except PersistError (AuditChainWriter c) := do
  let ids := store.list
  let (tip, nextSeq, nextSegmentId) ←
    match ids.getLast? with
    | some lastId => do
      let last ← store.read lastId
      let tip := (last.records.getLast?.map (·.recordHash)).getD GENESIS_PREV_HASH
      let nextSeq := (last.records.getLast?.map (·.record.seq + 1)).getD 0
      pure (tip, nextSeq, lastId + 1)
    | none => pure (GENESIS_PREV_HASH, 0, 0)
  return {
    inner := ChainWriter.fromTip tip nextSeq
    store, signer, tenantId, tip, nextSeq, nextSegmentId
    maxRecordsPerSegment := 1000
  }

def withMaxRecordsPerSegment (w : AuditChainWriter c) (n : Nat) : AuditChainWriter c :=
  { w with maxRecordsPerSegment := max n 1 }

def pendingRecords (w : AuditChainWriter c) : Nat := w.inner.records.length

def closeSegment (w : AuditChainWriter c) (outcome : WriteOutcome c.Text)
    : AuditChainWriter c × Except PersistError (Option String) :=
  if w.inner.records.isEmpty then
    (w, .ok none)
  else
    let id := w.nextSegmentId
    let (_, seg) := w.inner.closeSegment c id w.signer
    -- Tip and sequence number advance before the segment is written.
    let (tip, nextSeq) :=
      match seg.records.getLast? with
      | some last => (last.recordHash, last.record.seq + 1)
      | none => (w.tip, w.nextSeq)
    let (store, result) := w.store.write seg outcome
    ({ w with
        inner := ChainWriter.fromTip tip nextSeq
        store, tip, nextSeq
        nextSegmentId := id + 1 },
      result.map some)

def flush (w : AuditChainWriter c) (outcome : WriteOutcome c.Text)
    : AuditChainWriter c × Except PersistError (Option String) :=
  w.closeSegment outcome

def recordOf (w : AuditChainWriter c) (kind : String) (canonicalPayload : List UInt8)
    (nowUs : Int64) : AuditRecord where
  seq := 0
  timestampUs := nowUs
  tenantId := w.tenantId
  kind := kind
  payloadCommitment := Audit.payloadCommitment c canonicalPayload
  redacted := false

-- The record that `observe` appends, with its number.
def nextRecord (w : AuditChainWriter c) (kind : String) (canonicalPayload : List UInt8)
    (nowUs : Int64) : AuditRecord :=
  { w.recordOf kind canonicalPayload nowUs with seq := w.inner.nextSeq }

def observe (w : AuditChainWriter c) (kind : String) (canonicalPayload : List UInt8)
    (nowUs : Int64) (outcome : WriteOutcome c.Text)
    : AuditChainWriter c × Except PersistError Unit :=
  let (inner, _) := w.inner.append c (w.recordOf kind canonicalPayload nowUs)
  let w := { w with inner }
  if w.maxRecordsPerSegment ≤ inner.records.length then
    let (w, result) := w.closeSegment outcome
    (w, result.map fun _ => ())
  else
    (w, .ok ())

end AuditChainWriter

end Athar.Audit
