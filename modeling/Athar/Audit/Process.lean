import Athar.Audit.Impl.Writer

/-!
This module contains the life of the process that owns the audit chain writer: it opens the writer
on the segment directory, calls it, and may crash at any moment, which drops the pending records.
-/

namespace Athar.Audit

namespace SegmentStore

variable {c : Crates}

def recordsIn (s : SegmentStore c) (id : Nat) : List AuditRecord :=
  match s.read id with
  | .ok seg => seg.records.map (·.record)
  | .error _ => []

-- The records of the segments on disk with id `firstId` or above.
def persistedSince (s : SegmentStore c) (firstId : Nat) : List AuditRecord :=
  (s.list.filter (firstId ≤ ·)).flatMap s.recordsIn

def persisted (s : SegmentStore c) : List AuditRecord :=
  s.list.flatMap s.recordsIn

end SegmentStore

variable (c : Crates)

inductive Call where
  | observe (kind : String) (payload : List UInt8) (nowUs : Int64) (outcome : WriteOutcome c.Text)
  | closeSegment (outcome : WriteOutcome c.Text)
  | flush (outcome : WriteOutcome c.Text)

variable {c}

namespace Call

def apply (w : AuditChainWriter c) : Call c → AuditChainWriter c
  | .observe kind payload nowUs outcome => (w.observe kind payload nowUs outcome).1
  | .closeSegment outcome => (w.closeSegment outcome).1
  | .flush outcome => (w.flush outcome).1

def outcome : Call c → WriteOutcome c.Text
  | .observe _ _ _ outcome => outcome
  | .closeSegment outcome => outcome
  | .flush outcome => outcome

-- The call reaches `SegmentStore::write`.
def Writes (w : AuditChainWriter c) : Call c → Prop
  | .observe _ _ _ _ => w.maxRecordsPerSegment ≤ w.inner.records.length + 1
  | .closeSegment _ => w.inner.records ≠ []
  | .flush _ => w.inner.records ≠ []

-- The record that the call passes to the chain writer.
def observed (w : AuditChainWriter c) : Call c → List AuditRecord
  | .observe kind payload nowUs _ => [w.recordOf kind payload nowUs]
  | .closeSegment _ => []
  | .flush _ => []

end Call

variable (c) in
inductive Action where
  | call (call : Call c)
  | crash
  | «open» (tenantId : String) (signer : SigningKey) (maxRecords : Option Nat)

variable (c) in
inductive Process where
  | running (w : AuditChainWriter c)
  | down (store : SegmentStore c)

namespace Process

def store : Process c → SegmentStore c
  | .running w => w.store
  | .down store => store

def «open» (store : SegmentStore c) (tenantId : String) (signer : SigningKey)
    (maxRecords : Option Nat) : Process c :=
  match AuditChainWriter.open store tenantId signer with
  | .error _ => .down store
  | .ok w =>
    match maxRecords with
    | none => .running w
    | some n => .running (w.withMaxRecordsPerSegment n)

-- Opening the writer again replaces the one that runs. Without a writer there is nothing to call.
def step : Process c → Action c → Process c
  | .running w, .call call => .running (call.apply w)
  | .down store, .call _ => .down store
  | p, .crash => .down p.store
  | p, .open tenantId signer maxRecords => Process.open p.store tenantId signer maxRecords

end Process

end Athar.Audit
