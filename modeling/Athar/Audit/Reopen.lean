import Athar.Lib.Run
import Athar.Audit.Instance
import Athar.Audit.Process
import Athar.Audit.Lemmas.Writer

/-!
This module contains the audit chain across rotation, crash and reopen. What the process persists is
described by a ledger that knows nothing of files, hashes and ids: it collects the commitments of the
observes and moves them to the closed segments. The process refines it, and the directory is one
chain from genesis, whatever the order of calls, crashes and reopens.
-/

namespace Athar.Audit

structure Ledger (α : Type) where
  limit : Option Nat
  pending : List α
  closed : List (List α)
  deriving Repr, DecidableEq

namespace Ledger

variable {α : Type}

inductive Action (α : Type) where
  | observe (x : α)
  | close
  | crash
  | «open» (limit : Nat)

def empty : Ledger α := ⟨none, [], []⟩

def close (l : Ledger α) : Ledger α :=
  if l.pending = [] then l else { l with pending := [], closed := l.closed ++ [l.pending] }

def step (l : Ledger α) : Action α → Ledger α
  | .observe x =>
    match l.limit with
    | none => l
    | some limit =>
      let l := { l with pending := l.pending ++ [x] }
      if limit ≤ l.pending.length then l.close else l
  | .close => l.close
  | .crash => { l with limit := none, pending := [] }
  | .open limit => { l with limit := some limit, pending := [] }

end Ledger

variable {c : Crates}

def Call.ledger : Call c → Ledger.Action Hash
  | .observe _ payload _ _ => .observe (payloadCommitment c payload)
  | .closeSegment _ => .close
  | .flush _ => .close

namespace Action

def ledger : Action c → Ledger.Action Hash
  | .call request => request.ledger
  | .crash => .crash
  | .open _ _ maxRecords => .open ((maxRecords.map (max · 1)).getD 1000)

def Succeeds : Action c → Prop
  | .call request => request.outcome = .done
  | .crash => True
  | .open _ _ _ => True

end Action

def commitments (rs : List ChainedRecord) : List Hash :=
  rs.map (·.record.payloadCommitment)

-- The segments on disk in id order, as one chain from genesis.
structure Stored (s : SegmentStore c) (segs : List Segment) : Prop where
  reads : s.Reads s.list segs
  continuous : Continuous c none segs
  linked : (chain c).Linked GENESIS_PREV_HASH 0 (segs.flatMap (·.records))

theorem SegmentStore.Reads.flatMap_recordsIn {s : SegmentStore c} {ids : List Nat}
    {segs : List Segment} (h : s.Reads ids segs)
    : ids.flatMap s.recordsIn = (segs.flatMap (·.records)).map (·.record) := by
  induction h with
  | nil => rfl
  | cons hread _ ih => simp [SegmentStore.recordsIn, hread, ih]

theorem Stored.persisted {s : SegmentStore c} {segs : List Segment} (h : Stored s segs)
    : s.persisted = (segs.flatMap (·.records)).map (·.record) := by
  exact h.reads.flatMap_recordsIn

theorem tipAfter_some {segs : List Segment} (hne : ∀ seg ∈ segs, seg.records ≠ []) (p : Hash)
    : SegmentStore.tipAfter (some p) segs = some ((chain c).tip p (segs.flatMap (·.records))) := by
  induction segs generalizing p with
  | nil => rfl
  | cons seg segs ih =>
    have hrest : ∀ seg' ∈ segs, seg'.records ≠ [] := by
      intro seg' hmem
      exact hne seg' (by simp [hmem])
    have htip : (chain c).tip p seg.records = seg.tip := by
      rw [Segment.tip_eq (c := c)]
      apply HashChain.tip_eq_of_ne_nil
      exact hne seg (by simp)
    rw [List.flatMap_cons, HashChain.tip_append, htip, ← ih hrest]
    rfl

theorem tipAfter_none_getD {segs : List Segment} (hne : ∀ seg ∈ segs, seg.records ≠ []) (p : Hash)
    : (SegmentStore.tipAfter none segs).getD p = (chain c).tip p (segs.flatMap (·.records)) := by
  cases segs with
  | nil => rfl
  | cons seg segs =>
    have := tipAfter_some (c := c) hne p
    have hskip : SegmentStore.tipAfter none (seg :: segs)
        = SegmentStore.tipAfter (some p) (seg :: segs) := by
      rfl
    rw [hskip, this]
    rfl

theorem getLast?_flatMap_records {segs : List Segment} (hne : ∀ seg ∈ segs, seg.records ≠ [])
    : (segs.flatMap (·.records)).getLast? = segs.getLast?.bind (·.records.getLast?) := by
  rcases List.eq_nil_or_concat segs with rfl | ⟨init, seg, rfl⟩
  . rfl
  . have hlast := List.getLast?_eq_some_getLast (hne seg (by simp))
    simp [List.flatMap_append, List.getLast?_append, hlast]

-- Where a chain goes on: one after its last record, at 0 when it has none.
theorem nextSeq_eq_of_linked {p : Hash} {rs : List ChainedRecord} (h : (chain c).Linked p 0 rs)
    : (rs.getLast?.map (·.record.seq + 1)).getD 0 = (chain c).nextSeq 0 rs := by
  cases hlast : rs.getLast? with
  | none =>
    rw [List.getLast?_eq_none_iff] at hlast
    rw [hlast]
    rfl
  | some last =>
    rw [← h.last_seq hlast]
    rfl

namespace AuditChainWriter

structure Resumed (w : AuditChainWriter c) (segs : List Segment) : Prop where
  synced : w.Synced segs
  linked : (chain c).Linked GENESIS_PREV_HASH 0 (segs.flatMap (·.records))
  nextSeq_eq : w.nextSeq = (chain c).nextSeq 0 (segs.flatMap (·.records))

theorem Resumed.stored {w : AuditChainWriter c} {segs : List Segment} (h : w.Resumed segs)
    : Stored w.store segs where
  reads := h.synced.reads
  continuous := h.synced.continuous
  linked := h.linked

theorem Resumed.push {w : AuditChainWriter c} {segs : List Segment} (h : w.Resumed segs)
    (kind : String) (payload : List UInt8) (nowUs : Int64)
    : (w.push kind payload nowUs).Resumed segs where
  synced := h.synced.push kind payload nowUs
  linked := h.linked
  nextSeq_eq := h.nextSeq_eq

theorem Resumed.closeSegment (hc : c.Lawful) {w : AuditChainWriter c} {segs : List Segment}
    (h : w.Resumed segs) (hne : w.inner.records ≠ [])
    : (w.closeSegment .done).1.Resumed (segs ++ [w.pendingSegment]) := by
  have htip : w.tip = (chain c).tip GENESIS_PREV_HASH (segs.flatMap (·.records)) := by
    rw [h.synced.tip_eq]
    apply tipAfter_none_getD
    exact h.synced.continuous.records_ne_nil
  have hpending := h.synced.pending.linked
  rcases closeSegment_of_ne_nil hne .done with ⟨last, hlast, heq⟩
  constructor
  . exact h.synced.closeSegment hc hne
  . rw [List.flatMap_append, HashChain.linked_append, ← htip, ← h.nextSeq_eq]
    simpa using ⟨h.linked, hpending⟩
  . rw [List.flatMap_append, HashChain.nextSeq_append, ← h.nextSeq_eq, heq]
    have := hpending.last_seq hlast
    simpa using this

theorem Resumed.open {store : SegmentStore c} {segs : List Segment} (h : Stored store segs)
    (tenantId : String) (signer : SigningKey)
    : ∃ w, AuditChainWriter.open store tenantId signer = .ok w ∧ w.inner.records = []
        ∧ w.maxRecordsPerSegment = 1000 ∧ w.Resumed segs := by
  have hverify := (SegmentStore.verifyAll_eq_ok_iff store _).mpr ⟨segs, h.reads, h.continuous, rfl⟩
  rcases Synced.open hverify tenantId signer with
    ⟨w, segs', hopen, hstore, hnil, _, _, hmax, hseq, hsynced⟩
  have hsegs : segs' = segs := by
    have hreads := hsynced.reads
    rw [hstore] at hreads
    exact hreads.unique h.reads
  subst hsegs
  refine ⟨w, hopen, hnil, hmax, hsynced, h.linked, ?_⟩
  rw [hseq, ← getLast?_flatMap_records h.continuous.records_ne_nil]
  exact nextSeq_eq_of_linked h.linked

end AuditChainWriter

namespace Process

-- The process persists and keeps pending exactly what the ledger says.
inductive Refines : Process c → Ledger Hash → Prop where
  | running {w : AuditChainWriter c} {segs : List Segment} (h : w.Resumed segs)
    : Refines (.running w)
        ⟨some w.maxRecordsPerSegment, commitments w.inner.records,
          segs.map (commitments ·.records)⟩
  | down {store : SegmentStore c} {segs : List Segment} (h : Stored store segs)
    : Refines (.down store) ⟨none, [], segs.map (commitments ·.records)⟩

theorem Refines.stored {p : Process c} {l : Ledger Hash} (h : p.Refines l)
    : ∃ segs, Stored p.store segs ∧ l.closed = segs.map (commitments ·.records) := by
  cases h with
  | running h => exact ⟨_, h.stored, rfl⟩
  | down h => exact ⟨_, h, rfl⟩

theorem refines_closeSegment (hc : c.Lawful) {w : AuditChainWriter c} {segs : List Segment}
    (h : w.Resumed segs)
    : Refines (.running (w.closeSegment .done).1)
        (Ledger.close ⟨some w.maxRecordsPerSegment, commitments w.inner.records,
          segs.map (commitments ·.records)⟩) := by
  unfold Ledger.close
  split
  . next hnil =>
    have hnil : w.inner.records = [] := by simpa [commitments] using hnil
    rw [AuditChainWriter.closeSegment_of_nil hnil]
    exact .running h
  . next hne =>
    have hne : w.inner.records ≠ [] := by simpa [commitments] using hne
    have hrunning := Refines.running (h.closeSegment hc hne)
    rcases AuditChainWriter.closeSegment_of_ne_nil hne .done with ⟨_, _, heq⟩
    rw [heq] at hrunning ⊢
    simpa [commitments, ChainWriter.fromTip] using hrunning

theorem commitments_push (w : AuditChainWriter c) (kind : String) (payload : List UInt8)
    (nowUs : Int64)
    : commitments (w.push kind payload nowUs).inner.records
        = commitments w.inner.records ++ [payloadCommitment c payload] := by
  simp [commitments, AuditChainWriter.push, ChainWriter.append, AuditChainWriter.recordOf]

theorem refines_call (hc : c.Lawful) {w : AuditChainWriter c} {segs : List Segment}
    (h : w.Resumed segs) {call : Call c} (hdone : call.outcome = .done)
    : Refines (.running (call.apply w))
        (Ledger.step ⟨some w.maxRecordsPerSegment, commitments w.inner.records,
          segs.map (commitments ·.records)⟩ call.ledger) := by
  cases call with
  | observe kind payload nowUs outcome =>
    have hdone : outcome = .done := hdone
    have hpush := h.push kind payload nowUs
    have hclose := refines_closeSegment hc hpush
    have hkeep := Refines.running hpush
    have hlength : (commitments (w.push kind payload nowUs).inner.records).length
        = (w.push kind payload nowUs).inner.records.length := by
      simp [commitments]
    simp only [Call.apply, Call.ledger, Ledger.step, hdone, AuditChainWriter.observe_eq]
    rw [← commitments_push w kind payload nowUs, hlength]
    split
    . exact hclose
    . exact hkeep
  | closeSegment outcome =>
    have hdone : outcome = .done := hdone
    subst hdone
    exact refines_closeSegment hc h
  | flush outcome =>
    have hdone : outcome = .done := hdone
    subst hdone
    exact refines_closeSegment hc h

theorem refines_open {store : SegmentStore c} {segs : List Segment} (h : Stored store segs)
    (tenantId : String) (signer : SigningKey) (maxRecords : Option Nat)
    : Refines (Process.open store tenantId signer maxRecords)
        ⟨some ((maxRecords.map (max · 1)).getD 1000), [], segs.map (commitments ·.records)⟩ := by
  rcases AuditChainWriter.Resumed.open h tenantId signer with ⟨w, hopen, hnil, hmax, hresumed⟩
  unfold Process.open
  rw [hopen]
  cases maxRecords with
  | none =>
    have := Refines.running hresumed
    rw [hnil, hmax] at this
    exact this
  | some n =>
    have hsynced := hresumed.synced
    have hlimit : (w.withMaxRecordsPerSegment n).Resumed segs :=
      ⟨⟨hsynced.reads, hsynced.continuous, hsynced.tip_eq, hsynced.fresh, hsynced.pending⟩,
        hresumed.linked, hresumed.nextSeq_eq⟩
    have := Refines.running hlimit
    have hrecords : (w.withMaxRecordsPerSegment n).inner.records = [] := hnil
    rw [hrecords] at this
    exact this

theorem refines_step (hc : c.Lawful) (p : Process c) (l : Ledger Hash) (action : Action c)
    (h : p.Refines l) (hsucceeds : action.Succeeds)
    : (p.step action).Refines (l.step action.ledger) := by
  cases h with
  | running h =>
    cases action with
    | call call => exact refines_call hc h hsucceeds
    | crash => exact .down h.stored
    | «open» tenantId signer maxRecords => exact refines_open h.stored tenantId signer maxRecords
  | down h =>
    cases action with
    | call call =>
      -- Without a writer neither side moves.
      cases call with
      | observe kind payload nowUs outcome => exact .down h
      | closeSegment outcome => exact .down h
      | flush outcome => exact .down h
    | crash => exact .down h
    | «open» tenantId signer maxRecords => exact refines_open h tenantId signer maxRecords

theorem refines_init : Refines (.down ⟨∅⟩ : Process c) Ledger.empty := by
  have hstored : Stored (⟨∅⟩ : SegmentStore c) [] := ⟨.nil, trivial, trivial⟩
  exact .down hstored

end Process

theorem succ_iterate (i : Nat) : (chain c).succ^[i] 0 = UInt64.ofNat i := by
  induction i with
  | zero => rfl
  | succ i ih =>
    rw [Function.iterate_succ_apply', ih]
    simp

/--
A directory that was empty at first always verifies, counts the closed segments and their records,
numbers the persisted records from 0 on, and holds the commitments of the observes whose segment was
closed, in order.
-/
theorem persisted_eq_ledger (hc : c.Lawful) {actions : List (Action c)}
    (hsucceeds : ∀ action ∈ actions, action.Succeeds)
    : let store := (Run.exec Process.step (.down ⟨∅⟩) actions).store
      let ledger := Run.exec Ledger.step Ledger.empty (actions.map Action.ledger)
      store.verifyAll = .ok ⟨ledger.closed.length, store.persisted.length⟩
        ∧ store.persisted.map (·.seq)
            = (List.range store.persisted.length).map UInt64.ofNat
        ∧ store.persisted.map (·.payloadCommitment) = ledger.closed.flatten := by
  have hrefines := Run.exec_simulates Process.refines_init (Process.refines_step hc) hsucceeds
  rcases hrefines.stored with ⟨segs, hstored, hclosed⟩
  have hpersisted := hstored.persisted
  have hseq := hstored.linked.map_seq
  dsimp only
  rw [hclosed, hpersisted]
  refine ⟨?_, ?_, ?_⟩
  . rw [SegmentStore.verifyAll_eq_ok_iff]
    refine ⟨segs, hstored.reads, hstored.continuous, ?_⟩
    simp [SegmentStore.recordCount, List.length_flatMap]
  . rw [List.map_map, List.length_map]
    simp only [succ_iterate] at hseq
    exact hseq
  . simp [commitments, List.flatMap, List.map_flatten, Function.comp_def]

-- Two segments, a crash that drops a pending record, and a second signer that goes on.
theorem persisted_eq_ledger_toy
    : let actions : List (Action Crates.toy) :=
        [.open "tnt_default" toyKey (some 2), .call (.observe "event" [1] 0 .done),
          .call (.observe "event" [2] 0 .done), .call (.observe "event" [3] 0 .done), .crash,
          .open "tnt_default" ⟨Vector.replicate 32 9⟩ none, .call (.observe "event" [4] 0 .done),
          .call (.flush .done)]
      let store := (Run.exec Process.step (.down ⟨∅⟩) actions).store
      let ledger := Run.exec Ledger.step Ledger.empty (actions.map Action.ledger)
      store.verifyAll = .ok ⟨ledger.closed.length, store.persisted.length⟩
        ∧ store.persisted.map (·.seq)
            = (List.range store.persisted.length).map UInt64.ofNat
        ∧ store.persisted.map (·.payloadCommitment) = ledger.closed.flatten :=
  persisted_eq_ledger Crates.toy_lawful (by simp [Action.Succeeds, Call.outcome])

end Athar.Audit
