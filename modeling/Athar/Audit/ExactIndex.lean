import Athar.Audit.Tamper

/-!
This module contains the index that the verifier reports. When one field of one record of a closed segment
is replaced, the records before it pass all checks and the record itself fails one of them, so the error
carries its index.
-/

namespace Athar.Audit

def VerifyError.index : VerifyError → Option Nat
  | .seqBroken index _ _ => some index
  | .chainBroken index => some index
  | .recordHashMismatch index => some index
  | .badSignature => none
  | .emptySegment => none

-- A field of a record and what it is replaced by.
inductive Alteration where
  | seq (value : UInt64)
  | timestampUs (value : Int64)
  | tenantId (value : String)
  | kind (value : String)
  | payloadCommitment (value : Hash)
  | redacted (value : Bool)
  | prevHash (value : Hash)
  | recordHash (value : Hash)

def Alteration.apply (cr : ChainedRecord) : Alteration → ChainedRecord
  | .seq value => { cr with record := { cr.record with seq := value } }
  | .timestampUs value => { cr with record := { cr.record with timestampUs := value } }
  | .tenantId value => { cr with record := { cr.record with tenantId := value } }
  | .kind value => { cr with record := { cr.record with kind := value } }
  | .payloadCommitment value => { cr with record := { cr.record with payloadCommitment := value } }
  | .redacted value => { cr with record := { cr.record with redacted := value } }
  | .prevHash value => { cr with prevHash := value }
  | .recordHash value => { cr with recordHash := value }

variable {c : Crates}

-- The records before the first break are passed over.
theorem verifyChain.go_append {before : List ChainedRecord} {p : Hash} {n : UInt64}
    (h : (chain c).Linked p n before) (rest : List ChainedRecord) (index : Nat)
    : verifyChain.go c (before ++ rest) index p n
        = verifyChain.go c rest (index + before.length) ((chain c).tip p before)
            ((chain c).nextSeq n before) := by
  induction before generalizing index p n with
  | nil => rfl
  | cons cr before ih =>
    rw [HashChain.linked_cons] at h
    rcases h with ⟨hprev, hseq, hcompute, hrest⟩
    rw [chain_prev] at hprev
    rw [chain_seq] at hseq
    rw [chain_compute, chain_hash] at hcompute
    have hlength : index + (cr :: before).length = index + 1 + before.length := by
      rw [List.length_cons]
      omega
    rw [List.cons_append, verifyChain.go, if_neg (by simp [hseq]), if_neg (by simp [hprev]),
      if_neg (by simp [hcompute]), HashChain.tip_cons, HashChain.nextSeq_cons, hlength]
    exact ih hrest (index + 1)

theorem verifyChain.go_breaks {cr : ChainedRecord}
    (h : recordHash c cr.prevHash cr.record ≠ cr.recordHash) (rest : List ChainedRecord)
    (index : Nat) (p : Hash) (n : UInt64)
    : ∃ e, verifyChain.go c (cr :: rest) index p n = .error e ∧ e.index = some index := by
  rw [verifyChain.go]
  split
  . exact ⟨_, rfl, rfl⟩
  . split
    . exact ⟨_, rfl, rfl⟩
    . exact ⟨_, rfl, rfl⟩

-- The hash covers every field but itself.
theorem Alteration.breaks {cr : ChainedRecord} {alt : Alteration} (halt : alt.apply cr ≠ cr)
    (hshort : cr.record.Short)
    (hcompute : Audit.recordHash c cr.prevHash cr.record = cr.recordHash)
    (hcollision : Set.InjOn c.blake3 {hashInput cr, hashInput (alt.apply cr)})
    : Audit.recordHash c (alt.apply cr).prevHash (alt.apply cr).record ≠ (alt.apply cr).recordHash := by
  intro h
  apply halt
  have hsame : (alt.apply cr).recordHash = cr.recordHash →
      (alt.apply cr).prevHash = cr.prevHash ∧ (alt.apply cr).record = cr.record := by
    intro hhash
    have hinput : hashInput cr = hashInput (alt.apply cr) := by
      apply hcollision
      . simp
      . simp
      . rw [hhash, ← hcompute] at h
        exact h.symm
    rcases hashInput_inj hinput with ⟨hprev, hbytes⟩
    exact ⟨hprev.symm, (canonicalBytes_inj hshort hbytes).symm⟩
  have hhash : (alt.apply cr).recordHash = cr.recordHash := by
    cases alt with
    | recordHash value => exact h.symm.trans hcompute
    | _ => rfl
  rcases hsame hhash with ⟨hprev, hrecord⟩
  calc alt.apply cr
      = ⟨(alt.apply cr).record, (alt.apply cr).prevHash, (alt.apply cr).recordHash⟩ := rfl
    _ = ⟨cr.record, cr.prevHash, cr.recordHash⟩ := by rw [hprev, hrecord, hhash]
    _ = cr := rfl

namespace ChainWriter

def appendAll (c : Crates) (w : ChainWriter) (records : List AuditRecord) : ChainWriter :=
  records.foldl (fun w r => (w.append c r).1) w

-- The segment that a writer closes after it was given some records.
def closed (c : Crates) (anchor : Hash) (startingSeq : UInt64) (records : List AuditRecord)
    (segmentId : Nat) (signer : SigningKey) : Segment :=
  (((fromTip anchor startingSeq).appendAll c records).closeSegment c segmentId signer).2

theorem appendAll_spec {w : ChainWriter} {p : Hash} {n : UInt64} (hlinked : w.Linked c p n)
    (hshort : ∀ cr ∈ w.records, cr.record.Short) {records : List AuditRecord}
    (hrecords : ∀ r ∈ records, r.Short)
    : (w.appendAll c records).Linked c p n
        ∧ ∀ cr ∈ (w.appendAll c records).records, cr.record.Short := by
  induction records generalizing w with
  | nil => exact ⟨hlinked, hshort⟩
  | cons r records ih =>
    apply ih (hlinked.append r)
    . intro cr hcr
      rw [append_records, List.mem_append, List.mem_singleton] at hcr
      rcases hcr with hcr | rfl
      . exact hshort cr hcr
      . exact hrecords r (by simp)
    . intro r' hr'
      exact hrecords r' (by simp [hr'])

end ChainWriter

theorem verifySegment_of_break (seg : Segment) {before after : List ChainedRecord}
    {cr new : ChainedRecord} {p : Hash} {n : UInt64}
    (hlinked : (chain c).Linked p n (before ++ cr :: after))
    (hbreak : recordHash c new.prevHash new.record ≠ new.recordHash)
    (hseg : seg.records = before ++ new :: after)
    : ∃ e, verifySegment c seg = .error e ∧ e.index = some before.length := by
  -- The first record says where the chain starts, whether it is the altered one or not.
  have hstart : ∃ first rest p' n', seg.records = first :: rest
      ∧ first.prevHash = p' ∧ first.record.seq = n' ∧ (chain c).Linked p' n' before := by
    cases before with
    | nil => exact ⟨new, after, _, _, hseg, rfl, rfl, trivial⟩
    | cons first before =>
      rw [HashChain.linked_append] at hlinked
      have hfirst := hlinked.1
      rw [HashChain.linked_cons] at hfirst
      exact ⟨first, before ++ new :: after, p, n, hseg, hfirst.1, hfirst.2.1, hlinked.1⟩
  rcases hstart with ⟨first, rest, p', n', hfirst, rfl, rfl, hbefore⟩
  have hgo := verifyChain.go_append hbefore (new :: after) 0
  rw [← hseg, Nat.zero_add] at hgo
  rcases verifyChain.go_breaks hbreak after before.length ((chain c).tip first.prevHash before)
    ((chain c).nextSeq first.record.seq before) with ⟨e, herror, hindex⟩
  refine ⟨e, ?_, hindex⟩
  have hchain : verifyChain c seg.records first.prevHash first.record.seq = .error e := by
    unfold verifyChain
    rw [hfirst, List.isEmpty_cons, if_neg (by simp), ← hfirst, hgo, herror]
  unfold verifySegment
  rw [hfirst] at hchain ⊢
  dsimp only
  rw [hchain]

/--
If one field of the record at index `i` of a closed segment is replaced by another value, then the
verifier reports index `i`. The hash is assumed not to collide on the two versions of that record.
-/
theorem verifySegment_reports_index (anchor : Hash) (startingSeq : UInt64)
    (records : List AuditRecord) (hshort : ∀ r ∈ records, r.Short) (segmentId : Nat)
    (signer : SigningKey) {seg : Segment}
    (hseg : seg = ChainWriter.closed c anchor startingSeq records segmentId signer) {i : Nat}
    {cr : ChainedRecord} (hcr : seg.records[i]? = some cr) {alt : Alteration}
    (halt : alt.apply cr ≠ cr)
    (hcollision : Set.InjOn c.blake3 {hashInput cr, hashInput (alt.apply cr)})
    : ∃ e, verifySegment c { seg with records := seg.records.set i (alt.apply cr) } = .error e
        ∧ e.index = some i := by
  have hspec := ChainWriter.appendAll_spec (ChainWriter.linked_fromTip (c := c) anchor startingSeq)
    (by simp [ChainWriter.fromTip]) hshort
  have hrecords : seg.records
      = ((ChainWriter.fromTip anchor startingSeq).appendAll c records).records := by
    rw [hseg]
    rfl
  rw [← hrecords] at hspec
  have hlinked : (chain c).Linked anchor startingSeq seg.records := by
    rw [hrecords]
    exact hspec.1.linked
  rcases List.getElem?_eq_some_iff.mp hcr with ⟨hi, hget⟩
  have hsplit : seg.records = seg.records.take i ++ cr :: seg.records.drop (i + 1) := by
    rw [← hget, ← List.drop_eq_getElem_cons hi, List.take_append_drop]
  have hlength : (seg.records.take i).length = i := by
    rw [List.length_take]
    omega
  have hmem : cr ∈ seg.records := List.mem_of_getElem? hcr
  have hbreak := Alteration.breaks halt (hspec.2 cr hmem) (hlinked.compute_eq cr hmem) hcollision
  rw [hsplit] at hlinked
  have hset : seg.records.set i (alt.apply cr)
      = seg.records.take i ++ alt.apply cr :: seg.records.drop (i + 1) := by
    rw [List.set_eq_take_append_cons_drop, if_pos hi]
  have hverify := verifySegment_of_break { seg with records := seg.records.set i (alt.apply cr) }
    hlinked hbreak hset
  rw [hlength] at hverify
  exact hverify

def threeRecords : List AuditRecord :=
  [toyWriter.recordOf "event" [1] 0, toyWriter.recordOf "decision" [2] 10, toyWriter.recordOf "event" [3] 20]

def segmentOfThree : Segment :=
  ChainWriter.closed Crates.toy GENESIS_PREV_HASH 5 threeRecords 0 toyKey

-- The number of the first record is replaced: the record no longer has its hash.
theorem verifySegment_reports_index_first
    : ∃ e, verifySegment Crates.toy { segmentOfThree with
          records := segmentOfThree.records.set 0
            ((Alteration.seq 4).apply (segmentOfThree.records.get ⟨0, by decide⟩)) } = .error e
        ∧ e.index = some 0 := by
  apply verifySegment_reports_index GENESIS_PREV_HASH 5 threeRecords (by decide) 0 toyKey rfl
  . rfl
  . decide +kernel
  . rw [Set.injOn_pair]
    intro heq
    exact absurd heq (by decide +kernel)

end Athar.Audit
