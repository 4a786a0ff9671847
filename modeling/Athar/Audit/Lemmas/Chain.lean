import Athar.Lib.HashChain
import Athar.Audit.Impl.Basic

/-!
This module contains the specification of the offline verifier and of the chain writer in terms of
linked runs: the verifier accepts exactly the linked runs, and the writer only produces them.
-/

namespace Athar.Audit

variable (c : Crates)

def chain : HashChain ChainedRecord Hash UInt64 where
  prev cr := cr.prevHash
  hash cr := cr.recordHash
  compute cr := recordHash c cr.prevHash cr.record
  seq cr := cr.record.seq
  succ n := n + 1

variable {c}

@[simp]
theorem chain_prev (cr : ChainedRecord) : (chain c).prev cr = cr.prevHash := by
  rfl

@[simp]
theorem chain_hash (cr : ChainedRecord) : (chain c).hash cr = cr.recordHash := by
  rfl

@[simp]
theorem chain_compute (cr : ChainedRecord)
    : (chain c).compute cr = recordHash c cr.prevHash cr.record := by
  rfl

@[simp]
theorem chain_seq (cr : ChainedRecord) : (chain c).seq cr = cr.record.seq := by
  rfl

@[simp]
theorem chain_succ (n : UInt64) : (chain c).succ n = n + 1 := by
  rfl

theorem verifyChain.go_eq_ok_iff (rs : List ChainedRecord) (index : Nat) (p : Hash) (n : UInt64)
    (h : Hash)
    : verifyChain.go c rs index p n = .ok h ↔ (chain c).Linked p n rs ∧ h = (chain c).tip p rs := by
  induction rs generalizing index p n with
  | nil => simp [verifyChain.go, eq_comm]
  | cons cr rest ih =>
    unfold verifyChain.go
    split
    . next hseq => simp [hseq]
    . next hseq =>
      split
      . next hprev => simp [hprev]
      . next hprev =>
        split
        . next hhash => simp [hhash]
        . next hhash =>
          rw [ih]
          simp only [ne_eq, Decidable.not_not] at hseq hprev hhash
          subst hseq hprev
          simp [hhash]

theorem verifyChain_eq_ok_iff (rs : List ChainedRecord) (p : Hash) (n : UInt64) (h : Hash)
    : verifyChain c rs p n = .ok h
        ↔ rs ≠ [] ∧ (chain c).Linked p n rs ∧ h = (chain c).tip p rs := by
  unfold verifyChain
  cases rs with
  | nil => simp
  | cons cr rest => simp [verifyChain.go_eq_ok_iff]

namespace Segment

def tip (seg : Segment) : Hash :=
  (seg.records.getLast?.map (·.recordHash)).getD GENESIS_PREV_HASH

theorem tip_eq (seg : Segment) : seg.tip = (chain c).tip GENESIS_PREV_HASH seg.records := by
  rfl

def SignedTip (c : Crates) (seg : Segment) : Prop :=
  ∃ vk, c.fromBytes seg.signerPubkey = some vk
    ∧ c.verify vk seg.tip.toList seg.tipSignature = true

end Segment

theorem verifySegment_eq_ok_iff (seg : Segment)
    : verifySegment c seg = .ok ()
        ↔ (∃ p n, seg.records ≠ [] ∧ (chain c).Linked p n seg.records) ∧ seg.SignedTip c := by
  unfold verifySegment
  split
  . next hnil => simp [hnil]
  . next first rest hrecords =>
    have htip : (chain c).tip first.prevHash seg.records = seg.tip := by
      rw [Segment.tip_eq (c := c)]
      apply HashChain.tip_eq_of_ne_nil
      simp [hrecords]
    have hstart : (∃ p n, seg.records ≠ [] ∧ (chain c).Linked p n seg.records)
        ↔ (chain c).Linked first.prevHash first.record.seq seg.records := by
      simp [hrecords]
    rw [hstart]
    split
    . next e herror =>
      have : ¬(chain c).Linked first.prevHash first.record.seq seg.records := by
        intro hlinked
        have := (verifyChain_eq_ok_iff seg.records first.prevHash first.record.seq _).mpr
          ⟨by simp [hrecords], hlinked, rfl⟩
        rw [this] at herror
        contradiction
      simp [this]
    . next tipHash hok =>
      rw [verifyChain_eq_ok_iff, htip] at hok
      rcases hok with ⟨_, hlinked, rfl⟩
      simp only [hlinked, true_and, Segment.SignedTip]
      split
      . next hvk => simp [hvk]
      . next vk hvk => simp [hvk]

namespace ChainWriter

structure Linked (c : Crates) (p : Hash) (n : UInt64) (w : ChainWriter) : Prop where
  linked : (chain c).Linked p n w.records
  tipHash_eq : w.tipHash = (chain c).tip p w.records
  nextSeq_eq : w.nextSeq = (chain c).nextSeq n w.records

theorem linked_fromTip (p : Hash) (n : UInt64) : (fromTip p n).Linked c p n := by
  constructor <;> simp [fromTip]

theorem append_records (w : ChainWriter) (r : AuditRecord)
    : (w.append c r).1.records
        = w.records ++ [⟨{ r with seq := w.nextSeq }, w.tipHash, (w.append c r).1.tipHash⟩] := by
  rfl

theorem append_tipHash (w : ChainWriter) (r : AuditRecord)
    : (w.append c r).1.tipHash = recordHash c w.tipHash { r with seq := w.nextSeq } := by
  rfl

theorem Linked.append {p : Hash} {n : UInt64} {w : ChainWriter} (h : w.Linked c p n)
    (r : AuditRecord) : (w.append c r).1.Linked c p n := by
  constructor
  . rw [append_records, HashChain.linked_append]
    refine ⟨h.linked, ?_⟩
    simp [h.tipHash_eq, h.nextSeq_eq, append_tipHash]
  . rw [append_records, HashChain.tip_append]
    simp
  . rw [append_records, HashChain.nextSeq_append, ← h.nextSeq_eq]
    simp [ChainWriter.append]

end ChainWriter

end Athar.Audit
