import Mathlib.Data.List.Basic
import Athar.Lib.Bytes

/-!
This module contains the audit chain: records, the chain writer that links them by hash and closes
them into signed segments, and the offline verifier of one segment.

Sequence numbers keep the 64 bits of the source, and their additions wrap, because the hash commits
to an eight byte encoding of them.
-/

namespace Athar.Audit

abbrev HASH_LEN : Nat := 32

abbrev Hash := Vector UInt8 HASH_LEN

abbrev Signature := Vector UInt8 64

def GENESIS_PREV_HASH : Hash := Vector.replicate HASH_LEN 0

structure AuditRecord where
  seq : UInt64
  timestampUs : Int64
  tenantId : String
  kind : String
  payloadCommitment : Hash
  redacted : Bool
  deriving DecidableEq, Repr

structure ChainedRecord where
  record : AuditRecord
  prevHash : Hash
  recordHash : Hash
  deriving DecidableEq, Repr

structure Segment where
  segmentId : Nat
  records : List ChainedRecord
  tipSignature : Signature
  signerPubkey : Hash
  deriving DecidableEq, Repr

inductive VerifyError where
  | seqBroken (index : Nat) (expected got : UInt64)
  | chainBroken (index : Nat)
  | recordHashMismatch (index : Nat)
  | badSignature
  | emptySegment
  deriving DecidableEq, Repr

structure SigningKey where
  seed : Vector UInt8 32
  deriving DecidableEq, Repr

structure VerifyingKey where
  bytes : Hash
  deriving DecidableEq, Repr

structure Crates where
  Text : Type
  blake3 : List UInt8 → Hash
  publicKey : SigningKey → Hash
  sign : SigningKey → List UInt8 → Signature
  fromBytes : Hash → Option VerifyingKey
  verify : VerifyingKey → List UInt8 → Signature → Bool
  toVecPretty : Segment → Text
  fromSlice : Text → Option Segment

/--
What the audit chain relies on: signatures verify under the public key of the key that made them,
and JSON reading returns what was written.
-/
structure Crates.Lawful (c : Crates) : Prop where
  verify_sign : ∀ key msg, ∃ vk,
    c.fromBytes (c.publicKey key) = some vk ∧ c.verify vk msg (c.sign key msg) = true
  fromSlice_toVecPretty : ∀ seg, c.fromSlice (c.toVecPretty seg) = some seg

def asBytes (s : String) : List UInt8 := s.toByteArray.data.toList

def canonicalBytes (r : AuditRecord) : List UInt8 :=
  Bytes.bigEndian 8 r.seq.toNat
    ++ Bytes.bigEndian 8 r.timestampUs.toUInt64.toNat
    ++ Bytes.bigEndian 4 (asBytes r.tenantId).length
    ++ asBytes r.tenantId
    ++ Bytes.bigEndian 4 (asBytes r.kind).length
    ++ asBytes r.kind
    ++ r.payloadCommitment.toList
    ++ [if r.redacted then 1 else 0]

variable (c : Crates)

def recordHash (prevHash : Hash) (record : AuditRecord) : Hash :=
  c.blake3 (prevHash.toList ++ canonicalBytes record)

def payloadCommitment (payload : List UInt8) : Hash :=
  c.blake3 payload

structure ChainWriter where
  records : List ChainedRecord
  tipHash : Hash
  nextSeq : UInt64
  deriving DecidableEq, Repr

namespace ChainWriter

def fromTip (tipHash : Hash) (nextSeq : UInt64) : ChainWriter :=
  ⟨[], tipHash, nextSeq⟩

def new : ChainWriter :=
  fromTip GENESIS_PREV_HASH 0

def append (w : ChainWriter) (record : AuditRecord) : ChainWriter × Nat :=
  let record := { record with seq := w.nextSeq }
  let prevHash := w.tipHash
  let thisHash := Audit.recordHash c prevHash record
  let records := w.records ++ [⟨record, prevHash, thisHash⟩]
  (⟨records, thisHash, w.nextSeq + 1⟩, records.length - 1)

def closeSegment (w : ChainWriter) (segmentId : Nat) (signer : SigningKey)
    : ChainWriter × Segment :=
  let sig := c.sign signer w.tipHash.toList
  let pubkey := c.publicKey signer
  ({ w with records := [] }, ⟨segmentId, w.records, sig, pubkey⟩)

end ChainWriter

def verifyChain (records : List ChainedRecord) (anchorPrevHash : Hash) (startingSeq : UInt64)
    : Except VerifyError Hash :=
  if records.isEmpty then
    .error .emptySegment
  else
    go records 0 anchorPrevHash startingSeq
where
  go : List ChainedRecord → Nat → Hash → UInt64 → Except VerifyError Hash
    | [], _, prevHash, _ => .ok prevHash
    | cr :: rest, index, prevHash, expectedSeq =>
      if cr.record.seq ≠ expectedSeq then
        .error (.seqBroken index expectedSeq cr.record.seq)
      else if cr.prevHash ≠ prevHash then
        .error (.chainBroken index)
      else if recordHash c cr.prevHash cr.record ≠ cr.recordHash then
        .error (.recordHashMismatch index)
      else
        go rest (index + 1) cr.recordHash (expectedSeq + 1)

def verifySegment (segment : Segment) : Except VerifyError Unit :=
  match segment.records with
  | [] => .error .emptySegment
  | first :: _ =>
    match verifyChain c segment.records first.prevHash first.record.seq with
    | .error e => .error e
    | .ok tipHash =>
      match c.fromBytes segment.signerPubkey with
      | none => .error .badSignature
      | some vk =>
        if c.verify vk tipHash.toList segment.tipSignature then .ok () else .error .badSignature

end Athar.Audit
