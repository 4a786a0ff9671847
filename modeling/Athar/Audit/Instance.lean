import Athar.Audit.Impl.Writer

/-!
This module contains one instance of the external functions of the audit chain. It shows that what
the audit chain assumes of them can be met, and lets runs of the writer be computed.
-/

namespace Athar.Audit

namespace Crates

def toyHash (bytes : List UInt8) : Hash :=
  ⟨(Bytes.bigEndian 32 (bytes.foldl (fun acc b => acc * 257 + b.toNat + 1) 0)).toArray, by simp⟩

def toySign (key : SigningKey) (msg : List UInt8) : Signature :=
  ⟨((key.seed.toList ++ msg ++ List.replicate 64 0).take 64).toArray, by simp; omega⟩

def toy : Crates where
  Text := Option Segment
  blake3 := toyHash
  publicKey key := key.seed
  sign := toySign
  fromBytes bytes := some ⟨bytes⟩
  verify vk msg sig := sig == toySign ⟨vk.bytes⟩ msg
  toVecPretty := some
  fromSlice text := text

theorem toy_lawful : toy.Lawful where
  verify_sign key msg := ⟨⟨key.seed⟩, rfl, by simp [toy]⟩
  fromSlice_toVecPretty _ := rfl

end Crates

def toyKey : SigningKey := ⟨Vector.replicate 32 7⟩

def toyWriter : AuditChainWriter Crates.toy where
  inner := ChainWriter.new
  store := ⟨∅⟩
  signer := toyKey
  tenantId := "tnt_default"
  tip := GENESIS_PREV_HASH
  nextSeq := 0
  nextSegmentId := 0
  maxRecordsPerSegment := 1000

-- The segment with one record that a writer with this key closes.
def segmentOf (key : SigningKey) (payload : List UInt8) (tip : Hash) (seq : UInt64) (id : Nat)
    : Segment :=
  let w := (ChainWriter.fromTip tip seq).append Crates.toy (toyWriter.recordOf "event" payload 0)
  (w.1.closeSegment Crates.toy id key).2

theorem open_toyWriter
    : AuditChainWriter.open (c := Crates.toy) ⟨∅⟩ "tnt_default" toyKey = .ok toyWriter := by
  rfl

end Athar.Audit
