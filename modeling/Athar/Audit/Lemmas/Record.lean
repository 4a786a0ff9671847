import Athar.Audit.Impl.Basic

/-!
This module contains the injectivity of the canonical encoding of audit records.
-/

namespace Athar.Audit

theorem asBytes_inj {s t : String} (h : asBytes s = asBytes t) : s = t := by
  have hdata : s.toByteArray.data = t.toByteArray.data := Array.toList_inj.mp h
  have hbytes : s.toByteArray = t.toByteArray := ByteArray.ext hdata
  exact String.toByteArray_inj.mp hbytes

-- Both variable-length fields fit the `u32` length in front of them.
def AuditRecord.Short (r : AuditRecord) : Prop :=
  (asBytes r.tenantId).length < 2 ^ 32 ∧ (asBytes r.kind).length < 2 ^ 32

instance (r : AuditRecord) : Decidable r.Short :=
  inferInstanceAs (Decidable (_ ∧ _))

theorem length_canonicalBytes (r : AuditRecord)
    : (canonicalBytes r).length
        = 57 + (asBytes r.tenantId).length + (asBytes r.kind).length := by
  simp [canonicalBytes, HASH_LEN]
  omega

theorem redacted_flag_inj {a b : Bool}
    (h : [if a then (1 : UInt8) else 0] = [if b then (1 : UInt8) else 0]) : a = b := by
  revert h
  cases a <;> cases b <;> decide

-- One of the two records being short is enough: the other one would be too long as a whole.
theorem canonicalBytes_inj {r g : AuditRecord} (hshort : r.Short)
    (h : canonicalBytes r = canonicalBytes g) : r = g := by
  have htotal : (asBytes r.tenantId).length + (asBytes r.kind).length
      = (asBytes g.tenantId).length + (asBytes g.kind).length := by
    have := congrArg List.length h
    rw [length_canonicalBytes, length_canonicalBytes] at this
    omega
  simp only [canonicalBytes, List.append_assoc] at h
  obtain ⟨hseq, h⟩ := List.append_inj h (by simp)
  obtain ⟨htime, h⟩ := List.append_inj h (by simp)
  obtain ⟨htenantLen, h⟩ := List.append_inj h (by simp)
  have htenantLen : (asBytes r.tenantId).length = (asBytes g.tenantId).length := by
    have := Bytes.bigEndian_inj htenantLen
    rcases hshort with ⟨htenant, hkind⟩
    omega
  obtain ⟨htenant, h⟩ := List.append_inj h htenantLen
  obtain ⟨_, h⟩ := List.append_inj h (by simp)
  obtain ⟨hkind, h⟩ := List.append_inj h (by omega)
  obtain ⟨hcommit, hflag⟩ := List.append_inj h (by simp)
  have hseq : r.seq = g.seq := by
    apply UInt64.toNat_inj.mp
    exact Bytes.bigEndian_inj_of_lt r.seq.toNat_lt g.seq.toNat_lt hseq
  have htime : r.timestampUs = g.timestampUs := by
    rw [← Int64.toInt64_toUInt64 r.timestampUs, ← Int64.toInt64_toUInt64 g.timestampUs]
    congr 1
    apply UInt64.toNat_inj.mp
    exact Bytes.bigEndian_inj_of_lt (UInt64.toNat_lt _) (UInt64.toNat_lt _) htime
  have hcommit : r.payloadCommitment = g.payloadCommitment := Vector.toList_inj.mp hcommit
  have hflag := redacted_flag_inj hflag
  have htenant := asBytes_inj htenant
  have hkind := asBytes_inj hkind
  cases r
  cases g
  simp_all

theorem hashInput_inj {p q : Hash} {r g : AuditRecord}
    (h : p.toList ++ canonicalBytes r = q.toList ++ canonicalBytes g)
    : p = q ∧ canonicalBytes r = canonicalBytes g := by
  obtain ⟨hprev, hrecord⟩ := List.append_inj h (by simp)
  exact ⟨Vector.toList_inj.mp hprev, hrecord⟩

end Athar.Audit
