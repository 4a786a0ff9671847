import Athar.Audit.Instance
import Athar.Audit.Lemmas.Record

/-!
This module contains what the bytes determine that the audit chain hashes: the record in all of its
fields, and with it the hash of the record before.
-/

namespace Athar.Audit

/--
The canonical bytes of a record determine it, and the input of the record hash determines the record
and the previous hash. It is enough that the texts of one of the two records fit their lengths.
-/
theorem hashInput_determines {r g : AuditRecord} (hshort : r.Short)
    : (canonicalBytes r = canonicalBytes g → r = g)
        ∧ ∀ p q : Hash, p.toList ++ canonicalBytes r = q.toList ++ canonicalBytes g → p = q ∧ r = g := by
  constructor
  . exact canonicalBytes_inj hshort
  . intro p q h
    obtain ⟨hprev, hbytes⟩ := hashInput_inj h
    exact ⟨hprev, canonicalBytes_inj hshort hbytes⟩

-- A byte moved from the tenant to the kind gives other bytes.
theorem hashInput_determines_moved
    : canonicalBytes ⟨0, 0, "tnt_a", "event", GENESIS_PREV_HASH, false⟩
        ≠ canonicalBytes ⟨0, 0, "tnt_", "aevent", GENESIS_PREV_HASH, false⟩ := by
  intro h
  have := (hashInput_determines (by decide +kernel)).1 h
  contradiction

end Athar.Audit
