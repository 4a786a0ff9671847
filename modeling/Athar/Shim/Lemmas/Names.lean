import Athar.Shim.Lemmas.Encode

/-!
This module contains that the names which an event itself brings along are no secret names, so that the
redaction pass of the shim is about the payload and the context that the application hands in.
-/

namespace Athar.Shim

-- The character codes, which can be compared without taking a character apart.
def codes (text : List Char) : List Nat :=
  text.map Char.toNat

def occurs (needle haystack : List Nat) : Bool :=
  haystack.tails.any (needle.isPrefixOf ·)

theorem occurs_iff {needle haystack : List Nat} : occurs needle haystack = true ↔ needle <:+: haystack := by
  unfold occurs
  rw [List.any_eq_true, List.infix_iff_prefix_suffix]
  simp only [List.mem_tails, List.isPrefixOf_iff_prefix]
  exact exists_congr fun _ => and_comm

theorem infix_of_codes {needle haystack : List Char} (h : needle <:+: haystack)
    : codes needle <:+: codes haystack := by
  rcases h with ⟨before, after, rfl⟩
  exact ⟨codes before, codes after, by simp [codes]⟩

-- The names that the factory and the runtime write themselves.
def ownNames : List String :=
  ["schema_version", "event_id", "event_type", "tenant_id", "timestamp", "received_at", "clock", "source",
    "skew_estimate_ms", "monotonic_seq", "entry_point", "type", "endpoint_id", "method", "route",
    "route_template", "technical_context", "application_id", "application_version", "platform",
    "service_id", "environment", "resource", "id", "namespace", "operation", "operation_id", "inference",
    "confidence", "calibration", "provenance", "origin", "trigger", "producer", "authority", "truth",
    "stage", "asserted_by", "adapter", "trust", "level", "factors", "causality", "parent_event_id",
    "causation_id", "correlation_id", "customer_correlation_ids", "coverage", "complete", "shed",
    "redacted_fields", "degradation_level", "data", "actor", "beneficiary", "resolution", "__evaluate__"]

theorem ownNames_not_occurs
    : (ownNames.all fun name => !Classify.C5_SUBSTRINGS.any fun needle =>
        occurs (codes needle.toList) (codes (Classify.strtolower name))) = true := by
  decide +kernel

theorem isSecret_of_mem_ownNames {name : String} (h : name ∈ ownNames) : isSecret name = false := by
  rw [← Bool.not_eq_true, isSecret_iff]
  intro hmatch
  unfold Classify.matchesAny at hmatch
  rcases List.any_eq_true.mp hmatch with ⟨needle, hneedle, hinfix⟩
  have hnot := List.all_eq_true.mp ownNames_not_occurs name h
  rw [Bool.not_eq_true', List.any_eq_false] at hnot
  apply hnot needle hneedle
  rw [occurs_iff]
  apply infix_of_codes
  simpa [Classify.strContains] using hinfix

theorem isSecretKey_of_mem_ownNames {name : String} (h : name ∈ ownNames)
    : isSecretKey (.string name) = false :=
  isSecret_of_mem_ownNames h

end Athar.Shim
