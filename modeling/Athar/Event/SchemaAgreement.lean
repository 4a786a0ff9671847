import Athar.Event.Records
import Athar.Ingest.Impl

/-!
This module contains the agreement of the daemon with the schema of the event. What it takes in are the
events that are read and pass the structural checks, and these are not quite those that conform to the
schema; the formats of the fields tell where the two part.
-/

namespace Athar

open Deserialize

-- A pattern that matches no placeholder.
theorem known_of_rmatch {expression : RegularExpression Char}
    (h : ∀ s ∈ "" :: RESERVED_UNKNOWN_TOKENS, expression.rmatch s.toList = false) (s : String)
    (hs : expression.rmatch s.toList = true) : Known s := by
  rw [List.forall_mem_cons] at h
  constructor
  . rintro rfl
    rw [h.1] at hs
    contradiction
  . intro hmem
    rw [h.2 s hmem] at hs
    contradiction

namespace Format

def ulid : Format String :=
  .identifier EventSchema.ulidPattern (known_of_rmatch (by decide +kernel))

def eventType : Format String :=
  .identifier EventSchema.eventTypePattern (known_of_rmatch (by decide +kernel))

def tenantId : Format String :=
  .identifier EventSchema.tenantIdPattern (known_of_rmatch (by decide +kernel))

end Format

namespace Event

def fields : List Field := [
  .requiredByBoth "schema_version" .schemaVersion,
  .requiredByBoth "event_id" .ulid,
  .requiredByBoth "event_type" .eventType,
  .requiredByBoth "tenant_id" .tenantId,
  .requiredByBoth "timestamp" .instant,
  .requiredByBoth "received_at" .instant,
  .requiredByBoth "clock" Clock.format,
  .optional "actor" ActorRef.format rfl,
  .optional "authenticated_principal" ActorRefWithAuthn.format rfl,
  .optional "caller" CallerRef.format rfl,
  .optional "service_identity" ServiceIdentityRef.format rfl,
  .optional "on_behalf_of" ActorRef.format rfl,
  .optional "beneficiary" ActorRef.format rfl,
  .optional "resource_owner" ActorRef.format rfl,
  .optional "resource" ResourceRef.format rfl,
  .optional "operation" OperationRef.format rfl,
  .optional "lifecycle" LifecycleRef.format rfl,
  .optional "entry_point" EntryPoint.format rfl,
  .optional "technical_context" TechnicalContext.format rfl,
  .requiredByBoth "provenance" Provenance.format,
  .requiredByBoth "truth" Truth.format,
  .requiredByBoth "trust" Trust.format,
  .requiredByBoth "causality" Causality.format,
  .requiredByBoth "coverage" Coverage.format,
  .optional "data" .payload rfl,
  .optional "attributes" .payload rfl]

theorem forall_actors_iff {event : Event} {p : ActorRef → Prop}
    : (∀ a ∈ event.actors, p a)
        ↔ (∀ a ∈ event.actor, p a) ∧ (∀ a ∈ event.authenticatedPrincipal, p a.actor)
          ∧ (∀ a ∈ event.onBehalfOf, p a) ∧ (∀ a ∈ event.beneficiary, p a)
          ∧ ∀ a ∈ event.resourceOwner, p a := by
  have hprincipal : (∀ a ∈ (event.authenticatedPrincipal.map (·.actor)).toList, p a)
      ↔ ∀ a ∈ event.authenticatedPrincipal, p a.actor := by
    simp
  rw [← hprincipal]
  simp only [actors, List.forall_mem_append, Option.mem_toList, Option.mem_def]
  tauto

theorem reads_iff (m : Members)
    : (∃ e ∈ visit m, e.validate = .ok ()) ↔ ∀ f ∈ fields, f.reads m := by
  apply reads_of_allRead
  iterate 26 refine bind_reads fun _ => ?_
  simp [validate_eq_ok_iff, forall_actors_iff, Format.ulid, Format.eventType, Format.tenantId, Format.record,
    Clock.format, ActorRef.format, ActorRefWithAuthn.format, CallerRef.format,
    ServiceIdentityRef.format, ResourceRef.format, OperationRef.format, LifecycleRef.format,
    EntryPoint.format, TechnicalContext.format, Provenance.format, Truth.format, Trust.format,
    Causality.format, Coverage.format]
  tauto

def format : Format Event := .record fields visit (·.validate = .ok ()) reads_iff

-- The daemon takes the value in as an event.
def Accepts (v : Json) : Prop :=
  ∃ e ∈ deserialize v, e.validate = .ok ()

theorem parseEvent_ok_iff {json : SerdeJson} (hread : json.fromValue = deserialize) {raw : Json}
    {nowRfc3339 : String}
    : (∃ e, IngestServer.parseEvent json raw nowRfc3339 = .ok e) ↔ Accepts raw := by
  unfold IngestServer.parseEvent Accepts
  rw [hread]
  cases deserialize raw with
  | none => simp
  | some event =>
    cases hvalidate : event.validate with
    | error e => simp [hvalidate]
    | ok u => simp [hvalidate]

/--
The daemon accepts exactly what the schema does where the demands that only one of them makes come out
the same.
-/
theorem accepts_iff_conforms_iff (v : Json)
    : (Accepts v ↔ EventSchema.event v = true)
        ↔ (format.comparison.common v
          → (format.comparison.leftOnly v ↔ format.comparison.rightOnly v)) :=
  format.compares.agree_iff

section Instances

-- An event whose identifier is known, but no ULID.
def shortId : List (String × Json) := [
  ("schema_version", .string "1.0"),
  ("event_id", .string "e1"),
  ("event_type", .string "http.request"),
  ("tenant_id", .string "tnt_demo"),
  ("timestamp", .string "2026-01-01T10:00:00.123456Z"),
  ("received_at", .string "2026-01-01T10:00:00.198000Z"),
  ("clock", .object [("source", .string "shim"), ("monotonic_seq", .number 1)]),
  ("provenance", .object [("origin", .string "UNKNOWN"), ("trigger", .string "API_REQUEST"),
    ("source", .string "HTTP")]),
  ("truth", .object [("stage", .string "OBSERVED"), ("asserted_by", .string "shim")]),
  ("trust", .object [("level", .string "UNKNOWN"), ("confidence", .number 0)]),
  ("causality", .object []),
  ("coverage", .object [("complete", .bool true)])]

instance (v : Json) : Decidable (Accepts v) :=
  inferInstanceAs (Decidable (∃ e ∈ deserialize v, e.validate = .ok ()))

theorem accepts_ne_conforms
    : ¬∀ ms, ms.lookup "__evaluate__" = none → ms.lookup "__status__" = none →
        (Accepts (.object ms) ↔ EventSchema.event (.object ms) = true) := by
  intro h
  have haccepts : Accepts (.object shortId) := by decide +kernel
  have hconforms : EventSchema.event (.object shortId) = false := by decide +kernel
  rw [h shortId rfl rfl, hconforms] at haccepts
  exact Bool.false_ne_true haccepts

end Instances

end Event

end Athar
