import Athar.Event.SchemaAgreement
import Athar.Wire.Observation

/-!
This module contains what an event that an application observes means to the daemon: it reads from the
frame the event that was meant, unless its data is nested too deep for the daemon to read it at all.
-/

namespace Athar.Wire

open Shim Deserialize Redact

section Fields

theorem nameOf_lookup {α : Type} [DecidableEq α] {variants : List (String × α)}
    (h : ∀ a, variants.lookup (nameOf variants a) = some a) (buffer : Buffer) (a : α)
    : unitEnum buffer variants (.string (nameOf variants a)) = some a := h a

theorem origin_lookup (a : Origin) : Origin.variants.lookup (nameOf Origin.variants a) = some a := by
  cases a <;> rfl

theorem trigger_lookup (a : Trigger) : Trigger.variants.lookup (nameOf Trigger.variants a) = some a := by
  cases a <;> rfl

theorem entityType_lookup (a : EntityType)
    : EntityType.variants.lookup (nameOf EntityType.variants a) = some a := by
  cases a <;> rfl

theorem resolutionStatus_lookup (a : ResolutionStatus)
    : ResolutionStatus.variants.lookup (nameOf ResolutionStatus.variants a) = some a := by
  cases a <;> rfl

theorem i64_int {i : Int} (h : I64_MIN ≤ i ∧ i ≤ I64_MAX) : i64 (.number i) = some i := by
  unfold i64 integer
  dsimp only
  rw [if_pos ⟨Rat.den_intCast i, by rw [Rat.num_intCast]; exact h⟩, Rat.num_intCast]

theorem u64_int {n : Nat} (h : (n : Int) ≤ U64_MAX) : u64 (.number ((n : Int) : ℚ)) = some n := by
  unfold u64 integer
  dsimp only
  rw [if_pos ⟨Rat.den_intCast _, by rw [Rat.num_intCast]; exact ⟨Int.natCast_nonneg n, h⟩⟩,
    Rat.num_intCast]
  rfl

-- The fields of a record that is read from an object.
theorem members_object (fields : List String) (ms : List (String × Json))
    : members fields (.object ms) = some ⟨false, fun name => ms.lookup name⟩ := rfl

@[simp]
theorem string_string (s : String) : string (.string s) = some s := rfl

@[simp]
theorem f64_number (q : ℚ) : f64 (.number q) = some q := rfl

@[simp]
theorem option_null {α : Type} (read : Json → Option α) : Deserialize.option read .null = some none := rfl

@[simp]
theorem option_string {α : Type} (read : Json → Option α) (s : String)
    : Deserialize.option read (.string s) = (read (.string s)).map some := rfl

@[simp]
theorem option_number {α : Type} (read : Json → Option α) (q : ℚ)
    : Deserialize.option read (.number q) = (read (.number q)).map some := rfl

@[simp]
theorem option_object {α : Type} (read : Json → Option α) (ms : List (String × Json))
    : Deserialize.option read (.object ms) = (read (.object ms)).map some := rfl

@[simp]
theorem option_ofOption (id : Option String) : Deserialize.option string (ofOption id).json = some id := by
  cases id <;> rfl

end Fields

-- An integer of the shim has 64 bits.
structure Fits (stamp : Stamp) : Prop where
  skew : ∀ ms ∈ stamp.skewEstimateMs, I64_MIN ≤ ms ∧ ms ≤ I64_MAX
  seq : (stamp.nextSeq : Int) ≤ I64_MAX

section Records

theorem deserialize_clockOf {stamp : Stamp}
    (hskew : ∀ ms ∈ stamp.skewEstimateMs, I64_MIN ≤ ms ∧ ms ≤ I64_MAX)
    (hseq : (stamp.nextSeq : Int) ≤ U64_MAX)
    : Clock.deserialize (EventFactory.clockOf stamp).json
        = some ⟨.shim, stamp.skewEstimateMs, stamp.nextSeq⟩ := by
  have hseq' : u64 (PhpValue.int stamp.nextSeq).json = some stamp.nextSeq := u64_int hseq
  have hsource : unitEnum .value ClockSource.variants (.string "shim") = some .shim := rfl
  unfold EventFactory.clockOf Clock.deserialize
  rw [json_assoc, members_object]
  simp only [Option.bind_eq_bind, Option.bind_some, Clock.visit, Members.required, Members.option,
    lookup_json]
  cases hms : stamp.skewEstimateMs with
  | none => simp [List.lookup_cons, hseq', hsource]
  | some ms =>
    have hms' : i64 (PhpValue.int ms).json = some ms := i64_int (hskew ms hms)
    have hoption : Deserialize.option i64 (PhpValue.int ms).json = some (some ms) := by
      have : Deserialize.option i64 (PhpValue.int ms).json = (i64 (PhpValue.int ms).json).map some := rfl
      rw [this, hms']
      rfl
    simp [List.lookup_cons, hseq', hsource, hoption]

theorem deserialize_resource (id type «namespace» : String)
    : ResourceRef.deserialize (PhpValue.array (assoc [("id", .string id), ("type", .string type),
        ("namespace", .string «namespace»)])).json = some ⟨some id, type, some «namespace»⟩ := by
  unfold ResourceRef.deserialize
  rw [json_assoc, members_object]
  simp only [Option.bind_eq_bind, Option.bind_some, ResourceRef.visit, Members.required, Members.option,
    Members.defaultOption, Members.default, lookup_json]
  simp [List.lookup_cons]

theorem calibration_nominal (buffer : Buffer)
    : unitEnum buffer Calibration.variants (.string "NOMINAL_UNVALIDATED") = some .nominalUnvalidated := rfl

theorem deserialize_truthOf (factory : EventFactory)
    : Truth.deserialize factory.truthOf.json = some ⟨.observed, "shim", some factory.adapter⟩ := by
  have hstage : unitEnum .value TruthStage.variants (.string "OBSERVED") = some .observed := rfl
  unfold EventFactory.truthOf Truth.deserialize
  rw [json_assoc, members_object]
  simp only [Option.bind_eq_bind, Option.bind_some, Truth.visit, Members.required,
    Members.defaultOption, Members.default, lookup_json]
  simp [List.lookup_cons, hstage]

theorem deserialize_unknownTrust
    : Trust.deserialize EventFactory.unknownTrust.json
        = some ⟨.unknown, 0, some .nominalUnvalidated, []⟩ := by
  have hlevel : unitEnum .value TrustLevel.variants (.string "UNKNOWN") = some .unknown := rfl
  have hfactors : vec string (PhpValue.array []).json = some [] := rfl
  unfold EventFactory.unknownTrust Trust.deserialize
  rw [json_assoc, members_object]
  simp only [Option.bind_eq_bind, Option.bind_some, Trust.visit, Members.required,
    Members.defaultOption, Members.default, lookup_json]
  simp [List.lookup_cons, hlevel, hfactors, calibration_nominal]

theorem deserialize_provenance (origin : Origin) (trigger : Trigger) (source : String)
    (producer authority : Option String)
    : Provenance.deserialize (PhpValue.array (assoc [
        ("origin", .string (nameOf Origin.variants origin)),
        ("trigger", .string (nameOf Trigger.variants trigger)), ("source", .string source),
        ("producer", ofOption producer), ("authority", ofOption authority)])).json
      = some ⟨origin, trigger, source, producer, authority⟩ := by
  unfold Provenance.deserialize
  rw [json_assoc, members_object]
  simp only [Option.bind_eq_bind, Option.bind_some, Provenance.visit, Members.required, Members.option,
    lookup_json]
  simp [List.lookup_cons, nameOf_lookup origin_lookup, nameOf_lookup trigger_lookup]

theorem vec_strings (texts : List String) : vec string (.array (texts.map .string)) = some texts := by
  unfold vec
  dsimp only
  induction texts with
  | nil => rfl
  | cons s texts ih => simp [List.mapM_cons, ih]

theorem deserialize_coverageEntry (redactedFields : List String)
    : Coverage.deserialize (Observation.coverageEntry (redactedFields.map .string)).json
        = some ⟨true, [], redactedFields, some .L0⟩ := by
  have hshed : vec string (PhpValue.array []).json = some [] := rfl
  have hlevel : unitEnum .value DegradationLevel.variants (.string "L0") = some .L0 := rfl
  have hfields : vec string (PhpValue.array (list (redactedFields.map .string))).json
      = some redactedFields := by
    rw [json_list, List.map_map]
    exact vec_strings redactedFields
  unfold Observation.coverageEntry Coverage.deserialize
  rw [json_assoc, members_object]
  simp only [Option.bind_eq_bind, Option.bind_some, Coverage.visit, Members.required,
    Members.defaultOption, Members.default, lookup_json]
  simp [List.lookup_cons, hshed, hlevel, hfields, Json.asBool]

-- The ids that a customer correlates by. A mangled name is not encoded.
def EventContext.customerIds (c : EventContext) : AList fun _ : String => String :=
  ((c.customerCorrelationIds.filter fun e => !isMangled e.1).map fun e => Sigma.mk e.1 e.2).toAList

theorem stringMap_strings (ids : List (String × String))
    : stringMap (.object (ids.map fun e => (e.1, .string e.2)))
        = some (ids.map fun e => Sigma.mk e.1 e.2).toAList := by
  have hentries : (ids.map fun e => (e.1, Json.string e.2)).mapM (fun member => do
        return (⟨member.1, ← string member.2⟩ : Sigma fun _ : String => String))
      = some (ids.map fun e => ⟨e.1, e.2⟩) := by
    induction ids with
    | nil => rfl
    | cons e ids ih => simp_all [List.mapM_cons]
  unfold stringMap
  dsimp only
  rw [hentries]
  rfl

theorem deserialize_causalityEntry (c : EventContext)
    : Causality.deserialize (Observation.causalityEntry c).json
        = some ⟨c.parentEventId, c.causationId, c.correlationId, c.customerIds⟩ := by
  have hids : stringMap (PhpValue.object (c.customerCorrelationIds.map fun e => (e.1, .string e.2))).json
      = some c.customerIds := by
    rw [PhpValue.json, jsonMembers_strings]
    exact stringMap_strings _
  unfold Observation.causalityEntry Causality.deserialize
  rw [json_assoc, members_object]
  simp only [Option.bind_eq_bind, Option.bind_some, Causality.visit,
    Members.defaultOption, Members.default, lookup_json]
  simp [List.lookup_cons, hids]

end Records

namespace Observation

variable (o : Observation) (c : EventContext)

-- The operation, of which the context may name the id or the type.
def operationRef : Option OperationRef :=
  if c.operationId.isSome || c.operationType.isSome then
    some ⟨c.operationId, o.operationText c, .explicit, 1, some .nominalUnvalidated⟩
  else
    none

theorem deserialize_operationEntry
    : Deserialize.option OperationRef.deserialize (o.operationEntry c).json = some (o.operationRef c) := by
  have hinference : unitEnum .value OperationInference.variants (.string "EXPLICIT") = some .explicit := rfl
  unfold operationEntry operationRef
  split
  . rw [json_assoc, option_object]
    unfold OperationRef.deserialize
    rw [members_object]
    simp only [Option.bind_eq_bind, Option.bind_some, OperationRef.visit, Members.required,
      Members.defaultOption, Members.default, lookup_json]
    simp [List.lookup_cons, hinference, calibration_nominal]
  . rfl

def participantRef (p : Participant) (plural : String) : Option ActorRef :=
  match p.id with
  | some id =>
    if id = "" then
      none
    else
      some {
        id := some id
        type := some (p.type.getD .user)
        «namespace» := some (p.namespace.getD (o.factory.tenantId ++ "/" ++ plural))
        resolution := p.resolution.getD .probable
        confidence := some (p.confidence.getD (7 / 10))
        calibration := some .nominalUnvalidated
        conflicts := []
      }
  | none => none

theorem participantEntry_member (p : Participant) (role plural : String)
    : Members.defaultOption ⟨false, fun name => (jsonOf (o.participantEntry p role plural)).lookup name⟩
        role ActorRef.deserialize = some (o.participantRef p plural) := by
  unfold participantEntry participantRef
  cases p.id with
  | none => rfl
  | some id =>
    dsimp only
    split
    . rfl
    . simp only [Members.defaultOption, Members.default, jsonOf, lookup_json, List.lookup_cons, beq_self_eq_true,
        Option.map_some]
      rw [json_assoc, option_object]
      unfold ActorRef.deserialize
      rw [members_object]
      simp only [Option.bind_eq_bind, Option.bind_some, ActorRef.visit, Members.required,
        Members.defaultOption, Members.default, lookup_json]
      simp [List.lookup_cons, calibration_nominal, nameOf_lookup entityType_lookup,
        nameOf_lookup resolutionStatus_lookup]

-- The event that an observation with these parts is.
def event (redactedFields : List String) (data : PhpArray) : Event where
  schemaVersion := "1.0"
  eventId := o.stamp.eventId
  eventType := o.eventType
  tenantId := o.factory.tenantId
  timestamp := o.stamp.now
  receivedAt := o.stamp.now
  clock := ⟨.shim, o.stamp.skewEstimateMs, o.stamp.nextSeq⟩
  actor := o.participantRef c.actor "actors"
  authenticatedPrincipal := none
  caller := none
  serviceIdentity := none
  onBehalfOf := none
  beneficiary := o.participantRef c.beneficiary "beneficiaries"
  resourceOwner := none
  resource := some ⟨some o.resourceId, o.resourceType, some (o.resourceNamespace c)⟩
  operation := o.operationRef c
  lifecycle := none
  entryPoint := none
  technicalContext := none
  provenance := ⟨c.origin.getD .human, c.trigger.getD .apiRequest, c.source.getD "HTTP", c.producer, c.authority⟩
  truth := ⟨.observed, "shim", some o.factory.adapter⟩
  trust := ⟨.unknown, 0, some .nominalUnvalidated, []⟩
  causality := ⟨c.parentEventId, c.causationId, c.correlationId, c.customerIds⟩
  coverage := ⟨true, [], redactedFields, some .L0⟩
  data := some (PhpValue.array data).json
  attributes := none

theorem lookup_participantEntry_of_ne (p : Participant) {role name : String} (h : role ≠ name) (plural : String)
    : (o.participantEntry p role plural).lookup name = none := by
  unfold participantEntry
  split
  . split
    . rfl
    . rw [Entries.lookup_cons_of_ne h]
      rfl
  . rfl

theorem option_data (data : PhpArray)
    : Deserialize.option some (PhpValue.array data).json = some (some (PhpValue.array data).json) := by
  rw [PhpValue.json]
  split <;> rfl

section Members

variable (redactedFields : List String) (data : PhpArray) (flags : List (String × PhpValue))

def fields : Members :=
  ⟨false, fun name => (jsonOf (o.members c redactedFields data flags)).lookup name⟩

variable {o c redactedFields data flags} {α : Type} {name : String} {value : PhpValue} {read : Json → Option α}

theorem get_of_head (hlookup : (o.head c (redactedFields.map .string)).lookup name = some value)
    : (o.fields c redactedFields data flags).get name = some value.json := by
  unfold fields members jsonOf
  dsimp only
  rw [lookup_json, List.lookup_append, hlookup]
  rfl

theorem get_of_not_head (hlookup : (o.head c (redactedFields.map .string)).lookup name = none)
    (hname : "data" ≠ name) (hflags : flags.lookup name = none)
    : (o.fields c redactedFields data flags).get name = ((o.tail c).lookup name).map PhpValue.json := by
  unfold fields members jsonOf
  dsimp only
  rw [lookup_json, List.lookup_append, hlookup, Option.none_or, Entries.lookup_cons_of_ne hname,
    List.lookup_append, hflags, Option.or_none]

theorem required_of_head (hlookup : (o.head c (redactedFields.map .string)).lookup name = some value)
    {a : α} (hread : read value.json = some a)
    : (o.fields c redactedFields data flags).required name read = some a := by
  unfold Members.required
  rw [get_of_head hlookup, Option.bind_some, hread]

theorem defaultOption_of_head (hlookup : (o.head c (redactedFields.map .string)).lookup name = some value)
    {a : Option α} (hread : Deserialize.option read value.json = some a)
    : (o.fields c redactedFields data flags).defaultOption name read = some a := by
  unfold Members.defaultOption Members.default
  rw [get_of_head hlookup]
  exact hread

theorem defaultOption_absent (hlookup : (o.head c (redactedFields.map .string)).lookup name = none)
    (hdata : "data" ≠ name) (hactor : "actor" ≠ name) (hbeneficiary : "beneficiary" ≠ name)
    (hflags : flags.lookup name = none)
    : (o.fields c redactedFields data flags).defaultOption name read = some none := by
  have htail : (o.tail c).lookup name = none := by
    rw [tail, List.lookup_append, o.lookup_participantEntry_of_ne _ hactor,
      o.lookup_participantEntry_of_ne _ hbeneficiary]
    rfl
  unfold Members.defaultOption Members.default
  rw [get_of_not_head hlookup hdata hflags, htail]
  rfl

theorem defaultOption_actor (hflags : flags.lookup "actor" = none)
    : (o.fields c redactedFields data flags).defaultOption "actor" ActorRef.deserialize
        = some (o.participantRef c.actor "actors") := by
  have htail : (o.tail c).lookup "actor"
      = (o.participantEntry c.actor "actor" "actors").lookup "actor" := by
    rw [tail, List.lookup_append, o.lookup_participantEntry_of_ne c.beneficiary (by decide), Option.or_none]
  have hentry := o.participantEntry_member c.actor "actor" "actors"
  unfold Members.defaultOption Members.default at hentry ⊢
  rw [get_of_not_head (by simp [head, List.lookup_cons]) (by decide) hflags, htail, ← lookup_json]
  exact hentry

theorem defaultOption_beneficiary (hflags : flags.lookup "beneficiary" = none)
    : (o.fields c redactedFields data flags).defaultOption "beneficiary" ActorRef.deserialize
        = some (o.participantRef c.beneficiary "beneficiaries") := by
  have htail : (o.tail c).lookup "beneficiary"
      = (o.participantEntry c.beneficiary "beneficiary" "beneficiaries").lookup "beneficiary" := by
    rw [tail, List.lookup_append, o.lookup_participantEntry_of_ne c.actor (by decide), Option.none_or]
  have hentry := o.participantEntry_member c.beneficiary "beneficiary" "beneficiaries"
  unfold Members.defaultOption Members.default at hentry ⊢
  rw [get_of_not_head (by simp [head, List.lookup_cons]) (by decide) hflags, htail, ← lookup_json]
  exact hentry

theorem defaultOption_data
    : (o.fields c redactedFields data flags).defaultOption "data" some
        = some (some (PhpValue.array data).json) := by
  have hget : (o.fields c redactedFields data flags).get "data" = some (PhpValue.array data).json := by
    have hhead : (o.head c (redactedFields.map .string)).lookup "data" = none := by
      simp [head, List.lookup_cons]
    unfold fields members jsonOf
    dsimp only
    rw [lookup_json, List.lookup_append, hhead, Option.none_or, List.lookup_cons_self]
    rfl
  unfold Members.defaultOption Members.default
  rw [hget]
  exact option_data data

theorem visit_fields (hskew : ∀ ms ∈ o.stamp.skewEstimateMs, I64_MIN ≤ ms ∧ ms ≤ I64_MAX)
    (hseq : (o.stamp.nextSeq : Int) ≤ U64_MAX)
    (hflags : ∀ name ∈ Event.FIELDS, flags.lookup name = none)
    : Event.visit (o.fields c redactedFields data flags) = some (o.event c redactedFields data) := by
  have hschemaVersion : (o.fields c redactedFields data flags).required "schema_version" string = some "1.0" :=
    required_of_head (by simp [head]; rfl) rfl
  have heventId : (o.fields c redactedFields data flags).required "event_id" string = some o.stamp.eventId :=
    required_of_head (by simp [head, List.lookup_cons]; rfl) rfl
  have heventType : (o.fields c redactedFields data flags).required "event_type" string = some o.eventType :=
    required_of_head (by simp [head, List.lookup_cons]; rfl) rfl
  have htenantId : (o.fields c redactedFields data flags).required "tenant_id" string = some o.factory.tenantId :=
    required_of_head (by simp [head, List.lookup_cons]; rfl) rfl
  have htimestamp : (o.fields c redactedFields data flags).required "timestamp" string = some o.stamp.now :=
    required_of_head (by simp [head, List.lookup_cons]; rfl) rfl
  have hreceivedAt : (o.fields c redactedFields data flags).required "received_at" string = some o.stamp.now :=
    required_of_head (by simp [head, List.lookup_cons]; rfl) rfl
  have hclock : (o.fields c redactedFields data flags).required "clock" Clock.deserialize
      = some ⟨.shim, o.stamp.skewEstimateMs, o.stamp.nextSeq⟩ :=
    required_of_head (by simp [head, List.lookup_cons]) (deserialize_clockOf hskew hseq)
  have hprovenance : (o.fields c redactedFields data flags).required "provenance" Provenance.deserialize
      = some ⟨c.origin.getD .human, c.trigger.getD .apiRequest, c.source.getD "HTTP", c.producer,
        c.authority⟩ :=
    required_of_head (by simp [head, List.lookup_cons]) (deserialize_provenance _ _ _ _ _)
  have htruth : (o.fields c redactedFields data flags).required "truth" Truth.deserialize
      = some ⟨.observed, "shim", some o.factory.adapter⟩ :=
    required_of_head (by simp [head, List.lookup_cons]) (deserialize_truthOf _)
  have htrust : (o.fields c redactedFields data flags).required "trust" Trust.deserialize
      = some ⟨.unknown, 0, some .nominalUnvalidated, []⟩ :=
    required_of_head (by simp [head, List.lookup_cons]) deserialize_unknownTrust
  have hcausality : (o.fields c redactedFields data flags).required "causality" Causality.deserialize
      = some ⟨c.parentEventId, c.causationId, c.correlationId, c.customerIds⟩ :=
    required_of_head (by simp [head, List.lookup_cons]) (deserialize_causalityEntry c)
  have hcoverage : (o.fields c redactedFields data flags).required "coverage" Coverage.deserialize
      = some ⟨true, [], redactedFields, some .L0⟩ :=
    required_of_head (by simp [head, List.lookup_cons]) (deserialize_coverageEntry _)
  have hresource : (o.fields c redactedFields data flags).defaultOption "resource" ResourceRef.deserialize
      = some (some ⟨some o.resourceId, o.resourceType, some (o.resourceNamespace c)⟩) := by
    apply defaultOption_of_head (by simp [head, List.lookup_cons]; rfl)
    rw [json_assoc, option_object, ← json_assoc, deserialize_resource]
    rfl
  have hoperation : (o.fields c redactedFields data flags).defaultOption "operation" OperationRef.deserialize
      = some (o.operationRef c) :=
    defaultOption_of_head (by simp [head, List.lookup_cons]) (o.deserialize_operationEntry c)
  have habsent : ∀ name ∈ ["authenticated_principal", "caller", "service_identity", "on_behalf_of",
      "resource_owner", "lifecycle", "entry_point", "technical_context", "attributes"],
      ∀ {α : Type} (read : Json → Option α),
        (o.fields c redactedFields data flags).defaultOption name read = some none := by
    intro name hname α read
    have hfield : name ∈ Event.FIELDS := by
      revert name
      decide
    apply defaultOption_absent ?_ ?_ ?_ ?_ (hflags name hfield) <;>
      simp only [List.mem_cons, List.not_mem_nil, or_false] at hname <;>
      rcases hname with rfl | rfl | rfl | rfl | rfl | rfl | rfl | rfl | rfl <;> simp [head, List.lookup_cons]
  simp only [List.forall_mem_cons] at habsent
  unfold Event.visit
  simp only [hschemaVersion, heventId, heventType, htenantId, htimestamp, hreceivedAt, hclock,
    hprovenance, htruth, htrust, hcausality, hcoverage, hresource, hoperation, habsent,
    defaultOption_actor (hflags "actor" (by decide)),
    defaultOption_beneficiary (hflags "beneficiary" (by decide)), defaultOption_data,
    Option.bind_eq_bind, Option.bind_some]
  rfl

end Members

theorem deserialize_members (hstamp : Fits o.stamp) (redactedFields : List String) (data : PhpArray)
    {flags : List (String × PhpValue)} (hflags : ∀ name ∈ Event.FIELDS, flags.lookup name = none)
    : Event.deserialize (.object (jsonOf (o.members c redactedFields data flags)))
        = some (o.event c redactedFields data) := by
  have hvisit : Event.visit (o.fields c redactedFields data flags) = some (o.event c redactedFields data) :=
    visit_fields hstamp.skew (hstamp.seq.trans (by decide)) hflags
  have hfields : (⟨false, fun name => (jsonOf (o.members c redactedFields data flags)).lookup name⟩ : Members)
      = o.fields c redactedFields data flags := rfl
  unfold Event.deserialize
  -- By rewriting alone: the reading of the fields must not be evaluated here.
  rw [members_object, hfields, Option.bind_eq_bind, Option.bind_some]
  exact hvisit

end Observation

section ObserveEvent

-- How deep the parser of `serde_json` lets the values of a text be nested: not as deep as this.
def RECURSION_LIMIT : Nat := 128

-- `serde_json::from_slice` on the text of a document.
def fromSlice (document : Json) : Option Json :=
  if jsonDepth document < RECURSION_LIMIT then some document else none

theorem fromSlice_members (o : Observation) (c : EventContext) (redactedFields : List String)
    {data : PhpArray} {flags : List (String × PhpValue)} (hflags : ∀ e ∈ flags, jsonDepth e.2.json ≤ 2)
    : fromSlice (.object (jsonOf (o.members c redactedFields data flags)))
        = if jsonDepth (PhpValue.array data).json + 1 < RECURSION_LIMIT then
            some (.object (jsonOf (o.members c redactedFields data flags)))
          else
            none := by
  have hlimit : RECURSION_LIMIT = 126 + 2 := rfl
  have hle : jsonDepth (.object (jsonOf (o.members c redactedFields data flags))) ≤ 126 + 1
      ↔ jsonDepth (PhpValue.array data).json ≤ 126 :=
    o.depth_members_le_iff c redactedFields hflags (by decide)
  have hlt : jsonDepth (.object (jsonOf (o.members c redactedFields data flags))) < RECURSION_LIMIT
      ↔ jsonDepth (PhpValue.array data).json + 1 < RECURSION_LIMIT := by
    omega
  unfold fromSlice
  simp only [hlt]

variable {runtime : Runtime} {stamp : Stamp} {context data : PhpArray} {c : EventContext}

/--
The daemon reads from the frame of an observed event what the application meant by it: with the ids of the
innermost correlation where the application left them blank, without the secrets of its data, and with the
paths of these. If the frame is nested too deep for its parser, it reads nothing.
-/
theorem deserialize_observeEvent (henabled : runtime.enabled = true) (hstamp : Fits stamp)
    (hcontext : Represents context c)
    (hdata : jsonDepth (PhpValue.array (stripEntries data)).json < JSON_MAX_DEPTH)
    (floatText : ℚ → String) (eventType resourceType resourceId : String)
    (beneficiaryId actorId : Option String)
    : ∃ frame,
        runtime.observeEvent floatText stamp eventType resourceType resourceId data context beneficiaryId
            actorId = some frame
        ∧ (fromSlice frame).bind Event.deserialize
            = if jsonDepth (PhpValue.array (stripEntries data)).json + 1 < RECURSION_LIMIT then
                some (Observation.event ⟨runtime.factory, stamp, eventType, resourceType, resourceId⟩
                  ((c.naming beneficiaryId actorId).correlated runtime.correlationStack.getLast?)
                  (droppedPaths data).eraseDups (stripEntries data))
              else
                none := by
  have hframe := observeEvent_eq henabled floatText hcontext hdata stamp eventType resourceType resourceId
    beneficiaryId actorId
  refine ⟨_, hframe, ?_⟩
  rw [fromSlice_members _ _ _ (by simp)]
  split
  . rw [Option.bind_some, Observation.deserialize_members _ _ hstamp _ _ (by simp)]
  . rfl

-- The ids that the checks look at are those of a participant who is named.
theorem participantRef_known_iff (o : Observation) (p : Participant) (plural : String)
    : (∀ a ∈ o.participantRef p plural, KnownOrAbsent a.id) ↔ ∀ id ∈ p.id, id ∉ RESERVED_UNKNOWN_TOKENS := by
  unfold Observation.participantRef
  cases p.id with
  | none => simp
  | some id =>
    by_cases hempty : id = ""
    . subst hempty
      simp [RESERVED_UNKNOWN_TOKENS]
    . simp [hempty, KnownOrAbsent, Known]

theorem accepts_iff_of_deserialize {frame : Json} {o : Observation} {c : EventContext}
    {redactedFields : List String} {data : PhpArray}
    (h : Event.deserialize frame = some (o.event c redactedFields data))
    : Event.Accepts frame
        ↔ (∀ s ∈ [o.stamp.eventId, o.eventType, o.factory.tenantId, o.stamp.now], Known s)
          ∧ (∀ id ∈ c.actor.id, id ∉ RESERVED_UNKNOWN_TOKENS)
          ∧ ∀ id ∈ c.beneficiary.id, id ∉ RESERVED_UNKNOWN_TOKENS := by
  have hactor := participantRef_known_iff o c.actor "actors"
  have hbeneficiary := participantRef_known_iff o c.beneficiary "beneficiaries"
  unfold Event.Accepts
  simp only [h, Option.mem_some_iff, exists_eq_left', Event.validate_eq_ok_iff, Event.forall_actors_iff]
  rw [← hactor, ← hbeneficiary]
  simp [Observation.event, SCHEMA_VERSION]

theorem correlated_actor (c : EventContext) (scope : Option Correlation)
    : (c.correlated scope).actor = c.actor := by
  cases scope <;> rfl

theorem correlated_beneficiary (c : EventContext) (scope : Option Correlation)
    : (c.correlated scope).beneficiary = c.beneficiary := by
  cases scope <;> rfl

/--
The daemon takes an observed event in exactly when the data is not nested too deep, its ids, its type and its
time are known and no participant has a placeholder for an id. An empty id of a participant counts as none.
-/
theorem accepts_observeEvent_iff (henabled : runtime.enabled = true) (hstamp : Fits stamp)
    (hcontext : Represents context c)
    (hdata : jsonDepth (PhpValue.array (stripEntries data)).json < JSON_MAX_DEPTH)
    (floatText : ℚ → String) (eventType resourceType resourceId : String)
    (beneficiaryId actorId : Option String)
    : ∃ frame,
        runtime.observeEvent floatText stamp eventType resourceType resourceId data context beneficiaryId
            actorId = some frame
        ∧ ((∃ raw ∈ fromSlice frame, Event.Accepts raw)
            ↔ jsonDepth (PhpValue.array (stripEntries data)).json + 1 < RECURSION_LIMIT
              ∧ (∀ s ∈ [stamp.eventId, eventType, runtime.factory.tenantId, stamp.now], Known s)
              ∧ (∀ id ∈ (c.actor.withId actorId).id, id ∉ RESERVED_UNKNOWN_TOKENS)
              ∧ ∀ id ∈ (c.beneficiary.withId beneficiaryId).id, id ∉ RESERVED_UNKNOWN_TOKENS) := by
  have hframe := observeEvent_eq henabled floatText hcontext hdata stamp eventType resourceType resourceId
    beneficiaryId actorId
  refine ⟨_, hframe, ?_⟩
  rw [fromSlice_members _ _ _ (by simp)]
  split
  . next hdepth =>
    simp only [Option.mem_some_iff, exists_eq_left']
    rw [accepts_iff_of_deserialize (Observation.deserialize_members _ _ hstamp _ _ (by simp)),
      correlated_actor, correlated_beneficiary, and_iff_right hdepth]
    rfl
  . next hdepth => simp [hdepth]

end ObserveEvent

section Instances

-- The context names its origin, and an empty id that the correlation stands in for.
def systemContext : PhpArray :=
  assoc [("origin", .string "SYSTEM"), ("correlation_id", .string ""), ("producer", .null)]

def unnamed : Participant := ⟨none, none, none, none, none⟩

def ofSystem : EventContext where
  «namespace» := none
  operationId := none
  operationType := none
  origin := some .system
  trigger := none
  source := none
  producer := none
  authority := none
  parentEventId := none
  causationId := none
  correlationId := some ""
  customerCorrelationIds := []
  actor := unnamed
  beneficiary := unnamed

theorem represents_systemContext : Represents systemContext ofSystem := by
  have horigin : nameOf Origin.variants .system = "SYSTEM" := by decide +kernel
  constructor
  . simp [EventContext.values, EventContext.ownValues, Participant.values, systemContext, ofSystem, unnamed,
      PhpArray.getOr, get_assoc, List.lookup_cons, PhpValue.coalesce, ofOption, ofVariant, horigin]
  . simp [systemContext, ofSystem, PhpArray.getOr, get_assoc, List.lookup_cons, PhpValue.coalesce,
      PhpValue.toObject]

def inRequest : Runtime where
  enabled := true
  factory := ⟨"tnt_a", "php-shim@0.1.0"⟩
  correlationStack := [⟨"req_1", none⟩]

def firstStamp : Stamp := ⟨"e1", "2026-09-14T10:00:00.000000Z", some (-3), 1⟩

theorem fits_firstStamp : Fits firstStamp := by
  constructor
  . simp [firstStamp, I64_MIN, I64_MAX]
  . decide

-- The data has a card number, which is dropped.
def cardData : PhpArray := assoc [("amount", .int 500), ("card", .string "4111")]

theorem cardData_shallow : jsonDepth (PhpValue.array (stripEntries cardData)).json < JSON_MAX_DEPTH := by
  decide +kernel

theorem deserialize_observeEvent_card
    : ∃ frame,
        inRequest.observeEvent toString firstStamp "payment.create" "payment" "pay_1" cardData systemContext
            none (some "user_1") = some frame
        ∧ (fromSlice frame).bind Event.deserialize
            = if jsonDepth (PhpValue.array (stripEntries cardData)).json + 1 < RECURSION_LIMIT then
                some (Observation.event ⟨inRequest.factory, firstStamp, "payment.create", "payment", "pay_1"⟩
                  ((ofSystem.naming none (some "user_1")).correlated inRequest.correlationStack.getLast?)
                  (droppedPaths cardData).eraseDups (stripEntries cardData))
              else
                none :=
  deserialize_observeEvent rfl fits_firstStamp represents_systemContext cardData_shallow toString _ _ _ _ _

-- A placeholder is taken for the actor, and the daemon refuses the event.
theorem accepts_observeEvent_iff_dash
    : ∃ frame,
        inRequest.observeEvent toString firstStamp "payment.create" "payment" "pay_1" cardData systemContext
            none (some "-") = some frame
        ∧ ((∃ raw ∈ fromSlice frame, Event.Accepts raw)
            ↔ jsonDepth (PhpValue.array (stripEntries cardData)).json + 1 < RECURSION_LIMIT
              ∧ (∀ s ∈ [firstStamp.eventId, "payment.create", inRequest.factory.tenantId, firstStamp.now], Known s)
              ∧ (∀ id ∈ (ofSystem.actor.withId (some "-")).id, id ∉ RESERVED_UNKNOWN_TOKENS)
              ∧ ∀ id ∈ (ofSystem.beneficiary.withId none).id, id ∉ RESERVED_UNKNOWN_TOKENS) :=
  accepts_observeEvent_iff rfl fits_firstStamp represents_systemContext cardData_shallow toString _ _ _ _ _

end Instances

end Athar.Wire
