import Athar.Shim.Lemmas.Names
import Athar.Wire.Context

/-!
This module contains the frame that the shim makes of an observation. The entries that an event starts with
hold no secrets, so that on the way to the frame the correlation, the redacted fields and the data change,
and nothing else does.
-/

namespace Athar.Wire

open Shim Deserialize Redact

-- What an observation is made of beside its data and its context.
structure Observation where
  factory : EventFactory
  stamp : Stamp
  eventType : String
  resourceType : String
  resourceId : String

namespace Observation

variable (o : Observation) (c : EventContext)

def resourceNamespace : String :=
  c.namespace.getD (o.factory.tenantId ++ "/" ++ o.resourceType ++ "s")

def operationText : String :=
  c.operationType.getD (EventFactory.operationType o.eventType)

def operationEntry : PhpValue :=
  if c.operationId.isSome || c.operationType.isSome then
    .array (assoc [
      ("operation_id", ofOption c.operationId),
      ("type", .string (o.operationText c)),
      ("inference", .string "EXPLICIT"),
      ("confidence", .float 1),
      ("calibration", .string "NOMINAL_UNVALIDATED")])
  else
    .null

def causalityEntry : PhpValue :=
  .array (assoc [
    ("parent_event_id", ofOption c.parentEventId),
    ("causation_id", ofOption c.causationId),
    ("correlation_id", ofOption c.correlationId),
    ("customer_correlation_ids", .object (c.customerCorrelationIds.map fun e => (e.1, .string e.2)))])

def coverageEntry (redactedFields : List PhpValue) : PhpValue :=
  .array (assoc [
    ("complete", .bool true),
    ("shed", .array []),
    ("redacted_fields", .array (list redactedFields)),
    ("degradation_level", .string "L0")])

-- The entries of the event before its data, and after it.
def head (redactedFields : List PhpValue) : List (String × PhpValue) :=
  [ ("schema_version", .string "1.0"),
    ("event_id", .string o.stamp.eventId),
    ("event_type", .string o.eventType),
    ("tenant_id", .string o.factory.tenantId),
    ("timestamp", .string o.stamp.now),
    ("received_at", .string o.stamp.now),
    ("clock", EventFactory.clockOf o.stamp),
    ("resource", .array (assoc [
      ("id", .string o.resourceId),
      ("type", .string o.resourceType),
      ("namespace", .string (o.resourceNamespace c))])),
    ("operation", o.operationEntry c),
    ("provenance", .array (assoc [
      ("origin", .string (nameOf Origin.variants (c.origin.getD .human))),
      ("trigger", .string (nameOf Trigger.variants (c.trigger.getD .apiRequest))),
      ("source", .string (c.source.getD "HTTP")),
      ("producer", ofOption c.producer),
      ("authority", ofOption c.authority)])),
    ("truth", EventFactory.truthOf o.factory),
    ("trust", EventFactory.unknownTrust),
    ("causality", causalityEntry c),
    ("coverage", coverageEntry redactedFields)]

def participantEntry (p : Participant) (role plural : String) : List (String × PhpValue) :=
  match p.id with
  | some id =>
    if id = "" then
      []
    else
      [(role, .array (assoc [
        ("id", .string id),
        ("type", .string (nameOf EntityType.variants (p.type.getD .user))),
        ("namespace", .string (p.namespace.getD (o.factory.tenantId ++ "/" ++ plural))),
        ("resolution", .string (nameOf ResolutionStatus.variants (p.resolution.getD .probable))),
        ("confidence", .float (p.confidence.getD (7 / 10))),
        ("calibration", .string "NOMINAL_UNVALIDATED")]))]
  | none => []

def tail : List (String × PhpValue) :=
  o.participantEntry c.actor "actor" "actors" ++ o.participantEntry c.beneficiary "beneficiary" "beneficiaries"

def entries (redactedFields : List PhpValue) (data : PhpArray) : PhpArray :=
  assoc (o.head c redactedFields ++ ("data", .array data) :: o.tail c)

variable {o} {c} {context : PhpArray}

theorem participant_eq {p : Participant} {role : String} (plural : String)
    (h : ∀ e ∈ p.values role, context.getOr e.1 .null = e.2)
    : o.factory.participant context role plural = assoc (o.participantEntry p role plural) := by
  simp only [Participant.values, List.forall_mem_cons] at h
  rcases h with ⟨hid, htype, hnamespace, hresolution, hconfidence, -⟩
  unfold EventFactory.participant participantEntry
  rw [ofVariant_getOr (b := .user) htype (by decide +kernel),
    ofVariant_getOr (b := .probable) hresolution (by decide +kernel), getOr_string hnamespace,
    getOr_float hconfidence]
  have hget := fun s => get_eq_string_iff hid (s := s)
  cases hp : p.id with
  | none =>
    split
    . next id h => exact absurd ((hget id).mp h) (by simp [hp])
    . rfl
  | some id =>
    rw [(hget id).mpr hp]
    dsimp
    split <;> rfl

theorem businessEvent_eq (h : Represents context c) (data : PhpArray)
    : o.factory.businessEvent o.stamp o.eventType o.resourceId o.resourceType data context
        = o.entries c [] data := by
  have hvalues := h.values
  simp only [EventContext.values, EventContext.ownValues, List.forall_mem_append, List.forall_mem_cons]
    at hvalues
  rcases hvalues with ⟨⟨⟨hnamespace, hoperation, htype, horigin, htrigger, hsource, hproducer, hauthority,
    hparent, hcausation, hcorrelation, -⟩, hactor⟩, hbeneficiary⟩
  unfold EventFactory.businessEvent
  rw [participant_eq "actors" hactor, participant_eq "beneficiaries" hbeneficiary, isset_eq hoperation,
    isset_eq htype, getOr_string hnamespace, hoperation, getOr_string htype, getOr_string hsource,
    ofVariant_getOr (b := .human) horigin (by decide +kernel),
    ofVariant_getOr (b := .apiRequest) htrigger (by decide +kernel), hproducer, hauthority, hparent,
    hcausation, hcorrelation, h.customerCorrelationIds]
  simp [entries, head, tail, assoc, resourceNamespace, operationEntry, operationText, causalityEntry,
    coverageEntry, list]

end Observation

namespace Observation

variable (o : Observation) (c : EventContext)

theorem head_clean : entriesDropSecret (assoc (o.head c [])) = false := by
  have hplain : ∀ name ∈ ownNames, isSecret name = false := fun name => isSecret_of_mem_ownNames
  simp only [ownNames, List.forall_mem_cons] at hplain
  have hclock : (EventFactory.clockOf o.stamp).dropsSecret = false := by
    unfold EventFactory.clockOf
    cases o.stamp.skewEstimateMs <;> simp [entriesDropSecret_assoc, hplain, PhpValue.dropsSecret]
  have hoperation : (o.operationEntry c).dropsSecret = false := by
    unfold operationEntry
    split <;> simp [entriesDropSecret_assoc, hplain, PhpValue.dropsSecret, dropsSecret_ofOption]
  simp [entriesDropSecret_assoc, head, hplain, hclock, hoperation, PhpValue.dropsSecret,
    dropsSecret_ofOption, EventFactory.truthOf, EventFactory.unknownTrust, causalityEntry, coverageEntry,
    list, entriesDropSecret]

theorem participantEntry_clean (p : Participant) {role : String} (hrole : isSecret role = false)
    (plural : String)
    : entriesDropSecret (assoc (o.participantEntry p role plural)) = false := by
  have hplain : ∀ name ∈ ownNames, isSecret name = false := fun name => isSecret_of_mem_ownNames
  simp only [ownNames, List.forall_mem_cons] at hplain
  unfold participantEntry
  split
  . split <;> simp [entriesDropSecret_assoc, hplain, hrole, PhpValue.dropsSecret]
  . rfl

theorem tail_clean : entriesDropSecret (assoc (o.tail c)) = false := by
  unfold tail
  rw [assoc_append, entriesDropSecret_append,
    o.participantEntry_clean _ (isSecret_of_mem_ownNames (by simp [ownNames])),
    o.participantEntry_clean _ (isSecret_of_mem_ownNames (by simp [ownNames]))]
  rfl

theorem stripSecrets_entries (data : PhpArray)
    : stripSecrets (o.entries c [] data)
        = (o.entries c [] (stripEntries data), (walkStripSecrets "data" data).2) := by
  have hname : isSecretKey (.string "data") = false := isSecretKey_of_mem_ownNames (by simp [ownNames])
  have hdata : classOf (.string "data") ≠ .c5Secret := by
    simpa [isSecretKey] using hname
  unfold stripSecrets entries
  rw [assoc_append, walkStripSecrets_append, walkStripSecrets_eq_self _ _ (o.head_clean c)]
  have hcons : assoc (("data", .array data) :: o.tail c)
      = (.string "data", .array data) :: assoc (o.tail c) := rfl
  rw [hcons, walkStripSecrets.eq_2, if_neg hdata, walkStripSecrets_eq_self _ _ (o.tail_clean c)]
  simp [walkValue, childPath, PhpKey.text, walkStripSecrets_fst, assoc]

theorem lookup_coverage (redactedFields : List PhpValue) (data : PhpArray)
    : (o.entries c redactedFields data).get "coverage" = some (coverageEntry redactedFields) := by
  simp [entries, get_assoc, head, List.lookup_cons]

theorem set_coverage (redactedFields redactedFields' : List PhpValue) (data : PhpArray)
    : (o.entries c redactedFields data).set "coverage" (coverageEntry redactedFields')
        = o.entries c redactedFields' data := by
  simp [entries, set_assoc, head, Entries.set]

theorem redactedFields_entries (redactedFields : List PhpValue) (data : PhpArray)
    : Runtime.redactedFields (o.entries c redactedFields data)
        = some (some (.array (list redactedFields))) := by
  unfold Runtime.redactedFields
  rw [lookup_coverage]
  unfold coverageEntry PhpArray.isset
  simp [get_assoc, List.lookup_cons]

theorem setRedactedFields_entries (redactedFields redactedFields' : List PhpValue) (data : PhpArray)
    : Runtime.setRedactedFields (o.entries c redactedFields data) (.array (list redactedFields'))
        = o.entries c redactedFields' data := by
  have hfields : PhpArray.set (assoc [("complete", .bool true), ("shed", .array []),
      ("redacted_fields", .array (list redactedFields)), ("degradation_level", .string "L0")])
        "redacted_fields" (.array (list redactedFields'))
      = assoc [("complete", .bool true), ("shed", .array []),
        ("redacted_fields", .array (list redactedFields')), ("degradation_level", .string "L0")] := by
    simp [set_assoc, Entries.set]
  unfold Runtime.setRedactedFields
  rw [lookup_coverage]
  unfold coverageEntry
  dsimp only
  rw [hfields]
  exact o.set_coverage c redactedFields redactedFields' data

theorem redact_entries (floatText : ℚ → String) (data : PhpArray)
    : Runtime.redact floatText (o.entries c [] data)
        = some (o.entries c ((droppedPaths data).eraseDups.map .string) (stripEntries data)) := by
  have hstrip := o.stripSecrets_entries c data
  rw [walkStripSecrets_snd_data] at hstrip
  by_cases hnone : droppedPaths data = []
  . rw [redact_of_nothing_dropped floatText (hnone ▸ hstrip), hnone]
    simp
  . rw [redact_of_dropped floatText hstrip hnone (o.redactedFields_entries c [] _)
      (arrayUnique_strings floatText _), setRedactedFields_entries]

theorem getOr_causality (redactedFields : List PhpValue) (data : PhpArray)
    : (o.entries c redactedFields data).getOr "causality" (.array []) = causalityEntry c := by
  simp [PhpArray.getOr, entries, get_assoc, head, List.lookup_cons, causalityEntry, PhpValue.coalesce]

variable (correlationId causationId : Option String)

theorem set_causality (redactedFields : List PhpValue) (data : PhpArray)
    : (o.entries c redactedFields data).set "causality"
          (causalityEntry { c with causationId, correlationId })
        = o.entries { c with causationId, correlationId } redactedFields data := by
  simp only [entries, set_assoc, head, List.cons_append, Entries.set]
  simp
  rfl

theorem fillIn_correlationId (scope : Option String)
    : Runtime.fillIn "correlation_id" scope (causalityEntry c)
        = some (causalityEntry { c with correlationId := filled c.correlationId scope }) := by
  unfold causalityEntry
  rw [fillIn_assoc c.correlationId scope (by simp [List.lookup_cons])]
  simp [Entries.set]

theorem fillIn_causationId (scope : Option String)
    : Runtime.fillIn "causation_id" scope (causalityEntry c)
        = some (causalityEntry { c with causationId := filled c.causationId scope }) := by
  unfold causalityEntry
  rw [fillIn_assoc c.causationId scope (by simp [List.lookup_cons])]
  simp [Entries.set]

theorem injectCorrelation_entries (scope : Option Correlation) (redactedFields : List PhpValue)
    (data : PhpArray)
    : Runtime.injectCorrelation scope (o.entries c redactedFields data)
        = some (o.entries (c.correlated scope) redactedFields data) := by
  cases scope with
  | none => rfl
  | some scope =>
    unfold Runtime.injectCorrelation
    dsimp only
    rw [getOr_causality, fillIn_correlationId]
    simp only [Option.bind_eq_bind, Option.bind_some]
    rw [fillIn_causationId, Option.bind_some, set_causality]
    rfl

-- The members of the frame. It may have flags that are no fields of an event.
def members (redactedFields : List String) (data : PhpArray) (flags : List (String × PhpValue))
    : List (String × PhpValue) :=
  o.head c (redactedFields.map .string) ++ ("data", .array data) :: (o.tail c ++ flags)

theorem depth_head (redactedFields : List String)
    : ∀ e ∈ o.head c (redactedFields.map .string), jsonDepth e.2.json ≤ 2 := by
  have hlist : ∀ texts : List String,
      jsonDepth (PhpValue.array (list (texts.map PhpValue.string))).json = 1 := by
    intro texts
    rw [json_list, List.map_map, jsonDepth]
    exact congrArg (· + 1) (jsonItemsDepth_strings texts)
  have hnil : jsonDepth (PhpValue.array []).json = 1 := rfl
  have hclock : jsonDepth (EventFactory.clockOf o.stamp).json ≤ 2 := by
    apply jsonDepth_assoc_le
    cases o.stamp.skewEstimateMs <;> simp [PhpValue.json, jsonDepth]
  have hoperation : jsonDepth (o.operationEntry c).json ≤ 2 := by
    unfold operationEntry
    split
    . apply jsonDepth_assoc_le
      simp [jsonDepth, jsonDepth_ofOption]
    . simp [jsonDepth]
  have hcausality : jsonDepth (causalityEntry c).json ≤ 2 := by
    have hids : jsonDepth (PhpValue.object (c.customerCorrelationIds.map fun e => (e.1, .string e.2))).json
        ≤ 1 := by
      rw [PhpValue.json, jsonMembers_strings, jsonDepth]
      apply Nat.succ_le_succ
      rw [jsonMembersDepth_le_iff]
      intro m hm
      rcases List.mem_map.mp hm with ⟨e, _, rfl⟩
      simp [jsonDepth]
    apply jsonDepth_assoc_le
    simp [jsonDepth_ofOption, hids]
  have hcoverage : jsonDepth (coverageEntry (redactedFields.map .string)).json ≤ 2 := by
    apply jsonDepth_assoc_le
    simp [jsonDepth, hlist, hnil]
  have htrust : jsonDepth EventFactory.unknownTrust.json ≤ 2 := by
    apply jsonDepth_assoc_le
    simp [jsonDepth, hnil]
  have htruth : jsonDepth (EventFactory.truthOf o.factory).json ≤ 2 := by
    apply jsonDepth_assoc_le
    simp [jsonDepth]
  have hresource : ∀ id type «namespace» : String, jsonDepth (PhpValue.array (assoc [("id", .string id),
      ("type", .string type), ("namespace", .string «namespace»)])).json ≤ 2 := by
    intro id type «namespace»
    apply jsonDepth_assoc_le
    simp [jsonDepth]
  have hprovenance : jsonDepth (PhpValue.array (assoc [
      ("origin", .string (nameOf Origin.variants (c.origin.getD .human))),
      ("trigger", .string (nameOf Trigger.variants (c.trigger.getD .apiRequest))),
      ("source", .string (c.source.getD "HTTP")), ("producer", ofOption c.producer),
      ("authority", ofOption c.authority)])).json ≤ 2 := by
    apply jsonDepth_assoc_le
    simp [jsonDepth, jsonDepth_ofOption]
  simp [head, hclock, hoperation, hcausality, hcoverage, htrust, htruth, hresource, hprovenance, jsonDepth]

theorem depth_participantEntry (p : Participant) (role plural : String)
    : ∀ e ∈ o.participantEntry p role plural, jsonDepth e.2.json ≤ 2 := by
  unfold participantEntry
  split
  . split
    . simp
    . rw [List.forall_mem_singleton]
      apply jsonDepth_assoc_le
      simp [jsonDepth]
  . simp

-- The frame goes one level deeper than the data, whose depth is the only one that has no bound.
theorem depth_members_le_iff (redactedFields : List String) {data : PhpArray}
    {flags : List (String × PhpValue)} (hflags : ∀ e ∈ flags, jsonDepth e.2.json ≤ 2) {n : Nat} (hn : 2 ≤ n)
    : jsonDepth (.object (jsonOf (o.members c redactedFields data flags))) ≤ n + 1
        ↔ jsonDepth (PhpValue.array data).json ≤ n := by
  rw [jsonDepth, Nat.add_le_add_iff_right, jsonMembersDepth_le_iff, jsonOf, List.forall_mem_map]
  unfold members tail
  constructor
  . intro h
    exact h ("data", .array data) (by simp)
  . intro hdata e he
    simp only [List.mem_append, List.mem_cons] at he
    rcases he with he | rfl | (he | he) | he
    . exact (o.depth_head c redactedFields e he).trans hn
    . exact hdata
    . exact (o.depth_participantEntry _ _ _ e he).trans hn
    . exact (o.depth_participantEntry _ _ _ e he).trans hn
    . exact (hflags e he).trans hn

theorem json_members (redactedFields : List String) (data : PhpArray) (flags : List (String × PhpValue))
    : (PhpValue.array (assoc (o.members c redactedFields data flags))).json
        = .object (jsonOf (o.members c redactedFields data flags)) := by
  unfold members head
  rw [List.cons_append, json_assoc]
  rfl

theorem encodeFrame_members (redactedFields : List String) {data : PhpArray}
    {flags : List (String × PhpValue)}
    (hdata : jsonDepth (PhpValue.array data).json < JSON_MAX_DEPTH)
    (hflags : ∀ e ∈ flags, jsonDepth e.2.json ≤ 2)
    : EventFactory.encodeFrame (assoc (o.members c redactedFields data flags))
        = some (.object (jsonOf (o.members c redactedFields data flags))) := by
  unfold EventFactory.encodeFrame jsonEncode
  rw [o.json_members, if_pos]
  exact (o.depth_members_le_iff c redactedFields hflags (by decide)).mpr (Nat.le_sub_one_of_lt hdata)

theorem entries_eq_assoc (redactedFields : List String) (data : PhpArray)
    : o.entries c (redactedFields.map .string) data = assoc (o.members c redactedFields data []) := by
  unfold entries members
  rw [List.append_nil]

end Observation

section ObserveEvent

variable {runtime : Runtime} {context data : PhpArray} {c : EventContext}

theorem observe_entries (henabled : runtime.enabled = true) (floatText : ℚ → String) (o : Observation)
    (c : EventContext) (hdata : jsonDepth (PhpValue.array (stripEntries data)).json < JSON_MAX_DEPTH)
    : runtime.observe floatText (o.entries c [] data)
        = some (.object (jsonOf (o.members (c.correlated runtime.correlationStack.getLast?)
            (droppedPaths data).eraseDups (stripEntries data) []))) := by
  unfold Runtime.observe
  rw [if_pos henabled, o.injectCorrelation_entries, Option.bind_eq_bind, Option.bind_some,
    o.redact_entries, Option.bind_some, o.entries_eq_assoc,
    o.encodeFrame_members _ _ hdata (by simp)]

theorem observeEvent_eq (henabled : runtime.enabled = true) (floatText : ℚ → String)
    (hcontext : Represents context c)
    (hdata : jsonDepth (PhpValue.array (stripEntries data)).json < JSON_MAX_DEPTH) (stamp : Stamp)
    (eventType resourceType resourceId : String) (beneficiaryId actorId : Option String)
    : runtime.observeEvent floatText stamp eventType resourceType resourceId data context beneficiaryId actorId
        = some (.object (jsonOf
            (Observation.members ⟨runtime.factory, stamp, eventType, resourceType, resourceId⟩
              ((c.naming beneficiaryId actorId).correlated runtime.correlationStack.getLast?)
              (droppedPaths data).eraseDups (stripEntries data) []))) := by
  have hnamed := represents_named hcontext beneficiaryId actorId
  have hobserve := fun c' => observe_entries henabled floatText
    ⟨runtime.factory, stamp, eventType, resourceType, resourceId⟩ c' hdata
  unfold Runtime.observeEvent
  rw [if_pos henabled]
  dsimp only
  cases hscope : runtime.correlationStack.getLast? with
  | none =>
    have hentries := Observation.businessEvent_eq
      (o := ⟨runtime.factory, stamp, eventType, resourceType, resourceId⟩) hnamed data
    dsimp only at hentries ⊢
    rw [hentries, hobserve, hscope]
  | some scope =>
    have hentries := Observation.businessEvent_eq
      (o := ⟨runtime.factory, stamp, eventType, resourceType, resourceId⟩)
      (represents_defaulted hnamed scope) data
    dsimp only at hentries ⊢
    rw [hentries, hobserve, hscope, correlated_defaulted]

end ObserveEvent

end Athar.Wire
