import Athar.Event.Impl.Deserialize
import Athar.Shim.Lemmas.Assoc

/-!
This module contains the contexts of observations. An application hands a context in as an array of values
of any type; here it is a structure, with the types that an event has, and an array may represent it.
-/

namespace Athar.Wire

open Shim Deserialize

-- The name that the deserializers know a variant by.
def nameOf {α : Type} [DecidableEq α] (variants : List (String × α)) (a : α) : String :=
  ((variants.find? (·.2 = a)).map Prod.fst).getD ""

-- Who acts or benefits, as the context of an observation says it.
structure Participant where
  id : Option String
  type : Option EntityType
  «namespace» : Option String
  resolution : Option ResolutionStatus
  confidence : Option ℚ

structure EventContext where
  «namespace» : Option String
  operationId : Option String
  operationType : Option String
  origin : Option Origin
  trigger : Option Trigger
  source : Option String
  producer : Option String
  authority : Option String
  parentEventId : Option String
  causationId : Option String
  correlationId : Option String
  customerCorrelationIds : List (String × String)
  actor : Participant
  beneficiary : Participant

def ofVariant {α : Type} [DecidableEq α] (variants : List (String × α)) (a : Option α) : PhpValue :=
  ofOption (a.map (nameOf variants))

def Participant.values (p : Participant) (role : String) : List (String × PhpValue) :=
  [(role ++ "_id", ofOption p.id), (role ++ "_type", ofVariant EntityType.variants p.type),
    (role ++ "_namespace", ofOption p.namespace),
    (role ++ "_resolution", ofVariant ResolutionStatus.variants p.resolution),
    (role ++ "_confidence", match p.confidence with | none => .null | some q => .float q)]

def EventContext.ownValues (c : EventContext) : List (String × PhpValue) :=
  [("namespace", ofOption c.namespace), ("operation_id", ofOption c.operationId),
    ("operation_type", ofOption c.operationType), ("origin", ofVariant Origin.variants c.origin),
    ("trigger", ofVariant Trigger.variants c.trigger), ("source", ofOption c.source),
    ("producer", ofOption c.producer), ("authority", ofOption c.authority),
    ("parent_event_id", ofOption c.parentEventId), ("causation_id", ofOption c.causationId),
    ("correlation_id", ofOption c.correlationId)]

def EventContext.values (c : EventContext) : List (String × PhpValue) :=
  c.ownValues ++ c.actor.values "actor" ++ c.beneficiary.values "beneficiary"

-- The entries of an array are of the types of a context. An unset entry may also be null.
structure Represents (context : PhpArray) (c : EventContext) : Prop where
  values : ∀ e ∈ c.values, context.getOr e.1 .null = e.2
  customerCorrelationIds : (context.getOr "customer_correlation_ids" (.array [])).toObject
    = .object (c.customerCorrelationIds.map fun e => (e.1, .string e.2))

variable {context : PhpArray} {c : EventContext}

theorem ofVariant_getOr {α : Type} [DecidableEq α] {variants : List (String × α)} {a : Option α}
    {name : String} (h : context.getOr name .null = ofVariant variants a) {default : String} {b : α}
    (hdefault : nameOf variants b = default)
    : context.getOr name (.string default) = .string (nameOf variants (a.getD b)) := by
  rw [getOr_string h, ← hdefault]
  cases a <;> rfl

-- A part of a context, with the values that it stands for beside the others.
structure Slot {α : Type} (slot : α → EventContext) (values : α → List (String × PhpValue))
    (others : List (String × PhpValue)) : Prop where
  mem_values_iff : ∀ a e, e ∈ (slot a).values ↔ e ∈ values a ∨ e ∈ others
  ids_eq : ∀ a b, (slot a).customerCorrelationIds = (slot b).customerCorrelationIds
  not_others : ∀ a, ∀ e ∈ values a, ∀ e' ∈ others, e'.1 ≠ e.1
  not_ids : ∀ a, ∀ e ∈ values a, e.1 ≠ "customer_correlation_ids"

theorem Slot.set_represents {α : Type} {slot : α → EventContext} {values : α → List (String × PhpValue)}
    {others : List (String × PhpValue)} (hslot : Slot slot values others) {a b : α}
    (h : Represents context (slot a)) {name : String} {value : PhpValue} (hnew : (name, value) ∈ values b)
    (hvalues : ∀ e ∈ values b, if e.1 = name then e.2 = value else e ∈ values a)
    : Represents (context.set name value) (slot b) := by
  constructor
  . intro e he
    rcases (hslot.mem_values_iff b e).mp he with he | he
    . have hcase := hvalues e he
      split at hcase
      . next heq => rw [heq, hcase, getOr_set_self]
      . next hne =>
        rw [getOr_set_of_ne (fun heq => hne heq.symm)]
        exact h.values e ((hslot.mem_values_iff a e).mpr (.inl hcase))
    . have hne := hslot.not_others b _ hnew e he
      rw [getOr_set_of_ne (fun heq => hne heq.symm)]
      exact h.values e ((hslot.mem_values_iff a e).mpr (.inr he))
  . rw [getOr_set_of_ne (hslot.not_ids b _ hnew), h.customerCorrelationIds, hslot.ids_eq a b]

-- The id of a participant that the application names apart from the context.
def Participant.withId (p : Participant) (id : Option String) : Participant :=
  match id with
  | none => p
  | some id =>
    if id = "" then
      p
    else
      { p with id := some id, type := some (p.type.getD .user) }

theorem Slot.withParticipant_represents {slot : Participant → EventContext} {role : String}
    {others : List (String × PhpValue)} (hslot : Slot slot (·.values role) others) {p : Participant}
    (h : Represents context (slot p)) (id : Option String)
    : Represents (Runtime.withParticipant role id context) (slot (p.withId id)) := by
  rcases id with _ | id
  . exact h
  . unfold Runtime.withParticipant Participant.withId
    dsimp only
    by_cases hempty : id = ""
    . rw [if_pos hempty, if_pos hempty]
      exact h
    . rw [if_neg hempty, if_neg hempty]
      have hid : Represents (context.set (role ++ "_id") (.string id)) (slot { p with id := some id }) := by
        apply hslot.set_represents h
        . simp [Participant.values, ofOption]
        . simp [Participant.values, ofOption]
      have htype : (context.set (role ++ "_id") (.string id)).getOr (role ++ "_type") .null
          = ofVariant EntityType.variants p.type :=
        hid.values (role ++ "_type", ofVariant EntityType.variants p.type)
          ((hslot.mem_values_iff _ _).mpr (.inl (by simp [Participant.values])))
      rw [isset_eq htype]
      cases hset : p.type with
      | some t => simpa [hset] using hid
      | none =>
        have huser : ofVariant EntityType.variants (some .user) = .string "user" := rfl
        apply hslot.set_represents hid
        . simp [Participant.values, huser]
        . simp [Participant.values, huser]

theorem slot_actor (c : EventContext)
    : Slot (fun p => { c with actor := p }) (·.values "actor")
        (c.ownValues ++ c.beneficiary.values "beneficiary") := by
  constructor
  . intro p e
    simp only [EventContext.values, EventContext.ownValues, List.mem_append]
    tauto
  . simp
  . simp [EventContext.ownValues, Participant.values]
  . simp [Participant.values]

theorem slot_beneficiary (c : EventContext)
    : Slot (fun p => { c with beneficiary := p }) (·.values "beneficiary")
        (c.ownValues ++ c.actor.values "actor") := by
  constructor
  . intro p e
    simp only [EventContext.values, EventContext.ownValues, List.mem_append]
    tauto
  . simp
  . simp [EventContext.ownValues, Participant.values]
  . simp [Participant.values]

-- The context of an observation with the participants that are named apart.
def EventContext.naming (c : EventContext) (beneficiaryId actorId : Option String) : EventContext :=
  { c with actor := c.actor.withId actorId, beneficiary := c.beneficiary.withId beneficiaryId }

-- What `observeEvent` makes of a context before it builds the event.
theorem represents_named (h : Represents context c) (beneficiaryId actorId : Option String)
    : Represents (Runtime.withParticipant "actor" actorId
        (Runtime.withParticipant "beneficiary" beneficiaryId context)) (c.naming beneficiaryId actorId) := by
  have hbeneficiary := (slot_beneficiary c).withParticipant_represents h beneficiaryId
  exact (slot_actor { c with beneficiary := c.beneficiary.withId beneficiaryId }).withParticipant_represents
    hbeneficiary actorId

section Correlation

-- Zero counts as no id.
def isBlank (id : Option String) : Bool :=
  match id with
  | none => true
  | some id => !Runtime.nonEmpty id

def filled (explicit scope : Option String) : Option String :=
  if isBlank explicit && !isBlank scope then scope else explicit

-- The ids of the innermost correlation stand in for those that the context leaves blank.
def EventContext.correlated (c : EventContext) : Option Correlation → EventContext
  | none => c
  | some scope =>
    { c with
      causationId := filled c.causationId scope.causationId
      correlationId := filled c.correlationId (some scope.correlationId) }

theorem isEmpty_ofOption (id : Option String) : (ofOption id).isEmpty = isBlank id := by
  cases id with
  | none => rfl
  | some s =>
    unfold ofOption PhpValue.isEmpty isBlank Runtime.nonEmpty
    by_cases hempty : s = "" <;> by_cases hzero : s = "0" <;> simp_all

theorem fillIn_assoc {name : String} {es : List (String × PhpValue)} (explicit scope : Option String)
    (hget : es.lookup name = some (ofOption explicit))
    : Runtime.fillIn name scope (.array (assoc es))
        = some (.array (assoc (Entries.set name (ofOption (filled explicit scope)) es))) := by
  have hvalue : PhpArray.getOr (assoc es) name .null = ofOption explicit := by
    unfold PhpArray.getOr
    rw [get_assoc, hget]
    cases explicit <;> rfl
  have hself := Entries.set_of_lookup hget
  unfold Runtime.fillIn Runtime.emptyIn filled
  simp only [hvalue, isEmpty_ofOption, Option.bind_eq_bind, Option.bind_some]
  cases scope with
  | none => simp [isBlank, hself]
  | some id =>
    have hid : ofOption (some id) = .string id := rfl
    cases hblank : isBlank explicit <;> cases hnew : Runtime.nonEmpty id <;>
      simp [isBlank, hnew, hself, hid, Runtime.assignIn, set_assoc]

-- The id that `observeEvent` puts into a context that leaves it unset.
def defaulted (explicit scope : Option String) : Option String :=
  if explicit.isNone && !isBlank scope then scope else explicit

theorem filled_defaulted (explicit scope : Option String)
    : filled (defaulted explicit scope) scope = filled explicit scope := by
  unfold filled defaulted
  cases explicit with
  | some s => simp
  | none =>
    cases hblank : isBlank scope <;> simp [isBlank]

theorem Slot.withDefaultId_represents {slot : Option String → EventContext} {name : String}
    {others : List (String × PhpValue)} (hslot : Slot slot (fun id => [(name, ofOption id)]) others)
    {explicit : Option String} (h : Represents context (slot explicit)) (scope : Option String)
    : Represents (Runtime.withDefaultId name scope context) (slot (defaulted explicit scope)) := by
  unfold Runtime.withDefaultId defaulted
  have hset := h.values (name, ofOption explicit) ((hslot.mem_values_iff _ _).mpr (.inl (by simp)))
  rcases scope with _ | id
  . simpa [isBlank] using h
  . dsimp only
    rw [isset_eq hset]
    cases explicit with
    | some s => simpa using h
    | none =>
      cases hblank : Runtime.nonEmpty id with
      | false => simpa [isBlank, hblank] using h
      | true =>
        simp only [isBlank, hblank, Option.isNone_none, Option.isSome_none, Bool.not_false, Bool.not_true,
          Bool.and_self, if_true]
        apply hslot.set_represents h <;> simp [ofOption]

theorem slot_correlationId (c : EventContext)
    : Slot (fun id => { c with correlationId := id }) (fun id => [("correlation_id", ofOption id)])
        (c.ownValues.dropLast ++ c.actor.values "actor" ++ c.beneficiary.values "beneficiary") := by
  constructor
  . intro p e
    simp only [EventContext.values, EventContext.ownValues, List.mem_append, List.mem_cons, List.dropLast]
    grind
  . simp
  . simp [EventContext.ownValues, Participant.values]
  . simp

theorem slot_causationId (c : EventContext)
    : Slot (fun id => { c with causationId := id }) (fun id => [("causation_id", ofOption id)])
        (c.ownValues.eraseIdx 9 ++ c.actor.values "actor" ++ c.beneficiary.values "beneficiary") := by
  constructor
  . intro p e
    simp only [EventContext.values, EventContext.ownValues, List.mem_append, List.mem_cons, List.eraseIdx]
    grind
  . simp
  . simp [EventContext.ownValues, Participant.values]
  . simp

theorem represents_defaulted (h : Represents context c) (scope : Correlation)
    : Represents (Runtime.withDefaultId "causation_id" scope.causationId
          (Runtime.withDefaultId "correlation_id" (some scope.correlationId) context))
        { c with
          causationId := defaulted c.causationId scope.causationId
          correlationId := defaulted c.correlationId (some scope.correlationId) } := by
  have hcorrelation := (slot_correlationId c).withDefaultId_represents h (some scope.correlationId)
  exact (slot_causationId
    { c with correlationId := defaulted c.correlationId (some scope.correlationId) }).withDefaultId_represents
      hcorrelation scope.causationId

theorem correlated_defaulted (c : EventContext) (scope : Correlation)
    : EventContext.correlated
        { c with
          causationId := defaulted c.causationId scope.causationId
          correlationId := defaulted c.correlationId (some scope.correlationId) } (some scope)
      = c.correlated (some scope) := by
  unfold EventContext.correlated
  simp only [filled_defaulted]

end Correlation

end Athar.Wire
