import Athar.Event.Formats

/-!
This module contains the formats of records. Each of their fields says how the deserializer of the struct
reads it, what the schema says of the property, and how the two compare.
-/

namespace Athar

open Deserialize

variable {α : Type}

-- A property that is missing conforms if it is not required.
def Schema.property (required : Bool) (schema : Schema) : Option Json → Prop
  | none => required = false
  | some v => schema v = true

structure Field where
  name : String
  reads : Members → Prop
  required : Bool
  schema : Schema
  comparison : Comparison Members
  compares : comparison.Compares reads (fun m => Schema.property required schema (m.get name))

namespace Field

def Missing (name : String) (m : Members) : Prop :=
  m.get name = none

theorem Missing.not_within {name : String} {m : Members} {p : Json → Prop} (h : Missing name m)
    : ¬∃ v ∈ m.get name, p v := by
  rintro ⟨v, hv, _⟩
  rw [h] at hv
  contradiction

variable (name : String) (f : Format α)

theorem property_required {m : Members}
    : Schema.property true f.schema (m.get name) ↔ ∃ v ∈ m.get name, f.schema v = true := by
  cases m.get name <;> simp [Schema.property]

theorem property_optional {m : Members}
    : Schema.property false f.schema (m.get name)
        ↔ Missing name m ∨ ∃ v ∈ m.get name, f.schema v = true := by
  unfold Missing
  cases m.get name <;> simp [Schema.property]

theorem required_iff {m : Members}
    : (∃ a ∈ m.required name f.read, f.good a)
        ↔ ∃ v ∈ m.get name, ∃ a ∈ f.read v, f.good a := by
  unfold Members.required
  cases m.get name <;> simp

theorem default_iff {fallback : α} (hgood : f.good fallback) {m : Members}
    : (∃ a ∈ m.default name fallback f.read, f.good a)
        ↔ Missing name m ∨ ∃ v ∈ m.get name, ∃ a ∈ f.read v, f.good a := by
  unfold Members.default Missing
  cases m.get name <;> simp [hgood]

theorem within_compares
    : (f.comparison.within (·.get name)).Compares
        (fun m : Members => ∃ v ∈ m.get name, ∃ a ∈ f.read v, f.good a)
        (fun m => ∃ v ∈ m.get name, f.schema v = true) :=
  f.compares.within _

def requiredByBoth : Field where
  name
  reads m := ∃ a ∈ m.required name f.read, f.good a
  required := true
  schema := f.schema
  comparison := f.comparison.within (·.get name)
  compares := (within_compares name f).congr (fun _ => required_iff name f)
    (fun _ => property_required name f)

def requiredByCode : Field where
  name
  reads m := ∃ a ∈ m.required name f.read, f.good a
  required := false
  schema := f.schema
  comparison := (f.comparison.within (·.get name)).rightAllows (Missing name)
  compares := by
    apply ((within_compares name f).rightAllows _).congr
    . intro m
      exact required_iff name f
    . intro m
      exact property_optional name f
    . intro m hmissing
      exact hmissing.not_within

-- A field that neither requires.
def default (fallback : α) (hgood : f.good fallback) : Field where
  name
  reads m := ∃ a ∈ m.default name fallback f.read, f.good a
  required := false
  schema := f.schema
  comparison := (f.comparison.within (·.get name)).bothAllow (Missing name)
  compares := ((within_compares name f).bothAllow _).congr (fun _ => default_iff name f hgood)
    (fun _ => property_optional name f)

theorem option_iff {read : Json → Option α} {f : Format (Option α)}
    (hread : f.read = Deserialize.option read) (hgood : f.good none) {m : Members}
    : (∃ o ∈ m.option name read, f.good o)
        ↔ (Missing name m ∧ m.positional = false) ∨ ∃ v ∈ m.get name, ∃ a ∈ f.read v, f.good a := by
  unfold Members.option Missing
  rw [hread]
  cases m.get name with
  | none => cases hpositional : m.positional <;> simp [hgood]
  | some v => simp

-- A field of a type `Option<T>` without a default, which the schema does not require.
def option (read : Json → Option α) (f : Format (Option α))
    (hread : f.read = Deserialize.option read) (hgood : f.good none) : Field where
  name
  reads m := ∃ o ∈ m.option name read, f.good o
  required := false
  schema := f.schema
  comparison := ((f.comparison.within (·.get name)).bothAllow (Missing name)).leftDemands fun m =>
    Missing name m → m.positional = false
  compares := by
    apply (((within_compares name f).bothAllow _).leftDemands _).congr
    . intro m
      rw [option_iff name hread hgood]
      constructor
      . rintro (⟨hmissing, hpositional⟩ | hread)
        . exact ⟨fun _ => hpositional, Or.inl hmissing⟩
        . exact ⟨fun hmissing => absurd hread hmissing.not_within, Or.inr hread⟩
      . rintro ⟨hpositional, hmissing | hread⟩
        . exact Or.inl ⟨hmissing, hpositional hmissing⟩
        . exact Or.inr hread
    . intro m
      exact property_optional name f

-- A field of a type `Option<T>` without a default, which the schema requires.
def requiredBySchema (read : Json → Option α) (f : Format (Option α))
    (hread : f.read = Deserialize.option read) (hgood : f.good none) : Field where
  name
  reads m := ∃ o ∈ m.option name read, f.good o
  required := true
  schema := f.schema
  comparison := (f.comparison.within (·.get name)).leftAllows fun m =>
    Missing name m ∧ m.positional = false
  compares := by
    apply ((within_compares name f).leftAllows _).congr
    . intro m
      exact option_iff name hread hgood
    . intro m
      exact property_required name f
    . intro m hmissing
      exact hmissing.1.not_within

end Field

-- An object whose members are all named.
def Closed (names : List String) (v : Json) : Prop :=
  ∃ ms ∈ v.entries?, ∀ m ∈ ms, m.1 ∈ names

namespace Format

def requiredNames (fields : List Field) : List String :=
  (fields.filter (·.required)).map (·.name)

theorem property_iff {fields : List Field} {get : String → Option Json}
    : (∀ f ∈ fields, Schema.property f.required f.schema (get f.name))
        ↔ (∀ name ∈ requiredNames fields, (get name).isSome = true)
          ∧ ∀ f ∈ fields, (get f.name).all f.schema = true := by
  unfold requiredNames
  simp only [List.forall_mem_map, List.mem_filter, and_imp, ← forall₂_and]
  apply forall₂_congr
  intro f _
  cases get f.name with
  | none => simp [Schema.property]
  | some v => simp [Schema.property]

theorem record_schema_iff {fields : List Field} {v : Json}
    : Schema.record (requiredNames fields) (fields.map fun f => (f.name, f.schema)) v = true
        ↔ Closed (fields.map (·.name)) v
          ∧ ∃ m ∈ members (fields.map (·.name)) v,
            ∀ f ∈ fields, Schema.property f.required f.schema (m.get f.name) := by
  cases v with
  | object ms =>
    have hobject : Schema.type [.object] (.object ms) = true := rfl
    simp only [members, Option.mem_some_iff, exists_eq_left', property_iff]
    simp [Schema.record, Schema.allOf, hobject, Closed, Json.entries?, Schema.required,
      Schema.properties, Schema.additionalProperties]
  | _ => simp [Schema.record, Schema.allOf, Schema.type, JsonType.is, Closed, Json.entries?]

/--
A record, which the schema closes to other members.
-/
def record (fields : List Field) (visit : Members → Option α) (good : α → Prop)
    (hreads : ∀ m, (∃ a ∈ visit m, good a) ↔ ∀ f ∈ fields, f.reads m) : Format α where
  read v := (members (fields.map (·.name)) v).bind visit
  good
  schema := .record (requiredNames fields) (fields.map fun f => (f.name, f.schema))
  comparison := ((Comparison.all fields (·.comparison)).within
    (members (fields.map (·.name)))).rightDemands (Closed (fields.map (·.name)))
  compares := by
    have hfields := Comparison.Compares.all (fun f : Field => f.compares) fields
    apply ((hfields.within (members (fields.map (·.name)))).rightDemands
      (Closed (fields.map (·.name)))).congr
    . intro v
      cases members (fields.map (·.name)) v with
      | none => simp
      | some m => simp [← hreads]
    . intro v
      exact record_schema_iff

end Format

@[simp]
def Field.allRead : List Field → Members → Prop
  | [], _ => True
  | f :: fields, m => f.reads m ∧ allRead fields m

-- One field of a struct is read, and what is left to read has to be good as well.
theorem bind_reads {β : Type} {o : Option α} {rest : α → Option β} {P : α → Prop} {good : β → Prop}
    {Q S : Prop} (h : ∀ a, (∃ b ∈ rest a, good b) ↔ Q ∧ P a ∧ S)
    : (∃ b ∈ o >>= rest, good b) ↔ ((∃ a ∈ o, P a) ∧ Q) ∧ S := by
  cases o with
  | none => simp
  | some a =>
    rw [Option.bind_eq_bind, Option.bind_some, h]
    simp only [Option.mem_some_iff, exists_eq_left']
    exact and_left_comm.trans and_assoc.symm

theorem Field.allRead_iff {fields : List Field} {m : Members}
    : allRead fields m ↔ ∀ f ∈ fields, f.reads m := by
  induction fields with
  | nil => simp
  | cons f fields ih => rw [List.forall_mem_cons, ← ih, allRead]

theorem reads_of_allRead {fields : List Field} {m : Members} {P : Prop}
    (h : P ↔ Field.allRead fields m ∧ True) : P ↔ ∀ f ∈ fields, f.reads m := by
  rw [h, and_true, Field.allRead_iff]

namespace Field

-- A field that may be missing or null, by the code alone or by the schema as well.
def optional (name : String) (f : Format α) (hnull : f.schema .null = false) : Field :=
  .default name (f.option hnull) none (by simp)

def nullable (name : String) : Field :=
  .default name .stringOrNull none (by simp)

end Field

def Field.confidence : Field := .optional "confidence" .confidence rfl

def Field.calibration (buffer : Buffer) : Field :=
  .optional "calibration" (.unitEnum buffer Calibration.variants) rfl

def Clock.fields : List Field := [
  .requiredByBoth "source" (.unitEnum .value ClockSource.variants),
  .option "skew_estimate_ms" Deserialize.i64 .integerOrNull rfl (by simp),
  .requiredByBoth "monotonic_seq" .u64]

theorem Clock.reads_iff (m : Members)
    : (∃ a ∈ Clock.visit m, True) ↔ ∀ f ∈ Clock.fields, f.reads m := by
  apply reads_of_allRead
  iterate 3 refine bind_reads fun _ => ?_
  simp

def Clock.format : Format Clock := .record fields visit (fun _ => True) reads_iff

def EvidenceConflict.fields : List Field := [
  .requiredByBoth "value" .string,
  .requiredByBoth "source" .string,
  .optional "recorded_at" .string rfl]

theorem EvidenceConflict.reads_iff (m : Members)
    : (∃ a ∈ EvidenceConflict.visit m, True) ↔ ∀ f ∈ EvidenceConflict.fields, f.reads m := by
  apply reads_of_allRead
  iterate 3 refine bind_reads fun _ => ?_
  simp

def EvidenceConflict.format : Format EvidenceConflict := .record fields visit (fun _ => True) reads_iff

theorem EvidenceConflict.good (a : EvidenceConflict) : EvidenceConflict.format.good a := trivial

-- The id of an actor is checked, its namespace is not.
def ActorRef.fields (buffer : Buffer) : List Field := [
  .default "id" .nullableId none (by simp [KnownOrAbsent]),
  .optional "type" (.unitEnum buffer EntityType.variants) rfl,
  .default "namespace" .nullableIdToSchema none (by simp),
  .requiredByBoth "resolution" (.unitEnum buffer ResolutionStatus.variants),
  .confidence,
  .calibration buffer,
  .default "conflicts" (EvidenceConflict.format.vec EvidenceConflict.good) [] (by simp)]

theorem ActorRef.reads_iff (buffer : Buffer) (m : Members)
    : (∃ a ∈ ActorRef.visit buffer m, KnownOrAbsent a.id)
        ↔ ∀ f ∈ ActorRef.fields buffer, f.reads m := by
  apply reads_of_allRead
  iterate 7 refine bind_reads fun _ => ?_
  simp

def ActorRef.format : Format ActorRef :=
  .record (fields .value) (visit .value) (KnownOrAbsent ·.id) (reads_iff .value)

-- The actor and its authentication record are read from one object.
def ActorRefWithAuthn.fields : List Field :=
  ActorRef.fields .content ++ [.nullable "auth_ref"]

theorem ActorRefWithAuthn.reads_iff {v : Json}
    : (∃ a ∈ ActorRefWithAuthn.deserialize v, KnownOrAbsent a.actor.id)
        ↔ ∃ m ∈ flatMembers v, ∀ f ∈ ActorRefWithAuthn.fields, f.reads m := by
  unfold ActorRefWithAuthn.deserialize ActorRefWithAuthn.fields
  cases flatMembers v with
  | none => simp
  | some m =>
    rw [Option.bind_eq_bind, Option.bind_some]
    simp only [Option.mem_some_iff, exists_eq_left', List.forall_mem_append, ← ActorRef.reads_iff]
    rw [← Field.allRead_iff, ← and_true (_ ∧ _)]
    iterate 2 refine bind_reads fun _ => ?_
    simp

theorem ActorRefWithAuthn.schema_iff {v : Json}
    : EventSchema.actorRefWithAuthn v = true
        ↔ Closed ActorRef.FIELDS v ∧ ∃ m ∈ flatMembers v, ∀ f ∈ ActorRefWithAuthn.fields,
          Schema.property f.required f.schema (m.get f.name) := by
  have hactor : EventSchema.actorRef = .record (Format.requiredNames (ActorRef.fields .content))
      ((ActorRef.fields .content).map fun f => (f.name, f.schema)) := rfl
  have hnames : (ActorRef.fields .content).map (·.name) = ActorRef.FIELDS := rfl
  unfold EventSchema.actorRefWithAuthn
  rw [Schema.allOf, List.all_cons, Bool.and_eq_true, hactor, Format.record_schema_iff, hnames]
  cases v with
  | object ms =>
    have hobject : Schema.type [.object] (.object ms) = true := rfl
    have hauth : Schema.property false (.type [.string, .null]) (ms.lookup "auth_ref")
        ↔ (ms.lookup "auth_ref").all (Schema.type [.string, .null]) = true := by
      cases ms.lookup "auth_ref" <;> simp [Schema.property]
    simp only [members, flatMembers, Option.mem_some_iff, exists_eq_left', fields,
      List.forall_mem_append, List.forall_mem_singleton]
    rw [and_assoc]
    apply and_congr_right'
    apply and_congr_right'
    apply Iff.trans _ hauth.symm
    simp [Schema.allOf, hobject, Schema.properties]
  | _ => simp [flatMembers, Closed, Json.entries?]

-- The schema closes the actor to other members, its authentication record among them.
def ActorRefWithAuthn.format : Format ActorRefWithAuthn where
  read := deserialize
  good a := KnownOrAbsent a.actor.id
  schema := EventSchema.actorRefWithAuthn
  comparison := ((Comparison.all fields (·.comparison)).within flatMembers).rightDemands
    (Closed ActorRef.FIELDS)
  compares := by
    have hfields := Comparison.Compares.all (fun f : Field => f.compares) fields
    apply ((hfields.within flatMembers).rightDemands (Closed ActorRef.FIELDS)).congr
    . intro v
      exact reads_iff
    . intro v
      exact schema_iff

def CallerRef.fields : List Field := [
  .requiredBySchema "application_id" Deserialize.string .stringOrNull rfl (by simp),
  .nullable "version",
  .nullable "platform"]

theorem CallerRef.reads_iff (m : Members)
    : (∃ a ∈ CallerRef.visit m, True) ↔ ∀ f ∈ CallerRef.fields, f.reads m := by
  apply reads_of_allRead
  iterate 3 refine bind_reads fun _ => ?_
  simp

def CallerRef.format : Format CallerRef := .record fields visit (fun _ => True) reads_iff

def ServiceIdentityRef.fields : List Field := [
  .requiredBySchema "id" Deserialize.string .stringOrNull rfl (by simp),
  .nullable "auth",
  .nullable "spiffe_id"]

theorem ServiceIdentityRef.reads_iff (m : Members)
    : (∃ a ∈ ServiceIdentityRef.visit m, True) ↔ ∀ f ∈ ServiceIdentityRef.fields, f.reads m := by
  apply reads_of_allRead
  iterate 3 refine bind_reads fun _ => ?_
  simp

def ServiceIdentityRef.format : Format ServiceIdentityRef := .record fields visit (fun _ => True) reads_iff

def ResourceRef.fields : List Field := [
  .requiredBySchema "id" Deserialize.string .stringOrNull rfl (by simp),
  .requiredByBoth "type" .string,
  .optional "namespace" .string rfl]

theorem ResourceRef.reads_iff (m : Members)
    : (∃ a ∈ ResourceRef.visit m, True) ↔ ∀ f ∈ ResourceRef.fields, f.reads m := by
  apply reads_of_allRead
  iterate 3 refine bind_reads fun _ => ?_
  simp

def ResourceRef.format : Format ResourceRef := .record fields visit (fun _ => True) reads_iff

def OperationRef.fields : List Field := [
  .nullable "operation_id",
  .requiredByBoth "type" .string,
  .requiredByBoth "inference" (.unitEnum .value OperationInference.variants),
  .requiredByBoth "confidence" .confidence,
  .calibration .value]

theorem OperationRef.reads_iff (m : Members)
    : (∃ a ∈ OperationRef.visit m, True) ↔ ∀ f ∈ OperationRef.fields, f.reads m := by
  apply reads_of_allRead
  iterate 5 refine bind_reads fun _ => ?_
  simp

def OperationRef.format : Format OperationRef := .record fields visit (fun _ => True) reads_iff

def LifecycleRef.fields : List Field := [
  .nullable "lifecycle_id",
  .requiredByCode "binding" (.unitEnum .value LifecycleBinding.variants),
  .confidence,
  .calibration .value]

theorem LifecycleRef.reads_iff (m : Members)
    : (∃ a ∈ LifecycleRef.visit m, True) ↔ ∀ f ∈ LifecycleRef.fields, f.reads m := by
  apply reads_of_allRead
  iterate 4 refine bind_reads fun _ => ?_
  simp

def LifecycleRef.format : Format LifecycleRef := .record fields visit (fun _ => True) reads_iff

def EntryPoint.fields : List Field := [
  .requiredByBoth "type" (.unitEnum .value EntryPointType.variants),
  .nullable "endpoint_id",
  .nullable "method",
  .nullable "route",
  .nullable "route_template"]

theorem EntryPoint.reads_iff (m : Members)
    : (∃ a ∈ EntryPoint.visit m, True) ↔ ∀ f ∈ EntryPoint.fields, f.reads m := by
  apply reads_of_allRead
  iterate 5 refine bind_reads fun _ => ?_
  simp

def EntryPoint.format : Format EntryPoint := .record fields visit (fun _ => True) reads_iff

def TechnicalContext.fields : List Field := [
  .nullable "application_id",
  .nullable "application_version",
  .nullable "platform",
  .nullable "module",
  .nullable "feature",
  .nullable "service_id",
  .nullable "service_version",
  .nullable "repository",
  .nullable "build",
  .nullable "deployment_id",
  .nullable "instance_id",
  .nullable "environment"]

theorem TechnicalContext.reads_iff (m : Members)
    : (∃ a ∈ TechnicalContext.visit m, True) ↔ ∀ f ∈ TechnicalContext.fields, f.reads m := by
  apply reads_of_allRead
  iterate 12 refine bind_reads fun _ => ?_
  simp

def TechnicalContext.format : Format TechnicalContext := .record fields visit (fun _ => True) reads_iff

def Provenance.fields : List Field := [
  .requiredByBoth "origin" (.unitEnum .value Origin.variants),
  .requiredByBoth "trigger" (.unitEnum .value Trigger.variants),
  .requiredByBoth "source" .string,
  .option "producer" Deserialize.string .stringOrNull rfl (by simp),
  .option "authority" Deserialize.string .stringOrNull rfl (by simp)]

theorem Provenance.reads_iff (m : Members)
    : (∃ a ∈ Provenance.visit m, True) ↔ ∀ f ∈ Provenance.fields, f.reads m := by
  apply reads_of_allRead
  iterate 5 refine bind_reads fun _ => ?_
  simp

def Provenance.format : Format Provenance := .record fields visit (fun _ => True) reads_iff

def Truth.fields : List Field := [
  .requiredByBoth "stage" (.unitEnum .value TruthStage.variants),
  .requiredByBoth "asserted_by" .string,
  .nullable "adapter"]

theorem Truth.reads_iff (m : Members)
    : (∃ a ∈ Truth.visit m, True) ↔ ∀ f ∈ Truth.fields, f.reads m := by
  apply reads_of_allRead
  iterate 3 refine bind_reads fun _ => ?_
  simp

def Truth.format : Format Truth := .record fields visit (fun _ => True) reads_iff

-- The confidence of the trust is the one whose range is checked.
def Trust.fields : List Field := [
  .requiredByBoth "level" (.unitEnum .value TrustLevel.variants),
  .requiredByBoth "confidence" .checkedConfidence,
  .calibration .value,
  .default "factors" (Format.string.vec Format.string_good) [] (by simp)]

theorem Trust.reads_iff (m : Members)
    : (∃ a ∈ Trust.visit m, 0 ≤ a.confidence ∧ a.confidence ≤ 1)
        ↔ ∀ f ∈ Trust.fields, f.reads m := by
  apply reads_of_allRead
  iterate 4 refine bind_reads fun _ => ?_
  simp

def Trust.format : Format Trust :=
  .record fields visit (fun a => 0 ≤ a.confidence ∧ a.confidence ≤ 1) reads_iff

def Causality.fields : List Field := [
  .nullable "parent_event_id",
  .nullable "causation_id",
  .nullable "correlation_id",
  .default "customer_correlation_ids" .stringMap ∅ (by simp)]

theorem Causality.reads_iff (m : Members)
    : (∃ a ∈ Causality.visit m, True) ↔ ∀ f ∈ Causality.fields, f.reads m := by
  apply reads_of_allRead
  iterate 4 refine bind_reads fun _ => ?_
  simp

def Causality.format : Format Causality := .record fields visit (fun _ => True) reads_iff

def Coverage.fields : List Field := [
  .requiredByBoth "complete" .bool,
  .default "shed" (Format.string.vec Format.string_good) [] (by simp),
  .default "redacted_fields" (Format.string.vec Format.string_good) [] (by simp),
  .optional "degradation_level" (.unitEnum .value DegradationLevel.variants) rfl]

theorem Coverage.reads_iff (m : Members)
    : (∃ a ∈ Coverage.visit m, True) ↔ ∀ f ∈ Coverage.fields, f.reads m := by
  apply reads_of_allRead
  iterate 4 refine bind_reads fun _ => ?_
  simp

def Coverage.format : Format Coverage := .record fields visit (fun _ => True) reads_iff

end Athar
