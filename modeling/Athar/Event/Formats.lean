import Athar.Event.Impl.Deserialize
import Athar.Event.Impl.Schema
import Athar.Event.Lemmas
import Athar.Lib.Comparison

/-!
This module contains the formats of the values of an event: each as the deserializers read it and the
checks allow it, as the schema describes it, and with a comparison of the two.
-/

namespace Athar

open Deserialize

variable {α β : Type}

namespace Json

def items? : Json → Option (List Json)
  | .array xs => some xs
  | _ => none

def entries? : Json → Option (List (String × Json))
  | .object ms => some ms
  | _ => none

end Json

/--
A value of the format is read, and then passes the checks that are made on what was read.
-/
structure Format (α : Type) where
  read : Json → Option α
  good : α → Prop
  schema : Schema
  comparison : Comparison Json
  compares : comparison.Compares (fun v => ∃ a ∈ read v, good a) (fun v => schema v = true)

namespace Format

def ofString (c : Comparison String) (schema : Schema)
    (hschema : ∀ v, schema v = true ↔ ∃ s ∈ Deserialize.string v, c.right s) : Format String where
  read := Deserialize.string
  good := c.left
  schema
  comparison := .within Deserialize.string c
  compares := (Comparison.Compares.within _ c.compares_self).congr (fun _ => Iff.rfl) hschema

theorem type_string {v : Json}
    : Schema.type [.string] v = true ↔ ∃ s ∈ Deserialize.string v, True := by
  cases v <;> simp [Schema.type, JsonType.is, Deserialize.string]

theorem string_eq_some_iff {v : Json} {s : String}
    : Deserialize.string v = some s ↔ v = .string s := by
  cases v <;> simp [Deserialize.string]

theorem allOf_string {v : Json} {schemas : List Schema}
    : Schema.allOf (.type [.string] :: schemas) v = true
        ↔ ∃ s ∈ Deserialize.string v, Schema.allOf schemas (.string s) = true := by
  cases v <;> simp [Schema.allOf, Schema.type, JsonType.is, Deserialize.string]

def string : Format String :=
  ofString ⟨fun _ => True, fun _ => True, fun _ => True⟩ (.type [.string]) fun v => by
    rw [type_string]
    simp [Comparison.right]

-- A time, of which the schema only says that it is a string.
def instant : Format String :=
  ofString ⟨fun _ => True, Known, fun _ => True⟩ (.type [.string]) fun v => by
    rw [type_string]
    simp [Comparison.right]

def schemaVersion : Format String :=
  ofString ⟨(· = SCHEMA_VERSION), fun _ => True, fun _ => True⟩
    (.allOf [.type [.string], .const "1.0"]) fun v => by
      rw [allOf_string]
      simp [Comparison.right, Schema.allOf, Schema.const, SCHEMA_VERSION]

-- The schema has patterns for the identifiers, the checks ask only that they are known.
def identifier (expression : RegularExpression Char)
    (hknown : ∀ s : String, expression.rmatch s.toList = true → Known s) : Format String :=
  ofString ⟨Known, fun _ => True, (expression.rmatch ·.toList = true)⟩
    (.allOf [.type [.string], .pattern expression]) fun v => by
      rw [allOf_string]
      simp only [Comparison.right, Schema.allOf, Schema.pattern, List.all_cons, List.all_nil,
        Bool.and_true, and_iff_right_of_imp (hknown _)]

theorem knownString_iff {v : Json}
    : Schema.allOf [.type [.string], .minLength 1, .not (.enum RESERVED_UNKNOWN_TOKENS)] v = true
        ↔ ∃ s ∈ Deserialize.string v, Known s := by
  rw [allOf_string]
  simp [Schema.allOf, Schema.minLength, Schema.not, Schema.enum, Known, Nat.one_le_iff_ne_zero]

-- Strings that are known, by the schema and by the checks or by the schema alone.
def known : Format String :=
  ofString ⟨Known, fun _ => True, fun _ => True⟩
    (.allOf [.type [.string], .minLength 1, .not (.enum RESERVED_UNKNOWN_TOKENS)]) fun v => by
      rw [knownString_iff]
      simp [Comparison.right]

def knownToSchema : Format String :=
  ofString ⟨fun _ => True, fun _ => True, Known⟩
    (.allOf [.type [.string], .minLength 1, .not (.enum RESERVED_UNKNOWN_TOKENS)]) fun v => by
      rw [knownString_iff]
      simp [Comparison.right]

-- The ways to write a variant without data that the deserializers know.
def NamesVariant (buffer : Buffer) (names : List String) : Json → Prop
  | .string name => name ∈ names
  | .object [(name, unit)] => name ∈ names ∧ isUnit buffer unit = true
  | _ => False

theorem unitEnum_isSome_iff {buffer : Buffer} {variants : List (String × α)} {v : Json}
    : (Deserialize.unitEnum buffer variants v).isSome = true
        ↔ NamesVariant buffer (variants.map (·.1)) v := by
  cases v with
  | string name => simp [Deserialize.unitEnum, NamesVariant, List.lookup_isSome_iff]
  | object ms =>
    rcases ms with _ | ⟨⟨name, unit⟩, _ | ⟨m, ms⟩⟩
    . simp [Deserialize.unitEnum, NamesVariant]
    . cases hunit : isUnit buffer unit with
      | true => simp [Deserialize.unitEnum, NamesVariant, hunit, List.lookup_isSome_iff]
      | false => simp [Deserialize.unitEnum, NamesVariant, hunit]
    . simp [Deserialize.unitEnum, NamesVariant]
  | _ => simp [Deserialize.unitEnum, NamesVariant]

def unitEnum (buffer : Buffer) (variants : List (String × α)) : Format α where
  read := Deserialize.unitEnum buffer variants
  good _ := True
  schema := .allOf [.type [.string], .enum (variants.map (·.1))]
  comparison := {
    common := NamesVariant buffer (variants.map (·.1))
    leftOnly _ := True
    rightOnly v := ∃ s, v = .string s
  }
  compares := by
    constructor
    . intro v
      simp [Comparison.left, ← unitEnum_isSome_iff, Option.isSome_iff_exists]
    . intro v
      rw [allOf_string]
      cases v <;> simp [Comparison.right, Deserialize.string, Schema.allOf, Schema.enum, NamesVariant]

def ofNumber (c : Comparison ℚ) (read : Json → Option α) (schema : Schema)
    (hread : ∀ v, (∃ a ∈ read v, True) ↔ ∃ n ∈ f64 v, c.left n)
    (hschema : ∀ v, schema v = true ↔ ∃ n ∈ f64 v, c.right n) : Format α where
  read
  good _ := True
  schema
  comparison := .within f64 c
  compares := (Comparison.Compares.within _ c.compares_self).congr hread hschema

theorem confidence_iff {v : Json}
    : EventSchema.confidence v = true ↔ ∃ n ∈ f64 v, 0 ≤ n ∧ n ≤ 1 := by
  cases v <;> simp [EventSchema.confidence, Schema.allOf, Schema.type, JsonType.is, Schema.minimum,
    Schema.maximum, f64]

-- A confidence whose range only the schema demands.
def confidence : Format Confidence :=
  ofNumber ⟨fun _ => True, fun _ => True, fun n => 0 ≤ n ∧ n ≤ 1⟩ f64 EventSchema.confidence
    (fun v => by simp [Comparison.left])
    (fun v => by
      rw [confidence_iff]
      simp [Comparison.right])

-- A confidence whose range the checks demand as well.
def checkedConfidence : Format Confidence where
  read := f64
  good n := 0 ≤ n ∧ n ≤ 1
  schema := EventSchema.confidence
  comparison := .within f64 (.same fun n => 0 ≤ n ∧ n ≤ 1)
  compares := ((Comparison.Compares.same _).within f64).congr (fun _ => Iff.rfl) fun _ => confidence_iff

theorem integer_isSome_iff {low high : Int} {v : Json}
    : (∃ i, integer low high v = some i)
        ↔ ∃ n ∈ f64 v, n.den = 1 ∧ low ≤ n.num ∧ n.num ≤ high := by
  cases v with
  | number n =>
    simp only [integer, f64, Option.mem_some_iff, exists_eq_left']
    split
    . next h => simp [h]
    . next h => simp [h]
  | _ => simp [integer, f64]

def i64 : Format Int :=
  ofNumber ⟨fun n => n.den = 1, fun n => I64_MIN ≤ n.num ∧ n.num ≤ I64_MAX, fun _ => True⟩
    Deserialize.i64 (.type [.integer])
    (fun v => by
      simp only [Deserialize.i64, Option.mem_def, and_true, integer_isSome_iff, Comparison.left])
    (fun v => by cases v <;> simp [Schema.type, JsonType.is, f64, Comparison.right])

def u64 : Format Nat :=
  ofNumber ⟨fun n => n.den = 1 ∧ 0 ≤ n, fun n => n.num ≤ U64_MAX, fun _ => True⟩
    Deserialize.u64 (.allOf [.type [.integer], .minimum 0])
    (fun v => by
      have hread : (∃ a ∈ Deserialize.u64 v, True) ↔ ∃ i, integer 0 U64_MAX v = some i := by
        simp [Deserialize.u64]
      simp only [hread, integer_isSome_iff, Comparison.left, Rat.num_nonneg, and_assoc])
    (fun v => by
      cases v <;> simp [Schema.allOf, Schema.type, JsonType.is, Schema.minimum, f64,
        Comparison.right])

def bool : Format Bool where
  read := Json.asBool
  good _ := True
  schema := .type [.boolean]
  comparison := .same fun v => ∃ b, v = .bool b
  compares := by
    apply (Comparison.Compares.same _).congr
    . intro v
      cases v <;> simp [Json.asBool]
    . intro v
      cases v <;> simp [Schema.type, JsonType.is]

theorem mapM_isSome_iff {read : β → Option α} {xs : List β}
    : (∃ as, xs.mapM read = some as) ↔ ∀ x ∈ xs, ∃ a, read x = some a := by
  induction xs with
  | nil => simp
  | cons x xs ih =>
    rw [List.mapM_cons, List.forall_mem_cons, ← ih]
    cases read x with
    | none => simp
    | some a =>
      cases xs.mapM read with
      | none => simp
      | some as => simp

-- A list, none of whose items is checked.
def vec (f : Format α) (hgood : ∀ a, f.good a) : Format (List α) where
  read := Deserialize.vec f.read
  good _ := True
  schema := .allOf [.type [.array], .items f.schema]
  comparison := .within Json.items? f.comparison.each
  compares := by
    apply ((f.compares.each).within Json.items?).congr
    . intro v
      cases v <;> simp [Deserialize.vec, Json.items?, mapM_isSome_iff, hgood]
    . intro v
      cases v <;> simp [Schema.allOf, Schema.type, JsonType.is, Schema.items, Json.items?]

def stringMap : Format (AList fun _ : String => String) where
  read := Deserialize.stringMap
  good _ := True
  schema := .allOf [.type [.object], .additionalProperties [] (.type [.string])]
  comparison := .within Json.entries? (.same fun ms => ∀ m ∈ ms, ∃ s, m.2 = .string s)
  compares := by
    apply ((Comparison.Compares.same _).within Json.entries?).congr
    . intro v
      cases v with
      | object ms =>
        simp only [Deserialize.stringMap, Option.mem_def, and_true, Option.bind_eq_bind,
          Option.bind_eq_some_iff, Option.pure_def, Option.some.injEq, Json.entries?, exists_eq_left']
        rw [exists_comm]
        simp only [exists_and_left, exists_eq', and_true, mapM_isSome_iff, Option.bind_eq_some_iff,
          Option.some.injEq]
        simp [string_eq_some_iff]
      | _ => simp [Deserialize.stringMap, Json.entries?]
    . intro v
      cases v with
      | object ms =>
        have hobject : Schema.type [.object] (.object ms) = true := rfl
        simp [Schema.allOf, hobject, Schema.additionalProperties, Json.entries?, type_string,
          string_eq_some_iff]
      | _ => simp [Schema.allOf, Schema.type, JsonType.is, Json.entries?]

-- Any value, which the schema wants to be an object.
def payload : Format Json where
  read := some
  good _ := True
  schema := .type [.object]
  comparison := ⟨fun _ => True, fun _ => True, fun v => ∃ ms, v = .object ms⟩
  compares := by
    constructor
    . intro v
      simp [Comparison.left]
    . intro v
      cases v <;> simp [Schema.type, JsonType.is, Comparison.right]

def absentOr (f : Format α) (o : Option α) : Prop :=
  ∀ a ∈ o, f.good a

theorem option_iff (f : Format α) {v : Json}
    : (∃ o ∈ option f.read v, f.absentOr o) ↔ v = .null ∨ ∃ a ∈ f.read v, f.good a := by
  cases v <;> simp [Deserialize.option, absentOr]

-- A value that may be null, by the code alone or by the schema as well.
def option (f : Format α) (hnull : f.schema .null = false) : Format (Option α) where
  read := Deserialize.option f.read
  good := f.absentOr
  schema := f.schema
  comparison := f.comparison.leftAllows (· = .null)
  compares := by
    apply (f.compares.leftAllows (p := (· = .null)) ?_).congr
    . intro v
      exact f.option_iff
    . intro v
      exact Iff.rfl
    . rintro v rfl
      simp [hnull]

def orNull (f : Format α) (schema : Schema)
    (hschema : ∀ v, schema v = true ↔ v = .null ∨ f.schema v = true) : Format (Option α) where
  read := Deserialize.option f.read
  good := f.absentOr
  schema
  comparison := f.comparison.bothAllow (· = .null)
  compares := (f.compares.bothAllow _).congr (fun _ => f.option_iff) hschema

def stringOrNull : Format (Option String) :=
  string.orNull (.type [.string, .null]) fun v => by
    cases v <;> simp [string, ofString, Schema.type, JsonType.is]

def integerOrNull : Format (Option Int) :=
  i64.orNull (.type [.integer, .null]) fun v => by
    cases v <;> simp [i64, ofNumber, Schema.type, JsonType.is]

theorem nullableId_iff {v : Json}
    : EventSchema.nullableId v = true ↔ v = .null ∨ known.schema v = true := by
  have hcount : EventSchema.nullableId v
      = decide (List.countP (· v) [Schema.type [.null], known.schema] = 1) := rfl
  have hnull : known.schema .null = false := rfl
  rw [hcount]
  cases v with
  | null => simp [hnull, Schema.type, JsonType.is]
  | _ => simp [List.countP_cons, Schema.type, JsonType.is]

def nullableId : Format (Option String) :=
  known.orNull EventSchema.nullableId fun _ => nullableId_iff

def nullableIdToSchema : Format (Option String) :=
  knownToSchema.orNull EventSchema.nullableId fun _ => nullableId_iff

section Good

attribute [simp] option absentOr

@[simp]
theorem string_good (s : String) : string.good s := ⟨trivial, trivial⟩

@[simp]
theorem instant_good {s : String} : instant.good s ↔ Known s :=
  and_iff_right trivial

@[simp]
theorem schemaVersion_good {s : String} : schemaVersion.good s ↔ s = SCHEMA_VERSION :=
  and_iff_left trivial

@[simp]
theorem identifier_good {expression : RegularExpression Char}
    {hknown : ∀ s : String, expression.rmatch s.toList = true → Known s} {s : String}
    : (identifier expression hknown).good s ↔ Known s :=
  and_iff_left trivial

@[simp]
theorem unitEnum_good (buffer : Buffer) (variants : List (String × α)) (a : α)
    : (unitEnum buffer variants).good a := trivial

@[simp]
theorem confidence_good (n : Confidence) : confidence.good n := trivial

@[simp]
theorem checkedConfidence_good {n : Confidence} : checkedConfidence.good n ↔ 0 ≤ n ∧ n ≤ 1 :=
  Iff.rfl

@[simp]
theorem u64_good (n : Nat) : u64.good n := trivial

@[simp]
theorem bool_good (b : Bool) : bool.good b := trivial

@[simp]
theorem vec_good (f : Format α) (hgood : ∀ a, f.good a) (as : List α) : (f.vec hgood).good as :=
  trivial

@[simp]
theorem stringMap_good (map : AList fun _ : String => String) : stringMap.good map := trivial

@[simp]
theorem payload_good (v : Json) : payload.good v := trivial

@[simp]
theorem stringOrNull_good (o : Option String) : stringOrNull.good o :=
  fun a _ => string_good a

@[simp]
theorem integerOrNull_good (o : Option Int) : integerOrNull.good o :=
  fun _ _ => trivial

@[simp]
theorem nullableId_good {o : Option String} : nullableId.good o ↔ KnownOrAbsent o :=
  forall₂_congr fun _ _ => and_iff_left trivial

@[simp]
theorem nullableIdToSchema_good (o : Option String) : nullableIdToSchema.good o :=
  fun _ _ => ⟨trivial, trivial⟩

end Good

end Format

end Athar
