import Athar.Shim.Lemmas.Encode

/-!
This module contains what secret names leave the shim. The redaction strips every array that it
reaches, but an object goes into the frame as it is. A frame is free of secret names exactly when no
object that the event reaches without passing a secret name has one inside, among the parts of the
event that the runtime does not overwrite afterwards.
-/

namespace Athar.Shim

open Redact

variable (floatText : ℚ → String)

def NoSecret (frame : Json) : Prop :=
  ∀ name ∈ frame.memberNames, Classify.classifyField name ≠ .c5Secret

inductive Call where
  | observe (event : PhpArray)
  | evaluate (event : PhpArray)

-- The frame that the call buffers or sends.
def Call.frame (runtime : Runtime) : Call → Option Json
  | .observe event => runtime.observe floatText event
  | .evaluate event => runtime.evaluate floatText event

-- Of the values that convert to the text of an array only the first is listed again.
def redactedFieldsExpose : PhpValue → Bool
  | .array entries =>
    ((entries.filter (fun e => keeps e.1)).find?
      (fun e => e.2.text floatText = some "Array")).any (fun e => e.2.exposesSecret)
  | .object members =>
    (members.find? (fun m => m.2.text floatText = some "Array")).any (fun m => m.2.containsSecret)
  | _ => false

-- An event that drops something has its redacted fields listed anew.
def leavesSecret (dropped : Bool) (event : PhpArray) : Bool :=
  if dropped then
    entriesExposeSecret (Runtime.setRedactedFields event .null)
      || (Runtime.redactedFields event).join.any (redactedFieldsExpose floatText)
  else
    entriesExposeSecret event

-- An evaluation overwrites the entry that flags it.
def Call.Leaks : Call → Prop
  | .observe event => leavesSecret floatText (entriesDropSecret event) event = true
  | .evaluate event =>
    leavesSecret floatText (entriesDropSecret event)
      (Entries.without (.string "__evaluate__") event) = true

theorem noSecret_json_iff (value : PhpValue)
    : NoSecret value.json ↔ value.containsSecret = false := by
  unfold NoSecret
  rw [← any_memberNames_json, List.any_eq_false]
  simp [isSecret]

theorem encodeFrame_noSecret {event : PhpArray} {frame : Json}
    (h : EventFactory.encodeFrame event = some frame)
    : NoSecret frame ↔ entriesContainSecret event = false := by
  unfold EventFactory.encodeFrame jsonEncode at h
  split at h
  . cases h
    exact noSecret_json_iff (.array event)
  . cases h

theorem isSecretKey_string_of_not_matches {name : String}
    (h : Classify.matchesAny (Classify.strtolower name) Classify.C5_SUBSTRINGS = false)
    : isSecretKey (.string name) = false := by
  have : isSecret name = false := by
    rw [← Bool.not_eq_true, isSecret_iff, h]
    decide
  exact this

-- The names that the shim itself puts into an event or a frame.
def shimNames : List String :=
  ["coverage", "redacted_fields", "__evaluate__", "causality", "correlation_id", "causation_id",
    "customer_correlation_ids"]

theorem isSecretKey_shimNames {name : String} (h : name ∈ shimNames)
    : isSecretKey (.string name) = false := by
  have hnames : ∀ name ∈ shimNames,
      Classify.matchesAny (Classify.strtolower name) Classify.C5_SUBSTRINGS = false := by
    decide +kernel
  exact isSecretKey_string_of_not_matches (hnames name h)

theorem isSecretKey_coverage : isSecretKey (.string "coverage") = false := by
  apply isSecretKey_shimNames
  simp [shimNames]

theorem isSecretKey_redactedFields : isSecretKey (.string "redacted_fields") = false := by
  apply isSecretKey_shimNames
  simp [shimNames]

theorem isSecretKey_evaluate : isSecretKey (.string "__evaluate__") = false := by
  apply isSecretKey_shimNames
  simp [shimNames]

theorem isSecretKey_causality : isSecretKey (.string "causality") = false := by
  apply isSecretKey_shimNames
  simp [shimNames]

theorem containsSecret_list (values : List PhpValue)
    : (PhpValue.array (list values)).containsSecret = values.any PhpValue.containsSecret := by
  unfold PhpValue.containsSecret list
  rw [entriesContainSecret_eq_any, List.any_map]
  conv => rhs; rw [← List.zipIdx_map_fst 0 values, List.any_map]
  rfl

section Entries

variable {event : PhpArray}

theorem get_stripEntries {name : String} (h : isSecretKey (.string name) = false)
    : PhpArray.get (stripEntries event) name = (event.get name).map strip := by
  apply Entries.lookup_selected
  rw [keeps, h]
  rfl

theorem set_stripEntries {name : String} (h : isSecretKey (.string name) = false) (value : PhpValue)
    : PhpArray.set (stripEntries event) name (strip value)
        = stripEntries (event.set name value) := by
  apply Entries.set_selected
  rw [keeps, h]
  rfl

theorem isset_stripEntries {name : String} (h : isSecretKey (.string name) = false)
    : PhpArray.isset (stripEntries event) name = event.isset name := by
  unfold PhpArray.isset
  rw [get_stripEntries h]
  cases event.get name with
  | none => rfl
  | some value =>
    cases value with
    | array entries =>
      rw [Option.map_some, strip_array]
    | _ => rfl

theorem redactedFields_stripEntries
    : Runtime.redactedFields (stripEntries event)
        = (Runtime.redactedFields event).map (Option.map strip) := by
  unfold Runtime.redactedFields
  rw [get_stripEntries isSecretKey_coverage]
  cases event.get "coverage" with
  | none => rfl
  | some coverage =>
    cases coverage with
    | array entries =>
      rw [Option.map_some, strip_array]
      dsimp only
      rw [isset_stripEntries isSecretKey_redactedFields, get_stripEntries isSecretKey_redactedFields]
      split <;> rfl
    | _ => rfl

theorem setRedactedFields_stripEntries (value : PhpValue)
    : Runtime.setRedactedFields (stripEntries event) (strip value)
        = stripEntries (Runtime.setRedactedFields event value) := by
  unfold Runtime.setRedactedFields
  rw [get_stripEntries isSecretKey_coverage]
  cases event.get "coverage" with
  | none => rfl
  | some coverage =>
    cases coverage with
    | array entries =>
      rw [Option.map_some, strip_array]
      dsimp only
      rw [set_stripEntries isSecretKey_redactedFields, ← strip_array,
        set_stripEntries isSecretKey_coverage]
    | _ => rfl

theorem containsSecret_set {name : String} (h : isSecretKey (.string name) = false) (value : PhpValue)
    : entriesContainSecret (event.set name value)
        = (value.containsSecret || entriesContainSecret (Entries.without (.string name) event)) := by
  rw [entriesContainSecret_eq_any, entriesContainSecret_eq_any]
  unfold PhpArray.set
  rw [Entries.any_set, h, Bool.false_or]

-- Writing the redacted fields adds what is written to what the other entries contain.
theorem containsSecret_setRedactedFields {fields : PhpValue}
    (h : Runtime.redactedFields event = some (some fields)) (value : PhpValue)
    : entriesContainSecret (Runtime.setRedactedFields event value)
        = (entriesContainSecret (Runtime.setRedactedFields event .null) || value.containsSecret) := by
  unfold Runtime.redactedFields at h
  unfold Runtime.setRedactedFields
  split at h
  next coverage hget =>
    rw [hget]
    dsimp only
    rw [containsSecret_set isSecretKey_coverage, containsSecret_set isSecretKey_coverage]
    rw [containsSecret_array, containsSecret_array, containsSecret_set isSecretKey_redactedFields,
      containsSecret_set isSecretKey_redactedFields]
    rw [show PhpValue.null.containsSecret = false from rfl, Bool.false_or, Bool.or_assoc]
    exact Bool.or_comm _ _
  next => cases h
  next => cases h

theorem exposesSecret_set_of_get {name : String} {value : PhpValue}
    (h : (event.get name).any PhpValue.exposesSecret = value.exposesSecret)
    : entriesExposeSecret (event.set name value) = entriesExposeSecret event := by
  rw [entriesExposeSecret_eq_any, entriesExposeSecret_eq_any]
  apply Entries.any_set_eq_any
  rw [← h]
  unfold PhpArray.get
  cases event.lookup (PhpKey.string name) with
  | none => simp
  | some value => rfl

theorem exposesSecret_setRedactedFields_of_unset
    (h : (Runtime.redactedFields event).join = none)
    : entriesExposeSecret (Runtime.setRedactedFields event .null) = entriesExposeSecret event := by
  unfold Runtime.setRedactedFields
  unfold Runtime.redactedFields at h
  split
  next coverage hget =>
    rw [hget] at h
    apply exposesSecret_set_of_get
    rw [hget, Option.any_some, exposesSecret_array, exposesSecret_array]
    symm
    apply exposesSecret_set_of_get
    have hunset : PhpArray.isset coverage "redacted_fields" = false := by
      by_contra hisset
      rw [Bool.not_eq_false] at hisset
      have hnone : PhpArray.get coverage "redacted_fields" = none := by
        simpa [hisset] using h
      unfold PhpArray.isset at hisset
      rw [hnone] at hisset
      cases hisset
    unfold PhpArray.isset at hunset
    split at hunset
    next hnone => rw [hnone]; rfl
    next hnull => rw [hnull]; rfl
    next => cases hunset
  next => rfl

end Entries

section Merge

variable {floatText}

theorem text_of_containsSecret {value : PhpValue} (h : value.containsSecret = true)
    (htext : (value.text floatText).isSome = true) : value.text floatText = some "Array" := by
  cases value with
  | array entries => rfl
  | object members => cases htext
  | _ => cases h

theorem firstByText_any {values : List PhpValue} (seen : List (Option String))
    (h : ∀ value ∈ values, (value.text floatText).isSome = true)
    : (firstByText floatText seen values).any PhpValue.containsSecret
        = (!decide (some "Array" ∈ seen)
            && (values.find? (fun v => v.text floatText = some "Array")).any
                PhpValue.containsSecret) := by
  induction values generalizing seen with
  | nil => simp [firstByText]
  | cons value values ih =>
    have hvalue := h value (by simp)
    have ih := fun seen => ih seen (fun v hv => h v (by simp [hv]))
    unfold firstByText
    by_cases harray : value.text floatText = some "Array"
    . rw [List.find?_cons_of_pos (by simpa using harray)]
      by_cases hseen : value.text floatText ∈ seen
      . rw [if_pos hseen, ih, ← harray]
        simp [hseen]
      . rw [if_neg hseen, List.any_cons, ih]
        rw [harray] at hseen ⊢
        simp [hseen]
    . rw [List.find?_cons_of_neg (by simpa using harray)]
      have hplain : value.containsSecret = false := by
        rw [← Bool.not_eq_true]
        exact fun hsecret => harray (text_of_containsSecret hsecret hvalue)
      split
      . rw [ih]
      . rw [List.any_cons, ih, hplain, Bool.false_or]
        simp [Ne.symm harray]

-- Of the values that are merged with the dropped paths, the first that converts to the text of an
-- array is the only one that can have a secret name inside.
theorem arrayUnique_any {values : List PhpValue} {paths : List String} {merged : List PhpValue}
    (hpaths : paths ≠ [])
    (h : arrayUnique floatText (values ++ paths.map .string) = some merged)
    : merged.any PhpValue.containsSecret
        = (values.find? (fun v => v.text floatText = some "Array")).any PhpValue.containsSecret := by
  have hstrings : ∀ p : PhpValue → Bool, ((paths.map PhpValue.string).find? p).any
      PhpValue.containsSecret = false := by
    intro p
    cases hfind : (paths.map PhpValue.string).find? p with
    | none => rfl
    | some found =>
      have := List.mem_of_find?_eq_some hfind
      rw [List.mem_map] at this
      rcases this with ⟨path, _, rfl⟩
      rfl
  unfold arrayUnique at h
  split at h
  next hlength =>
    have hnil : values = [] := by
      have := List.length_pos_iff.mpr hpaths
      rw [List.length_append, List.length_map] at hlength
      exact List.length_eq_zero_iff.mp (by omega)
    subst hnil
    cases h
    rw [List.nil_append, List.any_map]
    simp [Function.comp_def, PhpValue.containsSecret]
  next =>
    split at h
    next hall =>
      rw [List.all_eq_true] at hall
      cases h
      rw [firstByText_any [] hall, List.find?_append]
      cases values.find? (fun v => v.text floatText = some "Array") with
      | none =>
        rw [Option.none_or, hstrings]
        rfl
      | some found => simp
    next => cases h

theorem find_toArrayValues_strip (fields : PhpValue)
    : (((strip fields).toArrayValues.find? (fun v => v.text floatText = some "Array")).any
        PhpValue.containsSecret)
        = redactedFieldsExpose floatText fields := by
  unfold redactedFieldsExpose
  cases fields with
  | array entries =>
    rw [strip_array]
    dsimp only [PhpValue.toArrayValues]
    unfold stripEntries Entries.selected
    rw [List.map_map, List.find?_map, Option.any_map]
    simp only [Function.comp_def, text_strip, containsSecret_strip]
  | object members =>
    dsimp only [strip, walkValue, PhpValue.toArrayValues]
    rw [List.find?_map, Option.any_map]
    rfl
  | null => rfl
  | _ =>
    dsimp only [strip, walkValue, PhpValue.toArrayValues]
    rw [List.find?_singleton]
    split <;> rfl

end Merge

-- What the redaction makes of an event.
def Redacted (dropped : Bool) (event safe : PhpArray) : Prop :=
  if dropped then
    match Runtime.redactedFields event with
    | none => False
    | some none => safe = stripEntries event
    | some (some fields) =>
      ∃ merged, merged.any PhpValue.containsSecret = redactedFieldsExpose floatText fields
        ∧ safe = Runtime.setRedactedFields (stripEntries event) (.array (list merged))
  else
    safe = stripEntries event

variable {floatText} {dropped : Bool} {event safe : PhpArray}

theorem redacted_of_redact (h : Runtime.redact floatText event = some safe)
    : Redacted floatText (entriesDropSecret event) event safe := by
  unfold Runtime.redact at h
  dsimp only at h
  unfold Redacted
  split at h
  next hnil =>
    rw [(stripSecrets_snd_eq_nil_iff event).mp hnil]
    cases h
    exact stripSecrets_fst event
  next hpaths =>
    have hdropped : entriesDropSecret event = true := by
      rw [← Bool.not_eq_false]
      exact fun hfalse => hpaths ((stripSecrets_snd_eq_nil_iff event).mpr hfalse)
    rw [stripSecrets_fst, redactedFields_stripEntries] at h
    rw [hdropped, if_pos rfl]
    cases hfields : Runtime.redactedFields event with
    | none =>
      rw [hfields] at h
      cases h
    | some fields =>
      rw [hfields] at h
      cases fields with
      | none =>
        cases h
        rfl
      | some fields =>
        simp only [Option.map_some, Option.bind_eq_bind, Option.bind_some,
          Option.bind_eq_some_iff] at h
        rcases h with ⟨merged, hmerged, hsafe⟩
        cases hsafe
        refine ⟨merged, ?_, rfl⟩
        rw [arrayUnique_any hpaths hmerged, find_toArrayValues_strip]

theorem Redacted.containsSecret (h : Redacted floatText dropped event safe)
    : entriesContainSecret safe = leavesSecret floatText dropped event := by
  unfold leavesSecret
  unfold Redacted at h
  cases dropped with
  | false =>
    rw [if_neg (by decide)] at h ⊢
    rw [h, entriesContainSecret_stripEntries]
  | true =>
    rw [if_pos rfl] at h ⊢
    cases hfields : Runtime.redactedFields event with
    | none =>
      rw [hfields] at h
      cases h
    | some fields =>
      rw [hfields] at h
      cases fields with
      | none =>
        rw [exposesSecret_setRedactedFields_of_unset (by rw [hfields]; rfl)]
        dsimp only at h
        rw [h, entriesContainSecret_stripEntries]
        exact (Bool.or_false _).symm
      | some fields =>
        rcases h with ⟨merged, hmerged, rfl⟩
        have hset : Runtime.redactedFields (stripEntries event) = some (some (strip fields)) := by
          rw [redactedFields_stripEntries, hfields]
          rfl
        rw [containsSecret_setRedactedFields hset, containsSecret_list, hmerged]
        have hnull : Runtime.setRedactedFields (stripEntries event) .null
            = stripEntries (Runtime.setRedactedFields event .null) :=
          setRedactedFields_stripEntries .null
        rw [hnull, entriesContainSecret_stripEntries]
        rfl

section Evaluate

variable {name : String}

theorem get_without (h : name ≠ "coverage") (event : PhpArray)
    : PhpArray.get (Entries.without (.string name) event) "coverage" = event.get "coverage" := by
  apply Entries.lookup_without_of_ne
  simpa using h

theorem redactedFields_without (h : name ≠ "coverage") (event : PhpArray)
    : Runtime.redactedFields (Entries.without (.string name) event)
        = Runtime.redactedFields event := by
  unfold Runtime.redactedFields
  rw [get_without h]

theorem without_setRedactedFields (h : name ≠ "coverage") (value : PhpValue) (event : PhpArray)
    : Entries.without (.string name) (Runtime.setRedactedFields event value)
        = Runtime.setRedactedFields (Entries.without (.string name) event) value := by
  unfold Runtime.setRedactedFields
  rw [get_without h]
  split
  . apply Entries.without_set_of_ne
    simpa using Ne.symm h
  . rfl

theorem without_stripEntries (h : isSecretKey (.string name) = false) (event : PhpArray)
    : Entries.without (.string name) (stripEntries event)
        = stripEntries (Entries.without (.string name) event) := by
  apply Entries.without_selected
  rw [keeps, h]
  rfl

theorem Redacted.without (h : Redacted floatText dropped event safe) (name : String)
    (hname : name ≠ "coverage")
    (hsecret : isSecretKey (.string name) = false)
    : Redacted floatText dropped (Entries.without (.string name) event)
        (Entries.without (.string name) safe) := by
  unfold Redacted at h ⊢
  cases dropped with
  | false =>
    rw [if_neg (by decide)] at h ⊢
    rw [h, without_stripEntries hsecret]
  | true =>
    rw [if_pos rfl] at h ⊢
    rw [redactedFields_without hname]
    split at h
    next => cases h
    next => rw [h, without_stripEntries hsecret]
    next =>
      rcases h with ⟨merged, hmerged, rfl⟩
      refine ⟨merged, hmerged, ?_⟩
      rw [without_setRedactedFields hname, without_stripEntries hsecret]

end Evaluate

section Inject

-- The two values look the same to the redaction.
def Alike (a b : PhpValue) : Prop :=
  a.exposesSecret = b.exposesSecret ∧ a.dropsSecret = b.dropsSecret

theorem plain_of_isEmpty {value : PhpValue} (h : value.isEmpty = true)
    : value.exposesSecret = false ∧ value.dropsSecret = false := by
  cases value with
  | array entries =>
    have : entries = [] := by
      simpa [PhpValue.isEmpty] using h
    subst this
    exact ⟨rfl, rfl⟩
  | object members => cases h
  | _ => exact ⟨rfl, rfl⟩

theorem dropsSecret_set_of_get {name : String} (hname : isSecretKey (.string name) = false)
    {value : PhpValue} (h : (event.get name).any PhpValue.dropsSecret = value.dropsSecret)
    : entriesDropSecret (event.set name value) = entriesDropSecret event := by
  rw [entriesDropSecret_eq_any, entriesDropSecret_eq_any]
  apply Entries.any_set_eq_any
  rw [hname, Bool.false_or, ← h]
  simp only [hname, Bool.false_or]
  rfl

theorem alike_of_fillIn {name : String} {id : Option String} {causality filled : PhpValue}
    (hname : isSecretKey (.string name) = false)
    (h : Runtime.fillIn name id causality = some filled) : Alike filled causality := by
  unfold Runtime.fillIn at h
  rw [Option.bind_eq_bind, Option.bind_eq_some_iff] at h
  rcases h with ⟨isEmpty, hempty, h⟩
  split at h
  next id =>
    split at h
    next hfill =>
      rw [Bool.and_eq_true] at hfill
      cases causality with
      | array entries =>
        cases h
        unfold Runtime.emptyIn at hempty
        rw [Option.some_inj, hfill.1] at hempty
        have hplain : ∀ p : PhpValue → Bool, p .null = false →
            (∀ v : PhpValue, v.isEmpty = true → p v = false) →
            (PhpArray.get entries name).any p = false := by
          intro p _ hp
          unfold PhpArray.getOr at hempty
          cases hget : PhpArray.get entries name with
          | none => rfl
          | some value =>
            rw [hget] at hempty
            apply hp
            cases value <;> first | rfl | exact hempty
        unfold Alike
        rw [exposesSecret_array, exposesSecret_array, dropsSecret_array, dropsSecret_array]
        constructor
        . apply exposesSecret_set_of_get
          exact hplain _ rfl (fun v hv => (plain_of_isEmpty hv).1)
        . apply dropsSecret_set_of_get hname
          exact hplain _ rfl (fun v hv => (plain_of_isEmpty hv).2)
      | null =>
        cases h
        unfold Alike assoc
        simp [entriesExposeSecret, entriesDropSecret, PhpValue.exposesSecret,
          PhpValue.dropsSecret, hname]
      | bool b =>
        cases b with
        | true => cases h
        | false =>
          cases h
          unfold Alike assoc
          simp [entriesExposeSecret, entriesDropSecret, PhpValue.exposesSecret,
            PhpValue.dropsSecret, hname]
      | _ => cases h
    next =>
      cases h
      exact ⟨rfl, rfl⟩
  next =>
    cases h
    exact ⟨rfl, rfl⟩

theorem leavesSecret_set {name : String} (hname : name ≠ "coverage") {value : PhpValue}
    (h : (event.get name).any PhpValue.exposesSecret = value.exposesSecret)
    : leavesSecret floatText dropped (event.set name value) = leavesSecret floatText dropped event := by
  have hkey : PhpKey.string name ≠ PhpKey.string "coverage" := by
    simpa using hname
  have hget : PhpArray.get (event.set name value) "coverage" = event.get "coverage" :=
    Entries.lookup_set_of_ne hkey value event
  have hfields : Runtime.redactedFields (event.set name value) = Runtime.redactedFields event := by
    unfold Runtime.redactedFields
    rw [hget]
  have hset : entriesExposeSecret (Runtime.setRedactedFields (event.set name value) .null)
      = entriesExposeSecret (Runtime.setRedactedFields event .null) := by
    unfold Runtime.setRedactedFields
    rw [hget]
    split
    next coverage _ =>
      have hrest : entriesExposeSecret (Entries.without (.string "coverage") (event.set name value))
          = entriesExposeSecret (Entries.without (.string "coverage") event) := by
        unfold PhpArray.set
        rw [Entries.without_set_of_ne hkey]
        apply exposesSecret_set_of_get
        unfold PhpArray.get at h ⊢
        rw [Entries.lookup_without_of_ne hkey.symm]
        exact h
      rw [entriesExposeSecret_eq_any, entriesExposeSecret_eq_any] at hrest ⊢
      unfold PhpArray.set at hrest ⊢
      rw [Entries.any_set, Entries.any_set, hrest]
    next => exact exposesSecret_set_of_get h
  unfold leavesSecret
  rw [hfields, hset, exposesSecret_set_of_get h]

theorem isSecretKey_correlationId : isSecretKey (.string "correlation_id") = false := by
  apply isSecretKey_shimNames
  simp [shimNames]

theorem isSecretKey_causationId : isSecretKey (.string "causation_id") = false := by
  apply isSecretKey_shimNames
  simp [shimNames]

theorem get_any_of_getOr {p : PhpValue → Bool} (hnull : p .null = false)
    (hnil : p (.array []) = false) (name : String)
    : (event.get name).any p = p (event.getOr name (.array [])) := by
  unfold PhpArray.getOr PhpValue.coalesce
  split
  next hnone => rw [hnone, hnil]; rfl
  next hsome => rw [hsome, hnil]; exact hnull
  next hsome => rw [hsome]; rfl

-- The injected ids change neither what is dropped nor what is exposed.
theorem leavesSecret_of_injectCorrelation {top : Option Correlation} {injected : PhpArray}
    (h : Runtime.injectCorrelation top event = some injected)
    : leavesSecret floatText (entriesDropSecret injected) injected
        = leavesSecret floatText (entriesDropSecret event) event := by
  unfold Runtime.injectCorrelation at h
  split at h
  next =>
    cases h
    rfl
  next top =>
    simp only [Option.bind_eq_bind, Option.bind_eq_some_iff] at h
    rcases h with ⟨filled, hfilled, filled', hfilled', hinjected⟩
    cases hinjected
    have hfirst := alike_of_fillIn isSecretKey_correlationId hfilled
    have hsecond := alike_of_fillIn isSecretKey_causationId hfilled'
    have hexposes : (event.get "causality").any PhpValue.exposesSecret = filled'.exposesSecret := by
      rw [hsecond.1, hfirst.1]
      exact get_any_of_getOr rfl rfl "causality"
    have hdrops : (event.get "causality").any PhpValue.dropsSecret = filled'.dropsSecret := by
      rw [hsecond.2, hfirst.2]
      exact get_any_of_getOr rfl rfl "causality"
    rw [leavesSecret_set (by decide) hexposes, dropsSecret_set_of_get isSecretKey_causality hdrops]

end Inject

/--
A frame that the shim buffers or sends has no secret member name if and only if the event shows no
secret name inside an object that is reached without passing one.
-/
theorem noSecretLeaves_iff_not_leaks (floatText : ℚ → String) (runtime : Runtime) (call : Call)
    (frame : Json) (h : call.frame floatText runtime = some frame)
    : NoSecret frame ↔ ¬call.Leaks floatText := by
  cases call with
  | observe event =>
    unfold Call.frame Runtime.observe at h
    dsimp only at h
    split at h
    next =>
      simp only [Option.bind_eq_bind, Option.bind_eq_some_iff] at h
      rcases h with ⟨injected, hinjected, safe, hsafe, hframe⟩
      unfold Call.Leaks
      rw [encodeFrame_noSecret hframe, (redacted_of_redact hsafe).containsSecret,
        leavesSecret_of_injectCorrelation hinjected, Bool.not_eq_true]
    next => cases h
  | evaluate event =>
    unfold Call.frame Runtime.evaluate at h
    dsimp only at h
    split at h
    next =>
      simp only [Option.bind_eq_bind, Option.bind_eq_some_iff] at h
      rcases h with ⟨safe, hsafe, hframe⟩
      have hredacted := (redacted_of_redact hsafe).without "__evaluate__" (by decide)
        isSecretKey_evaluate
      unfold Call.Leaks
      rw [encodeFrame_noSecret hframe, containsSecret_set isSecretKey_evaluate,
        hredacted.containsSecret, Bool.not_eq_true]
      exact Iff.rfl
    next => cases h

section Factory

theorem exposesSecret_of_mem {name : String} {value : PhpValue}
    (hmem : (PhpKey.string name, value) ∈ event) (hname : isSecretKey (.string name) = false)
    (hvalue : value.exposesSecret = true) : entriesExposeSecret event = true := by
  rw [entriesExposeSecret_eq_any, List.any_eq_true]
  refine ⟨_, hmem, ?_⟩
  dsimp only
  rw [hname, hvalue]
  rfl

theorem leavesSecret_of_mem {name : String} {value : PhpValue}
    (hmem : (PhpKey.string name, value) ∈ event) (hcoverage : name ≠ "coverage")
    (hname : isSecretKey (.string name) = false) (hvalue : value.exposesSecret = true)
    : leavesSecret floatText dropped event = true := by
  have hset : entriesExposeSecret (Runtime.setRedactedFields event .null) = true := by
    unfold Runtime.setRedactedFields
    split
    . have hkey : PhpKey.string name ≠ PhpKey.string "coverage" := by
        simpa using hcoverage
      have := exposesSecret_of_mem (Entries.mem_without_of_ne hmem hkey) hname hvalue
      rw [entriesExposeSecret_eq_any] at this ⊢
      unfold PhpArray.set
      rw [Entries.any_set, this, Bool.or_true]
    . exact exposesSecret_of_mem hmem hname hvalue
  unfold leavesSecret
  rw [hset, exposesSecret_of_mem hmem hname hvalue]
  exact ite_self _

theorem isSecretKey_customerCorrelationIds
    : isSecretKey (.string "customer_correlation_ids") = false := by
  apply isSecretKey_shimNames
  simp [shimNames]

theorem toObject_exposesSecret {ids : PhpArray}
    (h : ∃ e ∈ ids, isMangled e.1.text = false ∧ isSecret e.1.text = true)
    : (PhpValue.array ids).toObject.exposesSecret = true := by
  rcases h with ⟨e, hmem, hvisible, hsecret⟩
  unfold PhpValue.toObject PhpValue.exposesSecret
  rw [membersContainSecret_eq_any, List.any_map, List.any_eq_true]
  refine ⟨e, hmem, ?_⟩
  simp [hvisible, hsecret]

/--
The factory turns the customer correlation ids into an object, so a secret name among them always
leaves the shim.
-/
theorem businessEvent_leaks {context ids : PhpArray}
    (hids : context.get "customer_correlation_ids" = some (.array ids))
    (hsecret : ∃ e ∈ ids, isMangled e.1.text = false ∧ isSecret e.1.text = true)
    (factory : EventFactory) (stamp : Stamp) (eventType resourceId resourceType : String)
    (data : PhpArray)
    : (Call.observe (factory.businessEvent stamp eventType resourceId resourceType data
        context)).Leaks floatText := by
  have hget : context.getOr "customer_correlation_ids" (.array []) = .array ids := by
    unfold PhpArray.getOr
    rw [hids]
    rfl
  unfold Call.Leaks
  have hcausality : (PhpKey.string "causality", PhpValue.array (assoc [
      ("parent_event_id", context.getOr "parent_event_id" .null),
      ("causation_id", context.getOr "causation_id" .null),
      ("correlation_id", context.getOr "correlation_id" .null),
      ("customer_correlation_ids", (PhpValue.array ids).toObject)]))
      ∈ factory.businessEvent stamp eventType resourceId resourceType data context := by
    unfold EventFactory.businessEvent
    rw [hget]
    simp [assoc]
  apply leavesSecret_of_mem hcausality (by decide) isSecretKey_causality
  rw [exposesSecret_array]
  have hmem : (PhpKey.string "customer_correlation_ids", (PhpValue.array ids).toObject)
      ∈ assoc [
        ("parent_event_id", context.getOr "parent_event_id" .null),
        ("causation_id", context.getOr "causation_id" .null),
        ("correlation_id", context.getOr "correlation_id" .null),
        ("customer_correlation_ids", (PhpValue.array ids).toObject)] := by
    simp [assoc]
  exact exposesSecret_of_mem hmem isSecretKey_customerCorrelationIds
    (toObject_exposesSecret hsecret)

end Factory

section Instances

def laravelRuntime : Runtime where
  enabled := true
  factory := ⟨"tnt_a", "php-shim@0.1.0"⟩
  correlationStack := [⟨"req_1", none⟩]

-- The event carries a card number in an array, which is dropped.
def cardEvent : PhpArray :=
  assoc [("data", .array (assoc [("amount", .int 500), ("card", .string "4111")]))]

theorem noSecretLeaves_iff_not_leaks_card
    : ∃ frame, (Call.observe cardEvent).frame toString laravelRuntime = some frame
        ∧ NoSecret frame := by
  have hsome : ((Call.observe cardEvent).frame toString laravelRuntime).isSome = true := by
    decide +kernel
  rcases Option.isSome_iff_exists.mp hsome with ⟨frame, hframe⟩
  refine ⟨frame, hframe, ?_⟩
  rw [noSecretLeaves_iff_not_leaks toString laravelRuntime (.observe cardEvent) frame hframe]
  unfold Call.Leaks
  decide +kernel

-- The customer correlation ids as the factory builds them from an array.
def sessionEvent : PhpArray :=
  assoc [("causality", .array (assoc [
    ("customer_correlation_ids",
      (PhpValue.array (assoc [("session_id", .string "sess_1")])).toObject)]))]

theorem session_leaves
    : ¬∀ (floatText : ℚ → String) (runtime : Runtime) (call : Call) (frame : Json),
        call.frame floatText runtime = some frame → NoSecret frame := by
  intro hclaim
  have hframe : ((Call.observe sessionEvent).frame toString laravelRuntime).map
      (fun frame => decide ("session_id" ∈ frame.memberNames)) = some true := by
    decide +kernel
  rw [Option.map_eq_some_iff] at hframe
  rcases hframe with ⟨frame, hframe, hmem⟩
  have hsecret : Classify.classifyField "session_id" = .c5Secret := by
    decide +kernel
  exact hclaim _ _ _ frame hframe "session_id" (of_decide_eq_true hmem) hsecret

end Instances

end Athar.Shim
