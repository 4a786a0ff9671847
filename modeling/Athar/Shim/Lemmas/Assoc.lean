import Athar.Shim.Stripping

/-!
This module contains what the shim does with arrays that it writes as literals: how their entries are read
and assigned, how they are encoded, and what the redaction pass leaves of them.
-/

namespace Athar.Shim

open Redact

section Values

variable {context : PhpArray} {name : String}

theorem getOr_eq (default : PhpValue)
    : context.getOr name default
        = match context.getOr name .null with
          | .null => default
          | value => value := by
  unfold PhpArray.getOr
  rcases context.get name with _ | value
  . rfl
  . cases value <;> rfl

theorem getOr_string {o : Option String} (h : context.getOr name .null = ofOption o) (default : String)
    : context.getOr name (.string default) = .string (o.getD default) := by
  rw [getOr_eq, h]
  cases o <;> rfl

theorem getOr_float {o : Option ℚ}
    (h : context.getOr name .null = match o with | none => .null | some q => .float q) (default : ℚ)
    : context.getOr name (.float default) = .float (o.getD default) := by
  rw [getOr_eq, h]
  cases o <;> rfl

theorem isset_eq {o : Option String} (h : context.getOr name .null = ofOption o)
    : context.isset name = o.isSome := by
  unfold PhpArray.getOr at h
  unfold PhpArray.isset
  cases hget : context.get name with
  | none =>
    rw [hget] at h
    cases o with
    | none => rfl
    | some s => simp [PhpValue.coalesce, ofOption] at h
  | some value =>
    rw [hget] at h
    cases o with
    | none => cases value <;> simp_all [PhpValue.coalesce, ofOption]
    | some s => cases value <;> simp_all [PhpValue.coalesce, ofOption]

theorem get_eq_string_iff {o : Option String} (h : context.getOr name .null = ofOption o) {s : String}
    : context.get name = some (.string s) ↔ o = some s := by
  unfold PhpArray.getOr at h
  cases hget : context.get name with
  | none =>
    rw [hget] at h
    cases o with
    | none => simp
    | some s => simp [PhpValue.coalesce, ofOption] at h
  | some value =>
    rw [hget] at h
    cases o with
    | none => cases value <;> simp_all [PhpValue.coalesce, ofOption]
    | some s => cases value <;> simp_all [PhpValue.coalesce, ofOption]

theorem getOr_set_self (context : PhpArray) (name : String) (value : PhpValue)
    : (context.set name value).getOr name .null = value := by
  unfold PhpArray.getOr PhpArray.get PhpArray.set
  rw [Entries.lookup_set_self]
  cases value <;> rfl

theorem getOr_set_of_ne {name other : String} (h : name ≠ other) (context : PhpArray) (value default : PhpValue)
    : (context.set name value).getOr other default = context.getOr other default := by
  unfold PhpArray.getOr PhpArray.get PhpArray.set
  rw [Entries.lookup_set_of_ne (by simpa using h)]

end Values

section Literals

theorem get_assoc (es : List (String × PhpValue)) (name : String)
    : PhpArray.get (assoc es) name = es.lookup name := by
  unfold PhpArray.get
  induction es with
  | nil => rfl
  | cons e es ih =>
    have hbeq : (PhpKey.string name == PhpKey.string e.1) = (name == e.1) := by
      rw [Bool.eq_iff_iff]
      simp
    rw [assoc, List.map_cons, List.lookup_cons, List.lookup_cons, hbeq, ← ih]
    rfl

theorem set_assoc (es : List (String × PhpValue)) (name : String) (value : PhpValue)
    : PhpArray.set (assoc es) name value = assoc (Entries.set name value es) := by
  unfold PhpArray.set
  induction es with
  | nil => rfl
  | cons e es ih =>
    unfold assoc at ih ⊢
    rw [List.map_cons, Entries.set, Entries.set, ih]
    by_cases h : e.1 = name <;> simp [h]

theorem assoc_append (es es' : List (String × PhpValue)) : assoc (es ++ es') = assoc es ++ assoc es' :=
  List.map_append

-- The members that an array with string keys is encoded to.
def jsonOf (es : List (String × PhpValue)) : List (String × Json) :=
  es.map fun e => (e.1, e.2.json)

theorem lookup_json (es : List (String × PhpValue)) (name : String)
    : (es.map fun e => (e.1, e.2.json)).lookup name = (es.lookup name).map PhpValue.json := by
  induction es with
  | nil => rfl
  | cons e es ih =>
    rw [List.map_cons, List.lookup_cons, List.lookup_cons, ih]
    split <;> rfl

theorem jsonEntries_assoc (es : List (String × PhpValue))
    : jsonEntries (assoc es) = es.map fun e => (e.1, e.2.json) := by
  induction es with
  | nil => rfl
  | cons e es ih =>
    unfold assoc at ih ⊢
    rw [List.map_cons, jsonEntries, ih]
    rfl

theorem json_assoc (e : String × PhpValue) (es : List (String × PhpValue))
    : (PhpValue.array (assoc (e :: es))).json = .object ((e :: es).map fun e => (e.1, e.2.json)) := by
  have hlist : arrayIsList (assoc (e :: es)) = false := by
    simp [arrayIsList, assoc, list]
  rw [PhpValue.json, hlist, if_neg (by decide), jsonEntries_assoc]

theorem map_snd_list (values : List PhpValue) : (list values).map Prod.snd = values := by
  simp [list, Function.comp_def]

theorem json_list (values : List PhpValue)
    : (PhpValue.array (list values)).json = .array (values.map PhpValue.json) := by
  have hlist : arrayIsList (list values) = true := by
    simp [arrayIsList, map_snd_list]
  have hitems : ∀ entries, jsonItems entries = (entries.map Prod.snd).map PhpValue.json := by
    intro entries
    induction entries with
    | nil => rfl
    | cons e entries ih => rw [jsonItems, ih]; rfl
  rw [PhpValue.json, hlist, if_pos rfl, hitems, map_snd_list]

@[simp]
theorem json_string (s : String) : (PhpValue.string s).json = .string s := rfl

@[simp]
theorem json_null : PhpValue.null.json = .null := rfl

@[simp]
theorem json_bool (b : Bool) : (PhpValue.bool b).json = .bool b := rfl

@[simp]
theorem json_float (q : ℚ) : (PhpValue.float q).json = .number q := rfl

theorem jsonMembers_strings (ids : List (String × String))
    : jsonMembers (ids.map fun e => (e.1, .string e.2))
        = (ids.filter fun e => !isMangled e.1).map fun e => (e.1, .string e.2) := by
  induction ids with
  | nil => rfl
  | cons e ids ih =>
    rw [List.map_cons, jsonMembers, ih]
    cases h : isMangled e.1 <;> simp [h]

end Literals

section Depth

theorem jsonMembersDepth_le_iff {ms : List (String × Json)} {n : Nat}
    : jsonMembersDepth ms ≤ n ↔ ∀ m ∈ ms, jsonDepth m.2 ≤ n := by
  induction ms with
  | nil => simp [jsonMembersDepth]
  | cons m ms ih => rw [jsonMembersDepth, Nat.max_le, ih, List.forall_mem_cons]

theorem jsonItemsDepth_strings (texts : List String) : jsonItemsDepth (texts.map .string) = 0 := by
  induction texts with
  | nil => rfl
  | cons s texts ih =>
    rw [List.map_cons, jsonItemsDepth, ih]
    rfl

theorem jsonDepth_ofOption (id : Option String) : jsonDepth (ofOption id).json = 0 := by
  cases id <;> rfl

theorem jsonDepth_assoc_le {es : List (String × PhpValue)} {n : Nat}
    (h : ∀ e ∈ es, jsonDepth e.2.json ≤ n) : jsonDepth (PhpValue.array (assoc es)).json ≤ n + 1 := by
  cases es with
  | nil => simp [assoc, PhpValue.json, arrayIsList, list, jsonItems, jsonDepth, jsonItemsDepth]
  | cons e es =>
    rw [json_assoc, jsonDepth, Nat.add_le_add_iff_right, jsonMembersDepth_le_iff]
    intro m hm
    rcases List.mem_map.mp hm with ⟨e', he', rfl⟩
    exact h e' he'

end Depth

section Strip

theorem entriesDropSecret_assoc (es : List (String × PhpValue))
    : entriesDropSecret (assoc es) = es.any fun e => isSecret e.1 || e.2.dropsSecret := by
  rw [entriesDropSecret_eq_any, assoc, List.any_map]
  rfl

theorem entriesDropSecret_append (entries rest : PhpArray)
    : entriesDropSecret (entries ++ rest) = (entriesDropSecret entries || entriesDropSecret rest) := by
  simp [entriesDropSecret_eq_any]

theorem dropsSecret_ofOption (o : Option String) : (ofOption o).dropsSecret = false := by
  cases o <;> rfl

theorem walkStripSecrets_append (path : String) (entries rest : PhpArray)
    : walkStripSecrets path (entries ++ rest)
        = ((walkStripSecrets path entries).1 ++ (walkStripSecrets path rest).1,
          (walkStripSecrets path entries).2 ++ (walkStripSecrets path rest).2) := by
  induction entries with
  | nil => simp [walkStripSecrets]
  | cons entry entries ih =>
    rcases entry with ⟨key, value⟩
    rw [List.cons_append, walkStripSecrets.eq_2, walkStripSecrets.eq_2 path key value entries, ih]
    split <;> simp

mutual

theorem walkStripSecrets_eq_self (path : String)
    : ∀ entries, entriesDropSecret entries = false → walkStripSecrets path entries = (entries, [])
  | [], _ => by
    unfold walkStripSecrets
    rfl
  | (key, value) :: entries, h => by
    unfold entriesDropSecret at h
    rw [Bool.or_eq_false_iff, Bool.or_eq_false_iff] at h
    have hkey : ¬classOf key = .c5Secret := by
      simpa [isSecretKey] using h.1.1
    unfold walkStripSecrets
    rw [if_neg hkey, walkValue_eq_self _ value h.1.2, walkStripSecrets_eq_self path entries h.2]
    rfl

theorem walkValue_eq_self (path : String)
    : ∀ value, value.dropsSecret = false → walkValue path value = (value, [])
  | .array entries, h => by
    rw [dropsSecret_array] at h
    unfold walkValue
    rw [walkStripSecrets_eq_self path entries h]
  | .null, _ | .bool _, _ | .int _, _ | .float _, _ | .string _, _ | .object _, _ => by
    unfold walkValue
    rfl

end

end Strip

section Dropped

-- The paths of the dropped entries of the data.
def droppedPaths (data : PhpArray) : List String :=
  ((nodes data).filter fun n => isRemoved n.1).map fun n => textFrom "data" n.1

theorem walkStripSecrets_snd_data (data : PhpArray)
    : (walkStripSecrets "data" data).2 = droppedPaths data := by
  rw [walkStripSecrets_eq_prune, prune_snd]
  simp only [cut_eq_isRemoved]
  rfl

theorem firstByText_strings (floatText : ℚ → String) (seen texts : List String)
    : firstByText floatText (seen.map some) (texts.map .string)
        = ((texts.filter (· ∉ seen)).eraseDups).map .string := by
  induction texts generalizing seen with
  | nil => rfl
  | cons s texts ih =>
    rw [List.map_cons, firstByText]
    have hmem : (PhpValue.string s).text floatText ∈ seen.map some ↔ s ∈ seen := by
      simp [PhpValue.text]
    by_cases h : s ∈ seen
    . rw [if_pos (hmem.mpr h), ih, List.filter_cons_of_neg (by simpa using h)]
    . rw [if_neg (fun h' => h (hmem.mp h')), List.filter_cons_of_pos (by simpa using h), List.eraseDups_cons]
      have hseen := ih (s :: seen)
      rw [List.map_cons] at hseen
      rw [List.map_cons, List.filter_filter]
      refine congrArg _ (hseen.trans ?_)
      congr 3
      funext t
      by_cases hs : t = s <;> simp [hs]

theorem arrayUnique_strings (floatText : ℚ → String) (texts : List String)
    : arrayUnique floatText (texts.map .string) = some (texts.eraseDups.map .string) := by
  unfold arrayUnique
  split
  . next hlength =>
    rcases texts with _ | ⟨s, _ | ⟨t, texts⟩⟩
    . rfl
    . simp [List.eraseDups_cons]
    . simp at hlength
  . rw [if_pos (by simp [PhpValue.text])]
    have h := firstByText_strings floatText [] texts
    simp only [List.map_nil, List.not_mem_nil, not_false_eq_true, decide_true, List.filter_true] at h
    rw [h]

variable (floatText : ℚ → String) {event safe : PhpArray}

theorem redact_of_nothing_dropped (h : stripSecrets event = (safe, []))
    : Runtime.redact floatText event = some safe := by
  unfold Runtime.redact
  rw [h]
  rfl

theorem redact_of_dropped {paths : List String} {fields : PhpValue} {merged : List PhpValue}
    (h : stripSecrets event = (safe, paths)) (hpaths : paths ≠ [])
    (hfields : Runtime.redactedFields safe = some (some fields))
    (hmerged : arrayUnique floatText (fields.toArrayValues ++ paths.map .string) = some merged)
    : Runtime.redact floatText event = some (Runtime.setRedactedFields safe (.array (list merged))) := by
  unfold Runtime.redact
  rw [h]
  dsimp only
  rw [if_neg hpaths, hfields]
  simp only [Option.bind_eq_bind, Option.bind_some]
  rw [hmerged, Option.bind_some]

end Dropped

end Athar.Shim
