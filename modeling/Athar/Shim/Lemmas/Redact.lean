import Athar.Shim.Impl.Runtime

/-!
This module contains what the redaction pass leaves of a value. Arrays lose the entries under secret
names at every level, and objects are left as they are, so what still shows a secret name afterwards
is an object that was reached without passing one.
-/

namespace Athar.Shim

def isSecret (name : String) : Bool :=
  Classify.classifyField name = .c5Secret

def isSecretKey (key : PhpKey) : Bool :=
  Redact.classOf key = .c5Secret

mutual

-- Some name inside the value is secret.
def PhpValue.containsSecret : PhpValue → Bool
  | .array entries => entriesContainSecret entries
  | .object members => membersContainSecret members
  | _ => false

def entriesContainSecret : List (PhpKey × PhpValue) → Bool
  | [] => false
  | (key, value) :: entries =>
    (isSecretKey key || value.containsSecret) || entriesContainSecret entries

def membersContainSecret : List (String × PhpValue) → Bool
  | [] => false
  | (name, value) :: members =>
    (!isMangled name && (isSecret name || value.containsSecret)) || membersContainSecret members

end

mutual

-- Some object that is reached through entries without secret names has a secret name inside.
def PhpValue.exposesSecret : PhpValue → Bool
  | .array entries => entriesExposeSecret entries
  | .object members => membersContainSecret members
  | _ => false

def entriesExposeSecret : List (PhpKey × PhpValue) → Bool
  | [] => false
  | (key, value) :: entries =>
    (!isSecretKey key && value.exposesSecret) || entriesExposeSecret entries

end

mutual

-- Some array that is reached through arrays has an entry under a secret name.
def PhpValue.dropsSecret : PhpValue → Bool
  | .array entries => entriesDropSecret entries
  | _ => false

def entriesDropSecret : List (PhpKey × PhpValue) → Bool
  | [] => false
  | (key, value) :: entries => (isSecretKey key || value.dropsSecret) || entriesDropSecret entries

end

@[simp]
theorem containsSecret_array (entries : PhpArray)
    : (PhpValue.array entries).containsSecret = entriesContainSecret entries := by
  unfold PhpValue.containsSecret
  rfl

@[simp]
theorem exposesSecret_array (entries : PhpArray)
    : (PhpValue.array entries).exposesSecret = entriesExposeSecret entries := by
  unfold PhpValue.exposesSecret
  rfl

@[simp]
theorem dropsSecret_array (entries : PhpArray)
    : (PhpValue.array entries).dropsSecret = entriesDropSecret entries := by
  unfold PhpValue.dropsSecret
  rfl

theorem entriesContainSecret_eq_any (entries : PhpArray)
    : entriesContainSecret entries
        = entries.any (fun e => isSecretKey e.1 || e.2.containsSecret) := by
  induction entries with
  | nil => rfl
  | cons entry entries ih =>
    unfold entriesContainSecret
    rw [List.any_cons, ih]

theorem membersContainSecret_eq_any (members : List (String × PhpValue))
    : membersContainSecret members
        = members.any (fun m => !isMangled m.1 && (isSecret m.1 || m.2.containsSecret)) := by
  induction members with
  | nil => rfl
  | cons member members ih =>
    unfold membersContainSecret
    rw [List.any_cons, ih]

theorem entriesExposeSecret_eq_any (entries : PhpArray)
    : entriesExposeSecret entries
        = entries.any (fun e => !isSecretKey e.1 && e.2.exposesSecret) := by
  induction entries with
  | nil => rfl
  | cons entry entries ih =>
    unfold entriesExposeSecret
    rw [List.any_cons, ih]

theorem entriesDropSecret_eq_any (entries : PhpArray)
    : entriesDropSecret entries = entries.any (fun e => isSecretKey e.1 || e.2.dropsSecret) := by
  induction entries with
  | nil => rfl
  | cons entry entries ih =>
    unfold entriesDropSecret
    rw [List.any_cons, ih]

namespace Redact

def keeps (key : PhpKey) : Bool :=
  !isSecretKey key

def strip (value : PhpValue) : PhpValue :=
  (walkValue "" value).1

def stripEntries (entries : PhpArray) : PhpArray :=
  Entries.selected keeps strip entries

mutual

theorem walkStripSecrets_fst (path : String)
    : ∀ entries, (walkStripSecrets path entries).1 = stripEntries entries
  | [] => by
    unfold walkStripSecrets
    rfl
  | (key, value) :: entries => by
    unfold walkStripSecrets stripEntries
    by_cases hsecret : classOf key = .c5Secret
    . have hkeep : keeps key = false := by
        simp [keeps, isSecretKey, hsecret]
      rw [if_pos hsecret, Entries.selected_cons_of_drop hkeep]
      exact walkStripSecrets_fst path entries
    . have hkeep : keeps key = true := by
        simp [keeps, isSecretKey, hsecret]
      rw [if_neg hsecret, Entries.selected_cons_of_keep hkeep]
      dsimp
      rw [walkValue_fst (childPath path key) value, walkStripSecrets_fst path entries]
      rfl

-- The path only goes into the dropped paths.
theorem walkValue_fst (path : String) : ∀ value, (walkValue path value).1 = strip value
  | .array entries => by
    unfold strip walkValue
    dsimp
    rw [walkStripSecrets_fst path entries, walkStripSecrets_fst "" entries]
  | .null | .bool _ | .int _ | .float _ | .string _ | .object _ => by
    unfold strip walkValue
    rfl

end

theorem strip_array (entries : PhpArray) : strip (.array entries) = .array (stripEntries entries) := by
  unfold strip walkValue
  dsimp
  rw [walkStripSecrets_fst]

theorem stripSecrets_fst (data : PhpArray) : (stripSecrets data).1 = stripEntries data :=
  walkStripSecrets_fst "" data

mutual

theorem walkStripSecrets_snd_isEmpty (path : String)
    : ∀ entries, (walkStripSecrets path entries).2.isEmpty = !entriesDropSecret entries
  | [] => by
    unfold walkStripSecrets entriesDropSecret
    rfl
  | (key, value) :: entries => by
    unfold walkStripSecrets entriesDropSecret
    by_cases hsecret : classOf key = .c5Secret
    . rw [if_pos hsecret]
      simp [isSecretKey, hsecret]
    . rw [if_neg hsecret]
      dsimp
      have hsplit : ∀ a b : List String, (a ++ b).isEmpty = (a.isEmpty && b.isEmpty) := by
        intro a b
        cases a <;> rfl
      rw [hsplit, walkValue_snd_isEmpty, walkStripSecrets_snd_isEmpty path entries]
      simp [isSecretKey, hsecret]

theorem walkValue_snd_isEmpty (path : String)
    : ∀ value, (walkValue path value).2.isEmpty = !value.dropsSecret
  | .array entries => by
    unfold walkValue PhpValue.dropsSecret
    exact walkStripSecrets_snd_isEmpty path entries
  | .null | .bool _ | .int _ | .float _ | .string _ | .object _ => by
    unfold walkValue PhpValue.dropsSecret
    rfl

end

theorem stripSecrets_snd_eq_nil_iff (data : PhpArray)
    : (stripSecrets data).2 = [] ↔ entriesDropSecret data = false := by
  have := walkStripSecrets_snd_isEmpty "" data
  unfold stripSecrets
  rw [← List.isEmpty_iff, this, Bool.not_eq_true']

mutual

theorem containsSecret_strip : ∀ value : PhpValue, (strip value).containsSecret = value.exposesSecret
  | .array entries => by
    rw [strip_array]
    unfold PhpValue.containsSecret PhpValue.exposesSecret
    exact entriesContainSecret_stripEntries entries
  | .null | .bool _ | .int _ | .float _ | .string _ | .object _ => by
    unfold strip walkValue PhpValue.containsSecret PhpValue.exposesSecret
    rfl

theorem entriesContainSecret_stripEntries
    : ∀ entries, entriesContainSecret (stripEntries entries) = entriesExposeSecret entries
  | [] => rfl
  | (key, value) :: entries => by
    have ih := entriesContainSecret_stripEntries entries
    unfold stripEntries at ih ⊢
    unfold entriesExposeSecret
    cases hsecret : isSecretKey key with
    | true =>
      have hkeep : keeps key = false := by
        simp [keeps, hsecret]
      rw [Entries.selected_cons_of_drop hkeep, ih]
      rfl
    | false =>
      have hkeep : keeps key = true := by
        simp [keeps, hsecret]
      rw [Entries.selected_cons_of_keep hkeep, entriesContainSecret, ih, hsecret,
        containsSecret_strip value]
      rfl

end

-- The text of a value does not change, as that of an array is not about its entries.
theorem text_strip (floatText : ℚ → String) (value : PhpValue)
    : (strip value).text floatText = value.text floatText := by
  cases value with
  | array entries =>
    rw [strip_array]
    rfl
  | _ => rfl

end Redact

end Athar.Shim
