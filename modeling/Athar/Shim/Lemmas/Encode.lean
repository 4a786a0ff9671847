import Athar.Shim.Lemmas.Redact

/-!
This module contains the member names of an encoded value. The names of a document are those of the
value it encodes, where the integer keys of an array become decimal names, and a decimal is never a
secret name.
-/

namespace Athar

mutual

-- The member names at every depth.
def Json.memberNames : Json → List String
  | .array items => itemsMemberNames items
  | .object members => membersMemberNames members
  | _ => []

def itemsMemberNames : List Json → List String
  | [] => []
  | item :: items => item.memberNames ++ itemsMemberNames items

def membersMemberNames : List (String × Json) → List String
  | [] => []
  | (name, value) :: members => name :: (value.memberNames ++ membersMemberNames members)

end

namespace Shim

theorem isSecret_iff (name : String)
    : isSecret name = true
        ↔ Classify.matchesAny (Classify.strtolower name) Classify.C5_SUBSTRINGS = true := by
  unfold isSecret Classify.classifyField
  dsimp only
  rw [decide_eq_true_iff]
  cases Classify.matchesAny (Classify.strtolower name) Classify.C5_SUBSTRINGS with
  | true => simp
  | false => repeat' split <;> simp_all

theorem c5_substrings_have_letter
    : ∀ needle ∈ Classify.C5_SUBSTRINGS, ∃ c ∈ needle.toList, 'a'.toNat ≤ c.toNat := by
  have : Classify.C5_SUBSTRINGS.all (fun needle => needle.toList.any ('a'.toNat ≤ ·.toNat))
      = true := by
    decide +kernel
  intro needle hneedle
  rw [List.all_eq_true] at this
  rcases List.any_eq_true.mp (this needle hneedle) with ⟨c, hc, hletter⟩
  exact ⟨c, hc, by simpa using hletter⟩

theorem toLower_toNat_lt_of_digit {c : Char} (h : c.isDigit = true ∨ c = '-')
    : c.toLower.toNat < 'a'.toNat := by
  rcases h with h | h
  . have hrange : 48 ≤ c.val ∧ c.val ≤ 57 := by
      simpa [Char.isDigit] using h
    have hle : c.val.toNat ≤ 57 := UInt32.le_iff_toNat_le.mp hrange.2
    have hupper : ¬(c.val ≥ 'A'.val ∧ c.val ≤ 'Z'.val) := by
      rintro ⟨hA, -⟩
      have : 65 ≤ c.val.toNat := UInt32.le_iff_toNat_le.mp hA
      omega
    unfold Char.toLower
    rw [dif_neg hupper]
    have : c.toNat ≤ 57 := hle
    have : 'a'.toNat = 97 := by rfl
    omega
  . subst h
    decide

theorem mem_toString_int {i : Int} {c : Char} (h : c ∈ (toString i).toList)
    : c.isDigit = true ∨ c = '-' := by
  rw [Int.toString_eq_repr, Int.repr_eq_if] at h
  split at h
  . left
    rw [Nat.toList_repr] at h
    exact Nat.isDigit_of_mem_toDigits (by decide) (by decide) h
  . rw [String.toList_append, List.mem_append] at h
    rcases h with h | h
    . right
      simpa using h
    . left
      rw [Nat.toList_repr] at h
      exact Nat.isDigit_of_mem_toDigits (by decide) (by decide) h

theorem isSecret_int_text (i : Int) : isSecret (PhpKey.int i).text = false := by
  rw [← Bool.not_eq_true, isSecret_iff]
  intro hmatch
  unfold Classify.matchesAny at hmatch
  rw [List.any_eq_true] at hmatch
  rcases hmatch with ⟨needle, hneedle, hinfix⟩
  rcases c5_substrings_have_letter needle hneedle with ⟨c, hc, hletter⟩
  have hmem : c ∈ Classify.strtolower (PhpKey.int i).text := by
    unfold Classify.strContains at hinfix
    rw [decide_eq_true_iff] at hinfix
    exact hinfix.subset hc
  unfold Classify.strtolower at hmem
  rw [List.mem_map] at hmem
  rcases hmem with ⟨d, hd, hdc⟩
  have := toLower_toNat_lt_of_digit (mem_toString_int hd)
  rw [hdc] at this
  omega

theorem isSecretKey_int (i : Int) : isSecretKey (.int i) = false :=
  rfl

theorem isSecret_text (key : PhpKey) : isSecret key.text = isSecretKey key := by
  cases key with
  | int i => rw [isSecret_int_text, isSecretKey_int]
  | string s => rfl

-- The keys of a list are integers, so only the values of its entries have names inside.
theorem entriesContainSecret_of_arrayIsList {entries : PhpArray} (h : arrayIsList entries = true)
    : entriesContainSecret entries = entries.any (fun e => e.2.containsSecret) := by
  rw [entriesContainSecret_eq_any]
  have hint : ∀ e ∈ entries, isSecretKey e.1 = false := by
    intro e he
    have hkeys : entries.map Prod.fst = (list (entries.map Prod.snd)).map Prod.fst := by
      simpa [arrayIsList] using h
    have hmem : e.1 ∈ (list (entries.map Prod.snd)).map Prod.fst := by
      rw [← hkeys]
      exact List.mem_map_of_mem he
    unfold list at hmem
    rw [List.map_map, List.mem_map] at hmem
    rcases hmem with ⟨item, _, hkey⟩
    rw [← hkey]
    rfl
  rw [Bool.eq_iff_iff, List.any_eq_true, List.any_eq_true]
  refine exists_congr (fun e => and_congr_right (fun he => ?_))
  rw [hint e he, Bool.false_or]

mutual

theorem any_memberNames_json
    : ∀ value : PhpValue, value.json.memberNames.any isSecret = value.containsSecret
  | .array entries => by
    unfold PhpValue.json PhpValue.containsSecret
    cases hlist : arrayIsList entries with
    | true =>
      rw [if_pos rfl, entriesContainSecret_of_arrayIsList hlist]
      exact any_itemsMemberNames entries
    | false =>
      rw [if_neg (by decide)]
      exact any_entriesMemberNames entries
  | .object members => by
    unfold PhpValue.json PhpValue.containsSecret
    exact any_membersMemberNames members
  | .null | .bool _ | .int _ | .float _ | .string _ => by
    unfold PhpValue.json PhpValue.containsSecret
    rfl

theorem any_itemsMemberNames
    : ∀ entries, (itemsMemberNames (jsonItems entries)).any isSecret
        = entries.any (fun e => e.2.containsSecret)
  | [] => rfl
  | (key, value) :: entries => by
    unfold jsonItems itemsMemberNames
    rw [List.any_append, any_memberNames_json value, any_itemsMemberNames entries]
    rfl

theorem any_entriesMemberNames
    : ∀ entries, (membersMemberNames (jsonEntries entries)).any isSecret
        = entriesContainSecret entries
  | [] => rfl
  | (key, value) :: entries => by
    unfold jsonEntries membersMemberNames entriesContainSecret
    rw [List.any_cons, List.any_append, any_memberNames_json value, any_entriesMemberNames entries,
      isSecret_text, Bool.or_assoc]

theorem any_membersMemberNames
    : ∀ members, (membersMemberNames (jsonMembers members)).any isSecret
        = membersContainSecret members
  | [] => rfl
  | (name, value) :: members => by
    unfold jsonMembers membersContainSecret
    cases hmangled : isMangled name with
    | true =>
      rw [if_pos rfl, any_membersMemberNames members]
      rfl
    | false =>
      rw [if_neg (by decide), membersMemberNames, List.any_cons, List.any_append,
        any_memberNames_json value, any_membersMemberNames members]
      simp [Bool.or_assoc]

end

end Shim

end Athar
