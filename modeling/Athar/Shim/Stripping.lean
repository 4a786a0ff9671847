import Athar.Shim.Lemmas.Prune

/-!
This module contains what the mandatory redaction pass does to a nested array: it removes the entries
under secret keys with what is below them, reports each of them once, and nothing else changes.
-/

namespace Athar.Shim

open Redact

-- No key on the way is secret.
def isClean (keys : List PhpKey) : Bool :=
  keys.all (!isSecretKey ·)

-- The last key is secret, and it is the only one.
def isRemoved (keys : List PhpKey) : Bool :=
  isClean keys.dropLast && keys.getLast?.any isSecretKey

structure StripsExactly (data : PhpArray) : Prop where
  noSecret : ∀ n ∈ nodes (stripSecrets data).1, ∀ name,
    .string name ∈ n.1 → Classify.classifyField name ≠ .c5Secret
  kept : nodes (stripSecrets data).1 = (nodes data).filter fun n => isClean n.1
  dropped : (stripSecrets data).2
    = ((nodes data).filter fun n => isRemoved n.1).map fun n => textFrom "" n.1
  again : stripSecrets (stripSecrets data).1 = ((stripSecrets data).1, [])

theorem survives_eq_isClean (path : String) (keys : List PhpKey)
    : survives (fun _ key => !isSecretKey key) path keys = isClean keys := by
  induction keys generalizing path with
  | nil => rfl
  | cons key keys ih =>
    unfold survives
    rw [ih]
    simp [isClean]

theorem isRemoved_cons (key : PhpKey) {keys : List PhpKey} (h : keys ≠ [])
    : isRemoved (key :: keys) = (!isSecretKey key && isRemoved keys) := by
  unfold isRemoved isClean
  rw [List.dropLast_cons_of_ne_nil h, List.all_cons, List.getLast?_cons_of_ne_nil h, Bool.and_assoc]

theorem cut_eq_isRemoved (path : String) (keys : List PhpKey)
    : cut (fun _ key => !isSecretKey key) path keys = isRemoved keys := by
  induction keys generalizing path with
  | nil => rfl
  | cons key keys ih =>
    by_cases hkeys : keys = []
    . subst hkeys
      simp [cut, isRemoved, isClean]
    . rw [cut_cons hkeys, isRemoved_cons key hkeys, ih]

theorem stripSecrets_eq_prune (data : PhpArray)
    : stripSecrets data = prune (fun _ key => !isSecretKey key) "" data := by
  apply walkStripSecrets_eq_prune

theorem nodes_stripSecrets (data : PhpArray)
    : nodes (stripSecrets data).1 = (nodes data).filter fun n => isClean n.1 := by
  rw [stripSecrets_eq_prune, nodes_prune]
  simp only [survives_eq_isClean]

theorem stripSecrets_snd (data : PhpArray)
    : (stripSecrets data).2
        = ((nodes data).filter fun n => isRemoved n.1).map fun n => textFrom "" n.1 := by
  rw [stripSecrets_eq_prune, prune_snd]
  simp only [cut_eq_isRemoved]

theorem not_secret_of_isClean {keys : List PhpKey} (h : isClean keys = true) {name : String}
    (hmem : .string name ∈ keys)
    : Classify.classifyField name ≠ .c5Secret := by
  have := List.all_eq_true.mp h _ hmem
  intro hsecret
  simp [isSecretKey, classOf, hsecret] at this

theorem stripSecrets_exact (data : PhpArray) : StripsExactly data where
  noSecret := by
    intro n hn name hname
    rw [nodes_stripSecrets, List.mem_filter] at hn
    exact not_secret_of_isClean hn.2 hname
  kept := nodes_stripSecrets data
  dropped := stripSecrets_snd data
  again := by
    rw [stripSecrets_eq_prune, stripSecrets_eq_prune, prune_prune]

end Athar.Shim
