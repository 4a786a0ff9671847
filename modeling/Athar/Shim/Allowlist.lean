import Athar.Shim.Stripping

/-!
This module contains what the redaction pass with an allowlist keeps. An entry stays when it is allowed
or open itself, and everything it stands in stays, so an allowed entry is lost as soon as something
above it is neither.
-/

namespace Athar.Shim

open Redact

-- An allowed path that passes no secret key.
def IsListed (allowlist : List String) (keys : List PhpKey) : Prop :=
  inAllowlist (textFrom "" keys) allowlist = true ∧ isClean keys = true

def PhpValue.isScalar : PhpValue → Bool
  | .array _ => false
  | _ => true

structure KeepsListed (allowlist : List String) (data : PhpArray) : Prop where
  kept : ∀ n ∈ nodes data, IsListed allowlist n.1 → n ∈ nodes (apply data allowlist).1
  only : ∀ n ∈ nodes (apply data allowlist).1, n.2.isScalar = true →
    ∀ keys name, n.1 = keys ++ [.string name] →
      inAllowlist (textFrom "" n.1) allowlist = true
        ∨ Classify.classifyField name = .c0Public
        ∨ Classify.classifyField name = .c1Technical

-- Everything that stands above the last key is allowed or open.
def opensTo (allowlist : List String) (path : String) : List PhpKey → Bool
  | [] | [_] => true
  | key :: keys =>
    (inAllowlist (childPath path key) allowlist || isOpen key)
      && opensTo allowlist (childPath path key) keys

variable {allowlist : List String}

theorem opensTo_cons {path : String} {key : PhpKey} {keys : List PhpKey} (h : keys ≠ [])
    : opensTo allowlist path (key :: keys)
        = ((inAllowlist (childPath path key) allowlist || isOpen key)
          && opensTo allowlist (childPath path key) keys) := by
  cases keys with
  | nil => contradiction
  | cons next keys => rfl

theorem survives_concat (keep : String → PhpKey → Bool) (path : String) (keys : List PhpKey)
    (key : PhpKey)
    : survives keep path (keys ++ [key])
        = (survives keep path keys && keep (textFrom path (keys ++ [key])) key) := by
  induction keys generalizing path with
  | nil => simp [survives, textFrom]
  | cons first keys ih =>
    rw [List.cons_append]
    unfold survives
    rw [ih, Bool.and_assoc]
    rfl

theorem survives_listed {path : String} {keys : List PhpKey} (hne : keys ≠ [])
    (hallowed : inAllowlist (textFrom path keys) allowlist = true) (hclean : isClean keys = true)
    : survives (keepsAt allowlist) path keys = opensTo allowlist path keys := by
  induction keys generalizing path with
  | nil => contradiction
  | cons key keys ih =>
    obtain ⟨hkey, hkeys⟩ : isSecretKey key = false ∧ isClean keys = true := by
      simpa [isClean] using hclean
    unfold survives
    by_cases hlast : keys = []
    . subst hlast
      have : inAllowlist (childPath path key) allowlist = true := hallowed
      simp [survives, opensTo, keepsAt, hkey, this]
    . rw [opensTo_cons hlast, ih hlast hallowed hkeys]
      simp [keepsAt, hkey]

theorem apply_eq_prune (data : PhpArray) : apply data allowlist = prune (keepsAt allowlist) "" data := by
  apply walkApply_eq_prune

theorem mem_nodes_apply {data : PhpArray} {n : PhpNode}
    : n ∈ nodes (apply data allowlist).1
        ↔ n ∈ nodes data ∧ survives (keepsAt allowlist) "" n.1 = true := by
  rw [apply_eq_prune, mem_nodes_prune]

theorem isOpen_iff (key : PhpKey)
    : isOpen key = true ↔ classOf key = .c0Public ∨ classOf key = .c1Technical := by
  simp [isOpen]

theorem allowed_or_open_of_survives {keys : List PhpKey} {name : String}
    (h : survives (keepsAt allowlist) "" (keys ++ [.string name]) = true)
    : inAllowlist (textFrom "" (keys ++ [.string name])) allowlist = true
        ∨ Classify.classifyField name = .c0Public
        ∨ Classify.classifyField name = .c1Technical := by
  rw [survives_concat] at h
  simp only [keepsAt, Bool.and_eq_true, Bool.or_eq_true, isOpen_iff] at h
  exact h.2.2

theorem keepsListed_iff (allowlist : List String) (data : PhpArray)
    : KeepsListed allowlist data
        ↔ ∀ n ∈ nodes data, IsListed allowlist n.1 → opensTo allowlist "" n.1 = true := by
  constructor
  . intro h n hn hlisted
    have hkept := mem_nodes_apply.mp (h.kept n hn hlisted)
    rw [← survives_listed (ne_nil_of_mem_nodes hn) hlisted.1 hlisted.2]
    exact hkept.2
  . intro h
    constructor
    . intro n hn hlisted
      rw [mem_nodes_apply, survives_listed (ne_nil_of_mem_nodes hn) hlisted.1 hlisted.2]
      exact ⟨hn, h n hn hlisted⟩
    . intro n hn _ keys name hkeys
      have hkept := mem_nodes_apply.mp hn
      rw [hkeys] at hkept ⊢
      exact allowed_or_open_of_survives hkept.2

def user : PhpArray :=
  assoc [("user", .array (assoc [("name", .string "x")]))]

-- The name is allowed, but the entry that it stands in is not.
theorem nestedName_lost : ¬KeepsListed ["user.name"] user := by
  intro h
  have hname : ([.string "user", .string "name"], .string "x") ∈ nodes user := by
    simp [user, assoc, nodes, PhpValue.nodesInside, PhpValue.shape]
  have hlisted : IsListed ["user.name"] [.string "user", .string "name"] := by
    constructor <;> decide +kernel
  have hdropped : survives (keepsAt ["user.name"]) "" [.string "user", .string "name"] = false := by
    decide +kernel
  have hkept := mem_nodes_apply.mp (h.kept _ hname hlisted)
  simp [hdropped] at hkept

end Athar.Shim
