import Athar.Shim.Lemmas.Redact

/-!
This module contains the pruning that both redaction passes do: from the root down, an entry that is
not kept goes with everything below it. What is left of an array is described by its nodes, the
entries at every level with the keys that lead to them, in the order of a traversal.
-/

namespace Athar.Shim

-- A key path of an array with what stands there. An array shows without its entries.
abbrev PhpNode := List PhpKey × PhpValue

def PhpValue.shape : PhpValue → PhpValue
  | .array _ => .array []
  | value => value

mutual

def nodes : List (PhpKey × PhpValue) → List PhpNode
  | [] => []
  | (key, value) :: data =>
    ([key], value.shape) :: (value.nodesInside.map fun n => (key :: n.1, n.2)) ++ nodes data

def PhpValue.nodesInside : PhpValue → List PhpNode
  | .array entries => nodes entries
  | _ => []

end

namespace Redact

def textFrom (path : String) (keys : List PhpKey) : String :=
  keys.foldl childPath path

-- Whether an entry is kept depends on its path and its key.
variable (keep : String → PhpKey → Bool)

mutual

def prune (path : String) : List (PhpKey × PhpValue) → List (PhpKey × PhpValue) × List String
  | [] => ([], [])
  | (key, value) :: data =>
    let (out, droppedPaths) := prune path data
    if keep (childPath path key) key then
      let (value', droppedInside) := pruneValue (childPath path key) value
      ((key, value') :: out, droppedInside ++ droppedPaths)
    else
      (out, childPath path key :: droppedPaths)

def pruneValue (path : String) : PhpValue → PhpValue × List String
  | .array entries =>
    let (out, droppedPaths) := prune path entries
    (.array out, droppedPaths)
  | value => (value, [])

end

-- Every key on the way is kept.
def survives (path : String) : List PhpKey → Bool
  | [] => true
  | key :: keys => keep (childPath path key) key && survives (childPath path key) keys

-- The last key is the first that is not kept.
def cut (path : String) : List PhpKey → Bool
  | [] => false
  | [key] => !keep (childPath path key) key
  | key :: keys => keep (childPath path key) key && cut (childPath path key) keys

variable {keep}

theorem shape_pruneValue (path : String) (value : PhpValue)
    : (pruneValue keep path value).1.shape = value.shape := by
  cases value with
  | array entries =>
    unfold pruneValue
    rfl
  | _ =>
    unfold pruneValue
    rfl

-- The nodes below a key, by what is asked of the keys after it.
theorem filter_map_cons {p q : List PhpKey → Bool} {key : PhpKey} {inside : List PhpNode}
    (h : ∀ n ∈ inside, p (key :: n.1) = q n.1)
    : (inside.map fun n => (key :: n.1, n.2)).filter (p ·.1)
        = (inside.filter (q ·.1)).map fun n => (key :: n.1, n.2) := by
  rw [List.filter_map]
  congr 1
  exact List.filter_congr h

theorem filter_map_cons_eq_nil {p : List PhpKey → Bool} {key : PhpKey} {inside : List PhpNode}
    (h : ∀ n ∈ inside, p (key :: n.1) = false)
    : (inside.map fun n => (key :: n.1, n.2)).filter (p ·.1) = [] := by
  rw [filter_map_cons (q := fun _ => false) h, List.filter_false, List.map_nil]

mutual

theorem nodes_prune (path : String)
    : ∀ data, nodes (prune keep path data).1 = (nodes data).filter (survives keep path ·.1)
  | [] => by
    unfold prune nodes
    rfl
  | (key, value) :: data => by
    have ih := nodes_prune path data
    have ihValue := nodesInside_pruneValue (childPath path key) value
    have hhead : survives keep path [key] = keep (childPath path key) key := by
      simp [survives]
    unfold prune
    cases hkeep : keep (childPath path key) key with
    | true =>
      dsimp only
      rw [if_pos rfl]
      unfold nodes
      have hbelow : ∀ n ∈ value.nodesInside,
          survives keep path (key :: n.1) = survives keep (childPath path key) n.1 := by
        simp [survives, hkeep]
      rw [ih, ihValue, shape_pruneValue, List.filter_append, List.filter_cons_of_pos (by simpa [hhead]),
        filter_map_cons hbelow]
    | false =>
      dsimp only
      rw [if_neg Bool.false_ne_true, ih]
      conv => rhs; unfold nodes
      have hbelow : ∀ n ∈ value.nodesInside, survives keep path (key :: n.1) = false := by
        simp [survives, hkeep]
      rw [List.filter_append, List.filter_cons_of_neg (by simpa [hhead]), filter_map_cons_eq_nil hbelow,
        List.nil_append]

theorem nodesInside_pruneValue (path : String)
    : ∀ value, (pruneValue keep path value).1.nodesInside
        = value.nodesInside.filter (survives keep path ·.1)
  | .array entries => by
    unfold pruneValue PhpValue.nodesInside
    exact nodes_prune path entries
  | .null | .bool _ | .int _ | .float _ | .string _ | .object _ => by
    unfold pruneValue PhpValue.nodesInside
    rfl

end

theorem ne_nil_of_mem_nodes {data : PhpArray} {n : PhpNode} (h : n ∈ nodes data) : n.1 ≠ [] := by
  induction data with
  | nil =>
    unfold nodes at h
    contradiction
  | cons entry data ih =>
    unfold nodes at h
    rcases List.mem_append.mp h with hhead | htail
    . rcases List.mem_cons.mp hhead with rfl | hinside
      . exact List.cons_ne_nil _ _
      . rcases List.mem_map.mp hinside with ⟨m, _, rfl⟩
        exact List.cons_ne_nil _ _
    . exact ih htail

theorem ne_nil_of_mem_nodesInside {value : PhpValue} {n : PhpNode} (h : n ∈ value.nodesInside)
    : n.1 ≠ [] := by
  cases value with
  | array entries =>
    unfold PhpValue.nodesInside at h
    exact ne_nil_of_mem_nodes h
  | _ =>
    unfold PhpValue.nodesInside at h
    contradiction

theorem cut_cons {path : String} {key : PhpKey} {keys : List PhpKey} (h : keys ≠ [])
    : cut keep path (key :: keys)
        = (keep (childPath path key) key && cut keep (childPath path key) keys) := by
  cases keys with
  | nil => contradiction
  | cons next keys => rfl

mutual

-- The dropped entries are reported where they are met, and nothing below them.
theorem prune_snd (path : String)
    : ∀ data, (prune keep path data).2
        = ((nodes data).filter (cut keep path ·.1)).map fun n => textFrom path n.1
  | [] => by
    unfold prune nodes
    rfl
  | (key, value) :: data => by
    have ih := prune_snd path data
    have ihValue := pruneValue_snd (childPath path key) value
    have hbelow : ∀ n ∈ value.nodesInside, cut keep path (key :: n.1)
        = (keep (childPath path key) key && cut keep (childPath path key) n.1) := by
      intro n hn
      exact cut_cons (ne_nil_of_mem_nodesInside hn)
    have hhead : cut keep path [key] = !keep (childPath path key) key := rfl
    unfold prune nodes
    rw [List.filter_append, List.map_append]
    cases hkeep : keep (childPath path key) key with
    | true =>
      simp only [hkeep, Bool.true_and] at hbelow
      dsimp only
      rw [if_pos rfl, List.filter_cons_of_neg (by simp [hhead, hkeep]), filter_map_cons hbelow, ih, ihValue,
        List.map_map]
      rfl
    | false =>
      simp only [hkeep, Bool.false_and] at hbelow
      dsimp only
      rw [if_neg Bool.false_ne_true, List.filter_cons_of_pos (by simp [hhead, hkeep]),
        filter_map_cons_eq_nil hbelow, ih]
      rfl

theorem pruneValue_snd (path : String)
    : ∀ value, (pruneValue keep path value).2
        = (value.nodesInside.filter (cut keep path ·.1)).map fun n => textFrom path n.1
  | .array entries => by
    unfold pruneValue PhpValue.nodesInside
    exact prune_snd path entries
  | .null | .bool _ | .int _ | .float _ | .string _ | .object _ => by
    unfold pruneValue PhpValue.nodesInside
    rfl

end

mutual

theorem prune_eq_self (path : String)
    : ∀ data, (∀ n ∈ nodes data, survives keep path n.1 = true) → prune keep path data = (data, [])
  | [] => by
    intro _
    unfold prune
    rfl
  | (key, value) :: data => by
    intro h
    unfold nodes at h
    simp only [List.cons_append, List.forall_mem_cons, List.forall_mem_append, List.forall_mem_map] at h
    obtain ⟨hhead, hinside, htail⟩ := h
    have hkeep : keep (childPath path key) key = true := by
      simpa [survives] using hhead
    have ih := prune_eq_self path data htail
    have ihValue := pruneValue_eq_self (childPath path key) value (by
      intro n hn
      simpa [survives, hkeep] using hinside n hn)
    unfold prune
    simp [ih, ihValue, hkeep]

theorem pruneValue_eq_self (path : String)
    : ∀ value, (∀ n ∈ value.nodesInside, survives keep path n.1 = true)
        → pruneValue keep path value = (value, [])
  | .array entries => by
    intro h
    unfold PhpValue.nodesInside at h
    unfold pruneValue
    rw [prune_eq_self path entries h]
  | .null | .bool _ | .int _ | .float _ | .string _ | .object _ => by
    intro _
    unfold pruneValue
    rfl

end

theorem mem_nodes_prune {path : String} {data : PhpArray} {n : PhpNode}
    : n ∈ nodes (prune keep path data).1 ↔ n ∈ nodes data ∧ survives keep path n.1 = true := by
  rw [nodes_prune, List.mem_filter]

theorem prune_prune (path : String) (data : PhpArray)
    : prune keep path (prune keep path data).1 = ((prune keep path data).1, []) := by
  apply prune_eq_self
  intro n hn
  exact (mem_nodes_prune.mp hn).2

-- The two passes of the shim are such prunings.
mutual

theorem walkStripSecrets_eq_prune (path : String)
    : ∀ data, walkStripSecrets path data = prune (fun _ key => !isSecretKey key) path data
  | [] => by
    unfold walkStripSecrets prune
    rfl
  | (key, value) :: data => by
    unfold walkStripSecrets prune
    rw [walkStripSecrets_eq_prune path data, walkValue_eq_pruneValue (childPath path key) value]
    by_cases hsecret : classOf key = .c5Secret
    . simp [isSecretKey, hsecret]
    . simp [isSecretKey, hsecret]

theorem walkValue_eq_pruneValue (path : String)
    : ∀ value, walkValue path value = pruneValue (fun _ key => !isSecretKey key) path value
  | .array entries => by
    unfold walkValue pruneValue
    rw [walkStripSecrets_eq_prune path entries]
  | .null | .bool _ | .int _ | .float _ | .string _ | .object _ => by
    unfold walkValue pruneValue
    rfl

end

-- The class of a key is enough to keep its entry.
def isOpen (key : PhpKey) : Bool :=
  classOf key = .c0Public || classOf key = .c1Technical

def keepsAt (allowlist : List String) (path : String) (key : PhpKey) : Bool :=
  !isSecretKey key && (inAllowlist path allowlist || isOpen key)

mutual

theorem walkApply_eq_prune (path : String) (allowlist : List String)
    : ∀ data, walkApply path allowlist data = prune (keepsAt allowlist) path data
  | [] => by
    unfold walkApply prune
    rfl
  | (key, value) :: data => by
    unfold walkApply prune
    rw [walkApply_eq_prune path allowlist data,
      walkApplyValue_eq_pruneValue (childPath path key) allowlist value]
    by_cases hsecret : classOf key = .c5Secret
    . simp [keepsAt, isSecretKey, hsecret]
    . have hkeeps : keepsAt allowlist (childPath path key) key
          = (inAllowlist (childPath path key) allowlist || decide (classOf key = .c0Public)
            || decide (classOf key = .c1Technical)) := by
        simp [keepsAt, isSecretKey, isOpen, hsecret, Bool.or_assoc]
      simp only [if_neg hsecret, hkeeps]
      split_ifs
      . rfl
      . rfl

theorem walkApplyValue_eq_pruneValue (path : String) (allowlist : List String)
    : ∀ value, walkApplyValue path allowlist value = pruneValue (keepsAt allowlist) path value
  | .array entries => by
    unfold walkApplyValue pruneValue
    rw [walkApply_eq_prune path allowlist entries]
  | .null | .bool _ | .int _ | .float _ | .string _ | .object _ => by
    unfold walkApplyValue pruneValue
    rfl

end

end Redact

end Athar.Shim
