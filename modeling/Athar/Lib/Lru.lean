import Mathlib.Algebra.Group.Action.Defs
import Mathlib.Algebra.Order.BigOperators.Group.List
import Mathlib.Algebra.Order.Ring.Nat
import Mathlib.Data.Finset.Card
import Mathlib.Data.Finset.Insert
import Mathlib.Data.List.AList
import Athar.Lib.Run

/-!
This module contains tables that keep a value for each of a bounded number of keys. A key that is new
to a full table takes the place of the one that was least recently touched. As long as there are no more
keys than places, the value of a key only depends on what its own touches were.
-/

variable {κ W α : Type*} [DecidableEq κ]

-- The least recently touched key comes first in the order.
structure Lru (κ W : Type*) [DecidableEq κ] where
  table : AList fun _ : κ => W
  order : List κ

namespace Lru

variable (capacity : Nat) (init : W)

def empty : Lru κ W := ⟨∅, []⟩

def makeRoom (t : Lru κ W) (k : κ) : Lru κ W :=
  if k ∉ t.table ∧ capacity ≤ t.table.entries.length then
    match t.order with
    | [] => t
    | evict :: order => ⟨t.table.erase evict, order⟩
  else
    t

def value (t : Lru κ W) (k : κ) : W :=
  (t.table.lookup k).getD init

def touch (t : Lru κ W) (k : κ) (update : W → W) : Lru κ W :=
  let t := t.makeRoom capacity k
  ⟨t.table.insert k (update (t.value init k)), t.order.filter (· ≠ k) ++ [k]⟩

-- The touches of a run, each with what it makes of the value.
def step (update : α → W → W) (t : Lru κ W) (input : κ × α) : Lru κ W :=
  t.touch capacity init input.1 (update input.2)

-- What the inputs of one key make of its value.
def valueOf (update : α → W → W) (inputs : List (κ × α)) (k : κ) : W :=
  (inputs.filter (·.1 = k)).foldl (fun w input => update input.2 w) init

-- No touch of the run takes the place of the key.
def Keeps (update : α → W → W) (inputs : List (κ × α)) (k : κ) : Prop :=
  Run.Guarded (step capacity init update)
    (fun t input => k ∈ t.table → k ∈ (t.step capacity init update input).table) empty inputs

variable {capacity : Nat} {init : W} {update : α → W → W}

theorem valueOf_append (inputs : List (κ × α)) (input : κ × α) (k : κ)
    : valueOf init update (inputs ++ [input]) k
        = if input.1 = k then update input.2 (valueOf init update inputs k)
          else valueOf init update inputs k := by
  unfold valueOf
  rw [List.filter_append, List.foldl_append]
  split
  . next h => simp [h]
  . next h => simp [h]

theorem makeRoom_of_room {t : Lru κ W} {k : κ} (h : k ∉ t.table → t.table.entries.length < capacity)
    : t.makeRoom capacity k = t := by
  unfold makeRoom
  rw [if_neg]
  rintro ⟨hnew, hfull⟩
  exact absurd (h hnew) (Nat.not_lt.mpr hfull)

theorem value_touch {t : Lru κ W} {k : κ} (h : k ∉ t.table → t.table.entries.length < capacity)
    (f : W → W) (k' : κ)
    : (t.touch capacity init k f).value init k'
        = if k = k' then f (t.value init k') else t.value init k' := by
  unfold touch
  rw [makeRoom_of_room h]
  unfold value
  split
  . next heq =>
    subst heq
    simp
  . next hne =>
    rw [AList.lookup_insert_ne (Ne.symm hne)]

theorem value_makeRoom_self (t : Lru κ W) (k : κ)
    : (t.makeRoom capacity k).value init k = t.value init k := by
  unfold makeRoom
  split
  . next hnew =>
    split
    . rfl
    . next evict order horder =>
      have hlookup : t.table.lookup k = none := AList.lookup_eq_none.mpr hnew.1
      unfold value
      rw [hlookup]
      by_cases hevict : k = evict
      . rw [hevict, AList.lookup_erase]
      . rw [AList.lookup_erase_ne hevict, hlookup]
  . rfl

theorem value_touch_self (t : Lru κ W) (k : κ) (f : W → W)
    : (t.touch capacity init k f).value init k = f (t.value init k) := by
  have hroom : (t.makeRoom capacity k).value init k = t.value init k := value_makeRoom_self t k
  rw [← hroom]
  unfold touch
  dsimp only
  rw [value, AList.lookup_insert, Option.getD_some]

theorem value_touch_of_ne (t : Lru κ W) {k k' : κ} (hne : k' ≠ k) (f : W → W)
    : (t.touch capacity init k f).value init k' = t.value init k'
        ∨ k' ∉ (t.touch capacity init k f).table ∧ (t.touch capacity init k f).value init k' = init := by
  unfold touch makeRoom
  dsimp only
  rw [AList.mem_insert, value, AList.lookup_insert_ne hne]
  split
  . split
    . exact Or.inl rfl
    . next evict order horder =>
      by_cases hevict : k' = evict
      . right
        rw [hevict, AList.lookup_erase]
        refine ⟨?_, rfl⟩
        rw [not_or, AList.mem_erase]
        exact ⟨hevict ▸ hne, fun h => h.1 rfl⟩
      . left
        rw [AList.lookup_erase_ne hevict]
        rfl
  . exact Or.inl rfl

theorem mem_touch {t : Lru κ W} {k k' : κ} {f : W → W}
    (h : k' ∈ (t.touch capacity init k f).table) : k' = k ∨ k' ∈ t.table := by
  unfold touch makeRoom at h
  rw [AList.mem_insert] at h
  apply h.imp_right
  intro hmem
  split at hmem
  . split at hmem
    . exact hmem
    . exact (AList.mem_erase.mp hmem).2
  . exact hmem

theorem mem_run {inputs : List (κ × α)} {k : κ}
    (h : k ∈ (Run.exec (step capacity init update) empty inputs).table)
    : k ∈ inputs.map (·.1) := by
  induction inputs using List.reverseRecOn with
  | nil => exact absurd h (AList.notMem_empty k)
  | append_singleton inputs input ih =>
    rw [Run.exec_append, Run.exec_cons, Run.exec_nil] at h
    rw [List.map_append, List.mem_append]
    rcases mem_touch h with rfl | hold
    . simp
    . exact Or.inl (ih hold)

theorem length_le_card {t : Lru κ W} {keys : Finset κ} (h : ∀ k ∈ t.table, k ∈ keys)
    : t.table.entries.length ≤ keys.card := by
  have hnodup : t.table.keys.Nodup := t.table.keys_nodup
  have hlength : t.table.entries.length = t.table.keys.toFinset.card := by
    rw [List.toFinset_card_of_nodup hnodup]
    simp [AList.keys, List.keys]
  rw [hlength]
  apply Finset.card_le_card
  intro k hk
  rw [List.mem_toFinset] at hk
  exact h k (AList.mem_keys.mpr hk)

/--
If there are no more keys than places, the value of every key after a run is what its own inputs make
of it.
-/
theorem value_run {inputs : List (κ × α)} (hroom : (inputs.map (·.1)).toFinset.card ≤ capacity) (k : κ)
    : (Run.exec (step capacity init update) empty inputs).value init k
        = valueOf init update inputs k := by
  induction inputs using List.reverseRecOn with
  | nil => rfl
  | append_singleton inputs input ih =>
    have hkeys : ((inputs ++ [input]).map (·.1)).toFinset
        = insert input.1 (inputs.map (·.1)).toFinset := by
      ext k
      simp
    rw [hkeys] at hroom
    have hfewer := (Finset.card_le_card (Finset.subset_insert _ _)).trans hroom
    have hfree : input.1 ∉ (Run.exec (step capacity init update) empty inputs).table →
        (Run.exec (step capacity init update) empty inputs).table.entries.length < capacity := by
      intro hnew
      have hlength : (Run.exec (step capacity init update) empty inputs).table.entries.length
          ≤ ((inputs.map (·.1)).toFinset.erase input.1).card := by
        apply length_le_card
        intro k hk
        rw [Finset.mem_erase, List.mem_toFinset]
        refine ⟨?_, mem_run hk⟩
        rintro rfl
        exact hnew hk
      by_cases hmem : input.1 ∈ (inputs.map (·.1)).toFinset
      . have := Finset.card_erase_lt_of_mem hmem
        omega
      . rw [Finset.card_insert_of_notMem hmem] at hroom
        have := Finset.card_erase_le (s := (inputs.map (·.1)).toFinset) (a := input.1)
        omega
    rw [Run.exec_append, Run.exec_cons, Run.exec_nil, step, value_touch hfree, ih hfewer,
      valueOf_append]

theorem mem_touch_self (t : Lru κ W) (k : κ) (f : W → W) : k ∈ (t.touch capacity init k f).table := by
  unfold touch
  simp [AList.mem_insert]

theorem keeps_of_forall {inputs : List (κ × α)} {k : κ} (h : ∀ input ∈ inputs, input.1 = k)
    : Keeps capacity init update inputs k := by
  intro pre input hpre _
  rw [← h input (hpre.subset (by simp))]
  exact mem_touch_self _ _ _

/--
The value of a key that is not evicted during a run is what its own inputs make of it.
-/
theorem value_run_of_keeps {inputs : List (κ × α)} {k : κ} (h : Keeps capacity init update inputs k)
    : (Run.exec (step capacity init update) empty inputs).value init k
        = valueOf init update inputs k := by
  induction inputs using List.reverseRecOn with
  | nil => rfl
  | append_singleton inputs input ih =>
    unfold Keeps at h
    rw [Run.Guarded.append, Run.guarded_cons] at h
    have hvalue := ih h.1
    rw [Run.exec_append, Run.exec_cons, Run.exec_nil, valueOf_append, ← hvalue]
    split
    . next heq =>
      rw [← heq]
      exact value_touch_self _ _ _
    . next hne =>
      rcases value_touch_of_ne _ (Ne.symm hne) (update input.2) with hkept | ⟨hout, hinit⟩
      . exact hkept
      . have hbefore := mt h.2.1 hout
        rw [← AList.lookup_eq_none] at hbefore
        have hnone : (Run.exec (step capacity init update) empty inputs).value init k = init := by
          rw [value, hbefore, Option.getD_none]
        rw [hnone]
        exact hinit

-- The order lists the keys of the table, and they are no more than fit; the last touched always does.
structure Bounded (capacity : Nat) (t : Lru κ W) : Prop where
  order : t.order.Perm t.table.keys
  length_le : t.table.keys.length ≤ max 1 capacity

theorem bounded_empty : Bounded capacity (empty : Lru κ W) := by
  constructor
  . exact List.Perm.refl []
  . exact Nat.zero_le _

theorem Bounded.makeRoom {t : Lru κ W} (h : Bounded capacity t) (k : κ)
    : Bounded capacity (t.makeRoom capacity k)
        ∧ (k ∉ (t.makeRoom capacity k).table →
          (t.makeRoom capacity k).table.keys.length < max 1 capacity) := by
  have hentries : t.table.entries.length = t.table.keys.length := (List.length_map _).symm
  have hlength := h.order.length_eq
  have hle := h.length_le
  unfold Lru.makeRoom
  split
  . split
    . next hnil =>
      rw [hnil, List.length_nil] at hlength
      refine ⟨h, ?_⟩
      omega
    . next evict order hcons =>
      have horder := h.order
      rw [hcons, List.cons_perm_iff_perm_erase, ← AList.keys_erase] at horder
      have hlast := horder.2.length_eq
      rw [hcons, List.length_cons] at hlength
      refine ⟨⟨horder.2, ?_⟩, ?_⟩
      . dsimp only
        omega
      . dsimp only
        omega
  . next hroom =>
    refine ⟨h, ?_⟩
    intro hnew
    have : ¬capacity ≤ t.table.entries.length := fun hfull => hroom ⟨hnew, hfull⟩
    omega

theorem Bounded.touch {t : Lru κ W} (h : Bounded capacity t) (k : κ) (f : W → W)
    : Bounded capacity (t.touch capacity init k f) := by
  rcases h.makeRoom k with ⟨hroom, hnew⟩
  have hnodup : (t.makeRoom capacity k).order.Nodup :=
    hroom.order.nodup_iff.mpr (AList.keys_nodup _)
  have hfilter : (t.makeRoom capacity k).order.filter (· ≠ k) = (t.makeRoom capacity k).order.erase k := by
    rw [hnodup.erase_eq_filter]
    apply List.filter_congr
    intro x _
    rw [Bool.eq_iff_iff]
    simp
  have hle := hroom.length_le
  constructor
  . unfold Lru.touch
    dsimp only
    rw [AList.keys_insert, hfilter]
    exact (List.perm_append_singleton _ _).trans ((hroom.order.erase k).cons k)
  . unfold Lru.touch
    dsimp only
    rw [AList.keys_insert, List.length_cons]
    by_cases hk : k ∈ (t.makeRoom capacity k).table
    . have := List.length_erase_of_mem (AList.mem_keys.mp hk)
      have := List.length_pos_of_mem (AList.mem_keys.mp hk)
      omega
    . have := hnew hk
      have := List.length_erase_le (a := k) (l := (t.makeRoom capacity k).table.keys)
      omega

theorem bounded_run (inputs : List (κ × α))
    : Bounded capacity (Run.exec (step capacity init update) (empty : Lru κ W) inputs) := by
  apply (Run.always_of_step inputs bounded_empty _).last
  intro t input h
  exact h.touch _ _

-- The position of the last occurrence of a key, counted from one, and zero if there is none.
def lastAt (keys : List κ) (k : κ) : Nat :=
  keys.length - keys.reverse.idxOf k

theorem lastAt_le_length (keys : List κ) (k : κ) : lastAt keys k ≤ keys.length :=
  Nat.sub_le _ _

theorem lastAt_append (keys : List κ) (k k' : κ)
    : lastAt (keys ++ [k]) k' = if k = k' then keys.length + 1 else lastAt keys k' := by
  unfold lastAt
  rw [List.reverse_append, List.reverse_singleton, List.singleton_append, List.length_append,
    List.length_singleton]
  split
  . next heq => simp [heq]
  . next hne =>
    rw [List.idxOf_cons_ne _ hne]
    omega

-- The order lists the keys of the table once each, by when they were last touched.
structure Represents (capacity : Nat) (keys : List κ) (t : Lru κ W) : Prop where
  nodup : t.order.Nodup
  tracked : ∀ k, k ∈ t.order ↔ k ∈ t.table
  touched : ∀ k ∈ t.table, k ∈ keys
  ordered : t.order.Pairwise fun k k' => lastAt keys k < lastAt keys k'
  length_le : t.table.keys.length ≤ max 1 capacity

-- A key that a table loses was last touched before all others.
def LosesOldest (keys : List κ) (t t' : Lru κ W) : Prop :=
  ∀ lost ∈ t.table, lost ∉ t'.table → ∀ k ∈ t.table, k ≠ lost → lastAt keys lost < lastAt keys k

theorem order_makeRoom_sublist (t : Lru κ W) (k : κ) : (t.makeRoom capacity k).order.Sublist t.order := by
  unfold makeRoom
  split
  . split
    . exact List.Sublist.refl t.order
    . next evict order horder =>
      rw [horder]
      exact List.sublist_cons_self evict order
  . exact List.Sublist.refl t.order

theorem ordered_touch {keys : List κ} {t : Lru κ W}
    (h : t.order.Pairwise fun k k' => lastAt keys k < lastAt keys k') (k : κ) (f : W → W)
    : (t.touch capacity init k f).order.Pairwise
        fun k' k'' => lastAt (keys ++ [k]) k' < lastAt (keys ++ [k]) k'' := by
  have hlast {k' : κ} (hmem : k' ∈ (t.makeRoom capacity k).order.filter (· ≠ k))
      : lastAt (keys ++ [k]) k' = lastAt keys k' := by
    have hne : k' ≠ k := by simpa using (List.mem_filter.mp hmem).2
    rw [lastAt_append, if_neg hne.symm]
  unfold touch
  dsimp only
  rw [List.pairwise_append]
  refine ⟨?_, List.pairwise_singleton _ _, ?_⟩
  . have hkept : ((t.makeRoom capacity k).order.filter (· ≠ k)).Pairwise
        fun k' k'' => lastAt keys k' < lastAt keys k'' :=
      (h.sublist (order_makeRoom_sublist t k)).filter _
    apply hkept.imp_of_mem
    intro k' k'' hmem hmem' hlt
    rwa [hlast hmem, hlast hmem']
  . intro k' hmem k'' hk
    rw [List.mem_singleton.mp hk, hlast hmem, lastAt_append, if_pos rfl]
    exact Nat.lt_succ_of_le (lastAt_le_length keys k')

theorem ordered_run (inputs : List (κ × α))
    : (Run.exec (step capacity init update) (empty : Lru κ W) inputs).order.Pairwise
        fun k k' => lastAt (inputs.map (·.1)) k < lastAt (inputs.map (·.1)) k' := by
  induction inputs using List.reverseRecOn with
  | nil => exact List.Pairwise.nil
  | append_singleton inputs input ih =>
    rw [Run.exec_append, List.map_append]
    exact ordered_touch ih input.1 (update input.2)

theorem represents_run (inputs : List (κ × α))
    : (Run.exec (step capacity init update) (empty : Lru κ W) inputs).Represents capacity
        (inputs.map (·.1)) := by
  have hbounded : Bounded capacity (Run.exec (step capacity init update) (empty : Lru κ W) inputs) :=
    bounded_run inputs
  constructor
  . exact hbounded.order.nodup_iff.mpr (AList.keys_nodup _)
  . intro k
    rw [hbounded.order.mem_iff, AList.mem_keys]
  . intro k hk
    exact mem_run hk
  . exact ordered_run inputs
  . exact hbounded.length_le

-- Only making room takes a key out of the table, and it takes the first of the order.
theorem Represents.losesOldest {keys : List κ} {t : Lru κ W} (h : t.Represents capacity keys) (k : κ)
    (f : W → W)
    : LosesOldest keys t (t.touch capacity init k f) := by
  intro lost hlost hgone k' hk' hother
  have hroom : lost ∉ (t.makeRoom capacity k).table := by
    unfold touch at hgone
    rw [AList.mem_insert] at hgone
    exact fun hmem => hgone (Or.inr hmem)
  unfold makeRoom at hroom
  split at hroom
  . split at hroom
    . contradiction
    . next evict order horder =>
      have hevict : lost = evict := by
        by_contra hne
        exact hroom (AList.mem_erase.mpr ⟨hne, hlost⟩)
      have hordered := h.ordered
      rw [horder, List.pairwise_cons] at hordered
      have hin := (h.tracked k').mpr hk'
      rw [horder, List.mem_cons] at hin
      subst hevict
      exact hordered.1 k' (hin.resolve_left hother)
  . contradiction

def Forall (P : W → Prop) (t : Lru κ W) : Prop :=
  ∀ e ∈ t.table.entries, P e.2

variable {P : W → Prop}

theorem Forall.value {t : Lru κ W} (h : Forall P t) (hinit : P init) (k : κ) : P (t.value init k) := by
  unfold Lru.value
  cases hlookup : t.table.lookup k with
  | none => exact hinit
  | some w => exact h ⟨k, w⟩ (AList.mem_lookup_iff.mp hlookup)

theorem Forall.touch {t : Lru κ W} (h : Forall P t) (k : κ) {f : W → W} (hf : P (f (t.value init k)))
    : Forall P (t.touch capacity init k f) := by
  have hroom : Forall P (t.makeRoom capacity k) := by
    intro e he
    unfold makeRoom at he
    split at he
    . split at he
      . exact h e he
      . exact h e ((List.kerase_sublist _ _).subset he)
    . exact h e he
  intro e he
  unfold Lru.touch at he
  rw [AList.entries_insert, value_makeRoom_self] at he
  rcases List.mem_cons.mp he with rfl | hmem
  . exact hf
  . exact hroom e ((List.kerase_sublist _ _).subset hmem)

theorem forall_run (hinit : P init) (hupdate : ∀ a w, P w → P (update a w)) (inputs : List (κ × α))
    : Forall P (Run.exec (step capacity init update) (empty : Lru κ W) inputs) := by
  have hempty : Forall P (empty : Lru κ W) := by simp [Forall, empty]
  apply (Run.always_of_step inputs hempty _).last
  intro t input h
  exact h.touch _ (hupdate _ _ (h.value hinit _))

-- The size of all values in the table.
def stored (size : W → Nat) (t : Lru κ W) : Nat :=
  (t.table.entries.map fun e => size e.2).sum

theorem stored_le {size : W → Nat} {t : Lru κ W} {n : Nat} (h : Forall (size · ≤ n) t)
    : t.stored size ≤ t.table.keys.length * n := by
  have hsum := List.sum_le_card_nsmul (t.table.entries.map fun e => size e.2) n
  have hkeys : t.table.entries.length = t.table.keys.length := (List.length_map _).symm
  rw [List.length_map, smul_eq_mul, hkeys] at hsum
  apply hsum
  intro x hx
  rcases List.mem_map.mp hx with ⟨e, he, rfl⟩
  exact h e he

theorem size_value_le_stored (size : W → Nat) (t : Lru κ W) (k : κ) (hinit : size init = 0)
    : size (t.value init k) ≤ t.stored size := by
  unfold value stored
  cases hlookup : t.table.lookup k with
  | none =>
    rw [Option.getD_none, hinit]
    exact Nat.zero_le _
  | some w =>
    apply List.le_sum_of_mem
    exact List.mem_map_of_mem (f := fun e : Sigma fun _ : κ => W => size e.2) (AList.mem_lookup_iff.mp hlookup)

end Lru
