import Mathlib.Data.Set.Basic
import Mathlib.Data.List.Induction

/-!
This module contains hash chains over an arbitrary type of links. A link carries the hash it extends,
its own hash and a sequence number. A run of links is linked from an anchor when every link extends
the hash of the link before it, carries the hash computed from its contents, and is numbered one
after the other.
-/

structure HashChain (α η κ : Type*) where
  prev : α → η
  hash : α → η
  compute : α → η
  seq : α → κ
  succ : κ → κ

namespace HashChain

variable {α η κ : Type*} (C : HashChain α η κ)

def Linked : η → κ → List α → Prop
  | _, _, [] => True
  | p, n, a :: as => C.prev a = p ∧ C.seq a = n ∧ C.compute a = C.hash a
      ∧ Linked (C.hash a) (C.succ n) as

def tip (p : η) (as : List α) : η :=
  (as.getLast?.map C.hash).getD p

def nextSeq (n : κ) (as : List α) : κ :=
  C.succ^[as.length] n

variable {C}

@[simp]
theorem linked_nil (p : η) (n : κ) : C.Linked p n [] := by
  trivial

@[simp]
theorem linked_cons (p : η) (n : κ) (a : α) (as : List α)
    : C.Linked p n (a :: as) ↔ C.prev a = p ∧ C.seq a = n ∧ C.compute a = C.hash a
        ∧ C.Linked (C.hash a) (C.succ n) as := by
  rfl

@[simp]
theorem tip_nil (p : η) : C.tip p [] = p := by
  rfl

@[simp]
theorem tip_cons (p : η) (a : α) (as : List α) : C.tip p (a :: as) = C.tip (C.hash a) as := by
  simp only [tip, List.getLast?_cons]
  cases as.getLast? <;> rfl

@[simp]
theorem nextSeq_nil (n : κ) : C.nextSeq n [] = n := by
  rfl

@[simp]
theorem nextSeq_cons (n : κ) (a : α) (as : List α)
    : C.nextSeq n (a :: as) = C.nextSeq (C.succ n) as := by
  rfl

theorem tip_append (p : η) (as bs : List α) : C.tip p (as ++ bs) = C.tip (C.tip p as) bs := by
  induction as generalizing p with
  | nil => rfl
  | cons a as ih => simp [ih]

theorem tip_eq_of_ne_nil (p q : η) {as : List α} (h : as ≠ []) : C.tip p as = C.tip q as := by
  cases as with
  | nil => contradiction
  | cons a as => simp

theorem nextSeq_append (n : κ) (as bs : List α)
    : C.nextSeq n (as ++ bs) = C.nextSeq (C.nextSeq n as) bs := by
  induction as generalizing n with
  | nil => rfl
  | cons a as ih => simp [ih]

theorem linked_append (p : η) (n : κ) (as bs : List α)
    : C.Linked p n (as ++ bs)
        ↔ C.Linked p n as ∧ C.Linked (C.tip p as) (C.nextSeq n as) bs := by
  induction as generalizing p n with
  | nil => simp
  | cons a as ih => simp [ih, and_assoc]

theorem Linked.compute_eq {p : η} {n : κ} {as : List α} (h : C.Linked p n as)
    : ∀ a ∈ as, C.compute a = C.hash a := by
  induction as generalizing p n with
  | nil => simp
  | cons a as ih =>
    rw [linked_cons] at h
    intro b hb
    cases List.mem_cons.mp hb with
    | inl heq => rw [heq]; exact h.2.2.1
    | inr hmem => exact ih h.2.2.2 b hmem

theorem Linked.eq_of_cons {p q : η} {n m : κ} {a : α} {as : List α} (h : C.Linked q m (a :: as))
    : C.Linked p n (a :: as) ↔ C.prev a = p ∧ C.seq a = n := by
  rw [linked_cons] at h ⊢
  rcases h with ⟨_, rfl, hrest⟩
  constructor
  . rintro ⟨hprev, hseq, _⟩
    exact ⟨hprev, hseq⟩
  . rintro ⟨hprev, rfl⟩
    exact ⟨hprev, rfl, hrest⟩

theorem linked_iff_isChain {as : List α} (hcompute : ∀ a ∈ as, C.compute a = C.hash a) (p : η)
    (n : κ)
    : C.Linked p n as ↔ (∀ a ∈ as.head?, C.prev a = p ∧ C.seq a = n)
        ∧ as.IsChain (fun a b => C.prev b = C.hash a ∧ C.seq b = C.succ (C.seq a)) := by
  induction as generalizing p n with
  | nil => simp
  | cons a as ih =>
    have hcomputeTail : ∀ b ∈ as, C.compute b = C.hash b := by
      intro b hb
      exact hcompute b (by simp [hb])
    rw [linked_cons, ih hcomputeTail]
    cases as with
    | nil => simp [hcompute a]
    | cons b bs =>
      simp only [List.head?_cons, Option.mem_def, Option.some.injEq, forall_eq',
        List.isChain_cons_cons, hcompute a List.mem_cons_self, true_and]
      constructor
      . rintro ⟨rfl, rfl, hb, hchain⟩
        exact ⟨⟨rfl, rfl⟩, hb, hchain⟩
      . rintro ⟨⟨rfl, rfl⟩, hb, hchain⟩
        exact ⟨rfl, rfl, hb, hchain⟩

theorem Linked.last_seq {p : η} {n : κ} {as : List α} {last : α} (hlast : as.getLast? = some last)
    (h : C.Linked p n as) : C.succ (C.seq last) = C.nextSeq n as := by
  rcases List.getLast?_eq_some_iff.mp hlast with ⟨init, rfl⟩
  rw [linked_append, linked_cons] at h
  rw [nextSeq_append, ← h.2.2.1]
  rfl

theorem Linked.map_seq {p : η} {n : κ} {as : List α} (h : C.Linked p n as)
    : as.map C.seq = (List.range as.length).map (fun i => C.succ^[i] n) := by
  induction as generalizing p n with
  | nil => rfl
  | cons a as ih =>
    rw [linked_cons] at h
    rcases h with ⟨_, hseq, _, hrest⟩
    rw [List.map_cons, List.length_cons, List.range_succ_eq_map, ih hrest, hseq, List.map_cons,
      List.map_map]
    rfl

/--
Known links whose predecessors are known again vouch for a whole run: if the tip is the hash of a
known link, and equal hashes mean equal previous hashes, then every link of the run has the hash of
a known link. `root` is the hash a known chain may start from, which no link has.
-/
theorem Linked.hash_mem_of_tip_mem {known : Set α} {root : η} {p : η} {n : κ} {as : List α}
    (hknown : ∀ a ∈ known, C.prev a = root ∨ ∃ b ∈ known, C.hash b = C.prev a)
    (hroot : ∀ a ∈ as, C.hash a ≠ root)
    (hprev : ∀ a ∈ as, ∀ b ∈ known, C.hash a = C.hash b → C.prev a = C.prev b)
    (hlinked : C.Linked p n as) (htip : as ≠ [] → ∃ b ∈ known, C.hash b = C.tip p as)
    : ∀ a ∈ as, ∃ b ∈ known, C.hash b = C.hash a := by
  induction as using List.reverseRecOn with
  | nil => simp
  | append_singleton as a ih =>
    rw [linked_append, linked_cons] at hlinked
    rcases hlinked with ⟨hinit, hprevEq, _⟩
    rcases htip (by simp) with ⟨b, hb, hhash⟩
    have hab : C.hash b = C.hash a := by
      simpa [tip_append] using hhash
    have hpreda : C.prev b = C.tip p as := by
      rw [← hprevEq]
      exact (hprev a (by simp) b hb hab.symm).symm
    have hinitMem : ∀ x ∈ as, ∃ b ∈ known, C.hash b = C.hash x := by
      apply ih
      . intro x hx
        exact hroot x (by simp [hx])
      . intro x hx
        exact hprev x (by simp [hx])
      . exact hinit
      . intro hne
        cases hknown b hb with
        | inl hstart =>
          -- The known chain starts here, but the run goes on: its last hash would be the root.
          rcases List.eq_nil_or_concat as with hnil | ⟨init, last, rfl⟩
          . contradiction
          . exfalso
            apply hroot last (by simp)
            rw [← hstart, hpreda]
            simp [tip_append]
        | inr hpred =>
          rcases hpred with ⟨b', hb', hb'hash⟩
          exact ⟨b', hb', by rw [hb'hash, hpreda]⟩
    intro x hx
    cases List.mem_append.mp hx with
    | inl hmem => exact hinitMem x hmem
    | inr hmem =>
      have : x = a := by simpa using hmem
      exact ⟨b, hb, by rw [this, hab]⟩

end HashChain
