import Mathlib.Data.List.Infix

/-!
This module contains runs of deterministic step functions: a run feeds a list of inputs to a step
function one after the other. Safety properties of runs come in two shapes, a predicate that holds
in every state reached (`Run.Always`) and a condition that every single step meets in the state it
is taken from (`Run.Guarded`).
-/

namespace Run

variable {σ ι : Type*}

def exec (step : σ → ι → σ) (s : σ) (inputs : List ι) : σ :=
  inputs.foldl step s

def Always (step : σ → ι → σ) (P : σ → Prop) (s : σ) (inputs : List ι) : Prop :=
  ∀ pre, pre <+: inputs → P (exec step s pre)

def Guarded (step : σ → ι → σ) (G : σ → ι → Prop) (s : σ) (inputs : List ι) : Prop :=
  ∀ pre i, pre ++ [i] <+: inputs → G (exec step s pre) i

-- From every state of the run, whatever the run does next is related to it.
def Stable (step : σ → ι → σ) (R : σ → σ → Prop) (s : σ) (inputs : List ι) : Prop :=
  ∀ pre post, pre ++ post <+: inputs → R (exec step s pre) (exec step s (pre ++ post))

variable {step : σ → ι → σ} {P I : σ → Prop} {G : σ → ι → Prop}

@[simp]
theorem exec_nil (s : σ) : exec step s [] = s := by
  rfl

@[simp]
theorem exec_cons (s : σ) (i : ι) (is : List ι) : exec step s (i :: is) = exec step (step s i) is := by
  rfl

@[simp]
theorem exec_append (s : σ) (is js : List ι)
    : exec step s (is ++ js) = exec step (exec step s is) js := by
  simp [exec]

@[simp]
theorem always_nil (s : σ) : Always step P s [] ↔ P s := by
  simp [Always]

@[simp]
theorem always_cons (s : σ) (i : ι) (is : List ι)
    : Always step P s (i :: is) ↔ P s ∧ Always step P (step s i) is := by
  constructor
  . intro h
    constructor
    . exact h [] (by simp)
    . intro pre hpre
      exact h (i :: pre) (by simpa using hpre)
  . rintro ⟨hs, h⟩ pre hpre
    cases pre with
    | nil => exact hs
    | cons j pre =>
      rw [List.cons_prefix_cons] at hpre
      rcases hpre with ⟨rfl, hpre⟩
      exact h pre hpre

@[simp]
theorem guarded_nil (s : σ) : Guarded step G s [] := by
  intro pre i h
  simp at h

@[simp]
theorem guarded_cons (s : σ) (i : ι) (is : List ι)
    : Guarded step G s (i :: is) ↔ G s i ∧ Guarded step G (step s i) is := by
  constructor
  . intro h
    constructor
    . exact h [] i (by simp)
    . intro pre j hpre
      exact h (i :: pre) j (by simpa using hpre)
  . rintro ⟨hs, h⟩ pre j hpre
    cases pre with
    | nil =>
      have hj : j = i := by simpa using hpre
      subst hj
      exact hs
    | cons k pre =>
      rw [List.cons_append, List.cons_prefix_cons] at hpre
      rcases hpre with ⟨rfl, hpre⟩
      exact h pre j hpre

theorem Always.last {s : σ} {is : List ι} (h : Always step P s is) : P (exec step s is) :=
  h is (List.prefix_refl is)

theorem Always.mono {Q : σ → Prop} {s : σ} {is : List ι} (hPQ : ∀ s, P s → Q s)
    (h : Always step P s is) : Always step Q s is := by
  intro pre hpre
  exact hPQ _ (h pre hpre)

-- What is lost for good once it is lost holds along a run if it holds at its end.
theorem always_iff_last {s : σ} {is : List ι} (hI : Always step I s is)
    (hlost : ∀ s i, I s → ¬P s → ¬P (step s i)) : Always step P s is ↔ P (exec step s is) := by
  constructor
  . exact Always.last
  . rintro h pre ⟨post, rfl⟩
    rw [exec_append] at h
    by_contra hpre
    induction post generalizing pre with
    | nil => exact hpre h
    | cons i post ih =>
      have hsplit : pre ++ i :: post = (pre ++ [i]) ++ post := by simp
      rw [hsplit] at hI
      apply ih (pre ++ [i]) hI
      . simpa using h
      . rw [exec_append]
        apply hlost _ i _ hpre
        exact hI pre ((List.prefix_append pre [i]).trans (List.prefix_append _ post))

theorem exec_flatten (s : σ) (iss : List (List ι)) : exec (exec step) s iss = exec step s iss.flatten := by
  induction iss generalizing s with
  | nil => rfl
  | cons is iss ih => rw [exec_cons, ih, List.flatten_cons, exec_append]

-- A run in batches is seen between the batches only.
theorem always_flatten_iff {s : σ} {iss : List (List ι)} (hI : Always step I s iss.flatten)
    (hlost : ∀ s i, I s → ¬P s → ¬P (step s i))
    : Always (exec step) P s iss ↔ Always step P s iss.flatten := by
  constructor
  . intro h
    rw [always_iff_last hI hlost, ← exec_flatten]
    exact h.last
  . rintro h pre ⟨post, rfl⟩
    rw [exec_flatten]
    apply h
    rw [List.flatten_append]
    apply List.prefix_append

theorem always_of_guarded {s : σ} {is : List ι} (hinit : I s)
    (hstep : ∀ s i, I s → G s i → I (step s i)) (h : Guarded step G s is)
    : Always step I s is := by
  induction is generalizing s with
  | nil => simpa using hinit
  | cons i is ih =>
    rw [guarded_cons] at h
    rw [always_cons]
    exact ⟨hinit, ih (hstep s i hinit h.1) h.2⟩

theorem always_of_step {s : σ} (is : List ι) (hinit : I s) (hstep : ∀ s i, I s → I (step s i))
    : Always step I s is := by
  apply always_of_guarded (G := fun _ _ => True) hinit
  . intro s i hs _
    exact hstep s i hs
  . intro _ _ _
    trivial

-- Runs of two systems side by side: every step of the first is matched by one of the second.
theorem exec_simulates {τ κ : Type*} {step' : τ → κ → τ} {R : σ → τ → Prop} {f : ι → κ}
    {ok : ι → Prop} {s : σ} {t : τ} {is : List ι} (hinit : R s t)
    (hstep : ∀ s t i, R s t → ok i → R (step s i) (step' t (f i))) (hok : ∀ i ∈ is, ok i)
    : R (exec step s is) (exec step' t (is.map f)) := by
  induction is generalizing s t with
  | nil => exact hinit
  | cons i is ih =>
    have hhead : R (step s i) (step' t (f i)) := by
      apply hstep
      . exact hinit
      . exact hok i (by simp)
    apply ih hhead
    intro j hj
    exact hok j (by simp [hj])

-- Inputs that a relation between states does not see can be left out of a run.
theorem exec_filter {R : σ → σ → Prop} {p : ι → Bool} {s t : σ} {is : List ι} (hinit : R s t)
    (hstep : ∀ s t i, R s t → p i = true → R (step s i) (step t i))
    (hskip : ∀ s t, ∀ i ∈ is, R s t → p i = false → R s (step t i))
    : R (exec step s (is.filter p)) (exec step t is) := by
  induction is generalizing s t with
  | nil => exact hinit
  | cons i is ih =>
    have htail : ∀ s t, ∀ j ∈ is, R s t → p j = false → R s (step t j) := by
      intro s t j hj
      exact hskip s t j (List.mem_cons_of_mem i hj)
    cases hp : p i with
    | true =>
      rw [List.filter_cons_of_pos hp]
      exact ih (hstep s t i hinit hp) htail
    | false =>
      rw [List.filter_cons_of_neg (by simp [hp])]
      exact ih (hskip s t i (by simp) hinit hp) htail

theorem Always.guard {s : σ} {is : List ι} (h : Always step I s is)
    (hG : Guarded step G s is) : Guarded step (fun s i => I s ∧ G s i) s is := by
  intro pre i hpre
  exact ⟨h pre ((List.prefix_append pre [i]).trans hpre), hG pre i hpre⟩

theorem Guarded.and {H : σ → ι → Prop} {s : σ} {is : List ι} (hG : Guarded step G s is)
    (hH : Guarded step H s is) : Guarded step (fun s i => G s i ∧ H s i) s is := by
  intro pre i hpre
  exact ⟨hG pre i hpre, hH pre i hpre⟩

theorem guarded_and {H : σ → ι → Prop} {s : σ} {is : List ι}
    : Guarded step (fun s i => G s i ∧ H s i) s is ↔ Guarded step G s is ∧ Guarded step H s is := by
  constructor
  . intro h
    exact ⟨fun pre i hpre => (h pre i hpre).1, fun pre i hpre => (h pre i hpre).2⟩
  . rintro ⟨hG, hH⟩
    exact hG.and hH

theorem Guarded.imp {H : σ → ι → Prop} {s : σ} {is : List ι} (h : ∀ s i, G s i → H s i)
    (hG : Guarded step G s is) : Guarded step H s is := by
  intro pre i hpre
  exact h _ i (hG pre i hpre)

-- Two conditions that agree on the steps of a run.
theorem guarded_congr {D H : σ → ι → Prop} {s : σ} {is : List ι} (hD : Guarded step D s is)
    (h : ∀ s i, D s i → (G s i ↔ H s i)) : Guarded step G s is ↔ Guarded step H s is := by
  constructor
  . intro hG pre i hpre
    exact (h _ i (hD pre i hpre)).mp (hG pre i hpre)
  . intro hH pre i hpre
    exact (h _ i (hD pre i hpre)).mpr (hH pre i hpre)

-- What always holds holds after every step.
theorem Always.after {s : σ} {is : List ι} (h : Always step P s is)
    : Guarded step (fun s i => P (step s i)) s is := by
  intro pre i hpre
  have hnext := h (pre ++ [i]) hpre
  rwa [exec_append, exec_cons, exec_nil] at hnext

theorem guarded_mem (s : σ) (is : List ι) : Guarded step (fun _ i => i ∈ is) s is := by
  intro pre i hpre
  exact hpre.subset (List.mem_append_right pre (List.mem_singleton_self i))

theorem Guarded.of_forall {s : σ} (is : List ι) (h : ∀ s i, G s i) : Guarded step G s is := by
  intro pre i _
  exact h _ i

-- Inputs that bring keys of their own are fresh in every state they reach.
theorem guarded_fresh {κ : Type*} {keys : ι → List κ} {seen : σ → List κ} {s : σ} {is : List ι}
    (hseen : ∀ s i, seen (step s i) = seen s ++ keys i)
    (h : (seen s ++ is.flatMap keys).Nodup)
    : Guarded step (fun s i => ∀ k ∈ keys i, k ∉ seen s) s is := by
  induction is generalizing s with
  | nil => simp
  | cons i is ih =>
    rw [guarded_cons]
    rw [List.flatMap_cons, ← List.append_assoc] at h
    constructor
    . intro k hk hmem
      have hdisjoint := (List.nodup_append.mp (List.nodup_append.mp h).1).2.2
      exact hdisjoint k hmem k hk rfl
    . apply ih
      rw [hseen]
      exact h

/--
When guarded steps preserve an invariant that implies `P`, and the first step that is not guarded
makes `P` false, then the runs along which `P` always holds are exactly the guarded ones. What the
inputs of the run are known to meet is `D`.
-/
theorem always_iff_guarded_of_guarded {D : σ → ι → Prop} {s : σ} {is : List ι}
    (hD : Guarded step D s is) (hinit : I s)
    (hstep : ∀ s i, I s → D s i → G s i → I (step s i)) (hP : ∀ s, I s → P s)
    (hbreak : ∀ s i, I s → D s i → ¬G s i → ¬P (step s i))
    : Always step P s is ↔ Guarded step G s is := by
  induction is generalizing s with
  | nil => simpa using hP s hinit
  | cons i is ih =>
    rw [guarded_cons] at hD
    rw [always_cons, guarded_cons]
    by_cases hG : G s i
    . rw [ih hD.2 (hstep s i hinit hD.1 hG)]
      constructor
      . intro h
        exact ⟨hG, h.2⟩
      . intro h
        exact ⟨hP s hinit, h.2⟩
    . constructor
      . intro h
        exact absurd (h.2 [] (by simp)) (hbreak s i hinit hD.1 hG)
      . intro h
        exact absurd h.1 hG

theorem always_iff_guarded {s : σ} {is : List ι} (hinit : I s)
    (hstep : ∀ s i, I s → G s i → I (step s i)) (hP : ∀ s, I s → P s)
    (hbreak : ∀ s i, I s → ¬G s i → ¬P (step s i))
    : Always step P s is ↔ Guarded step G s is := by
  have htrue : Guarded step (fun _ _ => True) s is := Guarded.of_forall is (fun _ _ => trivial)
  apply always_iff_guarded_of_guarded htrue hinit
  . intro s i hI _ hG
    exact hstep s i hI hG
  . exact hP
  . intro s i hI _ hG
    exact hbreak s i hI hG

theorem Guarded.append {s : σ} {is js : List ι}
    : Guarded step G s (is ++ js) ↔ Guarded step G s is ∧ Guarded step G (exec step s is) js := by
  induction is generalizing s with
  | nil => simp
  | cons i is ih => simp [ih, and_assoc]

/--
A preorder that exactly the guarded steps respect holds between all states of a run, in their order,
if and only if the run is guarded.
-/
theorem stable_iff_guarded {R : σ → σ → Prop} {s : σ} {is : List ι} (hinit : I s)
    (hI : ∀ s i, I s → I (step s i)) (hrefl : ∀ s, R s s)
    (htrans : ∀ s t u, R s t → R t u → R s u) (hstep : ∀ s i, I s → G s i → R s (step s i))
    (hbreak : ∀ s i, I s → ¬G s i → ¬R s (step s i))
    : Stable step R s is ↔ Guarded step G s is := by
  have hInv : ∀ pre, pre <+: is → I (exec step s pre) := always_of_step is hinit hI
  constructor
  . intro h pre i hpre
    by_contra hG
    apply hbreak _ i (hInv pre ((List.prefix_append pre [i]).trans hpre)) hG
    simpa using h pre [i] hpre
  . intro h pre post hpost
    induction post using List.reverseRecOn with
    | nil =>
      rw [List.append_nil]
      exact hrefl _
    | append_singleton post i ih =>
      rw [← List.append_assoc] at hpost ⊢
      have hprefix := (List.prefix_append (pre ++ post) [i]).trans hpost
      have hlast := hstep _ i (hInv _ hprefix) (h (pre ++ post) i hpost)
      rw [exec_append, exec_cons, exec_nil]
      exact htrans _ _ _ (ih hprefix) hlast

end Run
