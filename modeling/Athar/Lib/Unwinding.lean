import Mathlib.Data.List.Forall2
import Athar.Lib.Run

/-!
This module contains the unwinding of a noninterference property. An observer sees the outputs of
some inputs only. If every visible input moves a run and its purged run, in which only the visible
inputs happen, in the same way, and no other input moves what the observer can see, then the whole
run and the purged run look the same.
-/

namespace Unwinding

variable {σ ι ο : Type*}

def next (step : σ → ι → σ × ο) (s : σ) (i : ι) : σ :=
  (step s i).1

-- The outputs that the observer sees.
def outputs (step : σ → ι → σ × ο) (visible : ι → Bool) : σ → List ι → List ο
  | _, [] => []
  | s, i :: is =>
    if visible i then
      (step s i).2 :: outputs step visible (step s i).1 is
    else
      outputs step visible (step s i).1 is

variable {step : σ → ι → σ × ο} {visible : ι → Bool} {whole : List ι}

theorem outputs_cons_of_visible {i : ι} (h : visible i = true) (s : σ) (is : List ι)
    : outputs step visible s (i :: is)
        = (step s i).2 :: outputs step visible (next step s i) is := by
  rw [outputs, if_pos h]
  rfl

theorem outputs_cons_of_hidden {i : ι} (h : visible i = false) (s : σ) (is : List ι)
    : outputs step visible s (i :: is) = outputs step visible (next step s i) is := by
  rw [outputs, h]
  rfl

/--
The run and its purged run keep looking the same, and give the observer the same outputs.
-/
theorem purge {View : σ → σ → Prop} {Pre : σ → ι → Prop} {s t : σ} {is : List ι}
    (hpre : Run.Guarded (next step) Pre s is) (hview : View s t)
    (hvisible : ∀ s t i, Pre s i → visible i = true → View s t →
      View (next step s i) (next step t i) ∧ (step s i).2 = (step t i).2)
    (hhidden : ∀ s t i, Pre s i → visible i = false → View s t → View (next step s i) t)
    : View (Run.exec (next step) s is) (Run.exec (next step) t (is.filter visible))
      ∧ outputs step visible s is = outputs step visible t (is.filter visible) := by
  induction is generalizing s t with
  | nil => exact ⟨hview, rfl⟩
  | cons i is ih =>
    rw [Run.guarded_cons] at hpre
    cases hi : visible i with
    | true =>
      rcases hvisible s t i hpre.1 hi hview with ⟨hnext, hout⟩
      rcases ih hpre.2 hnext with ⟨hexec, houts⟩
      rw [List.filter_cons_of_pos hi]
      rw [outputs_cons_of_visible hi, outputs_cons_of_visible hi, hout, houts]
      exact ⟨hexec, rfl⟩
    | false =>
      have hskip : ¬visible i = true := by
        rw [hi]
        exact Bool.false_ne_true
      rw [List.filter_cons_of_neg hskip, outputs_cons_of_hidden hi]
      exact ih hpre.2 (hhidden s t i hpre.1 hi hview)

-- The visible inputs of a run, each with the inputs before it.
def positions (visible : ι → Bool) : List ι → List ι → List (List ι × ι)
  | _, [] => []
  | past, i :: is =>
    if visible i then
      (past, i) :: positions visible (past ++ [i]) is
    else
      positions visible (past ++ [i]) is

theorem positions_cons_of_visible {i : ι} (h : visible i = true) (past is : List ι)
    : positions visible past (i :: is) = (past, i) :: positions visible (past ++ [i]) is := by
  rw [positions, if_pos h]

theorem positions_cons_of_hidden {i : ι} (h : visible i = false) (past is : List ι)
    : positions visible past (i :: is) = positions visible (past ++ [i]) is := by
  rw [positions, h]
  rfl

theorem positions_map_snd (past is : List ι)
    : (positions visible past is).map (·.2) = is.filter visible := by
  induction is generalizing past with
  | nil => rfl
  | cons i is ih =>
    cases hi : visible i with
    | true => rw [positions_cons_of_visible hi, List.map_cons, ih, List.filter_cons_of_pos hi]
    | false => rw [positions_cons_of_hidden hi, ih, List.filter_cons_of_neg (by simp [hi])]

-- What the visible inputs have seen of each other is the same in every run that contains them.
theorem positions_map_filter (visible : ι → Bool) (past is : List ι)
    : (positions visible past is).map (fun p => (p.1.filter visible, p.2))
        = positions (fun _ => true) (past.filter visible) (is.filter visible) := by
  induction is generalizing past with
  | nil => rfl
  | cons i is ih =>
    cases hi : visible i with
    | true =>
      rw [positions_cons_of_visible hi, List.map_cons, ih, List.filter_cons_of_pos hi,
        positions_cons_of_visible rfl, List.filter_append, List.filter_cons_of_pos hi, List.filter_nil]
    | false =>
      have hskip : ¬visible i = true := by
        rw [hi]
        exact Bool.false_ne_true
      rw [positions_cons_of_hidden hi, ih, List.filter_cons_of_neg hskip, List.filter_append,
        List.filter_cons_of_neg hskip, List.filter_nil, List.append_nil]

theorem mem_of_mem_positions {past is : List ι} {p : List ι × ι}
    (h : p ∈ positions visible past is) : p.1 ⊆ past ++ is ∧ p.2 ∈ is ∧ visible p.2 = true := by
  induction is generalizing past with
  | nil => contradiction
  | cons i is ih =>
    have hrest : p ∈ positions visible (past ++ [i]) is →
        p.1 ⊆ past ++ i :: is ∧ p.2 ∈ i :: is ∧ visible p.2 = true := by
      intro hp
      have hih := ih hp
      rw [← List.append_cons] at hih
      exact ⟨hih.1, List.mem_cons_of_mem i hih.2.1, hih.2.2⟩
    unfold positions at h
    split at h
    . next hi =>
      rcases List.mem_cons.mp h with rfl | hp
      . exact ⟨List.subset_append_left _ _, List.mem_cons_self, hi⟩
      . exact hrest hp
    . exact hrest h

-- A system whose state remembers the inputs so far, and that answers by what they were.
theorem outputs_eq_positions {Remembers : List ι → σ → Prop} {report : List ι → ι → ο}
    {past is : List ι} {s : σ} (hinit : Remembers past s)
    (hstep : ∀ past i s, Remembers past s → past ++ [i] <+: whole →
      Remembers (past ++ [i]) (next step s i) ∧ (step s i).2 = report past i)
    (hpast : past ++ is <+: whole)
    : outputs step visible s is = (positions visible past is).map fun p => report p.1 p.2 := by
  induction is generalizing past s with
  | nil => rfl
  | cons i is ih =>
    rw [List.append_cons] at hpast
    rcases hstep past i s hinit ((List.prefix_append _ _).trans hpast) with ⟨hnext, hout⟩
    have hrest := ih hnext hpast
    unfold positions
    cases hi : visible i with
    | true =>
      rw [outputs_cons_of_visible hi, hout, hrest]
      rfl
    | false =>
      rw [outputs_cons_of_hidden hi, hrest]
      rfl

-- Two runs with the same visible inputs answer alike if and only if their answers agree one by one.
theorem map_positions_eq_iff {report : List ι → ι → ο} {Agrees : List ι → List ι → ι → Prop}
    (hagrees : ∀ past past' i, report past i = report past' i ↔ Agrees past past' i)
    {past past' is js : List ι} (hsame : is.filter visible = js.filter visible)
    : (positions visible past is).map (fun p => report p.1 p.2)
          = (positions visible past' js).map (fun p => report p.1 p.2)
        ↔ List.Forall₂ (fun p q => Agrees p.1 q.1 p.2) (positions visible past is)
          (positions visible past' js) := by
  rw [← positions_map_snd past is, ← positions_map_snd past' js] at hsame
  generalize positions visible past is = ps at hsame ⊢
  generalize positions visible past' js = qs at hsame ⊢
  induction ps generalizing qs with
  | nil =>
    cases qs with
    | nil => simp
    | cons q qs => simp at hsame
  | cons p ps ih =>
    cases qs with
    | nil => simp at hsame
    | cons q qs =>
      rw [List.map_cons, List.map_cons, List.cons.injEq] at hsame
      rw [List.map_cons, List.map_cons, List.cons.injEq, List.forall₂_cons, ih qs hsame.2, hsame.1,
        hagrees]

end Unwinding
