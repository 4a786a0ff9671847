import Mathlib.Data.Finset.Card
import Mathlib.Data.Finset.Dedup
import Mathlib.Data.List.Count
import Mathlib.Data.List.Induction
import Mathlib.Data.List.Pairwise

/-!
This module contains two ways to remember only what is recent in a log. A window is pruned from its
front, which takes all that is stale away if nothing stale stands behind something that is not. A table
of keys with the times they were last seen is pruned as a whole, and when it is full, the key that was
not seen for the longest time makes room: what it holds are the keys seen most recently.
-/

namespace Recent

section Window

variable {α : Type*} (stale : α → Bool)

theorem countP_dropWhile (window : List α)
    : (window.dropWhile stale).countP (!stale ·) = window.countP (!stale ·) := by
  induction window with
  | nil => rfl
  | cons x window ih =>
    rw [List.dropWhile_cons]
    split
    . next h => simp [ih, h]
    . rfl

theorem length_dropWhile (window : List α)
    : (window.dropWhile stale).length
        = window.countP (!stale ·) + (window.dropWhile stale).countP stale := by
  have hlength := List.length_eq_countP_add_countP stale (l := window.dropWhile stale)
  simp only [Bool.not_eq_true, ← Bool.not_eq_true', Bool.decide_eq_true] at hlength
  rw [hlength, countP_dropWhile, Nat.add_comm]

theorem countP_dropWhile_of_pairwise {window : List α}
    (h : window.Pairwise fun x y => stale y = true → stale x = true)
    : (window.dropWhile stale).countP stale = 0 := by
  induction window with
  | nil => rfl
  | cons x window ih =>
    rw [List.pairwise_cons] at h
    rw [List.dropWhile_cons]
    split
    . exact ih h.2
    . next hx =>
      rw [List.countP_eq_zero]
      intro y hy hstale
      rcases List.mem_cons.mp hy with rfl | hmem
      . exact hx hstale
      . exact hx (h.1 y hmem hstale)

-- A window in order is pruned from its front as it would be as a whole.
theorem dropWhile_eq_filter {window : List α} (h : window.Pairwise fun x y => stale y = true → stale x = true)
    : window.dropWhile stale = window.filter (!stale ·) := by
  induction window with
  | nil => rfl
  | cons x window ih =>
    rw [List.pairwise_cons] at h
    rw [List.dropWhile_cons, List.filter_cons]
    cases hx : stale x with
    | true => simpa using ih h.2
    | false =>
      have hall : window.filter (!stale ·) = window := by
        rw [List.filter_eq_self]
        intro y hy
        rw [Bool.not_eq_true', ← Bool.not_eq_true]
        intro hstale
        rw [h.1 y hy hstale] at hx
        contradiction
      simp [hall]

end Window

section Keys

variable {κ : Type*} [DecidableEq κ]

def lastSeen (log : List (κ × ℕ)) (k : κ) : Option ℕ :=
  ((log.filter (·.1 = k)).getLast?).map (·.2)

-- The keys that were last seen at the cutoff or after it.
def current (log : List (κ × ℕ)) (cutoff : ℕ) : Finset κ :=
  (log.map (·.1)).toFinset.filter fun k => (lastSeen log k).any (cutoff ≤ ·)

-- As many of the current keys as there is room for, none of them seen before one that is left out.
structure MostRecent (room : ℕ) (log : List (κ × ℕ)) (cutoff : ℕ) (held : List (κ × ℕ)) : Prop where
  nodup : (held.map (·.1)).Nodup
  length_eq : held.length = min (current log cutoff).card room
  lastSeen_eq : ∀ e ∈ held, lastSeen log e.1 = some e.2
  cutoff_le : ∀ e ∈ held, cutoff ≤ e.2
  recent : ∀ k ∈ current log cutoff, k ∉ held.map (·.1) →
    ∀ e ∈ held, ∀ ts, lastSeen log k = some ts → ts ≤ e.2

-- The same, with the length as it is kept along: something current is left out of a full table only.
structure Holds (room : ℕ) (log : List (κ × ℕ)) (cutoff : ℕ) (held : List (κ × ℕ)) : Prop where
  nodup : (held.map (·.1)).Nodup
  length_le : held.length ≤ room
  lastSeen_eq : ∀ e ∈ held, lastSeen log e.1 = some e.2
  cutoff_le : ∀ e ∈ held, cutoff ≤ e.2
  full : ∀ k ts, lastSeen log k = some ts → cutoff ≤ ts → k ∉ held.map (·.1) → held.length = room
  recent : ∀ k ts, lastSeen log k = some ts → cutoff ≤ ts → k ∉ held.map (·.1) → ∀ e ∈ held, ts ≤ e.2

variable {room cutoff : ℕ} {log held : List (κ × ℕ)}

theorem lastSeen_append (log : List (κ × ℕ)) (e : κ × ℕ) (k : κ)
    : lastSeen (log ++ [e]) k = if e.1 = k then some e.2 else lastSeen log k := by
  unfold lastSeen
  rw [List.filter_append]
  split
  . next h => simp [h]
  . next h => simp [h]

theorem lastSeen_mem {k : κ} {ts : ℕ} (h : lastSeen log k = some ts) : (k, ts) ∈ log := by
  unfold lastSeen at h
  rcases Option.map_eq_some_iff.mp h with ⟨e, he, hts⟩
  have hmem := List.mem_of_getLast? he
  rw [List.mem_filter, decide_eq_true_iff] at hmem
  rw [← hmem.2, ← hts]
  exact hmem.1

theorem mem_current {k : κ} : k ∈ current log cutoff ↔ ∃ ts, lastSeen log k = some ts ∧ cutoff ≤ ts := by
  unfold current
  rw [Finset.mem_filter, List.mem_toFinset]
  constructor
  . rintro ⟨_, hany⟩
    simpa [Option.any_eq_true] using hany
  . rintro ⟨ts, hseen, hcutoff⟩
    refine ⟨List.mem_map_of_mem (f := (·.1)) (lastSeen_mem hseen), ?_⟩
    rw [hseen]
    exact decide_eq_true hcutoff

-- In a log in the order of time, a key is current if any of its entries is.
theorem current_of_pairwise (h : (log.map (·.2)).Pairwise (· ≤ ·))
    : current log cutoff = ((log.filter (cutoff ≤ ·.2)).map (·.1)).toFinset := by
  ext k
  rw [mem_current, List.mem_toFinset, List.mem_map]
  constructor
  . rintro ⟨ts, hseen, hcutoff⟩
    refine ⟨(k, ts), ?_, rfl⟩
    rw [List.mem_filter]
    exact ⟨lastSeen_mem hseen, decide_eq_true hcutoff⟩
  . rintro ⟨e, he, rfl⟩
    rw [List.mem_filter, decide_eq_true_iff] at he
    induction log using List.reverseRecOn with
    | nil => simp at he
    | append_singleton log last ih =>
      rw [List.map_append, List.pairwise_append] at h
      rw [lastSeen_append]
      split
      . next hkey =>
        refine ⟨last.2, rfl, ?_⟩
        rcases List.mem_append.mp he.1 with hmem | hlast
        . exact he.2.trans (h.2.2 e.2 (List.mem_map_of_mem hmem) last.2 (by simp))
        . rw [← List.mem_singleton.mp hlast]
          exact he.2
      . next hkey =>
        rcases List.mem_append.mp he.1 with hmem | hlast
        . exact ih h.1 ⟨hmem, he.2⟩
        . rw [List.mem_singleton.mp hlast] at hkey
          contradiction

theorem current_zero (log : List (κ × ℕ)) : current log 0 = (log.map (·.1)).toFinset := by
  unfold current
  apply Finset.filter_true_of_mem
  intro k hk
  rw [List.mem_toFinset] at hk
  rcases List.mem_map.mp hk with ⟨e, he, rfl⟩
  have hne : log.filter (·.1 = e.1) ≠ [] :=
    List.ne_nil_of_mem (List.mem_filter.mpr ⟨he, decide_eq_true rfl⟩)
  unfold lastSeen
  rw [List.getLast?_eq_some_getLast hne]
  rfl

theorem Holds.nil (room cutoff : ℕ) : Holds room ([] : List (κ × ℕ)) cutoff [] := by
  constructor <;> simp [lastSeen]

-- A key that a prune would take away is not current for the later cutoff.
theorem Holds.mem_of_filter {later : ℕ} (h : Holds room log cutoff held) {k : κ} {ts : ℕ}
    (hseen : lastSeen log k = some ts) (hlater : later ≤ ts)
    (hk : k ∉ (held.filter (later ≤ ·.2)).map (·.1)) : k ∉ held.map (·.1) := by
  intro hmem
  rcases List.mem_map.mp hmem with ⟨e, he, rfl⟩
  have hts : e.2 = ts := by
    rw [h.lastSeen_eq e he, Option.some.injEq] at hseen
    exact hseen
  apply hk
  apply List.mem_map_of_mem
  rw [List.mem_filter, decide_eq_true_iff, hts]
  exact ⟨he, hlater⟩

theorem Holds.prune {later : ℕ} (h : Holds room log cutoff held) (hle : cutoff ≤ later)
    : Holds room log later (held.filter (later ≤ ·.2)) := by
  have hsublist : (held.filter (later ≤ ·.2)).Sublist held := List.filter_sublist
  constructor
  . exact h.nodup.sublist (hsublist.map _)
  . exact hsublist.length_le.trans h.length_le
  . intro e he
    exact h.lastSeen_eq e (hsublist.subset he)
  . intro e he
    exact of_decide_eq_true (List.mem_filter.mp he).2
  . intro k ts hseen hlater hk
    have hout := h.mem_of_filter hseen hlater hk
    have hcutoff := hle.trans hlater
    -- What is left out was not seen after anything held, so nothing held goes either.
    have hall : held.filter (later ≤ ·.2) = held := by
      rw [List.filter_eq_self]
      intro e he
      exact decide_eq_true (hlater.trans (h.recent k ts hseen hcutoff hout e he))
    rw [hall]
    exact h.full k ts hseen hcutoff hout
  . intro k ts hseen hlater hk e he
    have hout := h.mem_of_filter hseen hlater hk
    exact h.recent k ts hseen (hle.trans hlater) hout e (hsublist.subset he)

theorem Holds.perm {held' : List (κ × ℕ)} (h : Holds room log cutoff held) (hperm : held'.Perm held)
    : Holds room log cutoff held' := by
  have hkeys := hperm.map (·.1)
  constructor
  . exact hkeys.nodup_iff.mpr h.nodup
  . rw [hperm.length_eq]
    exact h.length_le
  . intro e he
    exact h.lastSeen_eq e (hperm.mem_iff.mp he)
  . intro e he
    exact h.cutoff_le e (hperm.mem_iff.mp he)
  . intro k ts hseen hcutoff hk
    rw [hkeys.mem_iff] at hk
    rw [hperm.length_eq]
    exact h.full k ts hseen hcutoff hk
  . intro k ts hseen hcutoff hk e he
    rw [hkeys.mem_iff] at hk
    exact h.recent k ts hseen hcutoff hk e (hperm.mem_iff.mp he)

/--
A key is seen. It takes the place of its own entry, or of the oldest one if the table is full, and is
added otherwise.
-/
theorem Holds.see {gone : Option (κ × ℕ)} {rest : List (κ × ℕ)} {k : κ} {now : ℕ}
    (h : Holds room log cutoff held) (hlog : ∀ e ∈ log, e.2 ≤ now) (hnow : cutoff ≤ now)
    (hperm : held.Perm (gone.toList ++ rest)) (hrest : k ∉ rest.map (·.1))
    (hroom : rest.length < room)
    (hgone : ∀ e ∈ gone, e.1 = k ∨ rest.length + 1 = room ∧ ∀ e' ∈ held, e.2 ≤ e'.2)
    : Holds room (log ++ [(k, now)]) cutoff ((k, now) :: rest) := by
  have hsub : ∀ e ∈ rest, e ∈ held := by
    intro e he
    exact hperm.mem_iff.mpr (List.mem_append_right _ he)
  have hne : ∀ e ∈ rest, k ≠ e.1 := by
    rintro e he rfl
    exact hrest (List.mem_map_of_mem he)
  have hseen {k' : κ} {ts : ℕ} (hk' : k' ≠ k) (hts : lastSeen (log ++ [(k, now)]) k' = some ts)
      : lastSeen log k' = some ts := by
    rwa [lastSeen_append, if_neg hk'.symm] at hts
  have hkeys (k' : κ) : k' ∈ held.map (·.1) ↔ (∃ e ∈ gone, e.1 = k') ∨ k' ∈ rest.map (·.1) := by
    rw [(hperm.map (·.1)).mem_iff, List.map_append, List.mem_append]
    simp
  constructor
  . have hnodup := (hperm.map (·.1)).nodup_iff.mp h.nodup
    rw [List.map_append] at hnodup
    exact List.nodup_cons.mpr ⟨hrest, hnodup.of_append_right⟩
  . exact hroom
  . intro e he
    rw [lastSeen_append]
    rcases List.mem_cons.mp he with rfl | hmem
    . rw [if_pos rfl]
    . rw [if_neg (hne e hmem)]
      exact h.lastSeen_eq e (hsub e hmem)
  . intro e he
    rcases List.mem_cons.mp he with rfl | hmem
    . exact hnow
    . exact h.cutoff_le e (hsub e hmem)
  . intro k' ts hts hcutoff hk'
    rw [List.map_cons, List.mem_cons, not_or] at hk'
    rw [List.length_cons]
    by_cases hheld : k' ∈ held.map (·.1)
    . rcases (hkeys k').mp hheld with ⟨e, he, rfl⟩ | hmem
      . rcases hgone e he with hown | hfull
        . exact absurd hown hk'.1
        . exact hfull.1
      . exact absurd hmem hk'.2
    . have hfull := h.full k' ts (hseen hk'.1 hts) hcutoff hheld
      have hlength := hperm.length_eq
      rw [List.length_append] at hlength
      cases gone <;> simp at hlength <;> omega
  . intro k' ts hts hcutoff hk' e' he'
    rw [List.map_cons, List.mem_cons, not_or] at hk'
    have hlast := hseen hk'.1 hts
    rcases List.mem_cons.mp he' with rfl | hmem
    . exact hlog _ (lastSeen_mem hlast)
    . by_cases hheld : k' ∈ held.map (·.1)
      . rcases (hkeys k').mp hheld with ⟨e, he, rfl⟩ | hin
        . rcases hgone e he with hown | hfull
          . exact absurd hown hk'.1
          . have hmemHeld : e ∈ held := by
              apply hperm.mem_iff.mpr
              apply List.mem_append_left
              simpa using he
            rw [h.lastSeen_eq e hmemHeld, Option.some.injEq] at hlast
            rw [← hlast]
            exact hfull.2 e' (hsub e' hmem)
        . exact absurd hin hk'.2
      . exact h.recent k' ts hlast hcutoff hheld e' (hsub e' hmem)

theorem Holds.length_eq (h : Holds room log cutoff held)
    : held.length = min (current log cutoff).card room := by
  have hlength : held.length = (held.map (·.1)).toFinset.card := by
    rw [List.toFinset_card_of_nodup h.nodup, List.length_map]
  have hsubset : (held.map (·.1)).toFinset ⊆ current log cutoff := by
    intro k hk
    rw [List.mem_toFinset] at hk
    rcases List.mem_map.mp hk with ⟨e, he, rfl⟩
    exact mem_current.mpr ⟨e.2, h.lastSeen_eq e he, h.cutoff_le e he⟩
  have hle := Finset.card_le_card hsubset
  have hroom := h.length_le
  by_cases hall : current log cutoff ⊆ (held.map (·.1)).toFinset
  . have := Finset.card_le_card hall
    omega
  . rcases Finset.not_subset.mp hall with ⟨k, hk, hout⟩
    rw [List.mem_toFinset] at hout
    rcases mem_current.mp hk with ⟨ts, hseen, hcutoff⟩
    have := h.full k ts hseen hcutoff hout
    omega

theorem Holds.mostRecent (h : Holds room log cutoff held) : MostRecent room log cutoff held := by
  constructor
  . exact h.nodup
  . exact h.length_eq
  . exact h.lastSeen_eq
  . exact h.cutoff_le
  . intro k hk hout e he ts hts
    rcases mem_current.mp hk with ⟨ts', hseen, hcutoff⟩
    rw [hseen, Option.some.injEq] at hts
    rw [← hts]
    exact h.recent k ts' hseen hcutoff hout e he

end Keys

end Recent
