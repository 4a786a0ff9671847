import Athar.Detection.Impl.PolicyReload
import Athar.Lib.Run

/-!
This module contains how the policy engine follows its file. The watcher remembers a modification
time before it has read the file, so a read that fails once is not tried again until the file changes.
-/

namespace Athar

structure PolicyFile where
  mtime : Nat
  text : String
  deriving DecidableEq, Repr

-- What a turn of the watcher meets: the file at that time, and which of its two operations fail.
structure WatchTick where
  file : Option PolicyFile
  statFails : Bool
  readFails : Bool
  deriving DecidableEq, Repr

namespace WatchTick

variable (t : WatchTick)

def stat : StatResult :=
  if t.statFails then
    .failed
  else
    match t.file with
    | none => .notFound
    | some f => .ok (some f.mtime)

def read : Option String :=
  if t.readFails then none else t.file.map (·.text)

end WatchTick

-- The watcher with the file whose modification time it remembers, and whether that was read.
structure WatchRun where
  watcher : PolicyWatcher
  remembered : Option PolicyFile
  unread : Bool

namespace WatchRun

variable (parse : String → Option PolicyConfig)

def start (config : PolicyConfig) : WatchRun := ⟨.new config, none, false⟩

def step (w : WatchRun) (t : WatchTick) : WatchRun where
  watcher := w.watcher.tick parse t.stat t.read
  remembered :=
    match t.stat with
    | .ok _ => t.file
    | .notFound => none
    | .failed => w.remembered
  unread :=
    match t.stat with
    | .ok mtime => if mtime = w.watcher.lastMtime then w.unread else t.readFails
    | .notFound => false
    | .failed => w.unread

structure Follows (w : WatchRun) (t : WatchTick) : Prop where
  applied : ∀ f policies, t.file = some f → t.statFails = false → t.readFails = false →
    parse f.text = some policies → (w.step parse t).watcher.config = policies
  kept : (t.file = none ∨ t.statFails = true ∨ t.readFails = true
      ∨ ∀ f ∈ t.file, parse f.text = none) →
    (w.step parse t).watcher.config = w.watcher.config

-- The file was remembered without being read, and holds other policies than those in force.
def Skips (w : WatchRun) (t : WatchTick) : Prop :=
  w.unread = true ∧ t.statFails = false ∧ t.readFails = false
    ∧ ∃ f policies, t.file = some f ∧ w.remembered = some f
      ∧ parse f.text = some policies ∧ policies ≠ w.watcher.config

-- What the watcher's memory says, as long as modification times tell files apart.
structure Remembers (w : WatchRun) : Prop where
  lastApplied : w.watcher.lastApplied = some w.watcher.config
  lastMtime : w.watcher.lastMtime = w.remembered.map (·.mtime)
  read : w.unread = false → ∀ f policies, w.remembered = some f → parse f.text = some policies →
    w.watcher.config = policies

-- A modification time that is seen again is the one of the same file.
def Fresh (w : WatchRun) (t : WatchTick) : Prop :=
  ∀ f g, t.file = some f → w.remembered = some g → f.mtime = g.mtime → f = g

variable {parse} {w : WatchRun} {t : WatchTick}

theorem remembers_start (config : PolicyConfig) : Remembers parse (start config) := by
  constructor
  . rfl
  . rfl
  . intro _ f policies hf
    contradiction

section Step

theorem step_statFails (h : t.statFails = true) : w.step parse t = w := by
  unfold step WatchTick.stat
  rw [if_pos h]
  rfl

theorem step_missing (hstat : t.statFails = false) (hfile : t.file = none)
    : w.step parse t = ⟨{ w.watcher with lastMtime := none }, none, false⟩ := by
  have hresult : t.stat = .notFound := by simp [WatchTick.stat, hstat, hfile]
  unfold step
  rw [hresult]
  unfold PolicyWatcher.tick
  dsimp only
  split
  . rfl
  . next hnone =>
    rw [Bool.not_eq_true, Option.isSome_eq_false_iff, Option.isNone_iff_eq_none] at hnone
    rw [← hnone]

variable {f : PolicyFile}

theorem step_seen (hstat : t.statFails = false) (hfile : t.file = some f)
    (hseen : w.watcher.lastMtime = some f.mtime) : w.step parse t = { w with remembered := some f } := by
  have hresult : t.stat = .ok (some f.mtime) := by simp [WatchTick.stat, hstat, hfile]
  unfold step PolicyWatcher.tick
  rw [hresult, hfile, hseen]
  dsimp only
  rw [if_pos rfl, if_pos rfl]

theorem step_unreadable (hstat : t.statFails = false) (hfile : t.file = some f)
    (hnew : w.watcher.lastMtime ≠ some f.mtime) (hread : t.readFails = true)
    : w.step parse t = ⟨{ w.watcher with lastMtime := some f.mtime }, some f, true⟩ := by
  have hresult : t.stat = .ok (some f.mtime) := by simp [WatchTick.stat, hstat, hfile]
  have htext : t.read = none := by simp [WatchTick.read, hread]
  unfold step PolicyWatcher.tick
  rw [hresult, htext]
  dsimp only
  rw [if_neg hnew.symm, if_neg hnew.symm, hfile, hread]

theorem step_read (h : w.watcher.lastApplied = some w.watcher.config) (hstat : t.statFails = false)
    (hfile : t.file = some f) (hnew : w.watcher.lastMtime ≠ some f.mtime) (hread : t.readFails = false)
    : w.step parse t
        = ⟨{ config := (parse f.text).getD w.watcher.config
             lastMtime := some f.mtime
             lastApplied := some ((parse f.text).getD w.watcher.config) }, some f, false⟩ := by
  have hresult : t.stat = .ok (some f.mtime) := by simp [WatchTick.stat, hstat, hfile]
  have htext : t.read = some f.text := by simp [WatchTick.read, hread, hfile]
  unfold step PolicyWatcher.tick
  rw [hresult, htext]
  dsimp only
  rw [if_neg hnew.symm, if_neg hnew.symm, hfile, hread]
  cases parse f.text with
  | none =>
    dsimp only [Option.getD_none]
    rw [← h]
  | some policies =>
    dsimp only [Option.getD_some]
    unfold PolicyWatcher.apply
    split
    . rfl
    . next hsame =>
      rw [not_ne_iff, h, Option.some.injEq] at hsame
      rw [h, hsame]

end Step

theorem Remembers.remembered_eq (h : Remembers parse w) (hfresh : w.Fresh t) {f : PolicyFile}
    (hfile : t.file = some f) (hseen : w.watcher.lastMtime = some f.mtime) : w.remembered = some f := by
  have hmtime := h.lastMtime
  rw [hseen] at hmtime
  rcases Option.map_eq_some_iff.mp hmtime.symm with ⟨g, hg, hgf⟩
  rw [hg, hfresh f g hfile hg hgf.symm]

theorem Remembers.step (h : Remembers parse w) (hfresh : w.Fresh t) : Remembers parse (w.step parse t) := by
  cases hstat : t.statFails with
  | true =>
    rw [step_statFails hstat]
    exact h
  | false =>
    cases hfile : t.file with
    | none =>
      rw [step_missing hstat hfile]
      constructor
      . exact h.lastApplied
      . rfl
      . intro _ f policies hf
        contradiction
    | some f =>
      by_cases hseen : w.watcher.lastMtime = some f.mtime
      . have hremembered := h.remembered_eq hfresh hfile hseen
        rw [step_seen hstat hfile hseen]
        constructor
        . exact h.lastApplied
        . exact hseen
        . intro hunread g policies hg
          rw [← hremembered] at hg
          exact h.read hunread g policies hg
      . cases hread : t.readFails with
        | true =>
          rw [step_unreadable hstat hfile hseen hread]
          constructor
          . exact h.lastApplied
          . rfl
          . intro hunread
            contradiction
        | false =>
          rw [step_read h.lastApplied hstat hfile hseen hread]
          constructor
          . rfl
          . rfl
          . rintro _ g policies ⟨⟩ hparse
            rw [hparse]
            rfl

theorem follows_iff (h : Remembers parse w) (hfresh : w.Fresh t)
    : Follows parse w t ↔ ¬Skips parse w t := by
  constructor
  . rintro hfollows ⟨_, hstat, hread, f, policies, hfile, hremembered, hparse, hne⟩
    have hseen : w.watcher.lastMtime = some f.mtime := by
      rw [h.lastMtime, hremembered]
      rfl
    have happlied := hfollows.applied f policies hfile hstat hread hparse
    rw [step_seen hstat hfile hseen] at happlied
    exact hne happlied.symm
  . intro hskips
    constructor
    . intro f policies hfile hstat hread hparse
      by_cases hseen : w.watcher.lastMtime = some f.mtime
      . have hremembered := h.remembered_eq hfresh hfile hseen
        rw [step_seen hstat hfile hseen]
        cases hunread : w.unread with
        | false => exact h.read hunread f policies hremembered hparse
        | true =>
          by_contra hne
          exact hskips ⟨hunread, hstat, hread, f, policies, hfile, hremembered, hparse, Ne.symm hne⟩
      . rw [step_read h.lastApplied hstat hfile hseen hread, hparse]
        rfl
    . intro hbad
      cases hstat : t.statFails with
      | true => rw [step_statFails hstat]
      | false =>
        cases hfile : t.file with
        | none => rw [step_missing hstat hfile]
        | some f =>
          by_cases hseen : w.watcher.lastMtime = some f.mtime
          . rw [step_seen hstat hfile hseen]
          . cases hread : t.readFails with
            | true => rw [step_unreadable hstat hfile hseen hread]
            | false =>
              have hmalformed : parse f.text = none := by simpa [hstat, hfile, hread] using hbad
              rw [step_read h.lastApplied hstat hfile hseen hread, hmalformed]
              rfl

theorem remembered_mem {config : PolicyConfig} {ticks : List WatchTick} {g : PolicyFile}
    (h : (Run.exec (step parse) (start config) ticks).remembered = some g)
    : g ∈ ticks.filterMap (·.file) := by
  induction ticks using List.reverseRecOn with
  | nil => contradiction
  | append_singleton ticks t ih =>
    rw [Run.exec_append, Run.exec_cons, Run.exec_nil] at h
    rw [List.filterMap_append, List.mem_append]
    unfold step at h
    dsimp only at h
    split at h
    . right
      simpa using h
    . contradiction
    . exact Or.inl (ih h)

theorem guarded_known {config : PolicyConfig} {ticks : List WatchTick}
    (hfresh : (ticks.filterMap (·.file)).Pairwise fun f g => f.mtime = g.mtime → f = g)
    : Run.Guarded (step parse) (fun w t => Remembers parse w ∧ w.Fresh t) (start config) ticks := by
  have hguarded : Run.Guarded (step parse) Fresh (start config) ticks := by
    intro pre t hpre f g hfile hremembered hmtime
    have hpairwise := hfresh.sublist (hpre.sublist.filterMap (·.file))
    rw [List.filterMap_append, List.pairwise_append] at hpairwise
    have hlast : f ∈ [t].filterMap (·.file) := by simpa using hfile
    exact (hpairwise.2.2 g (remembered_mem hremembered) f hlast hmtime.symm).symm
  have hremembers : Run.Always (step parse) (Remembers parse) (start config) ticks :=
    Run.always_of_guarded (remembers_start config) (fun _ _ h hf => h.step hf) hguarded
  exact hremembers.guard hguarded

end WatchRun

/--
After every tick the engine's configuration follows the file, if and only if no tick skips a file
that was remembered without being read and that holds other policies than those in force.
-/
theorem follows_iff_not_skips (parse : String → Option PolicyConfig) (config : PolicyConfig)
    (ticks : List WatchTick)
    (hfresh : (ticks.filterMap (·.file)).Pairwise fun f g => f.mtime = g.mtime → f = g)
    : Run.Guarded (WatchRun.step parse) (WatchRun.Follows parse) (.start config) ticks
        ↔ Run.Guarded (WatchRun.step parse) (fun w t => ¬WatchRun.Skips parse w t) (.start config) ticks := by
  apply Run.guarded_congr (WatchRun.guarded_known hfresh)
  rintro w t ⟨hremembers, hfresh⟩
  exact WatchRun.follows_iff hremembers hfresh

section Instances

def enforcedVelocity : PolicyConfig where
  highVelocity := { mode := .enforce }

def edited : PolicyFile where
  mtime := 1
  text := "\x7b\"policies\":\x7b\"high_velocity\":\x7b\"mode\":\"ENFORCE\"\x7d\x7d\x7d"

def parseEdited (text : String) : Option PolicyConfig :=
  if text = edited.text then some enforcedVelocity else none

-- The read of the edited file fails once.
def failedOnce : List WatchTick := [⟨some edited, false, true⟩, ⟨some edited, false, false⟩]

-- So does the one here, but then the file is gone for a tick.
def recreated : List WatchTick :=
  [⟨some edited, false, true⟩, ⟨none, false, false⟩, ⟨some edited, false, false⟩]

theorem follows_iff_not_skips_recreated
    : Run.Guarded (WatchRun.step parseEdited) (WatchRun.Follows parseEdited) (.start {}) recreated
        ↔ Run.Guarded (WatchRun.step parseEdited) (fun w t => ¬WatchRun.Skips parseEdited w t)
          (.start {}) recreated :=
  follows_iff_not_skips parseEdited {} recreated (by decide)

theorem failedOnce_skipped
    : ¬∀ (parse : String → Option PolicyConfig) (config : PolicyConfig) (ticks : List WatchTick),
        ((ticks.filterMap (·.file)).Pairwise fun f g => f.mtime = g.mtime → f = g) →
        Run.Guarded (WatchRun.step parse) (WatchRun.Follows parse) (.start config) ticks := by
  intro hclaim
  have h := hclaim parseEdited {} failedOnce (by decide) [⟨some edited, false, true⟩]
    ⟨some edited, false, false⟩ (List.prefix_refl _)
  have happlied := h.applied edited enforcedVelocity rfl rfl rfl (by decide)
  contradiction

end Instances

end Athar
