import Athar.Daemon.Evidence
import Athar.Daemon.Impl.Watcher
import Athar.Governor.Soundness
import Athar.Lib.Falls

/-!
This module contains how often the watcher of the pressure reports a gap. It may sleep through changes of
the level, but it reports at most once for every time that the level left safe mode, and the hysteresis of
the governor keeps these times a window apart.
-/

namespace Athar

open Storage Audit

variable {c : Crates} {d : Detection}

namespace Daemon

variable {w : Writers} {st : Daemon c d}

theorem append_frame {client other : Client} (hne : other ≠ client) (work : InFlight c) (io : AppendIo)
    : (st.append client work io).inflight other = st.inflight other
        ∧ (st.append client work io).ledger = st.ledger := by
  unfold append
  split
  . exact ⟨rfl, rfl⟩
  . exact ⟨Function.update_of_ne hne _ _, rfl⟩

theorem appendAnyway_frame {client other : Client} (hne : other ≠ client) (work : InFlight c)
    (io : AppendIo)
    : (st.appendAnyway client work io).inflight other = st.inflight other
        ∧ (st.appendAnyway client work io).ledger = st.ledger := by
  unfold appendAnyway
  split
  . exact ⟨Function.update_of_ne hne _ _, rfl⟩
  . exact ⟨Function.update_of_ne hne _ _, rfl⟩

theorem appendAnyway_ledger (client : Client) (work : InFlight c) (io : AppendIo)
    : (st.appendAnyway client work io).ledger = st.ledger := by
  unfold appendAnyway
  split <;> rfl

end Daemon

namespace Pressured

variable {w : Writers} {st : Pressured c d} {config : Governor.Config} {createdAt : Nat}

-- The records of the watcher.
def recorded (st : Daemon c d) : Nat :=
  st.ledger.countP (·.client = .emitter false)

-- A record that the watcher waits for.
def pending (st : Daemon c d) : Nat :=
  if (st.inflight (.emitter false)).isSome then 1 else 0

theorem foreign_gated {level : PressureLevel} {action : Daemon.Action c} (h : foreign action = true)
    : foreign (gated level action) = true := by
  cases action with
  | ingest connection frame => rfl
  | _ => exact h

theorem records_congr {st st' : Daemon c d}
    (hsame : st'.inflight (.emitter false) = st.inflight (.emitter false) ∧ st'.ledger = st.ledger)
    : recorded st' + pending st' = recorded st + pending st
        ∧ (st.inflight (.emitter false) = none → st'.inflight (.emitter false) = none) := by
  unfold recorded pending
  rw [hsame.1, hsame.2]
  exact ⟨rfl, id⟩

-- A commitment of the watcher turns what it waits for into a record.
theorem commit_records {st : Daemon c d} {client : Client} {work : InFlight c}
    (hwork : st.inflight client = some work)
    : recorded (st.commit client work) + pending (st.commit client work) = recorded st + pending st
        ∧ (st.inflight (.emitter false) = none →
          (st.commit client work).inflight (.emitter false) = none) := by
  by_cases hclient : client = .emitter false
  . subst hclient
    unfold recorded pending Daemon.commit
    simp [hwork]
  . unfold recorded pending Daemon.commit
    rw [List.countP_append]
    simp only [Function.update_of_ne (Ne.symm hclient)]
    simp [hclient]

theorem foreign_records (w : Writers) (st : Daemon c d) {action : Daemon.Action c}
    (h : foreign action = true)
    : recorded (st.step w action) + pending (st.step w action) = recorded st + pending st
        ∧ (st.inflight (.emitter false) = none → (st.step w action).inflight (.emitter false) = none) := by
  cases action with
  | ingest connection frame =>
    simp only [Daemon.step]
    split
    . exact ⟨rfl, id⟩
    . unfold Daemon.ingest
      split
      . exact ⟨rfl, id⟩
      . exact records_congr (Daemon.append_frame (by simp) _ _)
  | collect record io =>
    simp only [Daemon.step]
    split
    . exact ⟨rfl, id⟩
    . exact records_congr (Daemon.append_frame (by simp) _ _)
  | emit atShutdown io =>
    cases atShutdown with
    | false => contradiction
    | true =>
      simp only [Daemon.step]
      split
      . exact ⟨rfl, id⟩
      . unfold Daemon.emit
        dsimp only
        split
        . exact ⟨rfl, id⟩
        . exact records_congr (Daemon.appendAnyway_frame (by simp) _ _)
  | commit client =>
    simp only [Daemon.step]
    split
    . next work hwork => exact commit_records hwork
    . exact ⟨rfl, id⟩
  | project client =>
    simp only [Daemon.step]
    split
    . exact ⟨rfl, id⟩
    . exact ⟨rfl, id⟩
  | abort client =>
    have hclient : client ≠ .emitter false := by
      rintro rfl
      contradiction
    apply records_congr
    exact ⟨Function.update_of_ne hclient.symm _ _, rfl⟩
  | flush outcome => exact ⟨rfl, id⟩

-- A report that the watcher begins puts at most one record on its way.
theorem emit_records {st : Daemon c d} (h : st.inflight (.emitter false) = none) (io : EmitIo c)
    : recorded (st.step w (.emit false io)) + pending (st.step w (.emit false io)) ≤ recorded st + 1 := by
  have hledger : (st.step w (.emit false io)).ledger = st.ledger := by
    simp only [Daemon.step, h]
    unfold Daemon.emit
    dsimp only
    split
    . rfl
    . exact Daemon.appendAnyway_ledger _ _ _
  have hpending : pending (st.step w (.emit false io)) ≤ 1 := by
    unfold pending
    split <;> omega
  have hrecorded : recorded (st.step w (.emit false io)) = recorded st := by
    unfold recorded
    rw [hledger]
  omega

-- The level has left safe mode no more often than windows have passed.
structure Paced (config : Governor.Config) (createdAt : Nat) (st : Pressured c d) : Prop where
  sound : st.governor.Sound
  config_eq : st.governor.config = config
  last_eq : st.levels.getLast? = some st.governor.currentLevel
  created_le : createdAt ≤ st.governor.state.atCurrentSince
  window_le :
    Falls.count isL4 st.levels * config.goodNewsWindow ≤ st.governor.state.atCurrentSince - createdAt

-- The watcher has begun no more reports than falls that it has heard of.
structure Watched (st : Pressured c d) : Prop where
  heard : st.heard <+: st.levels
  was : st.watcher.stage = .waiting ∨ st.watcher.stage = .changed →
    st.watcher.wasL4 = Falls.up isL4 st.heard
  left : st.watcher.stage = .recovered ∨ st.watcher.stage = .emitting →
    Falls.up isL4 st.heard = false
  reports_le : st.reports ≤ Falls.count isL4 st.heard
  records_le : recorded st.daemon + pending st.daemon
    + (if st.watcher.stage = .recovered then 1 else 0) ≤ st.reports
  quiet : st.watcher.stage ≠ .emitting → st.daemon.inflight (.emitter false) = none

-- The governor is not called with a time before the last change of the level.
def Timely (st : Pressured c d) : Action c → Prop
  | .govern call => st.governor.state.atCurrentSince ≤ call.time
  | _ => True

theorem window_of_fall {g : Governor} (h : g.Sound) {call : Governor.Call}
    (hbefore : isL4 g.currentLevel = true) (hafter : isL4 (g.step call).currentLevel = false)
    : g.config.goodNewsWindow ≤ call.time - g.state.atCurrentSince := by
  have hlevel : g.state.current = .l4SafeMode := by
    rw [← h.level_eq]
    simpa [isL4] using hbefore
  have hne : (g.step call).currentLevel ≠ .l4SafeMode := by
    simpa [isL4] using hafter
  have hlt : Governor.levelAt g.config (call.record g.state) call.time < (call.record g.state).current := by
    rw [← h.level_step, call.record_current, hlevel]
    exact lt_of_le_of_ne (Governor.le_l4SafeMode _) hne
  have hwindow := (Governor.levelAt_lt_iff.mp hlt).2
  rwa [call.record_atCurrentSince] at hwindow

theorem Paced.up_levels (h : Paced config createdAt st)
    : Falls.up isL4 st.levels = isL4 st.governor.currentLevel := by
  rw [Falls.up, h.last_eq, Option.any_some]

theorem Paced.govern (h : Paced config createdAt st) {call : Governor.Call}
    (hcall : st.governor.state.atCurrentSince ≤ call.time)
    : Paced config createdAt (st.govern call) := by
  have hsince := h.sound.atCurrentSince_step call
  have hcreated := h.created_le
  have hwindow := h.window_le
  constructor
  . exact h.sound.step call
  . rw [← h.config_eq]
    unfold Pressured.govern Governor.step
    rw [Governor.recompute_eq]
  . unfold Pressured.govern
    dsimp only
    split
    . simp
    . next hsame =>
      rw [not_ne_iff.mp hsame]
      exact h.last_eq
  . unfold Pressured.govern
    dsimp only
    rw [hsince]
    split
    . exact hcreated.trans hcall
    . exact hcreated
  . unfold Pressured.govern
    dsimp only
    rw [hsince]
    split
    . rw [Falls.count_append, h.up_levels]
      split
      . next hfall =>
        rw [Bool.and_eq_true, Bool.not_eq_true'] at hfall
        have hpassed := window_of_fall h.sound hfall.1 hfall.2
        rw [h.config_eq] at hpassed
        rw [Nat.succ_mul]
        omega
      . rw [Nat.add_zero]
        omega
    . exact hwindow

theorem Paced.congr (h : Paced config createdAt st) {st' : Pressured c d}
    (hgovernor : st'.governor = st.governor) (hlevels : st'.levels = st.levels)
    : Paced config createdAt st' := by
  constructor
  . rw [hgovernor]
    exact h.sound
  . rw [hgovernor]
    exact h.config_eq
  . rw [hgovernor, hlevels]
    exact h.last_eq
  . rw [hgovernor]
    exact h.created_le
  . rw [hgovernor, hlevels]
    exact h.window_le

-- Only the governor sends levels.
theorem step_frame (w : Writers) (st : Pressured c d) (action : Action c)
    (h : ∀ call, action ≠ .govern call)
    : (st.step w action).governor = st.governor ∧ (st.step w action).levels = st.levels := by
  cases action with
  | govern call => exact absurd rfl (h call)
  | borrow =>
    unfold step borrow
    dsimp only
    split
    . split <;> exact ⟨rfl, rfl⟩
    . exact ⟨rfl, rfl⟩
  | _ =>
    unfold step
    dsimp only
    split <;> exact ⟨rfl, rfl⟩

theorem Paced.step (h : Paced config createdAt st) {action : Action c} (htimely : Timely st action)
    : Paced config createdAt (st.step w action) := by
  by_cases hgovern : ∃ call, action = .govern call
  . rcases hgovern with ⟨call, rfl⟩
    exact h.govern htimely
  . have hframe := step_frame w st action (by simpa using hgovern)
    exact h.congr hframe.1 hframe.2

theorem Watched.govern (h : Watched st) (call : Governor.Call) : Watched (st.govern call) := by
  have hlevels : st.levels <+: (st.govern call).levels := by
    unfold Pressured.govern
    dsimp only
    split
    . exact List.prefix_append _ _
    . exact List.prefix_rfl
  exact ⟨h.heard.trans hlevels, h.was, h.left, h.reports_le, h.records_le, h.quiet⟩

theorem Watched.task (h : Watched st) {action : Daemon.Action c} (hforeign : foreign action = true)
    : Watched { st with daemon := st.daemon.step w action } := by
  have hrecords := foreign_records w st.daemon hforeign
  constructor
  . exact h.heard
  . exact h.was
  . exact h.left
  . exact h.reports_le
  . have := h.records_le
    dsimp only
    omega
  . intro hstage
    exact hrecords.2 (h.quiet hstage)

-- With no report under way before or after it, a move of the watcher needs only to know what it has heard.
theorem Watched.move (h : Watched st) {watcher : PressureWatcher} {heard : List PressureLevel}
    (hheard : heard <+: st.levels) (hlater : st.heard <+: heard)
    (hquiet : st.daemon.inflight (.emitter false) = none)
    (hstage : watcher.stage ≠ .recovered ∧ watcher.stage ≠ .emitting)
    (hwas : watcher.stage = .waiting ∨ watcher.stage = .changed → watcher.wasL4 = Falls.up isL4 heard)
    : Watched { st with watcher, heard } := by
  constructor
  . exact hheard
  . exact hwas
  . rintro (hrecovered | hemitting)
    . exact absurd hrecovered hstage.1
    . exact absurd hemitting hstage.2
  . exact h.reports_le.trans (Falls.count_le_of_prefix hlater)
  . have hrecords := h.records_le
    dsimp only
    rw [if_neg hstage.1]
    omega
  . intro _
    exact hquiet

theorem Watched.subscribe (h : Watched st) (hstage : st.watcher.stage = .absent)
    : Watched { st with
        watcher := { st.watcher with seen := st.levels.length, stage := .subscribed } } := by
  have hquiet := h.quiet (by simp [hstage])
  exact h.move h.heard List.prefix_rfl hquiet (by simp) (by simp)

theorem Watched.enter (hpaced : Paced config createdAt st) (h : Watched st)
    (hstage : st.watcher.stage = .subscribed)
    : Watched { st with
        watcher := { st.watcher with wasL4 := isL4 st.governor.currentLevel, stage := .waiting }
        heard := st.levels } := by
  have hquiet := h.quiet (by simp [hstage])
  apply h.move List.prefix_rfl h.heard hquiet (by simp)
  intro _
  exact hpaced.up_levels.symm

theorem Watched.change (h : Watched st) (hstage : st.watcher.stage = .waiting)
    : Watched { st with watcher := { st.watcher with seen := st.levels.length, stage := .changed } } := by
  have hquiet := h.quiet (by simp [hstage])
  apply h.move h.heard List.prefix_rfl hquiet (by simp)
  intro _
  exact h.was (Or.inl hstage)

-- What it reports now has happened between the level that it last saw and the one that it sees now.
theorem Watched.borrow (hpaced : Paced config createdAt st) (h : Watched st)
    (hstage : st.watcher.stage = .changed) : Watched st.borrow := by
  have hup := hpaced.up_levels
  have hwas := h.was (Or.inr hstage)
  have hrecords := h.records_le
  rw [if_neg (by simp [hstage])] at hrecords
  have hquiet := h.quiet (by simp [hstage])
  have hreports := h.reports_le
  unfold Pressured.borrow
  dsimp only
  split
  . next hfall =>
    rw [Bool.and_eq_true, Bool.not_eq_true', hwas, ← hup] at hfall
    have hlt := Falls.count_lt_of_prefix h.heard hfall.1 hfall.2
    constructor
    . exact List.prefix_rfl
    . simp
    . intro _
      exact hfall.2
    . dsimp only
      omega
    . dsimp only
      rw [if_pos rfl]
      omega
    . intro _
      exact hquiet
  . apply h.move List.prefix_rfl h.heard hquiet (by simp)
    intro _
    exact hup.symm

theorem Watched.emit (h : Watched st) (hstage : st.watcher.stage = .recovered) (io : EmitIo c)
    : Watched { st with
        watcher := { st.watcher with stage := .emitting }
        daemon := st.daemon.step w (.emit false io) } := by
  have hquiet := h.quiet (by simp [hstage])
  constructor
  . exact h.heard
  . simp
  . intro _
    exact h.left (Or.inl hstage)
  . exact h.reports_le
  . have hemit := emit_records (w := w) hquiet io
    have hrecords := h.records_le
    rw [if_pos hstage] at hrecords
    dsimp only
    rw [if_neg (by simp)]
    omega
  . simp

theorem Watched.emitted (h : Watched st) (hstage : st.watcher.stage = .emitting)
    (hdone : st.daemon.inflight (.emitter false) = none)
    : Watched { st with watcher := { st.watcher with wasL4 := false, stage := .waiting } } := by
  apply h.move h.heard List.prefix_rfl hdone (by simp)
  intro _
  exact (h.left (Or.inr hstage)).symm

theorem Watched.step (hpaced : Paced config createdAt st) (h : Watched st) (action : Action c)
    : Watched (st.step w action) := by
  cases action with
  | govern call => exact h.govern call
  | task action =>
    unfold Pressured.step
    dsimp only
    split
    . next hforeign => exact h.task (foreign_gated hforeign)
    . exact h
  | subscribe =>
    unfold Pressured.step
    dsimp only
    split
    . next hstage => exact h.subscribe hstage
    . exact h
  | enter =>
    unfold Pressured.step
    dsimp only
    split
    . next hstage => exact h.enter hpaced hstage
    . exact h
  | change =>
    unfold Pressured.step
    dsimp only
    split
    . next hstage => exact h.change hstage.1
    . exact h
  | borrow =>
    unfold Pressured.step
    dsimp only
    split
    . next hstage => exact h.borrow hpaced hstage
    . exact h
  | emit io =>
    unfold Pressured.step
    dsimp only
    split
    . next hstage => exact h.emit hstage io
    . exact h
  | emitted =>
    unfold Pressured.step
    dsimp only
    split
    . next hstage => exact h.emitted hstage.1 hstage.2
    . exact h

def time? : Action c → Option Nat
  | .govern call => some call.time
  | _ => none

theorem timely_of_sorted {since : Nat} {actions : List (Action c)}
    (hsince : st.governor.state.atCurrentSince ≤ since) (hsound : st.governor.Sound)
    (h : (since :: actions.filterMap time?).Pairwise (· ≤ ·))
    : Run.Guarded (step w) Timely st actions := by
  induction actions generalizing st since with
  | nil => simp
  | cons action actions ih =>
    rw [Run.guarded_cons]
    by_cases hgovern : ∃ call, action = .govern call
    . rcases hgovern with ⟨call, rfl⟩
      have htime : time? (Action.govern (c := c) call) = some call.time := rfl
      rw [List.filterMap_cons_some htime, List.pairwise_cons] at h
      have hcall : since ≤ call.time := h.1 _ (by simp)
      constructor
      . exact hsince.trans hcall
      . apply ih _ (hsound.step call) h.2
        have heq := hsound.atCurrentSince_step call
        change (st.governor.step call).state.atCurrentSince ≤ call.time
        rw [heq]
        split
        . exact Nat.le_refl _
        . exact hsince.trans hcall
    . have hnone : time? action = none := by
        cases action with
        | govern call => exact absurd ⟨call, rfl⟩ hgovern
        | _ => rfl
      rw [List.filterMap_cons_none hnone] at h
      have hframe := step_frame w st action (by simpa using hgovern)
      constructor
      . cases action with
        | govern call => exact absurd ⟨call, rfl⟩ hgovern
        | _ => trivial
      . apply ih _ _ h
        . rw [hframe.1]
          exact hsince
        . rw [hframe.1]
          exact hsound

theorem paced_start (config : Governor.Config) (createdAt : Nat) (server : IngestServer c d)
    : Paced config createdAt (start config createdAt server) := by
  constructor
  . exact Governor.sound_new config createdAt
  . rfl
  . rfl
  . exact Nat.le_refl _
  . simp [start, Falls.count]

theorem watched_start (config : Governor.Config) (createdAt : Nat) (server : IngestServer c d)
    : Watched (start config createdAt server) := by
  constructor
  . exact List.nil_prefix
  . simp [start]
  . simp [start]
  . exact Nat.zero_le _
  . simp [start, recorded, pending, Daemon.start]
  . intro _
    rfl

-- At most one record for every time that the level left safe mode, and these times are a window apart.
structure Restrained (config : Governor.Config) (createdAt : Nat) (st : Pressured c d) : Prop where
  records_le : recorded st.daemon ≤ Falls.count isL4 st.levels
  window_le :
    Falls.count isL4 st.levels * config.goodNewsWindow ≤ st.governor.state.atCurrentSince - createdAt

theorem Watched.restrained (h : Watched st) (hpaced : Paced config createdAt st)
    : Restrained config createdAt st := by
  constructor
  . have hrecords := h.records_le
    calc recorded st.daemon ≤ st.reports := by omega
      _ ≤ Falls.count isL4 st.heard := h.reports_le
      _ ≤ Falls.count isL4 st.levels := Falls.count_le_of_prefix h.heard
  . exact hpaced.window_le

/--
Whatever the connections, the collector and the governor do between the steps of the watcher, the audit
chain never holds more of its gaps than the level has left safe mode, and the level has left it no more
often than windows of good news have passed since the governor was created.
-/
theorem restrained_of_sorted (w : Writers) (config : Governor.Config) (createdAt : Nat)
    (server : IngestServer c d) (actions : List (Action c))
    (hsorted : (createdAt :: actions.filterMap time?).Pairwise (· ≤ ·))
    : Run.Always (step w) (Restrained config createdAt) (start config createdAt server) actions := by
  have hpaced := paced_start config createdAt server
  have htimely : Run.Guarded (step w) Timely (start config createdAt server) actions :=
    timely_of_sorted (Nat.le_refl _) hpaced.sound hsorted
  have hstep : ∀ (st : Pressured c d) (action : Action c), Paced config createdAt st ∧ Watched st →
      Timely st action → Paced config createdAt (st.step w action) ∧ Watched (st.step w action) := by
    rintro st action ⟨hpaced, hwatched⟩ haction
    exact ⟨hpaced.step haction, hwatched.step hpaced action⟩
  have hinv := Run.always_of_guarded ⟨hpaced, watched_start config createdAt server⟩ hstep htimely
  have hle : ∀ st : Pressured c d, Paced config createdAt st ∧ Watched st →
      Restrained config createdAt st := by
    rintro st ⟨hpaced, hwatched⟩
    exact hwatched.restrained hpaced
  exact hinv.mono hle

section Instances

def gapWriters : Writers :=
  { toyWriters with toVec summary _ := some [summary.frames.toNat.toUInt8] }

-- The heartbeats stop, a frame is dropped in safe mode, and the watcher reports it after the recovery.
def recoveredOnce : List (Action Crates.toy) :=
  [.subscribe, .enter, .govern (.shimHeartbeat 0), .govern (.tick 20000), .change, .borrow,
    .task (.ingest 1 (paymentFrame created 0)), .govern (.shimHeartbeat 60000), .change, .borrow,
    .emit ⟨60000, 0, ⟨⟨true, true, true⟩, .done, .done⟩, .done⟩, .task (.commit (.emitter false)),
    .emitted]

theorem restrained_of_sorted_recoveredOnce
    : recorded (Run.exec (step gapWriters) (start {} 0 (emptyServer smallLog 1000 .sqlite))
          recoveredOnce).daemon = 1
        ∧ Run.Always (step gapWriters) (Restrained {} 0)
          (start {} 0 (emptyServer smallLog 1000 .sqlite)) recoveredOnce :=
  ⟨by decide +kernel,
    restrained_of_sorted gapWriters {} 0 (emptyServer smallLog 1000 .sqlite) recoveredOnce (by decide)⟩

end Instances

end Pressured

end Athar
