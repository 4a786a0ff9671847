import Athar.Governor.Deadman

/-!
This module contains the two recoveries of the governor over runs, the lowering of the pressure level
and the clearing of the dead-man's switch. Both should take a good-news window without bad readings,
but both only measure the time since the trouble began. They are right in the runs in which that is as
good: no lowered level was found again after it was entered, and the switch sees outages that are short.
-/

namespace Athar.Governor

-- What a call finds, before the hysteresis.
structure Reading where
  time : Nat
  intrinsic : PressureLevel
  trips : Bool
  deriving DecidableEq, Repr

def Reading.below (level : PressureLevel) (r : Reading) : Bool :=
  r.intrinsic < level

-- No trip condition holds and the reports call for no reduction.
def Reading.quiet (r : Reading) : Bool :=
  !r.trips && r.intrinsic = .l0Normal

-- A governor with its calls so far and their readings.
structure Watched where
  governor : Governor
  calls : List Call
  log : List Reading

namespace Watched

def start (config : Config) (createdAt : Nat) : Watched := ⟨new config createdAt, [], []⟩

-- The level that the latest reports call for, and whether a trip condition holds.
def read (w : Watched) (call : Call) : Reading where
  time := call.time
  intrinsic := reportedLevel w.governor.config (w.calls ++ [call])
  trips := tripping w.governor.config (w.calls ++ [call]) call.time

def step (w : Watched) (call : Call) : Watched where
  governor := w.governor.step call
  calls := w.calls ++ [call]
  log := w.log ++ [w.read call]

def window (w : Watched) : Nat := w.governor.config.goodNewsWindow

-- The level only goes down when every call of the window, and some call before it, found a lower one.
def LoweredAfterRecovery (w : Watched) (call : Call) : Prop :=
  (w.step call).governor.currentLevel < w.governor.currentLevel →
    Sustained.Throughout Reading.time (Reading.below w.governor.currentLevel) w.window call.time
        (w.step call).log
      ∧ ∃ r ∈ (w.step call).log, r.time + w.window ≤ call.time
        ∧ r.below w.governor.currentLevel = true

-- The switch only clears when every call of the window found all quiet, and not at a single call.
def ClearedAfterRecovery (w : Watched) (call : Call) : Prop :=
  w.governor.currentDeadman ≠ .ok → (w.step call).governor.currentDeadman = .ok →
    Sustained.Throughout Reading.time Reading.quiet w.window call.time (w.step call).log
      ∧ ∀ r, w.log.getLast? = some r → r.quiet = true

-- The call finds a lower level, a window or more after the current one was entered.
def FindsLower (w : Watched) (call : Call) : Prop :=
  (w.read call).below w.governor.currentLevel = true
    ∧ w.window ≤ call.time - w.governor.state.atCurrentSince

-- The call finds all quiet, a window or more after the time that the tripped switch is stamped with.
def FindsQuiet (w : Watched) (call : Call) : Prop :=
  (w.read call).quiet = true
    ∧ ∃ since reason, w.governor.currentDeadman = .tripped since reason
      ∧ w.window ≤ call.time - since

-- A call has found the level again after the time that it was entered.
def FoundAgain (w : Watched) : Prop :=
  ∃ r ∈ w.log, w.governor.state.atCurrentSince < r.time ∧ r.intrinsic = w.governor.currentLevel

-- A level that is lowered was not found again, is not left on the stroke of the window, and is above the
-- one that the first call of the run found.
def LowersFresh (w : Watched) (call : Call) : Prop :=
  w.FindsLower call →
    ¬w.FoundAgain ∧ call.time ≠ w.governor.state.atCurrentSince + w.window
      ∧ ∀ first ∈ w.log.head?, first.below w.governor.currentLevel = true

def stamp : DeadmanSignal → Option Nat
  | .ok => none
  | .tripped since _ => some since

-- While the switch is tripped, the first call to find all quiet again comes within a window of the stamp,
-- and none does between one and two windows after the stamp.
def RecoversInTime (w : Watched) (call : Call) : Prop :=
  (w.read call).quiet = true →
    ∀ since ∈ stamp w.governor.currentDeadman,
      (call.time - since < w.window ∨ 2 * w.window ≤ call.time - since)
        ∧ ∀ r ∈ w.log.getLast?, r.quiet = false → call.time - since < w.window

-- What is known of a run up to a call, when the times of the calls do not decrease.
structure Ordered (w : Watched) (call : Call) : Prop where
  sound : w.governor.Sound
  sorted : (w.log ++ [w.read call]).Pairwise (·.time ≤ ·.time)
  intrinsic_eq : (w.read call).intrinsic = intrinsicLevel w.governor.config (call.record w.governor.state)
  trips_eq : (w.read call).trips = trips w.governor.config (call.record w.governor.state) call.time

theorem step_log (w : Watched) (call : Call) : (w.step call).log = w.log ++ [w.read call] := by
  rfl

theorem log_times (config : Config) (createdAt : Nat) (calls : List Call)
    : (Run.exec step (start config createdAt) calls).log.map (·.time) = calls.map Call.time := by
  induction calls using List.reverseRecOn with
  | nil => rfl
  | append_singleton calls call ih =>
    rw [Run.exec_append, Run.exec_cons, Run.exec_nil, step_log, List.map_append, List.map_append, ih]
    rfl

theorem governor_exec (config : Config) (createdAt : Nat) (calls : List Call)
    : (Run.exec step (start config createdAt) calls).governor
        = Run.exec Governor.step (new config createdAt) calls := by
  induction calls using List.reverseRecOn with
  | nil => rfl
  | append_singleton calls call ih =>
    rw [Run.exec_append, Run.exec_append, ← ih]
    rfl

theorem calls_exec (config : Config) (createdAt : Nat) (calls : List Call)
    : (Run.exec step (start config createdAt) calls).calls = calls := by
  induction calls using List.reverseRecOn with
  | nil => rfl
  | append_singleton calls call ih =>
    rw [Run.exec_append, Run.exec_cons, Run.exec_nil]
    exact congrArg (· ++ [call]) ih

theorem guarded_ordered (config : Config) (createdAt : Nat) {calls : List Call}
    (hsorted : (calls.map Call.time).Pairwise (· ≤ ·))
    : Run.Guarded step Ordered (start config createdAt) calls := by
  intro pre call hpre
  have hrecorded := recorded_exec config createdAt pre
  have hbreach := breachTracked_exec config createdAt pre
  rw [← governor_exec] at hrecorded hbreach
  have hconfig : (Run.exec step (start config createdAt) pre).governor.config = config := by
    rw [governor_exec, config_exec]
  constructor
  . rw [governor_exec]
    have hprefix := (List.prefix_append pre [call]).trans hpre
    exact always_sound config createdAt calls pre hprefix
  . have htimes := hsorted.sublist (hpre.sublist.map Call.time)
    have hlog := log_times config createdAt (pre ++ [call])
    rw [Run.exec_append, Run.exec_cons, Run.exec_nil] at hlog
    rw [← hlog] at htimes
    exact List.pairwise_map.mp htimes
  . unfold read
    rw [calls_exec, (hrecorded.record call).intrinsicLevel_eq]
  . unfold read
    rw [calls_exec, hconfig]
    exact (trips_eq_tripping (hrecorded.record call) (hrecorded.trackBreach hbreach call)).symm

theorem lowered_iff {w : Watched} {call : Call} (h : w.Ordered call)
    (hok : (w.step call).governor.currentDeadman = .ok)
    : (w.step call).governor.currentLevel < w.governor.currentLevel ↔ w.FindsLower call := by
  have hlevel := h.sound.level_step call
  have hdeadman := h.sound.deadman_step call
  unfold step at hok
  rw [hok] at hdeadman
  unfold step FindsLower Reading.below window
  rw [h.intrinsic_eq, hlevel, h.sound.level_eq, ← call.record_current, levelAt_lt_iff, ← hdeadman,
    targetLevel_ok, call.record_atCurrentSince, decide_eq_true_iff]

theorem cleared_iff {w : Watched} {call : Call} (h : w.Ordered call)
    : w.governor.currentDeadman ≠ .ok ∧ (w.step call).governor.currentDeadman = .ok
        ↔ w.FindsQuiet call := by
  have hdeadman := h.sound.deadman_step call
  have hstate := h.sound.deadman_eq
  rw [← call.record_deadman] at hstate
  unfold step FindsQuiet Reading.quiet window
  rw [h.intrinsic_eq, h.trips_eq, hdeadman, hstate, deadmanAt_eq_ok_iff]
  cases hbefore : (call.record w.governor.state).deadman with
  | ok => simp
  | tripped since reason => simp [and_assoc]

theorem Ordered.time_le {w : Watched} {call : Call} (h : w.Ordered call) {r : Reading} (hr : r ∈ w.log)
    : r.time ≤ call.time :=
  (List.pairwise_append.mp h.sorted).2.2 r hr _ (List.mem_singleton_self _)

-- What is known of the level while it stays: a call entered it, unless it is the initial one, and none has
-- found a higher one since.
structure Stay (w : Watched) : Prop where
  entered : w.governor.currentLevel = .l0Normal
    ∨ ∃ r ∈ w.log, r.time = w.governor.state.atCurrentSince
  intrinsic_le : ∀ r ∈ w.log, w.governor.state.atCurrentSince < r.time →
    r.intrinsic ≤ w.governor.currentLevel

theorem stay_start (config : Config) (createdAt : Nat) : (start config createdAt).Stay := by
  constructor
  . exact Or.inl rfl
  . intro r hr
    contradiction

theorem Stay.step {w : Watched} (h : w.Stay) {call : Call} (hordered : w.Ordered call)
    : (w.step call).Stay := by
  have hsince : (w.step call).governor.state.atCurrentSince
      = if (w.step call).governor.currentLevel ≠ w.governor.currentLevel then call.time
        else w.governor.state.atCurrentSince := hordered.sound.atCurrentSince_step call
  have hread : w.read call ∈ (w.step call).log := by
    rw [step_log]
    exact List.mem_append_right _ (List.mem_singleton_self _)
  by_cases hlevel : (w.step call).governor.currentLevel = w.governor.currentLevel
  . have hsame : (w.step call).governor.state.atCurrentSince = w.governor.state.atCurrentSince := by
      rw [hsince, if_neg (not_not.mpr hlevel)]
    constructor
    . rw [hsame, hlevel, step_log]
      apply h.entered.imp_right
      rintro ⟨r, hr, htime⟩
      exact ⟨r, List.mem_append_left _ hr, htime⟩
    . intro r hr hlater
      rw [step_log, List.mem_append, List.mem_singleton] at hr
      rw [hsame] at hlater
      cases hr with
      | inl hold =>
        rw [hlevel]
        exact h.intrinsic_le r hold hlater
      | inr hnew =>
        rw [hnew, hordered.intrinsic_eq]
        exact ((intrinsic_le_target _).trans target_le_levelAt).trans_eq
          (hordered.sound.level_step call).symm
  . have hnow : (w.step call).governor.state.atCurrentSince = call.time := by
      rw [hsince, if_pos hlevel]
    constructor
    . rw [hnow]
      exact Or.inr ⟨_, hread, rfl⟩
    . intro r hr hlater
      rw [hnow] at hlater
      rw [step_log, List.mem_append, List.mem_singleton] at hr
      cases hr with
      | inl hold => exact absurd (hordered.time_le hold) (Nat.not_le.mpr hlater)
      | inr hnew =>
        rw [hnew] at hlater
        exact absurd hlater (Nat.lt_irrefl _)

theorem loweredAfterRecovery_of_fresh {w : Watched} {call : Call} (hstay : w.Stay) (h : w.Ordered call)
    (hok : (w.step call).governor.currentDeadman = .ok) (hfresh : w.LowersFresh call)
    : w.LoweredAfterRecovery call := by
  intro hlowered
  have hfinds := (lowered_iff h hok).mp hlowered
  rcases hfresh hfinds with ⟨hagain, hedge, hfirst⟩
  rcases hfinds with ⟨hbelow, hwindow⟩
  have hlevel : w.governor.currentLevel ≠ .l0Normal := by
    intro hlevel
    rw [hlevel, Reading.below, decide_eq_true_iff] at hbelow
    exact absurd (l0Normal_le _) (not_le.mpr hbelow)
  rcases hstay.entered.resolve_left hlevel with ⟨entry, hentry, hsince⟩
  have hpast := h.time_le hentry
  rw [step_log]
  constructor
  . rw [Sustained.throughout_append]
    refine ⟨?_, fun _ => hbelow⟩
    intro r hr hrecent
    have hlater : w.governor.state.atCurrentSince < r.time := by omega
    have hle := hstay.intrinsic_le r hr hlater
    have hne : r.intrinsic ≠ w.governor.currentLevel := by
      intro heq
      exact hagain ⟨r, hr, hlater, heq⟩
    exact decide_eq_true (lt_of_le_of_ne hle hne)
  . cases hlog : w.log with
    | nil =>
      rw [hlog] at hentry
      contradiction
    | cons first rest =>
      have hsorted := (List.pairwise_append.mp h.sorted).1
      rw [hlog] at hentry hsorted
      have hle : first.time ≤ entry.time := by
        cases hentry with
        | head => exact Nat.le_refl _
        | tail _ hrest => exact (List.pairwise_cons.mp hsorted).1 entry hrest
      refine ⟨first, by simp, by omega, hfirst first ?_⟩
      rw [hlog]
      rfl

-- A switch that is still tripped after a quiet call is stamped less than a window before it.
def InTime (w : Watched) : Prop :=
  ∀ r since reason, w.log.getLast? = some r → r.quiet = true →
    w.governor.currentDeadman = .tripped since reason → r.time - since < w.window

theorem step_window (w : Watched) (call : Call) : (w.step call).window = w.window := by
  unfold window step
  rw [(step_state w.governor call).1]

theorem inTime_step {w : Watched} {call : Call} (h : w.Ordered call) : (w.step call).InTime := by
  intro r since reason hlast hquiet htripped
  rw [step_log, List.getLast?_concat, Option.some.injEq] at hlast
  subst hlast
  rw [step_window]
  unfold Reading.quiet at hquiet
  rw [Bool.and_eq_true, Bool.not_eq_true', decide_eq_true_iff, h.intrinsic_eq, h.trips_eq] at hquiet
  unfold step at htripped
  rw [h.sound.deadman_step] at htripped
  exact preserved_of_not_trips hquiet.1 htripped hquiet.2

theorem clearedAfterRecovery_of_inTime {w : Watched} {call : Call} (hin : w.InTime) (h : w.Ordered call)
    (hrecovers : w.RecoversInTime call) : w.ClearedAfterRecovery call := by
  intro hbefore hafter
  rcases (cleared_iff h).mp ⟨hbefore, hafter⟩ with ⟨hquiet, since, reason, htripped, hwindow⟩
  have hstamp : since ∈ stamp w.governor.currentDeadman := by
    rw [htripped]
    rfl
  rcases hrecovers hquiet since hstamp with ⟨htime, hfirst⟩
  have htwo : 2 * w.window ≤ call.time - since := by omega
  have hlast : ∀ r, w.log.getLast? = some r → r.quiet = true := by
    intro r hr
    cases hr' : r.quiet with
    | true => rfl
    | false => exact absurd (hfirst r hr hr') (Nat.not_lt.mpr hwindow)
  refine ⟨?_, hlast⟩
  rw [step_log, Sustained.throughout_append]
  refine ⟨?_, fun _ => hquiet⟩
  intro x hx hrecent
  -- The last call before this one is at least as late, and less than a window after the stamp.
  rcases List.eq_nil_or_concat w.log with hnil | ⟨older, r, hlog⟩
  . rw [hnil] at hx
    contradiction
  . have hr : w.log.getLast? = some r := by
      rw [hlog, List.concat_eq_append, List.getLast?_concat]
    have hshort := hin r since reason hr (hlast r hr) htripped
    have hsorted := (List.pairwise_append.mp h.sorted).1
    rw [hlog, List.concat_eq_append] at hsorted hx
    have hle : x.time ≤ r.time := by
      rw [List.mem_append, List.mem_singleton] at hx
      cases hx with
      | inl hold => exact (List.pairwise_append.mp hsorted).2.2 x hold r (List.mem_singleton_self r)
      | inr hsame => rw [hsame]
    omega

end Watched

/--
In every run in which the switch never trips and no call lowers a level that was found again since it was
entered, that the run began with, or that was entered exactly a window before, every lowering of the
pressure level follows a window of lower readings.
-/
theorem lowered_of_lowersFresh (config : Config) (createdAt : Nat) (calls : List Call)
    (hsorted : (calls.map Call.time).Pairwise (· ≤ ·))
    (hok : Run.Always Watched.step (·.governor.currentDeadman = .ok) (.start config createdAt) calls)
    (hfresh : Run.Guarded Watched.step Watched.LowersFresh (.start config createdAt) calls)
    : Run.Guarded Watched.step Watched.LoweredAfterRecovery (.start config createdAt) calls := by
  have hordered := Watched.guarded_ordered config createdAt hsorted
  have hstay : Run.Always Watched.step Watched.Stay (.start config createdAt) calls :=
    Run.always_of_guarded (Watched.stay_start config createdAt) (fun w call h hcall => h.step hcall) hordered
  refine Run.Guarded.imp ?_ ((hstay.guard hordered).and (hok.after.and hfresh))
  rintro w call ⟨⟨hstay, hordered⟩, hok, hfresh⟩
  exact Watched.loweredAfterRecovery_of_fresh hstay hordered hok hfresh

section Instances

def busyHost (takenAt : Nat) : HostMetrics := ⟨5, 70, 60, takenAt⟩

def healthyHost (takenAt : Nat) : HostMetrics := ⟨80, 70, 60, takenAt⟩

-- A long stay at L2, up to a millisecond before the healthy report.
def longStay : List Call :=
  [.reportHost (busyHost 0), .reportHost (busyHost 100000), .reportHost (healthyHost 100001)]

-- A minute of healthy reports after the last busy one.
def slowRecovery : List Call :=
  [.tick 0, .reportHost (busyHost 1000), .reportHost (healthyHost 2000), .tick 40000]

theorem lowered_of_lowersFresh_slowRecovery
    : Run.Guarded Watched.step Watched.LoweredAfterRecovery (.start {} 0) slowRecovery := by
  apply lowered_of_lowersFresh {} 0 slowRecovery (by decide)
  . simp only [slowRecovery, Run.always_cons, Run.always_nil]
    decide
  . simp only [slowRecovery, Run.guarded_cons, Run.guarded_nil, Watched.LowersFresh, Watched.FindsLower,
      Watched.FoundAgain]
    decide

theorem longStay_lowered
    : (longStay.map Call.time).Pairwise (· ≤ ·)
        ∧ Run.Always Watched.step (·.governor.currentDeadman = .ok) (.start {} 0) longStay
        ∧ ¬Run.Guarded Watched.step Watched.LoweredAfterRecovery (.start {} 0) longStay := by
  refine ⟨by decide, ?_, ?_⟩
  . simp only [longStay, Run.always_cons, Run.always_nil]
    decide
  . intro h
    have hlast := h [.reportHost (busyHost 0), .reportHost (busyHost 100000)]
      (.reportHost (healthyHost 100001)) (List.prefix_refl _)
    have hbelow := (hlast (by decide)).1 ⟨100000, .l2Defer, false⟩ (by decide) (by decide)
    contradiction

end Instances

/--
In every run in which the first call to find all quiet again comes less than a window after the stamp of
the tripped switch, and no call finds so between one and two windows after it, the switch clears only
after a window in which every call found all quiet, and never at a single quiet call.
-/
theorem cleared_of_recoversInTime (config : Config) (createdAt : Nat) (calls : List Call)
    (hsorted : (calls.map Call.time).Pairwise (· ≤ ·))
    (hrecovers : Run.Guarded Watched.step Watched.RecoversInTime (.start config createdAt) calls)
    : Run.Guarded Watched.step Watched.ClearedAfterRecovery (.start config createdAt) calls := by
  have hordered := Watched.guarded_ordered config createdAt hsorted
  have hstart : (Watched.start config createdAt).InTime := by
    intro r since reason hlast
    contradiction
  have hin : Run.Always Watched.step Watched.InTime (.start config createdAt) calls :=
    Run.always_of_guarded hstart (fun w call _ hcall => Watched.inTime_step hcall) hordered
  refine Run.Guarded.imp ?_ ((hin.guard hordered).and hrecovers)
  rintro w call ⟨⟨hin, hordered⟩, hrecovers⟩
  exact Watched.clearedAfterRecovery_of_inTime hin hordered hrecovers

section Instances

-- The heartbeats stop for a long time; the first one after it clears the switch.
def outage : List Call :=
  [.shimHeartbeat 0, .tick 100000, .shimHeartbeat 100001]

-- Ten seconds over the budget, and nothing but quiet calls from five seconds later on.
def shortOutage : List Call :=
  [.reportBudget ⟨200, 1500, 0, 0⟩, .reportBudget ⟨200, 1500, 0, 10000⟩,
    .reportBudget ⟨200, 500, 0, 15000⟩, .tick 60000]

theorem cleared_of_recoversInTime_shortOutage
    : Run.Guarded Watched.step Watched.ClearedAfterRecovery (.start {} 0) shortOutage := by
  apply cleared_of_recoversInTime {} 0 shortOutage (by decide)
  simp only [shortOutage, Run.guarded_cons, Run.guarded_nil, Watched.RecoversInTime]
  decide

theorem outage_cleared
    : (outage.map Call.time).Pairwise (· ≤ ·)
        ∧ ¬Run.Guarded Watched.step Watched.ClearedAfterRecovery (.start {} 0) outage := by
  refine ⟨by decide, ?_⟩
  intro h
  have hlast := h [.shimHeartbeat 0, .tick 100000] (.shimHeartbeat 100001) (List.prefix_refl _)
  have hquiet := (hlast (by decide) (by decide)).1 ⟨100000, .l0Normal, true⟩ (by decide) (by decide)
  contradiction

end Instances

end Athar.Governor
