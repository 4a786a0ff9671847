import Athar.Governor.Soundness
import Athar.Lib.Sustained

/-!
This module contains what the dead-man's switch trips on, in terms of the calls made so far: a run of
budget reports over the budget that began a window ago, or a heartbeat that is too long ago. The state
only keeps the start of the run, which every call brings up to date.
-/

namespace Athar.Governor

def overBudget (c : Config) (o : BudgetObservation) : Bool :=
  c.p99LatencyBudgetUs < o.p99LatencyUs

-- The latest budget report is over the budget, and so are all since one that is a window old.
def BreachSustained (c : Config) (calls : List Call) (now since : Nat) : Prop :=
  ∃ first, Sustained.began (overBudget c) (budgetReports calls) = some first
    ∧ first.takenAt = since ∧ c.sustainedBreachWindow ≤ now - since

def HeartbeatMissing (c : Config) (calls : List Call) (now since : Nat) : Prop :=
  (heartbeats calls).getLast? = some since ∧ c.shimHeartbeatTimeout ≤ now - since

-- A trip condition holds of the calls so far.
def tripping (c : Config) (calls : List Call) (now : Nat) : Bool :=
  (Sustained.began (overBudget c) (budgetReports calls)).any (c.sustainedBreachWindow ≤ now - ·.takenAt)
    || (heartbeats calls).getLast?.any (c.shimHeartbeatTimeout ≤ now - ·)

def BreachTracked (c : Config) (calls : List Call) (since : Option Nat) : Prop :=
  since = (Sustained.began (overBudget c) (budgetReports calls)).map (·.takenAt)

theorem Call.record_breachSince (s : State) (call : Call)
    : (call.record s).breachSince = s.breachSince := by
  cases call <;> rfl

section Breach

variable {c : Config} {s : State} {reports : List BudgetObservation}

-- Without a new report the run that goes on keeps its start.
theorem trackBreach_kept (hbudget : s.budget = reports.getLast?)
    (h : s.breachSince = (Sustained.began (overBudget c) reports).map (·.takenAt))
    : trackBreach c s = (Sustained.began (overBudget c) reports).map (·.takenAt) := by
  unfold trackBreach
  split
  . exact h
  . next b hb =>
    rw [hb] at hbudget
    split
    . next hover =>
      have hlast : overBudget c b = true := by simpa [overBudget] using hover
      rcases Sustained.began_isSome hbudget.symm hlast with ⟨first, hfirst⟩
      rw [h, hfirst]
      rfl
    . next hover =>
      have hlast : ¬overBudget c b = true := by simpa [overBudget] using hover
      rw [Sustained.began_of_last_failing hbudget.symm hlast]
      rfl

theorem trackBreach_report {o : BudgetObservation} (hbudget : s.budget = some o)
    (h : s.breachSince = (Sustained.began (overBudget c) reports).map (·.takenAt))
    : trackBreach c s = (Sustained.began (overBudget c) (reports ++ [o])).map (·.takenAt) := by
  unfold trackBreach
  rw [hbudget, h, Sustained.began_append]
  by_cases hover : o.p99LatencyUs > c.p99LatencyBudgetUs
  . have hreport : overBudget c o = true := by simpa [overBudget] using hover
    dsimp only
    rw [if_pos hover, if_pos hreport]
    cases Sustained.began (overBudget c) reports <;> rfl
  . have hreport : ¬overBudget c o = true := by simpa [overBudget] using hover
    dsimp only
    rw [if_neg hover, if_neg hreport]
    rfl

end Breach

theorem Recorded.trackBreach {c : Config} {calls : List Call} {s : State} (h : Recorded calls s)
    (hbreach : BreachTracked c calls s.breachSince) (call : Call)
    : BreachTracked c (calls ++ [call]) (trackBreach c (call.record s)) := by
  have hrecord := (h.record call).budget_eq
  unfold BreachTracked at hbreach ⊢
  rw [← call.record_breachSince] at hbreach
  rw [budgetReports_append] at hrecord ⊢
  cases hreport : call.budgetReport with
  | none =>
    rw [hreport, Option.toList_none, List.append_nil] at hrecord
    rw [Option.toList_none, List.append_nil]
    exact trackBreach_kept hrecord hbreach
  | some o =>
    rw [hreport, Option.toList_some, List.getLast?_concat] at hrecord
    exact trackBreach_report hrecord hbreach

theorem breachTracked_exec (config : Config) (createdAt : Nat) (calls : List Call)
    : BreachTracked config calls (Run.exec step (new config createdAt) calls).state.breachSince := by
  induction calls using List.reverseRecOn with
  | nil => rfl
  | append_singleton calls call ih =>
    rw [Run.exec_append, Run.exec_cons, Run.exec_nil, (step_state _ call).2.2.2.2, config_exec]
    exact (recorded_exec config createdAt calls).trackBreach ih call

section Trip

variable {c : Config} {s : State} {calls : List Call} {now : Nat}

theorem breachSustained_iff {tracked : Option Nat} (h : BreachTracked c calls tracked) {since : Nat}
    : BreachSustained c calls now since
        ↔ tracked = some since ∧ c.sustainedBreachWindow ≤ now - since := by
  unfold BreachSustained
  rw [h, Option.map_eq_some_iff]
  constructor
  . rintro ⟨first, hfirst, hsince, hwindow⟩
    exact ⟨⟨first, hfirst, hsince⟩, hwindow⟩
  . rintro ⟨⟨first, hfirst, hsince⟩, hwindow⟩
    exact ⟨first, hfirst, hsince, hwindow⟩

theorem breachTrip_eq_some_iff (h : Recorded calls s) (hbreach : BreachTracked c calls (trackBreach c s))
    {signal : DeadmanSignal}
    : breachTrip c s now = some signal
        ↔ ∃ since, BreachSustained c calls now since ∧ .tripped since .budgetBreach = signal := by
  have hsustained (since : Nat) : BreachSustained c calls now since
      ↔ trackBreach c s = some since ∧ c.sustainedBreachWindow ≤ now - since := by
    exact breachSustained_iff hbreach
  simp only [hsustained]
  unfold breachTrip
  cases hbudget : s.budget with
  | none =>
    -- Without a report there is no run of them.
    have hreports : budgetReports calls = [] := by
      rw [← List.getLast?_eq_none_iff, ← h.budget_eq]
      exact hbudget
    unfold BreachTracked at hbreach
    rw [hbreach, hreports]
    simp
  | some b =>
    unfold trackBreach
    rw [hbudget]
    by_cases hover : b.p99LatencyUs > c.p99LatencyBudgetUs
    . simp [hover]
    . simp [hover]

theorem heartbeatTrip_eq_some_iff (h : Recorded calls s) {signal : DeadmanSignal}
    : heartbeatTrip c s now = some signal
        ↔ ∃ since, HeartbeatMissing c calls now since ∧ .tripped since .noShimConfirmation = signal := by
  unfold heartbeatTrip HeartbeatMissing
  rw [h.heartbeat_eq]
  cases (heartbeats calls).getLast? with
  | none => simp
  | some last => simp

theorem tripping_iff
    : tripping c calls now = true
        ↔ (∃ since, BreachSustained c calls now since) ∨ ∃ since, HeartbeatMissing c calls now since := by
  unfold tripping BreachSustained HeartbeatMissing
  rw [Bool.or_eq_true]
  apply or_congr
  . cases Sustained.began (overBudget c) (budgetReports calls) <;> simp
  . cases (heartbeats calls).getLast? <;> simp

theorem trips_eq_tripping (h : Recorded calls s) (hbreach : BreachTracked c calls (trackBreach c s))
    : trips c s now = tripping c calls now := by
  rw [Bool.eq_iff_iff, tripping_iff]
  unfold trips
  rw [Bool.or_eq_true, Option.isSome_iff_exists, Option.isSome_iff_exists]
  simp only [breachTrip_eq_some_iff h hbreach, heartbeatTrip_eq_some_iff h, exists_comm (α := DeadmanSignal),
    exists_and_left, exists_eq', and_true]

theorem deadmanAt_of_ok (hok : s.deadman = .ok)
    : deadmanAt c s now = ((breachTrip c s now).or (heartbeatTrip c s now)).getD .ok := by
  unfold deadmanAt evaluateDeadman
  dsimp only
  cases (breachTrip c s now).or (heartbeatTrip c s now) with
  | some signal => rfl
  | none =>
    rw [hok]
    rfl

theorem deadmanAt_eq_tripped_iff (hok : s.deadman = .ok) {since : Nat} {reason : DeadmanReason}
    : deadmanAt c s now = .tripped since reason
        ↔ breachTrip c s now = some (.tripped since reason)
          ∨ breachTrip c s now = none ∧ heartbeatTrip c s now = some (.tripped since reason) := by
  rw [deadmanAt_of_ok hok]
  cases breachTrip c s now with
  | some signal => simp
  | none => cases heartbeatTrip c s now <;> simp

theorem tripped_iff (h : Recorded calls s) (hbreach : BreachTracked c calls (trackBreach c s))
    (hok : s.deadman = .ok) {since : Nat} {reason : DeadmanReason}
    : deadmanAt c s now = .tripped since reason
        ↔ (BreachSustained c calls now since ∧ reason = .budgetBreach)
          ∨ ((∀ start, ¬BreachSustained c calls now start)
            ∧ HeartbeatMissing c calls now since ∧ reason = .noShimConfirmation) := by
  have hnone : breachTrip c s now = none ↔ ∀ start, ¬BreachSustained c calls now start := by
    simp [Option.eq_none_iff_forall_ne_some, breachTrip_eq_some_iff h hbreach]
  rw [deadmanAt_eq_tripped_iff hok, hnone, breachTrip_eq_some_iff h hbreach, heartbeatTrip_eq_some_iff h]
  simp only [DeadmanSignal.tripped.injEq, ↓existsAndEq, true_and, eq_comm (a := reason)]

end Trip

/--
A call made while the switch is Ok trips it exactly when, at its time, a run of over-budget reports
goes on that began a window ago, or else the latest heartbeat is overdue. The switch then shows the
first of the two.
-/
theorem trips_iff (config : Config) (createdAt : Nat) (calls : List Call) (call : Call)
    (hok : (Run.exec step (new config createdAt) calls).currentDeadman = .ok)
    (since : Nat) (reason : DeadmanReason)
    : (Run.exec step (new config createdAt) (calls ++ [call])).currentDeadman = .tripped since reason
        ↔ (BreachSustained config (calls ++ [call]) call.time since ∧ reason = .budgetBreach)
          ∨ ((∀ start, ¬BreachSustained config (calls ++ [call]) call.time start)
            ∧ HeartbeatMissing config (calls ++ [call]) call.time since
            ∧ reason = .noShimConfirmation) := by
  have hsound := (always_sound config createdAt calls).last
  have hrecorded := recorded_exec config createdAt calls
  have hbreach := breachTracked_exec config createdAt calls
  rw [hsound.deadman_eq, ← call.record_deadman] at hok
  rw [Run.exec_append, Run.exec_cons, Run.exec_nil, hsound.deadman_step, config_exec]
  exact tripped_iff (hrecorded.record call) (hrecorded.trackBreach hbreach call) hok

section Instances

def overBudgetReport (takenAt : Nat) : BudgetObservation := ⟨200, 1500, 0, takenAt⟩

-- Two reports over the budget, a window before the tick, with a heartbeat between them.
def slowSoFar : List Call :=
  [.reportBudget (overBudgetReport 1000), .shimHeartbeat 2000, .reportBudget (overBudgetReport 4000)]

theorem trips_iff_slow
    : (Run.exec step (new {} 0) (slowSoFar ++ [.tick 11000])).currentDeadman = .tripped 1000 .budgetBreach
        ↔ (BreachSustained {} (slowSoFar ++ [.tick 11000]) 11000 1000
              ∧ DeadmanReason.budgetBreach = .budgetBreach)
          ∨ ((∀ start, ¬BreachSustained {} (slowSoFar ++ [.tick 11000]) 11000 start)
            ∧ HeartbeatMissing {} (slowSoFar ++ [.tick 11000]) 11000 1000
            ∧ DeadmanReason.budgetBreach = .noShimConfirmation) :=
  trips_iff {} 0 slowSoFar (.tick 11000) (by decide) 1000 .budgetBreach

end Instances

end Athar.Governor
