import Athar.Governor.Lemmas
import Athar.Lib.Run

/-!
This module contains what the state of the governor keeps of the calls made so far: of every kind the
latest one, and nothing of the others.
-/

namespace Athar.Governor

def Call.hostReport : Call → Option HostMetrics
  | .reportHost m => some m
  | _ => none

def Call.budgetReport : Call → Option BudgetObservation
  | .reportBudget o => some o
  | _ => none

def Call.heartbeat : Call → Option Nat
  | .shimHeartbeat now => some now
  | _ => none

def hostReports (calls : List Call) : List HostMetrics :=
  calls.filterMap Call.hostReport

def budgetReports (calls : List Call) : List BudgetObservation :=
  calls.filterMap Call.budgetReport

def heartbeats (calls : List Call) : List Nat :=
  calls.filterMap Call.heartbeat

-- What the latest reports of the two kinds call for.
def reportedLevel (c : Config) (calls : List Call) : PressureLevel :=
  max ((hostReports calls).getLast?.elim .l0Normal (hostLevel c))
    ((budgetReports calls).getLast?.elim .l0Normal (budgetLevel c))

-- The fields of the state that calls write down, as the calls so far left them.
structure Recorded (calls : List Call) (s : State) : Prop where
  host_eq : s.host = (hostReports calls).getLast?
  budget_eq : s.budget = (budgetReports calls).getLast?
  heartbeat_eq : s.lastHeartbeat = (heartbeats calls).getLast?

theorem filterMap_append_singleton {β : Type} (kind : Call → Option β) (calls : List Call) (call : Call)
    : (calls ++ [call]).filterMap kind = calls.filterMap kind ++ (kind call).toList := by
  rw [List.filterMap_append]
  cases h : kind call <;> simp [h]

theorem budgetReports_append (calls : List Call) (call : Call)
    : budgetReports (calls ++ [call]) = budgetReports calls ++ call.budgetReport.toList :=
  filterMap_append_singleton Call.budgetReport calls call

variable {calls : List Call} {s : State}

theorem Recorded.record (h : Recorded calls s) (call : Call)
    : Recorded (calls ++ [call]) (call.record s) := by
  constructor
  . rw [hostReports, filterMap_append_singleton]
    cases call <;> simp [Call.record, Call.hostReport, h.host_eq, hostReports]
  . rw [budgetReports, filterMap_append_singleton]
    cases call <;> simp [Call.record, Call.budgetReport, h.budget_eq, budgetReports]
  . rw [heartbeats, filterMap_append_singleton]
    cases call <;> simp [Call.record, Call.heartbeat, h.heartbeat_eq, heartbeats]

theorem Recorded.intrinsicLevel_eq (h : Recorded calls s) (c : Config)
    : intrinsicLevel c s = reportedLevel c calls := by
  unfold intrinsicLevel reportedLevel
  rw [h.host_eq, h.budget_eq]
  cases (hostReports calls).getLast? <;> cases (budgetReports calls).getLast? <;> simp [l0Normal_le]

theorem step_state (g : Governor) (call : Call)
    : (g.step call).config = g.config
        ∧ (g.step call).state.host = (call.record g.state).host
        ∧ (g.step call).state.budget = (call.record g.state).budget
        ∧ (g.step call).state.lastHeartbeat = (call.record g.state).lastHeartbeat
        ∧ (g.step call).state.breachSince = trackBreach g.config (call.record g.state) := by
  unfold step
  rw [recompute_eq]
  exact ⟨rfl, rfl, rfl, rfl, rfl⟩

theorem Recorded.step {g : Governor} (h : Recorded calls g.state) (call : Call)
    : Recorded (calls ++ [call]) (g.step call).state := by
  rcases step_state g call with ⟨_, hhost, hbudget, hheartbeat, _⟩
  have hrecord := h.record call
  constructor
  . rw [hhost]
    exact hrecord.host_eq
  . rw [hbudget]
    exact hrecord.budget_eq
  . rw [hheartbeat]
    exact hrecord.heartbeat_eq

theorem recorded_exec (config : Config) (createdAt : Nat) (calls : List Call)
    : Recorded calls (Run.exec Governor.step (new config createdAt) calls).state := by
  induction calls using List.reverseRecOn with
  | nil => constructor <;> rfl
  | append_singleton calls call ih =>
    rw [Run.exec_append, Run.exec_cons, Run.exec_nil]
    exact ih.step call

theorem config_exec (config : Config) (createdAt : Nat) (calls : List Call)
    : (Run.exec Governor.step (new config createdAt) calls).config = config := by
  induction calls using List.reverseRecOn with
  | nil => rfl
  | append_singleton calls call ih =>
    rw [Run.exec_append, Run.exec_cons, Run.exec_nil, (step_state _ call).1]
    exact ih

end Athar.Governor
