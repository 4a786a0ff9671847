import Mathlib.Data.Rat.Defs
import Mathlib.Order.Lattice

/-!
This module contains the governor: the degradation ladder with the priority classes that each level
lets through, the level that the latest host and budget reports call for, the dead-man's switch, and
the hysteresis between them and the level that is published.

Instants and durations are natural numbers, so that their difference saturates at zero. Metrics are
exact.
-/

namespace Athar

inductive PressureLevel where
  | l0Normal
  | l1Reduce
  | l2Defer
  | l3Essential
  | l4SafeMode
  deriving DecidableEq, Repr

inductive Priority where
  | p0
  | p1
  | p2
  | p3
  | p4
  deriving DecidableEq, Repr

def PressureLevel.allows : PressureLevel → Priority → Bool
  | .l0Normal, _ => true
  | .l1Reduce, .p4 => false
  | .l1Reduce, _ => true
  | .l2Defer, .p3 | .l2Defer, .p4 => false
  | .l2Defer, _ => true
  | .l3Essential, .p0 | .l3Essential, .p1 => true
  | .l3Essential, _ => false
  | .l4SafeMode, .p0 => true
  | .l4SafeMode, _ => false

def PressureLevel.rank : PressureLevel → Nat
  | .l0Normal => 0
  | .l1Reduce => 1
  | .l2Defer => 2
  | .l3Essential => 3
  | .l4SafeMode => 4

-- The order of the declaration.
instance : LinearOrder PressureLevel where
  le a b := a.rank ≤ b.rank
  lt a b := a.rank < b.rank
  le_refl a := Nat.le_refl a.rank
  le_trans _ _ _ := Nat.le_trans
  lt_iff_le_not_ge _ _ := Nat.lt_iff_le_and_not_ge
  le_antisymm a b hab hba := by
    have hrank : a.rank = b.rank := Nat.le_antisymm hab hba
    cases a <;> cases b <;> first | rfl | contradiction
  le_total a b := Nat.le_total a.rank b.rank
  toDecidableLE a b := inferInstanceAs (Decidable (a.rank ≤ b.rank))

structure HostMetrics where
  cpuHeadroomPct : ℚ
  memoryFreePct : ℚ
  diskFreePct : ℚ
  takenAt : Nat
  deriving DecidableEq, Repr

structure BudgetObservation where
  p50LatencyUs : Nat
  p99LatencyUs : Nat
  throughputDeltaPct : ℚ
  takenAt : Nat
  deriving DecidableEq, Repr

inductive DeadmanReason where
  | budgetBreach
  | selfCheckFailure
  | noShimConfirmation
  deriving DecidableEq, Repr

inductive DeadmanSignal where
  | ok
  | tripped (since : Nat) (reason : DeadmanReason)
  deriving DecidableEq, Repr

structure Governor.Config where
  cpuHeadroomL1Pct : ℚ := 20
  cpuHeadroomL2Pct : ℚ := 10
  memoryFreeL1Pct : ℚ := 15
  memoryFreeL2Pct : ℚ := 10
  diskFreeL1Pct : ℚ := 15
  diskFreeL2Pct : ℚ := 10
  p99LatencyBudgetUs : Nat := 1000
  p99LatencyL2Us : Nat := 2000
  p99LatencyL3Us : Nat := 5000
  -- Durations are in milliseconds.
  goodNewsWindow : Nat := 30000
  sustainedBreachWindow : Nat := 10000
  shimHeartbeatTimeout : Nat := 15000
  deriving DecidableEq, Repr

structure Governor.State where
  host : Option HostMetrics
  budget : Option BudgetObservation
  lastHeartbeat : Option Nat
  breachSince : Option Nat
  atCurrentSince : Nat
  current : PressureLevel
  deadman : DeadmanSignal
  deriving DecidableEq, Repr

structure Governor where
  config : Governor.Config
  pressureTx : PressureLevel
  deadmanTx : DeadmanSignal
  state : Governor.State
  deriving DecidableEq, Repr

def bucket3 (observed l1 l2 : ℚ) : PressureLevel :=
  if observed < l2 then .l2Defer
  else if observed < l1 then .l1Reduce
  else .l0Normal

def latencyBucket (observedUs budget l2 l3 : Nat) : PressureLevel :=
  if observedUs ≥ l3 then .l3Essential
  else if observedUs ≥ l2 then .l2Defer
  else if observedUs > budget then .l1Reduce
  else .l0Normal

namespace Governor

def new (config : Config) (now : Nat) : Governor where
  config
  pressureTx := .l0Normal
  deadmanTx := .ok
  state :=
    { host := none
      budget := none
      lastHeartbeat := none
      breachSince := none
      atCurrentSince := now
      current := .l0Normal
      deadman := .ok }

def currentLevel (g : Governor) : PressureLevel := g.pressureTx

def currentDeadman (g : Governor) : DeadmanSignal := g.deadmanTx

def hostLevel (c : Config) (h : HostMetrics) : PressureLevel :=
  max (max (bucket3 h.cpuHeadroomPct c.cpuHeadroomL1Pct c.cpuHeadroomL2Pct)
      (bucket3 h.memoryFreePct c.memoryFreeL1Pct c.memoryFreeL2Pct))
    (bucket3 h.diskFreePct c.diskFreeL1Pct c.diskFreeL2Pct)

def budgetLevel (c : Config) (b : BudgetObservation) : PressureLevel :=
  latencyBucket b.p99LatencyUs c.p99LatencyBudgetUs c.p99LatencyL2Us c.p99LatencyL3Us

def intrinsicLevel (c : Config) (s : State) : PressureLevel :=
  let worst := PressureLevel.l0Normal
  let worst := s.host.elim worst fun h => max worst (hostLevel c h)
  s.budget.elim worst fun b => max worst (budgetLevel c b)

-- The start of the breach that goes on, which is the first report of it.
def trackBreach (c : Config) (s : State) : Option Nat :=
  match s.budget with
  | none => s.breachSince
  | some b =>
    if b.p99LatencyUs > c.p99LatencyBudgetUs then some (s.breachSince.getD b.takenAt) else none

-- Trip on sustained PERF-2 breach.
def breachTrip (c : Config) (s : State) (now : Nat) : Option DeadmanSignal :=
  match s.budget with
  | none => none
  | some b =>
    if b.p99LatencyUs > c.p99LatencyBudgetUs then
      let start := s.breachSince.getD b.takenAt
      if now - start ≥ c.sustainedBreachWindow then some (.tripped start .budgetBreach) else none
    else
      none

-- Trip on missing shim heartbeats.
def heartbeatTrip (c : Config) (s : State) (now : Nat) : Option DeadmanSignal :=
  match s.lastHeartbeat with
  | none => none
  | some last =>
    if now - last ≥ c.shimHeartbeatTimeout then some (.tripped last .noShimConfirmation) else none

def evaluateDeadman (c : Config) (s : State) (now : Nat) (intrinsic : PressureLevel)
    : State × DeadmanSignal :=
  let tripped := (breachTrip c s now).or (heartbeatTrip c s now)
  let s := { s with breachSince := trackBreach c s }
  match tripped with
  | some signal => (s, signal)
  | none =>
    match s.deadman with
    | .tripped since reason =>
      if intrinsic = .l0Normal ∧ now - since ≥ c.goodNewsWindow then
        (s, .ok)
      else
        (s, .tripped since reason)
    | .ok => (s, .ok)

def applyHysteresis (c : Config) (s : State) (target : PressureLevel) (now : Nat) : PressureLevel :=
  if target ≥ s.current then target
  else if now - s.atCurrentSince ≥ c.goodNewsWindow then target
  else s.current

def targetLevel (deadman : DeadmanSignal) (intrinsic : PressureLevel) : PressureLevel :=
  match deadman with
  | .tripped _ _ => .l4SafeMode
  | .ok => intrinsic

def recompute (g : Governor) (s : State) (now : Nat) : Governor :=
  let intrinsic := intrinsicLevel g.config s
  let (s, deadman) := evaluateDeadman g.config s now intrinsic
  let deadmanTx := if deadman ≠ s.deadman then deadman else g.deadmanTx
  let s := { s with deadman }
  let newLevel := applyHysteresis g.config s (targetLevel deadman intrinsic) now
  if newLevel ≠ s.current then
    { g with
      pressureTx := newLevel
      deadmanTx
      state := { s with current := newLevel, atCurrentSince := now } }
  else
    { g with deadmanTx, state := s }

inductive Call where
  | reportHost (m : HostMetrics)
  | reportBudget (o : BudgetObservation)
  | shimHeartbeat (now : Nat)
  | tick (now : Nat)
  deriving DecidableEq, Repr

def Call.time : Call → Nat
  | .reportHost m => m.takenAt
  | .reportBudget o => o.takenAt
  | .shimHeartbeat now => now
  | .tick now => now

-- What a call writes down before it recomputes.
def Call.record (s : State) : Call → State
  | .reportHost m => { s with host := some m }
  | .reportBudget o => { s with budget := some o }
  | .shimHeartbeat now => { s with lastHeartbeat := some now }
  | .tick _ => s

def step (g : Governor) (call : Call) : Governor :=
  g.recompute (call.record g.state) call.time

end Governor

end Athar
