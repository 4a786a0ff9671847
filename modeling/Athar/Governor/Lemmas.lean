import Athar.Governor.Impl

/-!
This module contains what one call of the governor does: the switch and the level it computes, and
the fields of the state and of the two channels after it.
-/

namespace Athar.Governor

-- The switch and the level that a call comes to, from what it wrote down.
def deadmanAt (c : Config) (s : State) (now : Nat) : DeadmanSignal :=
  (evaluateDeadman c s now (intrinsicLevel c s)).2

def levelAt (c : Config) (s : State) (now : Nat) : PressureLevel :=
  applyHysteresis c s (targetLevel (deadmanAt c s now) (intrinsicLevel c s)) now

-- A trip condition holds.
def trips (c : Config) (s : State) (now : Nat) : Bool :=
  (breachTrip c s now).isSome || (heartbeatTrip c s now).isSome

theorem l0Normal_le (level : PressureLevel) : .l0Normal ≤ level :=
  Nat.zero_le level.rank

theorem le_l4SafeMode (level : PressureLevel) : level ≤ .l4SafeMode := by
  cases level <;> decide

theorem bucket3_le (observed l1 l2 : ℚ) : bucket3 observed l1 l2 ≤ .l2Defer := by
  unfold bucket3
  split
  . decide
  . split
    . decide
    . decide

theorem latencyBucket_le (observedUs budget l2 l3 : Nat)
    : latencyBucket observedUs budget l2 l3 ≤ .l3Essential := by
  unfold latencyBucket
  split
  . decide
  . split
    . decide
    . split
      . decide
      . decide

theorem hostLevel_le (c : Config) (h : HostMetrics) : hostLevel c h ≤ .l2Defer := by
  unfold hostLevel
  apply max_le
  . apply max_le
    . apply bucket3_le
    . apply bucket3_le
  . apply bucket3_le

-- The reports alone never call for safe mode.
theorem intrinsicLevel_le (c : Config) (s : State) : intrinsicLevel c s ≤ .l3Essential := by
  have hworst : s.host.elim PressureLevel.l0Normal (fun h => max .l0Normal (hostLevel c h))
      ≤ .l3Essential := by
    cases s.host with
    | none => exact l0Normal_le _
    | some h =>
      apply max_le
      . exact l0Normal_le _
      . exact le_trans (hostLevel_le c h) (by decide)
  unfold intrinsicLevel
  cases s.budget with
  | none => exact hworst
  | some b => exact max_le hworst (latencyBucket_le _ _ _ _)

theorem evaluateDeadman_fst (c : Config) (s : State) (now : Nat) (intrinsic : PressureLevel)
    : (evaluateDeadman c s now intrinsic).1 = { s with breachSince := trackBreach c s } := by
  unfold evaluateDeadman
  dsimp only
  split
  . rfl
  . split
    . split
      . rfl
      . rfl
    . rfl

-- A channel that is written on change carries the last value.
theorem sent_eq {α : Type} [DecidableEq α] {value before sent : α} (h : sent = before)
    : (if value ≠ before then value else sent) = value := by
  split
  . rfl
  . next hsame =>
    rw [h]
    exact (not_ne_iff.mp hsame).symm

theorem recompute_eq (g : Governor) (s : State) (now : Nat)
    : g.recompute s now
        = { g with
            pressureTx :=
              if levelAt g.config s now ≠ s.current then levelAt g.config s now else g.pressureTx
            deadmanTx :=
              if deadmanAt g.config s now ≠ s.deadman then deadmanAt g.config s now else g.deadmanTx
            state :=
              { s with
                breachSince := trackBreach g.config s
                deadman := deadmanAt g.config s now
                current := levelAt g.config s now
                atCurrentSince :=
                  if levelAt g.config s now ≠ s.current then now else s.atCurrentSince } } := by
  unfold recompute
  dsimp only
  rw [evaluateDeadman_fst]
  by_cases h : levelAt g.config s now ≠ s.current
  . rw [if_pos h, if_pos h]
    exact if_pos h
  . rw [if_neg h, if_neg h, not_ne_iff.mp h]
    exact if_neg h

section Level

variable {c : Config} {s : State} {now : Nat}

theorem target_le_levelAt
    : targetLevel (deadmanAt c s now) (intrinsicLevel c s) ≤ levelAt c s now := by
  unfold levelAt applyHysteresis
  split
  . exact le_rfl
  . next h =>
    split
    . exact le_rfl
    . exact le_of_not_ge h

theorem levelAt_lt_iff
    : levelAt c s now < s.current
        ↔ targetLevel (deadmanAt c s now) (intrinsicLevel c s) < s.current
          ∧ c.goodNewsWindow ≤ now - s.atCurrentSince := by
  unfold levelAt applyHysteresis
  split
  . next h => simp [not_lt.mpr h]
  . next h =>
    split
    . next hwindow => simp [hwindow]
    . next hwindow => simp [hwindow]

theorem targetLevel_ok (intrinsic : PressureLevel) : targetLevel .ok intrinsic = intrinsic := by
  rfl

theorem targetLevel_tripped (since : Nat) (reason : DeadmanReason) (intrinsic : PressureLevel)
    : targetLevel (.tripped since reason) intrinsic = .l4SafeMode := by
  rfl

theorem intrinsic_le_target (deadman : DeadmanSignal)
    : intrinsicLevel c s ≤ targetLevel deadman (intrinsicLevel c s) := by
  cases deadman with
  | ok => exact le_rfl
  | tripped since reason => exact le_l4SafeMode _

theorem tripped_of_target {deadman : DeadmanSignal}
    (h : targetLevel deadman (intrinsicLevel c s) = .l4SafeMode)
    : ∃ since reason, deadman = .tripped since reason := by
  cases deadman with
  | ok =>
    have hle := intrinsicLevel_le c s
    rw [targetLevel_ok] at h
    rw [h] at hle
    exact absurd hle (by decide)
  | tripped since reason => exact ⟨since, reason, rfl⟩

end Level

section Deadman

variable {c : Config} {s : State} {now : Nat}

theorem breachTrip_eq_some {signal : DeadmanSignal} (h : breachTrip c s now = some signal)
    : ∃ since, signal = .tripped since .budgetBreach := by
  unfold breachTrip at h
  split at h
  . contradiction
  . split at h
    . dsimp only at h
      split at h
      . exact ⟨_, (Option.some.inj h).symm⟩
      . contradiction
    . contradiction

theorem heartbeatTrip_eq_some {signal : DeadmanSignal} (h : heartbeatTrip c s now = some signal)
    : ∃ since, signal = .tripped since .noShimConfirmation := by
  unfold heartbeatTrip at h
  split at h
  . contradiction
  . split at h
    . exact ⟨_, (Option.some.inj h).symm⟩
    . contradiction

theorem deadmanAt_of_trips (h : trips c s now = true)
    : ∃ since reason, deadmanAt c s now = .tripped since reason := by
  unfold trips at h
  unfold deadmanAt evaluateDeadman
  cases hbreach : breachTrip c s now with
  | some signal =>
    rcases breachTrip_eq_some hbreach with ⟨since, hsignal⟩
    exact ⟨since, _, hsignal⟩
  | none =>
    cases hheartbeat : heartbeatTrip c s now with
    | some signal =>
      rcases heartbeatTrip_eq_some hheartbeat with ⟨since, hsignal⟩
      exact ⟨since, _, hsignal⟩
    | none =>
      rw [hbreach, hheartbeat] at h
      contradiction

theorem deadmanAt_of_not_trips (h : trips c s now = false)
    : deadmanAt c s now = .ok
        ↔ ∀ since reason, s.deadman = .tripped since reason →
          intrinsicLevel c s = .l0Normal ∧ c.goodNewsWindow ≤ now - since := by
  unfold trips at h
  rw [Bool.or_eq_false_iff, Option.isSome_eq_false_iff, Option.isSome_eq_false_iff,
    Option.isNone_iff_eq_none, Option.isNone_iff_eq_none] at h
  unfold deadmanAt evaluateDeadman
  rw [h.1, h.2]
  dsimp only [Option.or]
  cases s.deadman with
  | ok => simp
  | tripped since reason =>
    dsimp only
    split
    . next hrecovered => simp [hrecovered]
    . next hrecovered => simpa using hrecovered

-- A switch that stays tripped without a trip condition has not been quiet for a window.
theorem preserved_of_not_trips (h : trips c s now = false) {since : Nat} {reason : DeadmanReason}
    (htripped : deadmanAt c s now = .tripped since reason)
    : intrinsicLevel c s = .l0Normal → now - since < c.goodNewsWindow := by
  intro hintrinsic
  unfold trips at h
  rw [Bool.or_eq_false_iff, Option.isSome_eq_false_iff, Option.isSome_eq_false_iff,
    Option.isNone_iff_eq_none, Option.isNone_iff_eq_none] at h
  unfold deadmanAt evaluateDeadman at htripped
  rw [h.1, h.2] at htripped
  dsimp only [Option.or] at htripped
  split at htripped
  . split at htripped
    . contradiction
    . next hrecovered =>
      cases htripped
      rw [not_and, Nat.not_le] at hrecovered
      exact hrecovered hintrinsic
  . contradiction

theorem deadmanAt_eq_ok_iff
    : deadmanAt c s now = .ok
        ↔ trips c s now = false
          ∧ ∀ since reason, s.deadman = .tripped since reason →
            intrinsicLevel c s = .l0Normal ∧ c.goodNewsWindow ≤ now - since := by
  cases htrips : trips c s now with
  | true =>
    rcases deadmanAt_of_trips htrips with ⟨since, reason, hdeadman⟩
    simp [hdeadman]
  | false => simp [deadmanAt_of_not_trips htrips]

end Deadman

theorem Call.record_current (s : State) (call : Call) : (call.record s).current = s.current := by
  cases call <;> rfl

theorem Call.record_atCurrentSince (s : State) (call : Call)
    : (call.record s).atCurrentSince = s.atCurrentSince := by
  cases call <;> rfl

theorem Call.record_deadman (s : State) (call : Call) : (call.record s).deadman = s.deadman := by
  cases call <;> rfl

end Athar.Governor
