import Athar.Governor.Recorded

/-!
This module contains what every consumer of the governor relies on: the published level is never
below the one that the latest reports call for, and a tripped switch puts the runtime into safe mode,
whatever calls are made and at whatever times.
-/

namespace Athar.Governor

structure Sound (g : Governor) : Prop where
  level_eq : g.currentLevel = g.state.current
  intrinsic_le : intrinsicLevel g.config g.state ≤ g.currentLevel
  deadman_eq : g.currentDeadman = g.state.deadman
  safe_of_tripped : ∀ since reason, g.currentDeadman = .tripped since reason →
    g.currentLevel = .l4SafeMode

-- Safe mode is entered with the switch.
def EntersTripped (g : Governor) (call : Call) : Prop :=
  g.currentLevel ≠ .l4SafeMode → (g.step call).currentLevel = .l4SafeMode →
    ∃ since reason, (g.step call).currentDeadman = .tripped since reason

theorem sound_new (config : Config) (now : Nat) : (new config now).Sound := by
  constructor
  . rfl
  . exact le_rfl
  . rfl
  . intro since reason h
    contradiction

theorem Sound.level_step {g : Governor} (h : g.Sound) (call : Call)
    : (g.step call).currentLevel = levelAt g.config (call.record g.state) call.time := by
  have hlevel : g.pressureTx = (call.record g.state).current := by
    rw [call.record_current]
    exact h.level_eq
  unfold step currentLevel
  rw [recompute_eq]
  exact sent_eq hlevel

theorem Sound.atCurrentSince_step {g : Governor} (h : g.Sound) (call : Call)
    : (g.step call).state.atCurrentSince
        = if (g.step call).currentLevel ≠ g.currentLevel then call.time else g.state.atCurrentSince := by
  rw [h.level_step, h.level_eq]
  unfold Governor.step
  rw [recompute_eq]
  dsimp only
  rw [call.record_current, call.record_atCurrentSince]

theorem Sound.deadman_step {g : Governor} (h : g.Sound) (call : Call)
    : (g.step call).currentDeadman = deadmanAt g.config (call.record g.state) call.time := by
  have hdeadman : g.deadmanTx = (call.record g.state).deadman := by
    rw [call.record_deadman]
    exact h.deadman_eq
  unfold step currentDeadman
  rw [recompute_eq]
  exact sent_eq hdeadman

theorem Sound.step {g : Governor} (h : g.Sound) (call : Call) : (g.step call).Sound := by
  have hlevel := h.level_step call
  have hdeadman := h.deadman_step call
  have htarget : targetLevel (deadmanAt g.config (call.record g.state) call.time)
      (intrinsicLevel g.config (call.record g.state)) ≤ levelAt g.config (call.record g.state) call.time :=
    target_le_levelAt
  constructor
  . rw [hlevel]
    unfold Governor.step
    rw [recompute_eq]
  . have hintrinsic : intrinsicLevel (g.step call).config (g.step call).state
        = intrinsicLevel g.config (call.record g.state) := by
      unfold Governor.step
      rw [recompute_eq]
      rfl
    rw [hlevel, hintrinsic]
    exact (intrinsic_le_target _).trans htarget
  . rw [hdeadman]
    unfold Governor.step
    rw [recompute_eq]
  . intro since reason htripped
    rw [hdeadman] at htripped
    rw [hlevel]
    rw [htripped, targetLevel_tripped] at htarget
    exact le_antisymm (le_l4SafeMode _) htarget

theorem Sound.entersTripped {g : Governor} (h : g.Sound) (call : Call) : g.EntersTripped call := by
  intro hbefore hafter
  rw [h.level_step] at hafter
  rw [h.deadman_step]
  rw [h.level_eq, ← call.record_current] at hbefore
  unfold levelAt applyHysteresis at hafter
  split at hafter
  . exact tripped_of_target hafter
  . split at hafter
    . exact tripped_of_target hafter
    . contradiction

theorem always_sound (config : Config) (createdAt : Nat) (calls : List Call)
    : Run.Always step Sound (new config createdAt) calls := by
  apply Run.always_of_step calls (sound_new config createdAt)
  intro g call hg
  exact hg.step call

-- A governor after these calls, for those who read its channels.
structure Reported (config : Config) (calls : List Call) (g : Governor) : Prop where
  level_eq : g.currentLevel = g.state.current
  reported_le : reportedLevel config calls ≤ g.currentLevel
  deadman_eq : g.currentDeadman = g.state.deadman
  safe_of_tripped : ∀ since reason, g.currentDeadman = .tripped since reason →
    g.currentLevel = .l4SafeMode

theorem Sound.reported {g : Governor} (h : g.Sound) {config : Config} {calls : List Call}
    (hconfig : g.config = config) (hrecorded : Recorded calls g.state) : g.Reported config calls := by
  constructor
  . exact h.level_eq
  . rw [← hconfig, ← hrecorded.intrinsicLevel_eq]
    exact h.intrinsic_le
  . exact h.deadman_eq
  . exact h.safe_of_tripped

/--
After every call the channels show the level and the switch of the state, the level is at least the
one that the latest host and budget reports among the calls so far call for, and it is safe mode while
the switch is tripped. Safe mode is only ever entered at a call at which the switch is tripped.
-/
theorem never_underReports (config : Config) (createdAt : Nat) (calls : List Call)
    : (∀ pre, pre <+: calls → (Run.exec step (new config createdAt) pre).Reported config pre)
        ∧ Run.Guarded step EntersTripped (new config createdAt) calls := by
  have hsound := always_sound config createdAt calls
  constructor
  . intro pre hpre
    exact (hsound pre hpre).reported (config_exec config createdAt pre) (recorded_exec config createdAt pre)
  . intro pre call hpre
    have hg := hsound pre ((List.prefix_append pre [call]).trans hpre)
    exact hg.entersTripped call

end Athar.Governor
