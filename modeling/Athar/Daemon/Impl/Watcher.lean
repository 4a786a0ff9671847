import Athar.Daemon.Impl
import Athar.Governor.Impl

/-!
This module contains the daemon under its governor. A background task waits for changes of the pressure
level and reports what was dropped once the level leaves safe mode. The channel that it listens to holds
the last level only, and other threads may act between any two of its operations.
-/

namespace Athar

open Audit

-- Where `watch_pressure_and_emit_gaps` stands: it is not there yet, has a receiver but has not run, waits
-- in `changed`, is about to borrow the level, is about to emit the gap, or waits for the emission.
inductive PressureWatcher.Stage where
  | absent
  | subscribed
  | waiting
  | changed
  | recovered
  | emitting
  deriving DecidableEq, Repr

-- `seen` is the version of the channel that the receiver has seen.
structure PressureWatcher where
  seen : Nat
  wasL4 : Bool
  stage : PressureWatcher.Stage
  deriving DecidableEq, Repr

variable {c : Crates} {d : Detection}

variable (c) in
inductive Pressured.Action where
  | govern (call : Governor.Call)
  -- The other tasks.
  | task (action : Daemon.Action c)
  | subscribe
  | enter
  | change
  | borrow
  | emit (io : EmitIo c)
  | emitted

variable (c d) in
-- Beside the parties stand the levels that the channel has had, those that it had had when the watcher last
-- borrowed, and how often the watcher has begun a report.
structure Pressured where
  governor : Governor
  watcher : PressureWatcher
  daemon : Daemon c d
  levels : List PressureLevel
  heard : List PressureLevel
  reports : Nat

def isL4 (level : PressureLevel) : Bool :=
  level = .l4SafeMode

namespace Pressured

-- The tasks that are not the watcher.
def foreign : Daemon.Action c → Bool
  | .emit false _ => false
  | .abort (.emitter false) => false
  | _ => true

-- A frame is gated by the level that the governor has then.
def gated (level : PressureLevel) : Daemon.Action c → Daemon.Action c
  | .ingest connection frame => .ingest connection { frame with level }
  | action => action

def start (config : Governor.Config) (createdAt : Nat) (server : IngestServer c d) : Pressured c d where
  governor := .new config createdAt
  watcher := ⟨0, false, .absent⟩
  daemon := .start server
  levels := [.l0Normal]
  heard := []
  reports := 0

variable (w : Writers) (st : Pressured c d)

-- The level is sent when it differs from the one before.
def govern (call : Governor.Call) : Pressured c d :=
  let governor := st.governor.step call
  { st with
    governor
    levels :=
      if governor.currentLevel ≠ st.governor.currentLevel then st.levels ++ [governor.currentLevel]
      else st.levels }

def borrow : Pressured c d :=
  let isL4 := isL4 st.governor.currentLevel
  if st.watcher.wasL4 && !isL4 then
    { st with
      watcher := { st.watcher with stage := .recovered }
      heard := st.levels
      reports := st.reports + 1 }
  else
    { st with
      watcher := { st.watcher with wasL4 := isL4, stage := .waiting }
      heard := st.levels }

def step : Action c → Pressured c d
  | .govern call => st.govern call
  | .task action =>
    if foreign action then
      { st with daemon := st.daemon.step w (gated st.governor.currentLevel action) }
    else
      st
  | .subscribe =>
    if st.watcher.stage = .absent then
      { st with watcher := { st.watcher with seen := st.levels.length, stage := .subscribed } }
    else
      st
  | .enter =>
    if st.watcher.stage = .subscribed then
      { st with
        watcher := { st.watcher with wasL4 := isL4 st.governor.currentLevel, stage := .waiting }
        heard := st.levels }
    else
      st
  | .change =>
    if st.watcher.stage = .waiting ∧ st.watcher.seen ≠ st.levels.length then
      { st with watcher := { st.watcher with seen := st.levels.length, stage := .changed } }
    else
      st
  | .borrow => if st.watcher.stage = .changed then st.borrow else st
  | .emit io =>
    if st.watcher.stage = .recovered then
      { st with
        watcher := { st.watcher with stage := .emitting }
        daemon := st.daemon.step w (.emit false io) }
    else
      st
  | .emitted =>
    if st.watcher.stage = .emitting ∧ st.daemon.inflight (.emitter false) = none then
      { st with watcher := { st.watcher with wasL4 := false, stage := .waiting } }
    else
      st

end Pressured

end Athar
