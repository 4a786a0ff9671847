import Athar.Detection.Impl.Store
import Athar.Ingest.Impl

/-!
This module contains the detection that the daemon is built with: the signal engine, the policies, and
the store that keeps the signals and the decision of every event.
-/

namespace Athar

-- What the detection of an event reads from outside: the wall clock, the random part of the identifiers,
-- and whether each statement of the store succeeds.
structure DetectionInputs where
  wallMs : Nat
  signalUlid : Nat → String
  decisionUlid : String
  signalExecutes : Nat → Bool
  decisionExecutes : Bool

structure Detectors (f : Floats) (db : DecisionDb) where
  engine : SignalEngine f
  policies : PolicyConfig
  store : SqliteDecisionStore db
  inputs : Nat → DetectionInputs
  calls : Nat

namespace Detectors

variable {f : Floats} {db : DecisionDb} (fixed2 : ℚ → String) (s : Detectors f db)

def writeSignals (store : SqliteDecisionStore db) (executes : Nat → Bool) (signals : List SignalRecord)
    : SqliteDecisionStore db :=
  signals.zipIdx.foldl (fun store r => (store.writeSignal r.1 (executes r.2)).1) store

-- A record that cannot be persisted is still the one that is answered with.
def evaluate (event : Event) (lifecycleId : Option String) (nowMs latencyUs : Nat)
    (level : PressureLevel) : Detectors f db × DecisionRecord :=
  let inputs := s.inputs s.calls
  let io : DetectionIo :=
    ⟨inputs.wallMs, nowMs, latencyUs, level, inputs.signalUlid, inputs.decisionUlid⟩
  let (engine, decision) := detect fixed2 s.engine s.policies event lifecycleId io
  let store := writeSignals s.store inputs.signalExecutes decision.signalsUsed
  let store := (store.writeDecision decision inputs.decisionExecutes).1
  ({ s with engine, store, calls := s.calls + 1 }, decision)

end Detectors

def Detection.ofEngines (f : Floats) (db : DecisionDb) (fixed2 : ℚ → String) : Detection where
  State := Detectors f db
  Decision := DecisionRecord
  evaluate := Detectors.evaluate fixed2
  countDecisions s := s.store.countDecisions
  countSignals s := s.store.countSignals

end Athar
