import Athar.Detection.Impl.SignalEngine
import Athar.Governor.Impl

/-!
This module contains the records of a decision: the signals as they are persisted, and the decision
itself with the policy that made it and an explanation generated from both. It ends with the part of
the ingest that makes them for an event.

The identifiers are drawn at random, so they are read from outside. How a confidence is displayed is a
parameter.
-/

namespace Athar

def PolicyMode.asStr : PolicyMode → String
  | .observe => "OBSERVE"
  | .challenge => "CHALLENGE"
  | .enforce => "ENFORCE"

def Action.asStr : Action → String
  | .allow => "ALLOW"
  | .challenge => "CHALLENGE"
  | .restrict => "RESTRICT"
  | .block => "BLOCK"
  | .alert => "ALERT"

def SignalKind.asStr : SignalKind → String
  | .newBeneficiary => "new_beneficiary"
  | .highAmount => "high_amount"
  | .highVelocity => "high_velocity"
  | .distinctTargets => "distinct_targets"
  | .credentialStuffingPattern => "credential_stuffing_pattern"

def PressureLevel.debug : PressureLevel → String
  | .l0Normal => "L0Normal"
  | .l1Reduce => "L1Reduce"
  | .l2Defer => "L2Defer"
  | .l3Essential => "L3Essential"
  | .l4SafeMode => "L4SafeMode"

structure SignalRecord where
  signalId : String
  tenantId : String
  kind : SignalKind
  confidence : ℚ
  value : String
  threshold : Option String
  timestampMs : Nat
  eventId : String
  lifecycleId : Option String
  trackerVersion : String
  deriving DecidableEq, Repr

def recordFromSignal (signal : Signal) (tenantId eventId : String) (lifecycleId : Option String)
    (nowMs : Nat) (trackerVersion ulid : String) : SignalRecord where
  signalId := "sig_" ++ ulid
  tenantId
  kind := signal.kind
  confidence := signal.confidence
  value := signal.value
  threshold := signal.threshold
  timestampMs := nowMs
  eventId
  lifecycleId
  trackerVersion

structure DecisionSubject where
  lifecycleId : Option String
  eventId : String
  operationId : Option String
  deriving DecidableEq, Repr

structure EngineVersions where
  detector : String
  policy : String
  resolver : String
  deriving DecidableEq, Repr

structure DecisionRecord where
  decisionId : String
  timestampMs : Nat
  tenantId : String
  subject : DecisionSubject
  policiesEvaluated : List PolicyDecision
  signalsUsed : List SignalRecord
  action : Action
  reasonCodes : List String
  mode : PolicyMode
  failMode : FailMode
  inputsMissing : List String
  coverageGapsOverlapping : List String
  degradationLevel : String
  latencyUs : Nat
  engineVersions : EngineVersions
  explanation : String
  deriving DecidableEq, Repr

section Explanation

variable (fixed2 : ℚ → String)

def generateExplanation (policy : PolicyDecision) (signals : List SignalRecord) : String :=
  let version := policy.policyId ++ ":v" ++ toString policy.policyVersion
  if ¬policy.matched then
    "policy " ++ version ++ " did not match; action ALLOW (" ++ toString signals.length
      ++ " signal(s) evaluated)"
  else
    let signalSummary := signals.map fun s =>
      s.kind.asStr ++ "=" ++ s.value ++ " (conf " ++ fixed2 s.confidence ++ ")"
    "policy " ++ version ++ " matched in " ++ policy.mode.asStr ++ " mode → " ++ policy.action.asStr
      ++ ". Signals: [" ++ String.intercalate ", " signalSummary ++ "]. Reason codes: ["
      ++ String.intercalate ", " policy.reasonCodes ++ "]."

def DecisionRecord.build (tenantId : String) (subject : DecisionSubject) (policy : PolicyDecision)
    (signals : List SignalRecord) (nowMs : Nat) (degradationLevel : String) (latencyUs : Nat)
    (ulid : String) : DecisionRecord where
  decisionId := "dec_" ++ ulid
  timestampMs := nowMs
  tenantId
  subject
  policiesEvaluated := [policy]
  signalsUsed := signals
  action := policy.action
  reasonCodes := policy.reasonCodes
  mode := policy.mode
  -- V0 default per SEC-10.
  failMode := .open
  inputsMissing := []
  coverageGapsOverlapping := []
  degradationLevel
  latencyUs
  engineVersions := ⟨"signal-engine-0.1.0", "policy-engine-0.1.0", "lifecycle-engine-0.1.0"⟩
  explanation := generateExplanation fixed2 policy signals

-- What the detection of an event reads from outside.
structure DetectionIo where
  wallMs : Nat
  nowMs : Nat
  latencyUs : Nat
  level : PressureLevel
  signalUlid : Nat → String
  decisionUlid : String

-- The records of the signals of an event, and the decision that the policies come to.
def decisionOf (policies : PolicyConfig) (event : Event) (lifecycleId : Option String)
    (signals : List Signal) (io : DetectionIo) : DecisionRecord :=
  let signalRecords := signals.mapIdx fun i s =>
    recordFromSignal s event.tenantId event.eventId lifecycleId io.nowMs "signal-engine-0.1.0"
      (io.signalUlid i)
  let subject : DecisionSubject := ⟨lifecycleId, event.eventId, event.operation.bind (·.operationId)⟩
  .build fixed2 event.tenantId subject (PolicyEngine.evaluate policies signals) signalRecords io.nowMs
    io.level.debug io.latencyUs io.decisionUlid

-- The detection of `ingest_one`.
def detect {f : Floats} (engine : SignalEngine f) (policies : PolicyConfig) (event : Event)
    (lifecycleId : Option String) (io : DetectionIo) : SignalEngine f × DecisionRecord :=
  let (engine, signals) := engine.evaluate event io.wallMs
  (engine, decisionOf fixed2 policies event lifecycleId signals io)

end Explanation

end Athar
