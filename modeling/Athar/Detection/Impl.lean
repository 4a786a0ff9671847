import Mathlib.Data.Rat.Defs

/-!
This module contains the signals that the detection engine produces and the policies that it
evaluates them against.
-/

namespace Athar

inductive PolicyMode where
  | observe
  | challenge
  | enforce
  deriving DecidableEq, Repr

inductive Action where
  | allow
  | challenge
  | restrict
  | block
  | alert
  deriving DecidableEq, Repr

inductive FailMode where
  | «open»
  | closed
  deriving DecidableEq, Repr

inductive SignalKind where
  | newBeneficiary
  | highAmount
  | highVelocity
  | distinctTargets
  | credentialStuffingPattern
  deriving DecidableEq, Repr

structure Signal where
  kind : SignalKind
  confidence : ℚ
  value : String
  threshold : Option String
  deriving DecidableEq, Repr

structure PolicyRule where
  enabled : Bool := true
  mode : PolicyMode := .observe
  failMode : FailMode := .open
  deriving DecidableEq, Repr

structure PolicyConfig where
  highAmountNewBeneficiary : PolicyRule := {}
  highVelocity : PolicyRule := {}
  distinctTargets : PolicyRule := {}
  credentialStuffing : PolicyRule := {}
  deriving DecidableEq, Repr

structure PolicyDecision where
  policyId : String
  policyVersion : Nat
  mode : PolicyMode
  matched : Bool
  action : Action
  reasonCodes : List String
  deriving DecidableEq, Repr

namespace PolicyEngine

def has (signals : List Signal) (kind : SignalKind) : Bool :=
  signals.any (·.kind = kind)

-- The decision of a rule that matched.
def challengeBy (policyId : String) (rule : PolicyRule) (reasonCode : String) : PolicyDecision where
  policyId
  policyVersion := 1
  mode := rule.mode
  matched := true
  action := .challenge
  reasonCodes := [reasonCode]

def ruleA (config : PolicyConfig) : PolicyDecision :=
  challengeBy "pol_new_beneficiary_high_amount" config.highAmountNewBeneficiary
    "TARGET_NEW_BENEFICIARY_HIGH_AMOUNT"

def ruleB (config : PolicyConfig) : PolicyDecision :=
  challengeBy "pol_high_velocity" config.highVelocity "VELOCITY_HIGH_RATE"

def ruleC (config : PolicyConfig) : PolicyDecision :=
  challengeBy "pol_distinct_targets" config.distinctTargets "TARGET_DISTINCT_FANOUT"

def ruleD (config : PolicyConfig) : PolicyDecision :=
  challengeBy "pol_credential_stuffing" config.credentialStuffing "AUTH_CREDENTIAL_STUFFING"

def noPolicyMatched : PolicyDecision where
  policyId := "pol_default"
  policyVersion := 1
  mode := .observe
  matched := false
  action := .allow
  reasonCodes := []

-- First match wins.
def evaluate (config : PolicyConfig) (signals : List Signal) : PolicyDecision :=
  if config.highAmountNewBeneficiary.enabled && has signals .newBeneficiary
      && has signals .highAmount then
    ruleA config
  else if config.highVelocity.enabled && has signals .highVelocity then
    ruleB config
  else if config.distinctTargets.enabled && has signals .distinctTargets then
    ruleC config
  else if config.credentialStuffing.enabled && has signals .credentialStuffingPattern then
    ruleD config
  else
    noPolicyMatched

end PolicyEngine

end Athar
