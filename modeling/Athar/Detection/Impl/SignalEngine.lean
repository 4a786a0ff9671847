import Athar.Detection.Impl
import Athar.Detection.Impl.Trackers
import Athar.Event.Impl

/-!
This module contains the signal engine, which evaluates each event against five detectors. One looks
at the amount of the event alone; the others remember what they saw: the resources of a tenant, and for
each subject the rate of its events, of its failed logins, and of the beneficiaries it turned to.

The numbers of amounts are the machine's floating point numbers, which are a parameter.
-/

namespace Athar

-- What the engine does with numbers of type `f64`.
structure Floats where
  F64 : Type
  asF64 : ℚ → Option F64
  parse : String → Option F64
  le : F64 → F64 → Bool
  display : F64 → String
  displayFixed2 : F64 → String

structure CredentialStuffingConfig where
  eventTypes : List String := ["login.fail", "auth.fail", "signin.fail"]
  outcomeField : String := "outcome"
  outcomeFailedValues : List String := ["failed", "invalid_credentials", "unauthorized"]
  windowMs : Nat := 60000
  threshold : UInt32 := 5
  maxSubjects : Nat := 10000
  deriving DecidableEq, Repr

namespace CredentialStuffingConfig

variable (config : CredentialStuffingConfig)

def qualifies (event : Event) : Bool :=
  event.eventType ∈ config.eventTypes
    || (!config.outcomeField.isEmpty
      && (event.data.bind (·.get config.outcomeField)).any fun value =>
        match value with
        | .string outcome => outcome ∈ config.outcomeFailedValues
        | _ => false)

def asVelocity : VelocityConfig where
  windowMs := config.windowMs
  threshold := config.threshold
  maxSubjects := config.maxSubjects

end CredentialStuffingConfig

structure SignalEngineConfig (f : Floats) where
  highAmountFloor : f.F64
  amountField : String := "amount"
  velocity : VelocityConfig := {}
  targets : TargetConfig := {}
  credentialStuffing : CredentialStuffingConfig := {}

structure SignalEngine (f : Floats) where
  config : SignalEngineConfig f
  known : List String
  velocity : VelocityTracker
  targets : TargetTracker
  credstuff : VelocityTracker

def extractAmount (f : Floats) (data : Json) (field : String) : Option f.F64 :=
  match data.get field with
  | some (.number n) => f.asF64 n
  | some (.string s) => f.parse s
  | _ => none

namespace Event

-- The subject that rates are counted for.
def subject (event : Event) : String :=
  (event.actor.bind (·.id)).getD event.tenantId

def knownKey (event : Event) (rid : String) : String :=
  event.tenantId ++ ":" ++ rid

end Event

namespace SignalEngineConfig

variable {f : Floats} (config : SignalEngineConfig f) (event : Event)

def newBeneficiarySignal (rid : String) : Signal where
  kind := .newBeneficiary
  confidence := 85 / 100
  value := rid
  threshold := none

def highAmountSignal : Option Signal :=
  match event.data.bind (extractAmount f · config.amountField) with
  | none => none
  | some amount =>
    if f.le config.highAmountFloor amount then
      some {
        kind := .highAmount
        confidence := 95 / 100
        value := "amount=" ++ f.display amount
        threshold := some (">=" ++ f.displayFixed2 config.highAmountFloor)
      }
    else
      none

def highVelocitySignal (count : UInt32) : Signal where
  kind := .highVelocity
  confidence := 90 / 100
  value := "subject=" ++ event.subject ++ " count=" ++ toString count ++ " window_ms="
    ++ toString config.velocity.windowMs
  threshold := some (">" ++ toString config.velocity.threshold)

def credentialStuffingSignal (count : UInt32) : Signal where
  kind := .credentialStuffingPattern
  confidence := 85 / 100
  value := "subject=" ++ event.subject ++ " failed_count=" ++ toString count ++ " window_ms="
    ++ toString config.credentialStuffing.windowMs ++ " event_type=" ++ event.eventType
  threshold := some (">" ++ toString config.credentialStuffing.threshold)

def distinctTargetsSignal (count : UInt32) : Signal where
  kind := .distinctTargets
  confidence := 90 / 100
  value := "subject=" ++ event.subject ++ " distinct_targets=" ++ toString count ++ " window_ms="
    ++ toString config.targets.windowMs
  threshold := some (">" ++ toString config.targets.threshold)

end SignalEngineConfig

namespace SignalEngine

variable {f : Floats} (engine : SignalEngine f) (event : Event) (nowMs : Nat)

def new (config : SignalEngineConfig f) : SignalEngine f where
  config
  known := []
  velocity := .new config.velocity
  targets := .new config.targets
  credstuff := .new config.credentialStuffing.asVelocity

-- The part of `evaluate` for each detector with a memory.
def observeResource : SignalEngine f × Option Signal :=
  match event.resource.bind (·.id) with
  | none => (engine, none)
  | some rid =>
    let key := event.knownKey rid
    if key ∈ engine.known then
      (engine, none)
    else
      ({ engine with known := key :: engine.known },
        some (SignalEngineConfig.newBeneficiarySignal rid))

def observeVelocity : SignalEngine f × Option Signal :=
  let (velocity, count) := engine.velocity.observe event.subject nowMs
  ({ engine with velocity }, count.map (engine.config.highVelocitySignal event))

def observeFailure : SignalEngine f × Option Signal :=
  if engine.config.credentialStuffing.qualifies event then
    let (credstuff, count) := engine.credstuff.observe event.subject nowMs
    ({ engine with credstuff }, count.map (engine.config.credentialStuffingSignal event))
  else
    (engine, none)

def observeTarget : SignalEngine f × Option Signal :=
  match event.beneficiary.bind (·.id) with
  | none => (engine, none)
  | some target =>
    let (targets, count) := engine.targets.observe event.subject target nowMs
    ({ engine with targets }, count.map (engine.config.distinctTargetsSignal event))

def evaluate : SignalEngine f × List Signal :=
  let (engine, newBeneficiary) := engine.observeResource event
  let highAmount := engine.config.highAmountSignal event
  let (engine, highVelocity) := engine.observeVelocity event nowMs
  let (engine, credentialStuffing) := engine.observeFailure event nowMs
  let (engine, distinctTargets) := engine.observeTarget event nowMs
  (engine, newBeneficiary.toList ++ highAmount.toList ++ highVelocity.toList
    ++ credentialStuffing.toList ++ distinctTargets.toList)

end SignalEngine

end Athar
