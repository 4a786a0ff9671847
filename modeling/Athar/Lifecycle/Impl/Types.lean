/-!
This module contains the lifecycle domain types: lifecycle states and closures, correlation tiers,
and the lifecycle itself with its late events.

Times are milliseconds as natural numbers; the only arithmetic on them is a saturating subtraction.
-/

namespace Athar

inductive LifecycleType where
  | payment
  deriving DecidableEq, Repr

def LifecycleType.fromEventType (eventType : String) : Option LifecycleType :=
  if "payment.".toList.isPrefixOf eventType.toList then some .payment else none

inductive State where
  | started
  | processing
  | pending
  | success
  | failed
  | cancelled
  | rejected
  | timeout
  | expired
  | abandoned
  | reversed
  | compensated
  | partiallyCompleted
  | conflicted
  | unknown
  deriving DecidableEq, Repr

def State.isTerminal : State → Bool
  | .success | .failed | .cancelled | .rejected | .timeout | .expired | .abandoned | .reversed
  | .compensated => true
  | _ => false

inductive Closure where
  | «open»
  | closed
  | closedWithException
  | closedWithUncertainty
  deriving DecidableEq, Repr

def Closure.isClosed : Closure → Bool
  | .open => false
  | _ => true

inductive InferenceTier where
  | explicit
  | businessId
  | causation
  | resourceId
  | unknown
  deriving DecidableEq, Repr

inductive LateEventClass where
  | duplicate
  | correction
  | amendment
  | conflict
  | lateInformation
  | unknown
  deriving DecidableEq, Repr

structure LateEvent where
  eventId : String
  eventType : String
  arrivedAtMs : Nat
  class' : LateEventClass
  deriving DecidableEq, Repr

structure Lifecycle where
  id : String
  tenantId : String
  lifecycleType : LifecycleType
  businessKey : Option String
  resourceId : Option String
  state : State
  closure : Closure
  startedAtMs : Nat
  lastEventAtMs : Nat
  closedAtMs : Option Nat
  eventIds : List String
  lateEvents : List LateEvent
  stalenessMs : Nat
  tiers : List InferenceTier
  deriving DecidableEq, Repr

def stalenessFor : LifecycleType → Nat
  | .payment => 60 * 60 * 1000

end Athar
