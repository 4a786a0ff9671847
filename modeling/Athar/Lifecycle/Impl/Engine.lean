import Athar.Event.Impl
import Athar.Lifecycle.Impl.Store

/-!
This module contains the lifecycle engine and the staleness scanner. The engine correlates an event
to a lifecycle by four tiers, or creates one, and runs the state machine of its type; after closure
an event is only classified. The scanner closes the lifecycles that saw no event for too long.

The engine holds a lock for the whole of `apply`, so a call is one step. The scanner does not take it:
a sweep is a snapshot and one `sweepOne` for each lifecycle of the snapshot.
-/

namespace Athar

namespace Event

def operationId (event : Event) : Option String :=
  event.operation.bind (·.operationId)

def businessId (event : Event) : Option String :=
  event.causality.customerCorrelationIds.lookup "business_id"

def parent (event : Event) : Option String :=
  event.causality.parentEventId.or event.causality.causationId

def resourceId (event : Event) : Option String :=
  event.resource.bind (·.id)

end Event

open LifecycleStore

inductive ApplyOutcome where
  | created (lifecycleId : String) (lifecycleType : LifecycleType) (state : State)
    (closure : Closure)
  | updated (lifecycleId : String) (tier : InferenceTier) (state : State) (closure : Closure)
  | lateEvent (lifecycleId : String) (tier : InferenceTier) (class' : LateEventClass)
  | unbound
  deriving DecidableEq, Repr

inductive Corr where
  | match' (lifecycleId : String) (tier : InferenceTier)
  | new (lifecycleType : LifecycleType) (resourceId businessKey : Option String)
  | none
  deriving DecidableEq, Repr

namespace LifecycleEngine

variable {σ : Type} [LifecycleStore σ]

def correlate (store : σ) (event : Event) : Corr :=
  -- Tier 1: explicit operation_id
  match event.operationId.bind (findByBusinessKey store) with
  | some lcId => .match' lcId .explicit
  | none =>
  -- Tier 2: business_id customer_correlation_id
  match event.businessId.bind (findByBusinessKey store) with
  | some lcId => .match' lcId .businessId
  | none =>
  -- Tier 3: parent / causation
  match event.parent.bind (findByEvent store) with
  | some lcId => .match' lcId .causation
  | none =>
  -- Tier 4: resource id
  match event.resourceId.bind (findByResource store) with
  | some lcId => .match' lcId .resourceId
  | none =>
  match LifecycleType.fromEventType event.eventType with
  | none => .none
  | some lct =>
    match event.resourceId, event.businessId with
    | some rid, bid => .new lct (some rid) (bid.or event.operationId)
    | none, some bid => .new lct none (some bid)
    | none, none => .none

def transitionFor : LifecycleType → String → Option (State × Closure)
  | .payment, eventType =>
    match eventType with
    | "payment.create" => some (.started, .open)
    | "payment.process" | "payment.processing" => some (.processing, .open)
    | "payment.pending" => some (.pending, .open)
    | "payment.retry" => some (.processing, .open)
    | "payment.settle" | "payment.success" | "payment.completed" => some (.success, .closed)
    | "payment.fail" | "payment.failed" | "payment.error" => some (.failed, .closedWithException)
    | "payment.cancel" | "payment.cancelled" => some (.cancelled, .closed)
    | "payment.reverse" | "payment.reversed" => some (.reversed, .closedWithException)
    | _ => none

def classifyLateEvent (lc : Lifecycle) (event : Event) : LateEventClass :=
  if event.eventId ∈ lc.eventIds then
    .duplicate
  else
    match transitionFor lc.lifecycleType event.eventType with
    | some (newState, _) =>
      if newState.isTerminal ∧ newState ≠ lc.state then .conflict else .amendment
    | none => .lateInformation

end LifecycleEngine

open LifecycleEngine

def Lifecycle.withLateEvent (lc : Lifecycle) (event : Event) (nowMs : Nat) : Lifecycle :=
  { lc with
    lateEvents := lc.lateEvents
      ++ [⟨event.eventId, event.eventType, nowMs, classifyLateEvent lc event⟩] }

def Lifecycle.withEvent (lc : Lifecycle) (event : Event) (tier : InferenceTier) (nowMs : Nat)
    : Lifecycle :=
  let (state, closure) :=
    (transitionFor lc.lifecycleType event.eventType).getD (lc.state, lc.closure)
  { lc with
    eventIds := lc.eventIds ++ [event.eventId]
    tiers := lc.tiers ++ [tier]
    lastEventAtMs := nowMs
    state, closure
    closedAtMs := if closure.isClosed then some nowMs else lc.closedAtMs }

def Lifecycle.create (event : Event) (lifecycleType : LifecycleType)
    (resourceId businessKey : Option String) (nowMs : Nat) : Lifecycle :=
  let (state, closure) :=
    (transitionFor lifecycleType event.eventType).getD (.started, .open)
  { id := "lc_" ++ event.eventId
    tenantId := event.tenantId
    lifecycleType, businessKey, resourceId, state, closure
    startedAtMs := nowMs
    lastEventAtMs := nowMs
    closedAtMs := if closure.isClosed then some nowMs else none
    eventIds := [event.eventId]
    lateEvents := []
    stalenessMs := stalenessFor lifecycleType
    tiers := [.resourceId] }

namespace LifecycleEngine

variable {σ : Type} [LifecycleStore σ]

def apply (store : σ) (event : Event) (nowMs : Nat) : σ × ApplyOutcome :=
  match correlate store event with
  | .match' lifecycleId tier =>
    match get store lifecycleId with
    | none => (store, .unbound)
    | some lc =>
      if lc.closure.isClosed then
        (upsert store (lc.withLateEvent event nowMs),
          .lateEvent lifecycleId tier (classifyLateEvent lc event))
      else
        let lc := lc.withEvent event tier nowMs
        (recordEvent (upsert store lc) event.eventId lifecycleId,
          .updated lifecycleId tier lc.state lc.closure)
  | .new lifecycleType resourceId businessKey =>
    let lc := Lifecycle.create event lifecycleType resourceId businessKey nowMs
    (recordEvent (upsert store lc) event.eventId lc.id,
      .created lc.id lifecycleType lc.state lc.closure)
  | .none => (store, .unbound)

end LifecycleEngine

structure StalenessResult where
  lifecycleId : String
  atMs : Nat
  wasState : State
  newState : State
  deriving DecidableEq, Repr

def timeoutStateFor : State → State
  | .started => .abandoned
  | .processing | .pending | .unknown => .timeout
  | other => other

-- The order in which a store yields its lifecycles, which it does not promise.
structure IterationOrder where
  permute : List Lifecycle → List Lifecycle
  perm : ∀ lcs, (permute lcs).Perm lcs

def Lifecycle.timedOut (lc : Lifecycle) (nowMs : Nat) : Lifecycle :=
  { lc with
    state := timeoutStateFor lc.state
    closure := .closedWithUncertainty
    closedAtMs := some nowMs }

def Lifecycle.Stale (lc : Lifecycle) (nowMs : Nat) : Prop :=
  lc.stalenessMs ≤ nowMs - lc.lastEventAtMs

instance (lc : Lifecycle) (nowMs : Nat) : Decidable (lc.Stale nowMs) :=
  inferInstanceAs (Decidable (_ ≤ _))

namespace StalenessScanner

variable {σ : Type} [LifecycleStore σ]

-- One round of the loop of `sweep`, with the lifecycle as the snapshot has it.
def sweepOne (nowMs : Nat) (acc : σ × List StalenessResult) (lc : Lifecycle)
    : σ × List StalenessResult :=
  if lc.Stale nowMs then
    (upsert acc.1 (lc.timedOut nowMs),
      acc.2 ++ [⟨lc.id, nowMs, lc.state, timeoutStateFor lc.state⟩])
  else
    acc

def snapshot (store : σ) (order : IterationOrder) : List Lifecycle :=
  order.permute (allOpen store)

def sweep (store : σ) (order : IterationOrder) (nowMs : Nat) : σ × List StalenessResult :=
  (snapshot store order).foldl (sweepOne nowMs) (store, [])

end StalenessScanner

end Athar
