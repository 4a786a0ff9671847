import Athar.Lifecycle.Impl.Engine

/-!
This module contains the engine over a SQLite database whose statements may fail. A `SELECT` that fails
reads as no row, an upsert is one transaction that is rolled back unless every statement in it and its
commit succeed, and the event binding that follows it is a statement of its own. Nobody hears of a
failure: the store only logs it.
-/

namespace Athar

open LifecycleStore LifecycleEngine

-- `correlate`, with the lookup of each tier on its own.
def LifecycleEngine.correlateWith (byOperationId byBusinessId byParent byResource : String → Option String)
    (event : Event) : Corr :=
  match event.operationId.bind byOperationId with
  | some lcId => .match' lcId .explicit
  | none =>
  match event.businessId.bind byBusinessId with
  | some lcId => .match' lcId .businessId
  | none =>
  match event.parent.bind byParent with
  | some lcId => .match' lcId .causation
  | none =>
  match event.resourceId.bind byResource with
  | some lcId => .match' lcId .resourceId
  | none =>
  match LifecycleType.fromEventType event.eventType with
  | none => .none
  | some lct =>
    match event.resourceId, event.businessId with
    | some rid, bid => .new lct (some rid) (bid.or event.operationId)
    | none, some bid => .new lct none (some bid)
    | none, none => .none

theorem LifecycleEngine.correlate_eq_correlateWith {σ : Type} [LifecycleStore σ] (s : σ) (event : Event)
    : correlate s event
        = correlateWith (findByBusinessKey s) (findByBusinessKey s) (findByEvent s) (findByResource s)
            event := by
  rfl

-- Which statements of one call of `apply` succeed, should the call come to execute them.
structure Statements where
  selectByOperationId : Bool
  selectByBusinessId : Bool
  selectByParent : Bool
  selectByResource : Bool
  selectBody : Bool
  beginTransaction : Bool
  insertLifecycle : Bool
  insertBinding : Nat → Bool
  commit : Bool
  insertRecorded : Bool

namespace Statements

def allSucceed : Statements :=
  ⟨true, true, true, true, true, true, true, fun _ => true, true, true⟩

-- `.optional().ok().flatten()`
def select {α : Type} (succeeds : Bool) (query : String → Option α) (key : String) : Option α :=
  if succeeds then query key else none

def correlate (stmts : Statements) (db : SqliteLifecycleStore) (event : Event) : Corr :=
  correlateWith
    (select stmts.selectByOperationId (findByBusinessKey db))
    (select stmts.selectByBusinessId (findByBusinessKey db))
    (select stmts.selectByParent (findByEvent db))
    (select stmts.selectByResource (findByResource db))
    event

def get (stmts : Statements) (db : SqliteLifecycleStore) (id : String) : Option Lifecycle :=
  select stmts.selectBody (LifecycleStore.get db) id

-- The loop over the event ids, which gives up at the first statement that fails.
def bindEvents (succeeds : Nat → Bool) (index : Index) (id : String) : List String → Option Index
  | [] => some index
  | eventId :: eventIds =>
    if succeeds 0 then
      bindEvents (fun i => succeeds (i + 1)) (index.insert eventId id) id eventIds
    else
      none

def upsert (stmts : Statements) (db : SqliteLifecycleStore) (lc : Lifecycle) : SqliteLifecycleStore :=
  if !stmts.beginTransaction then
    db
  else if !stmts.insertLifecycle then
    db
  else
    match bindEvents stmts.insertBinding db.eventBindings lc.id lc.eventIds with
    | none => db
    | some eventBindings =>
      if stmts.commit then
        ⟨SqliteLifecycleStore.insertOrReplace db.lifecycles (rowOf lc), eventBindings⟩
      else
        db

def recordEvent (stmts : Statements) (db : SqliteLifecycleStore) (eventId lifecycleId : String)
    : SqliteLifecycleStore :=
  if stmts.insertRecorded then LifecycleStore.recordEvent db eventId lifecycleId else db

def apply (stmts : Statements) (db : SqliteLifecycleStore) (event : Event) (nowMs : Nat)
    : SqliteLifecycleStore × ApplyOutcome :=
  match stmts.correlate db event with
  | .match' lifecycleId tier =>
    match stmts.get db lifecycleId with
    | none => (db, .unbound)
    | some lc =>
      if lc.closure.isClosed then
        (stmts.upsert db (lc.withLateEvent event nowMs),
          .lateEvent lifecycleId tier (classifyLateEvent lc event))
      else
        let lc := lc.withEvent event tier nowMs
        (stmts.recordEvent (stmts.upsert db lc) event.eventId lifecycleId,
          .updated lifecycleId tier lc.state lc.closure)
  | .new lifecycleType resourceId businessKey =>
    let lc := Lifecycle.create event lifecycleType resourceId businessKey nowMs
    (stmts.recordEvent (stmts.upsert db lc) event.eventId lc.id,
      .created lc.id lifecycleType lc.state lc.closure)
  | .none => (db, .unbound)

-- The transaction of an upsert takes effect.
def Commits (stmts : Statements) (lc : Lifecycle) : Prop :=
  stmts.beginTransaction ∧ stmts.insertLifecycle
    ∧ (∀ i < lc.eventIds.length, stmts.insertBinding i) ∧ stmts.commit

instance (stmts : Statements) (lc : Lifecycle) : Decidable (stmts.Commits lc) :=
  inferInstanceAs (Decidable (_ ∧ _ ∧ _ ∧ _))

end Statements

end Athar
