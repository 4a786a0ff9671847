import Mathlib.Data.List.AList
import Mathlib.Data.List.Sort
import Athar.Lib.Table
import Athar.Lifecycle.Impl.Types

/-!
This module contains the lifecycle stores: the interface that the engine and the scanner are written
against, the in-memory store with its three indexes, and the SQLite store with its two tables.

The statements of the SQLite store are those of its schema, where `INSERT OR REPLACE` first deletes
every row that conflicts with the new one on the primary key or on a unique index. The body column is
kept as the lifecycle itself, since reading its JSON gives back what was written.
-/

namespace Athar

class LifecycleStore (σ : Type) where
  get : σ → String → Option Lifecycle
  findByResource : σ → String → Option String
  findByBusinessKey : σ → String → Option String
  findByEvent : σ → String → Option String
  upsert : σ → Lifecycle → σ
  recordEvent : σ → String → String → σ
  allOpen : σ → List Lifecycle
  count : σ → Nat
  countOpen : σ → Nat

abbrev Index := AList fun _ : String => String

def bindAll (index : Index) (keys : List String) (id : String) : Index :=
  keys.foldl (fun index key => index.insert key id) index

structure InMemoryStore where
  lifecycles : AList fun _ : String => Lifecycle
  byResource : Index
  byBusinessKey : Index
  byEvent : Index

namespace InMemoryStore

def new : InMemoryStore := ⟨∅, ∅, ∅, ∅⟩

def values (s : InMemoryStore) : List Lifecycle :=
  s.lifecycles.entries.map (·.2)

def upsert (s : InMemoryStore) (lc : Lifecycle) : InMemoryStore where
  lifecycles := s.lifecycles.insert lc.id lc
  byResource := bindAll s.byResource lc.resourceId.toList lc.id
  byBusinessKey := bindAll s.byBusinessKey lc.businessKey.toList lc.id
  byEvent := bindAll s.byEvent lc.eventIds lc.id

instance : LifecycleStore InMemoryStore where
  get s id := s.lifecycles.lookup id
  findByResource s r := s.byResource.lookup r
  findByBusinessKey s k := s.byBusinessKey.lookup k
  findByEvent s eventId := s.byEvent.lookup eventId
  upsert := upsert
  recordEvent s eventId lifecycleId := { s with byEvent := s.byEvent.insert eventId lifecycleId }
  allOpen s := s.values.filter (·.closure = .open)
  count s := s.lifecycles.entries.length
  countOpen s := (s.values.filter (·.closure = .open)).length

end InMemoryStore

def stateStr : State → String
  | .started => "Started"
  | .processing => "Processing"
  | .pending => "Pending"
  | .success => "Success"
  | .failed => "Failed"
  | .cancelled => "Cancelled"
  | .rejected => "Rejected"
  | .timeout => "Timeout"
  | .expired => "Expired"
  | .abandoned => "Abandoned"
  | .reversed => "Reversed"
  | .compensated => "Compensated"
  | .partiallyCompleted => "PartiallyCompleted"
  | .conflicted => "Conflicted"
  | .unknown => "Unknown"

def closureStr : Closure → String
  | .open => "Open"
  | .closed => "Closed"
  | .closedWithException => "ClosedWithException"
  | .closedWithUncertainty => "ClosedWithUncertainty"

def lctStr : LifecycleType → String
  | .payment => "Payment"

structure LifecycleRow where
  id : String
  tenantId : String
  lifecycleType : String
  businessKey : Option String
  resourceId : Option String
  state : String
  closure : String
  startedAtMs : Nat
  lastEventAtMs : Nat
  closedAtMs : Option Nat
  bodyJson : Lifecycle

def rowOf (lc : Lifecycle) : LifecycleRow where
  id := lc.id
  tenantId := lc.tenantId
  lifecycleType := lctStr lc.lifecycleType
  businessKey := lc.businessKey
  resourceId := lc.resourceId
  state := stateStr lc.state
  closure := closureStr lc.closure
  startedAtMs := lc.startedAtMs
  lastEventAtMs := lc.lastEventAtMs
  closedAtMs := lc.closedAtMs
  bodyJson := lc

-- The primary key, `idx_lifecycles_resource` and `idx_lifecycles_business_key`.
def LifecycleRow.conflicts (new row : LifecycleRow) : Bool :=
  row.id = new.id
    ∨ (row.tenantId = new.tenantId ∧ new.resourceId ≠ none ∧ row.resourceId = new.resourceId)
    ∨ (row.tenantId = new.tenantId ∧ new.businessKey ≠ none ∧ row.businessKey = new.businessKey)

structure SqliteLifecycleStore where
  lifecycles : List LifecycleRow
  eventBindings : Index

namespace SqliteLifecycleStore

def «open» : SqliteLifecycleStore := ⟨[], ∅⟩

def insertOrReplace (rows : List LifecycleRow) (new : LifecycleRow) : List LifecycleRow :=
  Table.replace new.conflicts rows new

def upsert (s : SqliteLifecycleStore) (lc : Lifecycle) : SqliteLifecycleStore where
  lifecycles := insertOrReplace s.lifecycles (rowOf lc)
  eventBindings := bindAll s.eventBindings lc.eventIds lc.id

def openRows (s : SqliteLifecycleStore) : List LifecycleRow :=
  s.lifecycles.filter (·.closure = "Open")

instance : LifecycleStore SqliteLifecycleStore where
  get s id := (Table.find (some ·.id) s.lifecycles id).map (·.bodyJson)
  findByResource s r := (Table.find (·.resourceId) s.lifecycles r).map (·.id)
  findByBusinessKey s k := (Table.find (·.businessKey) s.lifecycles k).map (·.id)
  findByEvent s eventId := s.eventBindings.lookup eventId
  upsert := upsert
  recordEvent s eventId lifecycleId :=
    { s with eventBindings := s.eventBindings.insert eventId lifecycleId }
  allOpen s := (s.openRows.insertionSort (·.startedAtMs ≤ ·.startedAtMs)).map (·.bodyJson)
  count s := s.lifecycles.length
  countOpen s := s.openRows.length

end SqliteLifecycleStore

-- `&dyn LifecycleStore`: either of the two implementations.
inductive DynStore where
  | inMemory (s : InMemoryStore)
  | sqlite (s : SqliteLifecycleStore)

inductive Backend where
  | inMemory
  | sqlite
  deriving DecidableEq, Repr

namespace DynStore

open LifecycleStore

def empty : Backend → DynStore
  | .inMemory => .inMemory .new
  | .sqlite => .sqlite .open

instance : LifecycleStore DynStore where
  get
    | .inMemory s => get s
    | .sqlite s => get s
  findByResource
    | .inMemory s => findByResource s
    | .sqlite s => findByResource s
  findByBusinessKey
    | .inMemory s => findByBusinessKey s
    | .sqlite s => findByBusinessKey s
  findByEvent
    | .inMemory s => findByEvent s
    | .sqlite s => findByEvent s
  upsert
    | .inMemory s, lc => .inMemory (upsert s lc)
    | .sqlite s, lc => .sqlite (upsert s lc)
  recordEvent
    | .inMemory s, eventId, lifecycleId => .inMemory (recordEvent s eventId lifecycleId)
    | .sqlite s, eventId, lifecycleId => .sqlite (recordEvent s eventId lifecycleId)
  allOpen
    | .inMemory s => allOpen s
    | .sqlite s => allOpen s
  count
    | .inMemory s => count s
    | .sqlite s => count s
  countOpen
    | .inMemory s => countOpen s
    | .sqlite s => countOpen s

end DynStore

end Athar
