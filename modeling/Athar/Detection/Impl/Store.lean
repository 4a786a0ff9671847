import Athar.Detection.Impl.Decision
import Athar.Lib.Table

/-!
This module contains the store of the signals and decisions. Both tables have their identifier as the
primary key, so `INSERT OR REPLACE` deletes the row with the same identifier before it adds the new one.

Writing and reading the JSON of a decision is external, and so is the order in which the database
returns rows of the same time.
-/

namespace Athar

structure SignalRow where
  signalId : String
  tenantId : String
  kind : String
  confidence : ℚ
  value : String
  threshold : Option String
  timestampMs : Int64
  eventId : String
  lifecycleId : Option String
  trackerVersion : String
  deriving DecidableEq

structure DecisionRow (Text : Type) where
  decisionId : String
  tenantId : String
  timestampMs : Int64
  eventId : String
  lifecycleId : Option String
  action : String
  mode : String
  bodyJson : Text

-- The JSON of a record, and the order in which a query returns its rows.
structure DecisionDb where
  Text : Type
  toString : DecisionRecord → Option Text
  fromStr : Text → Option DecisionRecord
  orderByTimestampDesc : List (DecisionRow Text) → List (DecisionRow Text)

structure SqliteDecisionStore (db : DecisionDb) where
  signals : List SignalRow
  decisions : List (DecisionRow db.Text)

namespace SqliteDecisionStore

variable {db : DecisionDb} (s : SqliteDecisionStore db)

def «open» : SqliteDecisionStore db := ⟨[], []⟩

-- A timestamp is stored as an `i64`.
def asI64 (timestampMs : Nat) : Int64 :=
  Int64.ofNat timestampMs

def signalRow (r : SignalRecord) : SignalRow where
  signalId := r.signalId
  tenantId := r.tenantId
  kind := r.kind.asStr
  confidence := r.confidence
  value := r.value
  threshold := r.threshold
  timestampMs := asI64 r.timestampMs
  eventId := r.eventId
  lifecycleId := r.lifecycleId
  trackerVersion := r.trackerVersion

def decisionRow (r : DecisionRecord) (bodyJson : db.Text) : DecisionRow db.Text where
  decisionId := r.decisionId
  tenantId := r.tenantId
  timestampMs := asI64 r.timestampMs
  eventId := r.subject.eventId
  lifecycleId := r.subject.lifecycleId
  action := r.action.asStr
  mode := r.mode.asStr
  bodyJson

-- `executes` is whether the statement succeeds.
def writeSignal (r : SignalRecord) (executes : Bool) : SqliteDecisionStore db × Bool :=
  if executes then
    let new := signalRow r
    ({ s with signals := Table.replace (·.signalId = new.signalId) s.signals new }, true)
  else
    (s, false)

def writeDecision (r : DecisionRecord) (executes : Bool) : SqliteDecisionStore db × Bool :=
  match db.toString r with
  | none => (s, false)
  | some bodyJson =>
    if executes then
      let new := decisionRow r bodyJson
      ({ s with decisions := Table.replace (·.decisionId = new.decisionId) s.decisions new }, true)
    else
      (s, false)

def getDecision (id : String) : Option DecisionRecord :=
  (s.decisions.find? (·.decisionId = id)).bind fun row => db.fromStr row.bodyJson

-- A limit that is negative as an `i64` is no limit.
def limited {α : Type} (limit : UInt64) (rows : List α) : List α :=
  if limit.toNat < 2 ^ 63 then rows.take limit.toNat else rows

def recentDecisions (limit : UInt64) : List DecisionRecord :=
  (limited limit (db.orderByTimestampDesc s.decisions)).filterMap fun row => db.fromStr row.bodyJson

def countDecisions : Nat := s.decisions.length

def countSignals : Nat := s.signals.length

end SqliteDecisionStore

end Athar
