import Athar.Audit.Instance
import Athar.Ingest.Lemmas
import Athar.Lifecycle.Instance

/-!
This module contains a server to compute with. Its JSON reading knows the payment events of a list,
as the compact texts that writing them gives.
-/

namespace Athar

open Storage Audit

-- The compact JSON text of a payment event with one resource and no other optional field.
def paymentText (event : Event) : String :=
  "\x7b\"schema_version\":\"1.0\",\"event_id\":\"" ++ event.eventId
    ++ "\",\"event_type\":\"" ++ event.eventType ++ "\",\"tenant_id\":\"" ++ event.tenantId
    ++ "\",\"timestamp\":\"" ++ event.timestamp ++ "\",\"received_at\":\"" ++ event.receivedAt
    ++ "\",\"clock\":\x7b\"source\":\"shim\",\"skew_estimate_ms\":null,\"monotonic_seq\":1\x7d"
    ++ ",\"resource\":\x7b\"id\":\"" ++ event.resourceId.getD "" ++ "\",\"type\":\"payment\"\x7d"
    ++ ",\"provenance\":\x7b\"origin\":\"UNKNOWN\",\"trigger\":\"API_REQUEST\",\"source\":\"test\""
    ++ ",\"producer\":null,\"authority\":null\x7d"
    ++ ",\"truth\":\x7b\"stage\":\"OBSERVED\",\"asserted_by\":\"test\"\x7d"
    ++ ",\"trust\":\x7b\"level\":\"UNKNOWN\",\"confidence\":0.0\x7d"
    ++ ",\"causality\":\x7b\"customer_correlation_ids\":\x7b\x7d\x7d"
    ++ ",\"coverage\":\x7b\"complete\":true\x7d\x7d"

def paymentValue (event : Event) : Json :=
  .object
    [("schema_version", .string "1.0"), ("event_id", .string event.eventId),
      ("event_type", .string event.eventType), ("tenant_id", .string event.tenantId),
      ("timestamp", .string event.timestamp), ("received_at", .string event.receivedAt),
      ("clock", .object
        [("source", .string "shim"), ("skew_estimate_ms", .null), ("monotonic_seq", .number 1)]),
      ("resource", .object
        [("id", .string (event.resourceId.getD "")), ("type", .string "payment")]),
      ("provenance", .object
        [("origin", .string "UNKNOWN"), ("trigger", .string "API_REQUEST"),
          ("source", .string "test"), ("producer", .null), ("authority", .null)]),
      ("truth", .object [("stage", .string "OBSERVED"), ("asserted_by", .string "test")]),
      ("trust", .object [("level", .string "UNKNOWN"), ("confidence", .number 0)]),
      ("causality", .object [("customer_correlation_ids", .object [])]),
      ("coverage", .object [("complete", .bool true)])]

def stringMember (value : Json) (name : String) : Option String :=
  match value.get name with
  | some (.string s) => some s
  | _ => none

def SerdeJson.ofPayments (events : List Event) : SerdeJson where
  fromSlice bytes := (events.find? fun e => asBytes (paymentText e) = bytes).map paymentValue
  fromValue value := events.find? fun e =>
    stringMember value "event_id" = some e.eventId
      ∧ stringMember value "event_type" = some e.eventType
  toVec event := asBytes (paymentText event)

def Detection.none : Detection where
  State := Unit
  Decision := Unit
  evaluate _ _ _ _ _ _ := ((), ())
  countDecisions _ := 0
  countSignals _ := 0

-- A frame that is read while everything works.
def paymentFrame (event : Event) (nowMs : Nat) : Frame Crates.toy where
  bytes := asBytes (paymentText event)
  level := .l0Normal
  levelAfter := .l0Normal
  nowRfc3339 := "2026-09-14T10:00:00.000000Z"
  nowMs := nowMs
  decisionMs := nowMs
  latencyUs := 0
  nowUs := 0
  logIo := ⟨⟨true, true, true⟩, .done, .done⟩
  auditIo := .done

-- A server on an empty data directory.
def emptyServer (logConfig : Storage.Config) (auditRecordsPerSegment : Nat) (backend : Backend)
    : IngestServer Crates.toy Detection.none where
  log := SegmentLog.open logConfig ∅
  audit := toyWriter.withMaxRecordsPerSegment auditRecordsPerSegment
  drops := ⟨0, 0, 0⟩
  lifecycles := DynStore.empty backend
  detection := ()
  responses := []

theorem new_emptyServer (logConfig : Storage.Config) (auditRecordsPerSegment : Nat)
    (backend : Backend)
    : IngestServer.new logConfig ∅ ⟨∅⟩ toyKey auditRecordsPerSegment (DynStore.empty backend) ()
        = .ok (emptyServer logConfig auditRecordsPerSegment backend) := by
  rfl

def smallLog : Storage.Config := ⟨65536, 8192, ⟨65536⟩⟩

def created : Event := paymentEvent "payment.create" "e1" "tnt_test" "pay_1"

theorem created_valid : created.validate = .ok () := by
  decide +kernel

-- A payment frame is read back as its event.
theorem paymentFrame_event? {event : Event} (hvalid : event.validate = .ok ()) (nowMs : Nat)
    : (paymentFrame event nowMs).event? (.ofPayments [event])
        = some { event with receivedAt := "2026-09-14T10:00:00.000000Z" } := by
  have hread : (SerdeJson.ofPayments [event]).fromValue (paymentValue event) = some event := by
    simp [SerdeJson.ofPayments, stringMember, paymentValue, Json.get, List.lookup_cons]
  have hparse : (SerdeJson.ofPayments [event]).fromSlice (asBytes (paymentText event))
      = some (paymentValue event) := by
    simp [SerdeJson.ofPayments]
  simp only [Frame.event?, paymentFrame, hparse, Option.bind_some, IngestServer.parseEvent, hread,
    hvalid]
  rfl

end Athar
