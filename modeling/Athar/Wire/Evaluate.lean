import Athar.Detection.Decision
import Athar.Detection.Store
import Athar.Detection.TenantIsolation
import Athar.Ingest.Instance
import Athar.Shim.Lemmas.Assoc
import Athar.Shim.Lemmas.Names
import Athar.Wire.Delivery
import Athar.Wire.Impl.Evaluate

/-!
This module contains what a synchronous evaluation tells the application. Whatever happens on the way,
the answer is the decision that the daemon made for this very event, or one that allows and enforces
nothing; and when nothing goes wrong on the way it is the daemon's.
-/

namespace Athar.Wire

open Audit Records Incremental Shim

section Exchange

theorem readExact_eq_some {sizes sizes' : List Nat} {n : Nat} {incoming bytes rest : List UInt8}
    (h : readExact sizes n incoming = some (bytes, sizes', rest))
    : incoming = bytes ++ rest ∧ bytes.length = n := by
  induction sizes generalizing n incoming bytes with
  | nil =>
    cases n with
    | zero => simp_all [readExact]
    | succ n => simp [readExact] at h
  | cons size sizes ih =>
    cases n with
    | zero => simp_all [readExact]
    | succ n =>
      rw [readExact] at h
      split at h
      . contradiction
      . split at h
        . contradiction
        . next chunkRest sizes'' rest' hrest =>
          simp only [Option.some.injEq, Prod.mk.injEq] at h
          rcases h with ⟨rfl, rfl, rfl⟩
          rcases ih hrest with ⟨hincoming, hlength⟩
          rw [List.append_assoc, ← hincoming, List.length_append, hlength]
          have hle := List.length_take_le (min size (n + 1)) incoming
          have hpre := List.take_prefix (min size (n + 1)) incoming
          refine ⟨?_, by omega⟩
          conv_lhs => rw [← List.prefix_iff_eq_append.mp hpre]

-- Reads that return something get through.
theorem readExact_isSome {sizes : List Nat} (n : Nat) (incoming : List UInt8)
    (hsizes : ∀ size ∈ sizes, 0 < size) (hn : n ≤ sizes.length) (hincoming : n ≤ incoming.length)
    : ∃ sizes', readExact sizes n incoming = some (incoming.take n, sizes', incoming.drop n)
        ∧ (∀ size ∈ sizes', 0 < size) ∧ sizes.length ≤ n + sizes'.length := by
  induction sizes generalizing n incoming with
  | nil =>
    have hzero : n = 0 := by simpa using hn
    subst hzero
    exact ⟨[], by simp [readExact], by simp, by simp⟩
  | cons size sizes ih =>
    cases n with
    | zero => exact ⟨size :: sizes, by simp [readExact], hsizes, by simp⟩
    | succ n =>
      have hpos := hsizes size (by simp)
      have hlength : (incoming.take (min size (n + 1))).length = min size (n + 1) := by
        rw [List.length_take]
        omega
      have hne : incoming.take (min size (n + 1)) ≠ [] := by
        apply List.ne_nil_of_length_pos
        omega
      rw [List.length_cons] at hn
      rcases ih (n + 1 - min size (n + 1)) (incoming.drop (min size (n + 1)))
        (fun s hs => hsizes s (List.mem_cons_of_mem _ hs)) (by omega) (by rw [List.length_drop]; omega)
        with ⟨sizes', hread, hsizes', hcount⟩
      have hsum : min size (n + 1) + (n + 1 - min size (n + 1)) = n + 1 := by omega
      refine ⟨sizes', ?_, hsizes', ?_⟩
      . rw [readExact, if_neg hne, hlength, hread]
        dsimp
        rw [← List.take_add, List.drop_drop, hsum]
      . have hleft : n + 1 - min size (n + 1) ≤ n := by omega
        rw [List.length_cons]
        omega

variable {connected : Bool} {accepts chunks : List Nat} {answer : List UInt8 → List UInt8}
  {frame body : List UInt8}

theorem sendAndReceive_eq_some
    (h : Transport.sendAndReceive connected accepts chunks answer frame = some body)
    : 0 < frame.length ∧ frame.length ≤ Transport.MAX_FRAME
        ∧ encode 4 body <+: answer (encode 4 frame) ∧ body.length ≤ Transport.MAX_RESPONSE := by
  unfold Transport.sendAndReceive at h
  split at h
  . contradiction
  . split at h
    . contradiction
    . next hlength =>
      have hpre := writeAll_fst_prefix accepts (encode 4 frame)
      have hnone := writeAll_snd_eq_none_iff accepts (encode 4 frame)
      generalize writeAll accepts (encode 4 frame) = written at h hpre hnone
      rcases written with ⟨sent, later⟩
      cases later with
      | none => contradiction
      | some later =>
        have hsent : sent = encode 4 frame := by simpa using hnone
        subst hsent
        dsimp at h
        cases hheader : readExact chunks 4 (answer (encode 4 frame)) with
        | none => simp [hheader] at h
        | some read =>
          rcases read with ⟨header, chunks', incoming⟩
          rcases readExact_eq_some hheader with ⟨hanswer, hfour⟩
          simp only [hheader, Option.bind_some] at h
          split at h
          . contradiction
          . next hresponse =>
            cases hbody : readExact chunks' (ofBigEndian header) incoming with
            | none => simp [hbody] at h
            | some read =>
              rcases read with ⟨body', _, rest⟩
              rcases readExact_eq_some hbody with ⟨hincoming, hcount⟩
              simp only [hbody, Option.bind_some, Option.some.injEq] at h
              subst h
              refine ⟨by omega, by omega, ?_, by omega⟩
              rw [hanswer, hincoming, encode, hcount, bigEndian_ofBigEndian hfour, ← List.append_assoc]
              exact List.prefix_append _ rest

theorem sendAndReceive_of_arrives (hconnected : connected = true)
    (hframe : 0 < frame.length ∧ frame.length ≤ Transport.MAX_FRAME)
    (hwritten : (writeAll accepts (encode 4 frame)).1 = encode 4 frame)
    (hbody : 0 < body.length ∧ body.length ≤ Transport.MAX_RESPONSE)
    (hanswer : answer (encode 4 frame) = encode 4 body)
    (hchunks : (∀ size ∈ chunks, 0 < size) ∧ 4 + body.length ≤ chunks.length)
    : Transport.sendAndReceive connected accepts chunks answer frame = some body := by
  have hmax : Transport.MAX_RESPONSE < 256 ^ 4 := by decide
  have hsome : (writeAll accepts (encode 4 frame)).2 ≠ none := by
    rw [ne_eq, writeAll_snd_eq_none_iff, not_not]
    exact hwritten
  have hlength : (encode 4 body).length = 4 + body.length := by
    simp [encode]
  rcases readExact_isSome 4 (encode 4 body) hchunks.1 (by omega) (by omega)
    with ⟨chunks', hheader, hchunks', hcount⟩
  have htake : (encode 4 body).take 4 = Bytes.bigEndian 4 body.length := by
    simpa using take_encode 4 body []
  have hdrop : (encode 4 body).drop 4 = body := by
    simpa using drop_encode 4 body []
  rw [htake, hdrop] at hheader
  rcases readExact_isSome body.length body hchunks' (by omega) (by omega) with ⟨chunks'', hread, _, _⟩
  unfold Transport.sendAndReceive
  rw [if_neg (by simp [hconnected]), if_neg (by omega)]
  generalize hwrite : writeAll accepts (encode 4 frame) = written at hwritten hsome
  rcases written with ⟨sent, later⟩
  cases later with
  | none => contradiction
  | some later =>
    dsimp at hwritten ⊢
    rw [hwritten, hanswer, hheader]
    simp only [Option.bind_some]
    rw [ofBigEndian_length (by omega), if_neg (by omega), hread]
    simp

end Exchange

variable {c : Crates} {f : Floats} {db : DecisionDb} {fixed2 : ℚ → String}

-- The decision that the detectors come to for the event of a frame that asks for one.
def Decided (json : SerdeJson) (fixed2 : ℚ → String) (detectors : Detectors f db) (frame : Frame c)
    (record : DecisionRecord) : Prop :=
  ∃ event lifecycleId, frame.event? json = some event ∧ frame.wantsResponse json = true
    ∧ record = (detectors.evaluate fixed2 event lifecycleId frame.decisionMs frame.latencyUs
        frame.levelAfter).2

-- The decision of a response to the shim.
def ofRecord (record : DecisionRecord) (latencyUs : Int) : Shim.Decision where
  decisionId := record.decisionId
  action := record.action.asStr
  mode := record.mode.asStr
  reasonCodes := record.reasonCodes
  outcomeReason :=
    if (record.policiesEvaluated.head?.map (·.matched)).getD false then "POLICY_MATCH"
    else "NO_POLICY_APPLIED"
  latencyUs

-- The arrays that the texts of the daemon decode to. No number of a response is used.
def decisionArray (record : DecisionRecord) (latencyUs : Shim.PhpValue) : Shim.PhpArray :=
  Shim.assoc [
    ("action", .string record.action.asStr),
    ("decision_id", .string record.decisionId),
    ("latency_us", latencyUs),
    ("mode", .string record.mode.asStr),
    ("outcome_reason", .string
      (if (record.policiesEvaluated.head?.map (·.matched)).getD false then "POLICY_MATCH"
        else "NO_POLICY_APPLIED")),
    ("reason_codes", .array (Shim.list (record.reasonCodes.map .string)))]

def statusArray (body : StatusBody) (counts ingest timestampMs : Shim.PhpValue) : Shim.PhpArray :=
  Shim.assoc [
    ("counts", counts),
    ("daemon_version", .string CARGO_PKG_VERSION),
    ("ingest", ingest),
    ("pressure_level", .string body.pressureLevel.debug),
    ("schema_version", .string "1.0"),
    ("timestamp_ms", timestampMs)]

-- What is documented about decoding: the array of a document has its members, with strings as they are.
-- A large number may come out as a float.
def Decodes (formats : Formats) : Response (Detection.ofEngines f db fixed2) → Prop
  | .decision record => ∃ latencyUs,
    formats.jsonDecode (formats.toVec (decisionBody record)) = .array (decisionArray record latencyUs)
  | .status body => ∃ counts ingest timestampMs,
    formats.jsonDecode (formats.toVec (statusBody body))
      = .array (statusArray body counts ingest timestampMs)

-- A response that its header can count, and that the shim decodes.
structure Readable (formats : Formats) (response : Response (Detection.ofEngines f db fixed2)) : Prop where
  length : (formats.toVec (responseBody response)).length < 2 ^ 32
  decodes : Decodes formats response

section Daemon

variable {json : SerdeJson} {s : IngestServer c (.ofEngines f db fixed2)} {frame : Frame c}

theorem responses_project {d : Detection} (s : IngestServer c d) (event : Event) (wantsResponse : Bool)
    (frame : Frame c)
    : (s.project event wantsResponse frame).responses
        = s.responses ++ if wantsResponse = true then
            [.decision (d.evaluate s.detection event
              (IngestServer.lifecycleId (LifecycleEngine.apply s.lifecycles event frame.nowMs).2)
              frame.decisionMs frame.latencyUs frame.levelAfter).2]
          else [] := by
  rfl

theorem decision_inj {a b : DecisionRecord}
    (h : [(.decision a : Response (Detection.ofEngines f db fixed2))] = [.decision b]) : a = b := by
  cases h
  rfl

theorem responses_ingestOne (s : IngestServer c (.ofEngines f db fixed2)) (json : SerdeJson)
    (frame : Frame c)
    : ∃ new, (s.ingestOne json frame).1.responses = s.responses ++ new
        ∧ (new = [] ∨ (∃ body, new = [.status body])
          ∨ ∃ record : DecisionRecord, new = [.decision record] ∧ Decided json fixed2 s.detection frame record) := by
  have hingested := IngestServer.ingestOne_ingested s json frame
  generalize (s.ingestOne json frame).1 = server at hingested ⊢
  generalize (s.ingestOne json frame).2 = result at hingested
  cases hingested with
  | dropped => exact ⟨[], by simp, .inl rfl⟩
  | status _ _ body => exact ⟨[.status body], rfl, .inr (.inl ⟨body, rfl⟩)⟩
  | refused => exact ⟨[], by simp, .inl rfl⟩
  | unappended => exact ⟨[], by simp, .inl rfl⟩
  | uncommitted => exact ⟨[], by simp, .inl rfl⟩
  | @recorded _ _ event hevent _ _ _ =>
    rw [responses_project]
    split
    . next hwants => exact ⟨_, rfl, .inr (.inr ⟨_, rfl, event, _, hevent, hwants, rfl⟩)⟩
    . exact ⟨[], rfl, .inl rfl⟩

end Daemon

theorem pull_encode {frame : List UInt8} (hframe : frame.length ≤ Transport.MAX_FRAME)
    : (pull (lengthDelimited LENGTH_FIELD_LENGTH MAX_FRAME_LENGTH) (encode 4 frame)).1
        = if frame.length ≤ MAX_FRAME_LENGTH then [frame] else [] := by
  have hmax : Transport.MAX_FRAME < 256 ^ 4 := by decide
  have hpull := Transport.pull_cut [frame] 1 Transport.cut_nil
  have hsendable : Transport.sendable [frame] = [frame] := by
    simp [Transport.sendable, hframe]
  rw [hsendable, List.take_of_length_le (by simp), encodeAll_singleton, List.append_nil] at hpull
  rw [hpull]
  by_cases h : frame.length ≤ MAX_FRAME_LENGTH
  . simp [h]
  . simp [h]

theorem encode_inj_of_prefix {w : Nat} {a b : List UInt8} (ha : a.length < 256 ^ w)
    (hb : b.length < 256 ^ w) (h : encode w a <+: encode w b) : a = b := by
  have hheader : Bytes.bigEndian w a.length = Bytes.bigEndian w b.length := by
    rcases h with ⟨rest, hrest⟩
    have htake := take_encode w b []
    rw [List.append_nil, ← hrest, take_encode] at htake
    exact htake
  have hlength := Bytes.bigEndian_inj_of_lt ha hb hheader
  rw [encode, encode, hlength, List.prefix_append_right_inj] at h
  exact h.eq_of_length hlength

namespace Passage

variable {formats : Formats} {passage : Passage c} {s : IngestServer c (.ofEngines f db fixed2)}
  {floatText : ℚ → String} {runtime : Shim.Runtime} {event : Shim.PhpArray}

-- The frame that the daemon ingests for the bytes of an evaluation.
def frameOf (passage : Passage c) (bytes : List UInt8) : Frame c :=
  { passage.io 0 with bytes }

def responses (formats : Formats) (passage : Passage c) (s : IngestServer c (.ofEngines f db fixed2))
    (bytes : List UInt8) : List (Response (.ofEngines f db fixed2)) :=
  (passage.serve formats s (encode 4 bytes)).responses.drop s.responses.length

theorem serve_encode
    (hcodec : LengthDelimitedCodec LENGTH_FIELD_LENGTH MAX_FRAME_LENGTH formats.decode)
    {bytes : List UInt8} (hbytes : bytes.length ≤ Transport.MAX_FRAME)
    : passage.serve formats s (encode 4 bytes)
        = if bytes.length ≤ MAX_FRAME_LENGTH then
            (s.ingestOne formats.json (passage.frameOf bytes)).1
          else s := by
  rw [serve, processStream, hcodec.eq, framesOf_eq_pull, flatten_readsOf, pull_encode hbytes]
  split <;> rfl

variable (formats passage s) in
-- What the daemon answers to the bytes of an evaluation.
theorem responses_eq
    (hcodec : LengthDelimitedCodec LENGTH_FIELD_LENGTH MAX_FRAME_LENGTH formats.decode)
    {bytes : List UInt8} (hbytes : bytes.length ≤ Transport.MAX_FRAME)
    : passage.responses formats s bytes = []
        ∨ (∃ body, passage.responses formats s bytes = [.status body])
        ∨ ∃ record : DecisionRecord, passage.responses formats s bytes = [.decision record]
            ∧ Decided formats.json fixed2 s.detection (passage.frameOf bytes) record := by
  unfold responses
  rw [serve_encode hcodec hbytes]
  split
  . rcases responses_ingestOne s formats.json (passage.frameOf bytes) with ⟨new, hnew, hcases⟩
    rw [hnew, List.drop_left]
    exact hcases
  . simp

-- What the shim reads of an answer is the text of the daemon's one response.
theorem receive_eq_some
    (hcodec : LengthDelimitedCodec LENGTH_FIELD_LENGTH MAX_FRAME_LENGTH formats.decode)
    {bytes body : List UInt8}
    (hreadable : ∀ response ∈ passage.responses formats s bytes, Readable formats response)
    (h : passage.receive formats s bytes = some body)
    : (∃ b, passage.responses formats s bytes = [.status b] ∧ body = formats.toVec (statusBody b))
        ∨ ∃ record : DecisionRecord, passage.responses formats s bytes = [.decision record]
            ∧ Decided formats.json fixed2 s.detection (passage.frameOf bytes) record
            ∧ body = formats.toVec (decisionBody record) := by
  rcases sendAndReceive_eq_some h with ⟨_, hlength, hpre, hmax⟩
  have hresponse : Transport.MAX_RESPONSE < 256 ^ 4 := by decide
  have hwritten : encode 4 body <+: (passage.responses formats s bytes).flatMap fun response =>
      writeFrame (formats.toVec (responseBody response)) :=
    hpre.trans (List.take_prefix _ _)
  rcases responses_eq formats passage s hcodec hlength with
    hnone | ⟨b, hstatus⟩ | ⟨record, hdecision, hdecided⟩
  . rw [hnone, List.flatMap_nil, List.prefix_nil] at hwritten
    have := congrArg List.length hwritten
    simp [encode] at this
  . left
    rw [hstatus, List.flatMap_singleton] at hwritten
    refine ⟨b, hstatus, encode_inj_of_prefix (by omega) ?_ hwritten⟩
    exact (hreadable (.status b) (by simp [hstatus])).length
  . right
    rw [hdecision, List.flatMap_singleton] at hwritten
    refine ⟨record, hdecision, hdecided, encode_inj_of_prefix (by omega) ?_ hwritten⟩
    exact (hreadable (.decision record) (by simp [hdecision])).length

end Passage

section Responses

open Shim

theorem text_string (floatText : ℚ → String) (s : String)
    : (PhpValue.string s).text floatText = some s := by
  rfl

theorem mapM_some {α : Type} (values : List α) : values.mapM some = some values := by
  induction values with
  | nil => rfl
  | cons value values ih => simp [ih]

theorem toArrayValues_list (values : List PhpValue)
    : (PhpValue.array (Shim.list values)).toArrayValues = values := by
  rw [PhpValue.toArrayValues, Shim.list, List.map_map]
  exact List.zipIdx_map_fst 0 values

theorem fromResponse_decision (floatText : ℚ → String) (record : DecisionRecord) (latency : PhpValue)
    (latencyUs : Int)
    : Decision.fromResponse floatText (decisionArray record latency) latencyUs
        = some (ofRecord record latencyUs) := by
  simp [Decision.fromResponse, decisionArray, PhpArray.getOr, get_assoc, List.lookup_cons,
    PhpValue.coalesce, text_string, toArrayValues_list, Function.comp_def, mapM_some, ofRecord]

-- A status has nothing that a decision is read from.
theorem fromResponse_status (floatText : ℚ → String) (body : StatusBody)
    (counts ingest timestampMs : PhpValue) (latencyUs : Int)
    : Decision.fromResponse floatText (statusArray body counts ingest timestampMs) latencyUs
        = some ⟨"dec_unknown", Decision.ACTION_ALLOW, Decision.MODE_OBSERVE, [],
            Decision.OUTCOME_POLICY_MATCH, latencyUs⟩ := by
  simp [Decision.fromResponse, statusArray, PhpArray.getOr, get_assoc, List.lookup_cons,
    PhpValue.coalesce, text_string, PhpValue.toArrayValues]

end Responses

open Shim

-- The application goes on, and has nothing to act on.
def Permits (d : Shim.Decision) : Prop :=
  d.action = Decision.ACTION_ALLOW ∧ d.mode = Decision.MODE_OBSERVE ∧ d.reasonCodes = []

variable {formats : Formats} {passage : Passage c} {s : IngestServer c (.ofEngines f db fixed2)}
  {floatText : ℚ → String} {runtime : Runtime} {event : PhpArray}

/--
However an evaluation goes, its outcome permits, or it is the decision that the daemon made for the event
of the frame that was sent.
-/
theorem evaluate_permits_or_decided
    (hcodec : LengthDelimitedCodec LENGTH_FIELD_LENGTH MAX_FRAME_LENGTH formats.decode)
    (passage : Passage c) (s : IngestServer c (.ofEngines f db fixed2)) (floatText : ℚ → String)
    (runtime : Runtime) (event : PhpArray)
    (hreadable : ∀ frame, runtime.evaluate floatText event = some frame →
      ∀ response ∈ passage.responses formats s (formats.text frame), Readable formats response)
    : Permits (passage.evaluate formats s floatText runtime event)
        ∨ ∃ (frame : Json) (record : DecisionRecord), runtime.evaluate floatText event = some frame
            ∧ passage.responses formats s (formats.text frame) = [.decision record]
            ∧ Decided formats.json fixed2 s.detection (passage.frameOf (formats.text frame)) record
            ∧ passage.evaluate formats s floatText runtime event
                = ofRecord record passage.latencyUs := by
  unfold Passage.evaluate Runtime.evaluateWith
  split
  . exact .inl ⟨rfl, rfl, rfl⟩
  . cases hframe : runtime.evaluate floatText event with
    | none => exact .inl ⟨rfl, rfl, rfl⟩
    | some frame =>
      dsimp
      cases hreceive : passage.receive formats s (formats.text frame) with
      | none => exact .inl ⟨rfl, rfl, rfl⟩
      | some body =>
        dsimp
        have hreadable := hreadable frame hframe
        rcases Passage.receive_eq_some hcodec hreadable hreceive with
          ⟨b, hresponses, rfl⟩ | ⟨record, hresponses, hdecided, rfl⟩
        . rcases (hreadable (.status b) (by simp [hresponses])).decodes with
            ⟨counts, ingest, timestampMs, hdecode⟩
          rw [hdecode]
          dsimp
          rw [fromResponse_status]
          exact .inl ⟨rfl, rfl, rfl⟩
        . rcases (hreadable (.decision record) (by simp [hresponses])).decodes with ⟨latency, hdecode⟩
          rw [hdecode]
          dsimp
          rw [fromResponse_decision]
          exact .inr ⟨frame, record, rfl, hresponses, hdecided, rfl⟩

-- Nothing goes wrong on the way of a frame to the daemon, and of the decision back.
structure Passage.Clear (formats : Formats) (passage : Passage c) (frame : Json)
    (record : DecisionRecord) : Prop where
  connected : passage.connected = true
  frame_length : 0 < (formats.text frame).length ∧ (formats.text frame).length ≤ MAX_FRAME_LENGTH
  written : (writeAll passage.accepts (encode 4 (formats.text frame))).1 = encode 4 (formats.text frame)
  body_length : 0 < (formats.toVec (decisionBody record)).length
    ∧ (formats.toVec (decisionBody record)).length ≤ Transport.MAX_RESPONSE
  arrives : 4 + (formats.toVec (decisionBody record)).length ≤ passage.arrives
  read : (∀ size ∈ passage.chunks, 0 < size)
    ∧ 4 + (formats.toVec (decisionBody record)).length ≤ passage.chunks.length
  decodes : ∃ latencyUs, formats.jsonDecode (formats.toVec (decisionBody record))
    = .array (decisionArray record latencyUs)

theorem Passage.Clear.evaluate_eq {frame : Json} {record : DecisionRecord}
    (hcodec : LengthDelimitedCodec LENGTH_FIELD_LENGTH MAX_FRAME_LENGTH formats.decode)
    (h : passage.Clear formats frame record) (henabled : runtime.enabled = true)
    (hframe : runtime.evaluate floatText event = some frame)
    (hresponse : (s.ingestOne formats.json (passage.frameOf (formats.text frame))).1.responses
      = s.responses ++ [.decision record])
    : passage.evaluate formats s floatText runtime event = ofRecord record passage.latencyUs := by
  have hmax : MAX_FRAME_LENGTH ≤ Transport.MAX_FRAME := by decide
  have hlength := h.frame_length
  have hserve : passage.serve formats s (encode 4 (formats.text frame))
      = (s.ingestOne formats.json (passage.frameOf (formats.text frame))).1 := by
    rw [Passage.serve_encode hcodec (by omega), if_pos hlength.2]
  have hreceive : passage.receive formats s (formats.text frame)
      = some (formats.toVec (decisionBody record)) := by
    apply sendAndReceive_of_arrives h.connected ⟨hlength.1, by omega⟩ h.written h.body_length ?_ h.read
    have hcount : (writeFrame (formats.toVec (decisionBody record))).length
        = 4 + (formats.toVec (decisionBody record)).length := by
      simp [writeFrame, encode]
    rw [hserve, writtenSince, hresponse, List.drop_left, List.flatMap_singleton]
    apply List.take_of_length_le
    exact hcount.le.trans h.arrives
  rcases h.decodes with ⟨latency, hdecode⟩
  unfold Passage.evaluate Runtime.evaluateWith
  rw [if_neg (by simp [henabled]), hframe]
  dsimp
  rw [hreceive]
  dsimp
  rw [hdecode]
  dsimp
  rw [fromResponse_decision]

theorem isEnforced_ofRecord (record : DecisionRecord) (latencyUs : Int)
    : (ofRecord record latencyUs).isEnforced = true ↔ record.mode = .enforce := by
  unfold ofRecord Decision.isEnforced
  dsimp
  cases record.mode <;> simp [PolicyMode.asStr, Decision.MODE_ENFORCE]

-- What the application reads from a decision, by the rule that made it.
structure Tells (d : Shim.Decision) (deciding : Option PolicyTrigger) : Prop where
  action : d.action = deciding.elim Decision.ACTION_ALLOW fun _ => Decision.ACTION_CHALLENGE
  mode : d.mode = deciding.elim Decision.MODE_OBSERVE fun t => t.rule.mode.asStr
  reasonCodes : d.reasonCodes = deciding.toList.map (·.reasonCode)
  outcomeReason : d.outcomeReason
    = deciding.elim Decision.OUTCOME_NO_POLICY_APPLIED fun _ => Decision.OUTCOME_POLICY_MATCH
  isRealDecision : d.isRealDecision = true
  isMatched : d.isMatched = deciding.isSome
  wouldRestrict : d.wouldRestrict = deciding.isSome
  isEnforced : d.isEnforced = true ↔ ∃ t, deciding = some t ∧ t.rule.mode = .enforce

theorem tells_ofRecord {record : DecisionRecord} {config : PolicyConfig} {signals : List Signal}
    (hpolicies : record.policiesEvaluated = [PolicyEngine.evaluate config signals])
    (haction : record.action = (PolicyEngine.evaluate config signals).action)
    (hmode : record.mode = (PolicyEngine.evaluate config signals).mode)
    (hcodes : record.reasonCodes = (PolicyEngine.evaluate config signals).reasonCodes) (latencyUs : Int)
    : Tells (ofRecord record latencyUs) (config.deciding signals) := by
  have henforced := isEnforced_ofRecord record latencyUs
  rw [hmode] at henforced
  have hevaluate := PolicyEngine.evaluate_eq_deciding config signals
  cases hdeciding : config.deciding signals with
  | none =>
    rw [hdeciding] at hevaluate
    rw [hevaluate] at hpolicies haction hmode hcodes henforced
    constructor
    . simp [ofRecord, haction, PolicyEngine.noPolicyMatched, Decision.ACTION_ALLOW, Action.asStr]
    . simp [ofRecord, hmode, PolicyEngine.noPolicyMatched, Decision.MODE_OBSERVE, PolicyMode.asStr]
    . exact hcodes
    . simp [ofRecord, hpolicies, PolicyEngine.noPolicyMatched, Decision.OUTCOME_NO_POLICY_APPLIED]
    . simp [ofRecord, hpolicies, PolicyEngine.noPolicyMatched, Decision.isRealDecision,
        Decision.OUTCOME_NO_POLICY_APPLIED]
    . simp [ofRecord, haction, PolicyEngine.noPolicyMatched, Decision.isMatched, Decision.ACTION_ALLOW,
        Action.asStr]
    . simp [ofRecord, haction, PolicyEngine.noPolicyMatched, Decision.wouldRestrict,
        Decision.ACTION_CHALLENGE, Decision.ACTION_BLOCK, Decision.ACTION_RESTRICT, Action.asStr]
    . rw [henforced]
      simp [PolicyEngine.noPolicyMatched]
  | some t =>
    rw [hdeciding] at hevaluate
    rw [hevaluate] at hpolicies haction hmode hcodes henforced
    constructor
    . simp [ofRecord, haction, PolicyEngine.challengeBy, Decision.ACTION_CHALLENGE, Action.asStr]
    . simp [ofRecord, hmode, PolicyEngine.challengeBy]
    . exact hcodes
    . simp [ofRecord, hpolicies, PolicyEngine.challengeBy, Decision.OUTCOME_POLICY_MATCH]
    . simp [ofRecord, hpolicies, PolicyEngine.challengeBy, Decision.isRealDecision,
        Decision.OUTCOME_POLICY_MATCH]
    . simp [ofRecord, hpolicies, haction, PolicyEngine.challengeBy, Decision.isMatched,
        Decision.OUTCOME_POLICY_MATCH, Decision.ACTION_ALLOW, Action.asStr]
    . simp [ofRecord, haction, PolicyEngine.challengeBy, Decision.wouldRestrict,
        Decision.ACTION_CHALLENGE, Action.asStr]
    . rw [henforced]
      simp [PolicyEngine.challengeBy]

/--
When nothing goes wrong on the way, the application is told what the policies say of the signals of its
event: the action, the mode and the reason code of the rule that decided, or that none did.
-/
theorem evaluate_tells_deciding
    (hcodec : LengthDelimitedCodec LENGTH_FIELD_LENGTH MAX_FRAME_LENGTH formats.decode)
    {frame : Json} {record : DecisionRecord} (hclear : passage.Clear formats frame record)
    (henabled : runtime.enabled = true)
    (hframe : runtime.evaluate floatText event = some frame)
    (hresponse : (s.ingestOne formats.json (passage.frameOf (formats.text frame))).1.responses
      = s.responses ++ [.decision record])
    : ∃ ingested, (passage.frameOf (formats.text frame)).event? formats.json = some ingested
        ∧ let detectors : Detectors f db := s.detection
          let signals := (detectors.engine.evaluate ingested (detectors.inputs detectors.calls).wallMs).2
          Tells (passage.evaluate formats s floatText runtime event)
            (detectors.policies.deciding signals) := by
  have hevaluate := hclear.evaluate_eq hcodec henabled hframe hresponse
  rcases responses_ingestOne s formats.json (passage.frameOf (formats.text frame)) with ⟨new, hnew, hcases⟩
  rw [hnew, List.append_cancel_left_eq] at hresponse
  rcases hcases with hnil | ⟨b, hstatus⟩ | ⟨record', hrecord, ingested, lifecycleId, hevent, _, hdecided⟩
  . simp [hresponse] at hnil
  . simp [hresponse] at hstatus
  . have hsame : record = record' := decision_inj (hresponse.symm.trans hrecord)
    refine ⟨ingested, hevent, ?_⟩
    dsimp only
    rw [hevaluate, hsame, hdecided]
    apply tells_ofRecord <;> rfl

section Instances

def createdEntries : List (String × PhpValue) := [
  ("schema_version", .string "1.0"), ("event_id", .string "e1"),
  ("event_type", .string "payment.create"), ("tenant_id", .string "tnt_test"),
  ("timestamp", .string created.timestamp), ("received_at", .string created.receivedAt),
  ("clock", .array (assoc
    [("source", .string "shim"), ("skew_estimate_ms", .null), ("monotonic_seq", .int 1)])),
  ("resource", .array (assoc [("id", .string "pay_1"), ("type", .string "payment")])),
  ("provenance", .array (assoc
    [("origin", .string "UNKNOWN"), ("trigger", .string "API_REQUEST"), ("source", .string "test"),
      ("producer", .null), ("authority", .null)])),
  ("truth", .array (assoc [("stage", .string "OBSERVED"), ("asserted_by", .string "test")])),
  ("trust", .array (assoc [("level", .string "UNKNOWN"), ("confidence", .float 0)])),
  ("causality", .array (assoc [("customer_correlation_ids", .object [])])),
  ("coverage", .array (assoc [("complete", .bool true)]))]

theorem createdEntries_clean : entriesDropSecret (assoc createdEntries) = false := by
  have hplain : ∀ name ∈ ownNames, isSecret name = false := fun name => isSecret_of_mem_ownNames
  simp only [ownNames, List.forall_mem_cons] at hplain
  simp [entriesDropSecret_assoc, createdEntries, hplain, PhpValue.dropsSecret]

def shimRuntime : Runtime := ⟨true, ⟨"tnt_test", "php-shim@0.1.0"⟩, []⟩

def flagged : Json → Json
  | .object members => .object (members ++ [("__evaluate__", .bool true)])
  | value => value

theorem evaluate_created
    : shimRuntime.evaluate toString (assoc createdEntries) = some (flagged (paymentValue created)) := by
  have hredact : shimRuntime.evaluate toString (assoc createdEntries)
      = EventFactory.encodeFrame ((assoc createdEntries).set "__evaluate__" (.bool true)) := by
    unfold Runtime.evaluate
    rw [redact_of_nothing_dropped toString (walkStripSecrets_eq_self "" _ createdEntries_clean)]
    rfl
  have hset : (assoc createdEntries).set "__evaluate__" (.bool true)
      = assoc (createdEntries ++ [("__evaluate__", .bool true)]) := by
    rw [set_assoc]
    simp [createdEntries, Entries.set]
  have hjson : (PhpValue.array (assoc (createdEntries ++ [("__evaluate__", .bool true)]))).json
      = flagged (paymentValue created) := by
    unfold createdEntries
    rw [List.cons_append, json_assoc]
    rfl
  have hdepth : jsonDepth (flagged (paymentValue created)) ≤ JSON_MAX_DEPTH := by
    decide +kernel
  rw [hredact, hset, EventFactory.encodeFrame, jsonEncode, hjson, if_pos hdepth]

-- Short texts stand in for those of the two documents.
def flaggedText : List UInt8 := [101, 118, 97, 108]

def enforcedText : List UInt8 := [100, 101, 99]

def twoPlaces : ℚ → String := fun _ => "0.90"

-- Every event is one too many, and that is enforced.
def strictDetectors : Detectors Floats.rational SqliteDecisionStore.plainDb where
  engine := .new { defaultSignals with velocity := { threshold := 0 } }
  policies := { highVelocity := { mode := .enforce } }
  store := .open
  inputs _ := ⟨1000, fun _ => "01J8F0Z0F0Z0F0Z0F0Z0F0Z0F0", "01J8F0Z0F0Z0F0Z0F0Z0F0Z0F1", fun _ => true, true⟩
  calls := 0

def strictServer
    : IngestServer Crates.toy (.ofEngines Floats.rational SqliteDecisionStore.plainDb twoPlaces) where
  log := Storage.SegmentLog.open smallLog ∅
  audit := toyWriter.withMaxRecordsPerSegment 2
  drops := ⟨0, 0, 0⟩
  lifecycles := DynStore.empty .sqlite
  detection := strictDetectors
  responses := []

def ingested : Event := { created with receivedAt := "2026-09-14T10:00:00.000000Z" }

def enforcedRecord : DecisionRecord :=
  (strictDetectors.evaluate twoPlaces ingested
    (IngestServer.lifecycleId (LifecycleEngine.apply (DynStore.empty .sqlite) ingested 1000).2) 1000 0
    .l0Normal).2

def shortFormats : Formats where
  text _ := flaggedText
  json := { SerdeJson.ofPayments [created] with
    fromSlice := fun bytes => if bytes = flaggedText then some (flagged (paymentValue created)) else none
    toVec := fun _ => flaggedText }
  decode := lengthDelimited LENGTH_FIELD_LENGTH MAX_FRAME_LENGTH
  toVec _ := enforcedText
  jsonDecode _ := .array (decisionArray enforcedRecord (.int 0))

-- What is written and read in several parts arrives.
def inParts : Passage Crates.toy where
  connected := true
  accepts := [3, 9]
  reads := [3, 2]
  io _ := paymentFrame created 1000
  arrives := 7
  chunks := [1, 1, 1, 1, 1, 1, 1]
  random := "0011223344ff"
  latencyUs := 900

theorem event?_inParts : (inParts.frameOf flaggedText).event? shortFormats.json = some ingested := by
  have hread : shortFormats.json.fromValue (flagged (paymentValue created)) = some created := by
    simp [shortFormats, SerdeJson.ofPayments, stringMember, paymentValue, flagged, Json.get, List.lookup_cons]
  have hslice : shortFormats.json.fromSlice flaggedText = some (flagged (paymentValue created)) := by
    simp [shortFormats]
  simp only [Frame.event?, Passage.frameOf, hslice, Option.bind_some, IngestServer.parseEvent, hread,
    created_valid]
  rfl

theorem responses_inParts
    : (strictServer.ingestOne shortFormats.json (inParts.frameOf flaggedText)).1.responses
        = strictServer.responses ++ [.decision enforcedRecord] := by
  have hslice : shortFormats.json.fromSlice flaggedText = some (flagged (paymentValue created)) := by
    simp [shortFormats]
  have hstatus : (inParts.frameOf flaggedText).statusQuery shortFormats.json = false := by
    rw [Frame.statusQuery, Passage.frameOf, hslice]
    rfl
  have hwants : (inParts.frameOf flaggedText).wantsResponse shortFormats.json = true := by
    rw [Frame.wantsResponse, Passage.frameOf, hslice]
    rfl
  have htoVec : ∀ event, shortFormats.json.toVec event = flaggedText := fun _ => rfl
  have hlog : (strictServer.log.append flaggedText (inParts.frameOf flaggedText).logIo).2.isOk = true := by
    decide +kernel
  have haudited : (strictServer.audit.observe "event" flaggedText (inParts.frameOf flaggedText).nowUs
      (inParts.frameOf flaggedText).auditIo).2.isOk = true := by
    decide +kernel
  have hevent := event?_inParts
  have hingested := IngestServer.ingestOne_ingested strictServer shortFormats.json
    (inParts.frameOf flaggedText)
  generalize (strictServer.ingestOne shortFormats.json (inParts.frameOf flaggedText)).1 = server
    at hingested ⊢
  generalize (strictServer.ingestOne shortFormats.json (inParts.frameOf flaggedText)).2 = result at hingested
  cases hingested with
  | dropped hlevel => exact absurd (by decide) hlevel
  | status _ h => simp [hstatus] at h
  | refused _ h => simp [hevent] at h
  | unappended _ _ _ happend =>
    rw [htoVec] at happend
    rw [happend] at hlog
    contradiction
  | uncommitted _ _ _ _ haudit =>
    rw [htoVec] at haudit
    rw [haudit] at haudited
    contradiction
  | recorded _ _ h _ _ =>
    rw [hevent, Option.some_inj] at h
    subst h
    rw [responses_project, hwants]
    rfl

theorem clear_inParts : inParts.Clear shortFormats (flagged (paymentValue created)) enforcedRecord := by
  constructor
  . rfl
  . decide
  . decide
  . decide
  . decide
  . decide
  . exact ⟨.int 0, rfl⟩

theorem evaluate_tells_deciding_inParts
    : ∃ event, (inParts.frameOf flaggedText).event? shortFormats.json = some event
        ∧ let signals := (strictDetectors.engine.evaluate event 1000).2
          Tells (inParts.evaluate shortFormats strictServer toString shimRuntime (assoc createdEntries))
            (strictDetectors.policies.deciding signals) :=
  evaluate_tells_deciding (lengthDelimited_codec _ _) clear_inParts rfl evaluate_created responses_inParts

theorem readable_inParts
    {response : Response (.ofEngines Floats.rational SqliteDecisionStore.plainDb twoPlaces)}
    (h : response ∈ inParts.responses shortFormats strictServer flaggedText)
    : Readable shortFormats response := by
  have hresponses : inParts.responses shortFormats strictServer flaggedText = [.decision enforcedRecord] := by
    unfold Passage.responses
    rw [Passage.serve_encode (lengthDelimited_codec _ _) (by decide), if_pos (by decide), responses_inParts,
      List.drop_left]
  rw [hresponses, List.mem_singleton] at h
  subst h
  refine ⟨?_, .int 0, rfl⟩
  exact (by decide : enforcedText.length < 2 ^ 32)

theorem evaluate_permits_or_decided_inParts
    : Permits (inParts.evaluate shortFormats strictServer toString shimRuntime (assoc createdEntries))
        ∨ ∃ (frame : Json) (record : DecisionRecord),
            shimRuntime.evaluate toString (assoc createdEntries) = some frame
            ∧ inParts.responses shortFormats strictServer (shortFormats.text frame) = [.decision record]
            ∧ Decided shortFormats.json twoPlaces strictDetectors
                (inParts.frameOf (shortFormats.text frame)) record
            ∧ inParts.evaluate shortFormats strictServer toString shimRuntime (assoc createdEntries)
                = ofRecord record inParts.latencyUs :=
  evaluate_permits_or_decided (lengthDelimited_codec _ _) inParts strictServer toString shimRuntime _
    fun _ _ _ h => readable_inParts h

end Instances
end Athar.Wire
