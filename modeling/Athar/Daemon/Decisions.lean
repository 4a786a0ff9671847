import Athar.Daemon.Evidence
import Athar.Detection.Recount
import Athar.Detection.Store
import Athar.Ingest.Impl.Detection

/-!
This module contains the decisions that a daemon makes while its tasks take turns and its policies are
reloaded. The detections come in an order of their own, which need not be that of the audit chain. Each
decision can be made again later, by going through the events that were detected before it, and each of
these events has its own piece of evidence and its own record in the chain.
-/

namespace Athar

open Storage Audit SignalEngineConfig

-- A decision with what it was made from, whether it could be stored, and the ticket of its event.
structure DecisionEntry where
  event : Event
  lifecycleId : Option String
  policies : PolicyConfig
  io : DetectionIo
  ticket : Option Nat
  decision : DecisionRecord
  stored : Bool

def historyOf (decided : List DecisionEntry) : History :=
  decided.map fun e => (e.event, e.io.wallMs)

-- The decision that a recount of the events before comes to.
def DecisionEntry.recompute {f : Floats} (config : SignalEngineConfig f) (fixed2 : ℚ → String)
    (past : List DecisionEntry) (e : DecisionEntry) : DecisionRecord :=
  decisionOf fixed2 e.policies e.event e.lifecycleId
    (config.recount (historyOf past) (e.event, e.io.wallMs)) e.io

variable {c : Crates} {f : Floats} {db : DecisionDb} {fixed2 : ℚ → String}

namespace Detectors

def decided (fixed2 : ℚ → String) (s : Detectors f db) (event : Event) (lifecycleId : Option String)
    (frame : Frame c) (ticket : Option Nat) : DecisionEntry :=
  let inputs := s.inputs s.calls
  { event
    lifecycleId
    policies := s.policies
    io := ⟨inputs.wallMs, frame.decisionMs, frame.latencyUs, frame.levelAfter, inputs.signalUlid,
      inputs.decisionUlid⟩
    ticket
    decision := (s.evaluate fixed2 event lifecycleId frame.decisionMs frame.latencyUs frame.levelAfter).2
    stored := inputs.decisionExecutes }

end Detectors

namespace Daemon

-- What a step of the tasks projects.
def projects {d : Detection} (st : Daemon c d) : Action c → Option (Projection c)
  | .project client => st.projecting client
  | _ => none

def detectors (st : Daemon c (.ofEngines f db fixed2)) : Detectors f db :=
  st.server.detection

-- The decision that comes with it.
def decides (st : Daemon c (.ofEngines f db fixed2)) (action : Action c) : Option DecisionEntry :=
  (st.projects action).map fun next =>
    let outcome := (LifecycleEngine.apply st.server.lifecycles next.event next.frame.nowMs).2
    st.detectors.decided fixed2 next.event (IngestServer.lifecycleId outcome) next.frame next.ticket

end Daemon

variable (c f db fixed2) in
-- The decisions so far are kept beside the daemon.
structure DecisionRun where
  daemon : Daemon c (.ofEngines f db fixed2)
  decided : List DecisionEntry

namespace DecisionRun

variable (c) in
inductive Action where
  | task (action : Daemon.Action c)
  -- The watcher of the policies swaps them.
  | reload (policies : PolicyConfig)

def start (server : IngestServer c (.ofEngines f db fixed2)) : DecisionRun c f db fixed2 :=
  ⟨.start server, []⟩

def step (w : Writers) (st : DecisionRun c f db fixed2) : Action c → DecisionRun c f db fixed2
  | .task action => ⟨st.daemon.step w action, st.decided ++ (st.daemon.decides action).toList⟩
  | .reload policies =>
    let detection : Detectors f db := { st.daemon.detectors with policies }
    { st with daemon := { st.daemon with server := { st.daemon.server with detection } } }

end DecisionRun

namespace Daemon

variable {st : Daemon c (.ofEngines f db fixed2)}

-- What a step does to the detection and to the responses.
structure DetectionStep (st st' : Daemon c (.ofEngines f db fixed2)) (made : Option DecisionEntry)
    : Prop where
  detectors : st'.detectors = made.elim st.detectors fun e =>
    (st.detectors.evaluate fixed2 e.event e.lifecycleId e.io.nowMs e.io.latencyUs e.io.level).1
  answered : ∀ record, Response.decision record ∈ st'.server.responses →
    Response.decision record ∈ st.server.responses ∨ ∃ e ∈ made, e.decision = record

theorem DetectionStep.same {st' : Daemon c (.ofEngines f db fixed2)}
    (hdetection : st'.server.detection = st.server.detection)
    (hresponses : ∀ record, Response.decision record ∈ st'.server.responses →
      Response.decision record ∈ st.server.responses) : DetectionStep st st' none :=
  ⟨hdetection, fun record h => .inl (hresponses record h)⟩

theorem append_server (client : Client) (work : InFlight c) (io : AppendIo)
    : (st.append client work io).server
        = { st.server with log := (st.server.log.append work.payload io).1 } := by
  unfold append
  split
  . next heq => rw [heq]
  . next heq => rw [heq]; rfl

theorem appendAnyway_server (client : Client) (work : InFlight c) (io : AppendIo)
    : (st.appendAnyway client work io).server
        = { st.server with log := (st.server.log.append work.payload io).1 } := by
  unfold appendAnyway
  split
  . next heq => rw [heq]; rfl
  . next heq => rw [heq]; rfl

-- What is received before the evidence log decides nothing.
theorem receive_detects (s : IngestServer c (.ofEngines f db fixed2)) (json : SerdeJson) (frame : Frame c)
    : (s.receive json frame).1.detection = s.detection
        ∧ ∀ record, Response.decision record ∈ (s.receive json frame).1.responses →
          Response.decision record ∈ s.responses := by
  unfold IngestServer.receive
  split
  . exact ⟨rfl, fun _ h => h⟩
  . split
    . exact ⟨rfl, fun _ h => h⟩
    . dsimp only
      split
      . refine ⟨rfl, ?_⟩
        intro record h
        simpa using h
      . split
        . exact ⟨rfl, fun _ h => h⟩
        . exact ⟨rfl, fun _ h => h⟩

theorem project_detects {client : Client} {next : Projection c} (hnext : st.projecting client = some next)
    : DetectionStep st (st.project client next) (st.decides (.project client)) := by
  unfold decides projects
  dsimp only
  rw [hnext, Option.map_some]
  refine ⟨rfl, ?_⟩
  intro record h
  unfold project IngestServer.project at h
  dsimp only at h
  rw [List.mem_append] at h
  apply h.imp_right
  intro hnew
  refine ⟨_, rfl, ?_⟩
  cases hwants : next.wantsResponse with
  | false => simp [hwants] at hnew
  | true =>
    rw [if_pos hwants, List.mem_singleton, Response.decision.injEq] at hnew
    exact hnew.symm

theorem step_detects (w : Writers) (st : Daemon c (.ofEngines f db fixed2)) (action : Action c)
    : DetectionStep st (st.step w action) (st.decides action) := by
  cases action with
  | ingest connection frame =>
    simp only [step]
    split
    . exact .same rfl fun _ h => h
    . have hreceive := receive_detects st.server w.json frame
      unfold ingest
      split
      . next heq =>
        rw [heq] at hreceive
        exact .same hreceive.1 hreceive.2
      . next heq =>
        rw [heq] at hreceive
        apply DetectionStep.same
        . rw [append_server]
          exact hreceive.1
        . rw [append_server]
          exact hreceive.2
  | collect record io =>
    simp only [step]
    split
    . exact .same rfl fun _ h => h
    . unfold collect
      apply DetectionStep.same
      . rw [append_server]
      . rw [append_server]
        exact fun _ h => h
  | emit atShutdown io =>
    simp only [step]
    split
    . exact .same rfl fun _ h => h
    . unfold emit
      dsimp only
      split
      . exact .same rfl fun _ h => h
      . apply DetectionStep.same
        . rw [appendAnyway_server]
        . rw [appendAnyway_server]
          exact fun _ h => h
  | commit client =>
    simp only [step]
    split
    . exact .same rfl fun _ h => h
    . exact .same rfl fun _ h => h
  | project client =>
    simp only [step]
    split
    . next next hnext => exact project_detects hnext
    . next hnone =>
      have hdecides : st.decides (.project client) = none := by
        unfold decides projects
        dsimp only
        rw [hnone, Option.map_none]
      rw [hdecides]
      exact .same rfl fun _ h => h
  | abort client => exact .same rfl fun _ h => h
  | flush outcome => exact .same rfl fun _ h => h

end Daemon

-- What a connection holds is an event, with its canonical bytes.
def InFlight.Writes (json : SerdeJson) (work : InFlight c) : Prop :=
  ∀ event wantsResponse frame, work.projects = some (event, wantsResponse, frame) →
    work.kind = "event" ∧ work.payload = json.toVec event

namespace Daemon

section TaskStep

variable {d : Detection}

-- What a step does beside the server, and what it projects.
inductive TaskStep (json : SerdeJson) (st : Daemon c d) : Daemon c d → Option (Projection c) → Prop
  | kept (server : IngestServer c d) : TaskStep json st { st with server } none
  | took (server : IngestServer c d) (client : Client) {work : InFlight c} (hwrites : work.Writes json)
    : TaskStep json st (take { st with server } client work) none
  | went (server : IngestServer c d) (client : Client) {work : InFlight c} (hwrites : work.Writes json)
    : TaskStep json st (hold { st with server } client work none) none
  | committed {client : Client} {work : InFlight c} (hwork : st.inflight client = some work)
    : TaskStep json st (st.commit client work) none
  | projected {client : Client} {next : Projection c} (hnext : st.projecting client = some next)
    : TaskStep json st (st.project client next) (some next)
  | dropped (client : Client)
    : TaskStep json st { st with inflight := Function.update st.inflight client none } none

variable {json : SerdeJson} {st : Daemon c d}

theorem taskStep_append (server : IngestServer c d) {client : Client} {work : InFlight c}
    (hwrites : work.Writes json) (io : AppendIo)
    : TaskStep json st (append { st with server } client work io) none := by
  unfold append
  split
  . exact .kept _
  . exact .took _ client hwrites

theorem taskStep_appendAnyway (server : IngestServer c d) {client : Client} {work : InFlight c}
    (hwrites : work.Writes json) (io : AppendIo)
    : TaskStep json st (appendAnyway { st with server } client work io) none := by
  unfold appendAnyway
  split
  . exact .went _ client hwrites
  . exact .took _ client hwrites

theorem taskStep (w : Writers) (st : Daemon c d) (action : Action c)
    : TaskStep w.json st (st.step w action) (st.projects action) := by
  cases action with
  | ingest connection frame =>
    simp only [step]
    split
    . exact .kept _
    . unfold ingest
      split
      . exact .kept _
      . apply taskStep_append
        rintro event wantsResponse frame ⟨⟩
        exact ⟨rfl, rfl⟩
  | collect record io =>
    simp only [step]
    split
    . exact .kept _
    . apply taskStep_append st.server
      rintro event wantsResponse frame ⟨⟩
  | emit atShutdown io =>
    simp only [step]
    split
    . exact .kept _
    . unfold emit
      dsimp only
      split
      . exact .kept _
      . apply taskStep_appendAnyway
        rintro event wantsResponse frame ⟨⟩
  | commit client =>
    simp only [step]
    split
    . next work hwork => exact .committed hwork
    . exact .kept _
  | project client =>
    simp only [step, projects]
    split
    . next next hnext =>
      rw [hnext]
      exact .projected hnext
    . next hnone =>
      rw [hnone]
      exact .kept _
  | abort client => exact .dropped client
  | flush outcome => exact .kept _

variable {st' : Daemon c d} {made : Option (Projection c)}

theorem TaskStep.writes (h : TaskStep json st st' made)
    (hwrites : ∀ client work, st.inflight client = some work → work.Writes json) {client : Client}
    {work : InFlight c} (hwork : st'.inflight client = some work) : work.Writes json := by
  cases h with
  | kept server => exact hwrites client work hwork
  | took server client hnew =>
    rcases held_update hwork with ⟨_, heq⟩ | hold
    . cases heq
      exact hnew
    . exact hwrites _ work hold
  | went server client hnew =>
    rcases held_update hwork with ⟨_, heq⟩ | hold
    . cases heq
      exact hnew
    . exact hwrites _ work hold
  | committed _ =>
    rcases held_update hwork with ⟨_, heq⟩ | hold
    . contradiction
    . exact hwrites _ work hold
  | projected _ => exact hwrites client work hwork
  | dropped client =>
    rcases held_update hwork with ⟨_, heq⟩ | hold
    . contradiction
    . exact hwrites _ work hold

theorem TaskStep.appended (h : TaskStep json st st' made) : st.appended <+: st'.appended := by
  cases h with
  | took server client hnew => exact List.prefix_append _ _
  | _ => exact List.prefix_refl _

theorem TaskStep.ledger (h : TaskStep json st st' made) : st.ledger <+: st'.ledger := by
  cases h with
  | committed _ => exact List.prefix_append _ _
  | _ => exact List.prefix_refl _

-- The event is in the evidence log under its ticket, and the audit chain took it with this ticket.
structure Recorded (json : SerdeJson) (st : Daemon c d) (event : Event) (ticket : Option Nat) : Prop where
  appended : ∃ n, ticket = some n ∧ st.appended[n]? = some (json.toVec event)
  committed : ∃ r ∈ st.ledger, r.ticket = ticket ∧ r.record.kind = "event"
    ∧ r.record.payloadCommitment = payloadCommitment c (json.toVec event)

theorem Recorded.step {event : Event} {ticket : Option Nat} (h : st.Recorded json event ticket)
    (hstep : TaskStep json st st' made) : st'.Recorded json event ticket := by
  constructor
  . rcases h.appended with ⟨n, hticket, hget⟩
    rcases hstep.appended with ⟨more, happended⟩
    rcases List.getElem?_eq_some_iff.mp hget with ⟨hlt, _⟩
    refine ⟨n, hticket, ?_⟩
    rw [← happended, List.getElem?_append_left hlt]
    exact hget
  . rcases h.committed with ⟨r, hr, hrecord⟩
    exact ⟨r, hstep.ledger.subset hr, hrecord⟩

-- What a commitment leaves to be projected.
theorem projecting_commit {client client' : Client} {work : InFlight c} {next : Projection c}
    (h : (st.commit client work).projecting client' = some next)
    : st.projecting client' = some next ∨ (work.projects = some (next.event, next.wantsResponse, next.frame)
        ∧ next.ticket = work.ticket) := by
  unfold commit at h
  generalize st.server.audit.observe work.kind work.payload work.nowUs work.auditIo = observed at h
  rcases observed with ⟨audit, _ | _⟩
  . exact Or.inl h
  . cases hprojects : work.projects with
    | none =>
      simp only [hprojects] at h
      exact Or.inl h
    | some projects =>
      simp only [hprojects] at h
      rcases held_update h with ⟨_, hnew⟩ | hold
      . cases hnew
        exact Or.inr ⟨rfl, rfl⟩
      . exact Or.inl hold

theorem projects_eq_some {action : Action c} {next : Projection c} (h : st.projects action = some next)
    : ∃ client, action = .project client ∧ st.projecting client = some next := by
  unfold projects at h
  split at h
  . next client => exact ⟨client, rfl, h⟩
  . contradiction

variable {firstId : Nat}

theorem recorded_commit (hinv : st.Inv firstId) {client : Client} {work : InFlight c}
    (hwork : st.inflight client = some work) (hwrites : work.Writes json) {next : Projection c}
    (hprojects : work.projects = some (next.event, next.wantsResponse, next.frame))
    : (st.commit client work).Recorded json next.event work.ticket := by
  rcases hwrites _ _ _ hprojects with ⟨hkind, hpayload⟩
  have hholds := hinv.holds client work hwork
  rcases Option.ne_none_iff_exists'.mp (hholds.ticketed (.inl hkind)) with ⟨n, hticket⟩
  constructor
  . refine ⟨n, hticket, ?_⟩
    rw [← hpayload]
    exact hholds.payload_eq n hticket
  . refine ⟨⟨client, st.server.audit.nextRecord work.kind work.payload work.nowUs, work.ticket⟩,
      ?_, rfl, hkind, ?_⟩
    . exact List.mem_append_right _ (List.mem_singleton_self _)
    . rw [← hpayload]
      rfl

theorem TaskStep.recorded (h : TaskStep json st st' made) (hinv : st.Inv firstId)
    (hwrites : ∀ client work, st.inflight client = some work → work.Writes json)
    (hprojecting : ∀ client next, st.projecting client = some next →
      st.Recorded json next.event next.ticket) {client : Client} {next : Projection c}
    (hnext : st'.projecting client = some next) : st'.Recorded json next.event next.ticket := by
  have hstep := h
  cases h with
  | @committed client' work hwork =>
    rcases projecting_commit hnext with hold | ⟨hprojects, hticket⟩
    . exact (hprojecting client next hold).step hstep
    . rw [hticket]
      exact recorded_commit hinv hwork (hwrites client' work hwork) hprojects
  | @projected client' next' hnext' =>
    rcases held_update hnext with ⟨_, hnone⟩ | hold
    . contradiction
    . exact (hprojecting client next hold).step hstep
  | _ => exact (hprojecting client next hnext).step hstep

-- The tickets of the connections that have their projection before them, and those of the past ones.
def projections (st : Daemon c d) (past : List Nat) : Tickets Client where
  issued := st.appended.length
  held := (Option.bind · (·.ticket)) ∘ st.projecting
  spent := past

-- The projections go through the tickets that the commitments have spent.
structure Rounds (st : Daemon c d) (past : List Nat) : Prop where
  inv : (st.projections past).Inv
  follows : (st.projections past).Follows st.tickets

theorem Rounds.commit (hinv : st.Inv firstId) {past : List Nat} (h : st.Rounds past) {client : Client}
    {work : InFlight c} (hwork : st.inflight client = some work) : (st.commit client work).Rounds past := by
  have hspend := tickets_commit hwork
  have hheld : st.tickets.held client = work.ticket := by
    simp [Daemon.tickets, hwork]
  have hprojections : (st.commit client work).projections past
        = (st.projections past).hand client (st.tickets.held client)
      ∨ (st.commit client work).projections past = st.projections past := by
    rw [hheld]
    unfold Daemon.commit
    dsimp only
    split
    . left
      simp only [projections, Tickets.hand, Function.comp_update]
      rfl
    . exact Or.inr rfl
  rcases hprojections with heq | heq
  . constructor
    . rw [heq]
      exact h.inv.hand hinv.tickets h.follows (Nat.le_refl _)
    . rw [heq, hspend]
      exact h.follows.hand
  . constructor
    . rw [heq]
      exact h.inv
    . rw [heq, hspend]
      exact h.follows.of_spent_subset (List.subset_append_left _ _)

theorem Rounds.project {past : List Nat} (h : st.Rounds past) {client : Client} {next : Projection c}
    (hnext : st.projecting client = some next)
    : (st.project client next).Rounds (past ++ next.ticket.toList) := by
  have hprojections : (st.project client next).projections (past ++ next.ticket.toList)
      = (st.projections past).spend client := by
    have hheld : ((Option.bind · (·.ticket)) ∘ st.projecting) client = next.ticket := by
      simp [hnext]
    simp only [projections, Daemon.project, Tickets.spend, Tickets.give, hheld, Function.comp_update]
    rfl
  constructor
  . rw [hprojections]
    exact h.inv.spend
  . rw [hprojections]
    exact h.follows.spend

theorem TaskStep.rounds (hstep : TaskStep json st st' made) (hinv : st.Inv firstId) {past : List Nat}
    (h : st.Rounds past) : st'.Rounds (past ++ (made.bind (·.ticket)).toList) := by
  have hpast : past ++ (Option.bind (none : Option (Projection c)) (·.ticket)).toList = past := by
    simp
  cases hstep with
  | took server client hnew =>
    rw [hpast]
    refine ⟨?_, h.follows.held_mem, h.follows.spent_mem⟩
    apply h.inv.of_issued_le
    simp [projections, take, hold]
  | committed hwork =>
    rw [hpast]
    exact h.commit hinv hwork
  | projected hnext => exact h.project hnext
  | _ =>
    rw [hpast]
    exact ⟨h.inv, h.follows.held_mem, h.follows.spent_mem⟩

end TaskStep

end Daemon

namespace Detectors

open SqliteDecisionStore

theorem decisions_writeSignals (store : SqliteDecisionStore db) (executes : Nat → Bool)
    (signals : List SignalRecord) : (writeSignals store executes signals).decisions = store.decisions := by
  unfold writeSignals
  generalize signals.zipIdx = numbered
  induction numbered generalizing store with
  | nil => rfl
  | cons r numbered ih =>
    rw [List.foldl_cons, ih]
    unfold writeSignal
    split <;> rfl

-- The store after some decisions.
def writeDecisions (store : SqliteDecisionStore db) (decided : List DecisionEntry)
    : SqliteDecisionStore db :=
  decided.foldl (fun store e => (store.writeDecision e.decision e.stored).1) store

theorem writeDecision_congr {store store' : SqliteDecisionStore db}
    (h : store.decisions = store'.decisions) (r : DecisionRecord) (executes : Bool)
    : (store.writeDecision r executes).1.decisions = (store'.writeDecision r executes).1.decisions := by
  unfold SqliteDecisionStore.writeDecision
  split
  . exact h
  . split
    . rw [h]
    . exact h

-- The detection after some decisions that a started daemon made.
structure Follows (config : SignalEngineConfig f) (initial : Detectors f db)
    (decided : List DecisionEntry) (s : Detectors f db) : Prop where
  remembers : SignalEngine.Remembers config (historyOf decided) s.engine
  inputs : s.inputs = initial.inputs
  calls : s.calls = decided.length
  times : (historyOf decided).map (·.2)
    = (List.range decided.length).map fun n => (initial.inputs n).wallMs
  stored : s.store.decisions = (writeDecisions initial.store decided).decisions

variable {config : SignalEngineConfig f} {initial s : Detectors f db} {past : List DecisionEntry}

theorem Follows.step (h : Follows config initial past s)
    (hclock : Monotone fun n => (initial.inputs n).wallMs) (event : Event)
    (lifecycleId : Option String) (frame : Frame c) (ticket : Option Nat)
    (hfits : config.Fits (historyOf (past ++ [s.decided fixed2 event lifecycleId frame ticket])))
    (hfew : past.length + 1 < 2 ^ 32)
    : Follows config initial (past ++ [s.decided fixed2 event lifecycleId frame ticket])
          (s.evaluate fixed2 event lifecycleId frame.decisionMs frame.latencyUs frame.levelAfter).1
        ∧ (s.decided fixed2 event lifecycleId frame ticket).decision
          = (s.decided fixed2 event lifecycleId frame ticket).recompute config fixed2 past := by
  have hhistory : historyOf (past ++ [s.decided fixed2 event lifecycleId frame ticket])
      = historyOf past ++ [(event, (s.inputs s.calls).wallMs)] := by
    unfold historyOf
    rw [List.map_append]
    rfl
  have htimes : (historyOf past ++ [(event, (s.inputs s.calls).wallMs)]).map (·.2)
      = (List.range (past.length + 1)).map fun n => (initial.inputs n).wallMs := by
    rw [List.map_append, h.times, List.range_succ, List.map_append, h.inputs, h.calls]
    rfl
  have hsorted : ((historyOf past ++ [(event, (s.inputs s.calls).wallMs)]).map (·.2)).Pairwise (· ≤ ·) := by
    rw [htimes, List.pairwise_map]
    exact List.pairwise_le_range.imp fun hle => hclock hle
  rw [hhistory] at hfits
  rcases h.remembers.step hfits with ⟨hremembers, hsignals⟩
  have hlength : (historyOf past).length = past.length := List.length_map _
  rw [report_eq_recount hsorted (by rw [hlength]; exact hfew)] at hsignals
  refine ⟨⟨?_, h.inputs, ?_, ?_, ?_⟩, ?_⟩
  . rw [hhistory]
    exact hremembers
  . rw [List.length_append, List.length_singleton, ← h.calls]
    rfl
  . rw [hhistory, htimes, List.length_append, List.length_singleton]
  . unfold writeDecisions
    rw [List.foldl_append]
    apply writeDecision_congr
    rw [decisions_writeSignals]
    exact h.stored
  . unfold DecisionEntry.recompute
    change _ = decisionOf fixed2 s.policies event lifecycleId
      (config.recount (historyOf past) (event, (s.inputs s.calls).wallMs)) _
    rw [← hsignals]
    rfl

end Detectors

namespace DecisionRun

variable {w : Writers} {config : SignalEngineConfig f} {initial : Detectors f db}

-- Every decision that is answered or stored can be made again from the events before it, which have their
-- own pieces of evidence and their own records in the chain.
structure Recomputable (json : SerdeJson) (config : SignalEngineConfig f) (initial : Detectors f db)
    (st : DecisionRun c f db fixed2) : Prop where
  recomputed : ∀ past e, past ++ [e] <+: st.decided → e.decision = e.recompute config fixed2 past
  answered : ∀ record, Response.decision record ∈ st.daemon.server.responses →
    ∃ e ∈ st.decided, e.decision = record
  stored : st.daemon.detectors.store.decisions
    = (Detectors.writeDecisions initial.store st.decided).decisions
  recorded : ∀ e ∈ st.decided, st.daemon.Recorded json e.event e.ticket
  own : (st.decided.map (·.ticket)).Nodup

structure Inv (json : SerdeJson) (config : SignalEngineConfig f) (initial : Detectors f db) (firstId : Nat)
    (st : DecisionRun c f db fixed2) : Prop where
  daemon : st.daemon.Inv firstId
  writes : ∀ client work, st.daemon.inflight client = some work → work.Writes json
  projecting : ∀ client next, st.daemon.projecting client = some next →
    st.daemon.Recorded json next.event next.ticket
  rounds : st.daemon.Rounds (st.decided.filterMap (·.ticket))
  follows : Detectors.Follows config initial st.decided st.daemon.detectors
  recomputed : ∀ past e, past ++ [e] <+: st.decided → e.decision = e.recompute config fixed2 past
  answered : ∀ record, Response.decision record ∈ st.daemon.server.responses →
    ∃ e ∈ st.decided, e.decision = record
  recorded : ∀ e ∈ st.decided, st.daemon.Recorded json e.event e.ticket

-- The events so far still fit the trackers, and can be counted.
def Fits (config : SignalEngineConfig f) (st : DecisionRun c f db fixed2) : Prop :=
  config.Fits (historyOf st.decided) ∧ st.decided.length < 2 ^ 32

variable {st : DecisionRun c f db fixed2} {firstId : Nat}

theorem Inv.task (hc : c.Lawful) (hclock : Monotone fun n => (initial.inputs n).wallMs)
    (h : Inv w.json config initial firstId st) (action : Daemon.Action c)
    (hfits : Fits config (st.step w (.task action)))
    : Inv w.json config initial firstId (st.step w (.task action)) := by
  have htask := Daemon.taskStep w st.daemon action
  have hdetects := Daemon.step_detects w st.daemon action
  have hdaemon := h.daemon.step hc w action
  have hwrites : ∀ client work, (st.daemon.step w action).inflight client = some work → work.Writes w.json :=
    fun client work => htask.writes h.writes
  have hprojecting : ∀ client next, (st.daemon.step w action).projecting client = some next →
      (st.daemon.step w action).Recorded w.json next.event next.ticket :=
    fun client next => htask.recorded h.daemon h.writes h.projecting
  have hrounds := htask.rounds h.daemon h.rounds
  have hrecorded : ∀ e ∈ st.decided, (st.daemon.step w action).Recorded w.json e.event e.ticket :=
    fun e he => (h.recorded e he).step htask
  unfold DecisionRun.step at hfits ⊢
  unfold Daemon.decides at hfits hdetects ⊢
  dsimp only at hfits ⊢
  cases hmade : st.daemon.projects action with
  | none =>
    rw [hmade, Option.map_none] at hdetects
    rw [hmade, Option.bind_none, Option.toList_none, List.append_nil] at hrounds
    rw [Option.map_none, Option.toList_none, List.append_nil]
    have hdetectors : (st.daemon.step w action).detectors = st.daemon.detectors := hdetects.detectors
    refine ⟨hdaemon, hwrites, hprojecting, hrounds, ?_, h.recomputed, ?_, hrecorded⟩
    . dsimp only
      rw [hdetectors]
      exact h.follows
    . intro record hrecord
      rcases hdetects.answered record hrecord with hold | ⟨_, hnew, _⟩
      . exact h.answered record hold
      . contradiction
  | some next =>
    rw [hmade, Option.map_some] at hdetects hfits
    rw [hmade, Option.bind_some] at hrounds
    rw [Option.map_some, Option.toList_some]
    rw [Option.toList_some] at hfits
    rcases Daemon.projects_eq_some hmade with ⟨client, rfl, hnext⟩
    have hfew := hfits.2
    rw [List.length_append, List.length_singleton] at hfew
    have hfollows := h.follows.step hclock next.event (IngestServer.lifecycleId
      (LifecycleEngine.apply st.daemon.server.lifecycles next.event next.frame.nowMs).2) next.frame
      next.ticket hfits.1 hfew
    refine ⟨hdaemon, hwrites, hprojecting, ?_, ?_, ?_, ?_, ?_⟩
    . have htoList : ∀ e : DecisionEntry, [e].filterMap (·.ticket) = e.ticket.toList := by
        intro e
        cases hticket : e.ticket <;> simp [hticket]
      dsimp only
      rw [List.filterMap_append, htoList]
      exact hrounds
    . dsimp only
      rw [hdetects.detectors, Option.elim_some]
      exact hfollows.1
    . intro past x hpast
      rcases List.prefix_concat_iff.mp hpast with heq | hpast
      . rcases List.append_inj' heq rfl with ⟨rfl, hx⟩
        rw [List.singleton_inj] at hx
        rw [hx]
        exact hfollows.2
      . exact h.recomputed past x hpast
    . intro record hrecord
      rcases hdetects.answered record hrecord with hold | ⟨made, hnew, hrecord⟩
      . rcases h.answered record hold with ⟨made, hmem, hrecord⟩
        exact ⟨made, List.mem_append_left _ hmem, hrecord⟩
      . cases hnew
        exact ⟨_, List.mem_append_right _ (List.mem_singleton_self _), hrecord⟩
    . intro x hx
      rcases List.mem_append.mp hx with hold | hnew
      . exact hrecorded x hold
      . rw [List.mem_singleton.mp hnew]
        exact (h.projecting client next hnext).step htask

theorem Inv.step (hc : c.Lawful) (hclock : Monotone fun n => (initial.inputs n).wallMs)
    (h : Inv w.json config initial firstId st) (action : Action c) (hfits : Fits config (st.step w action))
    : Inv w.json config initial firstId (st.step w action) := by
  cases action with
  | task action => exact h.task hc hclock action hfits
  | reload policies =>
    have hsame := h.follows
    constructor
    . exact h.daemon.congr rfl
    . exact h.writes
    . intro client next hnext
      have hrecorded := h.projecting client next hnext
      exact ⟨hrecorded.appended, hrecorded.committed⟩
    . exact ⟨h.rounds.inv, h.rounds.follows⟩
    . exact ⟨hsame.remembers, hsame.inputs, hsame.calls, hsame.times, hsame.stored⟩
    . exact h.recomputed
    . exact h.answered
    . intro e he
      exact ⟨(h.recorded e he).appended, (h.recorded e he).committed⟩

theorem Inv.recomputable (h : Inv w.json config initial firstId st)
    : Recomputable w.json config initial st := by
  refine ⟨h.recomputed, h.answered, h.follows.stored, h.recorded, ?_⟩
  have hsome : ∀ e ∈ st.decided, ∃ n, e.ticket = some n := by
    intro e he
    rcases (h.recorded e he).appended with ⟨n, hticket, _⟩
    exact ⟨n, hticket⟩
  exact Tickets.nodup_map hsome h.rounds.inv.nodup

theorem Inv.start {logConfig : Storage.Config} {evidence : Storage.Dir} {segments : SegmentStore c}
    {signer : SigningKey} {auditRecordsPerSegment : Nat} {lifecycles : DynStore}
    {server : IngestServer c (.ofEngines f db fixed2)}
    (hnew : IngestServer.new logConfig evidence segments signer auditRecordsPerSegment lifecycles initial
      = .ok server) (hengine : initial.engine = .new config) (hcalls : initial.calls = 0)
    : Inv w.json config initial server.audit.nextSegmentId (start server) := by
  unfold IngestServer.new at hnew
  cases hopen : AuditChainWriter.open segments "tnt_default" signer with
  | error e => simp [hopen, bind, Except.bind] at hnew
  | ok audit =>
    simp only [hopen, bind, Except.bind, pure, Except.pure] at hnew
    cases hnew
    rcases AuditChainWriter.Fresh.open hopen with ⟨hfresh, hnone⟩
    have hremembers : SignalEngine.Remembers config (historyOf []) initial.engine := by
      rw [hengine]
      exact .new config
    refine ⟨.start ⟨hfresh.lt_next, hfresh.first_le⟩ hnone, ?_, ?_, ⟨Tickets.Inv.start, ?_⟩,
      ⟨hremembers, rfl, hcalls, rfl, rfl⟩, ?_, ?_, ?_⟩
    . rintro client work ⟨⟩
    . rintro client next ⟨⟩
    . constructor
      . rintro client n ⟨⟩
      . rintro n ⟨⟩
    . intro past e hpast
      simp [DecisionRun.start] at hpast
    . rintro record ⟨⟩
    . rintro e ⟨⟩

theorem prefix_decided (w : Writers) (st : DecisionRun c f db fixed2) (actions : List (Action c))
    : st.decided <+: (Run.exec (step w) st actions).decided := by
  induction actions generalizing st with
  | nil => exact List.prefix_refl _
  | cons action actions ih =>
    refine List.IsPrefix.trans ?_ (ih (st.step w action))
    cases action with
    | task action => exact List.prefix_append _ _
    | reload policies => exact List.prefix_refl _

theorem Fits.of_prefix {st' : DecisionRun c f db fixed2} (h : Fits config st')
    (hpre : st.decided <+: st'.decided) : Fits config st := by
  refine ⟨h.1.sublist ?_, hpre.length_le.trans_lt h.2⟩
  exact hpre.sublist.map _

/--
However the tasks of a started daemon take turns, whatever fails, and whichever policies are loaded in
between: as long as the clock is not set back and the subjects fit the trackers, every decision is the one
that a recount of the events detected before it makes, and each of these events has a piece of evidence and
a record of the audit chain of its own.
-/
theorem recomputable_of_fits (hc : c.Lawful) {logConfig : Storage.Config} {evidence : Storage.Dir}
    {segments : SegmentStore c} {signer : SigningKey} {auditRecordsPerSegment : Nat}
    {lifecycles : DynStore} {server : IngestServer c (.ofEngines f db fixed2)}
    (hnew : IngestServer.new logConfig evidence segments signer auditRecordsPerSegment lifecycles initial
      = .ok server) (hengine : initial.engine = .new config) (hcalls : initial.calls = 0)
    (hclock : Monotone fun n => (initial.inputs n).wallMs) (w : Writers) (actions : List (Action c))
    (hfits : Fits config (Run.exec (step w) (start server) actions))
    : Run.Always (step w) (Recomputable w.json config initial) (start server) actions := by
  have hguarded : Run.Guarded (step w) (fun st action => Fits config (st.step w action)) (start server)
      actions := by
    rintro pre action ⟨post, rfl⟩
    apply hfits.of_prefix
    have hgrows := prefix_decided w (Run.exec (step w) (start server) (pre ++ [action])) post
    rwa [← Run.exec_append, Run.exec_append _ pre, Run.exec_cons, Run.exec_nil] at hgrows
  have hinv : Run.Always (step w) (Inv w.json config initial server.audit.nextSegmentId) (start server)
      actions := by
    apply Run.always_of_guarded (Inv.start hnew hengine hcalls) _ hguarded
    intro st action h hfits
    exact h.step hc hclock action hfits
  exact hinv.mono fun st h => h.recomputable

end DecisionRun

section Instances

theorem DecisionRun.length_decided_le (w : Writers) (st : DecisionRun c f db fixed2)
    (actions : List (DecisionRun.Action c))
    : (Run.exec (step w) st actions).decided.length ≤ st.decided.length + actions.length := by
  induction actions generalizing st with
  | nil => exact le_rfl
  | cons action actions ih =>
    have hstep : (st.step w action).decided.length ≤ st.decided.length + 1 := by
      cases action with
      | task action =>
        simp only [step, List.length_append]
        cases st.daemon.decides action <;> simp
      | reload policies => exact Nat.le_succ _
    rw [Run.exec_cons, List.length_cons]
    exact (ih _).trans (by omega)

-- Few decisions are about few subjects.
theorem DecisionRun.fits_of_length {config : SignalEngineConfig f} {st : DecisionRun c f db fixed2}
    (hvelocity : st.decided.length < config.velocity.maxSubjects)
    (htargets : st.decided.length < config.targets.maxSubjects)
    (hfailures : st.decided.length < config.credentialStuffing.maxSubjects)
    (hfew : st.decided.length < 2 ^ 32) : Fits config st := by
  have hcard : ((historyOf st.decided).map (·.1.subject)).toFinset.card ≤ st.decided.length := by
    apply (List.toFinset_card_le _).trans
    simp [historyOf]
  exact ⟨⟨hcard.trans_lt hvelocity, hcard.trans_lt htargets, hcard.trans_lt hfailures⟩, hfew⟩

def plainDetectors : Detectors Floats.rational SqliteDecisionStore.plainDb where
  engine := .new defaultSignals
  policies := {}
  store := .open
  inputs n := ⟨1000 * n, fun _ => "01", "02", fun _ => true, true⟩
  calls := 0

def plainServer
    : IngestServer Crates.toy (.ofEngines Floats.rational SqliteDecisionStore.plainDb fun _ => "0.90") where
  log := SegmentLog.open smallLog ∅
  audit := toyWriter.withMaxRecordsPerSegment 1
  drops := ⟨0, 0, 0⟩
  lifecycles := DynStore.empty .inMemory
  detection := plainDetectors
  responses := []

-- Two connections are committed in the other order and detected in theirs, and the policies are swapped
-- between them.
def reloaded : List (DecisionRun.Action Crates.toy) :=
  [.task (.ingest 1 (paymentFrame created 0)), .task (.ingest 2 (paymentFrame created 1)),
    .task (.commit (.connection 2)), .task (.commit (.connection 1)), .task (.project (.connection 1)),
    .reload { highVelocity := { mode := .enforce } }, .task (.project (.connection 2))]

theorem DecisionRun.recomputable_of_fits_reloaded
    : Run.Always (step toyWriters) (Recomputable toyWriters.json defaultSignals plainDetectors)
        (start plainServer) reloaded := by
  have hlength := length_decided_le toyWriters (start plainServer) reloaded
  have hfew : (start plainServer).decided.length + reloaded.length = 7 := rfl
  rw [hfew] at hlength
  have hnew : IngestServer.new smallLog ∅ ⟨∅⟩ toyKey 1 (DynStore.empty .inMemory) plainDetectors
      = .ok plainServer := rfl
  have hclock : Monotone fun n => (plainDetectors.inputs n).wallMs := by
    intro n m hle
    exact Nat.mul_le_mul_left 1000 hle
  apply DecisionRun.recomputable_of_fits Crates.toy_lawful hnew rfl rfl hclock
  apply fits_of_length
  all_goals exact hlength.trans_lt (by decide)

end Instances

end Athar
