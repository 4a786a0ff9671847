import Athar.Audit.Kept
import Athar.Daemon.Lemmas
import Athar.Ingest.Instance
import Athar.Ingest.Lemmas
import Athar.Lib.Tickets
import Athar.Spool.Instance

/-!
This module contains the pairing of commitments with evidence while the tasks of the daemon take turns.
Every record of an event, and every record of the collector, was committed with a ticket that stands for
its payload in the evidence log, and no ticket is used for two records.
-/

namespace Athar

open Storage Audit Spool

variable {c : Crates} {d : Detection}

-- The records that must not be there without evidence.
def Committed.Owed (e : Committed) : Prop :=
  e.record.kind = "event" ∨ e.client = .collector

variable (c) in
def Committed.Backed (appended : List (List UInt8)) (e : Committed) : Prop :=
  ∃ ticket payload, e.ticket = some ticket ∧ appended[ticket]? = some payload
    ∧ e.record.payloadCommitment = payloadCommitment c payload

namespace Daemon

def tickets (st : Daemon c d) : Tickets Client where
  issued := st.appended.length
  held := (Option.bind · (·.ticket)) ∘ st.inflight
  spent := st.ledger.filterMap (·.ticket)

-- All records of the chain are accounted for in the ledger. Those that need it have their evidence, and
-- no piece of evidence serves two records.
structure Evidenced (firstId : Nat) (st : Daemon c d) : Prop where
  chain : (st.server.audit.recordsSince firstId).Sublist (st.ledger.map (·.record))
  backed : ∀ e ∈ st.ledger, e.Owed → e.Backed c st.appended
  once : (st.ledger.filterMap (·.ticket)).Nodup

-- A record that a step adds had its evidence before the step.
def EvidencedBefore (w : Writers) (st : Daemon c d) (action : Action c) : Prop :=
  ∀ e, (st.step w action).ledger = st.ledger ++ [e] → e.Owed → e.Backed c st.appended

-- What a client has in flight is in the evidence log, if it needs to be.
structure Holds (appended : List (List UInt8)) (client : Client) (work : InFlight c) : Prop where
  payload_eq : ∀ ticket, work.ticket = some ticket → appended[ticket]? = some work.payload
  ticketed : work.kind = "event" ∨ client = .collector → work.ticket ≠ none

structure Inv (firstId : Nat) (st : Daemon c d) : Prop where
  fresh : st.server.audit.Fresh firstId
  chain : (st.server.audit.recordsSince firstId).Sublist (st.ledger.map (·.record))
  tickets : st.tickets.Inv
  holds : ∀ client work, st.inflight client = some work → Holds st.appended client work
  backed : ∀ e ∈ st.ledger, e.Owed → e.Backed c st.appended

variable {firstId : Nat} {st : Daemon c d}

theorem Inv.evidenced (h : st.Inv firstId) : st.Evidenced firstId :=
  ⟨h.chain, h.backed, h.tickets.nodup⟩

theorem Inv.start {server : IngestServer c d} (hfresh : server.audit.Fresh firstId)
    (hnone : server.audit.recordsSince firstId = []) : (start server).Inv firstId := by
  constructor
  . exact hfresh
  . rw [Daemon.start, hnone]
    exact List.nil_sublist _
  . exact Tickets.Inv.start
  . intro client work hwork
    contradiction
  . intro e he
    contradiction

-- Steps that touch neither the chain nor what is in flight.
theorem Inv.congr (h : st.Inv firstId) {server : IngestServer c d}
    {projecting : Client → Option (Projection c)} (haudit : server.audit = st.server.audit)
    : Inv firstId { st with server, projecting } := by
  constructor
  . rw [haudit]
    exact h.fresh
  . rw [haudit]
    exact h.chain
  . exact h.tickets
  . exact h.holds
  . exact h.backed

theorem getElem?_of_append {appended : List (List UInt8)} {ticket : Nat} {payload : List UInt8}
    (h : appended[ticket]? = some payload) (next : List UInt8)
    : (appended ++ [next])[ticket]? = some payload := by
  rcases List.getElem?_eq_some_iff.mp h with ⟨hlt, _⟩
  rw [List.getElem?_append_left hlt]
  exact h

theorem backed_append {appended : List (List UInt8)} {e : Committed} (h : e.Backed c appended)
    (payload : List UInt8) : e.Backed c (appended ++ [payload]) := by
  rcases h with ⟨ticket, old, hticket, hget, heq⟩
  exact ⟨ticket, old, hticket, getElem?_of_append hget payload, heq⟩

theorem Holds.append {appended : List (List UInt8)} {client : Client} {work : InFlight c}
    (h : Holds appended client work) (payload : List UInt8)
    : Holds (appended ++ [payload]) client work := by
  refine ⟨?_, h.ticketed⟩
  intro ticket hticket
  exact getElem?_of_append (h.payload_eq ticket hticket) payload

theorem held_update {α : Type} {held : Client → Option α} {client client' : Client} {v : Option α} {x : α}
    (h : Function.update held client v client' = some x)
    : (client' = client ∧ v = some x) ∨ held client' = some x :=
  (Tickets.held_update h).imp_right And.right

theorem Inv.take (h : st.Inv firstId) (client : Client) (work : InFlight c)
    : (st.take client work).Inv firstId := by
  constructor
  . exact h.fresh
  . exact h.chain
  . have hissue : (st.take client work).tickets = st.tickets.issue client := by
      simp only [Daemon.take, hold, Daemon.tickets, Tickets.issue, Function.comp_update,
        List.length_append, List.length_singleton]
      rfl
    rw [hissue]
    exact h.tickets.issue
  . intro client' work' hwork
    rcases held_update hwork with ⟨rfl, hnew⟩ | hold
    . cases hnew
      constructor
      . rintro ticket ⟨⟩
        simp [Daemon.take, hold]
      . simp
    . exact (h.holds client' work' hold).append work.payload
  . intro e he howed
    exact backed_append (h.backed e he howed) work.payload

-- Without evidence only an emitter goes on.
theorem Inv.hold_none (h : st.Inv firstId) (atShutdown : Bool) {work : InFlight c}
    (hkind : work.kind ≠ "event") : (st.hold (.emitter atShutdown) work none).Inv firstId := by
  constructor
  . exact h.fresh
  . exact h.chain
  . have hgive : (st.hold (.emitter atShutdown) work none).tickets
        = st.tickets.give (.emitter atShutdown) := by
      simp only [hold, Daemon.tickets, Tickets.give, Function.comp_update]
      rfl
    rw [hgive]
    exact h.tickets.give
  . intro client' work' hwork
    rcases held_update hwork with ⟨rfl, hnew⟩ | hold
    . cases hnew
      constructor
      . rintro ticket ⟨⟩
      . rintro (hevent | hcollector)
        . exact absurd hevent hkind
        . contradiction
    . exact h.holds client' work' hold
  . exact h.backed

theorem Inv.append (h : st.Inv firstId) (client : Client) (work : InFlight c) (io : AppendIo)
    : (st.append client work io).Inv firstId := by
  unfold Daemon.append
  split
  . exact h.congr rfl
  . apply Inv.take
    exact h.congr rfl

theorem receive_audit (s : IngestServer c d) (json : SerdeJson) (frame : Frame c)
    : (s.receive json frame).1.audit = s.audit := by
  unfold IngestServer.receive
  repeat' split
  all_goals rfl

theorem Inv.ingest (h : st.Inv firstId) (w : Writers) (connection : Nat) (frame : Frame c)
    : (st.ingest w connection frame).Inv firstId := by
  have haudit := receive_audit st.server w.json frame
  unfold Daemon.ingest
  generalize st.server.receive w.json frame = received at haudit
  rcases received with ⟨server, _ | ⟨event, wantsResponse⟩⟩
  . exact h.congr haudit
  . exact Inv.append (h.congr haudit) _ _ _

theorem Inv.emit (h : st.Inv firstId) (w : Writers) (atShutdown : Bool) (io : EmitIo c)
    : (st.emit w atShutdown io).Inv firstId := by
  unfold Daemon.emit
  dsimp only
  split
  . exact h.congr rfl
  . unfold Daemon.appendAnyway
    split
    . apply Inv.hold_none
      . exact h.congr rfl
      . simp
    . apply Inv.take
      exact h.congr rfl

theorem Inv.abort (h : st.Inv firstId) (client : Client)
    : Inv firstId { st with inflight := Function.update st.inflight client none } := by
  constructor
  . exact h.fresh
  . exact h.chain
  . have hgive : Daemon.tickets { st with inflight := Function.update st.inflight client none }
        = st.tickets.give client := by
      simp only [Daemon.tickets, Tickets.give, Function.comp_update]
      rfl
    rw [hgive]
    exact h.tickets.give
  . intro client' work' hwork
    rcases held_update hwork with ⟨_, hnone⟩ | hold
    . contradiction
    . exact h.holds client' work' hold
  . exact h.backed

-- The record of a client that waits has its evidence.
theorem Inv.next_backed (h : st.Inv firstId) {client : Client} {work : InFlight c}
    (hwork : st.inflight client = some work) {record : AuditRecord} (hkind : record.kind = work.kind)
    (hpayload : record.payloadCommitment = payloadCommitment c work.payload)
    (howed : Committed.Owed ⟨client, record, work.ticket⟩)
    : Committed.Backed c st.appended ⟨client, record, work.ticket⟩ := by
  have hholds := h.holds client work hwork
  have hticketed : work.ticket ≠ none := by
    apply hholds.ticketed
    rw [← hkind]
    exact howed
  rcases Option.ne_none_iff_exists'.mp hticketed with ⟨ticket, hticket⟩
  exact ⟨ticket, work.payload, hticket, hholds.payload_eq ticket hticket, hpayload⟩

theorem commit_audit (st : Daemon c d) (client : Client) (work : InFlight c)
    : (st.commit client work).server.audit
        = (st.server.audit.observe work.kind work.payload work.nowUs work.auditIo).1 := by
  rfl

-- A commitment spends the ticket of its client.
theorem tickets_commit {client : Client} {work : InFlight c} (hwork : st.inflight client = some work)
    : (st.commit client work).tickets = st.tickets.spend client := by
  have hheld : ((Option.bind · (·.ticket)) ∘ st.inflight) client = work.ticket := by
    simp [hwork]
  simp only [Daemon.tickets, Tickets.spend, Tickets.give, hheld]
  simp only [Daemon.commit, Function.comp_update, List.filterMap_append]
  cases work.ticket <;> rfl

theorem Inv.commit (hc : c.Lawful) (h : st.Inv firstId) {client : Client} {work : InFlight c}
    (hwork : st.inflight client = some work) : (st.commit client work).Inv firstId := by
  have hledger : (st.commit client work).ledger = st.ledger ++
      [⟨client, st.server.audit.nextRecord work.kind work.payload work.nowUs, work.ticket⟩] := rfl
  rcases h.fresh.observe hc work.kind work.payload work.nowUs work.auditIo with ⟨hfresh, hsub⟩
  constructor
  . rw [commit_audit]
    exact hfresh
  . rw [commit_audit, hledger, List.map_append]
    exact hsub.trans (h.chain.append_right _)
  . rw [tickets_commit hwork]
    exact h.tickets.spend
  . intro client' work' hwork'
    rcases held_update hwork' with ⟨_, hnone⟩ | hold
    . contradiction
    . exact h.holds client' work' hold
  . intro e he howed
    rw [hledger, List.mem_append, List.mem_singleton] at he
    rcases he with hold | rfl
    . exact h.backed e hold howed
    . exact h.next_backed hwork rfl rfl howed

theorem Inv.step (hc : c.Lawful) (h : st.Inv firstId) (w : Writers) (action : Action c)
    : (st.step w action).Inv firstId := by
  cases action with
  | ingest connection frame =>
    simp only [Daemon.step]
    split
    . exact h
    . exact h.ingest w connection frame
  | collect record io =>
    simp only [Daemon.step]
    split
    . exact h
    . exact h.append _ _ _
  | emit atShutdown io =>
    simp only [Daemon.step]
    split
    . exact h
    . exact h.emit w atShutdown io
  | commit client =>
    simp only [Daemon.step]
    split
    . next work hwork => exact h.commit hc hwork
    . exact h
  | project client =>
    simp only [Daemon.step]
    split
    . exact h.congr rfl
    . exact h
  | abort client => exact h.abort client
  | flush outcome =>
    rcases h.fresh.closeSegment hc outcome with ⟨hfresh, hsub⟩
    exact ⟨hfresh, hsub.trans h.chain, h.tickets, h.holds, h.backed⟩

theorem append_ledger (st : Daemon c d) (client : Client) (work : InFlight c) (io : AppendIo)
    : (st.append client work io).ledger = st.ledger := by
  unfold Daemon.append
  split <;> rfl

-- A step either leaves the ledger alone or what the evidence log has taken.
theorem step_ledger_or_appended (w : Writers) (st : Daemon c d) (action : Action c)
    : (st.step w action).ledger = st.ledger ∨ (st.step w action).appended = st.appended := by
  cases action with
  | ingest connection frame =>
    left
    simp only [Daemon.step]
    split
    . rfl
    . unfold Daemon.ingest
      split
      . rfl
      . exact append_ledger _ _ _ _
  | collect record io =>
    left
    simp only [Daemon.step]
    split
    . rfl
    . exact append_ledger _ _ _ _
  | emit atShutdown io =>
    left
    simp only [Daemon.step]
    split
    . rfl
    . unfold Daemon.emit
      dsimp only
      split
      . rfl
      . unfold Daemon.appendAnyway
        split <;> rfl
  | commit client =>
    right
    simp only [Daemon.step]
    split <;> rfl
  | project client =>
    left
    simp only [Daemon.step]
    split <;> rfl
  | abort client => exact Or.inl rfl
  | flush outcome => exact Or.inl rfl

theorem Inv.evidencedBefore (hc : c.Lawful) (h : st.Inv firstId) (w : Writers) (action : Action c)
    : st.EvidencedBefore w action := by
  intro e hledger howed
  have hbacked : e.Backed c (st.step w action).appended := by
    apply (h.step hc w action).backed e _ howed
    simp [hledger]
  rcases step_ledger_or_appended w st action with hsame | hsame
  . rw [hsame] at hledger
    simp at hledger
  . rwa [hsame] at hbacked

/--
However the tasks of an opened daemon take turns, and whatever fails: the records of the chain are in
the ledger, those of events and of the collector have evidence that the log took before their
commitment, and no append serves two records.
-/
theorem commits_evidenced (hc : c.Lawful) {logConfig : Storage.Config} {evidence : Storage.Dir}
    {segments : SegmentStore c} {signer : SigningKey} {auditRecordsPerSegment : Nat}
    {lifecycles : DynStore} {detection : d.State} {server : IngestServer c d}
    (hnew : IngestServer.new logConfig evidence segments signer auditRecordsPerSegment lifecycles
      detection = .ok server) (w : Writers) (actions : List (Action c))
    : Run.Always (step w) (Evidenced server.audit.nextSegmentId) (start server) actions
        ∧ Run.Guarded (step w) (EvidencedBefore w) (start server) actions := by
  have hinit : (start server).Inv server.audit.nextSegmentId := by
    unfold IngestServer.new at hnew
    cases hopen : AuditChainWriter.open segments "tnt_default" signer with
    | error e => simp [hopen, bind, Except.bind] at hnew
    | ok audit =>
      simp only [hopen, bind, Except.bind, pure, Except.pure] at hnew
      cases hnew
      rcases AuditChainWriter.Fresh.open hopen with ⟨hfresh, hnone⟩
      exact Inv.start ⟨hfresh.lt_next, hfresh.first_le⟩ hnone
  have hinv : Run.Always (step w) (Inv server.audit.nextSegmentId) (start server) actions := by
    apply Run.always_of_step actions hinit
    intro st action h
    exact h.step hc w action
  refine ⟨hinv.mono (fun st h => h.evidenced), ?_⟩
  intro pre action hpre
  exact (hinv pre ((List.prefix_append pre [action]).trans hpre)).evidencedBefore hc w action

end Daemon

section Instances

def toyWriters : Writers where
  json := .ofPayments [created]
  spool := .ofRecords []
  toVec _ _ := none

-- Two connections and the collector between their two steps; the segment of the first commit is lost.
def interleaved : List (Daemon.Action Crates.toy) :=
  [.ingest 1 { paymentFrame created 0 with auditIo := .renameFailed }, .ingest 2 (paymentFrame created 1),
    .collect loss ⟨2, 2, ⟨⟨true, true, true⟩, .done, .done⟩, .done⟩, .commit (.connection 1),
    .commit .collector, .commit (.connection 2), .flush .done]

theorem commits_evidenced_interleaved
    : Run.Always (Daemon.step toyWriters) (Daemon.Evidenced 0)
          (Daemon.start (emptyServer smallLog 1 .inMemory)) interleaved
        ∧ Run.Guarded (Daemon.step toyWriters) (Daemon.EvidencedBefore toyWriters)
          (Daemon.start (emptyServer smallLog 1 .inMemory)) interleaved :=
  Daemon.commits_evidenced Crates.toy_lawful (new_emptyServer smallLog 1 .inMemory) toyWriters interleaved

end Instances

end Athar
