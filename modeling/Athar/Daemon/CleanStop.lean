import Athar.Daemon.Durability

/-!
This module contains what a clean stop leaves behind. When no task is under way any more and the audit
chain has been flushed, every piece of evidence has a commitment of its own on disk.
-/

namespace Athar

open Storage Audit Spool

variable {c : Crates} {d : Detection}

-- The chain is the ledger, and a ticket tells what its record commits to.
structure Complete (records : List AuditRecord) (appended : List (List UInt8)) (ledger : List Committed)
    : Prop where
  records_eq : records = ledger.map (·.record)
  backed : ∀ e ∈ ledger, ∀ ticket, e.ticket = some ticket → ∃ payload, appended[ticket]? = some payload
    ∧ e.record.payloadCommitment = payloadCommitment c payload

theorem Complete.append {records : List AuditRecord} {appended : List (List UInt8)}
    {ledger : List Committed} (h : Complete (c := c) records appended ledger) (payload : List UInt8)
    : Complete (c := c) records (appended ++ [payload]) ledger := by
  refine ⟨h.records_eq, ?_⟩
  intro e he ticket hticket
  rcases h.backed e he ticket hticket with ⟨old, hget, heq⟩
  exact ⟨old, Daemon.getElem?_of_append hget payload, heq⟩

-- All evidence is committed once all tickets are spent.
theorem Complete.appended_le {records : List AuditRecord} {appended : List (List UInt8)}
    {ledger : List Committed} (h : Complete (c := c) records appended ledger)
    (hspent : ∀ ticket, ticket < appended.length → ticket ∈ ledger.filterMap (·.ticket))
    : (appended.map (payloadCommitment c) : Multiset Hash) ≤ records.map (·.payloadCommitment) := by
  let ticketed := ledger.filter (·.ticket.isSome)
  have hpositions : ticketed.filterMap (·.ticket) = ledger.filterMap (·.ticket) := by
    rw [List.filterMap_filter]
    apply List.filterMap_congr
    intro e _
    cases e.ticket <;> simp
  have hget : (ticketed.filterMap (·.ticket)).map ((appended.map (payloadCommitment c))[·]?)
      = (ticketed.map (·.record.payloadCommitment)).map some := by
    apply Tickets.map_filterMap_eq
    intro e he
    rcases List.mem_filter.mp he with ⟨he, hsome⟩
    rcases Option.isSome_iff_exists.mp hsome with ⟨ticket, hticket⟩
    rcases h.backed e he ticket hticket with ⟨payload, hpayload, heq⟩
    refine ⟨ticket, hticket, ?_⟩
    rw [List.getElem?_map, hpayload, heq]
    rfl
  have hcovers : List.range (appended.map (payloadCommitment c)).length
      ⊆ ticketed.filterMap (·.ticket) := by
    intro ticket hticket
    rw [List.mem_range, List.length_map] at hticket
    rw [hpositions]
    exact hspent ticket hticket
  have hsub : (ticketed.map (·.record.payloadCommitment)).Sublist (records.map (·.payloadCommitment)) := by
    rw [h.records_eq, List.map_map]
    exact List.filter_sublist.map _
  exact (Tickets.le_of_covering hcovers hget).trans (Multiset.coe_le.mpr hsub.subperm)

namespace Daemon

-- Every ticket was spent, or its client is about to.
def Issued (st : Daemon c d) : Prop :=
  ∀ ticket, ticket < st.appended.length → ticket ∈ st.ledger.filterMap (·.ticket)
    ∨ ∃ client work, st.inflight client = some work ∧ work.ticket = some ticket

structure Clean (st : Daemon c d) : Prop where
  complete : Complete (c := c) (st.server.audit.recordsSince 0) st.appended st.ledger
  issued : st.Issued

variable {st : Daemon c d}

theorem Clean.congr (h : st.Clean) {server : IngestServer c d}
    {projecting : Client → Option (Projection c)} (haudit : server.audit = st.server.audit)
    : Clean { st with server, projecting } := by
  refine ⟨?_, h.issued⟩
  rw [haudit]
  exact h.complete

theorem issued_update {client : Client} {work : InFlight c} (hidle : st.inflight client = none)
    {ticket : Nat} (h : ∃ client work, st.inflight client = some work ∧ work.ticket = some ticket)
    : ∃ client' work', Function.update st.inflight client (some work) client' = some work'
        ∧ work'.ticket = some ticket := by
  rcases h with ⟨client', work', hwork', hticket⟩
  have hne : client' ≠ client := by
    rintro rfl
    rw [hidle] at hwork'
    contradiction
  exact ⟨client', work', by rw [Function.update_of_ne hne, hwork'], hticket⟩

theorem Clean.take (h : st.Clean) {client : Client} (hidle : st.inflight client = none)
    (work : InFlight c) : (st.take client work).Clean := by
  constructor
  . exact h.complete.append work.payload
  . intro ticket hlt
    have hlt : ticket < st.appended.length + 1 := by
      simpa [Daemon.take, hold] using hlt
    rcases Nat.lt_succ_iff_lt_or_eq.mp hlt with hold | rfl
    . rcases h.issued ticket hold with hspent | hheld
      . exact .inl hspent
      . exact .inr (issued_update hidle hheld)
    . right
      exact ⟨client, { work with ticket := some st.appended.length },
        by simp [Daemon.take, hold], rfl⟩

theorem Clean.hold_none (h : st.Clean) {client : Client} (hidle : st.inflight client = none)
    (work : InFlight c) : (st.hold client work none).Clean := by
  refine ⟨h.complete, ?_⟩
  intro ticket hlt
  rcases h.issued ticket hlt with hspent | hheld
  . exact .inl hspent
  . exact .inr (issued_update hidle hheld)

theorem Clean.append (h : st.Clean) {client : Client} (hidle : st.inflight client = none)
    (work : InFlight c) (io : AppendIo) : (st.append client work io).Clean := by
  unfold Daemon.append
  split
  . exact h.congr rfl
  . next log receipt _ =>
    have hlog : Clean { st with server := { st.server with log } } := h.congr rfl
    exact hlog.take hidle work

theorem Clean.appendAnyway (h : st.Clean) {client : Client} (hidle : st.inflight client = none)
    (work : InFlight c) (io : AppendIo) : (st.appendAnyway client work io).Clean := by
  unfold Daemon.appendAnyway
  split
  . next log e _ =>
    have hlog : Clean { st with server := { st.server with log } } := h.congr rfl
    exact hlog.hold_none hidle work
  . next log receipt _ =>
    have hlog : Clean { st with server := { st.server with log } } := h.congr rfl
    exact hlog.take hidle work

-- A commitment that is written spends the ticket of its client.
theorem Clean.commit (hc : c.Lawful) (h : st.Clean) (hinv : st.Inv 0) {client : Client}
    {work : InFlight c} (hwork : st.inflight client = some work) (hdone : work.auditIo = .done)
    : (st.commit client work).Clean := by
  have hledger : (st.commit client work).ledger = st.ledger ++
      [⟨client, st.server.audit.nextRecord work.kind work.payload work.nowUs, work.ticket⟩] := rfl
  constructor
  . constructor
    . rw [commit_audit, AuditChainWriter.recordsSince_observe hc hinv.fresh (fun _ => hdone), hledger,
        h.complete.records_eq, List.map_append]
      rfl
    . intro e he ticket hticket
      rw [hledger, List.mem_append, List.mem_singleton] at he
      rcases he with hold | rfl
      . exact h.complete.backed e hold ticket hticket
      . exact ⟨work.payload, (hinv.holds client work hwork).payload_eq ticket hticket, rfl⟩
  . intro ticket hlt
    rw [hledger, List.filterMap_append, List.mem_append]
    rcases h.issued ticket hlt with hspent | ⟨client', work', hwork', hticket⟩
    . exact .inl (.inl hspent)
    . by_cases heq : client' = client
      . subst heq
        rw [hwork, Option.some_inj] at hwork'
        subst hwork'
        left
        right
        simp [hticket]
      . right
        refine ⟨client', work', ?_, hticket⟩
        simp only [Daemon.commit]
        rw [Function.update_of_ne heq, hwork']

-- No client gives up what it has appended.
def Action.Finishes : Action c → Prop
  | .abort _ => False
  | _ => True

theorem Clean.step (hc : c.Lawful) (h : st.Clean) (hinv : st.Inv 0) (hwill : st.WillCommit)
    (w : Writers) {action : Action c} (hsucceeds : action.Succeeds) (hfinishes : action.Finishes)
    : (st.step w action).Clean := by
  cases action with
  | ingest connection frame =>
    simp only [Daemon.step]
    split
    . exact h
    . next hbusy =>
      rw [Bool.not_eq_true, busy_eq_false] at hbusy
      have haudit := receive_audit st.server w.json frame
      unfold Daemon.ingest
      generalize st.server.receive w.json frame = received at haudit
      rcases received with ⟨server, _ | ⟨event, wantsResponse⟩⟩
      . exact h.congr haudit
      . exact (h.congr haudit).append hbusy.1 _ _
  | collect record io =>
    simp only [Daemon.step]
    split
    . exact h
    . next hidle => exact h.append hidle _ _
  | emit atShutdown io =>
    simp only [Daemon.step]
    split
    . exact h
    . next hidle =>
      have hdrops : Clean { st with server := { st.server with drops := st.server.drops.take.1 } } :=
        h.congr rfl
      unfold Daemon.emit
      dsimp only
      split
      . exact hdrops
      . exact hdrops.appendAnyway hidle _ _
  | commit client =>
    simp only [Daemon.step]
    split
    . next work hwork => exact h.commit hc hinv hwork (hwill client work hwork)
    . exact h
  | project client =>
    simp only [Daemon.step]
    split
    . exact h.congr rfl
    . exact h
  | abort client => contradiction
  | flush outcome =>
    cases hsucceeds
    refine ⟨⟨?_, h.complete.backed⟩, h.issued⟩
    exact (AuditChainWriter.recordsSince_closeSegment hc hinv.fresh).trans h.complete.records_eq

end Daemon

namespace Installation

theorem step_task (w : Writers) (daemon : Daemon c d) (evicted : List (List UInt8))
    (action : Daemon.Action c)
    : (Installation.up daemon evicted).step w (.task action) = .up (daemon.step w action) evicted := by
  rfl

-- A stop waits for the tasks and finds the chain flushed, and nothing is killed.
def CleanAction : Installation c d → Action c d → Prop
  | _, .kill => False
  | _, .task action => action.Finishes
  | .up daemon _, .stop _ _ =>
    (∀ client, daemon.inflight client = none) ∧ daemon.server.audit.inner.records = []
  | _, _ => True

def AllFinished : Installation c d → Prop
  | .up daemon _ => daemon.Clean
  | .down dir appended ledger _ => Complete (c := c) (dir.segments.persistedSince 0) appended ledger
    ∧ ∀ ticket, ticket < appended.length → ticket ∈ ledger.filterMap (·.ticket)

-- Between two sessions, every piece of evidence has a commitment of its own on disk.
def Settled : Installation c d → Prop
  | .up _ _ => True
  | .down dir _ _ evicted => ∃ records, readAll dir.evidence none = .ok records
    ∧ ((records ++ evicted).map (payloadCommitment c) : Multiset Hash)
      ≤ dir.segments.persisted.map (·.payloadCommitment)

theorem allFinished_empty (lifecycles : DynStore)
    : (empty lifecycles : Installation c d).AllFinished := by
  refine ⟨⟨rfl, ?_⟩, ?_⟩
  . simp
  . simp

theorem AllFinished.start {dir : DataDir c} {appended : List (List UInt8)} {ledger : List Committed}
    (h : Complete (c := c) (dir.segments.persistedSince 0) appended ledger)
    (hspent : ∀ ticket, ticket < appended.length → ticket ∈ ledger.filterMap (·.ticket))
    {logConfig : Storage.Config} {signer : SigningKey} {auditRecordsPerSegment : Nat}
    {detection : d.State} {server : IngestServer c d}
    (hnew : IngestServer.new logConfig dir.evidence dir.segments signer auditRecordsPerSegment dir.lifecycles
      detection = .ok server) : (Daemon.resume server appended ledger).Clean := by
  refine ⟨⟨?_, h.backed⟩, fun ticket hlt => .inl (hspent ticket hlt)⟩
  exact (recordsSince_new hnew).trans h.records_eq

theorem AllFinished.step (hc : c.Lawful) {st : Installation c d} (h : st.AllFinished) (hsound : st.Sound)
    (hchained : st.Chained) (w : Writers) {action : Action c d} (hsucceeds : action.Succeeds)
    (hclean : st.CleanAction action) : (st.step w action).AllFinished := by
  cases hsound with
  | @up daemon evicted segs audited htracks hmax hpreserved hresumed hwill =>
    cases action with
    | start => exact h
    | task action => exact Daemon.Clean.step hc h hchained hwill w hsucceeds hclean
    | evict removes =>
      unfold Installation.step evictOldest
      dsimp only
      split <;> exact Daemon.Clean.congr h rfl
    | stop io removes =>
      have hrecords : daemon.server.audit.recordsSince 0 = daemon.server.audit.store.persistedSince 0 := by
        rw [AuditChainWriter.recordsSince, hclean.2, List.map_nil, List.append_nil]
      refine ⟨⟨hrecords.symm.trans h.complete.records_eq, h.complete.backed⟩, ?_⟩
      intro ticket hlt
      rcases h.issued ticket hlt with hspent | ⟨client, work, hwork, _⟩
      . exact hspent
      . rw [hclean.1 client] at hwork
        contradiction
    | kill => contradiction
  | @down dir appended evicted ledger segs audited hholds hpreserved hstored =>
    cases action with
    | start logConfig signer auditRecordsPerSegment detection =>
      unfold Installation.step boot
      dsimp only
      split
      . exact h
      . next server hnew => exact AllFinished.start h.1 h.2 hnew
    | _ => exact h

theorem AllFinished.settled {st : Installation c d} (h : st.AllFinished) (hsound : st.Sound)
    : st.Settled := by
  cases hsound with
  | up => trivial
  | @down dir appended evicted ledger segs audited hholds hpreserved hstored =>
    refine ⟨_, hpreserved.readAll_eq hholds none, ?_⟩
    have hperm := Multiset.coe_eq_coe.mpr (hpreserved.perm.map (payloadCommitment c))
    rw [← hperm, ← SegmentStore.persistedSince_zero]
    exact h.1.appended_le h.2

/--
When no daemon is killed and every stop waits for the tasks and finds the chain flushed, every piece of
evidence that an installation ever took has a commitment of its own on disk whenever it is stopped.
-/
theorem settled_of_clean (hc : c.Lawful) (lifecycles : DynStore) (w : Writers)
    {actions : List (Action c d)} (hsucceeds : ∀ action ∈ actions, action.Succeeds)
    (hclean : Run.Guarded (step w) CleanAction (.empty lifecycles) actions)
    : Run.Always (step w) Settled (.empty lifecycles) actions := by
  have hall : Run.Always (step w)
      (fun st : Installation c d => st.AllFinished ∧ st.Sound ∧ st.Chained) (.empty lifecycles) actions := by
    apply Run.always_of_guarded (I := fun st => st.AllFinished ∧ st.Sound ∧ st.Chained)
      (G := fun st action => CleanAction st action ∧ action.Succeeds)
    . exact ⟨allFinished_empty lifecycles, sound_empty lifecycles, chained_empty lifecycles⟩
    . rintro st action ⟨hfinished, hsound, hchained⟩ ⟨hclean, hsucceeds⟩
      exact ⟨hfinished.step hc hsound hchained w hsucceeds hclean, hsound.step hc w hsucceeds,
        hchained.step hc w action⟩
    . intro pre action hpre
      exact ⟨hclean pre action hpre, hsucceeds action (hpre.subset (by simp))⟩
  exact hall.mono fun st h => h.1.settled h.2.1

end Installation

section Instances

def Daemon.Idle (st : Daemon c d) : Prop :=
  ∀ client, st.inflight client = none

theorem Daemon.Idle.ingest_commit {st : Daemon c d} (h : st.Idle) (w : Writers) (connection : Nat)
    (frame : Frame c)
    : ((st.step w (.ingest connection frame)).step w (.commit (.connection connection))).Idle := by
  have hothers : ∀ client, client ≠ .connection connection →
      (st.step w (.ingest connection frame)).inflight client = none := by
    intro client hne
    simp only [Daemon.step]
    split
    . exact h client
    . unfold Daemon.ingest
      split
      . exact h client
      . unfold Daemon.append
        split
        . exact h client
        . simpa [Daemon.take, hold, Function.update_of_ne hne] using h client
  generalize st.step w (.ingest connection frame) = st' at hothers
  intro client
  by_cases heq : client = .connection connection
  . subst heq
    simp only [Daemon.step]
    split
    . simp [Daemon.commit]
    . assumption
  . simp only [Daemon.step]
    split
    . simp only [Daemon.commit]
      rw [Function.update_of_ne heq, hothers client heq]
    . exact hothers client heq

theorem Daemon.Idle.project {st : Daemon c d} (h : st.Idle) (w : Writers) (client : Client)
    : (st.step w (.project client)).Idle := by
  simp only [Daemon.step]
  split
  . exact h
  . exact h

theorem Audit.AuditChainWriter.flush_records (w : AuditChainWriter c) (outcome : WriteOutcome c.Text)
    : (w.flush outcome).1.inner.records = [] := by
  unfold AuditChainWriter.flush
  by_cases hne : w.inner.records = []
  . rw [closeSegment_of_nil hne, hne]
  . rcases closeSegment_of_ne_nil hne outcome with ⟨last, _, heq⟩
    rw [heq]
    rfl

theorem Daemon.Idle.stop {st : Daemon c d} (h : st.Idle) (w : Writers) (outcome : WriteOutcome c.Text)
    (evicted : List (List UInt8)) (io : RotateIo) (removes : Bool)
    : (Installation.up (st.step w (.flush outcome)) evicted).CleanAction (.stop io removes) :=
  ⟨h, st.server.audit.flush_records outcome⟩

-- A session with one event, which is committed, projected and flushed before the stop.
def stoppedOnce : List (Installation.Action Crates.toy Detection.none) :=
  [.start smallLog toyKey 1000 (), .task (.ingest 1 (paymentFrame created 0)),
    .task (.commit (.connection 1)), .task (.project (.connection 1)), .task (.flush .done),
    .stop .done true]

theorem Installation.settled_of_clean_stoppedOnce
    : Run.Always (Installation.step toyWriters) Installation.Settled (.empty (DynStore.empty .sqlite))
        stoppedOnce := by
  apply Installation.settled_of_clean Crates.toy_lawful
  . intro action haction
    simp only [stoppedOnce, List.mem_cons, List.not_mem_nil, or_false] at haction
    rcases haction with rfl | rfl | rfl | rfl | rfl | rfl
    all_goals
      simp [Installation.Action.Succeeds, Daemon.Action.Succeeds, paymentFrame, smallLog, AppendIo.done,
        RotateIo.done, RECORD_HEADER_BYTES]
  . have hstart : Installation.step toyWriters (.empty (DynStore.empty .sqlite))
        (.start smallLog toyKey 1000 ()) = .up (.resume (emptyServer smallLog 1000 .sqlite) [] []) [] := by
      unfold Installation.step Installation.empty Installation.boot
      dsimp only
      rw [new_emptyServer]
    have hidle : (Daemon.resume (emptyServer smallLog 1000 .sqlite) [] []).Idle := fun _ => rfl
    have hcommitted := hidle.ingest_commit toyWriters 1 (paymentFrame created 0)
    have hstop := (hcommitted.project toyWriters (.connection 1)).stop toyWriters .done [] .done true
    unfold stoppedOnce
    rw [Run.guarded_cons, hstart, Run.guarded_cons, Installation.step_task, Run.guarded_cons,
      Installation.step_task, Run.guarded_cons, Installation.step_task, Run.guarded_cons,
      Installation.step_task, Run.guarded_cons]
    exact ⟨trivial, trivial, trivial, trivial, trivial, hstop, by simp⟩

end Instances

end Athar
