import Mathlib.Data.Multiset.AddSub
import Athar.Audit.Reopen
import Athar.Daemon.Evidence
import Athar.Daemon.Impl.Installation
import Athar.Storage.Calls
import Athar.Storage.ReadBack

/-!
This module contains what an installation keeps over any number of starts, stops and kills. Whatever its
tasks do in between, it can be started again, its audit chain verifies, its evidence is what the log took
in all sessions but for what was evicted, and every event of the chain has a piece of evidence of its own.
-/

namespace Athar

open Storage Audit Spool

variable {c : Crates} {d : Detection}

namespace Storage

def evidenceOf (segs : List Segment) : List (List UInt8) :=
  segs.flatMap (·.records)

-- The records of all segments, in the order of the segments.
def readAll (files : Dir) (active : Option Active) : Except ReadError (List (List UInt8)) :=
  ((segments files active).mapM (readSegmentRecords files ·.path)).map List.flatten

-- The segments hold what was appended, but for what was evicted.
structure Preserved (appended evicted : List (List UInt8)) (segs : List Segment) : Prop where
  sublist : (evidenceOf segs).Sublist appended
  perm : appended.Perm (evidenceOf segs ++ evicted)
  short : ∀ data ∈ appended, data.length < 256 ^ RECORD_HEADER_BYTES

section Preserved

variable {appended evicted : List (List UInt8)} {segs segs' older newer : List Segment} {seg : Segment}

theorem evidenceOf_of_contents (h : segs'.map Segment.contents = segs.map Segment.contents)
    : evidenceOf segs' = evidenceOf segs := by
  have hevidence : ∀ segs : List Segment, evidenceOf segs = (segs.map Segment.contents).flatMap Prod.snd := by
    intro segs
    rw [List.flatMap_map]
    rfl
  rw [hevidence, hevidence, h]

theorem Preserved.congr (h : Preserved appended evicted segs) (heq : evidenceOf segs' = evidenceOf segs)
    : Preserved appended evicted segs' := by
  constructor
  . rw [heq]
    exact h.sublist
  . rw [heq]
    exact h.perm
  . exact h.short

theorem Preserved.nil : Preserved [] [] [] := by
  constructor
  . exact List.Sublist.refl _
  . exact List.Perm.refl _
  . simp

theorem Preserved.push (h : Preserved appended evicted (older ++ [seg])) {data : List UInt8}
    (hdata : data.length < 256 ^ RECORD_HEADER_BYTES)
    : Preserved (appended ++ [data]) evicted (older ++ [seg.push data]) := by
  have hevidence : evidenceOf (older ++ [seg.push data]) = evidenceOf (older ++ [seg]) ++ [data] := by
    simp [evidenceOf, Segment.push]
  constructor
  . rw [hevidence]
    exact h.sublist.append_right _
  . rw [hevidence, List.perm_iff_count]
    intro x
    have hcount := h.perm.count_eq x
    rw [List.count_append] at hcount
    rw [List.count_append, List.count_append, List.count_append]
    omega
  . rw [List.forall_mem_append, List.forall_mem_singleton]
    exact ⟨h.short, hdata⟩

theorem Preserved.evict (h : Preserved appended evicted (older ++ seg :: newer))
    : Preserved appended (evicted ++ seg.records) (older ++ newer) := by
  have hevidence : evidenceOf (older ++ seg :: newer)
      = evidenceOf older ++ (seg.records ++ evidenceOf newer) := by
    simp [evidenceOf]
  have hrest : evidenceOf (older ++ newer) = evidenceOf older ++ evidenceOf newer := by
    simp [evidenceOf]
  constructor
  . have hsub : (evidenceOf (older ++ newer)).Sublist (evidenceOf (older ++ seg :: newer)) := by
      rw [hrest, hevidence]
      exact (List.sublist_append_right _ _).append_left _
    exact hsub.trans h.sublist
  . rw [hrest, List.perm_iff_count]
    intro x
    have hcount := h.perm.count_eq x
    rw [hevidence] at hcount
    simp only [List.count_append] at hcount ⊢
    omega
  . exact h.short

theorem Preserved.seg_short (h : Preserved appended evicted segs) (hseg : seg ∈ segs) : seg.Short := by
  intro data hdata
  apply h.short
  exact h.sublist.subset (List.mem_flatMap.mpr ⟨seg, hseg, hdata⟩)

theorem Preserved.readAll_eq (h : Preserved appended evicted segs) {files : Dir} (hholds : Holds files segs)
    (active : Option Active) : readAll files active = .ok (evidenceOf segs) := by
  have hread : ∀ seg ∈ segs, readSegmentRecords files (seg.info active).path = .ok seg.records := by
    intro seg hseg
    exact (hholds.readSegmentRecords_eq_iff hseg).mpr (h.seg_short hseg)
  have hmap : (segs.map (·.info active)).mapM (readSegmentRecords files ·.path)
      = .ok (segs.map (·.records)) := by
    rw [List.mapM_map]
    exact mapM_ok hread
  rw [readAll, hholds.segments_eq, hmap, evidenceOf, List.flatMap_def]
  rfl

end Preserved

end Storage

namespace Audit

theorem SegmentStore.persistedSince_zero (s : SegmentStore c) : s.persistedSince 0 = s.persisted := by
  simp [SegmentStore.persistedSince, SegmentStore.persisted]

theorem AuditChainWriter.open_eq {store : SegmentStore c} {tenantId : String} {signer : SigningKey}
    {w : AuditChainWriter c} (hopen : AuditChainWriter.open store tenantId signer = .ok w)
    : w.store = store ∧ w.inner.records = [] := by
  unfold AuditChainWriter.open at hopen
  cases hlast : store.list.getLast? with
  | none =>
    simp only [hlast] at hopen
    cases hopen
    exact ⟨rfl, rfl⟩
  | some lastId =>
    cases hread : store.read lastId with
    | error e => simp [hlast, hread, bind, Except.bind] at hopen
    | ok last =>
      simp only [hlast, hread, bind, Except.bind, pure, Except.pure] at hopen
      cases hopen
      exact ⟨rfl, rfl⟩

theorem Process.Refines.resumed {w : AuditChainWriter c} {l : Ledger Hash}
    (h : Process.Refines (.running w) l) : ∃ audited, w.Resumed audited := by
  generalize hp : Process.running w = p at h
  cases h with
  | running hresumed =>
    cases hp
    exact ⟨_, hresumed⟩
  | down => contradiction

theorem AuditChainWriter.Resumed.withMaxRecordsPerSegment {w : AuditChainWriter c} {audited : List Segment}
    (h : w.Resumed audited) (n : Nat) : (w.withMaxRecordsPerSegment n).Resumed audited := by
  have hsynced := h.synced
  exact ⟨⟨hsynced.reads, hsynced.continuous, hsynced.tip_eq, hsynced.fresh, hsynced.pending⟩, h.linked,
    h.nextSeq_eq⟩

end Audit

-- What a start makes of its data directory.
theorem IngestServer.new_eq_ok {logConfig : Storage.Config} {dir : DataDir c} {signer : SigningKey}
    {auditRecordsPerSegment : Nat} {detection : d.State} {server : IngestServer c d}
    (h : IngestServer.new logConfig dir.evidence dir.segments signer auditRecordsPerSegment dir.lifecycles
      detection = .ok server)
    : ∃ audit, AuditChainWriter.open dir.segments "tnt_default" signer = .ok audit
        ∧ server.audit = audit.withMaxRecordsPerSegment auditRecordsPerSegment
        ∧ server.log = SegmentLog.open logConfig dir.evidence
        ∧ server.lifecycles = dir.lifecycles := by
  unfold IngestServer.new at h
  cases hopen : AuditChainWriter.open dir.segments "tnt_default" signer with
  | error e => simp [hopen, bind, Except.bind] at h
  | ok audit =>
    simp only [hopen, bind, Except.bind, pure, Except.pure] at h
    cases h
    exact ⟨audit, rfl, rfl, rfl, rfl⟩

-- A daemon that starts has the records of the chain that are on disk.
theorem recordsSince_new {logConfig : Storage.Config} {dir : DataDir c} {signer : SigningKey}
    {auditRecordsPerSegment : Nat} {detection : d.State} {server : IngestServer c d}
    (hnew : IngestServer.new logConfig dir.evidence dir.segments signer auditRecordsPerSegment dir.lifecycles
      detection = .ok server) : server.audit.recordsSince 0 = dir.segments.persistedSince 0 := by
  rcases IngestServer.new_eq_ok hnew with ⟨audit, hopen, haudit, _, _⟩
  rcases AuditChainWriter.open_eq hopen with ⟨hstore, hpending⟩
  rw [haudit, AuditChainWriter.recordsSince, AuditChainWriter.withMaxRecordsPerSegment]
  dsimp only
  rw [hstore, hpending, List.map_nil, List.append_nil]

-- What a daemon leaves to the next one: the chain on disk is in the ledger, the records of events have their
-- evidence, and no ticket was spent twice.
structure Linked (segments : SegmentStore c) (appended : List (List UInt8)) (ledger : List Committed)
    : Prop where
  chain : (segments.persistedSince 0).Sublist (ledger.map (·.record))
  tickets : (⟨appended.length, fun _ => none, ledger.filterMap (·.ticket)⟩ : Tickets Client).Inv
  backed : ∀ e ∈ ledger, e.Owed → e.Backed c appended

section Linked

variable {segments : SegmentStore c} {appended : List (List UInt8)} {ledger : List Committed}

theorem Daemon.Inv.linked {st : Daemon c d} (h : st.Inv 0)
    : Linked st.server.audit.store st.appended st.ledger := by
  constructor
  . exact (List.sublist_append_left _ _).trans h.chain
  . exact h.tickets.release
  . exact h.backed

theorem Linked.resume {logConfig : Storage.Config} {dir : DataDir c} {signer : SigningKey}
    {auditRecordsPerSegment : Nat} {detection : d.State} {server : IngestServer c d}
    (hnew : IngestServer.new logConfig dir.evidence dir.segments signer auditRecordsPerSegment dir.lifecycles
      detection = .ok server) (h : Linked dir.segments appended ledger)
    : (Daemon.resume server appended ledger).Inv 0 := by
  rcases IngestServer.new_eq_ok hnew with ⟨audit, hopen, haudit, _, _⟩
  have hfresh := (AuditChainWriter.Fresh.open hopen).1.lt_next
  constructor
  . refine ⟨?_, Nat.zero_le _⟩
    rw [Daemon.resume, Daemon.start, haudit]
    exact hfresh
  . rw [Daemon.resume, Daemon.start, recordsSince_new hnew]
    exact h.chain
  . exact h.tickets
  . intro client work hwork
    contradiction
  . exact h.backed

-- The commitments of the events that are on disk.
def eventCommitments (segments : SegmentStore c) : List Hash :=
  (segments.persisted.filter (·.kind = "event")).map (·.payloadCommitment)

-- Every event of the chain has an append of its own.
theorem Linked.eventCommitments_le (h : Linked segments appended ledger)
    : (eventCommitments segments : Multiset Hash) ≤ appended.map (payloadCommitment c) := by
  let events := ledger.filter (·.record.kind = "event")
  have hevents : (eventCommitments segments).Sublist (events.map (·.record.payloadCommitment)) := by
    have hsub := (h.chain.filter (·.kind = "event")).map (·.payloadCommitment)
    rw [List.filter_map, List.map_map, SegmentStore.persistedSince_zero] at hsub
    exact hsub
  have hget : (events.filterMap (·.ticket)).map ((appended.map (payloadCommitment c))[·]?)
      = (events.map (·.record.payloadCommitment)).map some := by
    apply Tickets.map_filterMap_eq
    intro e he
    rcases List.mem_filter.mp he with ⟨he, hkind⟩
    rcases h.backed e he (.inl (of_decide_eq_true hkind)) with ⟨ticket, payload, hticket, hpayload, heq⟩
    refine ⟨ticket, hticket, ?_⟩
    rw [List.getElem?_map, hpayload, heq]
    rfl
  have hnodup : (events.filterMap (·.ticket)).Nodup :=
    h.tickets.nodup.sublist (List.filter_sublist.filterMap _)
  exact (Multiset.coe_le.mpr hevents.subperm).trans (Tickets.le_of_positions hnodup hget)

end Linked

-- Every file operation of the action succeeds.
def Daemon.Action.Succeeds : Daemon.Action c → Prop
  | .ingest _ frame => frame.logIo = .done ∧ frame.auditIo = .done
  | .collect _ io => io.logIo = .done ∧ io.auditIo = .done
  | .emit _ io => io.logIo = .done ∧ io.auditIo = .done
  | .commit _ => True
  | .project _ => True
  | .abort _ => True
  | .flush outcome => outcome = .done

namespace Daemon

-- What one step of the tasks does to the log and to what it has taken.
inductive LogStep (log : SegmentLog) (appended : List (List UInt8))
    : SegmentLog → List (List UInt8) → Prop
  | kept : LogStep log appended log appended
  | refused {data : List UInt8} {e : StorageError} (hrefused : (log.append data .done).2 = .error e)
    : LogStep log appended (log.append data .done).1 appended
  | took {data : List UInt8} {receipt : AppendReceipt} (htook : (log.append data .done).2 = .ok receipt)
    : LogStep log appended (log.append data .done).1 (appended ++ [data])

-- What it does to the audit chain.
inductive AuditStep (audit : AuditChainWriter c) : AuditChainWriter c → Prop
  | kept : AuditStep audit audit
  | called (call : Audit.Call c) (hdone : call.outcome = .done) : AuditStep audit (call.apply audit)

-- The commitments that are still to come will be written.
def WillCommit (st : Daemon c d) : Prop :=
  ∀ client work, st.inflight client = some work → work.auditIo = .done

variable (w : Writers) (st : Daemon c d)

theorem append_log (client : Client) (work : InFlight c)
    : LogStep st.server.log st.appended (st.append client work .done).server.log
        (st.append client work .done).appended := by
  unfold Daemon.append
  generalize hresult : st.server.log.append work.payload .done = appended
  rcases appended with ⟨log, e | receipt⟩
  . have hlog : log = (st.server.log.append work.payload .done).1 := by rw [hresult]
    have hrefused : (st.server.log.append work.payload .done).2 = .error e := by rw [hresult]
    rw [hlog]
    exact .refused hrefused
  . have hlog : log = (st.server.log.append work.payload .done).1 := by rw [hresult]
    have htook : (st.server.log.append work.payload .done).2 = .ok receipt := by rw [hresult]
    rw [hlog]
    exact .took htook

theorem appendAnyway_log (client : Client) (work : InFlight c)
    : LogStep st.server.log st.appended (st.appendAnyway client work .done).server.log
        (st.appendAnyway client work .done).appended := by
  have hsame : (st.appendAnyway client work .done).server.log = (st.append client work .done).server.log
      ∧ (st.appendAnyway client work .done).appended = (st.append client work .done).appended := by
    unfold appendAnyway Daemon.append
    generalize st.server.log.append work.payload .done = appended
    rcases appended with ⟨log, e | receipt⟩ <;> exact ⟨rfl, rfl⟩
  rw [hsame.1, hsame.2]
  exact append_log st client work

theorem receive_log (s : IngestServer c d) (json : SerdeJson) (frame : Frame c)
    : (s.receive json frame).1.log = s.log := by
  unfold IngestServer.receive
  repeat' split
  all_goals rfl

theorem step_log {action : Action c} (h : action.Succeeds)
    : LogStep st.server.log st.appended (st.step w action).server.log (st.step w action).appended := by
  cases action with
  | ingest connection frame =>
    simp only [Daemon.step]
    split
    . exact .kept
    . have hlog := receive_log st.server w.json frame
      unfold Daemon.ingest
      generalize st.server.receive w.json frame = received at hlog
      rcases received with ⟨server, _ | ⟨event, wantsResponse⟩⟩
      . dsimp only at hlog ⊢
        rw [hlog]
        exact .kept
      . dsimp only at hlog ⊢
        rw [h.1, ← hlog]
        exact append_log { st with server } _ _
  | collect record io =>
    simp only [Daemon.step]
    split
    . exact .kept
    . rw [Daemon.collect, h.1]
      exact append_log st _ _
  | emit atShutdown io =>
    simp only [Daemon.step]
    split
    . exact .kept
    . unfold Daemon.emit
      dsimp only
      split
      . exact .kept
      . rw [h.1]
        exact appendAnyway_log { st with server := { st.server with drops := st.server.drops.take.1 } } _ _
  | commit client =>
    simp only [Daemon.step]
    split
    . exact .kept
    . exact .kept
  | project client =>
    simp only [Daemon.step]
    split
    . exact .kept
    . exact .kept
  | abort client => exact .kept
  | flush outcome => exact .kept

theorem append_audit (client : Client) (work : InFlight c) (io : AppendIo)
    : (st.append client work io).server.audit = st.server.audit := by
  unfold Daemon.append
  split <;> rfl

theorem appendAnyway_audit (client : Client) (work : InFlight c) (io : AppendIo)
    : (st.appendAnyway client work io).server.audit = st.server.audit := by
  unfold appendAnyway
  split <;> rfl

theorem step_audit {action : Action c} (h : action.Succeeds) (hwill : st.WillCommit)
    : AuditStep st.server.audit (st.step w action).server.audit := by
  cases action with
  | ingest connection frame =>
    simp only [Daemon.step]
    split
    . exact .kept
    . have haudit := receive_audit st.server w.json frame
      unfold Daemon.ingest
      generalize st.server.receive w.json frame = received at haudit
      rcases received with ⟨server, _ | ⟨event, wantsResponse⟩⟩
      . dsimp only at haudit ⊢
        rw [haudit]
        exact .kept
      . dsimp only at haudit ⊢
        rw [append_audit, haudit]
        exact .kept
  | collect record io =>
    simp only [Daemon.step]
    split
    . exact .kept
    . rw [Daemon.collect, append_audit]
      exact .kept
  | emit atShutdown io =>
    simp only [Daemon.step]
    split
    . exact .kept
    . unfold Daemon.emit
      dsimp only
      split
      . exact .kept
      . rw [appendAnyway_audit]
        exact .kept
  | commit client =>
    simp only [Daemon.step]
    split
    . next work hwork =>
      rw [commit_audit]
      exact .called (.observe work.kind work.payload work.nowUs work.auditIo) (hwill client work hwork)
    . exact .kept
  | project client =>
    simp only [Daemon.step]
    split
    . exact .kept
    . exact .kept
  | abort client => exact .kept
  | flush outcome => exact .called (.flush outcome) h

variable {st}

theorem WillCommit.congr {st' : Daemon c d} (h : st.WillCommit) (hsame : st'.inflight = st.inflight)
    : st'.WillCommit := by
  unfold WillCommit
  rw [hsame]
  exact h

theorem WillCommit.hold (h : st.WillCommit) {client : Client} {work : InFlight c}
    (hwork : work.auditIo = .done) (ticket : Option Nat) : (st.hold client work ticket).WillCommit := by
  intro client' work' hwork'
  rcases held_update hwork' with ⟨_, hnew⟩ | hold
  . cases hnew
    exact hwork
  . exact h client' work' hold

theorem WillCommit.append (h : st.WillCommit) {client : Client} {work : InFlight c}
    (hwork : work.auditIo = .done) (io : AppendIo) : (st.append client work io).WillCommit := by
  unfold Daemon.append
  split
  . exact h.congr rfl
  . apply WillCommit.hold _ hwork
    exact h.congr rfl

theorem WillCommit.appendAnyway (h : st.WillCommit) {client : Client} {work : InFlight c}
    (hwork : work.auditIo = .done) (io : AppendIo) : (st.appendAnyway client work io).WillCommit := by
  unfold Daemon.appendAnyway
  split
  . apply WillCommit.hold _ hwork
    exact h.congr rfl
  . apply WillCommit.hold _ hwork
    exact h.congr rfl

theorem WillCommit.drop (h : st.WillCommit) {st' : Daemon c d} {client : Client}
    (hinflight : st'.inflight = Function.update st.inflight client none) : st'.WillCommit := by
  intro client' work' hwork'
  rw [hinflight] at hwork'
  rcases held_update hwork' with ⟨_, hnone⟩ | hold
  . contradiction
  . exact h client' work' hold

theorem WillCommit.step (h : st.WillCommit) {action : Action c} (hsucceeds : action.Succeeds)
    : (st.step w action).WillCommit := by
  cases action with
  | ingest connection frame =>
    simp only [Daemon.step]
    split
    . exact h
    . unfold Daemon.ingest
      split
      . exact h.congr rfl
      . apply WillCommit.append _ hsucceeds.2
        exact h.congr rfl
  | collect record io =>
    simp only [Daemon.step]
    split
    . exact h
    . exact h.append hsucceeds.2 _
  | emit atShutdown io =>
    simp only [Daemon.step]
    split
    . exact h
    . unfold Daemon.emit
      dsimp only
      split
      . exact h.congr rfl
      . apply WillCommit.appendAnyway _ hsucceeds.2
        exact h.congr rfl
  | commit client =>
    simp only [Daemon.step]
    split
    . exact h.drop rfl
    . exact h
  | project client =>
    simp only [Daemon.step]
    split
    . exact h.congr rfl
    . exact h
  | abort client => exact h.drop rfl
  | flush outcome => exact h.congr rfl

theorem LogStep.preserved {log log' : SegmentLog} {appended appended' evicted : List (List UInt8)}
    {segs : List Storage.Segment} (h : LogStep log appended log' appended') (htracks : Tracks log segs)
    (hmax : log.config.maxRecordBytes < 256 ^ RECORD_HEADER_BYTES)
    (hpreserved : Preserved appended evicted segs)
    : ∃ segs', Tracks log' segs' ∧ log'.config = log.config ∧ Preserved appended' evicted segs' := by
  cases h with
  | kept => exact ⟨segs, htracks, rfl, hpreserved⟩
  | @refused data e hrefused =>
    by_cases hadmits : log.Admits data
    . rcases htracks.landing hadmits with ⟨l₁, older, last, a, hlanding⟩
      rw [hlanding.result.1] at hrefused
      contradiction
    . rcases SegmentLog.append_rejected hadmits .done with ⟨e, happend⟩
      rw [happend]
      exact ⟨segs, htracks, rfl, hpreserved⟩
  | @took data receipt htook =>
    by_cases hadmits : log.Admits data
    . rcases htracks.landing hadmits with ⟨l₁, older, last, a, hlanding⟩
      have heq : evidenceOf (older ++ [last]) = evidenceOf segs := by
        rcases hlanding.prepared with ⟨_, _, hsegs⟩ | ⟨_, _, hlast, hclosing⟩
        . rw [hsegs]
        . rw [← evidenceOf_of_contents hclosing.contents, hlast]
          simp [evidenceOf, freshSegment]
      exact ⟨_, hlanding.appended, hlanding.result.2.2.2.1,
        (hpreserved.congr heq).push (hadmits.1.trans_lt hmax)⟩
    . rcases SegmentLog.append_rejected hadmits .done with ⟨e, happend⟩
      rw [happend] at htook
      contradiction

theorem AuditStep.resumed (hc : c.Lawful) {audit audit' : AuditChainWriter c}
    {audited : List Audit.Segment} (h : AuditStep audit audit') (hresumed : audit.Resumed audited)
    : ∃ audited', audit'.Resumed audited' := by
  cases h with
  | kept => exact ⟨audited, hresumed⟩
  | called call hdone => exact (Audit.Process.refines_call hc hresumed hdone).resumed

end Daemon

theorem IngestServer.new_of_stored {dir : DataDir c} {audited : List Audit.Segment}
    (h : Stored dir.segments audited) (logConfig : Storage.Config) (signer : SigningKey)
    (auditRecordsPerSegment : Nat) (detection : d.State)
    : ∃ server, IngestServer.new logConfig dir.evidence dir.segments signer auditRecordsPerSegment
          dir.lifecycles detection = .ok server
        ∧ server.audit.Resumed audited := by
  rcases AuditChainWriter.Resumed.open h "tnt_default" signer with ⟨audit, hopen, _, _, hresumed⟩
  unfold IngestServer.new
  rw [hopen]
  exact ⟨_, rfl, hresumed.withMaxRecordsPerSegment auditRecordsPerSegment⟩

namespace Installation

-- Every file operation succeeds, and no record is too long for its header.
def Action.Succeeds : Action c d → Prop
  | .start logConfig _ _ _ => logConfig.maxRecordBytes < 256 ^ RECORD_HEADER_BYTES
  | .task action => action.Succeeds
  | .evict removes => removes = true
  | .stop io removes => io = .done ∧ removes = true
  | .kill => True

def Chained : Installation c d → Prop
  | .up daemon _ => daemon.Inv 0
  | .down dir appended ledger _ => Linked dir.segments appended ledger

inductive Sound : Installation c d → Prop
  | up {daemon : Daemon c d} {evicted : List (List UInt8)} {segs : List Storage.Segment}
    {audited : List Audit.Segment} (htracks : Tracks daemon.server.log segs)
    (hmax : daemon.server.log.config.maxRecordBytes < 256 ^ RECORD_HEADER_BYTES)
    (hpreserved : Preserved daemon.appended evicted segs) (hresumed : daemon.server.audit.Resumed audited)
    (hwill : daemon.WillCommit) : Sound (.up daemon evicted)
  | down {dir : DataDir c} {appended evicted : List (List UInt8)} {ledger : List Committed}
    {segs : List Storage.Segment} {audited : List Audit.Segment} (hholds : Holds dir.evidence segs)
    (hpreserved : Preserved appended evicted segs) (hstored : Stored dir.segments audited)
    : Sound (.down dir appended ledger evicted)

variable {st : Installation c d}

theorem Chained.step (hc : c.Lawful) (h : st.Chained) (w : Writers) (action : Action c d)
    : (st.step w action).Chained := by
  cases st with
  | up daemon evicted =>
    cases action with
    | start => exact h
    | task action => exact Daemon.Inv.step hc h w action
    | evict removes =>
      unfold Installation.step evictOldest
      dsimp only
      split <;> exact Daemon.Inv.congr h rfl
    | stop io removes => exact Daemon.Inv.linked h
    | kill => exact Daemon.Inv.linked h
  | down dir appended ledger evicted =>
    cases action with
    | start logConfig signer auditRecordsPerSegment detection =>
      unfold Installation.step boot
      dsimp only
      split
      . exact h
      . next server hnew => exact Linked.resume hnew h
    | _ => exact h

theorem evictOldest_sound {daemon : Daemon c d} {evicted : List (List UInt8)}
    {segs : List Storage.Segment} {audited : List Audit.Segment} (htracks : Tracks daemon.server.log segs)
    (hmax : daemon.server.log.config.maxRecordBytes < 256 ^ RECORD_HEADER_BYTES)
    (hpreserved : Preserved daemon.appended evicted segs) (hresumed : daemon.server.audit.Resumed audited)
    (hwill : daemon.WillCommit) : (evictOldest daemon evicted true).Sound := by
  unfold evictOldest
  dsimp only
  rcases htracks.evictOldestClosed with ⟨hnone, _⟩ | ⟨older, seg, newer, rfl, hclosed, hevict, htracks'⟩
  . rw [hnone]
    exact .up htracks hmax hpreserved hresumed (hwill.congr rfl)
  . have hmem : seg ∈ older ++ seg :: newer := by simp
    have hpath : withExtension (wipPath seg.id) SEG_EXT = seg.path := by
      rw [withExtension_wipPath, Segment.path, hclosed]
      rfl
    have hread : readSegmentRecords daemon.server.log.files seg.path = .ok seg.records :=
      (htracks.holds.readSegmentRecords_eq_iff hmem).mpr (hpreserved.seg_short hmem)
    rw [hevict]
    dsimp only
    rw [hpath, hread]
    exact .up htracks' hmax hpreserved.evict hresumed (hwill.congr rfl)

theorem Sound.step (hc : c.Lawful) (h : st.Sound) (w : Writers) {action : Action c d}
    (hsucceeds : action.Succeeds) : (st.step w action).Sound := by
  cases h with
  | @up daemon evicted segs audited htracks hmax hpreserved hresumed hwill =>
    cases action with
    | start => exact .up htracks hmax hpreserved hresumed hwill
    | task action =>
      rcases (daemon.step_log w hsucceeds).preserved htracks hmax hpreserved
        with ⟨segs', htracks', hconfig, hpreserved'⟩
      rcases (daemon.step_audit w hsucceeds hwill).resumed hc hresumed with ⟨audited', hresumed'⟩
      rw [← hconfig] at hmax
      exact .up htracks' hmax hpreserved' hresumed' (hwill.step w hsucceeds)
    | evict removes =>
      cases hsucceeds
      exact evictOldest_sound htracks hmax hpreserved hresumed hwill
    | stop io removes =>
      rcases hsucceeds with ⟨rfl, rfl⟩
      rcases htracks.close with ⟨mid, hclosing, hholds⟩
      exact .down hholds (hpreserved.congr (evidenceOf_of_contents hclosing.contents)) hresumed.stored
    | kill => exact .down htracks.holds hpreserved hresumed.stored
  | @down dir appended evicted ledger segs audited hholds hpreserved hstored =>
    cases action with
    | start logConfig signer auditRecordsPerSegment detection =>
      rcases IngestServer.new_of_stored hstored logConfig signer auditRecordsPerSegment detection
        with ⟨server, hnew, hresumed⟩
      rcases IngestServer.new_eq_ok hnew with ⟨_, _, _, hlog, _⟩
      have htracks : Tracks server.log (segs.map Storage.Segment.recovered) := by
        rw [hlog]
        exact hholds.open_tracks logConfig
      have hmax : server.log.config.maxRecordBytes < 256 ^ RECORD_HEADER_BYTES := by
        rw [hlog]
        exact hsucceeds
      unfold Installation.step boot
      dsimp only
      rw [hnew]
      apply Sound.up htracks hmax (hpreserved.congr (evidenceOf_of_contents (recovered_contents segs)))
        hresumed
      intro client work hwork
      contradiction
    | _ => exact .down hholds hpreserved hstored

theorem chained_empty (lifecycles : DynStore) : (empty lifecycles : Installation c d).Chained := by
  constructor
  . exact List.Sublist.refl _
  . exact Tickets.Inv.start
  . simp

theorem sound_empty (lifecycles : DynStore) : (empty lifecycles : Installation c d).Sound := by
  apply Sound.down holds_empty .nil
  exact (⟨.nil, trivial, trivial⟩ : Stored (⟨∅⟩ : SegmentStore c) [])

structure Durable (st : Installation c d) : Prop where
  -- The daemon can be started.
  starts : ∀ logConfig signer auditRecordsPerSegment (detection : d.State), ∃ server,
    IngestServer.new logConfig st.dataDir.evidence st.dataDir.segments signer auditRecordsPerSegment
      st.dataDir.lifecycles detection = .ok server
  verifies : ∃ report, st.dataDir.segments.verifyAll = .ok report
  -- The evidence on disk is what was appended, in its order, but for what was evicted, and every event of
  -- the chain on disk has a piece of evidence of its own.
  evidenced : ∃ records, readAll st.dataDir.evidence st.active = .ok records
    ∧ records.Sublist st.appended ∧ st.appended.Perm (records ++ st.evicted)
    ∧ (eventCommitments st.dataDir.segments : Multiset Hash)
      ≤ (records ++ st.evicted).map (payloadCommitment c)

theorem Chained.eventCommitments_le (h : st.Chained)
    : (eventCommitments st.dataDir.segments : Multiset Hash) ≤ st.appended.map (payloadCommitment c) := by
  cases st with
  | up daemon evicted => exact (Daemon.Inv.linked h).eventCommitments_le
  | down dir appended ledger evicted => exact Linked.eventCommitments_le h

theorem Sound.durable (h : st.Sound) (hchained : st.Chained) : st.Durable := by
  have hstored : ∃ audited, Stored st.dataDir.segments audited := by
    cases h with
    | up _ _ _ hresumed => exact ⟨_, hresumed.stored⟩
    | down _ _ hstored => exact ⟨_, hstored⟩
  have hkept : ∃ segs, Holds st.dataDir.evidence segs ∧ Preserved st.appended st.evicted segs := by
    cases h with
    | up htracks _ hpreserved => exact ⟨_, htracks.holds, hpreserved⟩
    | down hholds hpreserved => exact ⟨_, hholds, hpreserved⟩
  rcases hstored with ⟨audited, hstored⟩
  rcases hkept with ⟨segs, hholds, hpreserved⟩
  constructor
  . intro logConfig signer auditRecordsPerSegment detection
    rcases IngestServer.new_of_stored hstored logConfig signer auditRecordsPerSegment detection
      with ⟨server, hnew, _⟩
    exact ⟨server, hnew⟩
  . exact ⟨_, (SegmentStore.verifyAll_eq_ok_iff _ _).mpr ⟨audited, hstored.reads, hstored.continuous, rfl⟩⟩
  . refine ⟨_, hpreserved.readAll_eq hholds _, hpreserved.sublist, hpreserved.perm, ?_⟩
    have hperm := Multiset.coe_eq_coe.mpr (hpreserved.perm.map (payloadCommitment c))
    rw [← hperm]
    exact hchained.eventCommitments_le

/--
However often an installation is started, stopped and killed, and however its tasks take turns in between:
as long as its file operations succeed it can be started again, its audit chain verifies, its evidence can
be read and is what was appended but for what was evicted, and no two events of the chain share their
evidence.
-/
theorem durable_of_succeeds (hc : c.Lawful) (lifecycles : DynStore) (w : Writers)
    {actions : List (Action c d)} (hsucceeds : ∀ action ∈ actions, action.Succeeds)
    : Run.Always (step w) Durable (.empty lifecycles) actions := by
  have hchained : Run.Always (step w) Chained (.empty lifecycles : Installation c d) actions := by
    apply Run.always_of_step actions (chained_empty lifecycles)
    intro st action h
    exact h.step hc w action
  have hsound : Run.Always (step w) Sound (.empty lifecycles : Installation c d) actions := by
    apply Run.always_of_guarded (sound_empty lifecycles)
    . intro st action h hsucceeds
      exact h.step hc w hsucceeds
    . intro pre action hpre
      exact hsucceeds action (hpre.subset (by simp))
  intro pre hpre
  exact (hsound pre hpre).durable (hchained pre hpre)

end Installation

section Instances

-- The first daemon is killed with an event that it has appended only, and the second one is stopped.
def killedOnce : List (Installation.Action Crates.toy Detection.none) :=
  [.start smallLog toyKey 1 (), .task (.ingest 1 (paymentFrame created 0)), .task (.commit (.connection 1)),
    .task (.ingest 1 (paymentFrame created 1)), .kill, .start smallLog toyKey 1000 (),
    .task (.ingest 2 (paymentFrame created 2)), .evict true, .task (.commit (.connection 2)),
    .task (.flush .done), .stop .done true]

theorem Installation.durable_of_succeeds_killedOnce
    : Run.Always (Installation.step toyWriters) Installation.Durable (.empty (DynStore.empty .sqlite))
        killedOnce := by
  apply Installation.durable_of_succeeds Crates.toy_lawful
  intro action haction
  simp only [killedOnce, List.mem_cons, List.not_mem_nil, or_false] at haction
  rcases haction with rfl | rfl | rfl | rfl | rfl | rfl | rfl | rfl | rfl | rfl | rfl
  all_goals
    simp [Installation.Action.Succeeds, Daemon.Action.Succeeds, paymentFrame, smallLog, AppendIo.done,
      RotateIo.done, RECORD_HEADER_BYTES]

end Instances

end Athar
