import Athar.Daemon.Impl
import Athar.Storage.Segments

/-!
This module contains an installation over its whole life: the data directory, and the daemon that is
started on it, is stopped or killed, and is started again.

A process is killed between two steps of its tasks, and the files keep what was written to them.
-/

namespace Athar

open Storage Audit

structure DataDir (c : Crates) where
  evidence : Storage.Dir
  segments : SegmentStore c
  lifecycles : DynStore

variable {c : Crates} {d : Detection}

variable (c d) in
inductive Installation.Action where
  -- The configuration, the signing key and the detection are those of this start.
  | start (logConfig : Storage.Config) (signer : SigningKey) (auditRecordsPerSegment : Nat)
    (detection : d.State)
  | task (action : Daemon.Action c)
  -- One round of the eviction driver's loop.
  | evict (removes : Bool)
  -- The end of `run`, when no task holds the evidence log any more.
  | stop (io : RotateIo) (removes : Bool)
  | kill

-- Beside the directory and the daemon stand the payloads that the log took in all sessions, the records
-- that the chain took, and the payloads that were evicted.
variable (c d) in
inductive Installation where
  | up (daemon : Daemon c d) (evicted : List (List UInt8))
  | down (dataDir : DataDir c) (appended : List (List UInt8)) (ledger : List Committed)
    (evicted : List (List UInt8))

def Daemon.dataDir (st : Daemon c d) : DataDir c :=
  ⟨st.server.log.files, st.server.audit.store, st.server.lifecycles⟩

-- A daemon that starts finds what the ones before it have written.
def Daemon.resume (server : IngestServer c d) (appended : List (List UInt8)) (ledger : List Committed)
    : Daemon c d :=
  { Daemon.start server with appended, ledger }

namespace Installation

def dataDir : Installation c d → DataDir c
  | .up daemon _ => daemon.dataDir
  | .down dataDir _ _ _ => dataDir

def active : Installation c d → Option Active
  | .up daemon _ => daemon.server.log.active
  | .down _ _ _ _ => none

def appended : Installation c d → List (List UInt8)
  | .up daemon _ => daemon.appended
  | .down _ appended _ _ => appended

def evicted : Installation c d → List (List UInt8)
  | .up _ evicted => evicted
  | .down _ _ _ evicted => evicted

-- The log is opened first, so that a start that fails has recovered its directory.
def boot (dir : DataDir c) (appended : List (List UInt8)) (ledger : List Committed)
    (evicted : List (List UInt8)) (logConfig : Storage.Config) (signer : SigningKey)
    (auditRecordsPerSegment : Nat) (detection : d.State) : Installation c d :=
  match IngestServer.new logConfig dir.evidence dir.segments signer auditRecordsPerSegment dir.lifecycles
      detection with
  | .error _ =>
    .down { dir with evidence := (SegmentLog.open logConfig dir.evidence).files } appended ledger evicted
  | .ok server => .up (.resume server appended ledger) evicted

def evictOldest (daemon : Daemon c d) (evicted : List (List UInt8)) (removes : Bool) : Installation c d :=
  let log := daemon.server.log
  match log.evictOldestClosed removes with
  | (log', .ok (some id)) =>
    let records := (readSegmentRecords log.files (withExtension (wipPath id) SEG_EXT)).toOption.getD []
    .up { daemon with server := { daemon.server with log := log' } } (evicted ++ records)
  | (log', _) => .up { daemon with server := { daemon.server with log := log' } } evicted

def step (w : Writers) : Installation c d → Action c d → Installation c d
  | .down dir appended ledger evicted, .start logConfig signer auditRecordsPerSegment detection =>
    boot dir appended ledger evicted logConfig signer auditRecordsPerSegment detection
  | .down dir appended ledger evicted, _ => .down dir appended ledger evicted
  | .up daemon evicted, .start _ _ _ _ => .up daemon evicted
  | .up daemon evicted, .task action => .up (daemon.step w action) evicted
  | .up daemon evicted, .evict removes => evictOldest daemon evicted removes
  | .up daemon evicted, .stop io removes =>
    .down { daemon.dataDir with evidence := (daemon.server.log.close io removes).1 } daemon.appended
      daemon.ledger evicted
  | .up daemon evicted, .kill => .down daemon.dataDir daemon.appended daemon.ledger evicted

-- The data directory before the first start.
def empty (lifecycles : DynStore) : Installation c d :=
  .down ⟨∅, ⟨∅⟩, lifecycles⟩ [] [] []

end Installation

end Athar
