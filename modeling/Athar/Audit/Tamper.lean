import Mathlib.Data.Set.Function
import Athar.Lib.Run
import Athar.Audit.Instance
import Athar.Audit.Process
import Athar.Audit.Lemmas.Record
import Athar.Audit.Lemmas.Writer

/-!
This module contains the tamper evidence of the segment directory. A history of the process records
which records it appended and which tips it signed. On a directory of any content that verifies,
segments that carry the public key of the process hold only records it appended. The verifier checks
a segment against the key the segment itself carries, so segments under other keys may hold anything.
-/

namespace Athar.Audit

variable (c : Crates)

structure History where
  process : Process c
  appended : List ChainedRecord
  signed : List (SigningKey × Hash)

variable {c}

namespace AuditChainWriter

def signedByClose (w : AuditChainWriter c) : List (SigningKey × Hash) :=
  if w.inner.records = [] then [] else [(w.signer, w.inner.tipHash)]

end AuditChainWriter

namespace Call

def appended (w : AuditChainWriter c) : Call c → List ChainedRecord
  | .observe kind payload nowUs _ => (w.push kind payload nowUs).inner.records.getLast?.toList
  | .closeSegment _ => []
  | .flush _ => []

def signed (w : AuditChainWriter c) : Call c → List (SigningKey × Hash)
  | .observe kind payload nowUs _ =>
    let pushed := w.push kind payload nowUs
    if w.maxRecordsPerSegment ≤ pushed.inner.records.length then pushed.signedByClose else []
  | .closeSegment _ => w.signedByClose
  | .flush _ => w.signedByClose

end Call

namespace History

def start : History c := ⟨.down ⟨∅⟩, [], []⟩

def step (h : History c) (action : Action c) : History c :=
  let process := h.process.step action
  match h.process, action with
  | .running w, .call call =>
    ⟨process, h.appended ++ call.appended w, h.signed ++ call.signed w⟩
  | _, _ => { h with process }

-- A hash a record may extend: genesis, or the hash of an appended record.
def Known (appended : List ChainedRecord) (hash : Hash) : Prop :=
  hash = GENESIS_PREV_HASH ∨ ∃ a ∈ appended, a.recordHash = hash

end History

structure ChainWriter.Vouched (appended : List ChainedRecord) (w : ChainWriter) : Prop where
  pending : ∀ cr ∈ w.records, cr ∈ appended
  tip : (w.records = [] ∧ w.tipHash = GENESIS_PREV_HASH) ∨ ∃ a ∈ appended, a.recordHash = w.tipHash

def Process.Vouched (appended : List ChainedRecord) : Process c → Prop
  | .running w => w.inner.Vouched appended
  | .down _ => True

def SegmentStore.Vouched (appended : List ChainedRecord) (s : SegmentStore c) : Prop :=
  ∀ id seg, s.read id = .ok seg → ∀ cr ∈ seg.records, cr ∈ appended

namespace History

-- Everything the process holds in memory, has on disk or has signed goes back to what it appended.
structure Vouched (h : History c) : Prop where
  prev : ∀ a ∈ h.appended, Known h.appended a.prevHash
  compute : ∀ a ∈ h.appended, recordHash c a.prevHash a.record = a.recordHash
  signed : ∀ s ∈ h.signed, ∃ a ∈ h.appended, a.recordHash = s.2
  disk : h.process.store.Vouched h.appended
  process : h.process.Vouched h.appended

end History

theorem ChainWriter.Vouched.mono {appended : List ChainedRecord} {w : ChainWriter}
    (h : w.Vouched appended) (new : List ChainedRecord) : w.Vouched (appended ++ new) := by
  constructor
  . intro cr hcr
    simp [h.pending cr hcr]
  . apply h.tip.imp_right
    rintro ⟨a, ha, hhash⟩
    exact ⟨a, by simp [ha], hhash⟩

theorem ChainWriter.Vouched.known_tip {appended : List ChainedRecord} {w : ChainWriter}
    (h : w.Vouched appended) : History.Known appended w.tipHash := by
  cases h.tip with
  | inl hgenesis => exact .inl hgenesis.2
  | inr hmem => exact .inr hmem

theorem History.Known.mono {appended : List ChainedRecord} {hash : Hash}
    (h : History.Known appended hash) (new : List ChainedRecord)
    : History.Known (appended ++ new) hash := by
  apply h.imp_right
  rintro ⟨a, ha, hhash⟩
  exact ⟨a, by simp [ha], hhash⟩

theorem ChainWriter.Vouched.append {appended : List ChainedRecord} {w : ChainWriter}
    (h : w.Vouched appended) (r : AuditRecord) {cr : ChainedRecord}
    (hlast : (w.append c r).1.records.getLast? = some cr)
    : (w.append c r).1.Vouched (appended ++ [cr]) ∧ cr.prevHash = w.tipHash
        ∧ recordHash c cr.prevHash cr.record = cr.recordHash := by
  rw [append_records, List.getLast?_concat, Option.some.injEq] at hlast
  subst hlast
  refine ⟨⟨?_, ?_⟩, rfl, rfl⟩
  . intro cr hcr
    rw [append_records, List.mem_append] at hcr
    rw [List.mem_append]
    exact hcr.imp_left (h.pending cr)
  . exact .inr ⟨_, List.mem_append_right _ (List.mem_singleton_self _), rfl⟩

theorem SegmentStore.read_write (hc : c.Lawful) (s : SegmentStore c) (seg : Segment)
    (outcome : WriteOutcome c.Text) {id : Nat} {found : Segment}
    (hread : (s.write seg outcome).1.read id = .ok found)
    : s.read id = .ok found ∨ found = seg := by
  by_cases hdone : outcome = .done
  . subst hdone
    by_cases hid : id = seg.segmentId
    . right
      rw [hid, read_write_done hc] at hread
      exact (Except.ok.inj hread).symm
    . left
      rw [read_write_done_of_ne s seg hid] at hread
      exact hread
  . left
    rw [read_write_of_ne_done s seg hdone] at hread
    exact hread

theorem AuditChainWriter.open_tip {store : SegmentStore c} {tenantId : String}
    {signer : SigningKey} {w : AuditChainWriter c}
    (h : AuditChainWriter.open store tenantId signer = .ok w)
    : w.store = store ∧ w.inner.records = []
        ∧ (w.inner.tipHash = GENESIS_PREV_HASH ∨ ∃ id seg cr, store.read id = .ok seg
          ∧ cr ∈ seg.records ∧ cr.recordHash = w.inner.tipHash) := by
  unfold AuditChainWriter.open at h
  cases hids : store.list.getLast? with
  | none =>
    simp only [hids, pure, Except.pure, bind, Except.bind, Except.ok.injEq] at h
    subst h
    exact ⟨rfl, rfl, .inl rfl⟩
  | some lastId =>
    cases hread : store.read lastId with
    | error e => simp [hids, hread, bind, Except.bind] at h
    | ok seg =>
      simp only [hids, hread, pure, Except.pure, bind, Except.bind, Except.ok.injEq] at h
      subst h
      refine ⟨rfl, rfl, ?_⟩
      cases hlast : seg.records.getLast? with
      | none => exact .inl (by simp [ChainWriter.fromTip])
      | some cr =>
        exact .inr ⟨lastId, seg, cr, hread, List.mem_of_getLast? hlast, by simp [ChainWriter.fromTip]⟩

namespace History.Vouched

theorem push {w : AuditChainWriter c} {appended : List ChainedRecord}
    {signed : List (SigningKey × Hash)} (h : Vouched ⟨.running w, appended, signed⟩)
    (kind : String) (payload : List UInt8) (nowUs : Int64)
    : Vouched ⟨.running (w.push kind payload nowUs),
        appended ++ (w.push kind payload nowUs).inner.records.getLast?.toList, signed⟩ := by
  have hinner : w.inner.Vouched appended := h.process
  have hlast := List.getLast?_eq_some_getLast (w.push_records_ne_nil kind payload nowUs)
  generalize (w.push kind payload nowUs).inner.records.getLast _ = cr at hlast
  rcases hinner.append (c := c) (w.recordOf kind payload nowUs) hlast with
    ⟨hvouched, hprev, hcompute⟩
  rw [hlast, Option.toList_some]
  constructor
  . intro a ha
    simp only [List.mem_append, List.mem_singleton] at ha
    cases ha with
    | inl hold => exact (h.prev a hold).mono _
    | inr hnew =>
      rw [hnew, hprev]
      exact hinner.known_tip.mono _
  . intro a ha
    simp only [List.mem_append, List.mem_singleton] at ha
    cases ha with
    | inl hold => exact h.compute a hold
    | inr hnew =>
      rw [hnew]
      exact hcompute
  . intro s hs
    rcases h.signed s hs with ⟨a, ha, hhash⟩
    exact ⟨a, by simp [ha], hhash⟩
  . intro id seg hread a ha
    simp [h.disk id seg hread a ha]
  . exact hvouched

theorem closeSegment (hc : c.Lawful) {w : AuditChainWriter c} {appended : List ChainedRecord}
    {signed : List (SigningKey × Hash)} (h : Vouched ⟨.running w, appended, signed⟩)
    (outcome : WriteOutcome c.Text)
    : Vouched ⟨.running (w.closeSegment outcome).1, appended, signed ++ w.signedByClose⟩ := by
  have hinner : w.inner.Vouched appended := h.process
  unfold AuditChainWriter.signedByClose
  by_cases hne : w.inner.records = []
  . rw [AuditChainWriter.closeSegment_of_nil hne, if_pos hne, List.append_nil]
    exact h
  . rcases AuditChainWriter.closeSegment_of_ne_nil hne outcome with ⟨last, hlast, heq⟩
    rw [if_neg hne, heq]
    constructor
    . exact h.prev
    . exact h.compute
    . intro s hs
      simp only [List.mem_append, List.mem_singleton] at hs
      cases hs with
      | inl hold => exact h.signed s hold
      | inr hnew =>
        rw [hnew]
        apply hinner.tip.resolve_left
        intro hnil
        exact hne hnil.1
    . intro id seg hread cr hcr
      cases SegmentStore.read_write hc w.store w.pendingSegment outcome hread with
      | inl hold => exact h.disk id seg hold cr hcr
      | inr hnew =>
        rw [hnew] at hcr
        exact hinner.pending cr hcr
    . constructor
      . intro cr hcr
        contradiction
      . exact .inr ⟨last, hinner.pending last (List.mem_of_getLast? hlast), rfl⟩

theorem call (hc : c.Lawful) {w : AuditChainWriter c} {appended : List ChainedRecord}
    {signed : List (SigningKey × Hash)} (h : Vouched ⟨.running w, appended, signed⟩)
    (request : Call c)
    : Vouched ⟨.running (request.apply w), appended ++ request.appended w,
        signed ++ request.signed w⟩ := by
  cases request with
  | observe kind payload nowUs outcome =>
    have hpush := h.push kind payload nowUs
    simp only [Call.apply, Call.appended, Call.signed, AuditChainWriter.observe_eq]
    by_cases hfull : w.maxRecordsPerSegment ≤ (w.push kind payload nowUs).inner.records.length
    . rw [if_pos hfull, if_pos hfull]
      exact hpush.closeSegment hc outcome
    . rw [if_neg hfull, if_neg hfull, List.append_nil]
      exact hpush
  | closeSegment outcome =>
    simp only [Call.apply, Call.appended, Call.signed, List.append_nil]
    exact h.closeSegment hc outcome
  | flush outcome =>
    simp only [Call.apply, Call.appended, Call.signed, List.append_nil]
    exact h.closeSegment hc outcome

theorem crash {h : History c} (hv : h.Vouched) : Vouched { h with process := .down h.process.store } :=
  ⟨hv.prev, hv.compute, hv.signed, hv.disk, trivial⟩

theorem «open» {h : History c} (hv : h.Vouched) (tenantId : String) (signer : SigningKey)
    (maxRecords : Option Nat)
    : Vouched { h with process := Process.open h.process.store tenantId signer maxRecords } := by
  unfold Process.open
  split
  . exact hv.crash
  . next w hopen =>
    rcases AuditChainWriter.open_tip hopen with ⟨hstore, hnil, htip⟩
    have hinner : w.inner.Vouched h.appended := by
      constructor
      . simp [hnil]
      . apply htip.imp
        . intro hgenesis
          exact ⟨hnil, hgenesis⟩
        . rintro ⟨id, seg, cr, hread, hcr, hhash⟩
          exact ⟨cr, hv.disk id seg hread cr hcr, hhash⟩
    have hdisk : w.store.Vouched h.appended := by
      rw [hstore]
      exact hv.disk
    split
    . exact ⟨hv.prev, hv.compute, hv.signed, hdisk, hinner⟩
    . exact ⟨hv.prev, hv.compute, hv.signed, hdisk, hinner⟩

theorem step (hc : c.Lawful) {h : History c} (hv : h.Vouched) (action : Action c)
    : (h.step action).Vouched := by
  rcases h with ⟨process, appended, signed⟩
  cases process with
  | running w =>
    cases action with
    | call request => exact hv.call hc request
    | crash => exact hv.crash
    | «open» tenantId signer maxRecords => exact hv.open tenantId signer maxRecords
  | down store =>
    cases action with
    | call request => exact hv
    | crash => exact hv.crash
    | «open» tenantId signer maxRecords => exact hv.open tenantId signer maxRecords

theorem run (hc : c.Lawful) (actions : List (Action c))
    : (Run.exec History.step History.start actions).Vouched := by
  have hstart : (History.start (c := c)).Vouched := by
    constructor
    . simp [History.start]
    . simp [History.start]
    . simp [History.start]
    . intro id seg hread
      simp [History.start, Process.store, SegmentStore.read] at hread
    . trivial
  have halways := Run.always_of_step (I := History.Vouched) actions hstart
    (fun _ action hv => hv.step hc action)
  exact halways.last

end History.Vouched

-- The bytes that the hash of a record is computed from.
def hashInput (cr : ChainedRecord) : List UInt8 :=
  cr.prevHash.toList ++ canonicalBytes cr.record

/--
What is assumed of the hash and of the signatures, for the records that the process appended and
those the directory holds: no two inputs collide, no input hashes to the genesis value, and what
verifies under the public key of the process is a tip it signed.
-/
structure Unforgeable (key : SigningKey) (h : History c) (segs : List Segment) : Prop where
  collisionFree : Set.InjOn c.blake3
    {input | ∃ cr ∈ h.appended ++ segs.flatMap (·.records), hashInput cr = input}
  genesisFree : ∀ cr ∈ segs.flatMap (·.records), c.blake3 (hashInput cr) ≠ GENESIS_PREV_HASH
  signedTips : ∀ seg ∈ segs, seg.signerPubkey = c.publicKey key → seg.SignedTip c →
    (key, seg.tip) ∈ h.signed

def History.Appended (h : History c) (r : AuditRecord) : Prop :=
  ∃ cr ∈ h.appended, cr.record = r

theorem History.Vouched.record_of_hash {h : History c} (hv : h.Vouched) {key : SigningKey}
    {segs : List Segment} (hunforgeable : Unforgeable key h segs) {a b : ChainedRecord}
    (ha : a ∈ segs.flatMap (·.records)) (hcompute : recordHash c a.prevHash a.record = a.recordHash)
    (hb : b ∈ h.appended) (hhash : a.recordHash = b.recordHash)
    : a.prevHash = b.prevHash ∧ canonicalBytes a.record = canonicalBytes b.record := by
  have hinput : hashInput a = hashInput b := by
    apply hunforgeable.collisionFree
    . exact ⟨a, List.mem_append_right _ ha, rfl⟩
    . exact ⟨b, List.mem_append_left _ hb, rfl⟩
    . have := hv.compute b hb
      rw [← hcompute, ← this] at hhash
      exact hhash
  exact hashInput_inj hinput

-- A segment under the key of the process holds only records that hash as appended ones do.
theorem History.Vouched.segment {h : History c} (hv : h.Vouched) {key : SigningKey}
    {segs : List Segment} (hunforgeable : Unforgeable key h segs) {seg : Segment} (hseg : seg ∈ segs)
    (hverify : verifySegment c seg = .ok ()) (hkey : seg.signerPubkey = c.publicKey key)
    : ∀ cr ∈ seg.records, cr.record.Short → h.Appended cr.record := by
  rcases (verifySegment_eq_ok_iff seg).mp hverify with ⟨⟨p, n, hne, hlinked⟩, hsigned⟩
  have hin : ∀ cr ∈ seg.records, cr ∈ segs.flatMap (·.records) := by
    intro cr hcr
    exact List.mem_flatMap.mpr ⟨seg, hseg, hcr⟩
  have hcompute : ∀ cr ∈ seg.records, recordHash c cr.prevHash cr.record = cr.recordHash := by
    intro cr hcr
    exact hlinked.compute_eq cr hcr
  have htip : ∃ b ∈ h.appended, b.recordHash = (chain c).tip p seg.records := by
    have := hv.signed _ (hunforgeable.signedTips seg hseg hkey hsigned)
    rw [Segment.tip_eq (c := c), HashChain.tip_eq_of_ne_nil _ p hne] at this
    exact this
  have hknown : ∀ a ∈ {a | a ∈ h.appended}, (chain c).prev a = GENESIS_PREV_HASH
      ∨ ∃ b ∈ {a | a ∈ h.appended}, (chain c).hash b = (chain c).prev a := hv.prev
  have hhash : ∀ a ∈ seg.records, ∃ b ∈ {a | a ∈ h.appended}, (chain c).hash b = (chain c).hash a := by
    apply hlinked.hash_mem_of_tip_mem hknown
    . intro cr hcr heq
      apply hunforgeable.genesisFree cr (hin cr hcr)
      rw [← heq]
      exact hcompute cr hcr
    . intro cr hcr b hb heq
      exact (hv.record_of_hash hunforgeable (hin cr hcr) (hcompute cr hcr) hb heq).1
    . intro _
      exact htip
  intro cr hcr hshort
  rcases hhash cr hcr with ⟨b, hb, heq⟩
  refine ⟨b, hb, ?_⟩
  have hbytes := (hv.record_of_hash hunforgeable (hin cr hcr) (hcompute cr hcr) hb heq.symm).2
  exact (canonicalBytes_inj hshort hbytes).symm

/--
On a directory of any content that verifies, every record is one that the process appended if and
only if this holds of the records the key of the process does not vouch for: those in segments that
carry another public key, and those with a field too long for its length prefix.
-/
theorem records_appended_iff (hc : c.Lawful) (actions : List (Action c)) (key : SigningKey)
    {s : SegmentStore c} {report : VerifyReport} (hverify : s.verifyAll = .ok report)
    {segs : List Segment} (hreads : s.Reads s.list segs)
    (hunforgeable : Unforgeable key (Run.exec History.step History.start actions) segs)
    : (∀ seg ∈ segs, ∀ cr ∈ seg.records,
          (Run.exec History.step History.start actions).Appended cr.record)
        ↔ ∀ seg ∈ segs, ∀ cr ∈ seg.records,
            seg.signerPubkey ≠ c.publicKey key ∨ ¬cr.record.Short →
              (Run.exec History.step History.start actions).Appended cr.record := by
  rcases (SegmentStore.verifyAll_eq_ok_iff s report).mp hverify with ⟨segs', hreads', hcont, _⟩
  have hsegs : segs' = segs := hreads'.unique hreads
  subst hsegs
  constructor
  . intro h seg hseg cr hcr _
    exact h seg hseg cr hcr
  . intro h seg hseg cr hcr
    by_cases hvouched : seg.signerPubkey = c.publicKey key ∧ cr.record.Short
    . have hv := History.Vouched.run hc actions
      exact hv.segment hunforgeable hseg (hcont.verifySegment_eq_ok seg hseg) hvouched.1 cr hcr
        hvouched.2
    . apply h seg hseg cr hcr
      rw [not_and_or] at hvouched
      exact hvouched

def toyHistory : History Crates.toy :=
  Run.exec History.step History.start
    [.open "tnt_default" toyKey (some 1), .call (.observe "event" [1] 0 .done)]

theorem unforgeable_toyHistory {segs : List Segment}
    (hcollision : ∀ a ∈ toyHistory.appended ++ segs.flatMap (·.records),
      ∀ b ∈ toyHistory.appended ++ segs.flatMap (·.records),
        Crates.toy.blake3 (hashInput a) = Crates.toy.blake3 (hashInput b) →
          hashInput a = hashInput b)
    (hgenesis : ∀ cr ∈ segs.flatMap (·.records),
      Crates.toy.blake3 (hashInput cr) ≠ GENESIS_PREV_HASH)
    (hsigned : ∀ seg ∈ segs, seg.signerPubkey = Crates.toy.publicKey toyKey →
      (toyKey, seg.tip) ∈ toyHistory.signed) : Unforgeable toyKey toyHistory segs where
  collisionFree := by
    rintro _ ⟨a, ha, rfl⟩ _ ⟨b, hb, rfl⟩ heq
    exact hcollision a ha b hb heq
  genesisFree := hgenesis
  signedTips seg hseg hkey _ := hsigned seg hseg hkey

def genuineSegment : Segment := segmentOf toyKey [1] GENESIS_PREV_HASH 0 0

def genuineStore : SegmentStore Crates.toy :=
  ⟨(∅ : Dir (Option Segment)).insert (SegmentStore.pathFor 0) (some genuineSegment)⟩

theorem records_appended_iff_genuineStore
    : (∀ seg ∈ [genuineSegment], ∀ cr ∈ seg.records, toyHistory.Appended cr.record)
        ↔ ∀ seg ∈ [genuineSegment], ∀ cr ∈ seg.records,
            seg.signerPubkey ≠ Crates.toy.publicKey toyKey ∨ ¬cr.record.Short →
              toyHistory.Appended cr.record :=
  have hverify : genuineStore.verifyAll = .ok ⟨1, 1⟩ := by decide +kernel
  have hreads : genuineStore.Reads genuineStore.list [genuineSegment] :=
    .cons (by decide +kernel) .nil
  have hunforgeable : Unforgeable toyKey toyHistory [genuineSegment] :=
    unforgeable_toyHistory (by decide +kernel) (by decide +kernel) (by decide +kernel)
  records_appended_iff Crates.toy_lawful _ toyKey hverify hreads hunforgeable

-- A segment that someone else wrote, with a key of their own.
def forgedSegment : Segment := segmentOf ⟨Vector.replicate 32 9⟩ [66] GENESIS_PREV_HASH 0 0

def forgedStore : SegmentStore Crates.toy :=
  ⟨(∅ : Dir (Option Segment)).insert (SegmentStore.pathFor 0) (some forgedSegment)⟩

theorem forgedStore_verifies
    : forgedStore.verifyAll = .ok ⟨1, 1⟩ ∧ forgedStore.Reads forgedStore.list [forgedSegment]
      ∧ Unforgeable toyKey toyHistory [forgedSegment]
      ∧ ¬∀ seg ∈ [forgedSegment], ∀ cr ∈ seg.records, toyHistory.Appended cr.record := by
  refine ⟨by decide +kernel, .cons (by decide +kernel) .nil, ?_, ?_⟩
  . apply unforgeable_toyHistory
    . decide +kernel
    . decide +kernel
    . decide +kernel
  . unfold History.Appended
    decide +kernel

end Athar.Audit
