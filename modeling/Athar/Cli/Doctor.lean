import Athar.Audit.Tamper
import Athar.Cli.Impl

/-!
This module contains what `athar doctor` says about the audit chain. The daemon writes its segments to a
directory below the one that the health check verifies, so what is wrong with them does not come up.
-/

namespace Athar.Cli

open Audit

variable {c : Crates}

namespace DataDir

variable (d : DataDir c.Text)

-- What `athar audit verify` finds in the directory that the daemon writes to.
def verifySegments : Except PersistError VerifyReport :=
  d.openAndVerify segmentsRoot

/--
Whenever the segments of the daemon do not verify, the health check fails, whatever else it comes upon.
-/
def DoctorSound : Prop :=
  (∃ e, d.verifySegments = .error e) →
    ∀ (arg : String) (flags : List String) (s : Surroundings), cmdDoctor (arg :: flags) d s = 1

-- The audit directory does not verify as a segment store of its own.
def AuditFails : Prop :=
  d.exists auditRoot = true ∧ ∃ e, d.openAndVerify auditRoot = .error e

end DataDir

theorem cmdDoctor_eq_one_iff (arg : String) (flags : List String) (d : DataDir c.Text) (s : Surroundings)
    : cmdDoctor (arg :: flags) d s = 1
        ↔ ∃ line ∈ Doctor.report d s ((arg :: flags).contains "--deep"), line.failed = true := by
  unfold cmdDoctor
  dsimp only
  split
  . next hnone =>
    rw [List.countP_eq_zero] at hnone
    constructor
    . intro h
      contradiction
    . rintro ⟨line, hline, hfailed⟩
      exact absurd hfailed (hnone line hline)
  . next hsome =>
    constructor
    . intro _
      exact List.countP_pos_iff.mp (Nat.pos_of_ne_zero hsome)
    . intro _
      rfl

theorem checkAudit_failed_iff (d : DataDir c.Text)
    : (∃ line ∈ Doctor.checkAudit d, line.failed = true) ↔ d.AuditFails := by
  unfold Doctor.checkAudit DataDir.AuditFails DataDir.openAndVerify
  cases hexists : d.exists auditRoot with
  | false => simp [Line.failed]
  | true =>
    cases hopen : d.openStore auditRoot with
    | error e => simp [Line.failed, bind, Except.bind]
    | ok =>
      cases hverify : d.verifyAll auditRoot with
      | error e => simp [Line.failed, bind, Except.bind]
      | ok report => simp [Line.failed, bind, Except.bind]

-- Nothing but the audit chain is wrong.
def healthy : Surroundings := ⟨true, true, .valid, "127.0.0.1:11223", true, .complete⟩

theorem checkDb_ok (d : DataDir c.Text) (path : List String) (name missing : String) {line : Line}
    (hline : line ∈ Doctor.checkDb d path name missing true) : line.failed = false := by
  unfold Doctor.checkDb at hline
  split at hline
  . rw [List.mem_singleton.mp hline]
    rfl
  . rw [List.mem_singleton.mp hline]
    rfl

theorem failed_of_healthy (d : DataDir c.Text) (deep : Bool) {line : Line}
    (hline : line ∈ Doctor.report d healthy deep) (hfailed : line.failed = true)
    : d.exists [] = false ∨ line ∈ Doctor.checkAudit d := by
  unfold Doctor.report at hline
  simp only [List.mem_append, List.mem_singleton] at hline
  rcases hline with (((((rfl | hline) | hline) | hline) | hline) | hline) | hline
  . left
    simpa [Line.failed] using hfailed
  . exact .inr hline
  . rw [checkDb_ok d _ _ _ hline] at hfailed
    contradiction
  . rw [checkDb_ok d _ _ _ hline] at hfailed
    contradiction
  . unfold Doctor.checkPolicies at hline
    split at hline
    . rw [List.mem_singleton.mp hline] at hfailed
      contradiction
    . rw [List.mem_singleton.mp hline] at hfailed
      contradiction
  . rw [List.mem_singleton.mp hline] at hfailed
    contradiction
  . unfold Doctor.checkStatus at hline
    split at hline
    . contradiction
    . rw [List.mem_singleton.mp hline] at hfailed
      contradiction

namespace DataDir

variable (d : DataDir c.Text)

theorem exists_root {path : List String} (h : path ∈ d.nodes) : d.exists [] = true := by
  induction path using List.reverseRecOn with
  | nil => exact AList.lookup_isSome.mpr h
  | append_singleton path name ih =>
    have hparent := d.parents path name h
    apply ih
    rw [← AList.lookup_isSome, hparent]
    rfl

theorem verifyAll_of_list_nil {root : List String} (h : d.list root = [])
    : d.verifyAll root = .ok ⟨0, 0⟩ := by
  unfold verifyAll
  rw [h]
  rfl

theorem openStore_of_not_isFile {root : List String} (h : ∀ path, path <+: root → d.isFile path = false)
    : d.openStore root = .ok () := by
  unfold openStore
  rw [if_neg]
  intro hany
  rcases List.any_eq_true.mp hany with ⟨path, hpath, hfile⟩
  rw [h path ((List.mem_inits path root).mp hpath)] at hfile
  contradiction

-- Where there is no data directory, the store of the daemon is created and empty.
theorem verifySegments_of_missing (h : d.exists [] = false) : d.verifySegments = .ok ⟨0, 0⟩ := by
  have hnone : ∀ path, d.nodes.lookup path = none := by
    intro path
    rw [AList.lookup_eq_none]
    intro hmem
    rw [d.exists_root hmem] at h
    contradiction
  have hopen : d.openStore segmentsRoot = .ok () := by
    apply d.openStore_of_not_isFile
    intro path _
    unfold isFile
    rw [hnone path]
  have hlist : d.list segmentsRoot = [] := by
    have hkeys : d.nodes.keys = [] := by
      rw [List.eq_nil_iff_forall_not_mem]
      intro path hpath
      exact AList.lookup_eq_none.mp (hnone path) hpath
    unfold list
    rw [hkeys]
    rfl
  unfold verifySegments openAndVerify
  rw [hopen, d.verifyAll_of_list_nil hlist]
  rfl

end DataDir

/--
The health check stands for the segments of the daemon only where these verify, or where the audit directory
does not verify as a segment store itself.
-/
theorem doctor_sound_iff (d : DataDir c.Text)
    : d.DoctorSound ↔ (∃ report, d.verifySegments = .ok report) ∨ d.AuditFails := by
  constructor
  . intro h
    cases hverify : d.verifySegments with
    | ok report => exact .inl ⟨report, rfl⟩
    | error e =>
      right
      rcases (cmdDoctor_eq_one_iff "" [] d healthy).mp (h ⟨e, hverify⟩ "" [] healthy) with
        ⟨line, hline, hfailed⟩
      rcases failed_of_healthy d _ hline hfailed with hmissing | haudit
      . rw [d.verifySegments_of_missing hmissing] at hverify
        contradiction
      . exact (checkAudit_failed_iff d).mp ⟨line, haudit, hfailed⟩
  . rintro (⟨report, hok⟩ | hfails) ⟨e, herror⟩ arg flags s
    . rw [hok] at herror
      contradiction
    . rcases (checkAudit_failed_iff d).mpr hfails with ⟨line, hline, hfailed⟩
      rw [cmdDoctor_eq_one_iff]
      refine ⟨line, ?_, hfailed⟩
      unfold Doctor.report
      simp [hline]

-- The audit chain of a data directory, as `IngestServer::new` lays it out.
def layout (store : SegmentStore c) (key : c.Text) : List ((_ : List String) × Node c.Text) :=
  [⟨[], .dir⟩, ⟨auditRoot, .dir⟩, ⟨auditRoot ++ ["keys"], .dir⟩,
    ⟨auditRoot ++ ["keys", "segment.key"], .file key⟩, ⟨segmentsRoot, .dir⟩]
      ++ store.files.entries.map (fun e => ⟨segmentsRoot ++ [e.1], .file e.2⟩)

-- What is there without any segment.
def layoutPaths : List (List String) :=
  [[], auditRoot, auditRoot ++ ["keys"], auditRoot ++ ["keys", "segment.key"], segmentsRoot]

theorem keys_layout (store : SegmentStore c) (key : c.Text)
    : (layout store key).keys = layoutPaths ++ store.files.keys.map (fun name => segmentsRoot ++ [name]) := by
  unfold layout AList.keys List.keys layoutPaths
  rw [List.map_append, List.map_map, List.map_map]
  rfl

theorem nodupKeys_layout (store : SegmentStore c) (key : c.Text) : (layout store key).NodupKeys := by
  have hdirs : layoutPaths.Nodup := by decide
  have hfiles : (store.files.keys.map (fun name => segmentsRoot ++ [name])).Nodup := by
    apply List.Nodup.map _ store.files.nodupKeys
    intro name name' h
    simpa using h
  unfold List.NodupKeys
  rw [keys_layout, List.nodup_append]
  refine ⟨hdirs, hfiles, ?_⟩
  rintro path hpath _ hfile rfl
  rcases List.mem_map.mp hfile with ⟨name, _, rfl⟩
  simp [layoutPaths, auditRoot, segmentsRoot] at hpath

theorem parents_layout (store : SegmentStore c) (key : c.Text) (path : List String) (name : String)
    (h : path ++ [name] ∈ (layout store key).keys) : (layout store key).dlookup path = some .dir := by
  rw [keys_layout, List.mem_append, List.mem_map] at h
  rcases h with hdir | ⟨name', _, hfile⟩
  . have hparents : ∀ p ∈ layoutPaths, p = [] ∨ p.dropLast ∈ [[], auditRoot, auditRoot ++ ["keys"]] := by
      decide
    rcases hparents _ hdir with hnil | hparent
    . simp at hnil
    . rw [List.dropLast_concat] at hparent
      simp only [List.mem_cons, List.not_mem_nil, or_false] at hparent
      rcases hparent with rfl | rfl | rfl
      . rfl
      . rfl
      . rfl
  . rw [← (List.append_inj' hfile rfl).1]
    rfl

def DataDir.ofStore (store : SegmentStore c) (key : c.Text) : DataDir c.Text where
  nodes := ⟨layout store key, nodupKeys_layout store key⟩
  parents := parents_layout store key

namespace DataDir

variable (store : SegmentStore c) (key : c.Text)

theorem keys_ofStore
    : (ofStore store key).nodes.keys
        = layoutPaths ++ store.files.keys.map (fun name => segmentsRoot ++ [name]) :=
  keys_layout store key

theorem list_ofStore : (ofStore store key).list segmentsRoot = store.list := by
  unfold DataDir.list SegmentStore.list
  rw [keys_ofStore, List.filterMap_append, List.filterMap_map]
  rfl

theorem read_ofStore (id : Nat) : ((ofStore store key).storeAt segmentsRoot).read id = store.read id := by
  have hfiles : (ofStore store key).nodes.entries.filterMap (fileIn segmentsRoot) = store.files.entries := by
    unfold ofStore layout
    rw [List.filterMap_append, List.filterMap_map]
    have hsame : fileIn (c := c) segmentsRoot ∘ (fun e => ⟨segmentsRoot ++ [e.1], .file e.2⟩) = some := by
      funext e
      rfl
    rw [hsame, List.filterMap_some]
    rfl
  unfold SegmentStore.read storeAt
  rw [hfiles, AList.lookup_to_alist]
  rfl

/--
The daemon writes its segments where `verifySegments` looks.
-/
theorem verifySegments_ofStore : (ofStore store key).verifySegments = store.verifyAll := by
  have hopen : (ofStore store key).openStore segmentsRoot = .ok () := by
    rfl
  have hnext : ((ofStore store key).storeAt segmentsRoot).verifyNext = store.verifyNext := by
    funext state id
    unfold SegmentStore.verifyNext
    rw [read_ofStore]
  unfold verifySegments openAndVerify verifyAll SegmentStore.verifyAll
  rw [hopen, list_ofStore, hnext]
  rfl

theorem openAndVerify_auditRoot : (ofStore store key).openAndVerify auditRoot = .ok ⟨0, 0⟩ := by
  have hopen : (ofStore store key).openStore auditRoot = .ok () := by
    rfl
  have hlist : (ofStore store key).list auditRoot = [] := by
    have hdirs : layoutPaths.filterMap (fun path => (nameIn auditRoot path).bind SegmentStore.idOf) = [] := by
      decide
    unfold DataDir.list
    rw [keys_ofStore, List.filterMap_append, List.filterMap_map, hdirs]
    simp [Function.comp_def, nameIn, auditRoot, segmentsRoot]
  unfold openAndVerify
  rw [hopen, verifyAll_of_list_nil _ hlist]
  rfl

end DataDir

theorem exists_ofStore_of_ne (store : SegmentStore c) (key : c.Text) {path : List String}
    (hdirs : path ∉ layoutPaths) (hfiles : ∀ name, segmentsRoot ++ [name] ≠ path)
    : (DataDir.ofStore store key).exists path = false := by
  have hnot : path ∉ (DataDir.ofStore store key).nodes := by
    intro hmem
    have hkeys : path ∈ (layout store key).keys := hmem
    rw [keys_layout, List.mem_append, List.mem_map] at hkeys
    rcases hkeys with hdir | ⟨name, _, hfile⟩
    . exact hdirs hdir
    . exact hfiles name hfile
  unfold DataDir.exists
  rw [AList.lookup_eq_none.mpr hnot]
  rfl

theorem report_ofStore (store : SegmentStore c) (key : c.Text) (s : Surroundings) (deep : Bool)
    : Doctor.report (DataDir.ofStore store key) s deep
        = [.check "data-dir exists" true, .check "audit segment store opens" true,
            .check "audit chain verifies to genesis" true, .warn "lifecycles DB not created yet",
            .warn "decisions DB not created yet", .info "policies.json not present"]
          ++ Doctor.checkReachable s ++ Doctor.checkStatus s deep := by
  have hlifecycles : (DataDir.ofStore store key).exists ["state", "lifecycles.db"] = false := by
    apply exists_ofStore_of_ne
    . decide
    . simp [segmentsRoot, auditRoot]
  have hdecisions : (DataDir.ofStore store key).exists ["state", "decisions.db"] = false := by
    apply exists_ofStore_of_ne
    . decide
    . simp [segmentsRoot, auditRoot]
  have hpolicies : (DataDir.ofStore store key).exists ["config", "policies.json"] = false := by
    apply exists_ofStore_of_ne
    . decide
    . simp [segmentsRoot, auditRoot]
  have haudit : Doctor.checkAudit (DataDir.ofStore store key)
      = [.check "audit segment store opens" true, .check "audit chain verifies to genesis" true] := by
    have hopen : (DataDir.ofStore store key).openStore auditRoot = .ok () := by
      rfl
    have hverify := DataDir.openAndVerify_auditRoot store key
    unfold DataDir.openAndVerify at hverify
    rw [hopen] at hverify
    have hverify' : (DataDir.ofStore store key).verifyAll auditRoot = .ok ⟨0, 0⟩ := hverify
    have hexists : (DataDir.ofStore store key).exists auditRoot = true := by
      rfl
    unfold Doctor.checkAudit
    rw [hexists, if_pos rfl, hopen]
    dsimp only
    rw [hverify']
  unfold Doctor.report Doctor.checkLifecycles Doctor.checkDecisions Doctor.checkDb Doctor.checkPolicies
  rw [haudit, hlifecycles, hdecisions, hpolicies]
  rfl

-- Whatever becomes of the segments, the health check says the same.
theorem cmdDoctor_ofStore (store store' : SegmentStore c) (key key' : c.Text) (rest : List String)
    (s : Surroundings)
    : cmdDoctor rest (DataDir.ofStore store key) s = cmdDoctor rest (DataDir.ofStore store' key') s := by
  unfold cmdDoctor
  rw [report_ofStore, report_ofStore]

theorem doctor_sound_ofStore_iff (store : SegmentStore c) (key : c.Text)
    : (DataDir.ofStore store key).DoctorSound ↔ ∃ report, store.verifyAll = .ok report := by
  have haudit : ¬(DataDir.ofStore store key).AuditFails := by
    rintro ⟨_, e, herror⟩
    rw [DataDir.openAndVerify_auditRoot] at herror
    contradiction
  rw [doctor_sound_iff, DataDir.verifySegments_ofStore, or_iff_left haudit]

-- The kind of the one record is not the one that was hashed.
def tamperedSegment : Segment :=
  { genuineSegment with
    records := genuineSegment.records.map (fun cr => { cr with record := { cr.record with kind := "other" } }) }

def tamperedStore : SegmentStore Crates.toy :=
  ⟨genuineStore.files.insert (SegmentStore.pathFor 0) (some tamperedSegment)⟩

-- The text of the key file does not matter.
def keyText : Crates.toy.Text := (none : Option Segment)

def tamperedDir : DataDir Crates.toy.Text := .ofStore tamperedStore keyText

theorem tamperedDir_passes
    : toyHistory.process.store.read 0 = .ok genuineSegment
        ∧ tamperedDir.verifySegments = .error (.verify (.recordHashMismatch 0))
        ∧ cmdDoctor ["/var/lib/athar"] tamperedDir healthy = 0
        ∧ ¬tamperedDir.DoctorSound := by
  have htampered : tamperedStore.verifyAll = .error (.verify (.recordHashMismatch 0)) := by
    decide +kernel
  have hverify : tamperedDir.verifySegments = .error (.verify (.recordHashMismatch 0)) :=
    (DataDir.verifySegments_ofStore tamperedStore keyText).trans htampered
  have hreport := report_ofStore tamperedStore keyText healthy false
  have hpasses : cmdDoctor ["/var/lib/athar"] tamperedDir healthy = 0 := by
    have hdeep : ["/var/lib/athar"].contains "--deep" = false := by
      rfl
    unfold cmdDoctor tamperedDir
    dsimp only
    rw [hdeep, hreport]
    rfl
  refine ⟨by decide +kernel, hverify, hpasses, ?_⟩
  intro h
  have hfails := h ⟨_, hverify⟩ "/var/lib/athar" [] healthy
  rw [hpasses] at hfails
  exact Nat.zero_ne_one hfails

end Athar.Cli
