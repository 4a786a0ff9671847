import Mathlib.Data.List.Nodup
import Athar.Lib.Run
import Athar.Spool.Held
import Athar.Spool.Instance

/-!
This module contains the retries of spool files. A file whose ingestion fails stays in the directory
and is ingested from its first line on by a later drain, so the lines that went through before the
failure are recorded twice. And a segment of the audit chain that cannot be written takes all its
commitments with it, also those of files that are deleted already. A deleted file is recorded exactly once
when neither happens to it.
-/

namespace Athar.Spool

open Storage Audit

variable {c : Crates} (json : SpoolJson)

-- No append to the evidence log leaves part of its record behind.
def Entry.Whole (entry : Entry c) : Prop :=
  ∀ lineNo, ¬(entry.ios lineNo).logIo.Tears

namespace ShimSpoolCollector

def start (files : Dir) (log : SegmentLog) (audit : AuditChainWriter c) : ShimSpoolCollector c where
  spoolDir := files
  stores := ⟨log, audit, [], [], []⟩

def visit (s : ShimSpoolCollector c) (entry : Entry c) : ShimSpoolCollector c :=
  (s.drainEntry json entry).1

def drainStep (s : ShimSpoolCollector c) (entries : List (Entry c)) : ShimSpoolCollector c :=
  (s.drain json entries).1

/--
The two stores hold what was ingested since `before`, and every line of a deleted file is there once: it has one
record in the evidence log and one commitment in the audit chain, on disk or pending.
-/
structure ExactlyOnce (files : Dir) (firstEvidence firstAudit : Nat) (before : Stores c String)
    (s : ShimSpoolCollector c) : Prop where
  held : Stores.Held json firstEvidence firstAudit before s.stores
  once : ∀ path bytes, files.lookup path = some bytes → s.spoolDir.lookup path = none →
    ∀ gap ∈ gapsOf json path bytes,
      s.stores.appended.count gap = 1 ∧ s.stores.chained.count gap = 1

-- The collector looks into the entry, and reads these bytes there.
def Opens (s : ShimSpoolCollector c) (entry : Entry c) (bytes : List UInt8) : Prop :=
  s.spoolDir.lookup entry.path = some bytes
    ∧ extension entry.path.toList = some "jsonl".toList ∧ readToString bytes ≠ none

-- The evidence log takes the first record of the file.
def Begins (s : ShimSpoolCollector c) (entry : Entry c) : Prop :=
  ∃ bytes gap, s.Opens entry bytes ∧ (gapsOf json entry.path bytes).head? = some gap
    ∧ s.stores.Accepts json gap (entry.ios gap.lineNo)

-- Both stores take all records of the file.
def Ingests (s : ShimSpoolCollector c) (entry : Entry c) : Prop :=
  ∃ bytes, s.Opens entry bytes
    ∧ Stores.TakesAll json entry.ios (gapsOf json entry.path bytes) s.stores

-- An attempt that begins a file comes before the one that ingests all of it.
def Retries (s : ShimSpoolCollector c) (entries : List (Entry c)) : Prop :=
  ∃ pre first post last, pre ++ first :: post ++ [last] <+: entries ∧ first.path = last.path
    ∧ Begins json (Run.exec (visit json) s pre) first
    ∧ Ingests json (Run.exec (visit json) s (pre ++ first :: post)) last

-- The ingestion of the entry comes to this record, with the stores as the records before it leave them.
def Reaches (s : ShimSpoolCollector c) (entry : Entry c) (gap : Gap String) (mid : Stores c String)
    : Prop :=
  ∃ bytes taken rest, s.Opens entry bytes ∧ gapsOf json entry.path bytes = taken ++ gap :: rest
    ∧ Stores.TakesAll json entry.ios taken s.stores
    ∧ mid = (Stores.ingestGaps json entry.ios taken s.stores).1

-- The commitment of a record has to write its segment and cannot.
def Fails (mid : Stores c String) (gap : Gap String) (io : RecordIo c) : Prop :=
  mid.Accepts json gap io ∧ ¬mid.audit.Commits io.auditIo

-- A segment cannot be written in which a commitment of a deleted file is pending.
def LosesDeleted (s : ShimSpoolCollector c) (entry : Entry c) : Prop :=
  ∃ gap mid, Reaches json s entry gap mid ∧ Fails json mid gap (entry.ios gap.lineNo)
    ∧ ∃ old ∈ mid.pending, s.spoolDir.lookup old.file = none

variable {json} {s : ShimSpoolCollector c} {entry : Entry c}

theorem drainStep_eq (s : ShimSpoolCollector c) (entries : List (Entry c))
    : s.drainStep json entries = Run.exec (visit json) s entries := by
  have hfold : ∀ acc : ShimSpoolCollector c × Nat,
      (entries.foldl
        (fun acc entry =>
          ((acc.1.drainEntry json entry).1, acc.2 + (acc.1.drainEntry json entry).2)) acc).1
        = Run.exec (visit json) acc.1 entries := by
    induction entries with
    | nil =>
      intro acc
      rfl
    | cons entry entries ih =>
      intro acc
      exact ih _
  exact hfold (s, 0)

theorem visit_of_not_opens (h : ∀ bytes, ¬s.Opens entry bytes) : s.visit json entry = s := by
  unfold visit drainEntry
  split
  . rfl
  . next bytes hlookup =>
    split
    . rfl
    . next hext =>
      have hread : readToString bytes = none := by
        by_contra hread
        exact h bytes ⟨hlookup, Classical.not_not.mp hext, hread⟩
      unfold Stores.ingestFile
      rw [hread]

theorem visit_of_opens {bytes : List UInt8} (h : s.Opens entry bytes)
    : s.visit json entry =
        match Stores.ingestGaps json entry.ios (gapsOf json entry.path bytes) s.stores with
        | (stores, .error _) => { s with stores }
        | (stores, .ok _) => ⟨s.spoolDir.erase entry.path, stores⟩ := by
  rcases h with ⟨hlookup, hext, hread⟩
  unfold visit drainEntry
  rw [hlookup]
  dsimp only
  rw [if_neg (Classical.not_not.mpr hext), Stores.ingestFile_eq json s.stores entry.path hread]
  generalize Stores.ingestGaps json entry.ios (gapsOf json entry.path bytes) s.stores = result
  rcases result with ⟨stores, e | n⟩
  . rfl
  . rfl

theorem visit_error {bytes : List UInt8} {stores : Stores c String} {e : SpoolError}
    (h : s.Opens entry bytes)
    (heq : Stores.ingestGaps json entry.ios (gapsOf json entry.path bytes) s.stores
      = (stores, .error e))
    : s.visit json entry = ⟨s.spoolDir, stores⟩ := by
  rw [visit_of_opens h, heq]

theorem visit_ok {bytes : List UInt8} {stores : Stores c String} {n : Nat}
    (h : s.Opens entry bytes)
    (heq : Stores.ingestGaps json entry.ios (gapsOf json entry.path bytes) s.stores
      = (stores, .ok n))
    : s.visit json entry = ⟨s.spoolDir.erase entry.path, stores⟩ := by
  rw [visit_of_opens h, heq]

-- What a visit can do to the directory and the stores.
inductive Visited (json : SpoolJson) (s : ShimSpoolCollector c) (entry : Entry c)
    : ShimSpoolCollector c → Prop
  | closed (hclosed : ∀ bytes, ¬s.Opens entry bytes) : Visited json s entry s
  | ingested {bytes : List UInt8} {log : SegmentLog} {audit : AuditChainWriter c}
    (hopens : s.Opens entry bytes)
    (htakes : Stores.TakesAll json entry.ios (gapsOf json entry.path bytes) s.stores)
    : Visited json s entry ⟨s.spoolDir.erase entry.path, log, audit,
        s.stores.appended ++ gapsOf json entry.path bytes,
        s.stores.committed ++ gapsOf json entry.path bytes,
        s.stores.chained ++ gapsOf json entry.path bytes⟩
  | refused {gap : Gap String} {mid : Stores c String} (hreaches : Reaches json s entry gap mid)
    (hrefused : ¬mid.Accepts json gap (entry.ios gap.lineNo))
    : Visited json s entry
        ⟨s.spoolDir, { mid with log := mid.logAfter json gap (entry.ios gap.lineNo) }⟩
  | uncommitted {gap : Gap String} {mid : Stores c String} {log : SegmentLog}
    {audit : AuditChainWriter c} (hreaches : Reaches json s entry gap mid)
    (hfails : Fails json mid gap (entry.ios gap.lineNo))
    : Visited json s entry
        ⟨s.spoolDir, log, audit, mid.appended ++ [gap], mid.committed, mid.unchain⟩

theorem visit_stores_eq {bytes : List UInt8} (h : s.Opens entry bytes)
    : (s.visit json entry).stores
        = (Stores.ingestGaps json entry.ios (gapsOf json entry.path bytes) s.stores).1 := by
  rw [visit_of_opens h]
  split
  . next heq => rw [heq]
  . next heq => rw [heq]

theorem visit_fails {bytes : List UInt8} (h : s.Opens entry bytes)
    (htakes : ¬Stores.TakesAll json entry.ios (gapsOf json entry.path bytes) s.stores)
    : (s.visit json entry).spoolDir = s.spoolDir := by
  rcases Stores.ingestGaps_fails htakes with ⟨stores, e, heq⟩
  rw [visit_error h heq]

theorem visited (json : SpoolJson) (s : ShimSpoolCollector c) (entry : Entry c)
    : Visited json s entry (s.visit json entry) := by
  by_cases h : ∃ bytes, s.Opens entry bytes
  . rcases h with ⟨bytes, hopens⟩
    by_cases htakes : Stores.TakesAll json entry.ios (gapsOf json entry.path bytes) s.stores
    . rcases Stores.ingestGaps_takesAll htakes with ⟨log, audit, heq⟩
      rw [visit_ok hopens heq]
      exact .ingested hopens htakes
    . rcases (Stores.takesAll_or_stops json entry.ios (gapsOf json entry.path bytes)
        s.stores).resolve_left htakes with ⟨taken, gap, rest, hgaps, htaken, hstops⟩
      have hdir := visit_fails hopens htakes
      have hstores : (s.visit json entry).stores = _ := visit_stores_eq hopens
      rw [hgaps, Stores.ingestGaps_stops htaken hstops] at hstores
      have hreaches : Reaches json s entry gap (Stores.ingestGaps json entry.ios taken s.stores).1 :=
        ⟨bytes, taken, rest, hopens, hgaps, htaken, rfl⟩
      generalize (Stores.ingestGaps json entry.ios taken s.stores).1 = mid at hstops hstores hreaches
      generalize s.visit json entry = s' at hdir hstores
      rcases s' with ⟨dir, stores⟩
      dsimp only at hdir hstores
      subst hdir hstores
      by_cases haccepts : mid.Accepts json gap (entry.ios gap.lineNo)
      . have hfails : Fails json mid gap (entry.ios gap.lineNo) :=
          ⟨haccepts, fun hcommits => hstops ⟨haccepts, hcommits⟩⟩
        rcases Stores.ingestRecord_uncommitted haccepts hfails.2 with ⟨e, heq⟩
        rw [heq]
        exact .uncommitted hreaches hfails
      . rcases Stores.ingestRecord_refused haccepts with ⟨e, heq⟩
        rw [heq]
        exact .refused hreaches haccepts
  . rw [visit_of_not_opens (not_exists.mp h)]
    exact .closed (not_exists.mp h)

-- The records before the one that was reached are in both stores.
theorem Reaches.taken {gap : Gap String} {mid : Stores c String} (h : Reaches json s entry gap mid)
    : ∃ bytes taken, s.spoolDir.lookup entry.path = some bytes
        ∧ taken ++ [gap] ⊆ gapsOf json entry.path bytes
        ∧ mid.appended = s.stores.appended ++ taken ∧ mid.chained = s.stores.chained ++ taken := by
  rcases h with ⟨bytes, taken, rest, hopens, hgaps, htaken, rfl⟩
  rcases Stores.ingestGaps_takesAll htaken with ⟨log, audit, heq⟩
  refine ⟨bytes, taken, hopens.1, ?_, ?_, ?_⟩
  . rw [hgaps, List.append_cons taken gap rest]
    apply List.subset_append_left
  . rw [heq]
  . rw [heq]

-- What a visit adds to the stores are records of its own file.
theorem visit_stores (json : SpoolJson) (s : ShimSpoolCollector c) (entry : Entry c)
    : ∃ added, (∀ gap ∈ added, ∃ bytes, s.spoolDir.lookup entry.path = some bytes
          ∧ gap ∈ gapsOf json entry.path bytes)
        ∧ (s.visit json entry).stores.appended = s.stores.appended ++ added
        ∧ (s.visit json entry).stores.chained.Sublist (s.stores.chained ++ added) := by
  have hvisited := visited json s entry
  generalize s.visit json entry = s' at hvisited
  cases hvisited with
  | closed hclosed => exact ⟨[], by simp, by simp, by simp⟩
  | @ingested bytes log audit hopens htakes =>
    exact ⟨_, fun gap hgap => ⟨bytes, hopens.1, hgap⟩, rfl, List.Sublist.refl _⟩
  | refused hreaches hrefused =>
    rcases hreaches.taken with ⟨bytes, taken, hlookup, hsub, ha, hc⟩
    refine ⟨taken, ?_, ha, by rw [← hc]⟩
    intro gap hgap
    exact ⟨bytes, hlookup, hsub (List.mem_append_left _ hgap)⟩
  | uncommitted hreaches hfails =>
    rcases hreaches.taken with ⟨bytes, taken, hlookup, hsub, ha, hc⟩
    refine ⟨_, fun gap hgap => ⟨bytes, hlookup, hsub hgap⟩, ?_, ?_⟩
    . rw [ha, List.append_assoc]
    . rw [← List.append_assoc, ← hc]
      exact (List.take_sublist _ _).trans (List.sublist_append_left _ _)

theorem visit_takesAll {bytes : List UInt8} (h : s.Opens entry bytes)
    (htakes : Stores.TakesAll json entry.ios (gapsOf json entry.path bytes) s.stores)
    : (s.visit json entry).spoolDir = s.spoolDir.erase entry.path
        ∧ (s.visit json entry).stores.appended
          = s.stores.appended ++ gapsOf json entry.path bytes
        ∧ (s.visit json entry).stores.chained
          = s.stores.chained ++ gapsOf json entry.path bytes := by
  rcases Stores.ingestGaps_takesAll htakes with ⟨log, audit, heq⟩
  rw [visit_ok h heq]
  exact ⟨rfl, rfl, rfl⟩

theorem visit_spoolDir (s : ShimSpoolCollector c) (entry : Entry c) {path : String}
    (h : path ≠ entry.path)
    : (s.visit json entry).spoolDir.lookup path = s.spoolDir.lookup path := by
  have hvisited := visited json s entry
  generalize s.visit json entry = s' at hvisited
  cases hvisited with
  | ingested hopens htakes => exact AList.lookup_erase_ne h
  | _ => rfl

theorem visit_deleted {path : String} (h : s.spoolDir.lookup path = none)
    : (s.visit json entry).spoolDir.lookup path = none := by
  by_cases hpath : path = entry.path
  . have hclosed : ∀ bytes, ¬s.Opens entry bytes := by
      intro bytes hopens
      have hpresent := hopens.1
      rw [← hpath, h] at hpresent
      contradiction
    rw [visit_of_not_opens hclosed, h]
  . rw [visit_spoolDir s entry hpath, h]

-- Once a file is deleted, no record of it is added.
theorem visit_count_deleted (json : SpoolJson) (entry : Entry c) {path : String}
    (h : s.spoolDir.lookup path = none) {gap : Gap String} (hgap : gap.file = path)
    : (s.visit json entry).stores.appended.count gap = s.stores.appended.count gap
        ∧ (s.visit json entry).stores.chained.count gap ≤ s.stores.chained.count gap := by
  rcases visit_stores json s entry with ⟨added, hadded, ha, hc⟩
  have hfresh : added.count gap = 0 := by
    apply List.count_eq_zero.mpr
    intro hmem
    rcases hadded gap hmem with ⟨bytes, hpresent, hof⟩
    rw [← mem_gapsOf json hof, hgap, h] at hpresent
    contradiction
  have hle := hc.count_le gap
  rw [List.count_append, hfresh] at hle
  rw [ha, List.count_append, hfresh]
  exact ⟨rfl, hle⟩

-- And none is taken away, unless a commitment of it is lost.
theorem visit_chained_deleted (hkeeps : ¬LosesDeleted json s entry) {path : String}
    (h : s.spoolDir.lookup path = none) {gap : Gap String} (hgap : gap.file = path)
    : s.stores.chained.count gap ≤ (s.visit json entry).stores.chained.count gap := by
  have hvisited := visited json s entry
  generalize s.visit json entry = s' at hvisited
  cases hvisited with
  | closed hclosed => exact Nat.le_refl _
  | ingested hopens htakes => exact (List.sublist_append_left _ _).count_le gap
  | refused hreaches hrefused =>
    rcases hreaches.taken with ⟨bytes, taken, _, _, _, hc⟩
    dsimp only
    rw [hc]
    exact (List.sublist_append_left _ _).count_le gap
  | @uncommitted other mid log audit hreaches hfails =>
    have hpending : mid.pending.count gap = 0 := by
      apply List.count_eq_zero.mpr
      intro hmem
      exact hkeeps ⟨other, mid, hreaches, hfails, gap, hmem, by rw [hgap, h]⟩
    have hsplit : mid.unchain ++ mid.pending = mid.chained := List.take_append_drop _ _
    rcases hreaches.taken with ⟨bytes, taken, _, _, _, hc⟩
    have hle := (List.sublist_append_left s.stores.chained taken).count_le gap
    rw [← hc, ← hsplit, List.count_append, hpending] at hle
    exact hle

-- What holds however the stores fail: files keep their content until they are deleted, the evidence log
-- has lines of the files only, and the stores hold what was ingested.
structure Inv (json : SpoolJson) (files : Dir) (firstEvidence firstAudit : Nat)
    (before : Stores c String) (s : ShimSpoolCollector c) : Prop where
  content : ∀ path bytes, s.spoolDir.lookup path = some bytes → files.lookup path = some bytes
  own : ∀ gap ∈ s.stores.appended, ∃ bytes, files.lookup gap.file = some bytes
    ∧ gap ∈ gapsOf json gap.file bytes
  stores : Stores.Inv json firstEvidence firstAudit before s.stores

variable {files : Dir} {firstEvidence firstAudit : Nat} {before : Stores c String}

theorem not_exactlyOnce_visit (hinv : Inv json files firstEvidence firstAudit before s)
    (h : ¬ExactlyOnce json files firstEvidence firstAudit before s)
    : ¬ExactlyOnce json files firstEvidence firstAudit before (s.visit json entry) := by
  intro hnext
  apply h
  refine ⟨hinv.stores.held, ?_⟩
  intro path bytes hfile hdeleted gap hgap
  rcases visit_count_deleted json entry hdeleted (mem_gapsOf json hgap) with ⟨ha, hc⟩
  rcases hnext.once path bytes hfile (visit_deleted hdeleted) gap hgap with ⟨hone, hone'⟩
  have hle := hinv.stores.sublist.count_le gap
  omega

-- A file that is there after a visit was there before it.
theorem lookup_of_visit {path : String} {bytes : List UInt8}
    (h : (s.visit json entry).spoolDir.lookup path = some bytes)
    : s.spoolDir.lookup path = some bytes := by
  by_cases hdeleted : s.spoolDir.lookup path = none
  . rw [visit_deleted hdeleted] at h
    contradiction
  . have hvisited := visited json s entry
    generalize s.visit json entry = s' at hvisited h
    cases hvisited with
    | ingested hopens htakes =>
      by_cases hpath : path = entry.path
      . subst hpath
        rw [AList.lookup_erase] at h
        contradiction
      . rwa [AList.lookup_erase_ne hpath] at h
    | _ => exact h

theorem visit_deletes {path : String} {bytes : List UInt8}
    (h : s.spoolDir.lookup path = some bytes)
    (hdeleted : (s.visit json entry).spoolDir.lookup path = none)
    : path = entry.path ∧ s.Opens entry bytes
        ∧ Stores.TakesAll json entry.ios (gapsOf json entry.path bytes) s.stores := by
  have hpath : path = entry.path := by
    by_contra hne
    rw [visit_spoolDir s entry hne, h] at hdeleted
    contradiction
  have hvisited := visited json s entry
  generalize s.visit json entry = s' at hvisited hdeleted
  cases hvisited with
  | @ingested bytes' log audit hopens htakes =>
    have hsame := hopens.1
    rw [← hpath, h, Option.some.injEq] at hsame
    subst hsame
    exact ⟨hpath, hopens, htakes⟩
  | _ =>
    rw [h] at hdeleted
    contradiction

theorem stores_visit (hc : c.Lawful) (h : Stores.Inv json firstEvidence firstAudit before s.stores)
    (hwhole : entry.Whole)
    : Stores.Inv json firstEvidence firstAudit before (s.visit json entry).stores := by
  by_cases hopens : ∃ bytes, s.Opens entry bytes
  . rcases hopens with ⟨bytes, hopens⟩
    rw [visit_stores_eq hopens]
    exact Stores.Inv.ingestGaps hc h hwhole _
  . rw [visit_of_not_opens (not_exists.mp hopens)]
    exact h

theorem Inv.visit (hc : c.Lawful) (h : Inv json files firstEvidence firstAudit before s)
    {entry : Entry c} (hwhole : entry.Whole)
    : Inv json files firstEvidence firstAudit before (s.visit json entry) := by
  rcases visit_stores json s entry with ⟨added, hadded, ha, _⟩
  constructor
  . intro path bytes hlookup
    apply h.content
    exact lookup_of_visit hlookup
  . rw [ha]
    intro gap hgap
    cases List.mem_append.mp hgap with
    | inl hold => exact h.own gap hold
    | inr hnew =>
      rcases hadded gap hnew with ⟨bytes, hlookup, hof⟩
      rw [← mem_gapsOf json hof] at hlookup hof
      exact ⟨bytes, h.content _ bytes hlookup, hof⟩
  . exact stores_visit hc h.stores hwhole

-- The visit does not ingest a file of which some line is in the evidence log already.
def FirstTime (json : SpoolJson) (s : ShimSpoolCollector c) (entry : Entry c) : Prop :=
  Ingests json s entry → ∀ gap ∈ s.stores.appended, gap.file ≠ entry.path

theorem ExactlyOnce.visit (hc : c.Lawful) (hinv : Inv json files firstEvidence firstAudit before s)
    (h : ExactlyOnce json files firstEvidence firstAudit before s) (hwhole : entry.Whole)
    (hfirst : FirstTime json s entry) (hkeeps : ¬LosesDeleted json s entry)
    : ExactlyOnce json files firstEvidence firstAudit before (s.visit json entry) := by
  refine ⟨(hinv.visit hc hwhole).stores.held, ?_⟩
  intro path bytes hfile hdeleted gap hgap
  by_cases hbefore : s.spoolDir.lookup path = none
  . rcases visit_count_deleted json entry hbefore (mem_gapsOf json hgap) with ⟨ha, hle⟩
    have hge := visit_chained_deleted hkeeps hbefore (mem_gapsOf json hgap)
    rcases h.once path bytes hfile hbefore gap hgap with ⟨hone, hone'⟩
    omega
  . rcases Option.ne_none_iff_exists'.mp hbefore with ⟨bytes', hpresent⟩
    have hsame := hinv.content path bytes' hpresent
    rw [hfile, Option.some.injEq] at hsame
    subst hsame
    rcases visit_deletes hpresent hdeleted with ⟨rfl, hopens, htakes⟩
    rcases visit_takesAll hopens htakes with ⟨_, ha, hc⟩
    have hfresh : gap ∉ s.stores.appended := by
      intro hmem
      exact hfirst ⟨bytes, hopens, htakes⟩ gap hmem (mem_gapsOf json hgap)
    have hfresh' : gap ∉ s.stores.chained := by
      intro hmem
      exact hfresh (hinv.stores.sublist.subset hmem)
    have hone := List.count_eq_one_of_mem (nodup_gapsOf json entry.path bytes) hgap
    rw [ha, hc, List.count_append, List.count_append, List.count_eq_zero.mpr hfresh,
      List.count_eq_zero.mpr hfresh', hone]
    exact ⟨rfl, rfl⟩

theorem not_exactlyOnce_of_not_firstTime (hinv : Inv json files firstEvidence firstAudit before s)
    (h : ¬FirstTime json s entry)
    : ¬ExactlyOnce json files firstEvidence firstAudit before (s.visit json entry) := by
  intro honce
  apply h
  rintro ⟨bytes, hopens, htakes⟩ gap hmem hfile
  rcases visit_takesAll hopens htakes with ⟨hdir, ha, _⟩
  have hpresent := hinv.content _ _ hopens.1
  have hgap : gap ∈ gapsOf json entry.path bytes := by
    rcases hinv.own gap hmem with ⟨bytes', hlookup, hgap⟩
    rw [hfile, hpresent, Option.some.injEq] at hlookup
    rwa [hfile, ← hlookup] at hgap
  have hdeleted : (s.visit json entry).spoolDir.lookup entry.path = none := by
    rw [hdir, AList.lookup_erase]
  have hone := (honce.once entry.path bytes hpresent hdeleted gap hgap).1
  rw [ha, List.count_append] at hone
  have hold := List.count_pos_iff.mpr hmem
  have hnew := List.count_pos_iff.mpr hgap
  omega

-- The commitment of the deleted file was the only one there was.
theorem not_exactlyOnce_of_losesDeleted (hinv : Inv json files firstEvidence firstAudit before s)
    (honce : ExactlyOnce json files firstEvidence firstAudit before s) (h : LosesDeleted json s entry)
    : ¬ExactlyOnce json files firstEvidence firstAudit before (s.visit json entry) := by
  intro hnext
  rcases h with ⟨gap, mid, hreaches, hfails, old, hold, hdeleted⟩
  have hstores : (s.visit json entry).stores.chained = mid.unchain := by
    rcases hreaches with ⟨bytes, taken, rest, hopens, hgaps, htaken, rfl⟩
    rcases Stores.ingestRecord_uncommitted hfails.1 hfails.2 with ⟨e, heq⟩
    rw [visit_stores_eq hopens, hgaps, Stores.ingestGaps_stops htaken fun h => hfails.2 h.2, heq]
  have hsplit : mid.unchain ++ mid.pending = mid.chained := List.take_append_drop _ _
  rcases hreaches.taken with ⟨bytes, taken, hlookup, hsub, _, hc⟩
  have hother : old ∉ taken := by
    intro hmem
    rw [← mem_gapsOf json (hsub (List.mem_append_left _ hmem)), hdeleted] at hlookup
    contradiction
  have hmem : old ∈ s.stores.chained := by
    have hchained : old ∈ mid.chained := by
      rw [← hsplit]
      exact List.mem_append_right _ hold
    rw [hc, List.mem_append] at hchained
    exact hchained.resolve_right hother
  rcases hinv.own old (hinv.stores.sublist.subset hmem) with ⟨bytes', hfile, hgap⟩
  have hone := (honce.once old.file bytes' hfile hdeleted old hgap).2
  have hone' := (hnext.once old.file bytes' hfile (visit_deleted hdeleted) old hgap).2
  have hcount := congrArg (List.count old) (hsplit.trans hc)
  have hpending := List.count_pos_iff.mpr hold
  rw [List.count_append, List.count_append, List.count_eq_zero.mpr hother] at hcount
  rw [hstores] at hone'
  omega

theorem begins_of_visit {gap : Gap String} (hbefore : gap ∉ s.stores.appended)
    (h : gap ∈ (s.visit json entry).stores.appended) : entry.path = gap.file ∧ Begins json s entry := by
  have hopens : ∃ bytes, s.Opens entry bytes := by
    by_contra hopens
    rw [visit_of_not_opens (not_exists.mp hopens)] at h
    exact hbefore h
  rcases hopens with ⟨bytes, hopens⟩
  constructor
  . rcases visit_stores json s entry with ⟨added, hadded, ha, _⟩
    rw [ha, List.mem_append] at h
    rcases hadded gap (h.resolve_left hbefore) with ⟨bytes', _, hof⟩
    exact (mem_gapsOf json hof).symm
  . rw [visit_stores_eq hopens] at h
    cases hgaps : gapsOf json entry.path bytes with
    | nil =>
      rw [hgaps] at h
      exact absurd h hbefore
    | cons first rest =>
      refine ⟨bytes, first, hopens, by rw [hgaps]; rfl, ?_⟩
      by_contra hrefused
      rw [hgaps, Stores.ingestGaps_refused hrefused] at h
      exact hbefore h

-- A line got into the evidence log when an attempt began its file.
theorem begins_of_mem {entries : List (Entry c)} {gap : Gap String}
    (hstart : gap ∉ s.stores.appended)
    (h : gap ∈ (Run.exec (visit json) s entries).stores.appended)
    : ∃ pre first, pre ++ [first] <+: entries ∧ first.path = gap.file
        ∧ Begins json (Run.exec (visit json) s pre) first := by
  induction entries using List.reverseRecOn with
  | nil => exact absurd h hstart
  | append_singleton entries entry ih =>
    by_cases hbefore : gap ∈ (Run.exec (visit json) s entries).stores.appended
    . rcases ih hbefore with ⟨pre, first, hpre, hrest⟩
      exact ⟨pre, first, hpre.trans (List.prefix_append entries [entry]), hrest⟩
    . refine ⟨entries, entry, List.prefix_refl _, ?_⟩
      rw [Run.exec_append, Run.exec_cons, Run.exec_nil] at h
      exact begins_of_visit hbefore h

theorem appended_subset_exec (entries : List (Entry c))
    : s.stores.appended ⊆ (Run.exec (visit json) s entries).stores.appended := by
  induction entries generalizing s with
  | nil => exact List.Subset.refl _
  | cons entry entries ih =>
    rcases visit_stores json s entry with ⟨added, _, ha, _⟩
    apply List.Subset.trans _ ih
    rw [ha]
    apply List.subset_append_left

theorem Begins.mem_appended (h : Begins json s entry)
    : ∃ gap ∈ (s.visit json entry).stores.appended, gap.file = entry.path := by
  rcases h with ⟨bytes, gap, hopens, hhead, haccepts⟩
  cases hgaps : gapsOf json entry.path bytes with
  | nil =>
    rw [hgaps] at hhead
    contradiction
  | cons first rest =>
    rw [hgaps, List.head?_cons, Option.some.injEq] at hhead
    subst hhead
    refine ⟨first, ?_, ?_⟩
    . rw [visit_stores_eq hopens, hgaps]
      exact Stores.ingestGaps_begins haccepts
    . apply mem_gapsOf json
      rw [hgaps]
      apply List.mem_cons_self

theorem guarded_firstTime_iff {entries : List (Entry c)} (hstart : s.stores.appended = [])
    : Run.Guarded (visit json) (FirstTime json) s entries ↔ ¬Retries json s entries := by
  constructor
  . rintro h ⟨pre, first, post, last, hpre, hpath, hbegins, hingests⟩
    rcases hbegins.mem_appended with ⟨gap, hmem, hfile⟩
    apply h _ last hpre hingests gap _ (hfile.trans hpath)
    rw [Run.exec_append, Run.exec_cons]
    exact appended_subset_exec post hmem
  . intro h pre last hpre hingests gap hmem hfile
    apply h
    have hfresh : gap ∉ s.stores.appended := by
      rw [hstart]
      apply List.not_mem_nil
    rcases begins_of_mem hfresh hmem with ⟨pre', first, ⟨post, hpost⟩, hpath, hbegins⟩
    have hsplit : pre' ++ first :: post = pre := by
      rw [← hpost, List.append_assoc]
      rfl
    refine ⟨pre', first, post, last, ?_, hpath.trans hfile, hbegins, ?_⟩
    . rw [hsplit]
      exact hpre
    . rw [hsplit]
      exact hingests

theorem Inv.start {log : SegmentLog} {audit : AuditChainWriter c} (hlog : log.Inv firstEvidence)
    (hshort : log.config.maxRecordBytes < 256 ^ RECORD_HEADER_BYTES)
    (haudit : audit.Fresh firstAudit) (json : SpoolJson) (files : Dir)
    : Inv json files firstEvidence firstAudit ⟨log, audit, [], [], []⟩ (start files log audit) where
  content _ _ h := h
  own _ h := absurd h List.not_mem_nil
  stores := {
    held := ⟨⟨[], (List.append_nil _).symm, .nil⟩, ⟨_, [], (List.append_nil _).symm, List.Sublist.refl _, .nil⟩⟩
    log := hlog
    short := hshort
    audit := haudit
    sublist := List.Sublist.refl _ }

end ShimSpoolCollector

open ShimSpoolCollector

/--
Any log and audit writer that are in order, and drains without a torn append: every line of a deleted file has
exactly one record in the evidence log and one commitment in the audit chain along the run if and only if no
file is ingested to its end after an attempt that had begun it, and no segment of the chain fails to be written
with a commitment of a deleted file in it.
-/
theorem exactlyOnce_iff_not_retries_not_loses (hc : c.Lawful) {log : SegmentLog}
    {audit : AuditChainWriter c} {firstEvidence firstAudit : Nat} (hlog : log.Inv firstEvidence)
    (hshort : log.config.maxRecordBytes < 256 ^ RECORD_HEADER_BYTES)
    (haudit : audit.Fresh firstAudit) (files : Dir) {drains : List (List (Entry c))}
    (hwhole : ∀ entry ∈ drains.flatten, entry.Whole)
    : Run.Always (drainStep json)
          (ExactlyOnce json files firstEvidence firstAudit ⟨log, audit, [], [], []⟩)
          (start files log audit) drains
        ↔ ¬Retries json (start files log audit) drains.flatten
          ∧ Run.Guarded (visit json) (fun s entry => ¬LosesDeleted json s entry)
            (start files log audit) drains.flatten := by
  have hstep : drainStep json = Run.exec (visit (c := c) json) := by
    funext s entries
    exact drainStep_eq s entries
  have hD : Run.Guarded (visit json) (fun _ entry => entry.Whole) (start files log audit)
      drains.flatten := (Run.guarded_mem _ drains.flatten).imp fun _ entry h => hwhole entry h
  have hstart := Inv.start hlog hshort haudit json files
  have hinv := Run.always_of_guarded hstart (fun _ _ hinv hwhole => Inv.visit hc hinv hwhole) hD
  rw [hstep, Run.always_flatten_iff hinv (fun s entry hinv h => not_exactlyOnce_visit hinv h),
    ← guarded_firstTime_iff rfl, ← Run.guarded_and]
  apply Run.always_iff_guarded_of_guarded (I := fun s =>
    Inv json files firstEvidence firstAudit ⟨log, audit, [], [], []⟩ s
      ∧ ExactlyOnce json files firstEvidence firstAudit ⟨log, audit, [], [], []⟩ s) hD
  . refine ⟨hstart, hstart.stores.held, ?_⟩
    intro path bytes hfile hdeleted
    have hpresent : (start files log audit).spoolDir.lookup path = some bytes := hfile
    rw [hdeleted] at hpresent
    contradiction
  . rintro s entry ⟨hinv, honce⟩ hwhole ⟨hfirst, hkeeps⟩
    exact ⟨hinv.visit hc hwhole, honce.visit hc hinv hwhole hfirst hkeeps⟩
  . rintro s ⟨_, honce⟩
    exact honce
  . rintro s entry ⟨hinv, honce⟩ _ hbad
    by_cases hfirst : FirstTime json s entry
    . apply not_exactlyOnce_of_losesDeleted hinv honce
      by_contra hkeeps
      exact hbad ⟨hfirst, hkeeps⟩
    . exact not_exactlyOnce_of_not_firstTime hinv hfirst

-- One file with one loss record, of which the first commitment fails.
def lossPath : String := "shim-1234-0a1b2c3d-1700000000000.jsonl"

def lossBytes : List UInt8 := asBytes (String.ofList (lossText loss ++ ['\n']))

def lossFile : Dir := AList.insert lossPath lossBytes ∅

def lossJson : SpoolJson := .ofRecords [loss]

def lossGap : Gap String := ⟨lossPath, 0, loss⟩

def lossCollector : ShimSpoolCollector Crates.toy :=
  start lossFile emptyEvidence (toyWriter.withMaxRecordsPerSegment 1)

def lossDrains : List (List (Entry Crates.toy)) :=
  [[⟨lossPath, fun _ => workingIo .createFailed⟩], [⟨lossPath, fun _ => workingIo .done⟩]]

theorem gapsOf_lossBytes : gapsOf lossJson lossPath lossBytes = [lossGap] := by
  rcases lossText_loss with ⟨hfeed, hfirst, hlast⟩
  have hreturn : (lossText loss).getLast? ≠ some '\r' := by
    rw [hlast]
    decide
  have hlines := Lines.lines_line hfeed hreturn
  have hparse : parseLine lossJson (lossText loss) = some loss := by
    rw [parseLine_object lossJson hfirst hlast, lossJson, SpoolJson.fromStr_lossText]
  unfold gapsOf lossBytes
  rw [readToString_asBytes]
  dsimp only
  rw [String.toList_ofList, hlines, gapsFrom, hparse]
  rfl

theorem lossFile_lookup : lossFile.lookup lossPath = some lossBytes := by
  apply AList.lookup_insert

theorem opens_lossFile (stores : Stores Crates.toy String) (ios : Nat → RecordIo Crates.toy)
    : Opens ⟨lossFile, stores⟩ ⟨lossPath, ios⟩ lossBytes := by
  have hextension : extension lossPath.toList = some "jsonl".toList := by decide +kernel
  refine ⟨lossFile_lookup, hextension, ?_⟩
  unfold lossBytes
  rw [readToString_asBytes]
  simp

def triedStores : Stores Crates.toy String :=
  (Stores.ingestGaps lossJson (fun _ => workingIo .createFailed) [lossGap] lossCollector.stores).1

def retriedStores : Stores Crates.toy String :=
  (Stores.ingestGaps lossJson (fun _ => workingIo .done) [lossGap] triedStores).1

theorem visit_tried : lossCollector.visit lossJson ⟨lossPath, fun _ => workingIo .createFailed⟩
    = ⟨lossFile, triedStores⟩ := by
  have herror : (Stores.ingestGaps lossJson (fun _ => workingIo .createFailed) [lossGap]
      lossCollector.stores).2 = .error (.appendAudit .io) := by
    decide +kernel
  apply visit_error (opens_lossFile lossCollector.stores _)
  rw [gapsOf_lossBytes, triedStores, ← herror]

theorem visit_retried : visit lossJson ⟨lossFile, triedStores⟩ ⟨lossPath, fun _ => workingIo .done⟩
    = ⟨lossFile.erase lossPath, retriedStores⟩ := by
  have hok : (Stores.ingestGaps lossJson (fun _ => workingIo .done) [lossGap] triedStores).2
      = .ok 1 := by
    decide +kernel
  apply visit_ok (opens_lossFile triedStores _)
  rw [gapsOf_lossBytes, retriedStores, ← hok]

theorem exactlyOnce_iff_not_retries_not_loses_lossDrains
    : Run.Always (drainStep lossJson) (ExactlyOnce lossJson lossFile 0 0 lossCollector.stores)
          lossCollector lossDrains
        ↔ ¬Retries lossJson lossCollector lossDrains.flatten
          ∧ Run.Guarded (visit lossJson) (fun s entry => ¬LosesDeleted lossJson s entry)
            lossCollector lossDrains.flatten := by
  have hfresh := (AuditChainWriter.Fresh.open open_toyWriter).1
  apply exactlyOnce_iff_not_retries_not_loses lossJson Crates.toy_lawful
  . exact SegmentLog.Inv.open smallEvidence ∅
  . decide
  . exact ⟨hfresh.lt_next, hfresh.first_le⟩
  . intro entry hentry lineNo
    simp only [lossDrains, List.flatten_cons, List.flatten_nil, List.append_nil, List.cons_append,
      List.nil_append, List.mem_cons, List.not_mem_nil, or_false] at hentry
    rcases hentry with rfl | rfl
    all_goals simp [workingIo, AppendIo.Tears]

-- The first drain appends the record and leaves the file, and the second appends it again.
theorem retried_line_appended_twice
    : ¬Run.Always (drainStep lossJson) (ExactlyOnce lossJson lossFile 0 0 lossCollector.stores)
      lossCollector lossDrains := by
  intro h
  have hlast : Run.exec (drainStep lossJson) lossCollector lossDrains
      = ⟨lossFile.erase lossPath, retriedStores⟩ := by
    rw [lossDrains, Run.exec_cons, Run.exec_cons, Run.exec_nil, drainStep_eq, drainStep_eq,
      Run.exec_cons, Run.exec_nil, Run.exec_cons, Run.exec_nil, visit_tried, visit_retried]
  have hone := h.last.once lossPath lossBytes lossFile_lookup
  rw [hlast, gapsOf_lossBytes] at hone
  have hcount := (hone (AList.lookup_erase lossPath lossFile) lossGap (List.mem_singleton_self _)).1
  have htwice : retriedStores.appended.count lossGap = 2 := by decide +kernel
  dsimp only at hcount
  omega

end Athar.Spool
