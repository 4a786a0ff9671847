import Athar.Audit.Lemmas.Writer
import Athar.Spool.Impl
import Athar.Storage.Lemmas

/-!
This module contains what the ingestion of one spool file does to the two stores: it appends and
commits the records of the well-formed lines one after the other, up to the first failure.
-/

namespace Athar.Spool

open Storage Audit

variable {c : Crates} {F : Type} (json : SpoolJson)

theorem readToString_asBytes (text : String) : readToString (asBytes text) = some text := by
  have hbytes : (⟨(asBytes text).toArray⟩ : ByteArray) = text.toByteArray := by
    rw [asBytes, Array.toArray_toList]
  unfold readToString
  rw [hbytes, String.fromUTF8?, dif_pos text.isValidUTF8]
  rfl

theorem dropWhile_isWhitespace {text : List Char} {ch : Char} (hhead : text.head? = some ch)
    (h : isWhitespace ch = false) : text.dropWhile isWhitespace = text := by
  cases text with
  | nil => rfl
  | cons ch' text =>
    rw [List.head?_cons, Option.some.injEq] at hhead
    rw [List.dropWhile_cons, hhead, h]
    rfl

theorem trim_of_ends {text : List Char} {first last : Char} (hfirst : text.head? = some first)
    (hlast : text.getLast? = some last) (h : isWhitespace first = false)
    (h' : isWhitespace last = false) : trim text = text := by
  unfold trim
  rw [dropWhile_isWhitespace hfirst h]
  rw [← List.head?_reverse] at hlast
  rw [dropWhile_isWhitespace hlast h', List.reverse_reverse]

-- A line that holds one JSON object has nothing to trim.
theorem parseLine_object {line : List Char} (hfirst : line.head? = some '\x7b')
    (hlast : line.getLast? = some '\x7d') : parseLine json line = json.fromStr line := by
  unfold parseLine
  dsimp only
  rw [trim_of_ends hfirst hlast (by decide) (by decide)]
  cases line with
  | nil => contradiction
  | cons ch line => rfl

-- The records of the well-formed lines from a line number on.
def gapsFrom (file : F) : List (List Char) → Nat → List (Gap F)
  | [], _ => []
  | raw :: rest, lineNo =>
    match parseLine json raw with
    | none => gapsFrom file rest (lineNo + 1)
    | some record => ⟨file, lineNo, record⟩ :: gapsFrom file rest (lineNo + 1)

def gapsOf (file : F) (bytes : List UInt8) : List (Gap F) :=
  match readToString bytes with
  | none => []
  | some content => gapsFrom json file (Lines.lines content.toList) 0

theorem gapsFrom_append (file : F) (a b : List (List Char)) (lineNo : Nat)
    : gapsFrom json file (a ++ b) lineNo
        = gapsFrom json file a lineNo ++ gapsFrom json file b (lineNo + a.length) := by
  induction a generalizing lineNo with
  | nil => rfl
  | cons raw a ih =>
    have hlength : lineNo + 1 + a.length = lineNo + (raw :: a).length := by
      rw [List.length_cons]
      omega
    rw [List.cons_append, gapsFrom, gapsFrom, ih, hlength]
    split
    . rfl
    . rw [List.cons_append]

theorem mem_gapsFrom {file : F} {lines : List (List Char)} {lineNo : Nat} {gap : Gap F}
    (h : gap ∈ gapsFrom json file lines lineNo)
    : gap.file = file ∧ lineNo ≤ gap.lineNo ∧ gap.lineNo < lineNo + lines.length := by
  induction lines generalizing lineNo with
  | nil => contradiction
  | cons raw lines ih =>
    rw [List.length_cons]
    unfold gapsFrom at h
    split at h
    . have := ih h
      exact ⟨this.1, by omega⟩
    . rw [List.mem_cons] at h
      cases h with
      | inl h =>
        subst h
        exact ⟨rfl, by dsimp only; omega⟩
      | inr h =>
        have := ih h
        exact ⟨this.1, by omega⟩

theorem nodup_gapsFrom (file : F) (lines : List (List Char)) (lineNo : Nat)
    : (gapsFrom json file lines lineNo).Nodup := by
  induction lines generalizing lineNo with
  | nil => exact List.nodup_nil
  | cons raw lines ih =>
    unfold gapsFrom
    split
    . apply ih
    . rw [List.nodup_cons]
      refine ⟨?_, ih (lineNo + 1)⟩
      intro h
      have := (mem_gapsFrom json h).2.1
      dsimp only at this
      omega

theorem mem_gapsOf {file : F} {bytes : List UInt8} {gap : Gap F} (h : gap ∈ gapsOf json file bytes)
    : gap.file = file := by
  unfold gapsOf at h
  split at h
  . contradiction
  . exact (mem_gapsFrom json h).1

theorem nodup_gapsOf (file : F) (bytes : List UInt8) : (gapsOf json file bytes).Nodup := by
  unfold gapsOf
  split
  . exact List.nodup_nil
  . apply nodup_gapsFrom

namespace Stores

def payload (gap : Gap F) (io : RecordIo c) : List UInt8 :=
  json.toVec (coverageGap gap.record io.nowMs)

-- The evidence log takes the record.
def Accepts (st : Stores c F) (gap : Gap F) (io : RecordIo c) : Prop :=
  st.log.Accepts (payload json gap io) io.logIo

def logAfter (st : Stores c F) (gap : Gap F) (io : RecordIo c) : SegmentLog :=
  (st.log.append (payload json gap io) io.logIo).1

def auditAfter (st : Stores c F) (gap : Gap F) (io : RecordIo c) : AuditChainWriter c :=
  (st.audit.observe "coverage_gap" (payload json gap io) io.nowUs io.auditIo).1

-- Both stores take all of the records, each in the state that the ones before it leave.
def TakesAll (ios : Nat → RecordIo c) : List (Gap F) → Stores c F → Prop
  | [], _ => True
  | gap :: rest, st =>
    st.Accepts json gap (ios gap.lineNo) ∧ st.audit.Commits (ios gap.lineNo).auditIo
      ∧ TakesAll ios rest (st.ingestRecord json gap (ios gap.lineNo)).1

def ingestGaps (ios : Nat → RecordIo c) : List (Gap F) → Stores c F → Stores c F × Except SpoolError Nat
  | [], st => (st, .ok 0)
  | gap :: rest, st =>
    match st.ingestRecord json gap (ios gap.lineNo) with
    | (st, .error e) => (st, .error e)
    | (st, .ok ()) =>
      let (st, n) := ingestGaps ios rest st
      (st, n.map (· + 1))

theorem ingestLines_eq (file : F) (ios : Nat → RecordIo c) (lines : List (List Char)) (lineNo : Nat)
    (st : Stores c F)
    : ingestLines json file ios lines lineNo st
        = ingestGaps json ios (gapsFrom json file lines lineNo) st := by
  induction lines generalizing lineNo st with
  | nil => rfl
  | cons raw lines ih =>
    unfold ingestLines gapsFrom
    cases parseLine json raw with
    | none => apply ih
    | some record =>
      dsimp only
      rw [ingestGaps]
      split
      . next heq => rw [heq]
      . next heq => rw [heq, ih]

theorem ingestFile_eq (st : Stores c F) (file : F) {bytes : List UInt8}
    (h : readToString bytes ≠ none) (ios : Nat → RecordIo c)
    : st.ingestFile json file bytes ios = ingestGaps json ios (gapsOf json file bytes) st := by
  unfold ingestFile gapsOf
  cases hread : readToString bytes with
  | none => contradiction
  | some content => apply ingestLines_eq

section Record

variable {json} {st : Stores c F} {gap : Gap F} {io : RecordIo c}

theorem ingestRecord_refused (h : ¬st.Accepts json gap io)
    : ∃ e, st.ingestRecord json gap io = ({ st with log := st.logAfter json gap io }, .error e) := by
  rcases SegmentLog.append_error h with ⟨e, he⟩
  unfold ingestRecord logAfter payload
  unfold payload at he
  dsimp only
  generalize st.log.append (json.toVec (coverageGap gap.record io.nowMs)) io.logIo = appended at he
  rcases appended with ⟨log, _⟩
  dsimp only at he
  subst he
  exact ⟨_, rfl⟩

-- Once the evidence log has the record, the audit chain decides.
theorem ingestRecord_accepted (h : st.Accepts json gap io)
    : st.ingestRecord json gap io
        = match (st.audit.observe "coverage_gap" (payload json gap io) io.nowUs io.auditIo).2 with
          | .error e => (⟨st.logAfter json gap io, st.auditAfter json gap io, st.appended ++ [gap],
              st.committed, st.unchain⟩, .error (.appendAudit e))
          | .ok () => (⟨st.logAfter json gap io, st.auditAfter json gap io, st.appended ++ [gap],
              st.committed ++ [gap], st.chained ++ [gap]⟩, .ok ()) := by
  rcases SegmentLog.append_ok h with ⟨receipt, hreceipt⟩
  unfold ingestRecord logAfter auditAfter payload
  unfold payload at hreceipt
  dsimp only
  generalize st.log.append (json.toVec (coverageGap gap.record io.nowMs)) io.logIo = appended at hreceipt
  rcases appended with ⟨log, _⟩
  dsimp only at hreceipt
  subst hreceipt
  dsimp only
  generalize st.audit.observe "coverage_gap" (json.toVec (coverageGap gap.record io.nowMs)) io.nowUs
    io.auditIo = observed
  rcases observed with ⟨audit, _ | _⟩
  . rfl
  . rfl

theorem ingestRecord_uncommitted (h : st.Accepts json gap io) (hcommits : ¬st.audit.Commits io.auditIo)
    : ∃ e, st.ingestRecord json gap io
        = (⟨st.logAfter json gap io, st.auditAfter json gap io, st.appended ++ [gap], st.committed,
            st.unchain⟩, .error e) := by
  rcases AuditChainWriter.observe_error hcommits "coverage_gap" (payload json gap io) io.nowUs
    with ⟨e, he⟩
  rw [ingestRecord_accepted h, he]
  exact ⟨_, rfl⟩

theorem ingestRecord_ok (h : st.Accepts json gap io) (hcommits : st.audit.Commits io.auditIo)
    : st.ingestRecord json gap io
        = (⟨st.logAfter json gap io, st.auditAfter json gap io, st.appended ++ [gap],
            st.committed ++ [gap], st.chained ++ [gap]⟩, .ok ()) := by
  have hok := AuditChainWriter.observe_ok hcommits "coverage_gap" (payload json gap io) io.nowUs
  rw [ingestRecord_accepted h, hok]

end Record

variable {json} {ios : Nat → RecordIo c} {gaps : List (Gap F)} {st : Stores c F}

theorem ingestGaps_takesAll (h : TakesAll json ios gaps st)
    : ∃ log audit, ingestGaps json ios gaps st
        = (⟨log, audit, st.appended ++ gaps, st.committed ++ gaps, st.chained ++ gaps⟩,
          .ok gaps.length) := by
  induction gaps generalizing st with
  | nil =>
    rw [List.append_nil, List.append_nil, List.append_nil]
    exact ⟨_, _, rfl⟩
  | cons gap gaps ih =>
    rcases h with ⟨haccepts, hcommits, hrest⟩
    have heq := ingestRecord_ok haccepts hcommits
    rw [heq] at hrest
    rcases ih hrest with ⟨log', audit', htail⟩
    unfold ingestGaps
    rw [heq]
    dsimp only
    rw [htail, List.append_assoc, List.append_assoc, List.append_assoc]
    exact ⟨_, _, rfl⟩

theorem ingestGaps_fails (h : ¬TakesAll json ios gaps st)
    : ∃ st' e, ingestGaps json ios gaps st = (st', .error e) := by
  induction gaps generalizing st with
  | nil => exact absurd trivial h
  | cons gap gaps ih =>
    unfold ingestGaps
    by_cases haccepts : st.Accepts json gap (ios gap.lineNo)
    . by_cases hcommits : st.audit.Commits (ios gap.lineNo).auditIo
      . have hrest : ¬TakesAll json ios gaps (st.ingestRecord json gap (ios gap.lineNo)).1 := by
          intro hrest
          exact h ⟨haccepts, hcommits, hrest⟩
        have heq := ingestRecord_ok haccepts hcommits
        rw [heq] at hrest ⊢
        rcases ih hrest with ⟨st', e, htail⟩
        dsimp only at htail ⊢
        rw [htail]
        exact ⟨_, _, rfl⟩
      . rcases ingestRecord_uncommitted haccepts hcommits with ⟨e, heq⟩
        rw [heq]
        exact ⟨_, _, rfl⟩
    . rcases ingestRecord_refused haccepts with ⟨e, heq⟩
      rw [heq]
      exact ⟨_, _, rfl⟩

-- Either all records are taken, or there is a first one that some store does not take.
theorem takesAll_or_stops (json : SpoolJson) (ios : Nat → RecordIo c) (gaps : List (Gap F)) (st : Stores c F)
    : TakesAll json ios gaps st
        ∨ ∃ taken gap rest, gaps = taken ++ gap :: rest ∧ TakesAll json ios taken st
          ∧ ¬((ingestGaps json ios taken st).1.Accepts json gap (ios gap.lineNo)
            ∧ (ingestGaps json ios taken st).1.audit.Commits (ios gap.lineNo).auditIo) := by
  induction gaps generalizing st with
  | nil => exact Or.inl trivial
  | cons gap gaps ih =>
    by_cases hgap : st.Accepts json gap (ios gap.lineNo) ∧ st.audit.Commits (ios gap.lineNo).auditIo
    . rcases ih (st.ingestRecord json gap (ios gap.lineNo)).1
        with hall | ⟨taken, stop, rest, rfl, htaken, hstop⟩
      . exact Or.inl ⟨hgap.1, hgap.2, hall⟩
      . refine Or.inr ⟨gap :: taken, stop, rest, rfl, ⟨hgap.1, hgap.2, htaken⟩, ?_⟩
        have heq := ingestRecord_ok hgap.1 hgap.2
        rw [heq] at hstop
        rw [ingestGaps, heq]
        exact hstop
    . exact Or.inr ⟨[], gap, gaps, rfl, trivial, hgap⟩

theorem ingestGaps_stops {taken rest : List (Gap F)} {gap : Gap F} (htaken : TakesAll json ios taken st)
    (hstops : ¬((ingestGaps json ios taken st).1.Accepts json gap (ios gap.lineNo)
      ∧ (ingestGaps json ios taken st).1.audit.Commits (ios gap.lineNo).auditIo))
    : (ingestGaps json ios (taken ++ gap :: rest) st).1
        = ((ingestGaps json ios taken st).1.ingestRecord json gap (ios gap.lineNo)).1 := by
  induction taken generalizing st with
  | nil =>
    rw [List.nil_append, ingestGaps]
    dsimp only [ingestGaps] at hstops ⊢
    by_cases haccepts : st.Accepts json gap (ios gap.lineNo)
    . have hcommits : ¬st.audit.Commits (ios gap.lineNo).auditIo := by
        intro hcommits
        exact hstops ⟨haccepts, hcommits⟩
      rcases ingestRecord_uncommitted haccepts hcommits with ⟨e, heq⟩
      rw [heq]
    . rcases ingestRecord_refused haccepts with ⟨e, heq⟩
      rw [heq]
  | cons first taken ih =>
    rcases htaken with ⟨haccepts, hcommits, hrest⟩
    have heq := ingestRecord_ok haccepts hcommits
    rw [heq] at hrest
    rw [ingestGaps, heq] at hstops
    rw [List.cons_append, ingestGaps, heq, ingestGaps, heq]
    exact ih hrest hstops

-- What every single record keeps, the ingestion keeps.
theorem ingestGaps_keeps {P : Stores c F → Prop} (hP : P st)
    (hstep : ∀ st, P st → ∀ gap ∈ gaps, P (st.ingestRecord json gap (ios gap.lineNo)).1)
    : P (ingestGaps json ios gaps st).1 := by
  induction gaps generalizing st with
  | nil => exact hP
  | cons gap gaps ih =>
    have hfirst := hstep st hP gap List.mem_cons_self
    rw [ingestGaps]
    generalize st.ingestRecord json gap (ios gap.lineNo) = result at hfirst
    rcases result with ⟨st', e | _⟩
    . exact hfirst
    . apply ih hfirst
      intro st hst gap hgap
      exact hstep st hst gap (List.mem_cons_of_mem _ hgap)

/--
However far the ingestion gets, the evidence log takes a first part of the records, and the audit
chain no more than that.
-/
theorem ingestGaps_takes (json : SpoolJson) (ios : Nat → RecordIo c) (gaps : List (Gap F)) (st : Stores c F)
    : ∃ k m, m ≤ k ∧ (ingestGaps json ios gaps st).1.appended = st.appended ++ gaps.take k
        ∧ (ingestGaps json ios gaps st).1.committed = st.committed ++ gaps.take m := by
  induction gaps generalizing st with
  | nil => exact ⟨0, 0, Nat.le_refl 0, by simp [ingestGaps], by simp [ingestGaps]⟩
  | cons gap gaps ih =>
    unfold ingestGaps
    by_cases haccepts : st.Accepts json gap (ios gap.lineNo)
    . by_cases hcommits : st.audit.Commits (ios gap.lineNo).auditIo
      . have heq := ingestRecord_ok haccepts hcommits
        rcases ih (st.ingestRecord json gap (ios gap.lineNo)).1 with ⟨k, m, hle, ha, hc⟩
        rw [heq] at ha hc ⊢
        refine ⟨k + 1, m + 1, by omega, ?_, ?_⟩
        . simp [ha]
        . simp [hc]
      . rcases ingestRecord_uncommitted haccepts hcommits with ⟨e, heq⟩
        rw [heq]
        exact ⟨1, 0, by omega, by simp, by simp⟩
    . rcases ingestRecord_refused haccepts with ⟨e, heq⟩
      rw [heq]
      exact ⟨0, 0, by omega, by simp, by simp⟩

theorem ingestGaps_begins {gap : Gap F} (h : st.Accepts json gap (ios gap.lineNo))
    : gap ∈ (ingestGaps json ios (gap :: gaps) st).1.appended := by
  unfold ingestGaps
  by_cases hcommits : st.audit.Commits (ios gap.lineNo).auditIo
  . have heq := ingestRecord_ok h hcommits
    rcases ingestGaps_takes json ios gaps (st.ingestRecord json gap (ios gap.lineNo)).1
      with ⟨k, m, _, ha, _⟩
    rw [heq] at ha ⊢
    simp [ha]
  . rcases ingestRecord_uncommitted h hcommits with ⟨e, heq⟩
    rw [heq]
    simp

theorem ingestGaps_refused {gap : Gap F} (h : ¬st.Accepts json gap (ios gap.lineNo))
    : (ingestGaps json ios (gap :: gaps) st).1.appended = st.appended := by
  unfold ingestGaps
  rcases ingestRecord_refused h with ⟨e, heq⟩
  rw [heq]

theorem ingestFile_ok {file : F} {bytes : List UInt8} {st' : Stores c F} {n : Nat}
    (h : st.ingestFile json file bytes ios = (st', .ok n))
    : st'.appended = st.appended ++ gapsOf json file bytes
        ∧ st'.committed = st.committed ++ gapsOf json file bytes := by
  cases hread : readToString bytes with
  | none =>
    unfold ingestFile at h
    rw [hread] at h
    simp at h
  | some content =>
    rw [ingestFile_eq json st file (by simp [hread])] at h
    by_cases htakes : TakesAll json ios (gapsOf json file bytes) st
    . rcases ingestGaps_takesAll htakes with ⟨log, audit, heq⟩
      rw [heq, Prod.mk.injEq] at h
      rw [← h.1]
      exact ⟨rfl, rfl⟩
    . rcases ingestGaps_fails htakes with ⟨_, e, heq⟩
      rw [heq] at h
      simp at h

theorem ingestFile_takes (json : SpoolJson) (st : Stores c F) (file : F) (bytes : List UInt8)
    (ios : Nat → RecordIo c)
    : ∃ added added', added ⊆ gapsOf json file bytes
        ∧ (st.ingestFile json file bytes ios).1.appended = st.appended ++ added
        ∧ (st.ingestFile json file bytes ios).1.committed = st.committed ++ added' := by
  cases hread : readToString bytes with
  | none =>
    unfold ingestFile
    rw [hread]
    exact ⟨[], [], by simp, by simp, by simp⟩
  | some content =>
    rw [ingestFile_eq json st file (by simp [hread])]
    rcases ingestGaps_takes json ios (gapsOf json file bytes) st with ⟨k, m, _, ha, hc⟩
    exact ⟨_, _, List.take_subset _ _, ha, hc⟩

end Stores

end Athar.Spool
