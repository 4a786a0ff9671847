import Athar.Lib.Records
import Athar.Storage.Impl

/-!
This module contains the evidence that a log holds since some segment id, which is read back from the
segment files, and what opening, rotating and appending do to it.
-/

namespace Athar.Storage

open Hex

def segPath (id : Nat) : String := String.ofList (hex16 id ++ '.' :: "seg.seg".toList)

theorem fileStem_wip (id : Nat) : fileStem (hex16 id ++ '.' :: WIP_EXT) = hex16 id ++ ".seg".toList := by
  have hext : ('.' :: WIP_EXT).reverse = "piw.ges.".toList := by decide
  unfold fileStem
  rw [List.reverse_append, hext]
  simp

theorem withExtension_wipPath (id : Nat) : withExtension (wipPath id) SEG_EXT = segPath id := by
  rw [withExtension, wipPath, String.toList_ofList, fileStem_wip, segPath, List.append_assoc]
  rfl

theorem takeWhile_hex16 (id : Nat) (ext : List Char)
    : (hex16 id ++ '.' :: ext).takeWhile (· ≠ '.') = hex16 id := by
  rw [List.takeWhile_append_of_pos]
  . simp
  . intro ch hch
    have := hexDigit_of_mem_hex16 hch
    rw [decide_eq_true_iff]
    rintro rfl
    exact this (by decide)

theorem parseSegmentId_wipPath (id : Nat) : parseSegmentId (wipPath id) = some id := by
  rw [parseSegmentId, wipPath, String.toList_ofList, takeWhile_hex16, fromStrRadix16_hex16]

theorem parseSegmentId_segPath (id : Nat) : parseSegmentId (segPath id) = some id := by
  rw [parseSegmentId, segPath, String.toList_ofList, takeWhile_hex16, fromStrRadix16_hex16]

theorem wipPath_inj {i j : Nat} (h : wipPath i = wipPath j) : i = j := by
  have := congrArg parseSegmentId h
  rwa [parseSegmentId_wipPath, parseSegmentId_wipPath, Option.some.injEq] at this

theorem segPath_inj {i j : Nat} (h : segPath i = segPath j) : i = j := by
  have := congrArg parseSegmentId h
  rwa [parseSegmentId_segPath, parseSegmentId_segPath, Option.some.injEq] at this

theorem wipPath_ne_segPath (i j : Nat) : wipPath i ≠ segPath j := by
  intro h
  have hwip : ('.' :: WIP_EXT).getLast? = some 'p' := by decide
  have hseg : ('.' :: "seg.seg".toList).getLast? = some 'g' := by decide
  have := congrArg (·.toList.getLast?) h
  simp only [wipPath, segPath, String.toList_ofList, List.getLast?_append, hwip, hseg,
    Option.some_or, Option.some.injEq] at this
  exact absurd this (by decide)

namespace Dir

theorem lookup_append_self (files : Dir) (name : String) (bytes : List UInt8)
    : (files.append name bytes).lookup name = some ((files.lookup name).getD [] ++ bytes) := by
  exact AList.lookup_insert files

theorem lookup_append_of_ne (files : Dir) {name other : String} (h : other ≠ name)
    (bytes : List UInt8) : (files.append name bytes).lookup other = files.lookup other := by
  exact AList.lookup_insert_ne h

theorem lookup_openAppend_self (files : Dir) (name : String)
    : (files.openAppend name).lookup name = some ((files.lookup name).getD []) := by
  exact AList.lookup_insert files

theorem lookup_openAppend_of_ne (files : Dir) {name other : String} (h : other ≠ name)
    : (files.openAppend name).lookup other = files.lookup other := by
  exact AList.lookup_insert_ne h

theorem lookup_rename_of_ne (files : Dir) {source target other : String} (hsource : other ≠ source)
    (htarget : other ≠ target) : (files.rename source target).lookup other = files.lookup other := by
  unfold rename
  split
  . rfl
  . rw [AList.lookup_insert_ne htarget, AList.lookup_erase_ne hsource]

theorem lookup_rename_target {files : Dir} {source target : String} {bytes : List UInt8}
    (h : files.lookup source = some bytes)
    : (files.rename source target).lookup target = some bytes := by
  unfold rename
  rw [h]
  exact AList.lookup_insert _

end Dir

namespace SegmentLog

def Absent (l : SegmentLog) (id : Nat) : Prop :=
  l.files.lookup (wipPath id) = none ∧ l.files.lookup (segPath id) = none

-- The bytes of a segment: of its closed file, or of the active one.
def fileOf (l : SegmentLog) (id : Nat) : List UInt8 :=
  ((l.files.lookup (segPath id)).or (l.files.lookup (wipPath id))).getD []

def recordsOf (l : SegmentLog) (id : Nat) : List (List UInt8) :=
  Records.read RECORD_HEADER_BYTES (l.fileOf id)

-- The records on disk in the segments with id `firstId` or above, oldest first.
def evidenceSince (l : SegmentLog) (firstId : Nat) : List (List UInt8) :=
  (List.range' firstId (l.nextSegId - firstId)).flatMap l.recordsOf

structure ActiveFile (firstId : Nat) (l : SegmentLog) (a : Active) : Prop where
  path_eq : a.path = wipPath a.id
  latest : a.id + 1 = l.nextSegId
  first_le : firstId ≤ a.id
  notClosed : l.files.lookup (segPath a.id) = none
  wellFormed : ∃ rs, l.files.lookup (wipPath a.id) = some (Records.encodeAll RECORD_HEADER_BYTES rs)
    ∧ ∀ r ∈ rs, r.length < 256 ^ RECORD_HEADER_BYTES

structure Inv (firstId : Nat) (l : SegmentLog) : Prop where
  first_le : firstId ≤ l.nextSegId
  absent : ∀ id, l.nextSegId ≤ id → l.Absent id
  active : ∀ a, l.active = some a → l.ActiveFile firstId a

theorem length_lt_of_mem_evidenceSince {l : SegmentLog} {firstId : Nat} {r : List UInt8}
    (h : r ∈ l.evidenceSince firstId) : r.length < 256 ^ RECORD_HEADER_BYTES := by
  rcases List.mem_flatMap.mp h with ⟨id, _, hmem⟩
  exact Records.length_lt_of_mem_read hmem

theorem recordsOf_congr {l l' : SegmentLog} {id : Nat} (h : l'.fileOf id = l.fileOf id)
    : l'.recordsOf id = l.recordsOf id := by
  rw [recordsOf, recordsOf, h]

theorem recordsOf_of_file_nil {l : SegmentLog} {id : Nat} (h : l.fileOf id = [])
    : l.recordsOf id = [] := by
  rw [recordsOf, h]
  rfl

theorem range'_concat {firstId n : Nat} (h : firstId ≤ n)
    : List.range' firstId (n + 1 - firstId) = List.range' firstId (n - firstId) ++ [n] := by
  have hsub : n + 1 - firstId = n - firstId + 1 := by omega
  have hlast : firstId + (n - firstId) = n := by omega
  rw [hsub, List.range'_1_concat, hlast]

-- The evidence up to the latest segment, and the records of that one.
theorem evidenceSince_concat {l : SegmentLog} {firstId n : Nat} (hnext : n + 1 = l.nextSegId)
    (h : firstId ≤ n)
    : l.evidenceSince firstId
        = (List.range' firstId (n - firstId)).flatMap l.recordsOf ++ l.recordsOf n := by
  rw [evidenceSince, ← hnext, range'_concat h, List.flatMap_append, List.flatMap_singleton]

theorem flatMap_recordsOf_congr {l l' : SegmentLog} {firstId n : Nat}
    (h : ∀ id < n, l'.fileOf id = l.fileOf id)
    : (List.range' firstId (n - firstId)).flatMap l'.recordsOf
        = (List.range' firstId (n - firstId)).flatMap l.recordsOf := by
  apply List.flatMap_congr
  intro id hid
  apply recordsOf_congr
  apply h
  rw [List.mem_range'_1] at hid
  omega

theorem ActiveFile.evidenceSince_append {l l' : SegmentLog} {firstId : Nat} {a : Active}
    (h : l.ActiveFile firstId a) (hnext : l'.nextSegId = l.nextSegId) {data : List UInt8}
    (hfile : ∀ id < a.id, l'.fileOf id = l.fileOf id)
    (hlast : l'.recordsOf a.id = l.recordsOf a.id ++ [data])
    : l'.evidenceSince firstId = l.evidenceSince firstId ++ [data] := by
  rw [evidenceSince_concat h.latest h.first_le, evidenceSince_concat (h.latest.trans hnext.symm)
    h.first_le, flatMap_recordsOf_congr hfile, hlast, List.append_assoc]

-- Closing the active segment renames its file, which keeps its id and its bytes.
theorem Inv.closeActive {firstId : Nat} {l : SegmentLog} (h : Inv firstId l) {io : RotateIo}
    (hsync : l.active ≠ none → io.sync = true ∧ io.rename = true)
    : ∃ path files, l.closeActive io = ({ l with active := none, files }, .ok path)
        ∧ (∀ id, fileOf { l with active := none, files } id = l.fileOf id)
        ∧ ∀ id, l.nextSegId ≤ id → Absent { l with active := none, files } id := by
  cases hactive : l.active with
  | none =>
    have hself : { l with active := none } = l := by
      rw [← hactive]
    refine ⟨none, l.files, ?_, fun _ => rfl, h.absent⟩
    rw [hself, SegmentLog.closeActive, hactive]
  | some a =>
    have hfile := h.active a hactive
    have hio := hsync (by simp [hactive])
    have hpath : withExtension a.path SEG_EXT = segPath a.id := by
      rw [hfile.path_eq, withExtension_wipPath]
    rcases hfile.wellFormed with ⟨rs, hlookup, _⟩
    have hne : ∀ id, id ≠ a.id → ∀ name, name = wipPath id ∨ name = segPath id →
        (l.files.rename a.path (segPath a.id)).lookup name = l.files.lookup name := by
      intro id hid name hname
      rw [hfile.path_eq]
      apply Dir.lookup_rename_of_ne
      . rcases hname with rfl | rfl
        . exact fun heq => hid (wipPath_inj heq)
        . exact fun heq => wipPath_ne_segPath _ _ heq.symm
      . rcases hname with rfl | rfl
        . exact wipPath_ne_segPath _ _
        . exact fun heq => hid (segPath_inj heq)
    refine ⟨some (segPath a.id), l.files.rename a.path (segPath a.id), ?_, ?_, ?_⟩
    . simp [SegmentLog.closeActive, hactive, hio, hpath]
    . intro id
      unfold fileOf
      dsimp only
      by_cases hid : id = a.id
      . rw [hid, hfile.notClosed, hlookup, hfile.path_eq, Dir.lookup_rename_target hlookup]
        rfl
      . rw [hne id hid _ (Or.inl rfl), hne id hid _ (Or.inr rfl)]
    . intro id hid
      have hlatest := hfile.latest
      have hother : id ≠ a.id := by omega
      unfold Absent
      dsimp only
      rw [hne id hother _ (Or.inl rfl), hne id hother _ (Or.inr rfl)]
      exact h.absent id hid

def Rotates (l : SegmentLog) (io : RotateIo) : Prop :=
  (l.active ≠ none → io.sync = true ∧ io.rename = true) ∧ io.open = true

instance (l : SegmentLog) (io : RotateIo) : Decidable (l.Rotates io) :=
  inferInstanceAs (Decidable (_ ∧ _))

theorem Inv.rotate {firstId : Nat} {l : SegmentLog} (h : Inv firstId l) {io : RotateIo}
    (hio : l.Rotates io)
    : ∃ l' path a, l.rotate io = (l', .ok path) ∧ Inv firstId l' ∧ l'.active = some a
        ∧ l'.evidenceSince firstId = l.evidenceSince firstId := by
  rcases h.closeActive hio.1 with ⟨path, files, hclose, hfile, habsent⟩
  have hnew := habsent l.nextSegId (Nat.le_refl _)
  refine ⟨{ l with
    active := some ⟨l.nextSegId, wipPath l.nextSegId, 0, 0⟩
    nextSegId := l.nextSegId + 1
    files := files.openAppend (wipPath l.nextSegId) }, path, _, ?_, ?_, rfl, ?_⟩
  . simp [SegmentLog.rotate, hclose, openActive, hio.2]
  . constructor
    . exact Nat.le_succ_of_le h.first_le
    . intro id hid
      dsimp only at hid
      have hother : id ≠ l.nextSegId := by omega
      unfold Absent
      dsimp only
      rw [Dir.lookup_openAppend_of_ne _ (fun heq => hother (wipPath_inj heq)),
        Dir.lookup_openAppend_of_ne _ (fun heq => wipPath_ne_segPath _ _ heq.symm)]
      apply habsent
      omega
    . intro a ha
      cases ha
      constructor
      . rfl
      . rfl
      . exact h.first_le
      . dsimp only
        rw [Dir.lookup_openAppend_of_ne _ (fun heq => wipPath_ne_segPath _ _ heq.symm)]
        exact hnew.2
      . refine ⟨[], ?_, by simp⟩
        dsimp only
        rw [Dir.lookup_openAppend_self, hnew.1]
        rfl
  . rw [evidenceSince_concat rfl h.first_le, recordsOf_of_file_nil, List.append_nil]
    . apply flatMap_recordsOf_congr
      intro id hid
      have hother : id ≠ l.nextSegId := by omega
      rw [← hfile id]
      unfold fileOf
      dsimp only
      rw [Dir.lookup_openAppend_of_ne _ (fun heq => hother (wipPath_inj heq)),
        Dir.lookup_openAppend_of_ne _ (fun heq => wipPath_ne_segPath _ _ heq.symm)]
    . unfold fileOf
      dsimp only
      rw [Dir.lookup_openAppend_of_ne _ (fun heq => wipPath_ne_segPath _ _ heq.symm), hnew.2,
        Dir.lookup_openAppend_self, hnew.1]
      rfl

theorem rotate_error {l : SegmentLog} {io : RotateIo} (h : ¬l.Rotates io)
    : ∃ e, (l.rotate io).2 = .error e := by
  unfold Rotates at h
  unfold SegmentLog.rotate SegmentLog.closeActive
  cases hactive : l.active with
  | none =>
    have hopen : ¬io.open = true := by simpa [hactive] using h
    exact ⟨.io, by simp [openActive, hopen]⟩
  | some a =>
    cases hsync : io.sync with
    | false => exact ⟨.io, by simp⟩
    | true =>
      cases hrename : io.rename with
      | false => exact ⟨.io, by simp⟩
      | true =>
        have hopen : ¬io.open = true := by simpa [hactive, hsync, hrename] using h
        exact ⟨.io, by simp [openActive, hopen]⟩

theorem rotate_active {l l' : SegmentLog} {io : RotateIo} {path : Option String}
    (h : l.rotate io = (l', .ok path)) : ∃ a, l'.active = some a := by
  unfold SegmentLog.rotate at h
  split at h
  . simp at h
  . split at h
    . simp at h
    . next l₁ _ _ l₂ hopen =>
      unfold openActive at hopen
      dsimp only at hopen
      split at hopen
      . simp at hopen
      . cases hopen
        cases h
        exact ⟨_, rfl⟩

-- What writing a record does when both writes succeed.
theorem writeRecord_done {l : SegmentLog} {a : Active} (hactive : l.active = some a)
    (data : List UInt8) {io : AppendIo} (hheader : io.header = .done) (hbody : io.body = .done)
    : l.writeRecord data io
        = ({ l with
            active := some { a with
              writtenBytes := a.writtenBytes + (RECORD_HEADER_BYTES + data.length)
              recordCount := a.recordCount + 1 }
            totalBytes := l.totalBytes + (RECORD_HEADER_BYTES + data.length)
            files := (l.files.append a.path
              (Bytes.bigEndian RECORD_HEADER_BYTES data.length)).append a.path data },
          .ok ⟨a.id, a.recordCount, a.writtenBytes, RECORD_HEADER_BYTES + data.length⟩) := by
  simp only [writeRecord, hactive, hheader, hbody, writeAll]

theorem Inv.writeRecord {firstId : Nat} {l : SegmentLog} (h : Inv firstId l) {a : Active}
    (hactive : l.active = some a) {data : List UInt8}
    (hshort : data.length < 256 ^ RECORD_HEADER_BYTES) {io : AppendIo}
    (hheader : io.header = .done) (hbody : io.body = .done)
    : ∃ l' receipt, l.writeRecord data io = (l', .ok receipt) ∧ Inv firstId l'
        ∧ l'.evidenceSince firstId = l.evidenceSince firstId ++ [data] := by
  have hfile := h.active a hactive
  rcases hfile.wellFormed with ⟨rs, hlookup, hrs⟩
  have hother : ∀ name, name ≠ wipPath a.id →
      ((l.files.append a.path (Bytes.bigEndian RECORD_HEADER_BYTES data.length)).append a.path
        data).lookup name = l.files.lookup name := by
    intro name hname
    rw [hfile.path_eq, Dir.lookup_append_of_ne _ hname, Dir.lookup_append_of_ne _ hname]
  have hself : ((l.files.append a.path (Bytes.bigEndian RECORD_HEADER_BYTES data.length)).append
      a.path data).lookup (wipPath a.id)
        = some (Records.encodeAll RECORD_HEADER_BYTES (rs ++ [data])) := by
    rw [hfile.path_eq, Dir.lookup_append_self, Dir.lookup_append_self, hlookup,
      Records.encodeAll_append, Records.encodeAll_singleton, Records.encode]
    simp
  have hrecords : ∀ r ∈ rs ++ [data], r.length < 256 ^ RECORD_HEADER_BYTES := by
    intro r hr
    rw [List.mem_append, List.mem_singleton] at hr
    rcases hr with hr | rfl
    . exact hrs r hr
    . exact hshort
  have hheaderBytes : 0 < RECORD_HEADER_BYTES := by decide
  refine ⟨_, _, writeRecord_done hactive data hheader hbody, ?_, ?_⟩
  . constructor
    . exact h.first_le
    . intro id hid
      dsimp only at hid
      have hlatest := hfile.latest
      have hne : id ≠ a.id := by omega
      unfold Absent
      dsimp only
      rw [hother _ (fun heq => hne (wipPath_inj heq)),
        hother _ (fun heq => wipPath_ne_segPath _ _ heq.symm)]
      exact h.absent id hid
    . intro a' ha'
      cases ha'
      constructor
      . exact hfile.path_eq
      . exact hfile.latest
      . exact hfile.first_le
      . dsimp only
        rw [hother _ (fun heq => wipPath_ne_segPath _ _ heq.symm)]
        exact hfile.notClosed
      . exact ⟨rs ++ [data], hself, hrecords⟩
  . have hbefore : l.recordsOf a.id = rs := by
      rw [recordsOf, fileOf, hfile.notClosed, hlookup]
      exact Records.read_encodeAll hheaderBytes hrs
    apply hfile.evidenceSince_append ?_
    . intro id hid
      have hne : id ≠ a.id := by omega
      unfold fileOf
      dsimp only
      rw [hother _ (fun heq => hne (wipPath_inj heq)),
        hother _ (fun heq => wipPath_ne_segPath _ _ heq.symm)]
    . rw [hbefore, recordsOf, fileOf]
      dsimp only
      rw [hother _ (fun heq => wipPath_ne_segPath _ _ heq.symm), hfile.notClosed, hself]
      exact Records.read_encodeAll hheaderBytes hrecords
    . rfl

theorem writeRecord_error {l : SegmentLog} {data : List UInt8} {io : AppendIo}
    (h : ¬(io.header = .done ∧ io.body = .done)) : ∃ e, (l.writeRecord data io).2 = .error e := by
  unfold SegmentLog.writeRecord
  cases hactive : l.active with
  | none => exact ⟨.noActiveSegment, rfl⟩
  | some a =>
    cases hheader : io.header with
    | failed written => exact ⟨.io, rfl⟩
    | done =>
      cases hbody : io.body with
      | failed written => exact ⟨.io, rfl⟩
      | done => exact absurd ⟨hheader, hbody⟩ h

-- When an append goes through: a condition on the log, the record and the file operations.
structure Accepts (l : SegmentLog) (data : List UInt8) (io : AppendIo) : Prop where
  size : data.length ≤ l.config.maxRecordBytes
  quota : l.config.quota.check l.totalBytes (RECORD_HEADER_BYTES + data.length) = .yes
  rotates : l.mustRotate (RECORD_HEADER_BYTES + data.length) = true → l.Rotates io.rotate
  header : io.header = .done
  body : io.body = .done

instance (l : SegmentLog) (data : List UInt8) (io : AppendIo) : Decidable (l.Accepts data io) :=
  decidable_of_iff
    (data.length ≤ l.config.maxRecordBytes
      ∧ l.config.quota.check l.totalBytes (RECORD_HEADER_BYTES + data.length) = .yes
      ∧ (l.mustRotate (RECORD_HEADER_BYTES + data.length) = true → l.Rotates io.rotate)
      ∧ io.header = .done ∧ io.body = .done)
    ⟨fun ⟨size, quota, rotates, header, body⟩ => ⟨size, quota, rotates, header, body⟩,
      fun h => ⟨h.size, h.quota, h.rotates, h.header, h.body⟩⟩

theorem Inv.append {firstId : Nat} {l : SegmentLog} (h : Inv firstId l) {data : List UInt8}
    {io : AppendIo} (hacc : l.Accepts data io)
    (hshort : data.length < 256 ^ RECORD_HEADER_BYTES)
    : ∃ l' receipt, l.append data io = (l', .ok receipt) ∧ Inv firstId l'
        ∧ l'.evidenceSince firstId = l.evidenceSince firstId ++ [data] := by
  unfold SegmentLog.append
  rw [if_neg (Nat.not_lt.mpr hacc.size)]
  dsimp only
  rw [hacc.quota]
  dsimp only
  split
  . next hmust =>
    rcases h.rotate (hacc.rotates hmust) with ⟨l₁, path, a, hrotate, hinv, hactive, hevidence⟩
    rw [hrotate, ← hevidence]
    exact hinv.writeRecord hactive hshort hacc.header hacc.body
  . next hroom =>
    cases hactive : l.active with
    | none => simp [mustRotate, hactive] at hroom
    | some a => exact h.writeRecord hactive hshort hacc.header hacc.body

theorem rotate_ok {l : SegmentLog} {io : RotateIo} (h : l.Rotates io)
    : ∃ l' path, l.rotate io = (l', .ok path) := by
  rcases h with ⟨hclose, hopen⟩
  unfold SegmentLog.rotate SegmentLog.closeActive
  cases hactive : l.active with
  | none => exact ⟨_, none, by simp [openActive, hopen]; rfl⟩
  | some a =>
    have hio := hclose (by simp [hactive])
    exact ⟨_, _, by simp [openActive, hopen, hio]; exact ⟨rfl, rfl⟩⟩

theorem append_ok {l : SegmentLog} {data : List UInt8} {io : AppendIo} (h : l.Accepts data io)
    : ∃ receipt, (l.append data io).2 = .ok receipt := by
  have hwrite : ∀ {l' : SegmentLog} {a : Active}, l'.active = some a →
      ∃ receipt, (l'.writeRecord data io).2 = .ok receipt := by
    intro l' a hactive
    exact ⟨_, congrArg (·.2) (writeRecord_done hactive data h.header h.body)⟩
  unfold SegmentLog.append
  rw [if_neg (Nat.not_lt.mpr h.size)]
  dsimp only
  rw [h.quota]
  dsimp only
  split
  . next hmust =>
    rcases rotate_ok (h.rotates hmust) with ⟨l', path, hrotate⟩
    rcases rotate_active hrotate with ⟨a, hactive⟩
    rw [hrotate]
    exact hwrite hactive
  . next hroom =>
    cases hactive : l.active with
    | none => simp [mustRotate, hactive] at hroom
    | some a => exact hwrite hactive

theorem append_error {l : SegmentLog} {data : List UInt8} {io : AppendIo}
    (h : ¬l.Accepts data io) : ∃ e, (l.append data io).2 = .error e := by
  unfold SegmentLog.append
  split
  . exact ⟨_, rfl⟩
  . next hsize =>
    dsimp only
    split
    . exact ⟨_, rfl⟩
    . next hquota =>
      have hwrites : (l.mustRotate (RECORD_HEADER_BYTES + data.length) = true →
          l.Rotates io.rotate) → ¬(io.header = .done ∧ io.body = .done) := by
        intro hrotates hio
        exact h ⟨Nat.not_lt.mp hsize, hquota, hrotates, hio.1, hio.2⟩
      split
      . next hmust =>
        split
        . exact ⟨_, rfl⟩
        . next l₁ path hrotate =>
          apply writeRecord_error
          apply hwrites
          intro _
          by_contra hio
          rcases rotate_error hio with ⟨e, he⟩
          rw [hrotate] at he
          contradiction
      . next hroom =>
        apply writeRecord_error
        apply hwrites
        intro hmust
        exact absurd hmust hroom

theorem mem_rename {files : Dir} {source target name : String}
    (h : name ∈ files.rename source target) : name = target ∨ (name ∈ files ∧ name ≠ source)
      ∨ (name ∈ files ∧ source ∉ files) := by
  unfold Dir.rename at h
  split at h
  . next hlookup => exact Or.inr (Or.inr ⟨h, AList.lookup_eq_none.mp hlookup⟩)
  . rw [AList.mem_insert, AList.mem_erase] at h
    rcases h with h | ⟨hne, hmem⟩
    . exact Or.inl h
    . exact Or.inr (Or.inl ⟨hmem, hne⟩)

theorem endsWith_of_getLast? {name : String} {ext : List Char} {ch : Char}
    (hext : ('.' :: ext).getLast? = some ch) (h : endsWith name ext = true)
    : name.toList.getLast? = some ch := by
  rcases of_decide_eq_true h with ⟨stem, hstem⟩
  rw [← hstem, List.getLast?_append, hext, Option.some_or]

theorem not_endsWith_quarantine (name : String)
    : ¬endsWith (withExtension name QUARANTINE_EXT) WIP_EXT = true := by
  intro h
  have hwip : ('.' :: WIP_EXT).getLast? = some 'p' := by decide
  have hquarantine : ('.' :: QUARANTINE_EXT).getLast? = some 'e' := by decide
  have := endsWith_of_getLast? hwip h
  rw [withExtension, String.toList_ofList, List.getLast?_append, hquarantine, Option.some_or]
    at this
  exact absurd this (by decide)

-- After recovery no `.wip` file is left: those there were are taken one after the other.
theorem foldl_quarantine (names : List String) (acc : Dir × Nat)
    (h : ∀ name ∈ acc.1, endsWith name WIP_EXT = true → name ∈ names)
    : ∀ name ∈ (names.foldl quarantine acc).1, ¬endsWith name WIP_EXT = true := by
  induction names generalizing acc with
  | nil =>
    intro name hmem hwip
    exact absurd (h name hmem hwip) (by simp)
  | cons next names ih =>
    rw [List.foldl_cons]
    apply ih
    intro name hmem hwip
    unfold quarantine at hmem
    split at hmem
    . next hnext =>
      rcases mem_rename hmem with rfl | ⟨hold, hne⟩ | ⟨hold, hgone⟩
      . exact absurd hwip (not_endsWith_quarantine next)
      . exact List.mem_of_ne_of_mem hne (h name hold hwip)
      . refine List.mem_of_ne_of_mem ?_ (h name hold hwip)
        rintro rfl
        exact hgone hold
    . next hnext =>
      refine List.mem_of_ne_of_mem ?_ (h name hmem hwip)
      rintro rfl
      exact hnext hwip

theorem foldl_countSegment_mono (files : Dir) (names : List String) (acc : Option Nat × Nat)
    {id : Nat} (h : ∃ highest, acc.1 = some highest ∧ id ≤ highest)
    : ∃ highest, (names.foldl (countSegment files) acc).1 = some highest ∧ id ≤ highest := by
  induction names generalizing acc with
  | nil => exact h
  | cons next names ih =>
    rw [List.foldl_cons]
    apply ih
    rcases h with ⟨highest, hacc, hle⟩
    unfold countSegment
    split
    . dsimp only
      split
      . next id' _ =>
        refine ⟨max highest id', by simp [hacc], ?_⟩
        omega
      . exact ⟨highest, hacc, hle⟩
    . exact ⟨highest, hacc, hle⟩

theorem le_foldl_countSegment (files : Dir) {names : List String} (acc : Option Nat × Nat)
    {name : String} (hmem : name ∈ names)
    (hseg : endsWith name SEG_EXT = true ∨ endsWith name QUARANTINE_EXT = true) {id : Nat}
    (hid : parseSegmentId name = some id)
    : ∃ highest, (names.foldl (countSegment files) acc).1 = some highest ∧ id ≤ highest := by
  induction names generalizing acc with
  | nil => contradiction
  | cons next names ih =>
    rw [List.foldl_cons]
    cases hmem with
    | tail _ htail => exact ih _ htail
    | head =>
      apply foldl_countSegment_mono
      unfold countSegment
      rw [if_pos hseg]
      dsimp only
      rw [hid]
      cases acc.1 with
      | none => exact ⟨id, rfl, Nat.le_refl _⟩
      | some highest => exact ⟨max highest id, rfl, Nat.le_max_right _ _⟩

/--
An opened log holds no evidence since its next segment id: whatever is in the directory belongs to
older segments.
-/
theorem Inv.open (config : Config) (files : Dir)
    : Inv (SegmentLog.open config files).nextSegId (SegmentLog.open config files) := by
  have hwip : ∀ name ∈ (SegmentLog.open config files).files, ¬endsWith name WIP_EXT = true := by
    apply foldl_quarantine
    intro name hmem _
    exact hmem
  have hseg : ∀ name ∈ (SegmentLog.open config files).files, endsWith name SEG_EXT = true →
      ∀ id, parseSegmentId name = some id → id < (SegmentLog.open config files).nextSegId := by
    intro name hmem hends id hid
    rcases le_foldl_countSegment (SegmentLog.open config files).files (none, 0) hmem (.inl hends) hid
      with ⟨highest, hhighest, hle⟩
    have hnext : (SegmentLog.open config files).nextSegId = highest + 1 := by
      exact congrArg (·.elim 0 (· + 1)) hhighest
    omega
  constructor
  . exact Nat.le_refl _
  . intro id hid
    constructor
    . rw [AList.lookup_eq_none]
      intro hmem
      apply hwip _ hmem
      simp [endsWith, wipPath]
    . rw [AList.lookup_eq_none]
      intro hmem
      have hends : endsWith (segPath id) SEG_EXT = true := by
        have : '.' :: SEG_EXT <:+ '.' :: "seg.seg".toList := by decide
        simpa [endsWith, segPath] using this.trans (List.suffix_append _ _)
      have := hseg _ hmem hends id (parseSegmentId_segPath id)
      omega
  . intro a ha
    cases ha

theorem evidenceSince_open (config : Config) (files : Dir)
    : (SegmentLog.open config files).evidenceSince (SegmentLog.open config files).nextSegId
        = [] := by
  rw [evidenceSince, Nat.sub_self]
  rfl

end SegmentLog

end Athar.Storage
