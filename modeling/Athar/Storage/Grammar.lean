import Athar.Storage.Lemmas
import Athar.Storage.Segments

/-!
This module contains the grammar of segment files, the encodings of records one after the other, and what
the reader makes of it. Bytes after the last record are an error as soon as there are enough of them for
a header, and are passed over when there are fewer.
-/

namespace Athar.Storage

-- The bytes are the records, each preceded by its length in four bytes.
def Encodes (records : List (List UInt8)) (bytes : List UInt8) : Prop :=
  (∀ r ∈ records, r.length < 256 ^ RECORD_HEADER_BYTES)
    ∧ bytes = Records.encodeAll RECORD_HEADER_BYTES records

-- After the records there are one to three bytes, which is less than a header.
def EndsInHeader (bytes : List UInt8) : Prop :=
  ∃ records whole rest, Encodes records whole ∧ bytes = whole ++ rest ∧ rest ≠ []
    ∧ rest.length < RECORD_HEADER_BYTES

section

variable {files : Dir} {path : String} {bytes : List UInt8}

theorem readSegmentRecords_eq_ok_iff (h : files.lookup path = some bytes)
    (records : List (List UInt8))
    : readSegmentRecords files path = .ok records
        ↔ ∃ whole rest, Encodes records whole ∧ bytes = whole ++ rest
          ∧ rest.length < RECORD_HEADER_BYTES := by
  have hread := Records.readStrict_eq_ok_iff (w := RECORD_HEADER_BYTES) (by decide) bytes records
  unfold readSegmentRecords
  rw [h]
  dsimp only
  cases hresult : Records.readStrict RECORD_HEADER_BYTES bytes with
  | error offset =>
    rw [hresult] at hread
    simp only [reduceCtorEq, false_iff] at hread ⊢
    rintro ⟨_, rest, ⟨hshort, rfl⟩, hbytes, hrest⟩
    exact hread ⟨hshort, rest, hbytes, hrest⟩
  | ok found =>
    rw [hresult, Except.ok.injEq] at hread
    rw [Except.ok.injEq, hread]
    constructor
    . rintro ⟨hshort, rest, hbytes, hrest⟩
      exact ⟨_, rest, ⟨hshort, rfl⟩, hbytes, hrest⟩
    . rintro ⟨_, rest, ⟨hshort, rfl⟩, hbytes, hrest⟩
      exact ⟨hshort, rest, hbytes, hrest⟩

-- A file that is there is read, or found corrupt at some record.
theorem readSegmentRecords_cases (h : files.lookup path = some bytes)
    : (∃ records, readSegmentRecords files path = .ok records)
        ∨ ∃ offset, readSegmentRecords files path
          = .error (.segmentCorrupt path offset "truncated record body") := by
  unfold readSegmentRecords
  rw [h]
  dsimp only
  cases Records.readStrict RECORD_HEADER_BYTES bytes with
  | error offset => exact .inr ⟨offset, rfl⟩
  | ok records => exact .inl ⟨records, rfl⟩

-- The two loops over a file find the same records.
theorem countRecordsBestEffort_of_ok (h : files.lookup path = some bytes)
    {records : List (List UInt8)} (hread : readSegmentRecords files path = .ok records)
    : countRecordsBestEffort bytes = records.length := by
  unfold readSegmentRecords at hread
  rw [h] at hread
  dsimp only at hread
  cases hresult : Records.readStrict RECORD_HEADER_BYTES bytes with
  | error offset =>
    rw [hresult] at hread
    contradiction
  | ok found =>
    rw [hresult] at hread
    have hfound : Records.read RECORD_HEADER_BYTES bytes = found := Records.strict_go_ok hresult
    rw [countRecordsBestEffort, hfound, Except.ok.inj hread]

end

-- The reader accepts the encodings of records and nothing else.
structure AcceptsGrammar (files : Dir) (path : String) (bytes : List UInt8) : Prop where
  ok_iff : ∀ records, readSegmentRecords files path = .ok records ↔ Encodes records bytes
  corrupt : (¬∃ records, Encodes records bytes) →
    ∃ offset, readSegmentRecords files path
      = .error (.segmentCorrupt path offset "truncated record body")
  counted : ∀ records, readSegmentRecords files path = .ok records →
    countRecordsBestEffort bytes = records.length

/--
The reader accepts exactly the grammar on a file if and only if the file does not end within a header.
-/
theorem acceptsGrammar_iff_not_endsInHeader {files : Dir} {path : String} {bytes : List UInt8}
    (h : files.lookup path = some bytes)
    : AcceptsGrammar files path bytes ↔ ¬EndsInHeader bytes := by
  constructor
  . rintro haccepts ⟨records, whole, rest, hwhole, rfl, hne, hshort⟩
    have hread := (readSegmentRecords_eq_ok_iff h records).mpr ⟨whole, rest, hwhole, rfl, hshort⟩
    have hencodes := (haccepts.ok_iff records).mp hread
    apply hne
    have hsame : whole ++ rest = whole := hencodes.2.trans hwhole.2.symm
    exact List.append_right_eq_self.mp hsame
  . intro hends
    have hok : ∀ records, readSegmentRecords files path = .ok records ↔ Encodes records bytes := by
      intro records
      rw [readSegmentRecords_eq_ok_iff h]
      constructor
      . rintro ⟨whole, rest, hwhole, rfl, hshort⟩
        have hnil : rest = [] := by
          by_contra hne
          exact hends ⟨records, whole, rest, hwhole, rfl, hne, hshort⟩
        rw [hnil, List.append_nil]
        exact hwhole
      . intro hencodes
        exact ⟨bytes, [], hencodes, by simp, by decide⟩
    constructor
    . exact hok
    . intro hnone
      rcases readSegmentRecords_cases h with ⟨records, hread⟩ | hcorrupt
      . exact absurd ⟨records, (hok records).mp hread⟩ hnone
      . exact hcorrupt
    . intro records
      exact countRecordsBestEffort_of_ok h

def fileOf (bytes : List UInt8) : Dir := (∅ : Dir).insert (segPath 0) bytes

-- A whole record, and a body that is cut short: the reader tells the one from the other.
theorem acceptsGrammar_iff_not_endsInHeader_record
    : AcceptsGrammar (fileOf [0, 0, 0, 1, 7]) (segPath 0) [0, 0, 0, 1, 7]
        ↔ ¬EndsInHeader [0, 0, 0, 1, 7] :=
  acceptsGrammar_iff_not_endsInHeader (AList.lookup_insert _)

-- A whole record, and the first two bytes of the next header.
def tornHeader : List UInt8 := [0, 0, 0, 1, 7, 0, 0]

theorem tornHeader_accepted : ¬AcceptsGrammar (fileOf tornHeader) (segPath 0) tornHeader := by
  intro h
  have hread : readSegmentRecords (fileOf tornHeader) (segPath 0) = .ok [[7]] := by decide +kernel
  have hencodes := ((h.ok_iff [[7]]).mp hread).2
  revert hencodes
  decide

end Athar.Storage
