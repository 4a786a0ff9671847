import Athar.Lib.Assoc
import Athar.Lib.Grouping
import Athar.Storage.Lemmas
import Athar.Storage.Segments

/-!
This module contains the directory of a log as a row of segments, each with the records in its file: what
the operations of the log on files are on that row, and what listing and reading the files tell of it.
-/

namespace Athar.Storage

open Hex

def quarantinePath (id : Nat) : String :=
  String.ofList (hex16 id ++ '.' :: "seg.seg.quarantine".toList)

def segmentPath (id : Nat) : SegmentState → String
  | .closed => segPath id
  | .active => wipPath id
  | .quarantined => quarantinePath id

theorem withExtension_quarantine (id : Nat)
    : withExtension (wipPath id) QUARANTINE_EXT = quarantinePath id := by
  rw [withExtension, wipPath, String.toList_ofList, fileStem_wip, quarantinePath, List.append_assoc]
  rfl

theorem parseSegmentId_segmentPath (id : Nat) (state : SegmentState)
    : parseSegmentId (segmentPath id state) = some id := by
  cases state with
  | closed => exact parseSegmentId_segPath id
  | active => exact parseSegmentId_wipPath id
  | quarantined =>
    rw [segmentPath, parseSegmentId, quarantinePath, String.toList_ofList, takeWhile_hex16,
      fromStrRadix16_hex16]

theorem endsWith_append (id : Nat) {ext suffix : List Char} (h : '.' :: ext <:+ '.' :: suffix)
    : endsWith (String.ofList (hex16 id ++ '.' :: suffix)) ext = true := by
  simpa [endsWith] using h.trans (List.suffix_append _ _)

theorem not_endsWith_append (id : Nat) {ext suffix : List Char}
    (h : ('.' :: suffix).getLast? ≠ ('.' :: ext).getLast?)
    : endsWith (String.ofList (hex16 id ++ '.' :: suffix)) ext = false := by
  rw [Bool.eq_false_iff]
  intro hends
  apply h
  cases hlast : ('.' :: ext).getLast? with
  | none => simp at hlast
  | some ch =>
    have := SegmentLog.endsWith_of_getLast? hlast hends
    rw [String.toList_ofList, List.getLast?_append] at this
    cases hsuffix : ('.' :: suffix).getLast? with
    | none => simp at hsuffix
    | some ch' =>
      rw [hsuffix, Option.some_or] at this
      exact this

theorem segmentState_segmentPath (id : Nat) (state : SegmentState)
    : segmentState (segmentPath id state) = some state := by
  unfold segmentState
  cases state with
  | closed =>
    rw [segmentPath, segPath, endsWith_append id (by decide), if_pos rfl]
  | active =>
    rw [segmentPath, wipPath, not_endsWith_append id (by decide), if_neg (by decide),
      endsWith_append id (List.suffix_refl _), if_pos rfl]
  | quarantined =>
    rw [segmentPath, quarantinePath, not_endsWith_append id (by decide), if_neg (by decide),
      not_endsWith_append id (by decide), if_neg (by decide), endsWith_append id (by decide),
      if_pos rfl]

theorem endsWith_segmentPath_wip (id : Nat) (state : SegmentState)
    : endsWith (segmentPath id state) WIP_EXT = true ↔ state = .active := by
  cases state with
  | closed =>
    rw [segmentPath, segPath, not_endsWith_append id (by decide)]
    simp
  | active =>
    rw [segmentPath, wipPath, endsWith_append id (List.suffix_refl _)]
    simp
  | quarantined =>
    rw [segmentPath, quarantinePath, not_endsWith_append id (by decide)]
    simp

theorem segmentPath_inj {i j : Nat} {s t : SegmentState} (h : segmentPath i s = segmentPath j t)
    : i = j ∧ s = t := by
  have hid := congrArg parseSegmentId h
  have hstate := congrArg segmentState h
  rw [parseSegmentId_segmentPath, parseSegmentId_segmentPath, Option.some.injEq] at hid
  rw [segmentState_segmentPath, segmentState_segmentPath, Option.some.injEq] at hstate
  exact ⟨hid, hstate⟩

structure Segment where
  id : Nat
  state : SegmentState
  records : List (List UInt8)

namespace Segment

variable (seg : Segment)

def path : String := segmentPath seg.id seg.state

def bytes : List UInt8 := Records.encodeAll RECORD_HEADER_BYTES seg.records

def entry : (_ : String) × List UInt8 := ⟨seg.path, seg.bytes⟩

def Short : Prop := ∀ r ∈ seg.records, r.length < 256 ^ RECORD_HEADER_BYTES

-- What the listing says of a segment.
def info (active : Option Active) : SegmentInfo where
  id := seg.id
  path := seg.path
  sizeBytes := seg.bytes.length
  recordCount :=
    if seg.state = .closed then
      countRecordsBestEffort seg.bytes
    else
      (active.filter (·.id = seg.id)).elim 0 (·.recordCount)
  state := seg.state

theorem segmentInfo_entry (active : Option Active) : segmentInfo active seg.entry = some (seg.info active) := by
  unfold segmentInfo entry path
  dsimp only
  rw [segmentState_segmentPath, parseSegmentId_segmentPath]
  rfl

end Segment

def Dir.bytes (files : Dir) : Nat :=
  (files.entries.flatMap (·.2)).length

structure Holds (files : Dir) (segs : List Segment) : Prop where
  entries : files.entries.Perm (segs.map Segment.entry)
  sorted : segs.Pairwise (·.id < ·.id)

theorem holds_empty : Holds ∅ [] :=
  ⟨List.Perm.refl _, List.Pairwise.nil⟩

namespace Holds

variable {files : Dir} {segs older newer : List Segment} {seg : Segment}

theorem lookup (h : Holds files segs) (hseg : seg ∈ segs) : files.lookup seg.path = some seg.bytes :=
  Assoc.lookup_of_perm h.entries (List.mem_map_of_mem hseg)

theorem mem_iff (h : Holds files segs) {name : String}
    : name ∈ files ↔ ∃ seg ∈ segs, seg.path = name := by
  rw [Assoc.mem_iff_of_perm h.entries]
  constructor
  . rintro ⟨e, he, rfl⟩
    rcases List.mem_map.mp he with ⟨seg, hseg, rfl⟩
    exact ⟨seg, hseg, rfl⟩
  . rintro ⟨seg, hseg, rfl⟩
    exact ⟨seg.entry, List.mem_map_of_mem hseg, rfl⟩

theorem not_mem (h : Holds files segs) {id : Nat} (hnew : ∀ seg ∈ segs, seg.id ≠ id)
    (state : SegmentState) : segmentPath id state ∉ files := by
  rw [h.mem_iff]
  rintro ⟨seg, hseg, heq⟩
  exact hnew seg hseg (segmentPath_inj heq).1

-- One segment of the row, and all the others.
theorem entries_middle (h : Holds files (older ++ seg :: newer))
    : files.entries.Perm (seg.entry :: (older ++ newer).map Segment.entry) := by
  have hmiddle : (older ++ seg :: newer).Perm (seg :: (older ++ newer)) := List.perm_middle
  exact h.entries.trans (hmiddle.map Segment.entry)

theorem id_ne (h : Holds files (older ++ seg :: newer)) {other : Segment}
    (hother : other ∈ older ++ newer) : other.id ≠ seg.id := by
  have hsorted := List.pairwise_append.mp h.sorted
  rw [List.mem_append] at hother
  cases hother with
  | inl holder =>
    have := hsorted.2.2 other holder seg (by simp)
    omega
  | inr hnewer =>
    have := (List.pairwise_cons.mp hsorted.2.1).1 other hnewer
    omega

theorem sorted_middle (h : Holds files (older ++ seg :: newer)) {seg' : Segment} (hid : seg'.id = seg.id)
    : (older ++ seg' :: newer).Pairwise (·.id < ·.id) := by
  have hsorted := h.sorted
  rw [List.pairwise_append, List.pairwise_cons] at hsorted ⊢
  rcases hsorted with ⟨holder, ⟨hseg, hnewer⟩, hacross⟩
  refine ⟨holder, ⟨?_, hnewer⟩, ?_⟩
  . rw [hid]
    exact hseg
  . intro a ha b hb
    rw [List.mem_cons] at hb
    rcases hb with rfl | hb
    . rw [hid]
      exact hacross a ha seg (by simp)
    . exact hacross a ha b (by simp [hb])

theorem of_entries_middle (h : Holds files (older ++ seg :: newer)) (seg' : Segment)
    (hid : seg'.id = seg.id) {files' : Dir}
    (hentries : files'.entries.Perm (seg'.entry :: (older ++ newer).map Segment.entry))
    : Holds files' (older ++ seg' :: newer) := by
  constructor
  . have hmiddle : (older ++ seg' :: newer).Perm (seg' :: (older ++ newer)) := List.perm_middle
    exact hentries.trans (hmiddle.map Segment.entry).symm
  . exact h.sorted_middle hid

theorem rename (h : Holds files (older ++ seg :: newer)) (state : SegmentState)
    : Holds (files.rename seg.path (segmentPath seg.id state))
        (older ++ { seg with state } :: newer) := by
  have hlookup := h.lookup (List.mem_append_right older (List.mem_cons_self (a := seg) (l := newer)))
  unfold Dir.rename
  rw [hlookup]
  apply h.of_entries_middle { seg with state } rfl
  apply Assoc.perm_insert_erase h.entries_middle
  intro e he heq
  rcases List.mem_map.mp he with ⟨other, hother, rfl⟩
  exact h.id_ne hother (segmentPath_inj heq).1

theorem append (h : Holds files (older ++ seg :: newer)) {bytes : List UInt8}
    {records : List (List UInt8)}
    (hbytes : Records.encodeAll RECORD_HEADER_BYTES records = seg.bytes ++ bytes)
    : Holds (files.append seg.path bytes) (older ++ { seg with records } :: newer) := by
  have hlookup := h.lookup (List.mem_append_right older (List.mem_cons_self (a := seg) (l := newer)))
  unfold Dir.append
  rw [hlookup, Option.getD_some, ← hbytes]
  apply h.of_entries_middle { seg with records } rfl
  exact Assoc.perm_insert h.entries_middle _

theorem erase (h : Holds files (older ++ seg :: newer))
    : Holds (files.erase seg.path) (older ++ newer) := by
  constructor
  . exact Assoc.perm_erase h.entries_middle
  . have hsublist : (older ++ newer).Sublist (older ++ seg :: newer) :=
      (List.Sublist.refl older).append (List.sublist_cons_self seg newer)
    exact h.sorted.sublist hsublist

theorem openAppend (h : Holds files segs) {id : Nat} (hnew : ∀ seg ∈ segs, seg.id < id)
    : Holds (files.openAppend (wipPath id)) (segs ++ [⟨id, .active, []⟩]) := by
  have hnotMem : segmentPath id .active ∉ files := by
    apply h.not_mem
    intro seg hseg
    have := hnew seg hseg
    omega
  have hlookup : files.lookup (wipPath id) = none := AList.lookup_eq_none.mpr hnotMem
  constructor
  . unfold Dir.openAppend
    rw [hlookup, List.map_append]
    exact (Assoc.perm_insert_new h.entries hnotMem _).trans (List.perm_append_singleton _ _).symm
  . rw [List.pairwise_append]
    refine ⟨h.sorted, List.pairwise_singleton _ _, ?_⟩
    intro seg hseg new hmem
    rw [List.mem_singleton] at hmem
    rw [hmem]
    exact hnew seg hseg

theorem eq_of_id_eq (h : Holds files segs) {a b : Segment} (ha : a ∈ segs) (hb : b ∈ segs)
    (hid : a.id = b.id) : a = b := by
  rcases List.mem_iff_append.mp ha with ⟨older, newer, rfl⟩
  rw [List.mem_append, List.mem_cons] at hb
  by_contra hne
  have hother : b ∈ older ++ newer := by
    rw [List.mem_append]
    rcases hb with hb | hb | hb
    . exact .inl hb
    . exact absurd hb.symm hne
    . exact .inr hb
  exact h.id_ne hother hid.symm

-- The listing of the directory is the row itself: the ids order it.
theorem segments_eq (h : Holds files segs) (active : Option Active)
    : segments files active = segs.map (·.info active) := by
  have hlisted : (segs.map Segment.entry).filterMap (segmentInfo active)
      = segs.map (·.info active) := by
    rw [List.filterMap_map, ← List.filterMap_eq_map]
    apply List.filterMap_congr
    intro seg _
    exact seg.segmentInfo_entry active
  have hperm : (files.entries.filterMap (segmentInfo active)).Perm (segs.map (·.info active)) := by
    rw [← hlisted]
    exact h.entries.filterMap _
  unfold segments
  have hsortPerm := (List.perm_insertionSort (fun a b : SegmentInfo => a.id ≤ b.id) _).trans hperm
  refine List.Perm.eq_of_pairwise ?_ (Grouping.pairwise_insertionSort _) ?_ hsortPerm
  . intro a b ha hb hab hba
    rcases List.mem_map.mp (hsortPerm.mem_iff.mp ha) with ⟨seg, hseg, rfl⟩
    rcases List.mem_map.mp hb with ⟨other, hother, rfl⟩
    rw [h.eq_of_id_eq hseg hother (Nat.le_antisymm hab hba)]
  . rw [List.pairwise_map]
    apply h.sorted.imp
    intro a b hlt
    exact Nat.le_of_lt hlt

theorem readSegmentRecords_eq_iff (h : Holds files segs) (hseg : seg ∈ segs)
    : readSegmentRecords files seg.path = .ok seg.records ↔ seg.Short := by
  have hread := Records.readStrict_encodeAll_iff (w := RECORD_HEADER_BYTES) (by decide) seg.records
  unfold readSegmentRecords Segment.Short
  rw [h.lookup hseg, ← hread]
  unfold Segment.bytes
  dsimp only
  cases Records.readStrict RECORD_HEADER_BYTES (Records.encodeAll RECORD_HEADER_BYTES seg.records) with
  | error offset => simp
  | ok records => simp

theorem bytes_eq (h : Holds files segs) : files.bytes = (segs.flatMap Segment.bytes).length := by
  unfold Dir.bytes
  rw [(h.entries.flatMap_right (·.2)).length_eq, List.flatMap_map]
  rfl

-- What the recovery of `open` does to a segment, once it has come to the files in `names`.
def quarantined (names : List String) (seg : Segment) : Segment :=
  if seg.state = .active ∧ seg.path ∈ names then { seg with state := .quarantined } else seg

theorem quarantine_cons (name : String) (names : List String) (segs : List Segment)
    : (segs.map (quarantined [name])).map (quarantined names) = segs.map (quarantined (name :: names)) := by
  rw [List.map_map]
  apply List.map_congr_left
  intro seg _
  rw [Function.comp_apply]
  unfold quarantined
  by_cases hactive : seg.state = .active
  . by_cases hname : seg.path = name
    . simp [hactive, hname]
    . simp [hactive, hname]
  . simp [hactive]

-- At most one segment has the name of a file, and only an active one is quarantined.
theorem quarantined_one (h : Holds files segs) (name : String)
    : segs.map (quarantined [name]) = segs ∧ (endsWith name WIP_EXT = true → name ∉ files)
        ∨ ∃ older seg newer, segs = older ++ seg :: newer ∧ seg.state = .active ∧ seg.path = name
          ∧ segs.map (quarantined [name]) = older ++ { seg with state := .quarantined } :: newer := by
  have hother : ∀ seg : Segment, ¬(seg.state = .active ∧ seg.path = name) → quarantined [name] seg = seg := by
    intro seg hne
    unfold quarantined
    rw [if_neg]
    rw [List.mem_singleton]
    exact hne
  by_cases hfound : ∃ seg ∈ segs, seg.state = .active ∧ seg.path = name
  . right
    rcases hfound with ⟨seg, hseg, hactive, hpath⟩
    rcases List.mem_iff_append.mp hseg with ⟨older, newer, rfl⟩
    have hrest : ∀ other ∈ older ++ newer, quarantined [name] other = other := by
      intro other hmem
      apply hother
      rintro ⟨_, hpath'⟩
      exact h.id_ne hmem (segmentPath_inj (hpath'.trans hpath.symm)).1
    refine ⟨older, seg, newer, rfl, hactive, hpath, ?_⟩
    rw [List.map_append, List.map_cons,
      List.map_congr_left (fun other ho => hrest other (List.mem_append_left _ ho)),
      List.map_congr_left (fun other ho => hrest other (List.mem_append_right _ ho)),
      List.map_id', List.map_id']
    unfold quarantined
    rw [if_pos ⟨hactive, by simp [hpath]⟩]
  . left
    constructor
    . rw [List.map_congr_left (fun seg hseg => hother seg (fun hboth => hfound ⟨seg, hseg, hboth⟩)),
        List.map_id']
    . intro hwip
      rw [h.mem_iff]
      rintro ⟨seg, hseg, rfl⟩
      apply hfound
      exact ⟨seg, hseg, (endsWith_segmentPath_wip seg.id seg.state).mp hwip, rfl⟩

theorem endsWith_wip_path {seg : Segment} (h : seg.state = .active) : endsWith seg.path WIP_EXT = true :=
  (endsWith_segmentPath_wip seg.id seg.state).mpr h

theorem quarantine_one (h : Holds files segs) (n : Nat) (name : String)
    : Holds (SegmentLog.quarantine (files, n) name).1 (segs.map (quarantined [name])) := by
  unfold SegmentLog.quarantine
  rcases h.quarantined_one name with ⟨hsame, hnotMem⟩ | ⟨older, seg, newer, rfl, hactive, rfl, hnew⟩
  . rw [hsame]
    split
    . next hwip =>
      dsimp only
      unfold Dir.rename
      rw [AList.lookup_eq_none.mpr (hnotMem hwip)]
      exact h
    . exact h
  . have htarget : withExtension seg.path QUARANTINE_EXT = segmentPath seg.id .quarantined := by
      rw [Segment.path, hactive]
      exact withExtension_quarantine seg.id
    rw [hnew, if_pos (endsWith_wip_path hactive)]
    dsimp only
    rw [htarget]
    exact h.rename .quarantined

theorem foldl_quarantine (h : Holds files segs) (n : Nat) (names : List String)
    : Holds (names.foldl SegmentLog.quarantine (files, n)).1 (segs.map (quarantined names)) := by
  induction names generalizing files segs n with
  | nil =>
    have hsame : quarantined [] = id := by
      funext seg
      simp [quarantined]
    rw [hsame, List.map_id]
    exact h
  | cons name names ih =>
    rw [List.foldl_cons, ← quarantine_cons]
    exact ih (h.quarantine_one n name) _

end Holds

def Segment.recovered (seg : Segment) : Segment :=
  if seg.state = .active then { seg with state := .quarantined } else seg

@[simp]
theorem Segment.recovered_id (seg : Segment) : seg.recovered.id = seg.id := by
  unfold Segment.recovered
  split
  . rfl
  . rfl

@[simp]
theorem Segment.recovered_records (seg : Segment) : seg.recovered.records = seg.records := by
  unfold Segment.recovered
  split
  . rfl
  . rfl

theorem Segment.recovered_state (seg : Segment) : seg.recovered.state ≠ .active := by
  unfold Segment.recovered
  split
  . simp
  . next h => exact h

theorem countSegment_snd (files : Dir) (acc : Option Nat × Nat) {name : String}
    (h : endsWith name SEG_EXT = true ∨ endsWith name QUARANTINE_EXT = true)
    : (SegmentLog.countSegment files acc name).2 = acc.2 + files.size name := by
  unfold SegmentLog.countSegment
  rw [if_pos h]
  dsimp only
  split
  . rfl
  . rfl

theorem foldl_countSegment_bytes (files : Dir) {names : List String} (acc : Option Nat × Nat)
    (h : ∀ name ∈ names, endsWith name SEG_EXT = true ∨ endsWith name QUARANTINE_EXT = true)
    : (names.foldl (SegmentLog.countSegment files) acc).2
        = acc.2 + (names.flatMap (fun name => (files.lookup name).getD [])).length := by
  induction names generalizing acc with
  | nil => simp
  | cons name names ih =>
    have hone := countSegment_snd files acc (h name (by simp))
    rw [List.foldl_cons, ih _ (fun name' hname => h name' (by simp [hname])), hone, List.flatMap_cons,
      List.length_append, Dir.size]
    omega

-- The highest id is the id of a file.
theorem exists_of_foldl_countSegment (files : Dir) {names : List String} (acc : Option Nat × Nat)
    {highest : Nat} (h : (names.foldl (SegmentLog.countSegment files) acc).1 = some highest)
    : acc.1 = some highest ∨ ∃ name ∈ names, parseSegmentId name = some highest := by
  induction names generalizing acc with
  | nil => exact .inl h
  | cons name names ih =>
    rcases ih _ h with hone | ⟨name', hname', hid⟩
    . unfold SegmentLog.countSegment at hone
      split at hone
      . dsimp only at hone
        split at hone
        . next id hparse =>
          rw [Option.some.injEq] at hone
          cases hacc : acc.1 with
          | none =>
            right
            rw [hacc, Option.elim_none] at hone
            refine ⟨name, by simp, ?_⟩
            rw [hparse, hone]
          | some before =>
            rw [hacc, Option.elim_some] at hone
            rcases Nat.le_total before id with hle | hle
            . right
              rw [Nat.max_eq_right hle] at hone
              refine ⟨name, by simp, ?_⟩
              rw [hparse, hone]
            . left
              rw [Nat.max_eq_left hle] at hone
              rw [hone]
        . exact .inl hone
      . exact .inl hone
    . exact .inr ⟨name', by simp [hname'], hid⟩

theorem Dir.bytes_keys (files : Dir)
    : (files.keys.flatMap (fun name => (files.lookup name).getD [])).length = files.bytes := by
  unfold AList.keys List.keys Dir.bytes
  rw [List.flatMap_map]
  congr 1
  apply List.flatMap_congr
  intro e he
  have hlookup : files.lookup e.1 = some e.2 := AList.mem_lookup_iff.mpr he
  rw [hlookup, Option.getD_some]

-- What a log finds when it is opened: all that was written, under its id.
theorem Holds.open {files : Dir} {segs : List Segment} (h : Holds files segs) (config : Config)
    : Holds (SegmentLog.open config files).files (segs.map Segment.recovered)
      ∧ (∀ seg ∈ segs, seg.id < (SegmentLog.open config files).nextSegId)
      ∧ (SegmentLog.open config files).totalBytes = (SegmentLog.open config files).files.bytes := by
  have hholds : Holds (SegmentLog.open config files).files (segs.map Segment.recovered) := by
    have hall : segs.map (Holds.quarantined files.keys) = segs.map Segment.recovered := by
      apply List.map_congr_left
      intro seg hseg
      have hmem : seg.path ∈ files.keys := h.mem_iff.mpr ⟨seg, hseg, rfl⟩
      unfold Holds.quarantined Segment.recovered
      simp [hmem]
    rw [← hall]
    exact h.foldl_quarantine 0 files.keys
  have hends : ∀ seg ∈ segs, endsWith seg.recovered.path SEG_EXT = true
      ∨ endsWith seg.recovered.path QUARANTINE_EXT = true := by
    intro seg _
    have hstate := seg.recovered_state
    unfold Segment.path
    cases hrecovered : seg.recovered.state with
    | active => exact absurd hrecovered hstate
    | closed => exact .inl (endsWith_append _ (by decide))
    | quarantined => exact .inr (endsWith_append _ (by decide))
  refine ⟨hholds, ?_, ?_⟩
  . intro seg hseg
    have hmem : seg.recovered.path ∈ (SegmentLog.open config files).files.keys :=
      hholds.mem_iff.mpr ⟨_, List.mem_map_of_mem hseg, rfl⟩
    rcases SegmentLog.le_foldl_countSegment (SegmentLog.open config files).files (none, 0) hmem
      (hends seg hseg) (parseSegmentId_segmentPath _ _) with ⟨highest, hhighest, hle⟩
    have hnext : (SegmentLog.open config files).nextSegId = highest + 1 :=
      congrArg (·.elim 0 (· + 1)) hhighest
    rw [seg.recovered_id] at hle
    omega
  . have hkeys : ∀ name ∈ (SegmentLog.open config files).files.keys,
        endsWith name SEG_EXT = true ∨ endsWith name QUARANTINE_EXT = true := by
      intro name hname
      rcases hholds.mem_iff.mp hname with ⟨seg, hseg, rfl⟩
      rcases List.mem_map.mp hseg with ⟨old, hold, rfl⟩
      exact hends old hold
    have htotal := foldl_countSegment_bytes (SegmentLog.open config files).files (none, 0) hkeys
    rw [Dir.bytes_keys, Nat.zero_add] at htotal
    exact htotal

-- The next id follows on the ids that are there, and on no others.
theorem Holds.open_nextSegId {files : Dir} {segs : List Segment} (h : Holds files segs) (config : Config)
    : (SegmentLog.open config files).nextSegId = 0
      ∨ ∃ seg ∈ segs, (SegmentLog.open config files).nextSegId = seg.id + 1 := by
  let log := SegmentLog.open config files
  cases hhighest : (log.files.keys.foldl (SegmentLog.countSegment log.files) (none, 0)).1 with
  | none =>
    have hnext : log.nextSegId = 0 := congrArg (·.elim 0 (· + 1)) hhighest
    exact .inl hnext
  | some highest =>
    have hnext : log.nextSegId = highest + 1 := congrArg (·.elim 0 (· + 1)) hhighest
    rcases exists_of_foldl_countSegment log.files (none, 0) hhighest with hnone | ⟨name, hname, hid⟩
    . contradiction
    . rcases (h.open config).1.mem_iff.mp hname with ⟨seg, hseg, rfl⟩
      rcases List.mem_map.mp hseg with ⟨old, hold, rfl⟩
      rw [Segment.path, parseSegmentId_segmentPath, Option.some.injEq, old.recovered_id] at hid
      right
      refine ⟨old, hold, ?_⟩
      rw [hid]
      exact hnext

end Athar.Storage
