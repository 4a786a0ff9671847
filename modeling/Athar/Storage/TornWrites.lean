import Athar.Storage.Process

/-!
This module contains what failing file operations do to the evidence log. A rotation that fails costs the
log its active segment and nothing else. A write that fails part way leaves a torn record in the file and
out of the counters, and what is appended after it cannot be read. A record whose length does not fit its
header has the same effect once its segment is closed.
-/

namespace Athar.Storage

namespace Session

/--
Every closed segment is read back as the records that were accepted for it, no segment of an accepted
record is missing, and the log counts the bytes of its files.
-/
def Undamaged (s : Session) : Prop :=
  (∀ info ∈ segments s.process.files s.process.active, info.state = .closed →
      readSegmentRecords s.process.files info.path = .ok (recordsIn s.accepted info.id))
    ∧ (∀ x ∈ s.accepted,
      ∃ info ∈ segments s.process.files s.process.active, info.id = x.segmentId)
    ∧ ∀ log, s.process = .up log → log.totalBytes = log.files.bytes

-- An append fails after it has put some of its record into the file.
def Tears (s : Session) (cmd : Command) : Prop :=
  match s.process, cmd with
  | .up log, .append data io => log.Reaches data io ∧ io.Tears
  | _, _ => False

end Session

-- The rotation closes a segment with a record whose length its header cannot hold.
def SegmentLog.ClosesLong (l : SegmentLog) (accepted : List Accepted) (io : RotateIo) : Prop :=
  ∃ a, l.active = some a ∧ (io.sync = true ∧ io.rename = true)
    ∧ ∃ r ∈ recordsIn accepted a.id, ¬r.length < 256 ^ RECORD_HEADER_BYTES

def Session.ClosesLong (s : Session) (cmd : Command) : Prop :=
  match s.process, cmd with
  | .up log, .append data io =>
    log.Admits data ∧ log.mustRotate (RECORD_HEADER_BYTES + data.length) = true
      ∧ log.ClosesLong s.accepted io.rotate
  | .up log, .rotate io => log.ClosesLong s.accepted io
  | .up log, .close io _ => log.ClosesLong s.accepted io
  | _, _ => False

def ShortClosed (segs : List Segment) : Prop :=
  ∀ seg ∈ segs, seg.state = .closed → seg.Short

theorem shortClosed_append {older newer : List Segment}
    : ShortClosed (older ++ newer) ↔ ShortClosed older ∧ ShortClosed newer :=
  List.forall_mem_append

theorem shortClosed_active {seg : Segment} (h : seg.state = .active) : ShortClosed [seg] := by
  intro other hother hclosed
  rw [List.mem_singleton] at hother
  rw [hother, h] at hclosed
  contradiction

theorem ShortClosed.map {segs : List Segment} (h : ShortClosed segs) {f : Segment → Segment}
    (hstate : ∀ seg, (f seg).state = .closed → seg.state = .closed)
    (hrecords : ∀ seg, (f seg).records = seg.records) : ShortClosed (segs.map f) := by
  intro seg hseg hclosed
  rcases List.mem_map.mp hseg with ⟨old, hold, rfl⟩
  unfold Segment.Short
  rw [hrecords]
  exact h old hold (hstate old hclosed)

theorem Closing.shortClosed_iff {l : SegmentLog} {io : RotateIo} {segs mid : List Segment}
    {accepted : List Accepted} (hlogged : Logged accepted l segs) (hclosing : Closing l io segs mid)
    (hshort : ShortClosed segs) : ShortClosed mid ↔ ¬l.ClosesLong accepted io := by
  cases hclosing with
  | kept h =>
    apply iff_of_true hshort
    rintro ⟨a, hactive, hio, _⟩
    rcases h with hnone | hlost
    . rw [hactive] at hnone
      contradiction
    . exact hlost hio
  | @closed a older last hactive hbacks hio hsegs =>
    subst hsegs
    have hrecords : last.records = recordsIn accepted a.id := by
      rw [hbacks.id_eq]
      exact hlogged.shelved.records last (by simp)
    have hlast : ShortClosed [last.closed] ↔ last.Short := by
      simp [ShortClosed, Segment.closed, Segment.Short]
    rw [shortClosed_append, hlast, and_iff_right (shortClosed_append.mp hshort).1]
    unfold Segment.Short SegmentLog.ClosesLong
    rw [hrecords]
    constructor
    . rintro hall ⟨a', hactive', _, r, hr, hlong⟩
      rw [hactive] at hactive'
      rw [← Option.some.inj hactive'] at hr
      exact hlong (hall r hr)
    . intro hnone r hr
      by_contra hlong
      exact hnone ⟨a, hactive, hio, r, hr, hlong⟩

theorem Rotated.shortClosed_iff {l l' : SegmentLog} {io : RotateIo} {segs segs' : List Segment}
    {accepted : List Accepted} {result : Except StorageError (Option String)}
    (hlogged : Logged accepted l segs) (hrotated : Rotated l io segs l' result segs')
    (hshort : ShortClosed segs) : ShortClosed segs' ↔ ¬l.ClosesLong accepted io := by
  cases hrotated with
  | failed e hio hclosing => exact hclosing.shortClosed_iff hlogged hshort
  | opened path hio hclosing =>
    rw [shortClosed_append, and_iff_left (shortClosed_active rfl)]
    exact hclosing.shortClosed_iff hlogged hshort

theorem Ready.shortClosed_iff {l l₁ : SegmentLog} {data : List UInt8} {io : AppendIo}
    {segs segs₁ : List Segment} {accepted : List Accepted} (hlogged : Logged accepted l segs)
    (hready : Ready l data io segs l₁ segs₁) (hshort : ShortClosed segs)
    : ShortClosed segs₁
        ↔ ¬(l.mustRotate (RECORD_HEADER_BYTES + data.length) = true
          ∧ l.ClosesLong accepted io.rotate) := by
  cases hready with
  | room h => simp [h, hshort]
  | rotated h hrotated =>
    rw [hrotated.shortClosed_iff hlogged hshort, h]
    simp

theorem Writing.shortClosed_iff {accepted : List Accepted} {l l₁ : SegmentLog} {data : List UInt8}
    {io : AppendIo} {segs older : List Segment} {last : Segment} {a : Active}
    (hlogged : Logged accepted l segs) (hreaches : l.Reaches data io)
    (hwriting : Writing accepted l data io segs l₁ older last a) (hshort : ShortClosed segs)
    : ShortClosed older
        ↔ ¬(l.Admits data ∧ l.mustRotate (RECORD_HEADER_BYTES + data.length) = true
          ∧ l.ClosesLong accepted io.rotate) := by
  have hready := hwriting.ready.shortClosed_iff hlogged hshort
  rw [shortClosed_append, and_iff_left (shortClosed_active hwriting.backs.state_eq)] at hready
  rw [hready]
  simp [hreaches.1]

theorem Appended.shortClosed_iff {accepted accepted' : List Accepted} {l l' : SegmentLog}
    {data : List UInt8} {io : AppendIo} {segs segs' : List Segment}
    {result : Except StorageError AppendReceipt} (hlogged : Logged accepted l segs)
    (happended : Appended accepted l data io segs l' result accepted' segs')
    (hshort : ShortClosed segs)
    : ShortClosed segs'
        ↔ ¬(l.Admits data ∧ l.mustRotate (RECORD_HEADER_BYTES + data.length) = true
          ∧ l.ClosesLong accepted io.rotate) := by
  cases happended with
  | rejected hadmits => simp [hadmits, hshort]
  | notRotated hadmits hmust hrotated =>
    rw [hrotated.shortClosed_iff hlogged hshort]
    simp [hadmits, hmust]
  | notWritten hreaches hwriting =>
    rw [shortClosed_append, and_iff_left (shortClosed_active hwriting.backs.state_eq)]
    exact hwriting.shortClosed_iff hlogged hreaches hshort
  | @written _ _ last _ hreaches hwriting =>
    have hactive : (last.push data).state = .active := hwriting.backs.state_eq
    rw [shortClosed_append, and_iff_left (shortClosed_active hactive)]
    exact hwriting.shortClosed_iff hlogged hreaches hshort

theorem Ended.shortClosed_iff {accepted : List Accepted} {l : SegmentLog} {io : RotateIo} {removes : Bool}
    {segs segs' : List Segment} (hlogged : Logged accepted l segs)
    (hended : Ended l io removes segs segs') (hshort : ShortClosed segs)
    : ShortClosed segs' ↔ ¬l.ClosesLong accepted io := by
  cases hended with
  | idle hnone =>
    apply iff_of_true hshort
    rintro ⟨a, hactive, _⟩
    rw [hnone] at hactive
    contradiction
  | failed hrotated => exact hrotated.shortClosed_iff hlogged hshort
  | discarded hio hclosing => exact hclosing.shortClosed_iff hlogged hshort
  | left id hio hclosing =>
    rw [shortClosed_append, and_iff_left (shortClosed_active rfl)]
    exact hclosing.shortClosed_iff hlogged hshort

theorem Evicted.shortClosed {accepted accepted' : List Accepted} {l : SegmentLog} {removes : Bool}
    {segs segs' : List Segment} (hevicted : Evicted accepted l removes segs accepted' segs')
    (hshort : ShortClosed segs) : ShortClosed segs' := by
  cases hevicted with
  | kept => exact hshort
  | removed hremoves hsegs =>
    rw [hsegs, shortClosed_append] at hshort
    rw [shortClosed_append]
    exact ⟨hshort.1, fun seg hseg => hshort.2 seg (List.mem_cons_of_mem _ hseg)⟩

namespace Session

theorem quarantined_closed (names : List String) (seg : Segment)
    (h : (Holds.quarantined names seg).state = .closed) : seg.state = .closed := by
  unfold Holds.quarantined at h
  split at h
  . contradiction
  . exact h

theorem recovered_closed (seg : Segment) (h : seg.recovered.state = .closed) : seg.state = .closed := by
  unfold Segment.recovered at h
  split at h
  . contradiction
  . exact h

-- What one command does to the segments, when it tears no record.
theorem inv_step {config : Config} {s : Session} {segs : List Segment} (h : s.Inv config segs)
    (hshort : ShortClosed segs) {cmd : Command} (hwhole : ¬s.Tears cmd)
    : ∃ segs', (s.step config cmd).Inv config segs' ∧ (ShortClosed segs' ↔ ¬s.ClosesLong cmd) := by
  rcases s with ⟨process, accepted, crashed, interrupted⟩
  cases process with
  | down files =>
    cases cmd with
    | «open» failsAfter =>
      cases failsAfter with
      | none =>
        refine ⟨_, ⟨rfl, Shelved.open h⟩, iff_of_true ?_ (fun hfalse => hfalse)⟩
        exact hshort.map recovered_closed Segment.recovered_records
      | some n =>
        refine ⟨_, Shelved.restate h _ (quarantined_id _) (quarantined_records _)
          (h.holds.foldl_quarantine 0 _), iff_of_true ?_ (fun hfalse => hfalse)⟩
        exact hshort.map (quarantined_closed _) (quarantined_records _)
    | _ => exact ⟨segs, h, iff_of_true hshort (fun hfalse => hfalse)⟩
  | up log =>
    rcases h with ⟨hconfig, hlogged⟩
    cases cmd with
    | «open» failsAfter =>
      exact ⟨segs, ⟨hconfig, hlogged⟩, iff_of_true hshort (fun hfalse => hfalse)⟩
    | sync succeeds =>
      exact ⟨segs, ⟨hconfig, hlogged⟩, iff_of_true hshort (fun hfalse => hfalse)⟩
    | append data io =>
      have hio : log.Reaches data io → ¬io.Tears := fun hreaches htears => hwhole ⟨hreaches, htears⟩
      rcases hlogged.append hio with ⟨accepted', segs', happended, hlogged', hconfig'⟩
      refine ⟨segs', ⟨hconfig'.trans hconfig, ?_⟩, happended.shortClosed_iff hlogged hshort⟩
      unfold step
      rw [happended.acceptedAfter]
      exact hlogged'
    | rotate io =>
      rcases hlogged.rotate io with ⟨segs', hrotated, hlogged', hconfig'⟩
      exact ⟨segs', ⟨hconfig'.trans hconfig, hlogged'⟩, hrotated.shortClosed_iff hlogged hshort⟩
    | close io removes =>
      rcases hlogged.close io removes with ⟨segs', hended, hshelved⟩
      rw [hconfig] at hshelved
      exact ⟨segs', hshelved, hended.shortClosed_iff hlogged hshort⟩
    | evictOldestClosed removes =>
      rcases hlogged.evictOldestClosed removes
        with ⟨accepted', segs', hevicted, hlogged', hconfig', haccepted⟩
      rw [haccepted] at hlogged'
      exact ⟨segs', ⟨hconfig'.trans hconfig, hlogged'⟩,
        iff_of_true (hevicted.shortClosed hshort) (fun hfalse => hfalse)⟩
    | crash =>
      have hshelved := hlogged.shelved
      rw [hconfig] at hshelved
      exact ⟨segs, hshelved, iff_of_true hshort (fun hfalse => hfalse)⟩

theorem Inv.undamaged_iff {config : Config} {s : Session} {segs : List Segment} (h : s.Inv config segs)
    : s.Undamaged ↔ ShortClosed segs := by
  have hshelved := h.shelved
  unfold Undamaged
  rw [hshelved.holds.segments_eq]
  constructor
  . rintro ⟨hread, _⟩ seg hseg hclosed
    apply (hshelved.holds.readSegmentRecords_eq_iff hseg).mp
    rw [hshelved.records seg hseg]
    exact hread _ (List.mem_map_of_mem hseg) hclosed
  . intro hshort
    refine ⟨?_, ?_, ?_⟩
    . intro info hinfo hclosed
      rcases List.mem_map.mp hinfo with ⟨seg, hseg, rfl⟩
      have hread := (hshelved.holds.readSegmentRecords_eq_iff hseg).mpr (hshort seg hseg hclosed)
      rw [hshelved.records seg hseg] at hread
      exact hread
    . intro x hx
      rcases hshelved.kept x hx with ⟨seg, hseg, hid⟩
      exact ⟨_, List.mem_map_of_mem hseg, hid⟩
    . intro log hup
      exact (h.logged hup).2.total

theorem not_undamaged_of_tears {config : Config} {s : Session} {segs : List Segment}
    (h : s.Inv config segs) {cmd : Command} (htears : s.Tears cmd)
    : ¬(s.step config cmd).Undamaged := by
  rcases s with ⟨process, accepted, crashed, interrupted⟩
  unfold Tears at htears
  split at htears
  . next log data io hup =>
    dsimp only at hup
    subst hup
    rcases htears with ⟨hreaches, hio⟩
    rcases h.2.writing hreaches with ⟨l₁, older, last, a, hwriting⟩
    have hlt := hwriting.logged.total_lt_of_tears hwriting.active hwriting.backs data hio
    rw [← hwriting.append_eq] at hlt
    rintro ⟨_, _, htotal⟩
    have := htotal _ rfl
    omega
  . contradiction

end Session

/--
Whichever file operations fail, the log is undamaged in every state reached if and only if no append
fails after it has written some of its record, and no segment is closed that has a record of `2 ^ 32` or
more bytes.
-/
theorem undamaged_iff_whole (config : Config) (cmds : List Command)
    : Run.Always (Session.step config) Session.Undamaged .start cmds
        ↔ Run.Guarded (Session.step config) (fun s cmd => ¬s.Tears cmd ∧ ¬s.ClosesLong cmd) .start
            cmds := by
  apply Run.always_iff_guarded (I := fun s => ∃ segs, s.Inv config segs ∧ ShortClosed segs)
  . refine ⟨[], Session.inv_start config, ?_⟩
    intro seg hseg
    contradiction
  . rintro s cmd ⟨segs, h, hshort⟩ ⟨hwhole, hlong⟩
    rcases Session.inv_step h hshort hwhole with ⟨segs', h', hiff⟩
    exact ⟨segs', h', hiff.mpr hlong⟩
  . rintro s ⟨segs, h, hshort⟩
    exact h.undamaged_iff.mpr hshort
  . rintro s cmd ⟨segs, h, hshort⟩ hguard
    by_cases htears : s.Tears cmd
    . exact Session.not_undamaged_of_tears h htears
    . rcases Session.inv_step h hshort htears with ⟨segs', h', hiff⟩
      rw [h'.undamaged_iff, hiff]
      intro hlong
      exact hguard ⟨htears, hlong⟩

def smallConfig : Config := ⟨1000, 100, ⟨10000⟩⟩

-- The second append writes the header of its record and then fails.
def tornRun : List Command :=
  [.open none, .append [1] .done, .append [2] ⟨.done, .done, .failed 0⟩, .append [3] .done,
    .rotate .done]

-- The closed segment cannot be read: the body of the torn record is missing.
theorem torn_record_damages
    : ¬Run.Always (Session.step smallConfig) Session.Undamaged .start tornRun := by
  intro h
  have hclosed : (⟨0, segPath 0, 14, 2, .closed⟩ : SegmentInfo)
      ∈ segments (Run.exec (Session.step smallConfig) .start tornRun).process.files
        (Run.exec (Session.step smallConfig) .start tornRun).process.active := by
    decide +kernel
  have hread := h.last.1 _ hclosed rfl
  have hcorrupt : readSegmentRecords (Run.exec (Session.step smallConfig) .start tornRun).process.files
      (segPath 0) = .error (.segmentCorrupt (segPath 0) 10 "truncated record body") := by
    decide +kernel
  rw [hcorrupt] at hread
  contradiction

end Athar.Storage
