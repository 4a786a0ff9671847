import Athar.Ingest.Instance
import Athar.Lib.Run

/-!
This module contains what a status query does to the server. It only reads, but the gate stands before
the flag that makes it one: in safe mode the query is shed and counted like an event.
-/

namespace Athar

open Storage Audit

namespace IngestServer

variable {c : Crates} {d : Detection} {json : SerdeJson}

variable (json) in
def serve (s : IngestServer c d) (frame : Frame c) : IngestServer c d :=
  (s.ingestOne json frame).1

-- Everything is the same except for what was sent back.
structure SameState (s t : IngestServer c d) : Prop where
  log : s.log = t.log
  audit : s.audit = t.audit
  drops : s.drops = t.drops
  lifecycles : s.lifecycles = t.lifecycles
  detection : s.detection = t.detection

variable (json) in
structure ReadsOnly (s : IngestServer c d) (frames : List (Frame c)) : Prop where
  unchanged : Run.Guarded (serve json)
    (fun s frame => frame.statusQuery json = true → SameState s (s.serve json frame)) s frames
  removed : SameState (Run.exec (serve json) s (frames.filter (!·.statusQuery json)))
    (Run.exec (serve json) s frames)

namespace SameState

theorem refl (s : IngestServer c d) : SameState s s := by
  constructor <;> rfl

theorem trans {s t u : IngestServer c d} (hst : SameState s t) (htu : SameState t u) : SameState s u where
  log := hst.log.trans htu.log
  audit := hst.audit.trans htu.audit
  drops := hst.drops.trans htu.drops
  lifecycles := hst.lifecycles.trans htu.lifecycles
  detection := hst.detection.trans htu.detection

-- Nothing reads what was sent back.
theorem serve {s t : IngestServer c d} (h : SameState s t) (frame : Frame c)
    : SameState (s.serve json frame) (t.serve json frame) := by
  cases s
  cases t
  obtain ⟨hlog, haudit, hdrops, hlifecycles, hdetection⟩ := h
  dsimp only at hlog haudit hdrops hlifecycles hdetection
  subst hlog haudit hdrops hlifecycles hdetection
  unfold IngestServer.serve ingestOne ingestEvent
  dsimp only
  split
  . constructor <;> rfl
  . split
    . constructor <;> rfl
    . split
      . constructor <;> rfl
      . split
        . constructor <;> rfl
        . split
          . constructor <;> rfl
          . split <;> constructor <;> rfl

end SameState

theorem sameState_serve {s : IngestServer c d} {frame : Frame c} (hquery : frame.statusQuery json = true)
    (hlevel : frame.level ≠ .l4SafeMode)
    : SameState s (s.serve json frame) := by
  have hingested := s.ingestOne_ingested json frame
  unfold serve
  generalize (s.ingestOne json frame).1 = s' at hingested
  generalize (s.ingestOne json frame).2 = result at hingested
  cases hingested with
  | dropped hnot => exact absurd ((PressureLevel.allows_p1_iff _).mpr hlevel) hnot
  | status _ _ _ => constructor <;> rfl
  | refused _ _ _ => exact SameState.refl s
  | unappended _ hstatus | uncommitted _ hstatus | recorded _ hstatus =>
    rw [hquery] at hstatus
    contradiction

theorem not_sameState_serve {s : IngestServer c d} {frame : Frame c} (hlevel : frame.level = .l4SafeMode)
    : ¬SameState s (s.serve json frame) := by
  intro h
  have hnot : ¬frame.level.allows .p1 = true := by
    simp [PressureLevel.allows_p1_iff, hlevel]
  have hdrops := h.drops
  unfold serve ingestOne at hdrops
  rw [if_pos hnot] at hdrops
  exact DropCounters.frames_record_ne _ _ _ (congrArg DropCounters.frames hdrops).symm

theorem readsOnly_iff (json : SerdeJson) (s : IngestServer c d) (frames : List (Frame c))
    : ReadsOnly json s frames
        ↔ ∀ frame ∈ frames, frame.statusQuery json = true → frame.level ≠ .l4SafeMode := by
  constructor
  . intro h frame hframe hquery hlevel
    obtain ⟨pre, post, rfl⟩ := List.append_of_mem hframe
    have hprefix : pre ++ [frame] <+: pre ++ frame :: post := by
      simp
    exact not_sameState_serve hlevel (h.unchanged pre frame hprefix hquery)
  . intro h
    constructor
    . intro pre frame hpre hquery
      exact sameState_serve hquery (h frame (hpre.subset (by simp)) hquery)
    . apply Run.exec_filter
      . exact SameState.refl s
      . intro s t frame hst _
        exact hst.serve frame
      . intro s t frame hframe hst hquery
        have hquery : frame.statusQuery json = true := by
          simpa using hquery
        exact hst.trans (sameState_serve hquery (h frame hframe hquery))

end IngestServer

def statusText : String := "\x7b\"__status__\":true\x7d"

def SerdeJson.ofStatusQuery : SerdeJson :=
  { SerdeJson.ofPayments [] with
    fromSlice bytes :=
      if bytes = asBytes statusText then some (.object [("__status__", .bool true)]) else none }

def statusFrame (level : PressureLevel) : Frame Crates.toy :=
  { paymentFrame created 0 with
    bytes := asBytes statusText
    level
    levelAfter := level }

theorem statusFrame_statusQuery (level : PressureLevel)
    : (statusFrame level).statusQuery .ofStatusQuery = true := by
  simp [Frame.statusQuery, statusFrame, SerdeJson.ofStatusQuery, IngestServer.flag, Json.get, Json.asBool]

-- The query of an operator in safe mode is counted as a lost frame.
theorem safeModeQuery_counted
    : ¬IngestServer.ReadsOnly .ofStatusQuery (emptyServer smallLog 1000 .sqlite)
        [statusFrame .l4SafeMode] := by
  intro h
  have := h.unchanged [] (statusFrame .l4SafeMode) (by simp) (statusFrame_statusQuery .l4SafeMode)
  exact IngestServer.not_sameState_serve rfl this

end Athar
