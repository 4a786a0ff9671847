import Athar.Ingest.Impl

/-!
This module contains what the ingest of one frame can do to the server. All invariants of ingest are
case analyses over `IngestServer.Ingested`.
-/

namespace Athar

open Storage Audit

-- Ingest is shed in safe mode only.
theorem PressureLevel.allows_p1_iff (level : PressureLevel)
    : level.allows .p1 = true ↔ level ≠ .l4SafeMode := by
  cases level <;> decide

theorem DropCounters.frames_record_ne (drops : DropCounters) (frameBytes nowMs : Nat)
    : (drops.record frameBytes nowMs).frames ≠ drops.frames := by
  intro h
  have hone : drops.frames + 1 = drops.frames := h
  simp at hone

section Frame

variable {c : Crates} (json : SerdeJson) (frame : Frame c)

-- The event of a frame that parses and validates.
def Frame.event? : Option Event :=
  (json.fromSlice frame.bytes).bind fun raw =>
    (IngestServer.parseEvent json raw frame.nowRfc3339).toOption

def Frame.statusQuery : Bool :=
  (json.fromSlice frame.bytes).any (IngestServer.flag · "__status__")

def Frame.wantsResponse : Bool :=
  (json.fromSlice frame.bytes).any (IngestServer.flag · "__evaluate__")

end Frame

namespace IngestServer

variable {c : Crates} {d : Detection} {json : SerdeJson}

-- Everything the ingest of one frame can do.
inductive Ingested (json : SerdeJson) (s : IngestServer c d) (frame : Frame c)
    : IngestServer c d → Except IngestError Unit → Prop where
  | dropped (hlevel : ¬frame.level.allows .p1)
    : Ingested json s frame { s with drops := s.drops.record frame.bytes.length frame.nowMs }
        (.ok ())
  | status (hlevel : frame.level.allows .p1) (hstatus : frame.statusQuery json = true)
    (body : StatusBody)
    : Ingested json s frame { s with responses := s.responses ++ [.status body] } (.ok ())
  | refused (hlevel : frame.level.allows .p1) (hevent : frame.event? json = none) (e : IngestError)
    : Ingested json s frame s (.error e)
  | unappended (hlevel : frame.level.allows .p1) (hstatus : frame.statusQuery json = false)
    {event : Event} (hevent : frame.event? json = some event) {e : StorageError}
    (happend : (s.log.append (json.toVec event) frame.logIo).2 = .error e)
    : Ingested json s frame { s with log := (s.log.append (json.toVec event) frame.logIo).1 }
        (.error (.appendEvidence e))
  | uncommitted (hlevel : frame.level.allows .p1) (hstatus : frame.statusQuery json = false)
    {event : Event} (hevent : frame.event? json = some event) {receipt : AppendReceipt}
    (happend : (s.log.append (json.toVec event) frame.logIo).2 = .ok receipt) {e : PersistError}
    (haudit : (s.audit.observe "event" (json.toVec event) frame.nowUs frame.auditIo).2 = .error e)
    : Ingested json s frame
        { s with
          log := (s.log.append (json.toVec event) frame.logIo).1
          audit := (s.audit.observe "event" (json.toVec event) frame.nowUs frame.auditIo).1 }
        (.error (.appendAudit e))
  | recorded (hlevel : frame.level.allows .p1) (hstatus : frame.statusQuery json = false)
    {event : Event} (hevent : frame.event? json = some event) {receipt : AppendReceipt}
    (happend : (s.log.append (json.toVec event) frame.logIo).2 = .ok receipt)
    (haudit : (s.audit.observe "event" (json.toVec event) frame.nowUs frame.auditIo).2 = .ok ())
    : Ingested json s frame
        (project
          { s with
            log := (s.log.append (json.toVec event) frame.logIo).1
            audit := (s.audit.observe "event" (json.toVec event) frame.nowUs frame.auditIo).1 }
          event (frame.wantsResponse json) frame)
        (.ok ())

theorem ingestOne_ingested (s : IngestServer c d) (json : SerdeJson) (frame : Frame c)
    : Ingested json s frame (s.ingestOne json frame).1 (s.ingestOne json frame).2 := by
  unfold ingestOne
  split
  . next hlevel => exact .dropped hlevel
  . next hlevel =>
    have hlevel := Classical.not_not.mp hlevel
    split
    . next hnone =>
      apply Ingested.refused hlevel
      rw [Frame.event?, hnone]
      rfl
    . next raw hraw =>
      have hevent : frame.event? json = (parseEvent json raw frame.nowRfc3339).toOption := by
        rw [Frame.event?, hraw]
        rfl
      have hstatus : frame.statusQuery json = flag raw "__status__" := by
        rw [Frame.statusQuery, hraw]
        rfl
      have hwants : frame.wantsResponse json = flag raw "__evaluate__" := by
        rw [Frame.wantsResponse, hraw]
        rfl
      split
      . next hflag => exact .status hlevel (hstatus.trans hflag) _
      . next hflag =>
        rw [Bool.not_eq_true] at hflag
        rw [hflag] at hstatus
        split
        . next e hparse =>
          apply Ingested.refused hlevel
          rw [hevent, hparse]
          rfl
        . next event hparse =>
          rw [hparse] at hevent
          rw [← hwants]
          unfold ingestEvent
          dsimp only
          split
          . next log e happend =>
            have := Ingested.unappended hlevel hstatus hevent (congrArg (·.2) happend)
            rwa [happend] at this
          . next log receipt happend =>
            split
            . next audit e haudit =>
              have := Ingested.uncommitted hlevel hstatus hevent (congrArg (·.2) happend)
                (congrArg (·.2) haudit)
              rwa [happend, haudit] at this
            . next audit haudit =>
              have := Ingested.recorded (d := d) hlevel hstatus hevent (congrArg (·.2) happend)
                (congrArg (·.2) haudit)
              rwa [happend, haudit] at this

section Project

variable (s : IngestServer c d) (event : Event) (wantsResponse : Bool) (frame : Frame c)

@[simp]
theorem project_log : (s.project event wantsResponse frame).log = s.log := by
  rfl

@[simp]
theorem project_audit : (s.project event wantsResponse frame).audit = s.audit := by
  rfl

@[simp]
theorem project_drops : (s.project event wantsResponse frame).drops = s.drops := by
  rfl

@[simp]
theorem project_lifecycles
    : (s.project event wantsResponse frame).lifecycles
        = (LifecycleEngine.apply s.lifecycles event frame.nowMs).1 := by
  rfl

end Project

end IngestServer

end Athar
