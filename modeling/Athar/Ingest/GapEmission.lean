import Athar.Audit.Lemmas.Writer
import Athar.Ingest.Instance
import Athar.Lib.Run

/-!
This module contains the accounting of drops over runs of the counters and the emitter of coverage
gaps. The emitter takes the counters before it knows that the gap will be committed, so a commit that
fails forgets the drops.
-/

namespace Athar

open Storage Audit

variable {c : Crates} {d : Detection}

variable (c) in
inductive DropCall where
  | record (frameBytes nowMs : Nat)
  | emit (io : EmitIo c)

variable (c d) in
-- The totals are those of all calls; `emitted` are the gaps whose commitment succeeded.
structure DropRun where
  server : IngestServer c d
  frames : Nat
  bytes : Nat
  emitted : List CoverageGapSummary

namespace DropRun

variable (toVec : CoverageGapSummary → Nat → Option (List UInt8))

def start (s : IngestServer c d) : DropRun c d := ⟨{ s with drops := ⟨0, 0, 0⟩ }, 0, 0, []⟩

def step (st : DropRun c d) : DropCall c → DropRun c d
  | .record frameBytes nowMs =>
    { st with
      server := { st.server with drops := st.server.drops.record frameBytes nowMs }
      frames := st.frames + 1
      bytes := st.bytes + frameBytes }
  | .emit io =>
    { st with
      server := (st.server.emitCoverageGapIfAny toVec io).1
      emitted := st.emitted ++ (st.server.emitCoverageGapIfAny toVec io).2.toList }

def emittedFrames (st : DropRun c d) : Nat := (st.emitted.map (·.frames.toNat)).foldl (· + ·) 0

def emittedBytes (st : DropRun c d) : Nat := (st.emitted.map (·.bytes.toNat)).foldl (· + ·) 0

structure Conserved (st : DropRun c d) : Prop where
  frames_eq : st.frames = st.emittedFrames + st.server.drops.pendingFrames.toNat
  bytes_eq : st.bytes = st.emittedBytes + st.server.drops.pendingBytes.toNat

-- The counters hold the drop; the gap of pending drops is serialized and its commitment succeeds.
def Keeps (st : DropRun c d) : DropCall c → Prop
  | .record frameBytes _ =>
    st.server.drops.pendingFrames.toNat + 1 < 2 ^ 64
      ∧ st.server.drops.pendingBytes.toNat + frameBytes < 2 ^ 64
  | .emit io =>
    ∀ summary, st.server.drops.take.2 = some summary →
      toVec summary io.recordedAtMs ≠ none ∧ st.server.audit.Commits io.auditIo

-- Bytes are only ever pending together with frames, so `take` forgets none of them.
structure Inv (st : DropRun c d) : Prop where
  conserved : st.Conserved
  bytes_of_frames : st.server.drops.frames = 0 → st.server.drops.bytes = 0

theorem emittedFrames_append (server : IngestServer c d) (frames bytes : Nat)
    (emitted : List CoverageGapSummary) (summary : CoverageGapSummary)
    : emittedFrames ⟨server, frames, bytes, emitted ++ [summary]⟩
        = (emitted.map (·.frames.toNat)).foldl (· + ·) 0 + summary.frames.toNat := by
  simp [emittedFrames, List.foldl_append]

theorem emittedBytes_append (server : IngestServer c d) (frames bytes : Nat)
    (emitted : List CoverageGapSummary) (summary : CoverageGapSummary)
    : emittedBytes ⟨server, frames, bytes, emitted ++ [summary]⟩
        = (emitted.map (·.bytes.toNat)).foldl (· + ·) 0 + summary.bytes.toNat := by
  simp [emittedBytes, List.foldl_append]

theorem take_none {drops : DropCounters} (h : drops.take.2 = none)
    : drops.frames = 0 ∧ drops.take.1 = drops := by
  unfold DropCounters.take at h ⊢
  split at h
  . next hzero =>
    rw [if_pos hzero]
    exact ⟨hzero, rfl⟩
  . contradiction

theorem take_some {drops : DropCounters} {summary : CoverageGapSummary}
    (h : drops.take.2 = some summary)
    : drops.frames ≠ 0 ∧ drops.take.1 = ⟨0, 0, 0⟩
        ∧ summary = ⟨drops.frames, drops.bytes, drops.sinceMs⟩ := by
  unfold DropCounters.take at h ⊢
  split at h
  . contradiction
  . next hne =>
    cases h
    exact ⟨hne, by rw [if_neg hne], rfl⟩

end DropRun

namespace IngestServer

variable (s : IngestServer c d) (toVec : CoverageGapSummary → Nat → Option (List UInt8))
  (io : EmitIo c)

-- The counters are taken in every case, whatever becomes of the gap.
theorem emitCoverageGapIfAny_drops
    : (s.emitCoverageGapIfAny toVec io).1.drops = s.drops.take.1 := by
  unfold emitCoverageGapIfAny
  generalize s.drops.take = taken
  rcases taken with ⟨drops, _ | summary⟩
  . rfl
  . dsimp only
    cases toVec summary io.recordedAtMs with
    | none => rfl
    | some payload =>
      dsimp only
      generalize s.audit.observe "coverage_gap" payload io.nowUs io.auditIo = observed
      rcases observed with ⟨audit, _ | _⟩ <;> rfl

theorem emitCoverageGapIfAny_none (h : s.drops.take.2 = none)
    : (s.emitCoverageGapIfAny toVec io).2 = none := by
  unfold emitCoverageGapIfAny
  generalize s.drops.take = taken at h
  rcases taken with ⟨drops, _ | summary⟩
  . rfl
  . contradiction

-- A gap is reported once its commitment is made.
theorem emitCoverageGapIfAny_snd {summary : CoverageGapSummary} (h : s.drops.take.2 = some summary)
    : (s.emitCoverageGapIfAny toVec io).2
        = (toVec summary io.recordedAtMs).bind fun payload =>
          (s.audit.observe "coverage_gap" payload io.nowUs io.auditIo).2.toOption.map fun _ => summary := by
  unfold emitCoverageGapIfAny
  generalize s.drops.take = taken at h
  rcases taken with ⟨drops, taken⟩
  dsimp only at h
  subst h
  dsimp only
  cases toVec summary io.recordedAtMs with
  | none => rfl
  | some payload =>
    dsimp only [Option.bind_some]
    generalize s.audit.observe "coverage_gap" payload io.nowUs io.auditIo = observed
    rcases observed with ⟨audit, _ | _⟩ <;> rfl

theorem emitCoverageGapIfAny_kept {summary : CoverageGapSummary} (h : s.drops.take.2 = some summary)
    (hpayload : toVec summary io.recordedAtMs ≠ none) (hcommits : s.audit.Commits io.auditIo)
    : (s.emitCoverageGapIfAny toVec io).2 = some summary := by
  rcases Option.ne_none_iff_exists'.mp hpayload with ⟨payload, hpayload⟩
  rw [emitCoverageGapIfAny_snd s toVec io h, hpayload, Option.bind_some,
    AuditChainWriter.observe_ok hcommits]
  rfl

theorem emitCoverageGapIfAny_lost {summary : CoverageGapSummary} (h : s.drops.take.2 = some summary)
    (hlost : ¬(toVec summary io.recordedAtMs ≠ none ∧ s.audit.Commits io.auditIo))
    : (s.emitCoverageGapIfAny toVec io).2 = none := by
  rw [emitCoverageGapIfAny_snd s toVec io h]
  cases hpayload : toVec summary io.recordedAtMs with
  | none => rfl
  | some payload =>
    have hfails : ¬s.audit.Commits io.auditIo := by
      intro hcommits
      apply hlost
      simp [hpayload, hcommits]
    rcases AuditChainWriter.observe_error hfails "coverage_gap" payload io.nowUs with ⟨e, herror⟩
    rw [Option.bind_some, herror]
    rfl

end IngestServer

namespace DropRun

variable (toVec : CoverageGapSummary → Nat → Option (List UInt8)) {st : DropRun c d}

theorem Inv.start (s : IngestServer c d) : Inv (start s) := by
  refine ⟨⟨rfl, rfl⟩, ?_⟩
  intro _
  rfl

theorem toNat_add_one (n : UInt64) : (n + 1).toNat = (n.toNat + 1) % 2 ^ 64 := by
  rw [UInt64.toNat_add]
  rfl

theorem toNat_add_ofNat (n : UInt64) (k : Nat)
    : (n + UInt64.ofNat k).toNat = (n.toNat + k) % 2 ^ 64 := by
  rw [UInt64.toNat_add, UInt64.toNat_ofNat', Nat.add_mod_mod]

theorem Inv.record (h : st.Inv) {frameBytes nowMs : Nat}
    (hkeeps : st.Keeps toVec (.record frameBytes nowMs))
    : (st.step toVec (.record frameBytes nowMs)).Inv := by
  have hframes : (st.server.drops.frames + 1).toNat = st.server.drops.frames.toNat + 1 := by
    exact (toNat_add_one _).trans (Nat.mod_eq_of_lt hkeeps.1)
  have hbytes : (st.server.drops.bytes + UInt64.ofNat frameBytes).toNat
      = st.server.drops.bytes.toNat + frameBytes := by
    exact (toNat_add_ofNat _ _).trans (Nat.mod_eq_of_lt hkeeps.2)
  refine ⟨⟨?_, ?_⟩, ?_⟩
  . have hold : st.frames = st.emittedFrames + st.server.drops.frames.toNat := h.conserved.frames_eq
    change st.frames + 1 = st.emittedFrames + (st.server.drops.frames + 1).toNat
    omega
  . have hold : st.bytes = st.emittedBytes + st.server.drops.bytes.toNat := h.conserved.bytes_eq
    change st.bytes + frameBytes
      = st.emittedBytes + (st.server.drops.bytes + UInt64.ofNat frameBytes).toNat
    omega
  . intro hzero
    change st.server.drops.frames + 1 = 0 at hzero
    rw [hzero] at hframes
    contradiction

theorem Inv.emit (h : st.Inv) {io : EmitIo c} (hkeeps : st.Keeps toVec (.emit io))
    : (st.step toVec (.emit io)).Inv := by
  have hdrops := st.server.emitCoverageGapIfAny_drops toVec io
  cases htake : st.server.drops.take.2 with
  | none =>
    rcases take_none htake with ⟨hzero, hsame⟩
    rw [hsame] at hdrops
    have hnone := st.server.emitCoverageGapIfAny_none toVec io htake
    simp only [step, hnone, Option.toList_none, List.append_nil]
    refine ⟨⟨?_, ?_⟩, ?_⟩
    . simpa only [emittedFrames, hdrops] using h.conserved.frames_eq
    . simpa only [emittedBytes, hdrops] using h.conserved.bytes_eq
    . simpa only [hdrops] using h.bytes_of_frames
  | some summary =>
    rcases take_some htake with ⟨hne, hreset, rfl⟩
    rw [hreset] at hdrops
    rcases hkeeps _ htake with ⟨hpayload, hcommits⟩
    have hsome := st.server.emitCoverageGapIfAny_kept toVec io htake hpayload hcommits
    simp only [step, hsome, Option.toList_some]
    refine ⟨⟨?_, ?_⟩, ?_⟩
    . rw [emittedFrames_append]
      simp only [hdrops]
      exact h.conserved.frames_eq
    . rw [emittedBytes_append]
      simp only [hdrops]
      exact h.conserved.bytes_eq
    . intro _
      simp only [hdrops]

theorem Inv.step (h : st.Inv) (call : DropCall c) (hkeeps : st.Keeps toVec call)
    : (st.step toVec call).Inv := by
  cases call with
  | record frameBytes nowMs => exact h.record toVec hkeeps
  | emit io => exact h.emit toVec hkeeps

-- A counter that overflows, or a gap that is taken and not committed, is missing from both sides.
theorem Inv.break (h : st.Inv) (call : DropCall c) (hlost : ¬st.Keeps toVec call)
    : ¬(st.step toVec call).Conserved := by
  rintro ⟨hframes', hbytes'⟩
  apply hlost
  have hframes : st.frames = st.emittedFrames + st.server.drops.frames.toNat := h.conserved.frames_eq
  have hbytes : st.bytes = st.emittedBytes + st.server.drops.bytes.toNat := h.conserved.bytes_eq
  cases call with
  | record frameBytes nowMs =>
    change st.frames + 1 = st.emittedFrames + (st.server.drops.frames + 1).toNat at hframes'
    change st.bytes + frameBytes
      = st.emittedBytes + (st.server.drops.bytes + UInt64.ofNat frameBytes).toNat at hbytes'
    have hframesLt := (st.server.drops.frames + 1).toNat_lt
    have hbytesLt := (st.server.drops.bytes + UInt64.ofNat frameBytes).toNat_lt
    constructor
    . change st.server.drops.frames.toNat + 1 < 2 ^ 64
      omega
    . change st.server.drops.bytes.toNat + frameBytes < 2 ^ 64
      omega
  | emit io =>
    intro summary htake
    by_contra hfails
    rcases take_some htake with ⟨hne, hreset, _⟩
    have hdrops := st.server.emitCoverageGapIfAny_drops toVec io
    rw [hreset] at hdrops
    have hnone := st.server.emitCoverageGapIfAny_lost toVec io htake hfails
    simp only [DropRun.step, hnone, Option.toList_none, List.append_nil, hdrops,
      DropCounters.pendingFrames] at hframes'
    change st.frames = st.emittedFrames + 0 at hframes'
    apply hne
    apply UInt64.toNat_inj.mp
    change st.server.drops.frames.toNat = 0
    omega

/--
The coverage gaps that were committed and the counters account for every drop at all times if and
only if no counter overflows and every gap that is taken is serialized and committed.
-/
theorem conserved_iff_keeps (s : IngestServer c d) (calls : List (DropCall c))
    : Run.Always (step toVec) Conserved (start s) calls
        ↔ Run.Guarded (step toVec) (Keeps toVec) (start s) calls := by
  apply Run.always_iff_guarded (I := Inv) (Inv.start s)
  . intro st call h
    exact h.step toVec call
  . intro st h
    exact h.conserved
  . intro st call h
    exact h.break toVec call

end DropRun

-- The text of a gap, as far as its numbers go.
def gapBytes (summary : CoverageGapSummary) (recordedAtMs : Nat) : Option (List UInt8) :=
  some (asBytes
    ("\x7b\"kind\":\"coverage_gap\",\"cause\":\"L4_SAFE_MODE\",\"frames\":"
      ++ toString summary.frames ++ ",\"bytes\":" ++ toString summary.bytes
      ++ ",\"window_started_at_ms\":" ++ toString summary.windowStartedAtMs
      ++ ",\"recorded_at_ms\":" ++ toString recordedAtMs ++ "\x7d"))

-- One frame of 100 bytes is shed, and the commitment of its gap fails.
def lostGap : List (DropCall Crates.toy) :=
  [.record 100 0, .emit ⟨1, 0, ⟨⟨true, true, true⟩, .done, .done⟩, .renameFailed⟩]

-- Its drops are neither in a committed gap nor pending.
theorem lostGap_lost
    : ¬Run.Always (DropRun.step gapBytes) DropRun.Conserved
        (DropRun.start (emptyServer smallLog 1 .inMemory)) lostGap := by
  intro h
  have hframes := h.last.frames_eq
  revert hframes
  decide +kernel

end Athar
