import Athar.Ingest.GapEmission
import Athar.Ingest.Impl.Atomics
import Mathlib.Data.List.Perm.Basic

/-!
This module contains what no interleaving of the drop counters loses. The operations that have not taken
effect yet carry what is neither in a counter nor in a gap.
-/

namespace Athar

namespace DropOp

-- The frames that the operation will add to the counter, or took from it.
def frames : DropOp → Nat
  | .countFrame _ => 1
  | .swapRest frames _ _ => frames.toNat
  | _ => 0

def bytes : DropOp → Nat
  | .countBytes frameBytes => frameBytes
  | .swapRest _ (some bytes) _ => bytes.toNat
  | _ => 0

end DropOp

namespace RacingDrops

section Alone

variable (drops : DropCounters) (recorded : List Nat) (taken : List CoverageGapSummary)

-- Without a race the operations of a call add up to the call.
theorem record_alone (frameBytes nowMs : Nat)
    : Run.exec step ⟨drops, [], recorded, taken⟩
          [.record frameBytes nowMs, .advance 0 false, .advance 0 false, .advance 0 false]
        = ⟨drops.record frameBytes nowMs, [], recorded ++ [frameBytes], taken⟩ := by
  by_cases hzero : drops.frames = 0 <;> simp [Run.exec, step, effect, DropCounters.record, hzero]

theorem take_alone
    : Run.exec step ⟨drops, [], recorded, taken⟩
          [.take, .advance 0 false, .advance 0 false, .advance 0 false]
        = ⟨drops.take.1, [], recorded, taken ++ drops.take.2.toList⟩ := by
  rcases drops with ⟨frames, bytes, sinceMs⟩
  by_cases hzero : frames = 0 <;> simp [Run.exec, step, effect, DropCounters.take, hzero]

end Alone

def reportedFrames (st : RacingDrops) : Nat :=
  (st.taken.map (·.frames.toNat)).sum

def reportedBytes (st : RacingDrops) : Nat :=
  (st.taken.map (·.bytes.toNat)).sum

def carriedFrames (st : RacingDrops) : Nat :=
  (st.ops.map DropOp.frames).sum

def carriedBytes (st : RacingDrops) : Nat :=
  (st.ops.map DropOp.bytes).sum

structure Conserved (st : RacingDrops) : Prop where
  frames_eq : st.recorded.length = st.reportedFrames + st.drops.frames.toNat + st.carriedFrames
  bytes_eq : st.recorded.sum = st.reportedBytes + st.drops.bytes.toNat + st.carriedBytes

-- All frames together fit into the counters.
def Fits (st : RacingDrops) : RacingCall → Prop
  | .record frameBytes _ =>
    st.recorded.length + 1 < 2 ^ 64 ∧ st.recorded.sum + frameBytes < 2 ^ 64
  | _ => True

structure Inv (st : RacingDrops) : Prop extends Conserved st where
  length_lt : st.recorded.length < 2 ^ 64
  sum_lt : st.recorded.sum < 2 ^ 64

theorem inv_start : Inv start := by
  refine ⟨⟨rfl, rfl⟩, ?_, ?_⟩ <;> simp [start]

-- An operation leaves the frames and bytes that it moves where the next ones find them.
theorem effect_conserves (drops : DropCounters) (second : Bool) (op : DropOp)
    (hframes : drops.frames.toNat + op.frames < 2 ^ 64)
    (hbytes : drops.bytes.toNat + op.bytes < 2 ^ 64)
    : let (drops', next, taken) := effect drops second op
      drops.frames.toNat + op.frames
          = drops'.frames.toNat + (next.map DropOp.frames).sum
            + (taken.toList.map (·.frames.toNat)).sum
        ∧ drops.bytes.toNat + op.bytes
          = drops'.bytes.toNat + (next.map DropOp.bytes).sum
            + (taken.toList.map (·.bytes.toNat)).sum := by
  cases op with
  | countFrame nowMs =>
    have hadd : (drops.frames + 1).toNat = drops.frames.toNat + 1 :=
      (DropRun.toNat_add_one _).trans (Nat.mod_eq_of_lt hframes)
    unfold effect
    dsimp only
    rw [hadd]
    split <;> simp [DropOp.frames, DropOp.bytes]
  | storeSince nowMs => simp [effect, DropOp.frames, DropOp.bytes]
  | countBytes frameBytes =>
    have hadd : (drops.bytes + UInt64.ofNat frameBytes).toNat = drops.bytes.toNat + frameBytes :=
      (DropRun.toNat_add_ofNat _ _).trans (Nat.mod_eq_of_lt hbytes)
    unfold effect
    dsimp only
    rw [hadd]
    simp [DropOp.frames, DropOp.bytes]
  | swapFrames =>
    unfold effect
    dsimp only
    split
    . next hzero => simp [hzero, DropOp.frames, DropOp.bytes]
    . simp [DropOp.frames, DropOp.bytes]
  | swapRest frames bytes sinceMs =>
    cases bytes with
    | none =>
      cases sinceMs with
      | none => cases second <;> simp [effect, DropOp.frames, DropOp.bytes]
      | some sinceMs => simp [effect, DropOp.frames, DropOp.bytes, Nat.add_comm]
    | some bytes => cases sinceMs <;> simp [effect, DropOp.frames, DropOp.bytes]

theorem sum_eraseIdx {ops : List DropOp} {k : Nat} {op : DropOp} (h : ops[k]? = some op)
    (amount : DropOp → Nat)
    : (ops.map amount).sum = ((ops.eraseIdx k).map amount).sum + amount op := by
  rcases List.getElem?_eq_some_iff.mp h with ⟨hk, hget⟩
  have hperm := (List.getElem_cons_eraseIdx_perm hk).map amount
  rw [hget] at hperm
  rw [← hperm.sum_nat, List.map_cons, List.sum_cons, Nat.add_comm]

theorem Inv.step {st : RacingDrops} (h : st.Inv) {call : RacingCall} (hfits : st.Fits call)
    : (st.step call).Inv := by
  have hframes := h.frames_eq
  have hbytes := h.bytes_eq
  have hlength := h.length_lt
  have hsum := h.sum_lt
  cases call with
  | record frameBytes nowMs =>
    refine ⟨⟨?_, ?_⟩, ?_, ?_⟩
    all_goals
      simp only [RacingDrops.step, reportedFrames, reportedBytes, carriedFrames, carriedBytes, Fits,
        List.map_append, List.map_cons, List.map_nil, List.sum_append, List.sum_cons, List.sum_nil,
        List.length_append, List.length_singleton, DropOp.frames, DropOp.bytes] at hframes hbytes hfits ⊢
      omega
  | take =>
    refine ⟨⟨?_, ?_⟩, hlength, hsum⟩
    . simpa [RacingDrops.step, reportedFrames, carriedFrames, DropOp.frames] using hframes
    . simpa [RacingDrops.step, reportedBytes, carriedBytes, DropOp.bytes] using hbytes
  | advance k second =>
    unfold RacingDrops.step
    dsimp only
    split
    . exact h
    . next op hop =>
      have hcarried := sum_eraseIdx hop
      unfold reportedFrames carriedFrames at hframes
      unfold reportedBytes carriedBytes at hbytes
      rw [hcarried DropOp.frames] at hframes
      rw [hcarried DropOp.bytes] at hbytes
      have heffect := effect_conserves st.drops second op (by omega) (by omega)
      generalize effect st.drops second op = result at heffect ⊢
      rcases result with ⟨drops, next, taken⟩
      dsimp only at heffect ⊢
      refine ⟨⟨?_, ?_⟩, hlength, hsum⟩
      . unfold reportedFrames carriedFrames
        dsimp only
        rw [List.map_append, List.map_append, List.sum_append, List.sum_append]
        omega
      . unfold reportedBytes carriedBytes
        dsimp only
        rw [List.map_append, List.map_append, List.sum_append, List.sum_append]
        omega

-- Every recorded frame is in a gap, and every byte of it.
structure Reported (st : RacingDrops) : Prop where
  frames_eq : st.recorded.length = st.reportedFrames
  bytes_eq : st.recorded.sum = st.reportedBytes

-- One more frame is recorded and reported, with nothing in between.
def recordAndTake (frameBytes nowMs : Nat) : List RacingCall :=
  [.record frameBytes nowMs, .advance 0 false, .advance 0 false, .advance 0 false]
    ++ [.take, .advance 0 false, .advance 0 false, .advance 0 false]

theorem drops_recordAndTake {st : RacingDrops} (h : st.Inv) (hsettled : st.ops = [])
    {frameBytes nowMs : Nat} (hfits : st.Fits (.record frameBytes nowMs))
    : (Run.exec step st (recordAndTake frameBytes nowMs)).drops = ⟨0, 0, 0⟩
        ∧ (Run.exec step st (recordAndTake frameBytes nowMs)).ops = [] := by
  have hlt : st.drops.frames.toNat + 1 < 2 ^ 64 := by
    have hframes := h.frames_eq
    have hlength := hfits.1
    omega
  have hne : (st.drops.record frameBytes nowMs).frames ≠ 0 := by
    intro hzero
    have hadd := DropRun.toNat_add_one st.drops.frames
    rw [Nat.mod_eq_of_lt hlt] at hadd
    change st.drops.frames + 1 = 0 at hzero
    rw [hzero] at hadd
    contradiction
  rcases st with ⟨drops, ops, recorded, taken⟩
  dsimp only at hsettled hne
  rw [hsettled, recordAndTake, Run.exec_append, record_alone, take_alone]
  unfold DropCounters.take
  rw [if_neg hne]
  exact ⟨rfl, rfl⟩

theorem Inv.reported {st : RacingDrops} (h : st.Inv) (hsettled : st.ops = []) {frameBytes nowMs : Nat}
    (hfits : st.Fits (.record frameBytes nowMs))
    : Reported (Run.exec RacingDrops.step st (recordAndTake frameBytes nowMs)) := by
  have hguarded : Run.Guarded RacingDrops.step Fits st (recordAndTake frameBytes nowMs) := by
    rw [recordAndTake, List.cons_append, Run.guarded_cons]
    exact ⟨hfits, by simp [Fits]⟩
  have hinv := (Run.always_of_guarded h (fun st call (h : st.Inv) hcall => h.step hcall) hguarded).last
  rcases drops_recordAndTake h hsettled hfits with ⟨hdrops, hops⟩
  generalize Run.exec RacingDrops.step st (recordAndTake frameBytes nowMs) = st' at hinv hdrops hops ⊢
  constructor
  . have hframes := hinv.frames_eq
    rw [hdrops, carriedFrames, hops] at hframes
    exact hframes
  . have hbytes := hinv.bytes_eq
    rw [hdrops, carriedBytes, hops] at hbytes
    exact hbytes

end RacingDrops

/--
However the calls of connections and emitters interleave on the drop counters, every recorded frame and
every byte of it is in a gap, in a counter, or carried by an operation that is under way. What a take has
left behind is reported in the end: as soon as no operation is under way, one more record and take leave
nothing that is not in a gap.
-/
theorem conserved_of_fits (calls : List RacingCall)
    (hfits : Run.Guarded RacingDrops.step RacingDrops.Fits .start calls)
    : Run.Always RacingDrops.step RacingDrops.Conserved .start calls
        ∧ ∀ frameBytes nowMs, (Run.exec RacingDrops.step .start calls).ops = [] →
          (Run.exec RacingDrops.step .start calls).Fits (.record frameBytes nowMs) →
          RacingDrops.Reported (Run.exec RacingDrops.step (Run.exec RacingDrops.step .start calls)
            (RacingDrops.recordAndTake frameBytes nowMs)) := by
  have hinv := Run.always_of_guarded RacingDrops.inv_start
    (fun st call (h : st.Inv) hcall => h.step hcall) hfits
  refine ⟨hinv.mono fun st h => h.toConserved, ?_⟩
  intro frameBytes nowMs hsettled hrecord
  exact hinv.last.reported hsettled hrecord

-- A take gets between the two counters of a record: its gap has the frame, but not the bytes.
def torn : List RacingCall :=
  [.record 100 5, .advance 0 false, .take, .advance 2 false, .advance 2 false, .advance 2 true,
    .advance 0 false, .advance 0 false]

theorem conserved_of_fits_torn
    : Run.Always RacingDrops.step RacingDrops.Conserved .start torn
        ∧ RacingDrops.Reported (Run.exec RacingDrops.step (Run.exec RacingDrops.step .start torn)
          (RacingDrops.recordAndTake 7 6)) := by
  have hfits : Run.Guarded RacingDrops.step RacingDrops.Fits .start torn := by
    simp [torn, Run.guarded_cons, RacingDrops.Fits, RacingDrops.start]
  have hrun := conserved_of_fits torn hfits
  have hrecord : (Run.exec RacingDrops.step .start torn).Fits (.record 7 6) := by
    simp [torn, RacingDrops.Fits, RacingDrops.start, RacingDrops.step, RacingDrops.effect]
  exact ⟨hrun.1, hrun.2 7 6 (by decide) hrecord⟩

end Athar
