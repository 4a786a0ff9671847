import Athar.Audit.Lemmas.Writer
import Athar.Ingest.Instance
import Athar.Lib.Run
import Athar.Lifecycle.Redelivery
import Athar.Storage.Lemmas

/-!
This module contains runs of ingest in which events may come again, with sweeps of the scanner in
between. A redelivery leaves the lifecycles as they are exactly when the lifecycle that the lookups
find for it, if there is one, is closed.
-/

namespace Athar

open Storage Audit

variable {c : Crates} {d : Detection} {json : SerdeJson}

variable (c) in
inductive IngestInput where
  | frame (frame : Frame c)
  | sweep (order : IterationOrder) (nowMs : Nat)

variable (c d) in
structure ProjectionRun where
  server : IngestServer c d
  processed : List Event

variable (json) in
def IngestInput.event? : IngestInput c → Option Event
  | .frame f => f.event? json
  | .sweep _ _ => none

namespace ProjectionRun

variable (json) in
def step (st : ProjectionRun c d) : IngestInput c → ProjectionRun c d
  | .frame frame =>
    ⟨(st.server.ingestOne json frame).1, st.processed ++ (frame.event? json).toList⟩
  | .sweep order nowMs =>
    ⟨{ st.server with
        lifecycles := (StalenessScanner.sweep st.server.lifecycles order nowMs).1 },
      st.processed⟩

-- A valid event, below L4, for which all storage succeeds.
variable (json) in
def Stored (st : ProjectionRun c d) : IngestInput c → Prop
  | .frame frame =>
    frame.level ≠ .l4SafeMode ∧ frame.statusQuery json = false
      ∧ ∃ event, frame.event? json = some event
        ∧ st.server.log.Accepts (json.toVec event) frame.logIo
        ∧ st.server.audit.Commits frame.auditIo
  | .sweep _ _ => True

variable (json) in
def Redelivery (st : ProjectionRun c d) (input : IngestInput c) (event : Event) : Prop :=
  input.event? json = some event ∧ event.eventId ∈ st.processed.map (·.eventId)

variable (json) in
def LeavesUnchanged (st : ProjectionRun c d) (input : IngestInput c) : Prop :=
  ∀ event, st.Redelivery json input event →
    Unchanged st.server.lifecycles (step json st input).server.lifecycles

variable (json) in
def RedeliversClosed (st : ProjectionRun c d) (input : IngestInput c) : Prop :=
  ∀ event, st.Redelivery json input event → HitsClosed st.server.lifecycles event

-- Frames with the same event id carry the same event.
variable (json) in
def SameEvents (inputs : List (IngestInput c)) : Prop :=
  ∀ x ∈ inputs, ∀ y ∈ inputs, ∀ event old, x.event? json = some event → y.event? json = some old →
    event.eventId = old.eventId → event.Redelivers old

theorem Stored.lifecycles_eq {st : ProjectionRun c d} {frame : Frame c}
    (h : st.Stored json (.frame frame))
    : ∃ event, frame.event? json = some event
        ∧ (st.server.ingestOne json frame).1.lifecycles
          = (LifecycleEngine.apply st.server.lifecycles event frame.nowMs).1 := by
  rcases h with ⟨hlevel, hstatus, event, hevent, haccepts, hcommits⟩
  refine ⟨event, hevent, ?_⟩
  have hingested := st.server.ingestOne_ingested json frame
  generalize (st.server.ingestOne json frame).1 = s' at hingested
  generalize (st.server.ingestOne json frame).2 = result at hingested
  cases hingested with
  | dropped hnot => exact absurd ((PressureLevel.allows_p1_iff _).mpr hlevel) hnot
  | status _ hquery _ =>
    rw [hstatus] at hquery
    contradiction
  | refused _ hnone _ =>
    rw [hevent] at hnone
    contradiction
  | unappended _ _ hevent' happend =>
    rw [hevent, Option.some.injEq] at hevent'
    subst hevent'
    rcases SegmentLog.append_ok haccepts with ⟨receipt, hok⟩
    rw [hok] at happend
    contradiction
  | uncommitted _ _ hevent' _ haudit =>
    rw [AuditChainWriter.observe_ok hcommits] at haudit
    contradiction
  | recorded _ _ hevent' _ _ =>
    rw [hevent, Option.some.injEq] at hevent'
    subst hevent'
    rfl

theorem Stored.step_eq {st : ProjectionRun c d} {input : IngestInput c}
    (h : st.Stored json input) {event : Event} (hevent : input.event? json = some event)
    : ∃ nowMs, (step json st input).server.lifecycles
          = (LifecycleEngine.apply st.server.lifecycles event nowMs).1
        ∧ (step json st input).processed = st.processed ++ [event] := by
  cases input with
  | frame frame =>
    have hevent : frame.event? json = some event := hevent
    rcases h.lifecycles_eq with ⟨event', hevent', heq⟩
    rw [hevent, Option.some.injEq] at hevent'
    subst hevent'
    refine ⟨frame.nowMs, heq, ?_⟩
    unfold step
    dsimp only
    rw [hevent]
    rfl
  | sweep order nowMs => contradiction

-- What the lifecycles and the processed events of a run are known to meet.
structure Inv (inputs : List (IngestInput c)) (json : SerdeJson) (st : ProjectionRun c d)
    : Prop where
  delivered : Delivered st.processed st.server.lifecycles
  fromInputs : ∀ event ∈ st.processed, ∃ input ∈ inputs, input.event? json = some event

theorem Inv.redelivers {inputs : List (IngestInput c)} (hsame : SameEvents json inputs)
    {st : ProjectionRun c d} (h : Inv inputs json st) {input : IngestInput c} (hmem : input ∈ inputs)
    {event : Event} (hredelivery : st.Redelivery json input event)
    : ∃ old ∈ st.processed, event.Redelivers old := by
  rcases hredelivery with ⟨hevent, hprocessed⟩
  rcases List.mem_map.mp hprocessed with ⟨old, hold, hid⟩
  rcases h.fromInputs old hold with ⟨earlier, hearlier, heq⟩
  exact ⟨old, hold, hsame input hmem earlier hearlier event old hevent heq hid.symm⟩

theorem Inv.step {inputs : List (IngestInput c)} (hsame : SameEvents json inputs)
    {st : ProjectionRun c d} (h : Inv inputs json st) {input : IngestInput c} (hmem : input ∈ inputs)
    (hstored : st.Stored json input) (hclosed : st.RedeliversClosed json input)
    : Inv inputs json (step json st input) := by
  cases input with
  | frame frame =>
    rcases hstored.lifecycles_eq with ⟨event, hevent, _⟩
    rcases hstored.step_eq hevent with ⟨nowMs, hlifecycles, hprocessed⟩
    constructor
    . rw [hlifecycles, hprocessed]
      apply h.delivered.apply
      by_cases hold : event.eventId ∈ st.processed.map (·.eventId)
      . exact Or.inr ⟨h.redelivers hsame hmem ⟨hevent, hold⟩, hclosed event ⟨hevent, hold⟩⟩
      . exact Or.inl hold
    . rw [hprocessed]
      intro event' hevent'
      rw [List.mem_append, List.mem_singleton] at hevent'
      rcases hevent' with hevent' | rfl
      . exact h.fromInputs event' hevent'
      . exact ⟨_, hmem, hevent⟩
  | sweep order nowMs => exact ⟨h.delivered.sweep order nowMs, h.fromInputs⟩

theorem Inv.leavesUnchanged {inputs : List (IngestInput c)} (hsame : SameEvents json inputs)
    {st : ProjectionRun c d} (h : Inv inputs json st) {input : IngestInput c} (hmem : input ∈ inputs)
    (hstored : st.Stored json input) (hclosed : st.RedeliversClosed json input)
    : st.LeavesUnchanged json input := by
  intro event hredelivery
  rcases hstored.step_eq hredelivery.1 with ⟨nowMs, hlifecycles, _⟩
  rcases h.redelivers hsame hmem hredelivery with ⟨old, hold, hold'⟩
  rw [hlifecycles]
  exact h.delivered.unchanged hold hold' (hclosed event hredelivery) nowMs

-- The laws of the store hold in any run, which is all that the converse needs.
theorem store_step {st : ProjectionRun c d}
    (h : LawfulLifecycleStore.Inv st.server.lifecycles) {input : IngestInput c}
    (hstored : st.Stored json input)
    : LawfulLifecycleStore.Inv (step json st input).server.lifecycles := by
  cases input with
  | frame frame =>
    rcases hstored.lifecycles_eq with ⟨event, hevent, _⟩
    rcases hstored.step_eq hevent with ⟨nowMs, hlifecycles, _⟩
    rw [hlifecycles]
    exact (LifecycleEngine.apply_applied _ event nowMs).inv h
  | sweep order nowMs => exact (StalenessScanner.sweep_spec h order nowMs).1

theorem redeliversClosed_of_unchanged {st : ProjectionRun c d}
    (h : LawfulLifecycleStore.Inv st.server.lifecycles) {input : IngestInput c}
    (hstored : st.Stored json input) (hunchanged : st.LeavesUnchanged json input)
    : st.RedeliversClosed json input := by
  intro event hredelivery
  by_contra hopen
  rcases hstored.step_eq hredelivery.1 with ⟨nowMs, hlifecycles, _⟩
  apply not_unchanged h hopen nowMs
  rw [← hlifecycles]
  exact hunchanged event hredelivery

theorem Inv.init (backend : Backend) {s : IngestServer c d}
    (hs : s.lifecycles = DynStore.empty backend) (inputs : List (IngestInput c))
    : Inv inputs json ⟨s, []⟩ := by
  have hempty : ∀ id lc, LifecycleStore.get (DynStore.empty backend) id ≠ some lc := by
    intro id lc hget
    rw [DynStore.get_empty] at hget
    contradiction
  constructor
  . dsimp only
    rw [hs]
    constructor
    . exact DynStore.inv_empty backend
    . intro id lc hget
      exact absurd hget (hempty id lc)
    . intro id lc hget
      exact absurd hget (hempty id lc)
    . intro id lc hget
      exact absurd hget (hempty id lc)
    . simp
  . simp

end ProjectionRun

/--
Along a run of valid events below L4 with all storage succeeding, from an empty lifecycle store, no
redelivery changes the lifecycles and no event id is ever listed twice if and only if every
redelivery finds no lifecycle or a closed one.
-/
theorem idempotent_iff_redeliversClosed (backend : Backend) {s : IngestServer c d}
    (hs : s.lifecycles = DynStore.empty backend) {inputs : List (IngestInput c)}
    (hsame : ProjectionRun.SameEvents json inputs)
    (hstored : Run.Guarded (ProjectionRun.step json) (ProjectionRun.Stored json) ⟨s, []⟩ inputs)
    : Run.Guarded (ProjectionRun.step json) (ProjectionRun.LeavesUnchanged json) ⟨s, []⟩ inputs
          ∧ Run.Always (ProjectionRun.step json) (fun st => NoDuplicates st.server.lifecycles)
            ⟨s, []⟩ inputs
        ↔ Run.Guarded (ProjectionRun.step json) (ProjectionRun.RedeliversClosed json) ⟨s, []⟩
          inputs := by
  have hinit : ProjectionRun.Inv inputs json ⟨s, []⟩ := .init backend hs inputs
  constructor
  . rintro ⟨hunchanged, _⟩
    have hstore : Run.Always (ProjectionRun.step json)
        (fun st => LawfulLifecycleStore.Inv st.server.lifecycles) ⟨s, []⟩ inputs := by
      apply Run.always_of_guarded (I := fun st : ProjectionRun c d =>
        LawfulLifecycleStore.Inv st.server.lifecycles) hinit.delivered.store _ hstored
      intro st input hinv hst
      exact ProjectionRun.store_step hinv hst
    refine (hstore.guard (hstored.and hunchanged)).imp ?_
    rintro st input ⟨hinv, hst, hun⟩
    exact ProjectionRun.redeliversClosed_of_unchanged hinv hst hun
  . intro hclosed
    have hguard := (Run.guarded_mem _ inputs).and (hstored.and hclosed)
    have hinv : Run.Always (ProjectionRun.step json) (ProjectionRun.Inv inputs json) ⟨s, []⟩
        inputs := by
      apply Run.always_of_guarded hinit _ hguard
      rintro st input h ⟨hmem, hst, hcl⟩
      exact h.step hsame hmem hst hcl
    constructor
    . refine (hinv.guard hguard).imp ?_
      rintro st input ⟨h, hmem, hst, hcl⟩
      exact h.leavesUnchanged hsame hmem hst hcl
    . exact hinv.mono (fun st h => h.delivered.noDuplicates)

-- The event that opens a payment is delivered again.
def twice : List (IngestInput Crates.toy) :=
  [.frame (paymentFrame created 1000), .frame (paymentFrame created 2000)]

theorem twice_event {input : IngestInput Crates.toy} (h : input ∈ twice)
    : input.event? (.ofPayments [created]) = some created := by
  simp only [twice, List.mem_cons, List.not_mem_nil, or_false] at h
  rcases h with rfl | rfl
  . exact paymentFrame_event? created_valid 1000
  . exact paymentFrame_event? created_valid 2000

theorem twice_sameEvents : ProjectionRun.SameEvents (.ofPayments [created]) twice := by
  intro x hx y hy event old hevent hold _
  rw [twice_event hx, Option.some.injEq] at hevent
  rw [twice_event hy, Option.some.injEq] at hold
  rw [← hevent, ← hold]
  rfl

theorem twice_stored (backend : Backend)
    : Run.Guarded (ProjectionRun.step (.ofPayments [created]))
        (ProjectionRun.Stored (.ofPayments [created])) ⟨emptyServer smallLog 10 backend, []⟩
        twice := by
  have hfirst := paymentFrame_event? created_valid 1000
  have hsecond := paymentFrame_event? created_valid 2000
  unfold twice
  rw [Run.guarded_cons, Run.guarded_cons]
  cases backend with
  | inMemory =>
    exact ⟨⟨by decide, by decide +kernel, created, hfirst, by decide +kernel, fun _ => rfl⟩,
      ⟨by decide, by decide +kernel, created, hsecond, by decide +kernel, fun _ => rfl⟩,
      Run.guarded_nil _⟩
  | sqlite =>
    exact ⟨⟨by decide, by decide +kernel, created, hfirst, by decide +kernel, fun _ => rfl⟩,
      ⟨by decide, by decide +kernel, created, hsecond, by decide +kernel, fun _ => rfl⟩,
      Run.guarded_nil _⟩

theorem idempotent_iff_redeliversClosed_twice
    : Run.Guarded (ProjectionRun.step (.ofPayments [created]))
            (ProjectionRun.LeavesUnchanged (.ofPayments [created]))
            ⟨emptyServer smallLog 10 .sqlite, []⟩ twice
          ∧ Run.Always (ProjectionRun.step (.ofPayments [created]))
            (fun st => NoDuplicates st.server.lifecycles) ⟨emptyServer smallLog 10 .sqlite, []⟩ twice
        ↔ Run.Guarded (ProjectionRun.step (.ofPayments [created]))
          (ProjectionRun.RedeliversClosed (.ofPayments [created]))
          ⟨emptyServer smallLog 10 .sqlite, []⟩ twice :=
  idempotent_iff_redeliversClosed .sqlite rfl twice_sameEvents (twice_stored .sqlite)

theorem twice_duplicates
    : ProjectionRun.SameEvents (.ofPayments [created]) twice
      ∧ (∀ backend, Run.Guarded (ProjectionRun.step (.ofPayments [created]))
          (ProjectionRun.Stored (.ofPayments [created])) ⟨emptyServer smallLog 10 backend, []⟩ twice)
      ∧ ∀ backend, ¬Run.Always (ProjectionRun.step (.ofPayments [created]))
          (fun st => NoDuplicates st.server.lifecycles) ⟨emptyServer smallLog 10 backend, []⟩
          twice := by
  refine ⟨twice_sameEvents, twice_stored, ?_⟩
  intro backend h
  have := h.last.of_get "lc_e1"
  revert this
  cases backend with
  | inMemory => decide +kernel
  | sqlite => decide +kernel

end Athar
