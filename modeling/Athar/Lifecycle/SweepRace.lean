import Athar.Lifecycle.Instance

/-!
This module contains the race between the engine and the scanner. A call of the engine is one step,
since it holds the lock of the engine, but a sweep is many: it takes a snapshot of the open
lifecycles and later writes its copies back, one at a time. Nothing that the engine recorded is lost
exactly as long as no copy is written back over events that arrived after the snapshot.
-/

namespace Athar

open LifecycleStore LawfulLifecycleStore LifecycleEngine

-- A sweep in flight: its clock reading and the copies it has not visited yet.
structure Sweep where
  nowMs : Nat
  remaining : List Lifecycle

inductive RaceStep where
  | apply (event : Event) (nowMs : Nat)
  | snapshot (order : IterationOrder) (nowMs : Nat)
  | visitNext (sweep : Nat)

def RaceStep.eventIds : RaceStep → List String
  | .apply event _ => [event.eventId]
  | .snapshot _ _ => []
  | .visitNext _ => []

structure Race (σ : Type) where
  store : σ
  sweeps : List Sweep
  seen : List String
  -- Event ids with the lifecycle that `apply` returned `Created` or `Updated` for.
  bound : List (String × String)
  -- Lifecycles that `apply` closed, with the state and closure it gave them.
  closed : List (String × State × Closure)

namespace ApplyOutcome

def bound (eventId : String) : ApplyOutcome → List (String × String)
  | .created id _ _ _ => [(eventId, id)]
  | .updated id _ _ _ => [(eventId, id)]
  | .lateEvent _ _ _ => []
  | .unbound => []

def closed : ApplyOutcome → List (String × State × Closure)
  | .created id _ state closure => if closure.isClosed then [(id, state, closure)] else []
  | .updated id _ state closure => if closure.isClosed then [(id, state, closure)] else []
  | .lateEvent _ _ _ => []
  | .unbound => []

end ApplyOutcome

namespace Race

variable {σ : Type} [LifecycleStore σ]

def start (store : σ) : Race σ := ⟨store, [], [], [], []⟩

def step (st : Race σ) : RaceStep → Race σ
  | .apply event nowMs =>
    let (store, outcome) := LifecycleEngine.apply st.store event nowMs
    { st with
      store
      seen := st.seen ++ [event.eventId]
      bound := st.bound ++ outcome.bound event.eventId
      closed := st.closed ++ outcome.closed }
  | .snapshot order nowMs =>
    { st with sweeps := st.sweeps ++ [⟨nowMs, StalenessScanner.snapshot st.store order⟩] }
  | .visitNext i =>
    match st.sweeps[i]? with
    | some ⟨nowMs, lc :: rest⟩ =>
      { st with
        store := (StalenessScanner.sweepOne nowMs (st.store, []) lc).1
        sweeps := st.sweeps.set i ⟨nowMs, rest⟩ }
    | _ => st

structure NothingLost (st : Race σ) : Prop where
  events : ∀ eventId id, (eventId, id) ∈ st.bound →
    ∃ lc, get st.store id = some lc ∧ eventId ∈ lc.eventIds
  closures : ∀ id state closure, (id, state, closure) ∈ st.closed →
    ∃ lc, get st.store id = some lc ∧ lc.state = state ∧ lc.closure = closure

-- The copy that a sweep writes back has all the events that the stored lifecycle has.
def WritesFreshCopy (st : Race σ) : RaceStep → Prop
  | .apply _ _ => True
  | .snapshot _ _ => True
  | .visitNext i => ∀ nowMs lc rest, st.sweeps[i]? = some ⟨nowMs, lc :: rest⟩ → lc.Stale nowMs →
    ∀ cur, get st.store lc.id = some cur → cur.eventIds = lc.eventIds

-- The stored lifecycle has come from this copy, and if the engine has closed it, through an event.
structure ComesFrom (st : Race σ) (copy cur : Lifecycle) : Prop where
  revises : cur.Revises copy
  eventIds : copy.eventIds <+: cur.eventIds
  closed : ∀ state closure, (cur.id, state, closure) ∈ st.closed →
    copy.eventIds.length < cur.eventIds.length

structure Inv [LawfulLifecycleStore σ] (st : Race σ) : Prop where
  store : LawfulLifecycleStore.Inv st.store
  nothingLost : st.NothingLost
  bound : ∀ id lc, get st.store id = some lc → ∀ eventId ∈ lc.eventIds, (eventId, id) ∈ st.bound
  nodup : ∀ id lc, get st.store id = some lc → lc.eventIds.Nodup
  seen : ∀ eventId id, (eventId, id) ∈ st.bound → eventId ∈ st.seen
  ids : ∀ id lc, get st.store id = some lc → ∃ eventId ∈ st.seen, id = "lc_" ++ eventId
  closed : ∀ id state closure, (id, state, closure) ∈ st.closed → closure.isClosed
  copies : ∀ sweep ∈ st.sweeps, ∀ copy ∈ sweep.remaining, copy.closure = .open
    ∧ ∃ cur, get st.store copy.id = some cur ∧ st.ComesFrom copy cur

variable [LawfulLifecycleStore σ]

-- What a write to the store has to meet to keep the invariant.
structure Write (st : Race σ) (new : Lifecycle) (seen : List String)
    (bound : List (String × String)) (closed : List (String × State × Closure)) : Prop where
  nodup : new.eventIds.Nodup
  events : ∀ eventId ∈ new.eventIds, (eventId, new.id) ∈ st.bound ++ bound
  boundTo : ∀ eventId id, (eventId, id) ∈ bound →
    id = new.id ∧ eventId ∈ new.eventIds ∧ eventId ∈ st.seen ++ seen
  closedAs : ∀ id state closure, (id, state, closure) ∈ closed →
    id = new.id ∧ new.state = state ∧ new.closure = closure ∧ closure.isClosed
  id : ∃ eventId ∈ st.seen ++ seen, new.id = "lc_" ++ eventId
  old : ∀ old, get st.store new.id = some old → new.Revises old ∧ old.eventIds <+: new.eventIds
    ∧ (∀ state closure, (new.id, state, closure) ∈ st.closed →
      new.state = state ∧ new.closure = closure)
    ∧ (closed ≠ [] → old.eventIds.length < new.eventIds.length)

section Write

variable {st : Race σ} {s' : σ} {new : Lifecycle} {seen : List String}
  {bound : List (String × String)} {closed : List (String × State × Closure)}

omit [LawfulLifecycleStore σ] in
theorem Write.nothingLost (hw : st.Write new seen bound closed) (h : st.NothingLost)
    (hself : get s' new.id = some new)
    (hother : ∀ id lc, get st.store id = some lc → id ≠ new.id → get s' id = some lc)
    : NothingLost { st with
        store := s'
        seen := st.seen ++ seen
        bound := st.bound ++ bound
        closed := st.closed ++ closed } := by
  constructor
  . intro eventId id hmem
    cases List.mem_append.mp hmem with
    | inl hold =>
      rcases h.events eventId id hold with ⟨lc, hlc, hevent⟩
      by_cases hid : id = new.id
      . subst hid
        exact ⟨new, hself, (hw.old lc hlc).2.1.subset hevent⟩
      . exact ⟨lc, hother id lc hlc hid, hevent⟩
    | inr hnew =>
      rcases hw.boundTo eventId id hnew with ⟨rfl, hevent, _⟩
      exact ⟨new, hself, hevent⟩
  . intro id state closure hmem
    cases List.mem_append.mp hmem with
    | inl hold =>
      rcases h.closures id state closure hold with ⟨lc, hlc, heq⟩
      by_cases hid : id = new.id
      . subst hid
        exact ⟨new, hself, (hw.old lc hlc).2.2.1 state closure hold⟩
      . exact ⟨lc, hother id lc hlc hid, heq⟩
    | inr hnew =>
      rcases hw.closedAs id state closure hnew with ⟨rfl, hstate, hclosure, _⟩
      exact ⟨new, hself, hstate, hclosure⟩

-- A copy of what is stored stays one, whether or not the write is to its lifecycle.
omit [LawfulLifecycleStore σ] in
theorem Write.comesFrom (hw : st.Write new seen bound closed) (hself : get s' new.id = some new)
    (hother : ∀ id lc, get st.store id = some lc → id ≠ new.id → get s' id = some lc)
    {copy cur : Lifecycle} (hcur : get st.store copy.id = some cur) (hfrom : st.ComesFrom copy cur)
    : ∃ cur', get s' copy.id = some cur' ∧ ComesFrom { st with
        store := s'
        seen := st.seen ++ seen
        bound := st.bound ++ bound
        closed := st.closed ++ closed } copy cur' := by
  by_cases hid : copy.id = new.id
  . rw [hid] at hcur ⊢
    rcases hw.old cur hcur with ⟨hrev, hprefix, _, hlonger⟩
    refine ⟨new, hself, hrev.trans hfrom.revises, hfrom.eventIds.trans hprefix, ?_⟩
    intro state closure hmem
    cases List.mem_append.mp hmem with
    | inl hold =>
      rw [hrev.id_eq] at hold
      have := hfrom.closed state closure hold
      exact Nat.lt_of_lt_of_le this hprefix.length_le
    | inr hnew =>
      have := hlonger (List.ne_nil_of_mem hnew)
      exact Nat.lt_of_le_of_lt hfrom.eventIds.length_le this
  . refine ⟨cur, hother copy.id cur hcur hid, hfrom.revises, hfrom.eventIds, ?_⟩
    intro state closure hmem
    cases List.mem_append.mp hmem with
    | inl hold => exact hfrom.closed state closure hold
    | inr hnew =>
      have hcurId := (hw.closedAs _ state closure hnew).1
      rw [hfrom.revises.id_eq] at hcurId
      contradiction

theorem Inv.write (h : st.Inv) (hw : st.Write new seen bound closed)
    (hinv : LawfulLifecycleStore.Inv s')
    (hget : ∀ id, get s' id = if id = new.id then some new else get st.store id)
    : Inv { st with
        store := s'
        seen := st.seen ++ seen
        bound := st.bound ++ bound
        closed := st.closed ++ closed } := by
  have hself : get s' new.id = some new := by
    rw [hget, if_pos rfl]
  have hother : ∀ id lc, get st.store id = some lc → id ≠ new.id → get s' id = some lc := by
    intro id lc hlc hid
    rw [hget, if_neg hid]
    exact hlc
  constructor
  . exact hinv
  . exact hw.nothingLost h.nothingLost hself hother
  . intro id lc hlc eventId hevent
    rw [hget] at hlc
    split at hlc
    . next hid =>
      rw [← Option.some.inj hlc] at hevent
      rw [hid]
      exact hw.events eventId hevent
    . exact List.mem_append_left _ (h.bound id lc hlc eventId hevent)
  . intro id lc hlc
    rw [hget] at hlc
    split at hlc
    . rw [← Option.some.inj hlc]
      exact hw.nodup
    . exact h.nodup id lc hlc
  . intro eventId id hmem
    cases List.mem_append.mp hmem with
    | inl hold => exact List.mem_append_left _ (h.seen eventId id hold)
    | inr hnew => exact (hw.boundTo eventId id hnew).2.2
  . intro id lc hlc
    rw [hget] at hlc
    split at hlc
    . next hid =>
      rw [hid]
      exact hw.id
    . rcases h.ids id lc hlc with ⟨eventId, hseen, hid⟩
      exact ⟨eventId, List.mem_append_left _ hseen, hid⟩
  . intro id state closure hmem
    cases List.mem_append.mp hmem with
    | inl hold => exact h.closed id state closure hold
    | inr hnew => exact (hw.closedAs id state closure hnew).2.2.2
  . intro sweep hsweep copy hcopy
    rcases h.copies sweep hsweep copy hcopy with ⟨hopen, cur, hcur, hfrom⟩
    exact ⟨hopen, hw.comesFrom hself hother hcur hfrom⟩

end Write

-- Sweeps may drop copies that they have visited.
theorem Inv.sweeps {st : Race σ} (h : st.Inv) {sweeps : List Sweep}
    (hsub : ∀ sweep ∈ sweeps, ∃ old ∈ st.sweeps, sweep.remaining ⊆ old.remaining)
    : Inv { st with sweeps } := by
  refine ⟨h.store, ⟨h.nothingLost.events, h.nothingLost.closures⟩, h.bound, h.nodup, h.seen, h.ids,
    h.closed, ?_⟩
  intro sweep hsweep copy hcopy
  rcases hsub sweep hsweep with ⟨old, hold, hsubset⟩
  rcases h.copies old hold copy (hsubset hcopy) with ⟨hopen, cur, hcur, hfrom⟩
  exact ⟨hopen, cur, hcur, hfrom.revises, hfrom.eventIds, hfrom.closed⟩

theorem Inv.seen_append {st : Race σ} (h : st.Inv) (eventIds : List String)
    : Inv { st with seen := st.seen ++ eventIds } := by
  refine ⟨h.store, ⟨h.nothingLost.events, h.nothingLost.closures⟩, h.bound, h.nodup, ?_, ?_, h.closed, ?_⟩
  . intro eventId id hmem
    exact List.mem_append_left _ (h.seen eventId id hmem)
  . intro id lc hlc
    rcases h.ids id lc hlc with ⟨eventId, hseen, hid⟩
    exact ⟨eventId, List.mem_append_left _ hseen, hid⟩
  . intro sweep hsweep copy hcopy
    rcases h.copies sweep hsweep copy hcopy with ⟨hopen, cur, hcur, hfrom⟩
    exact ⟨hopen, cur, hcur, hfrom.revises, hfrom.eventIds, hfrom.closed⟩

theorem Inv.init {store : σ} (hinv : LawfulLifecycleStore.Inv store)
    (hempty : ∀ id, get store id = none) : Inv (start store) := by
  have hnone : ∀ id lc, get store id ≠ some lc := by
    intro id lc hget
    rw [hempty] at hget
    contradiction
  constructor
  . exact hinv
  . constructor
    . intro _ _ hmem
      contradiction
    . intro _ _ _ hmem
      contradiction
  . intro id lc hget
    exact absurd hget (hnone id lc)
  . intro id lc hget
    exact absurd hget (hnone id lc)
  . intro _ _ hmem
    contradiction
  . intro id lc hget
    exact absurd hget (hnone id lc)
  . intro _ _ _ hmem
    contradiction
  . intro _ hmem
    contradiction

theorem closed_outcome {id id' : String} {state state' : State} {closure closure' : Closure}
    (h : (id', state', closure')
      ∈ if closure.isClosed then [(id, state, closure)] else [])
    : id' = id ∧ state = state' ∧ closure = closure' ∧ closure'.isClosed := by
  split at h
  . next hclosed =>
    rw [List.mem_singleton, Prod.mk.injEq, Prod.mk.injEq] at h
    rcases h with ⟨rfl, rfl, rfl⟩
    exact ⟨rfl, rfl, rfl, hclosed⟩
  . contradiction

theorem Inv.closure_eq {st : Race σ} (h : st.Inv) {lc : Lifecycle}
    (hget : get st.store lc.id = some lc) {state : State} {closure : Closure}
    (hmem : (lc.id, state, closure) ∈ st.closed) : lc.state = state ∧ lc.closure = closure := by
  rcases h.nothingLost.closures _ _ _ hmem with ⟨lc', hget', heq⟩
  rw [hget, Option.some.injEq] at hget'
  rw [hget']
  exact heq

theorem Inv.ids_append {st : Race σ} (h : st.Inv) {lc : Lifecycle}
    (hget : get st.store lc.id = some lc) (eventIds : List String)
    : ∃ eventId ∈ st.seen ++ eventIds, lc.id = "lc_" ++ eventId := by
  rcases h.ids _ lc hget with ⟨eventId, hseen, hid⟩
  exact ⟨eventId, List.mem_append_left _ hseen, hid⟩

theorem Inv.late_write {st : Race σ} (h : st.Inv) {lc : Lifecycle}
    (hget : get st.store lc.id = some lc) (event : Event) (nowMs : Nat)
    : st.Write (lc.withLateEvent event nowMs) [event.eventId] [] [] where
  nodup := h.nodup _ lc hget
  events eventId hevent := List.mem_append_left _ (h.bound _ lc hget eventId hevent)
  boundTo _ _ hmem := by contradiction
  closedAs _ _ _ hmem := by contradiction
  id := h.ids_append hget _
  old old hold := by
    have heq : old = lc := Option.some.inj (hold.symm.trans hget)
    subst heq
    refine ⟨old.withLateEvent_revises event nowMs, List.prefix_refl _, ?_, by simp⟩
    intro state closure hmem
    exact h.closure_eq hget hmem

-- A lifecycle that is still open was not closed by the engine.
theorem Inv.updated_write {st : Race σ} (h : st.Inv) {lc : Lifecycle}
    (hget : get st.store lc.id = some lc) (hopen : ¬lc.closure.isClosed) {event : Event}
    (hfresh : event.eventId ∉ st.seen) (tier : InferenceTier) (nowMs : Nat)
    : st.Write (lc.withEvent event tier nowMs) [event.eventId] [(event.eventId, lc.id)]
        (ApplyOutcome.updated lc.id tier (lc.withEvent event tier nowMs).state
          (lc.withEvent event tier nowMs).closure).closed where
  nodup := by
    rw [Lifecycle.withEvent_eventIds, ← List.concat_eq_append]
    apply List.Nodup.concat _ (h.nodup _ lc hget)
    intro hevent
    exact hfresh (h.seen _ _ (h.bound _ lc hget _ hevent))
  events eventId hevent := by
    rw [Lifecycle.withEvent_eventIds, List.mem_append] at hevent
    rw [List.mem_append]
    apply hevent.imp
    . exact h.bound _ lc hget eventId
    . intro hnew
      rw [List.mem_singleton.mp hnew]
      exact List.mem_singleton_self _
  boundTo eventId id hmem := by
    rw [List.mem_singleton, Prod.mk.injEq] at hmem
    rcases hmem with ⟨rfl, rfl⟩
    exact ⟨rfl, by simp, by simp⟩
  closedAs id state closure hmem := closed_outcome hmem
  id := h.ids_append hget _
  old old hold := by
    have heq : old = lc := Option.some.inj (hold.symm.trans hget)
    subst heq
    refine ⟨old.withEvent_revises event tier nowMs, by simp, ?_, by simp⟩
    intro state closure hmem
    have hclosure := (h.closure_eq hget hmem).2
    have hclosed := h.closed _ state closure hmem
    rw [hclosure] at hopen
    contradiction

theorem Inv.get_created {st : Race σ} (h : st.Inv) {eventId : String} (hfresh : eventId ∉ st.seen)
    : get st.store ("lc_" ++ eventId) = none := by
  cases hget : get st.store ("lc_" ++ eventId) with
  | none => rfl
  | some lc =>
    rcases h.ids _ lc hget with ⟨eventId', hseen, hid⟩
    rw [← lc_append_inj hid] at hseen
    contradiction

theorem Inv.created_write {st : Race σ} (h : st.Inv) {event : Event}
    (hfresh : event.eventId ∉ st.seen) (lct : LifecycleType) (rid key : Option String)
    (nowMs : Nat)
    : st.Write (Lifecycle.create event lct rid key nowMs) [event.eventId]
        [(event.eventId, "lc_" ++ event.eventId)]
        (ApplyOutcome.created ("lc_" ++ event.eventId) lct
          (Lifecycle.create event lct rid key nowMs).state
          (Lifecycle.create event lct rid key nowMs).closure).closed where
  nodup := by simp
  events eventId hevent := by
    rw [Lifecycle.create_eventIds, List.mem_singleton] at hevent
    rw [hevent]
    exact List.mem_append_right _ (List.mem_singleton_self _)
  boundTo eventId id hmem := by
    rw [List.mem_singleton, Prod.mk.injEq] at hmem
    rcases hmem with ⟨rfl, rfl⟩
    exact ⟨rfl, by simp, by simp⟩
  closedAs id state closure hmem := closed_outcome hmem
  id := ⟨event.eventId, by simp, rfl⟩
  old old hold := by
    rw [Lifecycle.create_id, h.get_created hfresh] at hold
    contradiction

theorem Inv.apply {st : Race σ} (h : st.Inv) {event : Event} {nowMs : Nat}
    (hfresh : event.eventId ∉ st.seen) : Inv (st.step (.apply event nowMs)) := by
  have happlied := apply_applied st.store event nowMs
  have hstep : st.step (.apply event nowMs)
      = { st with
          store := (LifecycleEngine.apply st.store event nowMs).1
          seen := st.seen ++ [event.eventId]
          bound := st.bound
            ++ (LifecycleEngine.apply st.store event nowMs).2.bound event.eventId
          closed := st.closed ++ (LifecycleEngine.apply st.store event nowMs).2.closed } := by
    rfl
  rw [hstep]
  generalize LifecycleEngine.apply st.store event nowMs = result at happlied
  rcases result with ⟨s', outcome⟩
  dsimp only at happlied ⊢
  cases happlied with
  | unbound =>
    have := h.seen_append [event.eventId]
    simpa [ApplyOutcome.bound, ApplyOutcome.closed] using this
  | @late id tier lc hcorr hget hclosed =>
    have hid := get_id h.store hget
    subst hid
    have hfits := fits_of_revises h.store hget (lc.withLateEvent_revises event nowMs)
    exact h.write (h.late_write hget event nowMs) (inv_upsert h.store hfits)
      (get_upsert h.store hfits)
  | @updated id tier lc hcorr hget hopen =>
    have hid := get_id h.store hget
    subst hid
    have hfits := fits_of_revises h.store hget (lc.withEvent_revises event tier nowMs)
    apply h.write (h.updated_write hget hopen hfresh tier nowMs)
    . exact inv_recordEvent _ _ (inv_upsert h.store hfits)
    . rw [get_recordEvent]
      exact get_upsert h.store hfits
  | @created lct rid key hcorr =>
    have hfits := fits_of_new hcorr nowMs
    apply h.write (h.created_write hfresh lct rid key nowMs)
    . exact inv_recordEvent _ _ (inv_upsert h.store hfits)
    . rw [get_recordEvent]
      exact get_upsert h.store hfits

theorem Inv.snapshot {st : Race σ} (h : st.Inv) (order : IterationOrder) (nowMs : Nat)
    : Inv (st.step (.snapshot order nowMs)) := by
  refine ⟨h.store, ⟨h.nothingLost.events, h.nothingLost.closures⟩, h.bound, h.nodup, h.seen, h.ids,
    h.closed, ?_⟩
  intro sweep hsweep copy hcopy
  cases List.mem_append.mp hsweep with
  | inl hold =>
    rcases h.copies sweep hold copy hcopy with ⟨hopen, cur, hcur, hfrom⟩
    exact ⟨hopen, cur, hcur, hfrom.revises, hfrom.eventIds, hfrom.closed⟩
  | inr hnew =>
    rw [List.mem_singleton] at hnew
    subst hnew
    have hmem : copy ∈ allOpen st.store := (order.perm _).mem_iff.mp hcopy
    rcases (mem_allOpen h.store).mp hmem with ⟨hget, hopen⟩
    refine ⟨hopen, copy, hget, ⟨rfl, rfl, rfl, rfl⟩, List.prefix_refl _, ?_⟩
    intro state closure hclosed
    have hclosure := (h.closure_eq hget hclosed).2
    have := h.closed _ state closure hclosed
    rw [← hclosure, hopen] at this
    contradiction

theorem Inv.visit_write {st : Race σ} (h : st.Inv) {copy cur : Lifecycle}
    (hget : get st.store copy.id = some cur) (hfrom : st.ComesFrom copy cur)
    (hfresh : cur.eventIds = copy.eventIds) (nowMs : Nat)
    : st.Write (copy.timedOut nowMs) [] [] [] where
  nodup := by
    rw [Lifecycle.timedOut_eventIds, ← hfresh]
    exact h.nodup _ cur hget
  events eventId hevent := by
    rw [Lifecycle.timedOut_eventIds, ← hfresh] at hevent
    exact List.mem_append_left _ (h.bound _ cur hget eventId hevent)
  boundTo _ _ hmem := by contradiction
  closedAs _ _ _ hmem := by contradiction
  id := by
    rcases h.ids _ cur hget with ⟨eventId, hseen, hid⟩
    exact ⟨eventId, List.mem_append_left _ hseen, hid⟩
  old old hold := by
    have heq : old = cur := Option.some.inj (hold.symm.trans hget)
    subst heq
    refine ⟨(copy.timedOut_revises nowMs).trans hfrom.revises.symm, ?_, ?_, by simp⟩
    . rw [Lifecycle.timedOut_eventIds, hfresh]
    . intro state closure hmem
      -- The engine would have closed it through an event that the copy does not have.
      rw [(copy.timedOut_revises nowMs).id_eq, ← hfrom.revises.id_eq] at hmem
      have := hfrom.closed state closure hmem
      rw [hfresh] at this
      omega

omit [LawfulLifecycleStore σ] in
theorem step_visitNext_of_cons {st : Race σ} {i : Nat} {nowMs : Nat} {lc : Lifecycle}
    {rest : List Lifecycle} (hsweep : st.sweeps[i]? = some ⟨nowMs, lc :: rest⟩)
    : st.step (.visitNext i)
        = { st with
            store := if lc.Stale nowMs then upsert st.store (lc.timedOut nowMs) else st.store
            sweeps := st.sweeps.set i ⟨nowMs, rest⟩ } := by
  simp only [step, hsweep, StalenessScanner.sweepOne]
  split <;> rfl

theorem Inv.visitNext {st : Race σ} (h : st.Inv) {i : Nat}
    (hfresh : st.WritesFreshCopy (.visitNext i)) : Inv (st.step (.visitNext i)) := by
  cases hsweep : st.sweeps[i]? with
  | none =>
    simp only [step, hsweep]
    exact h
  | some sweep =>
    rcases sweep with ⟨nowMs, remaining⟩
    cases remaining with
    | nil =>
      simp only [step, hsweep]
      exact h
    | cons copy rest =>
      rw [step_visitNext_of_cons hsweep]
      have hmem := List.mem_of_getElem? hsweep
      rcases h.copies _ hmem copy (by simp) with ⟨hopen, cur, hget, hfrom⟩
      have hwritten : Inv { st with
          store := if copy.Stale nowMs then upsert st.store (copy.timedOut nowMs)
            else st.store } := by
        split
        . next hstale =>
          have heq := hfresh nowMs copy rest hsweep hstale cur hget
          have hrev := (copy.timedOut_revises nowMs).trans hfrom.revises.symm
          have hfits := fits_of_revises h.store (get_self h.store hget) hrev
          have := h.write (h.visit_write hget hfrom heq nowMs) (inv_upsert h.store hfits)
            (get_upsert h.store hfits)
          simpa using this
        . exact h
      apply hwritten.sweeps
      intro sweep hsweep'
      cases List.mem_or_eq_of_mem_set hsweep' with
      | inl hold => exact ⟨sweep, hold, List.Subset.refl _⟩
      | inr hnew =>
        rw [hnew]
        exact ⟨_, hmem, by simp⟩

-- Writing back a copy that misses an event takes that event from the lifecycle.
theorem Inv.not_nothingLost {st : Race σ} (h : st.Inv) {step : RaceStep}
    (hstale : ¬st.WritesFreshCopy step) : ¬(st.step step).NothingLost := by
  cases step with
  | apply event nowMs => exact absurd trivial hstale
  | snapshot order nowMs => exact absurd trivial hstale
  | visitNext i =>
    simp only [WritesFreshCopy, Classical.not_forall] at hstale
    rcases hstale with ⟨nowMs, copy, rest, hsweep, hstale, cur, hget, hne⟩
    rcases h.copies _ (List.mem_of_getElem? hsweep) copy (by simp) with ⟨_, cur', hget', hfrom⟩
    have heq : cur' = cur := Option.some.inj (hget'.symm.trans hget)
    subst heq
    rcases hfrom.eventIds with ⟨missed, hmissed⟩
    have hnodup := h.nodup _ cur' hget
    rw [← hmissed, List.nodup_append] at hnodup
    cases missed with
    | nil =>
      rw [List.append_nil] at hmissed
      exact absurd hmissed.symm hne
    | cons eventId missed =>
      have hbound := h.bound _ cur' hget eventId (by simp [← hmissed])
      have hrev := (copy.timedOut_revises nowMs).trans hfrom.revises.symm
      have hfits := fits_of_revises h.store (get_self h.store hget) hrev
      rw [step_visitNext_of_cons hsweep, if_pos hstale]
      intro hnothing
      rcases hnothing.events eventId copy.id hbound with ⟨lc, hlc, hevent⟩
      dsimp only at hlc
      rw [get_upsert h.store hfits, if_pos (copy.timedOut_revises nowMs).id_eq.symm] at hlc
      rw [← Option.some.inj hlc, Lifecycle.timedOut_eventIds] at hevent
      exact hnodup.2.2 eventId hevent eventId (by simp) rfl

theorem Inv.step {st : Race σ} (h : st.Inv) {step : RaceStep}
    (hdistinct : ∀ eventId ∈ step.eventIds, eventId ∉ st.seen) (hfresh : st.WritesFreshCopy step)
    : Inv (st.step step) := by
  cases step with
  | apply event nowMs => exact h.apply (hdistinct event.eventId (by simp [RaceStep.eventIds]))
  | snapshot order nowMs => exact h.snapshot order nowMs
  | visitNext i => exact h.visitNext hfresh

omit [LawfulLifecycleStore σ] in
theorem seen_step (st : Race σ) (step : RaceStep)
    : (st.step step).seen = st.seen ++ step.eventIds := by
  cases step with
  | apply event nowMs => rfl
  | snapshot order nowMs => simp [Race.step, RaceStep.eventIds]
  | visitNext i =>
    simp only [Race.step, RaceStep.eventIds, List.append_nil]
    split <;> rfl

end Race

/--
Over any interleaving of calls of the engine, with distinct event ids, and the steps of sweeps, no
event and no closure that the engine recorded is ever lost if and only if no sweep writes a copy
back to a lifecycle that got an event after the snapshot.
-/
theorem nothingLost_iff_writesFreshCopy (backend : Backend) (steps : List RaceStep)
    (hdistinct : (steps.flatMap RaceStep.eventIds).Nodup)
    : Run.Always Race.step Race.NothingLost (Race.start (DynStore.empty backend)) steps
        ↔ Run.Guarded Race.step Race.WritesFreshCopy (Race.start (DynStore.empty backend))
          steps := by
  have hD := Run.guarded_fresh (s := Race.start (DynStore.empty backend)) Race.seen_step hdistinct
  apply Run.always_iff_guarded_of_guarded (I := Race.Inv) hD
  . exact Race.Inv.init (DynStore.inv_empty backend) (DynStore.get_empty backend)
  . intro st step hinv hfreshId hfresh
    exact hinv.step hfreshId hfresh
  . intro st hinv
    exact hinv.nothingLost
  . intro st step hinv _ hstale
    exact hinv.not_nothingLost hstale

-- A payment settles between the snapshot of a sweep and the write of its copy.
def racingSteps : List RaceStep :=
  [.apply (paymentEvent "payment.create" "e1" "tnt_test" "pay_1") 0,
    .snapshot .asStored 3600000,
    .apply (paymentEvent "payment.settle" "e2" "tnt_test" "pay_1") 3600000,
    .visitNext 0]

theorem nothingLost_iff_writesFreshCopy_racingSteps
    : Run.Always Race.step Race.NothingLost (Race.start (DynStore.empty .sqlite)) racingSteps
        ↔ Run.Guarded Race.step Race.WritesFreshCopy (Race.start (DynStore.empty .sqlite))
          racingSteps :=
  nothingLost_iff_writesFreshCopy .sqlite racingSteps (by decide)

theorem Race.NothingLost.mem_eventIds {σ : Type} [LifecycleStore σ] {st : Race σ}
    (h : st.NothingLost) {eventId id : String} (hbound : (eventId, id) ∈ st.bound)
    : (get st.store id).any (fun lc => eventId ∈ lc.eventIds) = true := by
  rcases h.events eventId id hbound with ⟨lc, hget, hevent⟩
  simp [hget, hevent]

theorem racingSteps_lose
    : ¬Run.Always Race.step Race.NothingLost (Race.start (DynStore.empty .inMemory)) racingSteps
      ∧ ¬Run.Always Race.step Race.NothingLost (Race.start (DynStore.empty .sqlite))
          racingSteps := by
  constructor
  . intro h
    have hbound : ("e2", "lc_e1")
        ∈ (Run.exec Race.step (Race.start (DynStore.empty .inMemory)) racingSteps).bound := by
      decide +kernel
    have := h.last.mem_eventIds hbound
    revert this
    decide +kernel
  . intro h
    have hbound : ("e2", "lc_e1")
        ∈ (Run.exec Race.step (Race.start (DynStore.empty .sqlite)) racingSteps).bound := by
      decide +kernel
    have := h.last.mem_eventIds hbound
    revert this
    decide +kernel

end Athar
