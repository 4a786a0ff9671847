import Athar.Lifecycle.Instance

/-!
This module contains the same calls over two stores. Two lawful stores that agree on every lookup give
the same outcomes and go on agreeing, unless a new lifecycle is written under an id that is taken: the
in-memory store keeps the keys of the old one in its indexes, and the SQLite store loses them with the
row. The other way to tell them apart is a sweep over lifecycles that list the same event.
-/

namespace Athar

open LifecycleStore LawfulLifecycleStore LifecycleEngine

-- The lifecycle that a sweep binds an event to last.
def lastBinding (nowMs : Nat) (lcs : List Lifecycle) (eventId : String) : Option String :=
  (lcs.filter fun lc => lc.Stale nowMs ∧ eventId ∈ lc.eventIds).getLast?.map (·.id)

def staleResult (nowMs : Nat) (lc : Lifecycle) : StalenessResult :=
  ⟨lc.id, nowMs, lc.state, timeoutStateFor lc.state⟩

-- A new lifecycle is written under an id that is taken.
def Recreates {σ : Type} [LifecycleStore σ] (s : σ) (event : Event) : Prop :=
  (∃ lct rid key, correlate s event = .new lct rid key) ∧ get s ("lc_" ++ event.eventId) ≠ none

section Sweep

variable {σ : Type} [LifecycleStore σ]

theorem foldl_sweepOne_results (nowMs : Nat) (lcs : List Lifecycle)
    (acc : σ × List StalenessResult)
    : (lcs.foldl (StalenessScanner.sweepOne nowMs) acc).2
        = acc.2 ++ (lcs.filter (·.Stale nowMs)).map (staleResult nowMs) := by
  induction lcs generalizing acc with
  | nil => simp
  | cons lc lcs ih =>
    rw [List.foldl_cons, ih]
    by_cases hstale : lc.Stale nowMs
    . rw [StalenessScanner.sweepOne, if_pos hstale, List.filter_cons_of_pos (by simpa using hstale)]
      simp [staleResult]
    . rw [StalenessScanner.sweepOne, if_neg hstale, List.filter_cons_of_neg (by simpa using hstale)]

variable [LawfulLifecycleStore σ]

-- Writing a stored lifecycle back as timed out moves none of its keys.
theorem find_timedOut {s : σ} (h : Inv s) {lc : Lifecycle} (hget : get s lc.id = some lc)
    (nowMs : Nat)
    : (∀ r, findByResource (upsert s (lc.timedOut nowMs)) r = findByResource s r)
        ∧ ∀ k, findByBusinessKey (upsert s (lc.timedOut nowMs)) k = findByBusinessKey s k := by
  have hrev := lc.timedOut_revises nowMs
  have hfits := fits_of_revises h hget hrev
  constructor
  . intro r
    rw [findByResource_upsert_eq h hfits (hrev.of_get hget)]
    split
    . next hr => exact (findByResource_of_get h hget hr).symm
    . rfl
  . intro k
    rw [findByBusinessKey_upsert_eq h hfits (hrev.of_get hget)]
    split
    . next hk => exact (findByBusinessKey_of_get h hget hk).symm
    . rfl

theorem lastBinding_concat (nowMs : Nat) (lcs : List Lifecycle) (lc : Lifecycle) (eventId : String)
    : lastBinding nowMs (lcs ++ [lc]) eventId
        = if lc.Stale nowMs ∧ eventId ∈ lc.eventIds then
            some lc.id
          else
            lastBinding nowMs lcs eventId := by
  unfold lastBinding
  rw [List.filter_append, List.filter_singleton]
  split
  . next h =>
    rw [decide_eq_true h, cond_true, List.getLast?_concat, Option.map_some]
  . next h =>
    rw [decide_eq_false h, cond_false, List.append_nil]

-- Induction over the snapshot from its end, where the last binding is made.
theorem foldl_sweepOne_find {s : σ} (h : Inv s) {lcs : List Lifecycle}
    (hnodup : (lcs.map (·.id)).Nodup) (hstored : ∀ lc ∈ lcs, get s lc.id = some lc) (nowMs : Nat)
    : (∀ r, findByResource (lcs.foldl (StalenessScanner.sweepOne nowMs) (s, [])).1 r
          = findByResource s r)
        ∧ (∀ k, findByBusinessKey (lcs.foldl (StalenessScanner.sweepOne nowMs) (s, [])).1 k
          = findByBusinessKey s k)
        ∧ ∀ eventId, findByEvent (lcs.foldl (StalenessScanner.sweepOne nowMs) (s, [])).1 eventId
          = (lastBinding nowMs lcs eventId).or (findByEvent s eventId) := by
  induction lcs using List.reverseRecOn with
  | nil => exact ⟨fun _ => rfl, fun _ => rfl, fun _ => rfl⟩
  | append_singleton lcs lc ih =>
    rw [List.map_append, List.nodup_append] at hnodup
    have hold : ∀ lc' ∈ lcs, get s lc'.id = some lc' := by
      intro lc' hlc'
      exact hstored lc' (List.mem_append_left _ hlc')
    rcases ih hnodup.1 hold with ⟨hresource, hkey, hevent⟩
    rcases StalenessScanner.foldl_sweepOne h hnodup.1 hold nowMs [] with ⟨hinv, hget, _⟩
    have hlast : get (lcs.foldl (StalenessScanner.sweepOne nowMs) (s, [])).1 lc.id = some lc := by
      have hnot : lc ∉ lcs := by
        intro hmem
        exact hnodup.2.2 lc.id (List.mem_map_of_mem hmem) lc.id (by simp) rfl
      rw [hget, hstored lc (by simp), Option.map_some, if_neg (fun hboth => hnot hboth.1)]
    rw [List.foldl_append, List.foldl_cons, List.foldl_nil]
    by_cases hstale : lc.Stale nowMs
    . rcases find_timedOut hinv hlast nowMs with ⟨hresource', hkey'⟩
      rw [StalenessScanner.sweepOne, if_pos hstale]
      refine ⟨?_, ?_, ?_⟩
      . intro r
        rw [hresource', hresource]
      . intro k
        rw [hkey', hkey]
      . intro eventId
        rw [findByEvent_upsert, lastBinding_concat, Lifecycle.timedOut_eventIds]
        by_cases hmem : eventId ∈ lc.eventIds
        . rw [if_pos hmem, if_pos ⟨hstale, hmem⟩]
          rfl
        . rw [if_neg hmem, if_neg (fun hboth => hmem hboth.2), hevent]
    . rw [StalenessScanner.sweepOne, if_neg hstale]
      refine ⟨hresource, hkey, ?_⟩
      intro eventId
      rw [lastBinding_concat, if_neg (fun hboth => hstale hboth.1), hevent]

theorem snapshot_stored {s : σ} (h : Inv s) (order : IterationOrder)
    : ((StalenessScanner.snapshot s order).map (·.id)).Nodup
        ∧ ∀ lc ∈ StalenessScanner.snapshot s order, get s lc.id = some lc := by
  have hperm : (StalenessScanner.snapshot s order).Perm (allOpen s) := order.perm (allOpen s)
  constructor
  . rw [(hperm.map _).nodup_iff]
    exact nodup_allOpen h
  . intro lc hlc
    exact ((mem_allOpen h).mp (hperm.subset hlc)).1

theorem sweep_find {s : σ} (h : Inv s) (order : IterationOrder) (nowMs : Nat)
    : (∀ r, findByResource (StalenessScanner.sweep s order nowMs).1 r = findByResource s r)
        ∧ (∀ k, findByBusinessKey (StalenessScanner.sweep s order nowMs).1 k = findByBusinessKey s k)
        ∧ ∀ eventId, findByEvent (StalenessScanner.sweep s order nowMs).1 eventId
          = (lastBinding nowMs (StalenessScanner.snapshot s order) eventId).or
            (findByEvent s eventId) := by
  rcases snapshot_stored h order with ⟨hnodup, hstored⟩
  exact foldl_sweepOne_find h hnodup hstored nowMs

end Sweep

section Agree

variable {σ τ : Type} [LifecycleStore σ] [LifecycleStore τ] [LawfulLifecycleStore σ]
  [LawfulLifecycleStore τ]

-- Two stores that no lookup tells apart.
structure Agree (s : σ) (t : τ) : Prop where
  left : Inv s
  right : Inv t
  get : ∀ id, get s id = get t id
  resource : ∀ r, findByResource s r = findByResource t r
  businessKey : ∀ k, findByBusinessKey s k = findByBusinessKey t k
  event : ∀ eventId, findByEvent s eventId = findByEvent t eventId

variable {s : σ} {t : τ}

theorem Agree.correlate (h : Agree s t) (event : Event)
    : LifecycleEngine.correlate s event = LifecycleEngine.correlate t event := by
  have hresource : findByResource s = findByResource t := funext h.resource
  have hkey : findByBusinessKey s = findByBusinessKey t := funext h.businessKey
  have hevent : findByEvent s = findByEvent t := funext h.event
  unfold LifecycleEngine.correlate
  rw [hresource, hkey, hevent]

theorem Agree.fits (h : Agree s t) {lc : Lifecycle} (hfits : Fits s lc) : Fits t lc := by
  constructor
  . intro r id hr hfind
    rw [← h.resource] at hfind
    exact hfits.resource r id hr hfind
  . intro k id hk hfind
    rw [← h.businessKey] at hfind
    exact hfits.businessKey k id hk hfind

theorem Agree.upsert (h : Agree s t) {lc : Lifecycle} (hfits : Fits s lc)
    (hold : ∀ old, LifecycleStore.get s lc.id = some old → lc.Revises old)
    : Agree (upsert s lc) (upsert t lc) := by
  have hfits' := h.fits hfits
  have hold' : ∀ old, LifecycleStore.get t lc.id = some old → lc.Revises old := by
    intro old hget
    rw [← h.get] at hget
    exact hold old hget
  constructor
  . exact inv_upsert h.left hfits
  . exact inv_upsert h.right hfits'
  . intro id
    rw [get_upsert h.left hfits, get_upsert h.right hfits', h.get]
  . intro r
    rw [findByResource_upsert_eq h.left hfits hold, findByResource_upsert_eq h.right hfits' hold',
      h.resource]
  . intro k
    rw [findByBusinessKey_upsert_eq h.left hfits hold,
      findByBusinessKey_upsert_eq h.right hfits' hold', h.businessKey]
  . intro eventId
    rw [findByEvent_upsert, findByEvent_upsert, h.event]

theorem Agree.recordEvent (h : Agree s t) (eventId id : String)
    : Agree (recordEvent s eventId id) (recordEvent t eventId id) := by
  constructor
  . exact inv_recordEvent eventId id h.left
  . exact inv_recordEvent eventId id h.right
  . rw [get_recordEvent, get_recordEvent]
    exact h.get
  . rw [findByResource_recordEvent, findByResource_recordEvent]
    exact h.resource
  . rw [findByBusinessKey_recordEvent, findByBusinessKey_recordEvent]
    exact h.businessKey
  . intro eventId'
    rw [findByEvent_recordEvent, findByEvent_recordEvent, h.event]

theorem Agree.revise (h : Agree s t) {lc old : Lifecycle}
    (hget : LifecycleStore.get s old.id = some old) (hrev : lc.Revises old)
    : Agree (LifecycleStore.upsert s lc) (LifecycleStore.upsert t lc) :=
  h.upsert (fits_of_revises h.left hget hrev) (hrev.of_get hget)

theorem Agree.apply (h : Agree s t) {event : Event} (hkeeps : ¬Recreates s event) (nowMs : Nat)
    : (apply s event nowMs).2 = (apply t event nowMs).2
        ∧ Agree (apply s event nowMs).1 (apply t event nowMs).1 := by
  have hsame := h.correlate event
  cases hcorr : LifecycleEngine.correlate s event with
  | none =>
    rw [apply_of_none hcorr, apply_of_none (hsame.symm.trans hcorr)]
    exact ⟨rfl, h⟩
  | new lct rid key =>
    rw [apply_of_new hcorr, apply_of_new (hsame.symm.trans hcorr)]
    refine ⟨rfl, (h.upsert (fits_of_new hcorr nowMs) ?_).recordEvent _ _⟩
    intro old hold
    by_contra _
    apply hkeeps
    refine ⟨⟨lct, rid, key, hcorr⟩, ?_⟩
    rw [Lifecycle.create_id] at hold
    rw [hold]
    simp
  | match' id tier =>
    have hcorr' := hsame.symm.trans hcorr
    cases hget : LifecycleStore.get s id with
    | none =>
      have hget' : LifecycleStore.get t id = none := by
        rw [← h.get, hget]
      unfold LifecycleEngine.apply
      rw [hcorr, hcorr']
      dsimp only
      rw [hget, hget']
      exact ⟨rfl, h⟩
    | some lc =>
      have hget' : LifecycleStore.get t id = some lc := by
        rw [← h.get, hget]
      have hstored := get_self h.left hget
      by_cases hclosed : lc.closure.isClosed
      . rw [apply_of_closed hcorr hget hclosed, apply_of_closed hcorr' hget' hclosed]
        exact ⟨rfl, h.revise hstored (lc.withLateEvent_revises event nowMs)⟩
      . rw [apply_of_open hcorr hget hclosed, apply_of_open hcorr' hget' hclosed]
        exact ⟨rfl, (h.revise hstored (lc.withEvent_revises event tier nowMs)).recordEvent _ _⟩

theorem nodup_allOpen_self (h : Inv s) : (allOpen s).Nodup :=
  List.Nodup.of_map _ (nodup_allOpen h)

theorem Agree.allOpen_perm (h : Agree s t) : (allOpen s).Perm (allOpen t) := by
  rw [List.perm_ext_iff_of_nodup (nodup_allOpen_self h.left) (nodup_allOpen_self h.right)]
  intro lc
  rw [mem_allOpen h.left, mem_allOpen h.right, h.get]

theorem Agree.snapshot_perm (h : Agree s t) (order order' : IterationOrder)
    : (StalenessScanner.snapshot s order).Perm (StalenessScanner.snapshot t order') :=
  ((order.perm _).trans h.allOpen_perm).trans (order'.perm _).symm

theorem Agree.sweep_results (h : Agree s t) (order order' : IterationOrder) (nowMs : Nat)
    : (StalenessScanner.sweep s order nowMs).2.Perm (StalenessScanner.sweep t order' nowMs).2 := by
  unfold StalenessScanner.sweep
  rw [foldl_sweepOne_results, foldl_sweepOne_results]
  exact ((h.snapshot_perm order order').filter _).map _

-- The two sweeps bind every event to the same lifecycle last.
def SweepAlike (s : σ) (t : τ) (order order' : IterationOrder) (nowMs : Nat) : Prop :=
  ∀ eventId, lastBinding nowMs (StalenessScanner.snapshot s order) eventId
    = lastBinding nowMs (StalenessScanner.snapshot t order') eventId

theorem Agree.sweep (h : Agree s t) {order order' : IterationOrder} {nowMs : Nat}
    (halike : SweepAlike s t order order' nowMs)
    : Agree (StalenessScanner.sweep s order nowMs).1 (StalenessScanner.sweep t order' nowMs).1 := by
  rcases StalenessScanner.sweep_spec h.left order nowMs with ⟨hinv, hget, _⟩
  rcases StalenessScanner.sweep_spec h.right order' nowMs with ⟨hinv', hget', _⟩
  rcases sweep_find h.left order nowMs with ⟨hresource, hkey, hevent⟩
  rcases sweep_find h.right order' nowMs with ⟨hresource', hkey', hevent'⟩
  constructor
  . exact hinv
  . exact hinv'
  . intro id
    rw [hget, hget', h.get]
  . intro r
    rw [hresource, hresource', h.resource]
  . intro k
    rw [hkey, hkey', h.businessKey]
  . intro eventId
    rw [hevent, hevent', halike, h.event]

-- When the sweeps do not bind alike, some event is found in different lifecycles.
theorem Agree.sweep_event_ne (h : Agree s t) {order order' : IterationOrder} {nowMs : Nat}
    (halike : ¬SweepAlike s t order order' nowMs)
    : ∃ eventId, findByEvent (StalenessScanner.sweep s order nowMs).1 eventId
        ≠ findByEvent (StalenessScanner.sweep t order' nowMs).1 eventId := by
  rcases not_forall.mp halike with ⟨eventId, hne⟩
  refine ⟨eventId, ?_⟩
  rw [(sweep_find h.left order nowMs).2.2, (sweep_find h.right order' nowMs).2.2]
  have hperm := (h.snapshot_perm order order').filter
    fun lc => decide (lc.Stale nowMs ∧ eventId ∈ lc.eventIds)
  unfold lastBinding at hne ⊢
  cases hlast : ((StalenessScanner.snapshot s order).filter
      fun lc => decide (lc.Stale nowMs ∧ eventId ∈ lc.eventIds)).getLast? with
  | none =>
    rw [List.getLast?_eq_none_iff] at hlast
    rw [hlast, List.nil_perm] at hperm
    rw [hlast, hperm] at hne
    exact absurd rfl hne
  | some lc =>
    cases hlast' : ((StalenessScanner.snapshot t order').filter
        fun lc => decide (lc.Stale nowMs ∧ eventId ∈ lc.eventIds)).getLast? with
    | none =>
      rw [List.getLast?_eq_none_iff] at hlast'
      rw [hlast', List.perm_nil] at hperm
      rw [hperm] at hlast
      contradiction
    | some lc' =>
      rw [hlast, hlast'] at hne
      exact hne

end Agree

-- A call of the engine or the scanner, with the orders in which the two stores yield lifecycles.
inductive StoreCall where
  | apply (event : Event) (nowMs : Nat)
  | sweep (order order' : IterationOrder) (nowMs : Nat)

inductive CallResult where
  | applied (outcome : ApplyOutcome)
  | swept (results : List StalenessResult)

def CallResult.Alike : CallResult → CallResult → Prop
  | .applied outcome, .applied outcome' => outcome = outcome'
  | .swept results, .swept results' => results.Perm results'
  | _, _ => False

structure SameLookups (m : InMemoryStore) (s : SqliteLifecycleStore) : Prop where
  get : ∀ id, get m id = get s id
  findByResource : ∀ r, findByResource m r = findByResource s r
  findByBusinessKey : ∀ k, findByBusinessKey m k = findByBusinessKey s k
  findByEvent : ∀ eventId, findByEvent m eventId = findByEvent s eventId
  count : count m = count s
  countOpen : countOpen m = countOpen s

-- The same calls over an in-memory and an SQLite store.
structure Twins where
  memory : InMemoryStore
  sqlite : SqliteLifecycleStore
  results : List (CallResult × CallResult)

namespace Twins

def start : Twins := ⟨.new, .open, []⟩

def step (t : Twins) : StoreCall → Twins
  | .apply event nowMs =>
    let (memory, outcome) := LifecycleEngine.apply t.memory event nowMs
    let (sqlite, outcome') := LifecycleEngine.apply t.sqlite event nowMs
    ⟨memory, sqlite, t.results ++ [(.applied outcome, .applied outcome')]⟩
  | .sweep order order' nowMs =>
    let (memory, results) := StalenessScanner.sweep t.memory order nowMs
    let (sqlite, results') := StalenessScanner.sweep t.sqlite order' nowMs
    ⟨memory, sqlite, t.results ++ [(.swept results, .swept results')]⟩

structure Interchangeable (t : Twins) : Prop where
  results : ∀ result ∈ t.results, result.1.Alike result.2
  lookups : SameLookups t.memory t.sqlite

-- No id is taken twice, and no sweep leaves the two stores with different last bindings.
def StaysAlike (t : Twins) : StoreCall → Prop
  | .apply event _ => ¬Recreates t.memory event
  | .sweep order order' nowMs => SweepAlike t.memory t.sqlite order order' nowMs

structure Inv (t : Twins) : Prop where
  agree : Agree t.memory t.sqlite
  keys : HasKeys t.memory
  results : ∀ result ∈ t.results, result.1.Alike result.2

end Twins

theorem countOpen_inMemory (m : InMemoryStore) : countOpen m = (allOpen m).length := by
  rfl

theorem countOpen_sqlite (s : SqliteLifecycleStore) : countOpen s = (allOpen s).length := by
  simp [countOpen, allOpen]

theorem Agree.sameLookups {m : InMemoryStore} {s : SqliteLifecycleStore} (h : Agree m s)
    : SameLookups m s where
  get := h.get
  findByResource := h.resource
  findByBusinessKey := h.businessKey
  findByEvent := h.event
  count := by
    have hleft : LawfulLifecycleStore.Inv (DynStore.inMemory m) := h.left
    have hright : LawfulLifecycleStore.Inv (DynStore.sqlite s) := h.right
    rcases DynStore.count_eq hleft with ⟨ids, hnodup, hmem, hcount⟩
    rcases DynStore.count_eq hright with ⟨ids', hnodup', hmem', hcount'⟩
    have hperm : ids.Perm ids' := by
      rw [List.perm_ext_iff_of_nodup hnodup hnodup']
      intro id
      have hget : LifecycleStore.get (DynStore.inMemory m) id
          = LifecycleStore.get (DynStore.sqlite s) id := h.get id
      rw [hmem, hmem', hget]
    have hm : LifecycleStore.count m = LifecycleStore.count (DynStore.inMemory m) := rfl
    have hs : LifecycleStore.count s = LifecycleStore.count (DynStore.sqlite s) := rfl
    rw [hm, hs, hcount, hcount', hperm.length_eq]
  countOpen := by
    rw [countOpen_inMemory, countOpen_sqlite, h.allOpen_perm.length_eq]

namespace Twins

theorem Inv.interchangeable {t : Twins} (h : t.Inv) : t.Interchangeable where
  results := h.results
  lookups := h.agree.sameLookups

theorem alike_append {results : List (CallResult × CallResult)}
    (h : ∀ result ∈ results, result.1.Alike result.2) {a b : CallResult} (hab : a.Alike b)
    : ∀ result ∈ results ++ [(a, b)], result.1.Alike result.2 := by
  intro result hresult
  cases List.mem_append.mp hresult with
  | inl hold => exact h result hold
  | inr hnew =>
    rw [List.mem_singleton.mp hnew]
    exact hab

theorem Inv.step {t : Twins} (h : t.Inv) {call : StoreCall} (halike : t.StaysAlike call)
    : (t.step call).Inv := by
  cases call with
  | apply event nowMs =>
    rcases h.agree.apply halike nowMs with ⟨hsame, hagree⟩
    exact ⟨hagree, (apply_applied t.memory event nowMs).hasKeys h.agree.left h.keys,
      alike_append h.results hsame⟩
  | sweep order order' nowMs =>
    have hkeys := EngineCall.hasKeys_step h.agree.left h.keys (.sweep order nowMs)
    exact ⟨h.agree.sweep halike, hkeys,
      alike_append h.results (h.agree.sweep_results order order' nowMs)⟩

-- A key of a row that an upsert writes over finds nothing any more.
theorem find_written_over {s : SqliteLifecycleStore} (h : s.Inv) {lc old : Lifecycle}
    (hfits : Fits s lc) (hget : LifecycleStore.get s lc.id = some old)
    {key : LifecycleRow → Option String} (hunique : Table.UniqueOn key s.lifecycles) {k : String}
    (hold : key (rowOf old) = some k) (hnew : key (rowOf lc) ≠ some k)
    : Table.find key (s.upsert lc).lifecycles k = none := by
  rcases (SqliteLifecycleStore.get_eq_some_iff h).mp hget with ⟨hstored, hid⟩
  unfold Table.find
  rw [List.find?_eq_none]
  intro row hrow hkey
  have hkey := of_decide_eq_true hkey
  cases Table.mem_replace.mp hrow with
  | inl hkept =>
    have heq := hunique.eq hkept.1 hstored hkey hold
    have hconflicts := (SqliteLifecycleStore.conflicts_iff h hfits hkept.1).mpr (by rw [heq]; exact hid)
    rw [hkept.2] at hconflicts
    contradiction
  | inr hinserted =>
    rw [hinserted] at hkey
    exact hnew hkey

-- The keys that the in-memory store finds a written-over lifecycle by are lost with its row.
theorem not_sameLookups_of_recreates {t : Twins} (h : t.Inv) {event : Event}
    (hrecreates : Recreates t.memory event) (nowMs : Nat)
    : ¬SameLookups (LifecycleEngine.apply t.memory event nowMs).1
        (LifecycleEngine.apply t.sqlite event nowMs).1 := by
  intro hsame
  rcases hrecreates with ⟨⟨lct, rid, key, hcorr⟩, hstored⟩
  have hcorr' := (h.agree.correlate event).symm.trans hcorr
  rw [apply_of_new hcorr, apply_of_new hcorr'] at hsame
  rcases Option.ne_none_iff_exists'.mp hstored with ⟨old, hold⟩
  have hold' : LifecycleStore.get t.sqlite ("lc_" ++ event.eventId) = some old := by
    rw [← h.agree.get, hold]
  have hinv : t.sqlite.Inv := h.agree.right
  have hfits := fits_of_new hcorr' nowMs
  rcases find_of_new hcorr with ⟨hresource, hkey, _⟩
  cases hr : old.resourceId with
  | some r =>
    have hbefore : findByResource t.memory r = some ("lc_" ++ event.eventId) :=
      findByResource_of_get h.agree.left hold hr
    have hne : rid ≠ some r := by
      intro heq
      rw [hresource r heq] at hbefore
      contradiction
    have hlost := find_written_over hinv hfits hold' hinv.resource hr hne
    have hsame := hsame.findByResource r
    rw [findByResource_recordEvent, findByResource_recordEvent] at hsame
    have hkept := InMemoryStore.lookup_byResource_upsert t.memory
      (Lifecycle.create event lct rid key nowMs) r
    rw [Lifecycle.create_resourceId, if_neg hne] at hkept
    have hfound := (hkept.trans hbefore).symm.trans hsame
    have hnone := congrArg (Option.map (·.id)) hlost
    exact absurd (hfound.trans hnone) (by simp)
  | none =>
    rcases Option.ne_none_iff_exists'.mp (h.keys _ old hold hr) with ⟨k, hk⟩
    have hbefore : findByBusinessKey t.memory k = some ("lc_" ++ event.eventId) :=
      findByBusinessKey_of_get h.agree.left hold hk
    have hne : key ≠ some k := by
      intro heq
      rw [hkey k heq] at hbefore
      contradiction
    have hlost := find_written_over hinv hfits hold' hinv.businessKey hk hne
    have hsame := hsame.findByBusinessKey k
    rw [findByBusinessKey_recordEvent, findByBusinessKey_recordEvent] at hsame
    have hkept := InMemoryStore.lookup_byBusinessKey_upsert t.memory
      (Lifecycle.create event lct rid key nowMs) k
    rw [Lifecycle.create_businessKey, if_neg hne] at hkept
    have hfound := (hkept.trans hbefore).symm.trans hsame
    have hnone := congrArg (Option.map (·.id)) hlost
    exact absurd (hfound.trans hnone) (by simp)

theorem not_interchangeable_step {t : Twins} (h : t.Inv) {call : StoreCall}
    (halike : ¬t.StaysAlike call) : ¬(t.step call).Interchangeable := by
  intro hsame
  cases call with
  | apply event nowMs =>
    exact not_sameLookups_of_recreates h (Classical.not_not.mp halike) nowMs hsame.lookups
  | sweep order order' nowMs =>
    rcases h.agree.sweep_event_ne halike with ⟨eventId, hne⟩
    exact hne (hsame.lookups.findByEvent eventId)

theorem inv_start : start.Inv where
  agree := by
    refine ⟨InMemoryStore.inv_new, SqliteLifecycleStore.inv_open, ?_, ?_, ?_, ?_⟩
    . intro id
      rfl
    . intro r
      rfl
    . intro k
      rfl
    . intro eventId
      rfl
  keys id lc hget := by contradiction
  results result hresult := by contradiction

end Twins

/--
Along a run of the same calls over both stores all outcomes and all lookups are the same if and only
if no call writes a new lifecycle under an id that is taken, and no sweep binds an event last to
different lifecycles.
-/
theorem interchangeable_iff_staysAlike (calls : List StoreCall)
    : Run.Always Twins.step Twins.Interchangeable .start calls
        ↔ Run.Guarded Twins.step Twins.StaysAlike .start calls := by
  apply Run.always_iff_guarded (I := Twins.Inv) Twins.inv_start
  . intro t call h halike
    exact h.step halike
  . intro t h
    exact h.interchangeable
  . intro t call h halike
    exact Twins.not_interchangeable_step h halike

-- An event id that is used for a second payment.
theorem reused_id_tells_stores_apart
    : ¬Run.Always Twins.step Twins.Interchangeable .start
      [.apply (paymentEvent "payment.create" "e1" "tnt_a" "pay_1") 1,
        .apply (paymentEvent "payment.create" "e1" "tnt_a" "pay_2") 2] := by
  intro h
  have hsame := h.last.lookups.findByResource "pay_1"
  have hmemory : findByResource (Run.exec Twins.step .start
      [.apply (paymentEvent "payment.create" "e1" "tnt_a" "pay_1") 1,
        .apply (paymentEvent "payment.create" "e1" "tnt_a" "pay_2") 2]).memory "pay_1"
      = some "lc_e1" := by
    decide +kernel
  have hsqlite : findByResource (Run.exec Twins.step .start
      [.apply (paymentEvent "payment.create" "e1" "tnt_a" "pay_1") 1,
        .apply (paymentEvent "payment.create" "e1" "tnt_a" "pay_2") 2]).sqlite "pay_1"
      = none := by
    decide +kernel
  rw [hmemory, hsqlite] at hsame
  contradiction

end Athar
