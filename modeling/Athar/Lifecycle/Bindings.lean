import Athar.Lib.Run
import Athar.Lifecycle.Impl.Statements
import Athar.Lifecycle.Instance

/-!
This module contains what failing statements can do to the event bindings. The engine binds an event
to its lifecycle whether or not the upsert took effect, and a lookup that fails lets it start a
lifecycle whose keys another one holds, which `INSERT OR REPLACE` then deletes. Short of these two,
every binding names a lifecycle that lists the event.
-/

namespace Athar

open LifecycleStore LifecycleEngine

namespace Statements

theorem bindEvents_eq (succeeds : Nat → Bool) (index : Index) (id : String) (eventIds : List String)
    : bindEvents succeeds index id eventIds
        = if ∀ i < eventIds.length, succeeds i then some (bindAll index eventIds id) else none := by
  induction eventIds generalizing succeeds index with
  | nil => simp [bindEvents, bindAll]
  | cons eventId eventIds ih =>
    rw [bindEvents]
    split
    . next hhead =>
      rw [ih]
      have hiff : (∀ i < (eventId :: eventIds).length, succeeds i)
          ↔ ∀ i < eventIds.length, succeeds (i + 1) := by
        constructor
        . intro h i hi
          apply h
          rw [List.length_cons]
          omega
        . intro h i hi
          cases i with
          | zero => exact hhead
          | succ i =>
            rw [List.length_cons] at hi
            exact h i (by omega)
      simp only [hiff]
      rfl
    . next hhead =>
      rw [if_neg]
      intro h
      exact hhead (h 0 (by simp))

theorem upsert_of_commits {stmts : Statements} {lc : Lifecycle} (h : stmts.Commits lc)
    (db : SqliteLifecycleStore) : stmts.upsert db lc = db.upsert lc := by
  unfold Commits at h
  rw [upsert, h.1, h.2.1, bindEvents_eq, if_pos h.2.2.1]
  simp [h.2.2.2, SqliteLifecycleStore.upsert]

theorem upsert_of_not_commits {stmts : Statements} {lc : Lifecycle} (h : ¬stmts.Commits lc)
    (db : SqliteLifecycleStore) : stmts.upsert db lc = db := by
  unfold Commits at h
  rw [upsert, bindEvents_eq]
  split
  . rfl
  . next hbegin =>
    split
    . rfl
    . next hinsert =>
      split
      . rfl
      . next hbind =>
        split at hbind
        . next hall =>
          rw [if_neg]
          intro hcommit
          apply h
          simp only [Bool.not_eq_true', Bool.not_eq_false] at hbegin hinsert
          exact ⟨hbegin, hinsert, hall, hcommit⟩
        . contradiction

-- Without failures this is the engine over the SQLite store.
theorem apply_allSucceed (db : SqliteLifecycleStore) (event : Event) (nowMs : Nat)
    : allSucceed.apply db event nowMs = LifecycleEngine.apply db event nowMs := by
  have hcorr : allSucceed.correlate db event = LifecycleEngine.correlate db event :=
    (LifecycleEngine.correlate_eq_correlateWith db event).symm
  have hcommits : ∀ lc, allSucceed.upsert db lc = LifecycleStore.upsert db lc := by
    intro lc
    apply upsert_of_commits
    simp [Commits, allSucceed]
  have hget : ∀ id, allSucceed.get db id = LifecycleStore.get db id := by
    intro id
    rfl
  have hrecord : ∀ db' eventId id,
      allSucceed.recordEvent db' eventId id = LifecycleStore.recordEvent db' eventId id := by
    intro db' eventId id
    rfl
  unfold apply LifecycleEngine.apply
  rw [hcorr]
  cases LifecycleEngine.correlate db event with
  | match' id tier =>
    dsimp only
    rw [hget]
    cases LifecycleStore.get db id with
    | none => rfl
    | some lc => simp only [hcommits, hrecord]
  | new lct rid key => simp only [hcommits, hrecord]
  | none => rfl

end Statements

namespace SqliteLifecycleStore

-- Every binding names a lifecycle that lists the event.
def Bound (db : SqliteLifecycleStore) : Prop :=
  ∀ eventId id, findByEvent db eventId = some id →
    ∃ lc, LifecycleStore.get db id = some lc ∧ eventId ∈ lc.eventIds

def tenantResource (row : LifecycleRow) : Option (String × String) :=
  row.resourceId.map (row.tenantId, ·)

def tenantBusinessKey (row : LifecycleRow) : Option (String × String) :=
  row.businessKey.map (row.tenantId, ·)

-- What the schema alone keeps of the rows.
structure Keyed (db : SqliteLifecycleStore) : Prop where
  rows : ∀ row ∈ db.lifecycles, row = rowOf row.bodyJson
  primaryKey : Table.UniqueOn (some ·.id) db.lifecycles
  resource : Table.UniqueOn tenantResource db.lifecycles
  businessKey : Table.UniqueOn tenantBusinessKey db.lifecycles

theorem conflicts_eq_true_iff (new row : LifecycleRow)
    : new.conflicts row = true
        ↔ row.id = new.id
          ∨ (∃ k, tenantResource row = some k ∧ tenantResource new = some k)
          ∨ (∃ k, tenantBusinessKey row = some k ∧ tenantBusinessKey new = some k) := by
  unfold LifecycleRow.conflicts tenantResource tenantBusinessKey
  rw [decide_eq_true_iff]
  cases new.resourceId with
  | none => cases new.businessKey <;> simp [and_comm]
  | some r => cases new.businessKey <;> simp [and_comm]

theorem keyed_open : «open».Keyed :=
  ⟨by simp [«open»], Table.uniqueOn_nil, Table.uniqueOn_nil, Table.uniqueOn_nil⟩

theorem Keyed.upsert {db : SqliteLifecycleStore} (h : db.Keyed) (lc : Lifecycle)
    : (db.upsert lc).Keyed := by
  have hfree : ∀ row, (rowOf lc).conflicts row = false →
      ¬(row.id = (rowOf lc).id
        ∨ (∃ k, tenantResource row = some k ∧ tenantResource (rowOf lc) = some k)
        ∨ (∃ k, tenantBusinessKey row = some k ∧ tenantBusinessKey (rowOf lc) = some k)) := by
    intro row hrow
    rw [← conflicts_eq_true_iff, hrow]
    simp
  constructor
  . intro row hrow
    rcases Table.mem_replace.mp hrow with ⟨hold, _⟩ | rfl
    . exact h.rows row hold
    . rfl
  . apply h.primaryKey.replace
    intro row _ hno k hk hk'
    apply hfree row hno
    left
    rw [Option.some.inj hk, Option.some.inj hk']
  . apply h.resource.replace
    intro row _ hno k hk hk'
    exact hfree row hno (.inr (.inl ⟨k, hk, hk'⟩))
  . apply h.businessKey.replace
    intro row _ hno k hk hk'
    exact hfree row hno (.inr (.inr ⟨k, hk, hk'⟩))

theorem Keyed.recordEvent {db : SqliteLifecycleStore} (h : db.Keyed) (eventId id : String)
    : Keyed (LifecycleStore.recordEvent db eventId id) :=
  ⟨h.rows, h.primaryKey, h.resource, h.businessKey⟩

theorem Keyed.get_eq_some_iff {db : SqliteLifecycleStore} (h : db.Keyed) {id : String} {lc : Lifecycle}
    : LifecycleStore.get db id = some lc ↔ rowOf lc ∈ db.lifecycles ∧ lc.id = id :=
  get_eq_some_iff_mem h.rows h.primaryKey

end SqliteLifecycleStore

structure ApplyCall where
  event : Event
  nowMs : Nat
  stmts : Statements

namespace ApplyCall

def updated (call : ApplyCall) (lc : Lifecycle) (tier : InferenceTier) : Lifecycle :=
  lc.withEvent call.event tier call.nowMs

def created (call : ApplyCall) (lct : LifecycleType) (rid key : Option String) : Lifecycle :=
  Lifecycle.create call.event lct rid key call.nowMs

@[simp]
theorem updated_eventIds (call : ApplyCall) (lc : Lifecycle) (tier : InferenceTier)
    : (call.updated lc tier).eventIds = lc.eventIds ++ [call.event.eventId] := by
  rfl

@[simp]
theorem created_eventIds (call : ApplyCall) (lct : LifecycleType) (rid key : Option String)
    : (call.created lct rid key).eventIds = [call.event.eventId] := by
  rfl

def step (call : ApplyCall) (db : SqliteLifecycleStore) : SqliteLifecycleStore :=
  (call.stmts.apply db call.event call.nowMs).1

-- What the call writes: `lc` in one transaction and the binding of the event in another statement.
def write (call : ApplyCall) (db : SqliteLifecycleStore) (lc : Lifecycle) : SqliteLifecycleStore :=
  call.stmts.recordEvent (call.stmts.upsert db lc) call.event.eventId lc.id

inductive Steps (db : SqliteLifecycleStore) (call : ApplyCall) : SqliteLifecycleStore → Prop
  | unbound : Steps db call db
  | late {id : String} {lc : Lifecycle} (hget : LifecycleStore.get db id = some lc)
    : Steps db call (call.stmts.upsert db (lc.withLateEvent call.event call.nowMs))
  | updated {id : String} {tier : InferenceTier} {lc : Lifecycle}
    (hcorr : call.stmts.correlate db call.event = .match' id tier)
    (hget : call.stmts.get db id = some lc) (hopen : lc.closure.isClosed = false)
    : Steps db call
        (call.stmts.recordEvent (call.stmts.upsert db (call.updated lc tier)) call.event.eventId id)
  | created {lct : LifecycleType} {rid key : Option String}
    (hcorr : call.stmts.correlate db call.event = .new lct rid key)
    : Steps db call (call.write db (call.created lct rid key))

theorem get_of_select {stmts : Statements} {db : SqliteLifecycleStore} {id : String} {lc : Lifecycle}
    (h : stmts.get db id = some lc) : LifecycleStore.get db id = some lc := by
  unfold Statements.get Statements.select at h
  split at h
  . exact h
  . contradiction

theorem step_steps (db : SqliteLifecycleStore) (call : ApplyCall) : Steps db call (call.step db) := by
  unfold step Statements.apply
  cases hcorr : call.stmts.correlate db call.event with
  | none => exact .unbound
  | new lct rid key => exact .created hcorr
  | match' id tier =>
    dsimp only
    cases hget : call.stmts.get db id with
    | none => exact .unbound
    | some lc =>
      dsimp only
      cases hclosed : lc.closure.isClosed with
      | true => exact .late (get_of_select hget)
      | false => exact .updated hcorr hget hclosed

theorem write_updated {call : ApplyCall} {db : SqliteLifecycleStore} {id : String}
    {tier : InferenceTier} {lc : Lifecycle}
    (hcorr : call.stmts.correlate db call.event = .match' id tier)
    (hget : call.stmts.get db id = some lc) (hopen : lc.closure.isClosed = false) (hid : lc.id = id)
    : call.write db (call.updated lc tier) = call.step db := by
  have hid' : (call.updated lc tier).id = id := hid
  unfold write step Statements.apply
  rw [hcorr]
  dsimp only
  rw [hget]
  dsimp only
  rw [hopen, hid']
  rfl

theorem write_created {call : ApplyCall} {db : SqliteLifecycleStore} {lct : LifecycleType}
    {rid key : Option String} (hcorr : call.stmts.correlate db call.event = .new lct rid key)
    : call.write db (call.created lct rid key) = call.step db := by
  unfold write step Statements.apply
  rw [hcorr]
  rfl

-- The condition on a call: no binding without its lifecycle, and no lifecycle in place of another.
structure KeepsBindings (db : SqliteLifecycleStore) (call : ApplyCall) : Prop where
  updated : ∀ id tier lc, call.stmts.correlate db call.event = .match' id tier →
    call.stmts.get db id = some lc → lc.closure.isClosed = false →
    call.stmts.insertRecorded = true → call.stmts.Commits (call.updated lc tier)
  created : ∀ lct rid key, call.stmts.correlate db call.event = .new lct rid key →
    call.stmts.insertRecorded = true → call.stmts.Commits (call.created lct rid key)
  displaces : ∀ lct rid key, call.stmts.correlate db call.event = .new lct rid key →
    call.stmts.Commits (call.created lct rid key) →
    ∀ row ∈ db.lifecycles, (rowOf (call.created lct rid key)).conflicts row = false

end ApplyCall

-- A database together with the ids of the events that it was told of.
structure ToldDb where
  db : SqliteLifecycleStore
  told : List String

namespace ToldDb

def start : ToldDb := ⟨.open, []⟩

def step (s : ToldDb) (call : ApplyCall) : ToldDb where
  db := call.step s.db
  told := s.told ++ [call.event.eventId]

structure Inv (s : ToldDb) : Prop where
  keyed : s.db.Keyed
  ids : ∀ row ∈ s.db.lifecycles, ∃ x ∈ s.told, row.id = "lc_" ++ x
  lists : ∀ row ∈ s.db.lifecycles, row.bodyJson.eventIds ≠ []
  told : ∀ row ∈ s.db.lifecycles, ∀ x ∈ row.bodyJson.eventIds, x ∈ s.told
  bindings : ∀ row ∈ s.db.lifecycles, ∀ x ∈ row.bodyJson.eventIds,
    findByEvent s.db x = some row.id
  bound : s.db.Bound

theorem inv_start : start.Inv := by
  constructor
  . exact SqliteLifecycleStore.keyed_open
  . intro row hrow
    simp [start, SqliteLifecycleStore.open] at hrow
  . intro row hrow
    simp [start, SqliteLifecycleStore.open] at hrow
  . intro row hrow
    simp [start, SqliteLifecycleStore.open] at hrow
  . intro row hrow
    simp [start, SqliteLifecycleStore.open] at hrow
  . intro eventId id h
    have hnone : findByEvent start.db eventId = none := by
      rfl
    rw [hnone] at h
    contradiction

namespace Inv

variable {db : SqliteLifecycleStore} {told : List String}

theorem tell (h : Inv ⟨db, told⟩) (x : String) : Inv ⟨db, told ++ [x]⟩ := by
  constructor
  . exact h.keyed
  . intro row hrow
    rcases h.ids row hrow with ⟨y, hy, hid⟩
    exact ⟨y, List.mem_append_left _ hy, hid⟩
  . exact h.lists
  . intro row hrow y hy
    exact List.mem_append_left _ (h.told row hrow y hy)
  . exact h.bindings
  . exact h.bound

-- Nothing of an event that the database was not told of is in it.
theorem not_listed (h : Inv ⟨db, told⟩) {x : String} (hfresh : x ∉ told) {id : String} {lc : Lifecycle}
    (hget : LifecycleStore.get db id = some lc) : x ∉ lc.eventIds := by
  intro hx
  have hmem := (h.keyed.get_eq_some_iff.mp hget).1
  exact hfresh (h.told (rowOf lc) hmem x hx)

theorem ne_lc (h : Inv ⟨db, told⟩) {x : String} (hfresh : x ∉ told) {row : LifecycleRow}
    (hrow : row ∈ db.lifecycles) : row.id ≠ "lc_" ++ x := by
  intro heq
  rcases h.ids row hrow with ⟨y, hy, hid⟩
  have : x = y := lc_append_inj (heq.symm.trans hid)
  rw [this] at hfresh
  exact hfresh hy

theorem recordEvent (h : Inv ⟨db, told⟩) {x id : String} (hbound : findByEvent db x = some id)
    : Inv ⟨LifecycleStore.recordEvent db x id, told⟩ := by
  have hsame : ∀ y, findByEvent (LifecycleStore.recordEvent db x id) y = findByEvent db y := by
    intro y
    rw [SqliteLifecycleStore.findByEvent_recordEvent]
    split
    . next heq => rw [heq, hbound]
    . rfl
  constructor
  . exact h.keyed.recordEvent x id
  . exact h.ids
  . exact h.lists
  . exact h.told
  . intro row hrow y hy
    rw [hsame]
    exact h.bindings row hrow y hy
  . intro y id' hy
    rw [hsame] at hy
    exact h.bound y id' hy

-- A lifecycle is written over no other one, and lists no event that another one lists.
structure Fits (db : SqliteLifecycleStore) (lc : Lifecycle) : Prop where
  displaces : ∀ row ∈ db.lifecycles, (rowOf lc).conflicts row = true → row.id = lc.id
  own : ∀ row ∈ db.lifecycles, ∀ x ∈ row.bodyJson.eventIds, x ∈ lc.eventIds → row.id = lc.id
  keeps : ∀ row ∈ db.lifecycles, row.id = lc.id → ∀ x ∈ row.bodyJson.eventIds, x ∈ lc.eventIds

theorem upsert (h : Inv ⟨db, told⟩) {lc : Lifecycle} (hfits : Fits db lc)
    (hid : ∃ x ∈ told, lc.id = "lc_" ++ x) (hlists : lc.eventIds ≠ [])
    (htold : ∀ x ∈ lc.eventIds, x ∈ told) : Inv ⟨db.upsert lc, told⟩ := by
  have hmem : ∀ row, row ∈ (db.upsert lc).lifecycles
      ↔ (row ∈ db.lifecycles ∧ (rowOf lc).conflicts row = false) ∨ row = rowOf lc :=
    fun _ => Table.mem_replace
  have hfind : ∀ x, findByEvent (db.upsert lc) x
      = if x ∈ lc.eventIds then some lc.id else findByEvent db x :=
    fun x => lookup_bindAll db.eventBindings lc.eventIds lc.id x
  constructor
  . exact h.keyed.upsert lc
  . intro row hrow
    rcases (hmem row).mp hrow with ⟨hold, _⟩ | rfl
    . exact h.ids row hold
    . exact hid
  . intro row hrow
    rcases (hmem row).mp hrow with ⟨hold, _⟩ | rfl
    . exact h.lists row hold
    . exact hlists
  . intro row hrow
    rcases (hmem row).mp hrow with ⟨hold, _⟩ | rfl
    . exact h.told row hold
    . exact htold
  . intro row hrow x hx
    rw [hfind]
    rcases (hmem row).mp hrow with ⟨hold, hno⟩ | rfl
    . rw [if_neg, h.bindings row hold x hx]
      intro hx'
      have hid := hfits.own row hold x hx hx'
      rw [(SqliteLifecycleStore.conflicts_eq_true_iff _ _).mpr (.inl hid)] at hno
      contradiction
    . have hx' : x ∈ lc.eventIds := hx
      rw [if_pos hx']
      rfl
  . intro x id hx
    rw [hfind] at hx
    split at hx
    . next hlisted =>
      rw [← Option.some.inj hx]
      refine ⟨lc, ?_, hlisted⟩
      rw [(h.keyed.upsert lc).get_eq_some_iff, hmem]
      exact ⟨.inr rfl, rfl⟩
    . next hlisted =>
      rcases h.bound x id hx with ⟨lc', hget, hx'⟩
      refine ⟨lc', ?_, hx'⟩
      rw [h.keyed.get_eq_some_iff] at hget
      rw [(h.keyed.upsert lc).get_eq_some_iff, hmem]
      refine ⟨.inl ⟨hget.1, ?_⟩, hget.2⟩
      rw [Bool.eq_false_iff]
      intro hconflicts
      have hid := hfits.displaces _ hget.1 hconflicts
      exact hlisted (hfits.keeps _ hget.1 hid x hx')

-- A stored lifecycle that is written back displaces nothing but itself.
theorem displaces_of_revises (h : Inv ⟨db, told⟩) {lc old : Lifecycle} (hrev : lc.Revises old)
    (hold : rowOf old ∈ db.lifecycles) {row : LifecycleRow} (hrow : row ∈ db.lifecycles)
    (hconflicts : (rowOf lc).conflicts row = true) : row.id = lc.id := by
  have hresource : SqliteLifecycleStore.tenantResource (rowOf lc)
      = SqliteLifecycleStore.tenantResource (rowOf old) := by
    unfold SqliteLifecycleStore.tenantResource rowOf
    rw [hrev.resourceId_eq, hrev.tenantId_eq]
  have hbusinessKey : SqliteLifecycleStore.tenantBusinessKey (rowOf lc)
      = SqliteLifecycleStore.tenantBusinessKey (rowOf old) := by
    unfold SqliteLifecycleStore.tenantBusinessKey rowOf
    rw [hrev.businessKey_eq, hrev.tenantId_eq]
  rw [SqliteLifecycleStore.conflicts_eq_true_iff, hresource, hbusinessKey] at hconflicts
  rcases hconflicts with hid | ⟨k, hk, hk'⟩ | ⟨k, hk, hk'⟩
  . exact hid
  . rw [h.keyed.resource.eq hrow hold hk hk', hrev.id_eq]
    rfl
  . rw [h.keyed.businessKey.eq hrow hold hk hk', hrev.id_eq]
    rfl

theorem fits_of_revises (h : Inv ⟨db, told⟩) {lc old : Lifecycle} (hrev : lc.Revises old)
    (hold : rowOf old ∈ db.lifecycles) (hkeeps : ∀ x ∈ old.eventIds, x ∈ lc.eventIds)
    (hnew : ∀ x ∈ lc.eventIds, x ∈ old.eventIds
      ∨ ∀ row ∈ db.lifecycles, x ∉ row.bodyJson.eventIds)
    : Fits db lc := by
  have hid : (rowOf old).id = lc.id := hrev.id_eq.symm
  constructor
  . intro row hrow
    exact h.displaces_of_revises hrev hold hrow
  . intro row hrow x hx hx'
    rcases hnew x hx' with hx' | hnot
    . have hrow' := h.bindings row hrow x hx
      rw [h.bindings (rowOf old) hold x hx'] at hrow'
      rw [← Option.some.inj hrow', hid]
    . exact absurd hx (hnot row hrow)
  . intro row hrow hrowId x hx
    have hrowId' : some row.id = some (rowOf old).id := by
      rw [hrowId, hid]
    have heq := h.keyed.primaryKey.eq hrow hold hrowId' rfl
    rw [heq] at hx
    exact hkeeps x hx

theorem write (h : Inv ⟨db, told⟩) (call : ApplyCall) {lc : Lifecycle}
    (hfits : call.stmts.Commits lc → Fits db lc)
    (hid : ∃ x ∈ told ++ [call.event.eventId], lc.id = "lc_" ++ x)
    (htold : ∀ x ∈ lc.eventIds, x ∈ told ++ [call.event.eventId])
    (hlists : call.event.eventId ∈ lc.eventIds)
    (hcommits : call.stmts.insertRecorded = true → call.stmts.Commits lc)
    : Inv ⟨call.write db lc, told ++ [call.event.eventId]⟩ := by
  have htell := h.tell call.event.eventId
  unfold ApplyCall.write Statements.recordEvent
  by_cases hcommit : call.stmts.Commits lc
  . rw [Statements.upsert_of_commits hcommit]
    have hne : lc.eventIds ≠ [] := by
      intro hnil
      rw [hnil] at hlists
      contradiction
    have hupsert := htell.upsert (hfits hcommit) hid hne htold
    split
    . apply hupsert.recordEvent
      have hlookup := lookup_bindAll db.eventBindings lc.eventIds lc.id call.event.eventId
      rw [if_pos hlists] at hlookup
      exact hlookup
    . exact hupsert
  . rw [Statements.upsert_of_not_commits hcommit, if_neg]
    . exact htell
    . intro hrecorded
      exact hcommit (hcommits hrecorded)

-- A binding that was made without its lifecycle.
theorem not_bound_write (h : Inv ⟨db, told⟩) (call : ApplyCall) {lc : Lifecycle}
    (hfresh : call.event.eventId ∉ told)
    (hcommits : ¬(call.stmts.insertRecorded = true → call.stmts.Commits lc))
    : ¬(call.write db lc).Bound := by
  rw [Classical.not_imp] at hcommits
  unfold ApplyCall.write Statements.recordEvent
  rw [Statements.upsert_of_not_commits hcommits.2, if_pos hcommits.1]
  intro hbound
  have hfind : findByEvent (LifecycleStore.recordEvent db call.event.eventId lc.id) call.event.eventId
      = some lc.id := by
    rw [SqliteLifecycleStore.findByEvent_recordEvent, if_pos rfl]
  rcases hbound _ _ hfind with ⟨lc', hget, hlisted⟩
  exact h.not_listed hfresh hget hlisted

-- A lifecycle that was deleted leaves its bindings behind.
theorem not_bound_displaced (h : Inv ⟨db, told⟩) {call : ApplyCall} {lc : Lifecycle}
    (hfresh : call.event.eventId ∉ told) (hid : lc.id = "lc_" ++ call.event.eventId)
    (hlists : lc.eventIds = [call.event.eventId]) (hcommits : call.stmts.Commits lc)
    {row : LifecycleRow} (hrow : row ∈ db.lifecycles) (hconflicts : (rowOf lc).conflicts row = true)
    : ¬(call.write db lc).Bound := by
  rcases List.exists_mem_of_ne_nil _ (h.lists row hrow) with ⟨x, hx⟩
  have hne : x ≠ call.event.eventId := by
    intro heq
    rw [heq] at hx
    exact hfresh (h.told row hrow _ hx)
  have hupsert : findByEvent (db.upsert lc) x = some row.id := by
    have hlookup := lookup_bindAll db.eventBindings lc.eventIds lc.id x
    have hnot : x ∉ lc.eventIds := by
      rw [hlists, List.mem_singleton]
      exact hne
    rw [if_neg hnot] at hlookup
    rw [← h.bindings row hrow x hx]
    exact hlookup
  have hfind : findByEvent (call.write db lc) x = some row.id := by
    unfold ApplyCall.write Statements.recordEvent
    rw [Statements.upsert_of_commits hcommits]
    split
    . rw [SqliteLifecycleStore.findByEvent_recordEvent, if_neg hne]
      exact hupsert
    . exact hupsert
  have hget : LifecycleStore.get (call.write db lc) = LifecycleStore.get (db.upsert lc) := by
    unfold ApplyCall.write Statements.recordEvent
    rw [Statements.upsert_of_commits hcommits]
    split
    . rfl
    . rfl
  intro hbound
  rcases hbound x row.id hfind with ⟨lc', hlc', _⟩
  rw [hget, (h.keyed.upsert lc).get_eq_some_iff] at hlc'
  rcases Table.mem_replace.mp hlc'.1 with ⟨hmem, hno⟩ | heq
  . have heq : rowOf lc' = row := by
      apply h.keyed.primaryKey.eq hmem hrow rfl
      rw [← hlc'.2]
      rfl
    rw [heq, hconflicts] at hno
    contradiction
  . have hrowId : row.id = "lc_" ++ call.event.eventId := by
      rw [← hlc'.2, ← hid, SqliteLifecycleStore.rowOf_inj heq]
    exact h.ne_lc hfresh hrow hrowId

end Inv

theorem inv_step {s : ToldDb} (h : s.Inv) {call : ApplyCall} (hfresh : call.event.eventId ∉ s.told)
    (hkeeps : call.KeepsBindings s.db) : (s.step call).Inv := by
  rcases s with ⟨db, told⟩
  unfold step
  have hsteps := call.step_steps db
  generalize call.step db = db' at hsteps
  cases hsteps with
  | unbound => exact h.tell _
  | @late id lc hget =>
    have hmem := (h.keyed.get_eq_some_iff.mp hget).1
    have htell := h.tell call.event.eventId
    by_cases hcommit : call.stmts.Commits (lc.withLateEvent call.event call.nowMs)
    . rw [Statements.upsert_of_commits hcommit]
      apply htell.upsert
      . apply h.fits_of_revises (lc.withLateEvent_revises call.event call.nowMs) hmem
        . exact fun x hx => hx
        . exact fun x hx => .inl hx
      . exact htell.ids _ hmem
      . exact h.lists _ hmem
      . exact htell.told _ hmem
    . rw [Statements.upsert_of_not_commits hcommit]
      exact htell
  | @updated id tier lc hcorr hget hopen =>
    have hstored := ApplyCall.get_of_select hget
    rcases h.keyed.get_eq_some_iff.mp hstored with ⟨hmem, hid⟩
    have hid' : id = (call.updated lc tier).id := hid.symm
    rw [hid']
    apply h.write call _ _ _ _ (hkeeps.updated id tier lc hcorr hget hopen)
    . intro _
      apply h.fits_of_revises (lc.withEvent_revises call.event tier call.nowMs) hmem
      . intro x hx
        rw [Lifecycle.withEvent_eventIds]
        exact List.mem_append_left _ hx
      . intro x hx
        rw [Lifecycle.withEvent_eventIds, List.mem_append, List.mem_singleton] at hx
        rcases hx with hx | rfl
        . exact .inl hx
        . right
          intro row hrow hx
          exact hfresh (h.told row hrow _ hx)
    . exact (h.tell _).ids _ hmem
    . intro x hx
      rw [ApplyCall.updated_eventIds, List.mem_append] at hx
      rcases hx with hx | hx
      . exact List.mem_append_left _ (h.told _ hmem x hx)
      . exact List.mem_append_right _ hx
    . simp
  | @created lct rid key hcorr =>
    apply h.write
    . intro hcommit
      constructor
      . intro row hrow hconflicts
        rw [hkeeps.displaces lct rid key hcorr hcommit row hrow] at hconflicts
        contradiction
      . intro row hrow x hx hx'
        rw [ApplyCall.created_eventIds, List.mem_singleton] at hx'
        rw [hx'] at hx
        exact absurd (h.told row hrow _ hx) hfresh
      . intro row hrow hid
        exact absurd hid (h.ne_lc hfresh hrow)
    . exact ⟨call.event.eventId, by simp, rfl⟩
    . intro x hx
      exact List.mem_append_right _ hx
    . exact List.mem_singleton_self _
    . exact hkeeps.created lct rid key hcorr

-- The three ways to break the condition, each with the binding that it leaves without a lifecycle.
theorem not_bound_step {s : ToldDb} (h : s.Inv) {call : ApplyCall}
    (hfresh : call.event.eventId ∉ s.told) (hkeeps : ¬call.KeepsBindings s.db)
    : ¬(s.step call).db.Bound := by
  rcases s with ⟨db, told⟩
  intro hbound
  apply hkeeps
  constructor
  . intro id tier lc hcorr hget hopen
    by_contra hcommits
    have hid := (h.keyed.get_eq_some_iff.mp (ApplyCall.get_of_select hget)).2
    apply h.not_bound_write call hfresh hcommits
    rw [ApplyCall.write_updated hcorr hget hopen hid]
    exact hbound
  . intro lct rid key hcorr
    by_contra hcommits
    apply h.not_bound_write call hfresh hcommits
    rw [ApplyCall.write_created hcorr]
    exact hbound
  . intro lct rid key hcorr hcommits row hrow
    by_contra hconflicts
    rw [Bool.not_eq_false] at hconflicts
    apply h.not_bound_displaced hfresh rfl rfl hcommits hrow hconflicts
    rw [ApplyCall.write_created hcorr]
    exact hbound

end ToldDb

-- A lifecycle is only ever written over another one when a `SELECT` failed to find that one.
theorem ApplyCall.not_conflicts_of_selects {call : ApplyCall} {s : ToldDb} (h : s.Inv)
    (hfresh : call.event.eventId ∉ s.told)
    (hselects : call.stmts.selectByOperationId = true ∧ call.stmts.selectByBusinessId = true
      ∧ call.stmts.selectByParent = true ∧ call.stmts.selectByResource = true)
    {lct : LifecycleType} {rid key : Option String}
    (hcorr : call.stmts.correlate s.db call.event = .new lct rid key)
    {row : LifecycleRow} (hrow : row ∈ s.db.lifecycles)
    : (rowOf (call.created lct rid key)).conflicts row = false := by
  rcases hselects with ⟨hoperation, hbusiness, hparent, hresource⟩
  have hsame : call.stmts.correlate s.db call.event = LifecycleEngine.correlate s.db call.event := by
    unfold Statements.correlate
    rw [hoperation, hbusiness, hparent, hresource, LifecycleEngine.correlate_eq_correlateWith]
    rfl
  rw [hsame] at hcorr
  rcases find_of_new hcorr with ⟨hnoResource, hnoKey, _⟩
  rw [Bool.eq_false_iff]
  intro hconflicts
  rw [SqliteLifecycleStore.conflicts_eq_true_iff] at hconflicts
  rcases hconflicts with hid | ⟨k, hk, hk'⟩ | ⟨k, hk, hk'⟩
  . exact h.ne_lc hfresh hrow hid
  . rcases Option.map_eq_some_iff.mp hk' with ⟨r, hr, rfl⟩
    rcases Option.map_eq_some_iff.mp hk with ⟨r', hr', heq⟩
    have hsame : r' = r := congrArg (·.2) heq
    rw [hsame] at hr'
    exact Table.ne_of_find_eq_none (Option.map_eq_none_iff.mp (hnoResource r hr)) hrow hr'
  . rcases Option.map_eq_some_iff.mp hk' with ⟨r, hr, rfl⟩
    rcases Option.map_eq_some_iff.mp hk with ⟨r', hr', heq⟩
    have hsame : r' = r := congrArg (·.2) heq
    rw [hsame] at hr'
    exact Table.ne_of_find_eq_none (Option.map_eq_none_iff.mp (hnoKey r hr)) hrow hr'

/--
Over calls with distinct event ids, whichever statements fail: every binding names a lifecycle that
lists the event, in every database reached, if and only if no call binds its event without writing the
lifecycle, or writes a new lifecycle in place of another one.
-/
theorem bound_iff_keepsBindings (calls : List ApplyCall)
    (hdistinct : (calls.map (·.event.eventId)).Nodup)
    : Run.Always ToldDb.step (·.db.Bound) .start calls
        ↔ Run.Guarded ToldDb.step (fun s call => call.KeepsBindings s.db) .start calls := by
  have hnodup : (ToldDb.start.told ++ calls.flatMap (fun call => [call.event.eventId])).Nodup := by
    rw [← List.map_eq_flatMap]
    exact hdistinct
  have hfresh : Run.Guarded ToldDb.step
      (fun s call => ∀ x ∈ [call.event.eventId], x ∉ s.told) .start calls :=
    Run.guarded_fresh (fun _ _ => rfl) hnodup
  apply Run.always_iff_guarded_of_guarded hfresh ToldDb.inv_start
  . intro s call h hnew hkeeps
    exact ToldDb.inv_step h (hnew _ (by simp)) hkeeps
  . intro s h
    exact h.bound
  . intro s call h hnew hkeeps
    exact ToldDb.not_bound_step h (hnew _ (by simp)) hkeeps

def bindingRun : List ApplyCall :=
  [⟨creation, 1000, .allSucceed⟩,
    ⟨settlement, 2000, { Statements.allSucceed with commit := false, insertRecorded := false }⟩]

theorem bound_iff_keepsBindings_bindingRun
    : Run.Always ToldDb.step (·.db.Bound) .start bindingRun
        ↔ Run.Guarded ToldDb.step (fun s call => call.KeepsBindings s.db) .start bindingRun :=
  bound_iff_keepsBindings bindingRun (by decide)

-- The creation is rolled back when it commits, and its event is bound all the same.
theorem bound_to_rolled_back
    : ¬Run.Always ToldDb.step (·.db.Bound) .start
        [⟨creation, 1000, { Statements.allSucceed with commit := false }⟩] := by
  intro h
  rcases h.last "e1" "lc_e1" (by decide) with ⟨lc, hget, _⟩
  have hnone : LifecycleStore.get SqliteLifecycleStore.open "lc_e1" = none := by
    rfl
  contradiction

end Athar
