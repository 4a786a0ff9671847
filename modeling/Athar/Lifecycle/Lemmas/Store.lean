import Athar.Lifecycle.Impl.Store

/-!
This module contains the laws that both lifecycle stores obey: what an upsert and an event binding
change in each lookup. An upsert is exact as long as the lifecycle fits, that is, as long as its keys
are free or its own; otherwise the indexes of the two stores go different ways.
-/

namespace Athar

open LifecycleStore

section Fits

variable {σ : Type} [LifecycleStore σ]

structure Fits (s : σ) (lc : Lifecycle) : Prop where
  resource : ∀ r id, lc.resourceId = some r → findByResource s r = some id → id = lc.id
  businessKey : ∀ k id, lc.businessKey = some k → findByBusinessKey s k = some id → id = lc.id

end Fits

class LawfulLifecycleStore (σ : Type) [LifecycleStore σ] where
  Inv : σ → Prop
  get_id : ∀ {s : σ} {id : String} {lc : Lifecycle}, Inv s → get s id = some lc → lc.id = id
  findByResource_of_get : ∀ {s : σ} {id r : String} {lc : Lifecycle}, Inv s → get s id = some lc →
    lc.resourceId = some r → findByResource s r = some id
  findByBusinessKey_of_get : ∀ {s : σ} {id k : String} {lc : Lifecycle}, Inv s →
    get s id = some lc → lc.businessKey = some k → findByBusinessKey s k = some id
  get_of_findByResource : ∀ {s : σ} {r id : String}, Inv s → findByResource s r = some id →
    ∃ lc, get s id = some lc
  get_of_findByBusinessKey : ∀ {s : σ} {k id : String}, Inv s → findByBusinessKey s k = some id →
    ∃ lc, get s id = some lc
  mem_allOpen : ∀ {s : σ} {lc : Lifecycle}, Inv s →
    (lc ∈ allOpen s ↔ get s lc.id = some lc ∧ lc.closure = .open)
  nodup_allOpen : ∀ {s : σ}, Inv s → ((allOpen s).map (·.id)).Nodup
  inv_upsert : ∀ {s : σ} {lc : Lifecycle}, Inv s → Fits s lc → Inv (upsert s lc)
  get_upsert : ∀ {s : σ} {lc : Lifecycle}, Inv s → Fits s lc → ∀ id,
    get (upsert s lc) id = if id = lc.id then some lc else get s id
  findByResource_upsert : ∀ {s : σ} {lc : Lifecycle}, Inv s → Fits s lc → ∀ r,
    lc.resourceId ≠ some r → (∀ old, get s lc.id = some old → old.resourceId ≠ some r) →
    findByResource (upsert s lc) r = findByResource s r
  findByBusinessKey_upsert : ∀ {s : σ} {lc : Lifecycle}, Inv s → Fits s lc → ∀ k,
    lc.businessKey ≠ some k → (∀ old, get s lc.id = some old → old.businessKey ≠ some k) →
    findByBusinessKey (upsert s lc) k = findByBusinessKey s k
  findByEvent_upsert : ∀ (s : σ) (lc : Lifecycle) (eventId : String),
    findByEvent (upsert s lc) eventId
      = if eventId ∈ lc.eventIds then some lc.id else findByEvent s eventId
  inv_recordEvent : ∀ {s : σ} (eventId id : String), Inv s → Inv (recordEvent s eventId id)
  get_recordEvent : ∀ (s : σ) (eventId id : String), get (recordEvent s eventId id) = get s
  findByResource_recordEvent : ∀ (s : σ) (eventId id : String),
    findByResource (recordEvent s eventId id) = findByResource s
  findByBusinessKey_recordEvent : ∀ (s : σ) (eventId id : String),
    findByBusinessKey (recordEvent s eventId id) = findByBusinessKey s
  findByEvent_recordEvent : ∀ (s : σ) (eventId id eventId' : String),
    findByEvent (recordEvent s eventId id) eventId'
      = if eventId' = eventId then some id else findByEvent s eventId'

theorem lookup_bindAll (index : Index) (keys : List String) (id key : String)
    : (bindAll index keys id).lookup key
        = if key ∈ keys then some id else index.lookup key := by
  induction keys generalizing index with
  | nil => rfl
  | cons k keys ih =>
    have hstep : (bindAll index (k :: keys) id).lookup key
        = (bindAll (index.insert k id) keys id).lookup key := by
      rfl
    rw [hstep, ih]
    by_cases hk : key = k
    . subst hk
      simp
    . simp [hk, AList.lookup_insert_ne hk]

namespace InMemoryStore

structure Inv (s : InMemoryStore) : Prop where
  id_eq : ∀ id lc, s.lifecycles.lookup id = some lc → lc.id = id
  byResource : ∀ id lc r, s.lifecycles.lookup id = some lc → lc.resourceId = some r →
    s.byResource.lookup r = some id
  byBusinessKey : ∀ id lc k, s.lifecycles.lookup id = some lc → lc.businessKey = some k →
    s.byBusinessKey.lookup k = some id
  resourceTarget : ∀ r id, s.byResource.lookup r = some id → ∃ lc, s.lifecycles.lookup id = some lc
  businessKeyTarget : ∀ k id, s.byBusinessKey.lookup k = some id →
    ∃ lc, s.lifecycles.lookup id = some lc

theorem inv_new : new.Inv := by
  constructor
  . intro _ _ h
    simp [new] at h
  . intro _ _ _ h
    simp [new] at h
  . intro _ _ _ h
    simp [new] at h
  . intro _ _ h
    simp [new] at h
  . intro _ _ h
    simp [new] at h

theorem mem_values {s : InMemoryStore} (h : s.Inv) {lc : Lifecycle}
    : lc ∈ s.values ↔ s.lifecycles.lookup lc.id = some lc := by
  have hmem : ∀ id, s.lifecycles.lookup id = some lc ↔ ⟨id, lc⟩ ∈ s.lifecycles.entries := by
    intro id
    exact AList.mem_lookup_iff
  unfold values
  rw [List.mem_map]
  constructor
  . rintro ⟨⟨id, lc'⟩, hentry, rfl⟩
    have hlookup := (hmem id).mpr hentry
    dsimp only at hlookup ⊢
    rw [h.id_eq id lc' hlookup]
    exact hlookup
  . intro hlookup
    exact ⟨⟨lc.id, lc⟩, (hmem lc.id).mp hlookup, rfl⟩

theorem map_id_values {s : InMemoryStore} (h : s.Inv) : s.values.map (·.id) = s.lifecycles.keys := by
  unfold values AList.keys List.keys
  rw [List.map_map]
  apply List.map_congr_left
  rintro ⟨id, lc⟩ hentry
  exact h.id_eq id lc (AList.mem_lookup_iff.mpr hentry)

theorem lookup_upsert (s : InMemoryStore) (lc : Lifecycle) (id : String)
    : (s.upsert lc).lifecycles.lookup id
        = if id = lc.id then some lc else s.lifecycles.lookup id := by
  unfold upsert
  split
  . next h => rw [h, AList.lookup_insert]
  . next h => rw [AList.lookup_insert_ne h]

theorem lookup_byResource_upsert (s : InMemoryStore) (lc : Lifecycle) (r : String)
    : (s.upsert lc).byResource.lookup r
        = if lc.resourceId = some r then some lc.id else s.byResource.lookup r := by
  unfold upsert
  rw [lookup_bindAll]
  simp

theorem lookup_byBusinessKey_upsert (s : InMemoryStore) (lc : Lifecycle) (k : String)
    : (s.upsert lc).byBusinessKey.lookup k
        = if lc.businessKey = some k then some lc.id else s.byBusinessKey.lookup k := by
  unfold upsert
  rw [lookup_bindAll]
  simp

theorem Inv.upsert {s : InMemoryStore} (h : s.Inv) {lc : Lifecycle} (hfits : Fits s lc)
    : (s.upsert lc).Inv := by
  have htarget : ∀ id, (∃ lc', s.lifecycles.lookup id = some lc') →
      ∃ lc', (s.upsert lc).lifecycles.lookup id = some lc' := by
    rintro id ⟨lc', hlc'⟩
    rw [lookup_upsert]
    split
    . exact ⟨lc, rfl⟩
    . exact ⟨lc', hlc'⟩
  constructor
  . intro id lc' hlc'
    rw [lookup_upsert] at hlc'
    split at hlc'
    . next hid =>
      rw [← Option.some.inj hlc', hid]
    . exact h.id_eq id lc' hlc'
  . intro id lc' r hlc' hr
    rw [lookup_upsert] at hlc'
    rw [lookup_byResource_upsert]
    split at hlc'
    . next hid =>
      have heq : lc = lc' := Option.some.inj hlc'
      rw [heq, if_pos hr, hid, heq]
    . next hid =>
      have hold := h.byResource id lc' r hlc' hr
      rw [if_neg, hold]
      intro hlc
      exact hid (hfits.resource r id hlc hold)
  . intro id lc' k hlc' hk
    rw [lookup_upsert] at hlc'
    rw [lookup_byBusinessKey_upsert]
    split at hlc'
    . next hid =>
      have heq : lc = lc' := Option.some.inj hlc'
      rw [heq, if_pos hk, hid, heq]
    . next hid =>
      have hold := h.byBusinessKey id lc' k hlc' hk
      rw [if_neg, hold]
      intro hlc
      exact hid (hfits.businessKey k id hlc hold)
  . intro r id hid
    rw [lookup_byResource_upsert] at hid
    split at hid
    . rw [← Option.some.inj hid, lookup_upsert, if_pos rfl]
      exact ⟨lc, rfl⟩
    . exact htarget id (h.resourceTarget r id hid)
  . intro k id hid
    rw [lookup_byBusinessKey_upsert] at hid
    split at hid
    . rw [← Option.some.inj hid, lookup_upsert, if_pos rfl]
      exact ⟨lc, rfl⟩
    . exact htarget id (h.businessKeyTarget k id hid)

theorem findByEvent_recordEvent (s : InMemoryStore) (eventId id eventId' : String)
    : findByEvent (recordEvent s eventId id) eventId'
        = if eventId' = eventId then some id else findByEvent s eventId' := by
  by_cases h : eventId' = eventId
  . subst h
    simp [findByEvent, recordEvent]
  . simp [findByEvent, recordEvent, h, AList.lookup_insert_ne h]

instance : LawfulLifecycleStore InMemoryStore where
  Inv := Inv
  get_id h := h.id_eq _ _
  findByResource_of_get h := h.byResource _ _ _
  findByBusinessKey_of_get h := h.byBusinessKey _ _ _
  get_of_findByResource h := h.resourceTarget _ _
  get_of_findByBusinessKey h := h.businessKeyTarget _ _
  mem_allOpen h := by
    simp [allOpen, LifecycleStore.get, mem_values h]
  nodup_allOpen {s} h := by
    have hnodup : (s.values.map (·.id)).Nodup := by
      rw [map_id_values h]
      exact s.lifecycles.nodupKeys
    exact hnodup.sublist (List.Sublist.map _ List.filter_sublist)
  inv_upsert h hfits := h.upsert hfits
  get_upsert _ _ id := lookup_upsert _ _ id
  findByResource_upsert {s lc} _ _ r hne _ := by
    have := lookup_byResource_upsert s lc r
    rw [if_neg hne] at this
    exact this
  findByBusinessKey_upsert {s lc} _ _ k hne _ := by
    have := lookup_byBusinessKey_upsert s lc k
    rw [if_neg hne] at this
    exact this
  findByEvent_upsert s lc eventId := lookup_bindAll s.byEvent lc.eventIds lc.id eventId
  inv_recordEvent _ _ h := ⟨h.id_eq, h.byResource, h.byBusinessKey, h.resourceTarget, h.businessKeyTarget⟩
  get_recordEvent _ _ _ := rfl
  findByResource_recordEvent _ _ _ := rfl
  findByBusinessKey_recordEvent _ _ _ := rfl
  findByEvent_recordEvent := findByEvent_recordEvent

end InMemoryStore

namespace SqliteLifecycleStore

structure Inv (s : SqliteLifecycleStore) : Prop where
  rows : ∀ row ∈ s.lifecycles, row = rowOf row.bodyJson
  primaryKey : Table.UniqueOn (some ·.id) s.lifecycles
  resource : Table.UniqueOn (·.resourceId) s.lifecycles
  businessKey : Table.UniqueOn (·.businessKey) s.lifecycles

theorem inv_open : «open».Inv :=
  ⟨by simp [«open»], Table.uniqueOn_nil, Table.uniqueOn_nil, Table.uniqueOn_nil⟩

-- The rows hold their lifecycles, and no two of them have one id.
theorem get_eq_some_iff_mem {s : SqliteLifecycleStore}
    (hrows : ∀ row ∈ s.lifecycles, row = rowOf row.bodyJson)
    (hprimary : Table.UniqueOn (some ·.id) s.lifecycles) {id : String} {lc : Lifecycle}
    : LifecycleStore.get s id = some lc ↔ rowOf lc ∈ s.lifecycles ∧ lc.id = id := by
  have hfind : LifecycleStore.get s id
      = (Table.find (some ·.id) s.lifecycles id).map (·.bodyJson) := by
    rfl
  rw [hfind, Option.map_eq_some_iff]
  constructor
  . rintro ⟨row, hrow, rfl⟩
    rcases hprimary.find_eq_some_iff.mp hrow with ⟨hmem, hid⟩
    have heq := hrows row hmem
    rw [← heq]
    refine ⟨hmem, ?_⟩
    rw [heq] at hid
    exact Option.some.inj hid
  . rintro ⟨hmem, rfl⟩
    exact ⟨rowOf lc, hprimary.find_eq_some_iff.mpr ⟨hmem, rfl⟩, rfl⟩

theorem get_eq_some_iff {s : SqliteLifecycleStore} (h : s.Inv) {id : String} {lc : Lifecycle}
    : LifecycleStore.get s id = some lc ↔ rowOf lc ∈ s.lifecycles ∧ lc.id = id :=
  get_eq_some_iff_mem h.rows h.primaryKey

theorem findByResource_eq_some_iff {s : SqliteLifecycleStore} (h : s.Inv) {r id : String}
    : findByResource s r = some id
        ↔ ∃ lc, rowOf lc ∈ s.lifecycles ∧ lc.resourceId = some r ∧ lc.id = id := by
  have hfind : findByResource s r = (Table.find (·.resourceId) s.lifecycles r).map (·.id) := by
    rfl
  rw [hfind, Option.map_eq_some_iff]
  constructor
  . rintro ⟨row, hrow, rfl⟩
    rcases h.resource.find_eq_some_iff.mp hrow with ⟨hmem, hr⟩
    have heq := h.rows row hmem
    rw [heq] at hmem hr
    exact ⟨row.bodyJson, hmem, hr, by rw [heq]; rfl⟩
  . rintro ⟨lc, hmem, hr, rfl⟩
    exact ⟨rowOf lc, h.resource.find_eq_some_iff.mpr ⟨hmem, hr⟩, rfl⟩

theorem findByBusinessKey_eq_some_iff {s : SqliteLifecycleStore} (h : s.Inv) {k id : String}
    : findByBusinessKey s k = some id
        ↔ ∃ lc, rowOf lc ∈ s.lifecycles ∧ lc.businessKey = some k ∧ lc.id = id := by
  have hfind : findByBusinessKey s k = (Table.find (·.businessKey) s.lifecycles k).map (·.id) := by
    rfl
  rw [hfind, Option.map_eq_some_iff]
  constructor
  . rintro ⟨row, hrow, rfl⟩
    rcases h.businessKey.find_eq_some_iff.mp hrow with ⟨hmem, hk⟩
    have heq := h.rows row hmem
    rw [heq] at hmem hk
    exact ⟨row.bodyJson, hmem, hk, by rw [heq]; rfl⟩
  . rintro ⟨lc, hmem, hk, rfl⟩
    exact ⟨rowOf lc, h.businessKey.find_eq_some_iff.mpr ⟨hmem, hk⟩, rfl⟩

-- A lifecycle that fits conflicts with no row but its own.
theorem conflicts_iff {s : SqliteLifecycleStore} (h : s.Inv) {lc : Lifecycle} (hfits : Fits s lc)
    {row : LifecycleRow} (hrow : row ∈ s.lifecycles)
    : (rowOf lc).conflicts row = true ↔ row.id = lc.id := by
  have heq := h.rows row hrow
  have hmem : rowOf row.bodyJson ∈ s.lifecycles := by
    rw [← heq]
    exact hrow
  have hid : row.id = row.bodyJson.id := by
    rw [heq]
    rfl
  unfold LifecycleRow.conflicts
  rw [decide_eq_true_iff]
  constructor
  . rintro (hsame | ⟨_, hsome, hr⟩ | ⟨_, hsome, hk⟩)
    . exact hsame
    . rw [Option.ne_none_iff_exists'] at hsome
      rcases hsome with ⟨r, hlc⟩
      have hfind : findByResource s r = some row.bodyJson.id := by
        rw [findByResource_eq_some_iff h]
        refine ⟨row.bodyJson, hmem, ?_, rfl⟩
        rw [heq, hlc] at hr
        exact hr
      rw [hid]
      exact hfits.resource r _ hlc hfind
    . rw [Option.ne_none_iff_exists'] at hsome
      rcases hsome with ⟨k, hlc⟩
      have hfind : findByBusinessKey s k = some row.bodyJson.id := by
        rw [findByBusinessKey_eq_some_iff h]
        refine ⟨row.bodyJson, hmem, ?_, rfl⟩
        rw [heq, hlc] at hk
        exact hk
      rw [hid]
      exact hfits.businessKey k _ hlc hfind
  . intro hsame
    exact Or.inl hsame

theorem rowOf_inj {a b : Lifecycle} (h : rowOf a = rowOf b) : a = b :=
  congrArg LifecycleRow.bodyJson h

theorem mem_upsert {s : SqliteLifecycleStore} (h : s.Inv) {lc : Lifecycle} (hfits : Fits s lc)
    {lc' : Lifecycle}
    : rowOf lc' ∈ (s.upsert lc).lifecycles
        ↔ (rowOf lc' ∈ s.lifecycles ∧ lc'.id ≠ lc.id) ∨ lc' = lc := by
  unfold upsert insertOrReplace
  rw [Table.mem_replace]
  apply or_congr
  . apply and_congr_right
    intro hmem
    have := conflicts_iff h hfits hmem
    rw [← Bool.not_eq_true, this]
    rfl
  . constructor
    . exact rowOf_inj
    . intro heq
      rw [heq]

theorem Inv.upsert {s : SqliteLifecycleStore} (h : s.Inv) {lc : Lifecycle} (hfits : Fits s lc)
    : (s.upsert lc).Inv := by
  have hkept : ∀ row ∈ s.lifecycles, (rowOf lc).conflicts row = false → row.id ≠ lc.id := by
    intro row hrow hconflicts hid
    have := (conflicts_iff h hfits hrow).mpr hid
    rw [this] at hconflicts
    contradiction
  constructor
  . intro row hrow
    cases Table.mem_replace.mp hrow with
    | inl hold => exact h.rows row hold.1
    | inr hnew =>
      rw [hnew]
      rfl
  . apply h.primaryKey.replace
    intro row hrow hconflicts k hid hid'
    apply hkept row hrow hconflicts
    rw [Option.some.inj hid]
    exact (Option.some.inj hid').symm
  . apply h.resource.replace
    intro row hrow hconflicts r hr hlc
    apply hkept row hrow hconflicts
    have heq := h.rows row hrow
    rw [heq] at hrow hr ⊢
    exact hfits.resource r _ hlc ((findByResource_eq_some_iff h).mpr ⟨_, hrow, hr, rfl⟩)
  . apply h.businessKey.replace
    intro row hrow hconflicts k hk hlc
    apply hkept row hrow hconflicts
    have heq := h.rows row hrow
    rw [heq] at hrow hk ⊢
    exact hfits.businessKey k _ hlc ((findByBusinessKey_eq_some_iff h).mpr ⟨_, hrow, hk, rfl⟩)

theorem get_upsert {s : SqliteLifecycleStore} (h : s.Inv) {lc : Lifecycle} (hfits : Fits s lc)
    (id : String)
    : LifecycleStore.get (s.upsert lc) id
        = if id = lc.id then some lc else LifecycleStore.get s id := by
  ext lc'
  rw [get_eq_some_iff (h.upsert hfits), mem_upsert h hfits]
  split
  . next hid =>
    rw [Option.some.injEq]
    constructor
    . rintro ⟨⟨_, hne⟩ | rfl, rfl⟩
      . contradiction
      . rfl
    . rintro rfl
      exact ⟨Or.inr rfl, hid.symm⟩
  . next hid =>
    rw [get_eq_some_iff h]
    constructor
    . rintro ⟨⟨hmem, _⟩ | rfl, rfl⟩
      . exact ⟨hmem, rfl⟩
      . contradiction
    . rintro ⟨hmem, rfl⟩
      exact ⟨Or.inl ⟨hmem, hid⟩, rfl⟩

-- The rows that an upsert takes out are older versions of the lifecycle.
theorem find_upsert {κ : Type} [DecidableEq κ] {s : SqliteLifecycleStore} (h : s.Inv)
    {lc : Lifecycle} (hfits : Fits s lc) (key : LifecycleRow → Option κ) {k : κ}
    (hnew : key (rowOf lc) ≠ some k)
    (hold : ∀ old, LifecycleStore.get s lc.id = some old → key (rowOf old) ≠ some k)
    : Table.find key (s.upsert lc).lifecycles k = Table.find key s.lifecycles k := by
  apply Table.find_replace_of_ne
  . intro row hrow hconflicts
    have heq := h.rows row hrow
    have hid := (conflicts_iff h hfits hrow).mp hconflicts
    rw [heq] at hrow hid ⊢
    exact hold row.bodyJson ((get_eq_some_iff h).mpr ⟨hrow, hid⟩)
  . exact hnew

theorem mem_allOpen {s : SqliteLifecycleStore} (h : s.Inv) {lc : Lifecycle}
    : lc ∈ allOpen s ↔ LifecycleStore.get s lc.id = some lc ∧ lc.closure = .open := by
  have hclosure : ∀ closure : Closure, closureStr closure = "Open" ↔ closure = .open := by
    intro closure
    cases closure <;> decide
  rw [get_eq_some_iff h]
  simp only [allOpen, openRows, List.mem_map, List.mem_insertionSort, List.mem_filter,
    decide_eq_true_eq]
  constructor
  . rintro ⟨row, ⟨hmem, hopen⟩, rfl⟩
    have heq := h.rows row hmem
    rw [heq] at hmem hopen
    exact ⟨⟨hmem, trivial⟩, (hclosure _).mp hopen⟩
  . rintro ⟨⟨hmem, _⟩, hopen⟩
    exact ⟨rowOf lc, ⟨hmem, (hclosure _).mpr hopen⟩, rfl⟩

theorem nodup_allOpen {s : SqliteLifecycleStore} (h : s.Inv)
    : ((allOpen s).map (·.id)).Nodup := by
  have hids : ∀ row ∈ s.openRows, row.bodyJson.id = row.id := by
    intro row hrow
    have heq := h.rows row (List.mem_of_mem_filter hrow)
    rw [heq]
    rfl
  have hperm : ((allOpen s).map (·.id)).Perm (s.openRows.map (·.id)) := by
    rw [← List.map_congr_left hids]
    simp only [allOpen, List.map_map]
    exact (List.perm_insertionSort _ _).map _
  rw [hperm.nodup_iff]
  have hpairwise := (h.primaryKey.filter (·.closure = "Open"))
  rw [List.Nodup, List.pairwise_map]
  apply hpairwise.imp
  intro a b hab hid
  exact hab a.id rfl (by rw [hid])

theorem findByEvent_recordEvent (s : SqliteLifecycleStore) (eventId id eventId' : String)
    : findByEvent (recordEvent s eventId id) eventId'
        = if eventId' = eventId then some id else findByEvent s eventId' := by
  by_cases h : eventId' = eventId
  . subst h
    simp [findByEvent, recordEvent]
  . simp [findByEvent, recordEvent, h, AList.lookup_insert_ne h]

instance : LawfulLifecycleStore SqliteLifecycleStore where
  Inv := Inv
  get_id h hget := ((get_eq_some_iff h).mp hget).2
  findByResource_of_get h hget hr := by
    rcases (get_eq_some_iff h).mp hget with ⟨hmem, hid⟩
    exact (findByResource_eq_some_iff h).mpr ⟨_, hmem, hr, hid⟩
  findByBusinessKey_of_get h hget hk := by
    rcases (get_eq_some_iff h).mp hget with ⟨hmem, hid⟩
    exact (findByBusinessKey_eq_some_iff h).mpr ⟨_, hmem, hk, hid⟩
  get_of_findByResource h hfind := by
    rcases (findByResource_eq_some_iff h).mp hfind with ⟨lc, hmem, _, hid⟩
    exact ⟨lc, (get_eq_some_iff h).mpr ⟨hmem, hid⟩⟩
  get_of_findByBusinessKey h hfind := by
    rcases (findByBusinessKey_eq_some_iff h).mp hfind with ⟨lc, hmem, _, hid⟩
    exact ⟨lc, (get_eq_some_iff h).mpr ⟨hmem, hid⟩⟩
  mem_allOpen h := mem_allOpen h
  nodup_allOpen h := nodup_allOpen h
  inv_upsert h hfits := h.upsert hfits
  get_upsert h hfits := get_upsert h hfits
  findByResource_upsert h hfits r hne hold := by
    have := find_upsert h hfits (·.resourceId) hne hold
    exact congrArg (Option.map (·.id)) this
  findByBusinessKey_upsert h hfits k hne hold := by
    have := find_upsert h hfits (·.businessKey) hne hold
    exact congrArg (Option.map (·.id)) this
  findByEvent_upsert s lc eventId := lookup_bindAll s.eventBindings lc.eventIds lc.id eventId
  inv_recordEvent _ _ h := ⟨h.rows, h.primaryKey, h.resource, h.businessKey⟩
  get_recordEvent _ _ _ := rfl
  findByResource_recordEvent _ _ _ := rfl
  findByBusinessKey_recordEvent _ _ _ := rfl
  findByEvent_recordEvent := findByEvent_recordEvent

end SqliteLifecycleStore

namespace DynStore

open LawfulLifecycleStore

instance : LawfulLifecycleStore DynStore where
  Inv
    | .inMemory s => LawfulLifecycleStore.Inv s
    | .sqlite s => LawfulLifecycleStore.Inv s
  get_id {s} := by
    cases s <;> exact get_id
  findByResource_of_get {s} := by
    cases s <;> exact findByResource_of_get
  findByBusinessKey_of_get {s} := by
    cases s <;> exact findByBusinessKey_of_get
  get_of_findByResource {s} := by
    cases s <;> exact get_of_findByResource
  get_of_findByBusinessKey {s} := by
    cases s <;> exact get_of_findByBusinessKey
  mem_allOpen {s} := by
    cases s <;> exact mem_allOpen
  nodup_allOpen {s} := by
    cases s <;> exact nodup_allOpen
  inv_upsert {s lc} h hfits := by
    rcases s with s | s <;> exact inv_upsert (s := s) h ⟨hfits.resource, hfits.businessKey⟩
  get_upsert {s lc} h hfits := by
    rcases s with s | s <;> exact get_upsert (s := s) h ⟨hfits.resource, hfits.businessKey⟩
  findByResource_upsert {s lc} h hfits := by
    rcases s with s | s <;> exact findByResource_upsert (s := s) h ⟨hfits.resource, hfits.businessKey⟩
  findByBusinessKey_upsert {s lc} h hfits := by
    rcases s with s | s <;> exact findByBusinessKey_upsert (s := s) h ⟨hfits.resource, hfits.businessKey⟩
  findByEvent_upsert s := by
    rcases s with s | s <;> exact findByEvent_upsert s
  inv_recordEvent {s} eventId id h := by
    rcases s with s | s <;> exact inv_recordEvent (s := s) eventId id h
  get_recordEvent s := by
    rcases s with s | s <;> exact get_recordEvent s
  findByResource_recordEvent s := by
    rcases s with s | s <;> exact findByResource_recordEvent s
  findByBusinessKey_recordEvent s := by
    rcases s with s | s <;> exact findByBusinessKey_recordEvent s
  findByEvent_recordEvent s := by
    rcases s with s | s <;> exact findByEvent_recordEvent s

theorem inv_empty (backend : Backend) : LawfulLifecycleStore.Inv (empty backend) := by
  cases backend with
  | inMemory => exact InMemoryStore.inv_new
  | sqlite => exact SqliteLifecycleStore.inv_open

theorem get_empty (backend : Backend) (id : String) : LifecycleStore.get (empty backend) id = none := by
  cases backend <;> rfl

theorem findByResource_empty (backend : Backend) (r : String)
    : findByResource (empty backend) r = none := by
  cases backend <;> rfl

theorem findByBusinessKey_empty (backend : Backend) (k : String)
    : findByBusinessKey (empty backend) k = none := by
  cases backend <;> rfl

theorem findByEvent_empty (backend : Backend) (eventId : String)
    : findByEvent (empty backend) eventId = none := by
  cases backend <;> rfl

-- The count is the number of ids under which there is a lifecycle.
theorem count_eq {s : DynStore} (h : LawfulLifecycleStore.Inv s)
    : ∃ ids : List String, ids.Nodup ∧ (∀ id, id ∈ ids ↔ LifecycleStore.get s id ≠ none)
        ∧ count s = ids.length := by
  cases s with
  | inMemory s =>
    refine ⟨s.lifecycles.keys, s.lifecycles.nodupKeys, ?_, ?_⟩
    . intro id
      have hmem : id ∈ s.lifecycles.keys ↔ s.lifecycles.lookup id ≠ none := by
        rw [← Option.isSome_iff_ne_none, AList.lookup_isSome]
        rfl
      exact hmem
    . exact (List.length_map _).symm
  | sqlite s =>
    have hinv : s.Inv := h
    refine ⟨s.lifecycles.map (·.id), ?_, ?_, (List.length_map _).symm⟩
    . rw [List.Nodup, List.pairwise_map]
      apply hinv.primaryKey.imp
      intro a b hab hid
      exact hab a.id rfl (by rw [hid])
    . intro id
      rw [Option.ne_none_iff_exists']
      constructor
      . intro hmem
        rcases List.mem_map.mp hmem with ⟨row, hrow, rfl⟩
        have heq := hinv.rows row hrow
        refine ⟨row.bodyJson, (SqliteLifecycleStore.get_eq_some_iff hinv).mpr ⟨?_, ?_⟩⟩
        . rw [← heq]
          exact hrow
        . rw [heq]
          rfl
      . rintro ⟨lc, hget⟩
        rcases (SqliteLifecycleStore.get_eq_some_iff hinv).mp hget with ⟨hrow, rfl⟩
        exact List.mem_map.mpr ⟨rowOf lc, hrow, rfl⟩

theorem count_eq_one {s : DynStore} (h : LawfulLifecycleStore.Inv s) {id : String}
    (hstored : LifecycleStore.get s id ≠ none)
    (honly : ∀ other, LifecycleStore.get s other ≠ none → other = id) : count s = 1 := by
  rcases count_eq h with ⟨ids, hnodup, hmem, hcount⟩
  have hall : ∀ other ∈ ids, other = id := by
    intro other hother
    exact honly other ((hmem other).mp hother)
  have hone : ids = [id] := by
    rw [← List.perm_singleton, List.perm_ext_iff_of_nodup hnodup (List.nodup_singleton id)]
    intro other
    rw [List.mem_singleton]
    constructor
    . exact hall other
    . rintro rfl
      exact (hmem other).mpr hstored
  rw [hcount, hone]
  rfl

end DynStore

end Athar
