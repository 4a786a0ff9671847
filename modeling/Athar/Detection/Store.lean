import Mathlib.Data.List.Sort
import Athar.Detection.Impl.Store

/-!
This module contains what the decision store answers after any sequence of writes. It stands for a map
from identifiers to the records last written under them, and a list of recent decisions leaves out
nothing that is newer than what it shows.
-/

namespace Athar.SqliteDecisionStore

-- What is documented about the JSON library and about the database.
structure Documented (db : DecisionDb) : Prop where
  reads_back : ∀ r, ∃ text, db.toString r = some text ∧ db.fromStr text = some r
  perm : ∀ rows, (db.orderByTimestampDesc rows).Perm rows
  descending : ∀ rows,
    (db.orderByTimestampDesc rows).Pairwise fun a b => b.timestampMs ≤ a.timestampMs

-- The records of the writes whose statement succeeds.
def recorded (writes : List (DecisionRecord × Bool)) : List DecisionRecord :=
  (writes.filter (·.2)).map Prod.fst

def lastWritten (writes : List (DecisionRecord × Bool)) (id : String) : Option DecisionRecord :=
  (recorded writes).reverse.find? (·.decisionId = id)

def writeAll {db : DecisionDb} (writes : List (DecisionRecord × Bool)) : SqliteDecisionStore db :=
  writes.foldl (fun s write => (s.writeDecision write.1 write.2).1) «open»

-- A list that shows the most recent of the decisions last written, each once.
structure ShowsRecent (writes : List (DecisionRecord × Bool)) (shown : List DecisionRecord) : Prop where
  once : (shown.map (·.decisionId)).Nodup
  last : ∀ r ∈ shown, lastWritten writes r.decisionId = some r
  descending : shown.Pairwise fun a b => asI64 b.timestampMs ≤ asI64 a.timestampMs
  recent : ∀ id r, lastWritten writes id = some r → r ∉ shown →
    ∀ q ∈ shown, asI64 r.timestampMs ≤ asI64 q.timestampMs

variable {db : DecisionDb}

theorem recorded_append (writes : List (DecisionRecord × Bool)) (write : DecisionRecord × Bool)
    : recorded (writes ++ [write])
        = recorded writes ++ if write.2 = true then [write.1] else [] := by
  unfold recorded
  rw [List.filter_append, List.map_append]
  split
  . next h => simp [h]
  . next h => simp [h]

section Rows

variable {body : DecisionRecord → db.Text}

def rowOf (body : DecisionRecord → db.Text) (r : DecisionRecord) : DecisionRow db.Text :=
  decisionRow r (body r)

theorem replace_rowOf (records : List DecisionRecord) (r : DecisionRecord)
    : Table.replace (·.decisionId = (rowOf body r).decisionId) (records.map (rowOf body)) (rowOf body r)
        = (Table.replace (·.decisionId = r.decisionId) records r).map (rowOf body) := by
  unfold Table.replace
  rw [List.map_append, List.filter_map, List.map_singleton]
  rfl

theorem writeDecision_decisions (hbody : ∀ r, db.toString r = some (body r))
    (s : SqliteDecisionStore db) (r : DecisionRecord) (executes : Bool)
    : (s.writeDecision r executes).1.decisions
        = if executes = true
          then Table.replace (·.decisionId = (rowOf body r).decisionId) s.decisions (rowOf body r)
          else s.decisions := by
  unfold writeDecision
  rw [hbody]
  cases executes <;> rfl

-- The rows of the store are those of the records that the writes leave.
theorem decisions_writeAll (hbody : ∀ r, db.toString r = some (body r))
    (writes : List (DecisionRecord × Bool))
    : (writeAll writes : SqliteDecisionStore db).decisions
        = (Table.upserts (·.decisionId) (recorded writes)).map (rowOf body) := by
  induction writes using List.reverseRecOn with
  | nil => rfl
  | append_singleton writes write ih =>
    have hlast : (writeAll (writes ++ [write]) : SqliteDecisionStore db)
        = ((writeAll writes).writeDecision write.1 write.2).1 := by
      simp [writeAll]
    rw [hlast, writeDecision_decisions hbody, recorded_append]
    split
    . rw [ih, replace_rowOf, Table.upserts_append_singleton]
    . rw [ih, List.append_nil]

theorem exists_map_rowOf {rows : List (DecisionRow db.Text)} (h : ∀ row ∈ rows, ∃ r, rowOf body r = row)
    : ∃ records : List DecisionRecord, records.map (rowOf body) = rows := by
  induction rows with
  | nil => exact ⟨[], rfl⟩
  | cons row rows ih =>
    rcases ih (fun r hr => h r (List.mem_cons_of_mem row hr)) with ⟨records, hrecords⟩
    rcases h row (by simp) with ⟨r, hr⟩
    exact ⟨r :: records, by rw [List.map_cons, hr, hrecords]⟩

theorem filterMap_fromStr (hbody : ∀ r, db.fromStr (body r) = some r) (records : List DecisionRecord)
    : (records.map (rowOf body)).filterMap (fun row => db.fromStr row.bodyJson) = records := by
  induction records with
  | nil => rfl
  | cons r records ih =>
    rw [List.map_cons, List.filterMap_cons, ih]
    simp [rowOf, decisionRow, hbody]

end Rows

theorem mem_upserts_recorded {writes : List (DecisionRecord × Bool)} {r : DecisionRecord}
    : r ∈ Table.upserts (·.decisionId) (recorded writes)
        ↔ lastWritten writes r.decisionId = some r := by
  rw [Table.mem_upserts_iff]
  rfl

theorem mem_of_lastWritten {writes : List (DecisionRecord × Bool)} {id : String} {r : DecisionRecord}
    (h : lastWritten writes id = some r) : r ∈ Table.upserts (·.decisionId) (recorded writes) := by
  have hid : r.decisionId = id := by
    simpa using List.find?_some h
  rw [mem_upserts_recorded, hid]
  exact h

theorem prefix_limited {α : Type} (limit : UInt64) (rows : List α) : limited limit rows <+: rows := by
  unfold limited
  split
  . exact List.take_prefix _ _
  . exact List.prefix_refl _

theorem length_limited {α : Type} (limit : UInt64) (rows : List α)
    : (limited limit rows).length
        = if limit.toNat < 2 ^ 63 then min limit.toNat rows.length else rows.length := by
  unfold limited
  split
  . rw [List.length_take]
  . rfl

-- Some of the records last written, in the order of their times and the most recent of them first.
theorem showsRecent_of_prefixed {writes : List (DecisionRecord × Bool)}
    {shown ordered : List DecisionRecord}
    (hperm : ordered.Perm (Table.upserts (·.decisionId) (recorded writes)))
    (hordered : ordered.Pairwise fun a b => asI64 b.timestampMs ≤ asI64 a.timestampMs)
    (hshown : shown <+: ordered) : ShowsRecent writes shown := by
  have hnodup : (ordered.map (·.decisionId)).Nodup :=
    (hperm.map _).nodup_iff.mpr (Table.nodup_upserts _ _)
  constructor
  . exact hnodup.sublist (hshown.sublist.map _)
  . intro r hr
    exact mem_upserts_recorded.mp (hperm.mem_iff.mp (hshown.subset hr))
  . exact hordered.sublist hshown.sublist
  . intro id r hr hnot q hq
    have hmem := hperm.mem_iff.mpr (mem_of_lastWritten hr)
    rcases hshown with ⟨rest, rfl⟩
    rw [List.mem_append] at hmem
    exact (List.pairwise_append.mp hordered).2.2 q hq r (hmem.resolve_left hnot)

/--
After any sequence of writes, of which any may fail, the store is the map of the records that were last
written under each identifier: looking an identifier up, counting, and listing the recent decisions say
nothing else.
-/
theorem answers_lastWritten (hdb : Documented db) (writes : List (DecisionRecord × Bool))
    : (∀ id, (writeAll writes : SqliteDecisionStore db).getDecision id = lastWritten writes id)
        ∧ (writeAll writes : SqliteDecisionStore db).countDecisions
            = ((recorded writes).map (·.decisionId)).dedup.length
        ∧ ∀ limit, ShowsRecent writes ((writeAll writes : SqliteDecisionStore db).recentDecisions limit)
            ∧ ((writeAll writes : SqliteDecisionStore db).recentDecisions limit).length
                = if limit.toNat < 2 ^ 63
                  then min limit.toNat (writeAll writes : SqliteDecisionStore db).countDecisions
                  else (writeAll writes : SqliteDecisionStore db).countDecisions := by
  choose body hbody hread using hdb.reads_back
  have hdecisions := decisions_writeAll hbody writes
  generalize (writeAll writes : SqliteDecisionStore db) = s at hdecisions
  have hcount : s.countDecisions = (Table.upserts (·.decisionId) (recorded writes)).length := by
    rw [countDecisions, hdecisions, List.length_map]
  refine ⟨?_, ?_, ?_⟩
  . intro id
    have hkey : (fun row : DecisionRow db.Text => decide (row.decisionId = id)) ∘ rowOf body
        = fun r => decide (r.decisionId = id) := rfl
    rw [getDecision, hdecisions, List.find?_map, hkey,
      Table.find_upserts (·.decisionId) (recorded writes) id, lastWritten]
    cases (recorded writes).reverse.find? (·.decisionId = id) with
    | none => rfl
    | some r => simp [rowOf, decisionRow, hread]
  . rw [hcount, Table.length_upserts]
  . intro limit
    have hrows : ∀ row ∈ db.orderByTimestampDesc s.decisions, ∃ r, rowOf body r = row := by
      intro row hrow
      have hmem := (hdb.perm _).mem_iff.mp hrow
      rw [hdecisions, List.mem_map] at hmem
      rcases hmem with ⟨r, _, hr⟩
      exact ⟨r, hr⟩
    rcases exists_map_rowOf hrows with ⟨ordered, hordered⟩
    have hperm : ordered.Perm (Table.upserts (·.decisionId) (recorded writes)) := by
      have := (hdb.perm s.decisions).filterMap fun row => db.fromStr row.bodyJson
      rwa [← hordered, hdecisions, filterMap_fromStr hread, filterMap_fromStr hread] at this
    have hdescending : ordered.Pairwise fun a b => asI64 b.timestampMs ≤ asI64 a.timestampMs := by
      have := hdb.descending s.decisions
      rwa [← hordered, List.pairwise_map] at this
    have hshown : s.recentDecisions limit = limited limit ordered := by
      have hmap : limited limit (ordered.map (rowOf body)) = (limited limit ordered).map (rowOf body) := by
        unfold limited
        split <;> simp
      rw [recentDecisions, ← hordered, hmap, filterMap_fromStr hread]
    rw [hshown, length_limited, hcount, hperm.length_eq]
    exact ⟨showsRecent_of_prefixed hperm hdescending (prefix_limited limit ordered), rfl⟩

section Instances

def newerFirst (a b : DecisionRow DecisionRecord) : Prop :=
  b.timestampMs ≤ a.timestampMs

instance : DecidableRel newerFirst :=
  fun a b => inferInstanceAs (Decidable (b.timestampMs ≤ a.timestampMs))

instance : Std.Total newerFirst where
  total a b := Int64.le_total b.timestampMs a.timestampMs

instance : IsTrans (DecisionRow DecisionRecord) newerFirst where
  trans _ _ _ hab hbc := Int64.le_trans hbc hab

-- Bodies are kept as they are, and rows of the same time in the order of the table.
def plainDb : DecisionDb where
  Text := DecisionRecord
  toString := some
  fromStr := some
  orderByTimestampDesc rows := rows.insertionSort newerFirst

theorem plainDb_documented : Documented plainDb := by
  constructor
  . intro r
    exact ⟨r, rfl, rfl⟩
  . intro rows
    have : (List.insertionSort newerFirst rows).Perm rows := List.perm_insertionSort newerFirst rows
    exact this
  . intro rows
    have : (List.insertionSort newerFirst rows).Pairwise newerFirst :=
      List.pairwise_insertionSort newerFirst rows
    exact this

-- The decision on an event without signals, at the given time.
def allowed (ulid : String) (timestampMs : Nat) : DecisionRecord :=
  .build (fun _ => "0.00") "tnt_test" ⟨none, "e1", none⟩ PolicyEngine.noPolicyMatched [] timestampMs
    "L0Normal" 10 ulid

def threeWrites : List (DecisionRecord × Bool) :=
  [(allowed "a" 2, true), (allowed "b" 3, false), (allowed "a" 1, true), (allowed "c" 5, true)]

theorem answers_lastWritten_threeWrites
    : (∀ id, (writeAll threeWrites : SqliteDecisionStore plainDb).getDecision id
          = lastWritten threeWrites id)
        ∧ (writeAll threeWrites : SqliteDecisionStore plainDb).countDecisions
            = ((recorded threeWrites).map (·.decisionId)).dedup.length
        ∧ ∀ limit, ShowsRecent threeWrites
              ((writeAll threeWrites : SqliteDecisionStore plainDb).recentDecisions limit)
            ∧ ((writeAll threeWrites : SqliteDecisionStore plainDb).recentDecisions limit).length
                = if limit.toNat < 2 ^ 63
                  then min limit.toNat (writeAll threeWrites : SqliteDecisionStore plainDb).countDecisions
                  else (writeAll threeWrites : SqliteDecisionStore plainDb).countDecisions :=
  answers_lastWritten plainDb_documented threeWrites

end Instances

end Athar.SqliteDecisionStore
