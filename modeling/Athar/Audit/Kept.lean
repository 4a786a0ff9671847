import Athar.Audit.WriteFailure

/-!
This module contains what the records on disk and the pending ones are after calls of the writer whose
writes may fail: never more than the calls put in, in the order they put them in.
-/

namespace Athar.Audit.AuditChainWriter

variable {c : Crates}

-- The records since a segment id, persisted or pending.
def recordsSince (w : AuditChainWriter c) (firstId : Nat) : List AuditRecord :=
  w.store.persistedSince firstId ++ w.inner.records.map (·.record)

-- The next segment gets a file of its own, among those since `firstId`.
structure Fresh (firstId : Nat) (w : AuditChainWriter c) : Prop where
  lt_next : ∀ id ∈ w.store.list, id < w.nextSegmentId
  first_le : firstId ≤ w.nextSegmentId

theorem Fresh.open {store : SegmentStore c} {tenantId : String} {signer : SigningKey}
    {w : AuditChainWriter c} (hopen : AuditChainWriter.open store tenantId signer = .ok w)
    : w.Fresh w.nextSegmentId ∧ w.recordsSince w.nextSegmentId = [] := by
  have hfresh : (∀ id ∈ w.store.list, id < w.nextSegmentId) ∧ w.inner.records = [] := by
    rcases List.eq_nil_or_concat store.list with hnil | ⟨ids, lastId, hids⟩
    . simp only [AuditChainWriter.open, hnil] at hopen
      cases hopen
      simp [hnil, ChainWriter.fromTip]
    . rw [List.concat_eq_append] at hids
      simp only [AuditChainWriter.open, hids, List.getLast?_append, List.getLast?_singleton,
        Option.some_or] at hopen
      cases hread : store.read lastId with
      | error e => simp [hread, bind, Except.bind] at hopen
      | ok last =>
        simp only [hread, bind, Except.bind, pure, Except.pure] at hopen
        cases hopen
        refine ⟨?_, rfl⟩
        intro id hid
        exact Nat.lt_succ_of_le (list_le_last hids id hid)
  rcases hfresh with ⟨hlt, hpending⟩
  refine ⟨⟨hlt, Nat.le_refl _⟩, ?_⟩
  have hnone : w.store.list.filter (w.nextSegmentId ≤ ·) = [] := by
    rw [List.filter_eq_nil_iff]
    intro id hid
    have := hlt id hid
    simpa using this
  simp [recordsSince, SegmentStore.persistedSince, hnone, hpending]

theorem recordsSince_push (w : AuditChainWriter c) (firstId : Nat) (kind : String)
    (payload : List UInt8) (nowUs : Int64)
    : (w.push kind payload nowUs).recordsSince firstId
        = w.recordsSince firstId ++ [w.nextRecord kind payload nowUs] := by
  simp [recordsSince, push, ChainWriter.append, nextRecord]

theorem Fresh.push {firstId : Nat} {w : AuditChainWriter c} (h : w.Fresh firstId) (kind : String)
    (payload : List UInt8) (nowUs : Int64) : (w.push kind payload nowUs).Fresh firstId :=
  ⟨h.lt_next, h.first_le⟩

-- A segment that is written keeps its records, and one that is not loses them all.
theorem Fresh.closeSegment (hc : c.Lawful) {firstId : Nat} {w : AuditChainWriter c}
    (h : w.Fresh firstId) (outcome : WriteOutcome c.Text)
    : (w.closeSegment outcome).1.Fresh firstId
        ∧ ((w.closeSegment outcome).1.recordsSince firstId).Sublist (w.recordsSince firstId) := by
  by_cases hne : w.inner.records = []
  . rw [closeSegment_of_nil hne]
    exact ⟨h, List.Sublist.refl _⟩
  . rcases closeSegment_of_ne_nil hne outcome with ⟨last, _, heq⟩
    rw [heq]
    have hfirst := h.first_le
    by_cases hdone : outcome = .done
    . subst hdone
      refine ⟨⟨?_, by dsimp only; omega⟩, ?_⟩
      . intro id hid
        rw [SegmentStore.list_write_done _ _ h.lt_next] at hid
        simp only [List.mem_append, List.mem_singleton, pendingSegment_segmentId] at hid
        cases hid with
        | inl hold => exact Nat.lt_succ_of_lt (h.lt_next id hold)
        | inr hnew => simp [hnew]
      . simp only [recordsSince, ChainWriter.fromTip, List.map_nil, List.append_nil]
        rw [SegmentStore.persistedSince_write_done hc w.store w.pendingSegment h.lt_next hfirst]
        exact List.Sublist.refl _
    . refine ⟨⟨?_, by dsimp only; omega⟩, ?_⟩
      . intro id hid
        rw [SegmentStore.list_write_of_ne_done _ _ hdone] at hid
        exact Nat.lt_succ_of_lt (h.lt_next id hid)
      . simp only [recordsSince, ChainWriter.fromTip, List.map_nil, List.append_nil]
        rw [SegmentStore.persistedSince_write_of_ne_done _ _ _ hdone]
        exact List.sublist_append_left _ _

theorem Fresh.observe (hc : c.Lawful) {firstId : Nat} {w : AuditChainWriter c} (h : w.Fresh firstId)
    (kind : String) (payload : List UInt8) (nowUs : Int64) (outcome : WriteOutcome c.Text)
    : (w.observe kind payload nowUs outcome).1.Fresh firstId
        ∧ ((w.observe kind payload nowUs outcome).1.recordsSince firstId).Sublist
          (w.recordsSince firstId ++ [w.nextRecord kind payload nowUs]) := by
  rw [← recordsSince_push, observe_eq]
  split
  . exact (h.push kind payload nowUs).closeSegment hc outcome
  . exact ⟨h.push kind payload nowUs, List.Sublist.refl _⟩

-- The pending records are the last ones.
theorem take_recordsSince (w : AuditChainWriter c) (firstId : Nat)
    : (w.recordsSince firstId).take ((w.recordsSince firstId).length - w.pendingRecords)
        = w.store.persistedSince firstId := by
  unfold recordsSince pendingRecords
  rw [List.length_append, List.length_map, Nat.add_sub_cancel, List.take_left]

theorem recordsSince_closeSegment (hc : c.Lawful) {firstId : Nat} {w : AuditChainWriter c}
    (h : w.Fresh firstId) : (w.closeSegment .done).1.recordsSince firstId = w.recordsSince firstId := by
  by_cases hne : w.inner.records = []
  . rw [closeSegment_of_nil hne]
  . rcases closeSegment_of_ne_nil hne .done with ⟨last, _, heq⟩
    rw [heq]
    simp only [recordsSince, ChainWriter.fromTip, List.map_nil, List.append_nil]
    rw [SegmentStore.persistedSince_write_done hc w.store w.pendingSegment h.lt_next h.first_le]
    rfl

theorem recordsSince_observe (hc : c.Lawful) {firstId : Nat} {w : AuditChainWriter c}
    (h : w.Fresh firstId) {outcome : WriteOutcome c.Text} (hcommits : w.Commits outcome) (kind : String)
    (payload : List UInt8) (nowUs : Int64)
    : (w.observe kind payload nowUs outcome).1.recordsSince firstId
        = w.recordsSince firstId ++ [w.nextRecord kind payload nowUs] := by
  rw [← recordsSince_push, observe_eq]
  split
  . next hfull =>
    rw [push_records_length] at hfull
    rw [hcommits hfull]
    exact recordsSince_closeSegment hc (h.push kind payload nowUs)
  . rfl

-- A segment that cannot be written takes its records with it, those that were pending before included.
theorem recordsSince_observe_fails {w : AuditChainWriter c} {outcome : WriteOutcome c.Text}
    (hfails : ¬w.Commits outcome) (firstId : Nat) (kind : String) (payload : List UInt8) (nowUs : Int64)
    : (w.observe kind payload nowUs outcome).1.recordsSince firstId = w.store.persistedSince firstId := by
  rcases Classical.not_imp.mp hfails with ⟨hfull, hfailed⟩
  rw [← push_records_length w kind payload nowUs] at hfull
  rcases closeSegment_of_ne_nil (push_records_ne_nil w kind payload nowUs) outcome with ⟨last, _, heq⟩
  rw [observe_eq, if_pos hfull, heq]
  simp only [recordsSince, ChainWriter.fromTip, List.map_nil, List.append_nil]
  rw [SegmentStore.persistedSince_write_of_ne_done _ _ _ hfailed]
  rfl

end Athar.Audit.AuditChainWriter
