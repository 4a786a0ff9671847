import Athar.Storage.Calls

/-!
This module contains the life of a log over all its sessions, with the receipts it gave: when the id of a
segment is given to another one. The next id is derived from the files, and eviction deletes files.
-/

namespace Athar.Storage

def SegmentLog.targetId (l : SegmentLog) (recordSizeOnDisk : Nat) : Nat :=
  match l.active with
  | none => l.nextSegId
  | some a => if l.mustRotate recordSizeOnDisk then l.nextSegId else a.id

theorem Landing.targetId_eq {l l₁ : SegmentLog} {data : List UInt8} {segs older : List Segment}
    {last : Segment} {a : Active} (h : Landing l data segs l₁ older last a)
    : l.targetId (RECORD_HEADER_BYTES + data.length) = a.id := by
  have hactive := h.active
  unfold SegmentLog.targetId
  rcases h.prepared with ⟨hmust, hl, _⟩ | ⟨hmust, hl, _⟩
  . rw [← hl, hactive]
    dsimp only
    rw [hl, hmust]
    rfl
  . rcases l.rotate_done with ⟨path, files, hrotate⟩
    rw [hl, hrotate] at hactive
    rw [hmust, ← Option.some.inj hactive]
    split
    . rfl
    . rfl

-- Segments are counted as they are opened. The one that `close` opens is deleted again.
structure Lifetime where
  process : Process
  opened : Nat
  receipts : List (Nat × AppendReceipt)
  evicted : List Nat

namespace Lifetime

def start : Lifetime := ⟨.down ∅, 0, [], []⟩

-- A receipt is kept with the number of the segment that the record is in.
def append (s : Lifetime) (l : SegmentLog) (data : List UInt8) : Lifetime :=
  match l.append data .done with
  | (l', .error _) => { s with process := .up l' }
  | (l', .ok receipt) =>
    let opened := s.opened + (l'.nextSegId - l.nextSegId)
    { s with
      process := .up l'
      opened
      receipts := s.receipts ++ [(opened, receipt)] }

-- Of the evicted segments, those matter that a receipt points to.
def evict (s : Lifetime) (l : SegmentLog) : Lifetime :=
  match l.evictOldestClosed true with
  | (l', .ok (some id)) =>
    { s with
      process := .up l'
      evicted := if s.receipts.any (·.2.segmentId = id) then id :: s.evicted else s.evicted }
  | (l', _) => { s with process := .up l' }

def step (s : Lifetime) (c : LogCall) : Lifetime :=
  match s.process, c with
  | .up l, .append data => s.append l data
  | .up l, .rotate => { s with process := .up (l.rotate .done).1, opened := s.opened + 1 }
  | .up l, .evictOldestClosed => s.evict l
  | p, c => { s with process := c.step p }

/--
No id belongs to two segments with records, and a segment id and a record index identify one record.
-/
structure IdsUnique (s : Lifetime) : Prop where
  segment : ∀ x ∈ s.receipts, ∀ y ∈ s.receipts, x.2.segmentId = y.2.segmentId → x.1 = y.1
  record : (s.receipts.map (fun x => (x.2.segmentId, x.2.recordIndex))).Nodup

-- A record that is let in does not go to the id of an evicted segment with records.
def AvoidsEvicted (s : Lifetime) (c : LogCall) : Prop :=
  match s.process, c with
  | .up l, .append data => l.Admits data → l.targetId (RECORD_HEADER_BYTES + data.length) ∉ s.evicted
  | _, _ => True

-- What is known of the receipts while the directory holds the segments.
structure Traced (s : Lifetime) (segs : List Segment) : Prop where
  unique : s.IdsUnique
  present : ∀ x ∈ s.receipts, x.2.segmentId ∉ s.evicted →
    ∃ seg ∈ segs, seg.id = x.2.segmentId ∧ x.2.recordIndex < seg.records.length
  opened : ∀ x ∈ s.receipts, x.1 ≤ s.opened
  evicted : ∀ id ∈ s.evicted, ∃ x ∈ s.receipts, x.2.segmentId = id

-- The active segment is the one opened last: a receipt with its id is for it, or for one that was evicted.
structure Working (s : Lifetime) (l : SegmentLog) (segs : List Segment) : Prop where
  tracks : Tracks l segs
  active : ∀ a, l.active = some a → ∀ x ∈ s.receipts, x.2.segmentId = a.id →
    (x.1 = s.opened ↔ a.id ∉ s.evicted)

def Inv (s : Lifetime) : Prop :=
  ∃ segs, s.Traced segs ∧
    match s.process with
    | .down files => Holds files segs
    | .up l => s.Working l segs

theorem inv_start : start.Inv := by
  refine ⟨[], ⟨⟨by simp [start], List.nodup_nil⟩, by simp [start], by simp [start], by simp [start]⟩, ?_⟩
  exact holds_empty

theorem Traced.contents {s : Lifetime} {segs segs' : List Segment} (h : s.Traced segs)
    (hcontents : segs'.map Segment.contents = segs.map Segment.contents) : s.Traced segs' := by
  refine ⟨h.unique, ?_, h.opened, h.evicted⟩
  intro x hx hevicted
  rcases h.present x hx hevicted with ⟨seg, hseg, hid, hindex⟩
  rcases exists_contents hcontents.symm hseg with ⟨seg', hseg', heq⟩
  rcases Prod.mk.inj heq with ⟨hid', hrecords⟩
  refine ⟨seg', hseg', hid'.trans hid, ?_⟩
  rw [hrecords]
  exact hindex

theorem Traced.add {s : Lifetime} {segs : List Segment} (h : s.Traced segs) (seg : Segment)
    : s.Traced (segs ++ [seg]) := by
  refine ⟨h.unique, ?_, h.opened, h.evicted⟩
  intro x hx hevicted
  rcases h.present x hx hevicted with ⟨old, hold, heq⟩
  exact ⟨old, List.mem_append_left _ hold, heq⟩

theorem Traced.advance {s s' : Lifetime} {segs : List Segment} (h : s.Traced segs)
    (hreceipts : s'.receipts = s.receipts) (hevicted : s'.evicted = s.evicted)
    (hopened : s.opened ≤ s'.opened) : s'.Traced segs := by
  constructor
  . constructor
    . rw [hreceipts]
      exact h.unique.segment
    . rw [hreceipts]
      exact h.unique.record
  . rw [hreceipts, hevicted]
    exact h.present
  . rw [hreceipts]
    intro x hx
    exact (h.opened x hx).trans hopened
  . rw [hreceipts, hevicted]
    exact h.evicted

-- A receipt with the id of a segment that is not there yet is that of an evicted one.
theorem Traced.mem_evicted {s : Lifetime} {segs : List Segment} (h : s.Traced segs) {id : Nat}
    (hfresh : ∀ seg ∈ segs, seg.id < id) {x : Nat × AppendReceipt} (hx : x ∈ s.receipts)
    (hid : x.2.segmentId = id) : id ∈ s.evicted := by
  by_contra hevicted
  rw [← hid] at hevicted
  rcases h.present x hx hevicted with ⟨seg, hseg, heq, _⟩
  have := hfresh seg hseg
  omega

section

variable {s : Lifetime} {l l₁ : SegmentLog} {segs older : List Segment} {last : Segment} {a : Active}
  {data : List UInt8}

-- The log when the segment for a record has been found.
def prepared (s : Lifetime) (l l₁ : SegmentLog) : Lifetime :=
  { s with process := .up l₁, opened := s.opened + (l₁.nextSegId - l.nextSegId) }

theorem Traced.prepared (h : s.Traced segs) (hlanding : Landing l data segs l₁ older last a)
    : (s.prepared l l₁).Traced (older ++ [last]) := by
  have hopened : s.opened ≤ (s.prepared l l₁).opened := Nat.le_add_right _ _
  rcases hlanding.prepared with ⟨_, _, hsegs⟩ | ⟨_, _, _, hclosing⟩
  . rw [← hsegs]
    exact h.advance rfl rfl hopened
  . exact ((h.contents hclosing.contents).add last).advance rfl rfl hopened

theorem fresh_active (h : s.Traced segs) (hfresh : ∀ seg ∈ segs, seg.id < l.nextSegId)
    {x : Nat × AppendReceipt} (hx : x ∈ s.receipts) (hid : x.2.segmentId = l.nextSegId)
    : x.1 = s.opened + 1 ↔ l.nextSegId ∉ s.evicted := by
  have hle := h.opened x hx
  have hevicted := h.mem_evicted hfresh hx hid
  constructor
  . intro heq
    omega
  . intro hnot
    exact absurd hevicted hnot

theorem Working.prepared (h : s.Working l segs) (htraced : s.Traced segs)
    (hlanding : Landing l data segs l₁ older last a)
    : (s.prepared l l₁).Working l₁ (older ++ [last]) := by
  refine ⟨hlanding.tracks, ?_⟩
  intro a' ha'
  rcases hlanding.prepared with ⟨_, rfl, _⟩ | ⟨_, hl, _⟩
  . have hopened : (s.prepared l₁ l₁).opened = s.opened := by
      unfold Lifetime.prepared
      rw [Nat.sub_self, Nat.add_zero]
    rw [hopened]
    exact h.active a' ha'
  . rcases l.rotate_done with ⟨path, files, hrotate⟩
    rw [hl, hrotate] at ha'
    have hopened : (s.prepared l l₁).opened = s.opened + 1 := by
      unfold Lifetime.prepared
      rw [hl, hrotate]
      dsimp only
      omega
    rw [hopened, ← Option.some.inj ha']
    intro x hx hid
    exact fresh_active htraced h.tracks.fresh hx hid

theorem append_landing (s : Lifetime) (h : Landing l data segs l₁ older last a)
    : s.append l data
        = { s.prepared l l₁ with
            process := .up (l.append data .done).1
            receipts := s.receipts ++ [((s.prepared l l₁).opened, a.receipt data)] } := by
  rcases h.result with ⟨hok, _, hnext, _⟩
  unfold Lifetime.append
  split
  . next happend =>
    rw [happend] at hok
    contradiction
  . next happend =>
    rw [happend] at hok hnext
    rw [happend, Except.ok.inj hok, hnext]
    rfl

theorem Working.ordinal_eq (h : s.Working l segs) (hactive : l.active = some a) (hevicted : a.id ∉ s.evicted)
    {x : Nat × AppendReceipt} (hx : x ∈ s.receipts) (hid : x.2.segmentId = a.id) : x.1 = s.opened :=
  (h.active a hactive x hx hid).mpr hevicted

theorem not_mem_records (htraced : s.Traced (older ++ [last])) (h : s.Working l (older ++ [last]))
    (hbacks : last.Backs a) (hevicted : a.id ∉ s.evicted)
    : (a.id, a.recordCount) ∉ s.receipts.map (fun x => (x.2.segmentId, x.2.recordIndex)) := by
  intro hmem
  rcases List.mem_map.mp hmem with ⟨x, hx, heq⟩
  rcases Prod.mk.inj heq with ⟨hid, hindex⟩
  rw [← hid] at hevicted
  rcases htraced.present x hx hevicted with ⟨seg, hseg, hsegid, hlt⟩
  have hlast : seg = last := by
    apply h.tracks.holds.eq_of_id_eq hseg (by simp)
    rw [hsegid, hid, hbacks.id_eq]
  rw [hlast, hindex, hbacks.recordCount_eq] at hlt
  omega

theorem Traced.push (htraced : s.Traced (older ++ [last])) (h : s.Working l (older ++ [last]))
    (hactive : l.active = some a) (hbacks : last.Backs a) (hevicted : a.id ∉ s.evicted) (p : Process)
    : { s with process := p, receipts := s.receipts ++ [(s.opened, a.receipt data)] }.Traced
        (older ++ [last.push data]) := by
  constructor
  . constructor
    . intro x hx y hy heq
      rw [List.mem_append, List.mem_singleton] at hx hy
      rcases hx with hx | rfl
      . rcases hy with hy | rfl
        . exact htraced.unique.segment x hx y hy heq
        . exact h.ordinal_eq hactive hevicted hx heq
      . rcases hy with hy | rfl
        . exact (h.ordinal_eq hactive hevicted hy heq.symm).symm
        . rfl
    . rw [List.map_append, List.map_singleton, List.nodup_append]
      refine ⟨htraced.unique.record, List.nodup_singleton _, ?_⟩
      rintro r hr _ hnew rfl
      rw [List.mem_singleton.mp hnew] at hr
      exact not_mem_records htraced h hbacks hevicted hr
  . intro x hx hnot
    rw [List.mem_append, List.mem_singleton] at hx
    rcases hx with hx | rfl
    . rcases htraced.present x hx hnot with ⟨seg, hseg, hid, hlt⟩
      rw [List.mem_append, List.mem_singleton] at hseg
      rcases hseg with hseg | rfl
      . exact ⟨seg, List.mem_append_left _ hseg, hid, hlt⟩
      . refine ⟨seg.push data, by simp, hid, ?_⟩
        unfold Segment.push
        rw [List.length_append]
        exact Nat.lt_add_right _ hlt
    . refine ⟨last.push data, by simp, hbacks.id_eq.symm, ?_⟩
      unfold Segment.push Active.receipt
      rw [hbacks.recordCount_eq, List.length_append]
      exact Nat.lt_succ_self _
  . intro x hx
    rw [List.mem_append, List.mem_singleton] at hx
    rcases hx with hx | rfl
    . exact htraced.opened x hx
    . exact Nat.le_refl _
  . intro id hid
    rcases htraced.evicted id hid with ⟨x, hx, heq⟩
    exact ⟨x, List.mem_append_left _ hx, heq⟩

theorem Working.push (h : s.Working l segs) (hactive : l.active = some a) (hevicted : a.id ∉ s.evicted)
    {l' : SegmentLog} {segs' : List Segment} (htracks : Tracks l' segs')
    (hactive' : l'.active = some (a.push data)) (p : Process)
    : { s with process := p, receipts := s.receipts ++ [(s.opened, a.receipt data)] }.Working l' segs' := by
  refine ⟨htracks, ?_⟩
  intro a' ha' x hx hid
  rw [hactive', Option.some.injEq] at ha'
  subst ha'
  rw [List.mem_append, List.mem_singleton] at hx
  rcases hx with hx | rfl
  . exact h.active a hactive x hx hid
  . constructor
    . intro _
      exact hevicted
    . intro _
      rfl

theorem inv_append (h : s.Traced segs) (hworking : s.Working l segs)
    (hadmits : l.Admits data → l.targetId (RECORD_HEADER_BYTES + data.length) ∉ s.evicted)
    : (s.append l data).Inv := by
  by_cases hfits : l.Admits data
  . rcases hworking.tracks.landing hfits with ⟨l₁, older, last, a, hlanding⟩
    have hevicted := hadmits hfits
    rw [hlanding.targetId_eq] at hevicted
    have htraced := h.prepared hlanding
    have hready := hworking.prepared h hlanding
    rw [append_landing s hlanding]
    refine ⟨older ++ [last.push data], ?_, ?_⟩
    . exact htraced.push hready hlanding.active hlanding.backs hevicted _
    . exact hready.push hlanding.active hevicted hlanding.appended hlanding.result.2.1 _
  . rcases SegmentLog.append_rejected hfits .done with ⟨e, herror⟩
    unfold Lifetime.append
    rw [herror]
    exact ⟨segs, h.advance rfl rfl (Nat.le_refl _), hworking.tracks, hworking.active⟩

theorem inv_rotate (h : s.Traced segs) (hworking : s.Working l segs)
    : { s with process := .up (l.rotate .done).1, opened := s.opened + 1 }.Inv := by
  rcases hworking.tracks.rotate with ⟨mid, hclosing, htracks⟩
  rcases l.rotate_done with ⟨path, files, hrotate⟩
  have htraced := (h.contents hclosing.contents).add (freshSegment l.nextSegId)
  refine ⟨_, htraced.advance rfl rfl (Nat.le_succ _), htracks, ?_⟩
  intro a ha
  rw [hrotate] at ha
  rw [← Option.some.inj ha]
  intro x hx hid
  exact fresh_active h hworking.tracks.fresh hx hid

theorem inv_down {files : Dir} {segs' : List Segment} (h : s.Traced segs)
    (hcontents : segs'.map Segment.contents = segs.map Segment.contents) (hholds : Holds files segs')
    : { s with process := .down files }.Inv :=
  ⟨segs', (h.contents hcontents).advance rfl rfl (Nat.le_refl _), hholds⟩

theorem inv_open {files : Dir} (h : s.Traced segs) (hholds : Holds files segs) (config : Config)
    : { s with process := .up (SegmentLog.open config files) }.Inv := by
  have htraced := h.contents (recovered_contents segs)
  refine ⟨_, htraced.advance rfl rfl (Nat.le_refl _), hholds.open_tracks config, ?_⟩
  intro a ha
  contradiction

-- The receipts of an evicted segment point to nothing from now on, those of the others to what they did.
theorem Traced.evict {seg : Segment} {newer : List Segment} (h : s.Traced (older ++ seg :: newer)) (p : Process)
    : { s with
        process := p
        evicted := if s.receipts.any (·.2.segmentId = seg.id) then seg.id :: s.evicted else s.evicted }.Traced
          (older ++ newer) := by
  constructor
  . exact ⟨h.unique.segment, h.unique.record⟩
  . intro x hx hnot
    dsimp only at hnot
    have hne : x.2.segmentId ≠ seg.id := by
      intro heq
      rw [if_pos] at hnot
      . simp [heq] at hnot
      . rw [List.any_eq_true]
        exact ⟨x, hx, decide_eq_true heq⟩
    have hevicted : x.2.segmentId ∉ s.evicted := by
      split at hnot
      . exact fun hmem => hnot (List.mem_cons_of_mem _ hmem)
      . exact hnot
    rcases h.present x hx hevicted with ⟨other, hother, hid, hlt⟩
    refine ⟨other, ?_, hid, hlt⟩
    rw [List.mem_append, List.mem_cons] at hother
    rcases hother with hother | rfl | hother
    . exact List.mem_append_left _ hother
    . exact absurd hid.symm hne
    . exact List.mem_append_right _ hother
  . exact h.opened
  . intro id hid
    dsimp only at hid
    split at hid
    . next hany =>
      rw [List.mem_cons] at hid
      rcases hid with rfl | hid
      . rcases List.any_eq_true.mp hany with ⟨x, hx, heq⟩
        exact ⟨x, hx, of_decide_eq_true heq⟩
      . exact h.evicted id hid
    . exact h.evicted id hid

theorem inv_evict (h : s.Traced segs) (hworking : s.Working l segs) : (s.evict l).Inv := by
  unfold Lifetime.evict
  rcases hworking.tracks.evictOldestClosed with
    ⟨hnone, _⟩ | ⟨older, seg, newer, rfl, hclosed, hsome, htracks⟩
  . rw [hnone]
    exact ⟨segs, h.advance rfl rfl (Nat.le_refl _), hworking.tracks, hworking.active⟩
  . rw [hsome]
    refine ⟨_, h.evict _, htracks, ?_⟩
    intro a ha x hx hid
    have hne := hworking.tracks.active_id_ne hclosed ha
    dsimp only
    rw [hworking.active a ha x hx hid]
    split
    . rw [List.mem_cons, not_or]
      exact ⟨fun hnot => ⟨hne, hnot⟩, fun hnot => hnot.2⟩
    . exact Iff.rfl

end

theorem inv_step {s : Lifetime} {c : LogCall} (h : s.Inv) (hc : s.AvoidsEvicted c) : (s.step c).Inv := by
  rcases s with ⟨process, opened, receipts, evicted⟩
  rcases h with ⟨segs, htraced, hprocess⟩
  cases process with
  | down files =>
    cases c with
    | «open» config => exact inv_open htraced hprocess config
    | append | rotate | close | evictOldestClosed | crash => exact ⟨segs, htraced, hprocess⟩
  | up l =>
    cases c with
    | «open» => exact ⟨segs, htraced, hprocess⟩
    | append data => exact inv_append htraced hprocess hc
    | rotate => exact inv_rotate htraced hprocess
    | close =>
      rcases hprocess.tracks.close with ⟨mid, hclosing, hholds⟩
      exact inv_down htraced hclosing.contents hholds
    | evictOldestClosed => exact inv_evict htraced hprocess
    | crash => exact inv_down htraced rfl hprocess.tracks.holds

theorem not_unique_of_reused {s : Lifetime} {c : LogCall} (h : s.Inv) (hc : ¬s.AvoidsEvicted c)
    : ¬(s.step c).IdsUnique := by
  rcases s with ⟨process, opened, receipts, evicted⟩
  rcases h with ⟨segs, htraced, hprocess⟩
  cases process with
  | down => exact absurd trivial hc
  | up l =>
    cases c with
    | «open» | rotate | close | evictOldestClosed | crash => exact absurd trivial hc
    | append data =>
      rcases Classical.not_imp.mp hc with ⟨hadmits, hmem⟩
      rw [not_not] at hmem
      rcases hprocess.tracks.landing hadmits with ⟨l₁, older, last, a, hlanding⟩
      rw [hlanding.targetId_eq] at hmem
      rcases htraced.evicted a.id hmem with ⟨x, hx, hid⟩
      have hactive := (hprocess.prepared htraced hlanding).active a hlanding.active x hx hid
      intro hunique
      have hsegment := hunique.segment
      unfold Lifetime.step at hsegment
      dsimp only at hsegment
      rw [append_landing _ hlanding] at hsegment
      have hsame := hsegment x (List.mem_append_left _ hx) _
        (List.mem_append_right _ (List.mem_singleton_self _)) hid
      exact hactive.mp hsame hmem

/--
Along a run, no id is ever given to two segments with records exactly if no record ever goes to the id of a
segment that had records and was evicted.
-/
theorem ids_unique_iff_avoids_evicted (calls : List LogCall)
    : Run.Always step IdsUnique start calls ↔ Run.Guarded step AvoidsEvicted start calls := by
  apply Run.always_iff_guarded inv_start
  . intro s c h hc
    exact inv_step h hc
  . rintro s ⟨segs, htraced, _⟩
    exact htraced.unique
  . intro s c h hc
    exact not_unique_of_reused h hc

-- The only segment with records is evicted before the log is opened again.
def reusingRun : List LogCall :=
  [.open ⟨16, 16, ⟨64⟩⟩, .append [1], .close, .open ⟨16, 16, ⟨64⟩⟩, .evictOldestClosed, .close,
    .open ⟨16, 16, ⟨64⟩⟩, .append [2]]

theorem reusingRun_receipts
    : (Run.exec step start reusingRun).receipts = [(1, ⟨0, 0, 0, 5⟩), (2, ⟨0, 0, 0, 5⟩)] := by
  decide

theorem reusingRun_reuses : ¬Run.Always step IdsUnique start reusingRun := by
  intro h
  have hunique := h.last.segment
  rw [reusingRun_receipts] at hunique
  have hsame := hunique (1, ⟨0, 0, 0, 5⟩) (by simp) (2, ⟨0, 0, 0, 5⟩) (by simp) rfl
  contradiction

-- The log is opened on a file with an id as high as that of any evicted segment with records.
def OpensAbove (s : Lifetime) (c : LogCall) : Prop :=
  match s.process, c with
  | .down files, .open _ => ∀ id ∈ s.evicted, ∃ name ∈ files, ∃ id', parseSegmentId name = some id' ∧ id ≤ id'
  | _, _ => True

-- The ids that are still to come are not those of evicted segments.
structure Above (l : SegmentLog) (evicted : List Nat) : Prop where
  next : ∀ id ∈ evicted, id < l.nextSegId
  active : ∀ a, l.active = some a → a.id ∉ evicted

theorem Above.targetId {l : SegmentLog} {evicted : List Nat} (h : Above l evicted) (recordSizeOnDisk : Nat)
    : l.targetId recordSizeOnDisk ∉ evicted := by
  have hnext : l.nextSegId ∉ evicted := fun hmem => Nat.lt_irrefl _ (h.next _ hmem)
  unfold SegmentLog.targetId
  split
  . exact hnext
  . next a ha =>
    split
    . exact hnext
    . exact h.active a ha

theorem Above.rotate {l : SegmentLog} {evicted : List Nat} (h : Above l evicted)
    : Above (l.rotate .done).1 evicted := by
  rcases l.rotate_done with ⟨path, files, hrotate⟩
  rw [hrotate]
  constructor
  . intro id hid
    exact Nat.lt_succ_of_lt (h.next id hid)
  . intro a ha hmem
    rw [← Option.some.inj ha] at hmem
    exact Nat.lt_irrefl _ (h.next _ hmem)

theorem Above.open {files : Dir} {segs : List Segment} (h : Holds files segs) (config : Config)
    {evicted : List Nat}
    (hfiles : ∀ id ∈ evicted, ∃ name ∈ files, ∃ id', parseSegmentId name = some id' ∧ id ≤ id')
    : Above (SegmentLog.open config files) evicted := by
  constructor
  . intro id hid
    rcases hfiles id hid with ⟨name, hname, id', hparse, hle⟩
    rcases h.mem_iff.mp hname with ⟨seg, hseg, rfl⟩
    have hfresh := (h.open config).2.1 seg hseg
    rw [Segment.path, parseSegmentId_segmentPath, Option.some.injEq] at hparse
    omega
  . intro a ha
    contradiction

theorem Above.append {l : SegmentLog} {segs : List Segment} {evicted : List Nat} (h : Above l evicted)
    (htracks : Tracks l segs) (data : List UInt8) : Above (l.append data .done).1 evicted := by
  by_cases hadmits : l.Admits data
  . rcases htracks.landing hadmits with ⟨l₁, older, last, a, hlanding⟩
    rcases hlanding.result with ⟨_, hactive, hnext, _⟩
    have hready : Above l₁ evicted := by
      rcases hlanding.prepared with ⟨_, hl, _⟩ | ⟨_, hl, _⟩
      . rw [hl]
        exact h
      . rw [hl]
        exact h.rotate
    constructor
    . rw [hnext]
      exact hready.next
    . intro a' ha'
      rw [hactive, Option.some.injEq] at ha'
      rw [← ha']
      exact hready.active a hlanding.active
  . rcases SegmentLog.append_rejected hadmits .done with ⟨e, herror⟩
    rw [herror]
    exact h

theorem append_process (s : Lifetime) (l : SegmentLog) (data : List UInt8)
    : (s.append l data).process = .up (l.append data .done).1
        ∧ (s.append l data).evicted = s.evicted := by
  unfold Lifetime.append
  split
  . next happend =>
    rw [happend]
    exact ⟨rfl, rfl⟩
  . next happend =>
    rw [happend]
    exact ⟨rfl, rfl⟩

theorem above_evict {s : Lifetime} {l l' : SegmentLog} {segs : List Segment} (h : Above l s.evicted)
    (htracks : Tracks l segs) (hl' : (s.evict l).process = .up l') : Above l' (s.evict l).evicted := by
  unfold Lifetime.evict at hl' ⊢
  rcases htracks.evictOldestClosed with ⟨hnone, _⟩ | ⟨older, seg, newer, rfl, hclosed, hsome, _⟩
  . rw [hnone] at hl' ⊢
    rw [← Process.up.inj hl']
    exact h
  . rw [hsome] at hl' ⊢
    rw [← Process.up.inj hl']
    have hseg := htracks.fresh seg (by simp)
    dsimp only
    split
    . constructor
      . intro id hid
        rcases List.mem_cons.mp hid with rfl | hid
        . exact hseg
        . exact h.next id hid
      . intro a ha hmem
        rcases List.mem_cons.mp hmem with heq | hmem
        . exact htracks.active_id_ne hclosed ha heq
        . exact h.active a ha hmem
    . exact ⟨h.next, h.active⟩

def InvAbove (s : Lifetime) : Prop :=
  s.Inv ∧ ∀ l, s.process = .up l → Above l s.evicted

theorem InvAbove.avoidsEvicted {s : Lifetime} (h : s.InvAbove) (c : LogCall) : s.AvoidsEvicted c := by
  rcases s with ⟨process, opened, receipts, evicted⟩
  cases process with
  | down => trivial
  | up l =>
    cases c with
    | append data => exact fun _ => (h.2 l rfl).targetId _
    | «open» | rotate | close | evictOldestClosed | crash => trivial

theorem invAbove_step {s : Lifetime} {c : LogCall} (h : s.InvAbove) (hc : s.OpensAbove c)
    : (s.step c).InvAbove := by
  refine ⟨inv_step h.1 (h.avoidsEvicted c), ?_⟩
  rcases s with ⟨process, opened, receipts, evicted⟩
  rcases h with ⟨⟨segs, _, hprocess⟩, habove⟩
  intro l' hl'
  cases process with
  | down files =>
    cases c with
    | «open» config =>
      rw [← Process.up.inj hl']
      exact Above.open hprocess config hc
    | append | rotate | close | evictOldestClosed | crash => contradiction
  | up l =>
    have hl := habove l rfl
    cases c with
    | «open» =>
      rw [← Process.up.inj hl']
      exact hl
    | append data =>
      unfold Lifetime.step at hl' ⊢
      dsimp only at hl' ⊢
      rcases append_process ⟨.up l, opened, receipts, evicted⟩ l data with ⟨hlog, hevicted⟩
      rw [hlog] at hl'
      rw [hevicted, ← Process.up.inj hl']
      exact hl.append hprocess.tracks data
    | rotate =>
      rw [← Process.up.inj hl']
      exact hl.rotate
    | evictOldestClosed => exact above_evict hl hprocess.tracks hl'
    | close | crash => contradiction

/--
It takes an open to give an id away again: a log that always finds a file with an id as high as that of any
evicted segment with records never does.
-/
theorem ids_unique_of_opens_above (calls : List LogCall) (h : Run.Guarded step OpensAbove start calls)
    : Run.Always step IdsUnique start calls := by
  have hstart : start.InvAbove := by
    refine ⟨inv_start, ?_⟩
    intro l hl
    contradiction
  have hunique : ∀ s, InvAbove s → IdsUnique s := by
    rintro s ⟨⟨segs, htraced, _⟩, _⟩
    exact htraced.unique
  have halways : Run.Always step InvAbove start calls :=
    Run.always_of_guarded hstart (fun _ _ hs hc => invAbove_step hs hc) h
  exact halways.mono hunique

end Lifetime

end Athar.Storage
