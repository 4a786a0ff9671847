import Athar.Lifecycle.Calls

/-!
This module contains what a second delivery of an event does to the lifecycles. The engine does not
look for the event before it applies it: a lifecycle that is still open gets it again, only a closed
one keeps its events and its state. An event that was processed never starts a lifecycle again, since
no key is ever given up.
-/

namespace Athar

open LifecycleStore LawfulLifecycleStore LifecycleEngine

-- The same event, but for the time at which the daemon received it.
def Event.Redelivers (event old : Event) : Prop :=
  event = { old with receivedAt := event.receivedAt }

def Lifecycle.projection (lc : Lifecycle)
    : List String × List InferenceTier × State × Closure :=
  (lc.eventIds, lc.tiers, lc.state, lc.closure)

namespace Event.Redelivers

theorem startKeys_eq {event old : Event} (h : event.Redelivers old)
    : startKeys event = startKeys old := by
  rw [h]
  rfl

theorem firstMatch_eq {σ : Type} [LifecycleStore σ] {event old : Event} (h : event.Redelivers old)
    (s : σ) : firstMatch s event = firstMatch s old := by
  rw [h]
  rfl

end Event.Redelivers

section Redelivery

variable {σ : Type} [LifecycleStore σ]

def Unchanged (s s' : σ) : Prop :=
  ∀ id, (get s' id).map Lifecycle.projection = (get s id).map Lifecycle.projection

def NoDuplicates (s : σ) : Prop :=
  ∀ id lc, get s id = some lc → lc.eventIds.Nodup

theorem NoDuplicates.of_get {s : σ} (h : NoDuplicates s) (id : String)
    : (get s id).all (fun lc => decide lc.eventIds.Nodup) = true := by
  cases hget : get s id with
  | none => rfl
  | some lc => exact decide_eq_true (h id lc hget)

-- The lifecycle that the lookups find for an event, if any, is closed.
def HitsClosed (s : σ) (event : Event) : Prop :=
  ∀ id tier lc, firstMatch s event = some (id, tier) → get s id = some lc →
    lc.closure.isClosed = true

variable [LawfulLifecycleStore σ]

-- What holds of the lifecycles after some events, when no redelivery hit an open one.
structure Delivered (processed : List Event) (s : σ) : Prop where
  store : Inv s
  ids : ∀ id lc, get s id = some lc → ∃ e ∈ processed, id = "lc_" ++ e.eventId
  listed : ∀ id lc, get s id = some lc → ∀ x ∈ lc.eventIds, ∃ e ∈ processed, e.eventId = x
  noDuplicates : NoDuplicates s
  matched : ∀ e ∈ processed, startKeys e ≠ none → firstMatch s e ≠ none

namespace Delivered

variable {processed : List Event} {s s' : σ}

theorem write (h : Delivered processed s) {event : Event} (new : Lifecycle) (hinv : Inv s')
    (hget : ∀ id, get s' id = if id = new.id then some new else get s id) (hkeeps : Keeps s s')
    (hid : ∃ e ∈ processed ++ [event], new.id = "lc_" ++ e.eventId)
    (hlisted : ∀ x ∈ new.eventIds, ∃ e ∈ processed ++ [event], e.eventId = x)
    (hnodup : new.eventIds.Nodup)
    (hmatched : startKeys event ≠ none → firstMatch s' event ≠ none)
    : Delivered (processed ++ [event]) s' := by
  constructor
  . exact hinv
  . intro id lc hlc
    rw [hget] at hlc
    split at hlc
    . next heq =>
      rw [heq]
      exact hid
    . rcases h.ids id lc hlc with ⟨e, he, heq⟩
      exact ⟨e, List.mem_append_left _ he, heq⟩
  . intro id lc hlc
    rw [hget] at hlc
    split at hlc
    . rw [← Option.some.inj hlc]
      exact hlisted
    . intro x hx
      rcases h.listed id lc hlc x hx with ⟨e, he, heq⟩
      exact ⟨e, List.mem_append_left _ he, heq⟩
  . intro id lc hlc
    rw [hget] at hlc
    split at hlc
    . rw [← Option.some.inj hlc]
      exact hnodup
    . exact h.noDuplicates id lc hlc
  . intro e he hkeys
    rw [List.mem_append, List.mem_singleton] at he
    rcases he with he | rfl
    . exact hkeeps.firstMatch (h.matched e he hkeys)
    . exact hmatched hkeys

theorem unbound (h : Delivered processed s) {event : Event}
    (hmatched : startKeys event ≠ none → firstMatch s event ≠ none)
    : Delivered (processed ++ [event]) s := by
  constructor
  . exact h.store
  . intro id lc hlc
    rcases h.ids id lc hlc with ⟨e, he, heq⟩
    exact ⟨e, List.mem_append_left _ he, heq⟩
  . intro id lc hlc x hx
    rcases h.listed id lc hlc x hx with ⟨e, he, heq⟩
    exact ⟨e, List.mem_append_left _ he, heq⟩
  . exact h.noDuplicates
  . intro e he hkeys
    rw [List.mem_append, List.mem_singleton] at he
    rcases he with he | rfl
    . exact h.matched e he hkeys
    . exact hmatched hkeys

theorem get_fresh (h : Delivered processed s) {eventId : String}
    (hfresh : eventId ∉ processed.map (·.eventId)) : get s ("lc_" ++ eventId) = none := by
  cases hget : get s ("lc_" ++ eventId) with
  | none => rfl
  | some lc =>
    rcases h.ids _ lc hget with ⟨e, he, hid⟩
    exact absurd (List.mem_map.mpr ⟨e, he, (lc_append_inj hid).symm⟩) hfresh

omit [LawfulLifecycleStore σ] in
-- A lifecycle that an event starts is found under a key of the event.
theorem firstMatch_of_created {event : Event} {lct : LifecycleType} {rid key : Option String}
    (hkeys : startKeys event = some (lct, rid, key))
    (hresource : ∀ r, rid = some r → findByResource s' r ≠ none)
    (hbusinessKey : ∀ k, key = some k → findByBusinessKey s' k ≠ none)
    : firstMatch s' event ≠ none := by
  rcases startKeys_spec hkeys with ⟨hrid, hkey, hsome⟩
  intro hnone
  rw [firstMatch_eq_none_iff] at hnone
  cases rid with
  | some r =>
    have := hnone .resourceId (by decide)
    rw [lookupTier, hrid r rfl] at this
    exact hresource r rfl this
  | none =>
    rcases Option.ne_none_iff_exists'.mp (hsome rfl) with ⟨k, rfl⟩
    cases hkey k rfl with
    | inl hbusiness =>
      have := hnone .businessId (by decide)
      rw [lookupTier, hbusiness] at this
      exact hbusinessKey k rfl this
    | inr hoperation =>
      have := hnone .explicit (by decide)
      rw [lookupTier, hoperation] at this
      exact hbusinessKey k rfl this

-- A processed event that comes again starts nothing.
theorem ne_new (h : Delivered processed s) {event old : Event} (hmem : old ∈ processed)
    (hsame : event.Redelivers old) {lct : LifecycleType} {rid key : Option String}
    : correlate s event ≠ .new lct rid key := by
  intro hnew
  have hkeys := startKeys_of_new hnew
  have hnone := firstMatch_of_new hnew
  rw [hsame.startKeys_eq] at hkeys
  rw [hsame.firstMatch_eq] at hnone
  exact h.matched old hmem (by simp [hkeys]) hnone

theorem late (h : Delivered processed s) {event : Event} {id : String} {tier : InferenceTier}
    {lc : Lifecycle} (hcorr : correlate s event = .match' id tier) (hget : get s id = some lc)
    (nowMs : Nat)
    : Delivered (processed ++ [event]) (LifecycleStore.upsert s (lc.withLateEvent event nowMs)) := by
  have hid := get_id h.store hget
  subst hid
  have hrev := lc.withLateEvent_revises event nowMs
  have hfits := fits_of_revises h.store hget hrev
  have hkeeps := keeps_upsert h.store hfits (hrev.of_get hget)
  apply h.write _ (inv_upsert h.store hfits) (get_upsert h.store hfits) hkeeps
  . rcases h.ids _ lc hget with ⟨e, he, heq⟩
    exact ⟨e, List.mem_append_left _ he, heq⟩
  . intro x hx
    rcases h.listed _ lc hget x hx with ⟨e, he, heq⟩
    exact ⟨e, List.mem_append_left _ he, heq⟩
  . exact h.noDuplicates _ lc hget
  . intro _
    apply hkeeps.firstMatch
    rw [firstMatch_of_match hcorr]
    simp

theorem updated (h : Delivered processed s) {event : Event} {id : String} {tier : InferenceTier}
    {lc : Lifecycle} (hcorr : correlate s event = .match' id tier) (hget : get s id = some lc)
    (hfresh : event.eventId ∉ processed.map (·.eventId)) (nowMs : Nat)
    : Delivered (processed ++ [event]) (LifecycleStore.recordEvent
        (LifecycleStore.upsert s (lc.withEvent event tier nowMs)) event.eventId id) := by
  have hid := get_id h.store hget
  subst hid
  have hrev := lc.withEvent_revises event tier nowMs
  have hfits := fits_of_revises h.store hget hrev
  have hkeeps := (keeps_upsert h.store hfits (hrev.of_get hget)).trans
    (keeps_recordEvent _ event.eventId lc.id)
  have hnotListed : event.eventId ∉ lc.eventIds := by
    intro hmem
    rcases h.listed _ lc hget _ hmem with ⟨e, he, heq⟩
    exact hfresh (List.mem_map.mpr ⟨e, he, heq⟩)
  apply h.write (lc.withEvent event tier nowMs) _ _ hkeeps
  . rcases h.ids _ lc hget with ⟨e, he, heq⟩
    exact ⟨e, List.mem_append_left _ he, heq⟩
  . intro x hx
    rw [Lifecycle.withEvent_eventIds, List.mem_append, List.mem_singleton] at hx
    rcases hx with hx | rfl
    . rcases h.listed _ lc hget x hx with ⟨e, he, heq⟩
      exact ⟨e, List.mem_append_left _ he, heq⟩
    . exact ⟨event, by simp, rfl⟩
  . rw [Lifecycle.withEvent_eventIds, ← List.concat_eq_append]
    exact List.Nodup.concat hnotListed (h.noDuplicates _ lc hget)
  . intro _
    apply hkeeps.firstMatch
    rw [firstMatch_of_match hcorr]
    simp
  . exact inv_recordEvent _ _ (inv_upsert h.store hfits)
  . rw [get_recordEvent]
    exact get_upsert h.store hfits

theorem created (h : Delivered processed s) {event : Event} {lct : LifecycleType}
    {rid key : Option String} (hcorr : correlate s event = .new lct rid key)
    (hfresh : event.eventId ∉ processed.map (·.eventId)) (nowMs : Nat)
    : Delivered (processed ++ [event]) (LifecycleStore.recordEvent
        (LifecycleStore.upsert s (Lifecycle.create event lct rid key nowMs)) event.eventId
        ("lc_" ++ event.eventId)) := by
  have hfits := fits_of_new hcorr nowMs
  have hnone := h.get_fresh hfresh
  have hkeeps := (keeps_upsert h.store hfits (by simp [hnone])).trans
    (keeps_recordEvent _ event.eventId ("lc_" ++ event.eventId))
  apply h.write (Lifecycle.create event lct rid key nowMs) _ _ hkeeps
  . exact ⟨event, by simp, rfl⟩
  . intro x hx
    rw [Lifecycle.create_eventIds, List.mem_singleton] at hx
    exact ⟨event, by simp, hx.symm⟩
  . rw [Lifecycle.create_eventIds]
    exact List.nodup_singleton _
  . intro _
    apply firstMatch_of_created (startKeys_of_new hcorr)
    . intro r hr
      rw [findByResource_recordEvent, findByResource_upsert_self h.store hfits hr]
      simp
    . intro k hk
      rw [findByBusinessKey_recordEvent, findByBusinessKey_upsert_self h.store hfits hk]
      simp
  . exact inv_recordEvent _ _ (inv_upsert h.store hfits)
  . rw [get_recordEvent]
    exact get_upsert h.store hfits

theorem apply (h : Delivered processed s) {event : Event} (nowMs : Nat)
    (hevent : event.eventId ∉ processed.map (·.eventId)
      ∨ (∃ old ∈ processed, event.Redelivers old) ∧ HitsClosed s event)
    : Delivered (processed ++ [event]) (LifecycleEngine.apply s event nowMs).1 := by
  have happlied := apply_applied s event nowMs
  generalize LifecycleEngine.apply s event nowMs = result at happlied
  rcases result with ⟨s', outcome⟩
  dsimp only at happlied ⊢
  cases happlied with
  | unbound hmatch hnew =>
    apply h.unbound
    intro hkeys hnone
    rcases Option.ne_none_iff_exists'.mp hkeys with ⟨⟨lct, rid, key⟩, heq⟩
    apply hnew lct rid key
    rw [correlate_eq, hnone, heq]
  | late hcorr hget hclosed => exact h.late hcorr hget nowMs
  | updated hcorr hget hopen =>
    rcases hevent with hfresh | ⟨_, hclosed⟩
    . exact h.updated hcorr hget hfresh nowMs
    . exact absurd (hclosed _ _ _ (firstMatch_of_match hcorr) hget) hopen
  | created hcorr =>
    rcases hevent with hfresh | ⟨⟨old, hmem, hsame⟩, _⟩
    . exact h.created hcorr hfresh nowMs
    . exact absurd hcorr (h.ne_new hmem hsame)

theorem sweep (h : Delivered processed s) (order : IterationOrder) (nowMs : Nat)
    : Delivered processed (StalenessScanner.sweep s order nowMs).1 := by
  rcases StalenessScanner.sweep_spec h.store order nowMs with ⟨hinv, hget, hkeeps⟩
  have heventIds : ∀ lc : Lifecycle, (lc.swept nowMs).eventIds = lc.eventIds := by
    intro lc
    unfold Lifecycle.swept
    split <;> rfl
  constructor
  . exact hinv
  . intro id lc hlc
    rw [hget, Option.map_eq_some_iff] at hlc
    rcases hlc with ⟨old, hold, rfl⟩
    exact h.ids id old hold
  . intro id lc hlc
    rw [hget, Option.map_eq_some_iff] at hlc
    rcases hlc with ⟨old, hold, rfl⟩
    rw [heventIds]
    exact h.listed id old hold
  . intro id lc hlc
    rw [hget, Option.map_eq_some_iff] at hlc
    rcases hlc with ⟨old, hold, rfl⟩
    rw [heventIds]
    exact h.noDuplicates id old hold
  . intro e he hkeys
    exact hkeeps.firstMatch (h.matched e he hkeys)

theorem unchanged (h : Delivered processed s) {event old : Event} (hmem : old ∈ processed)
    (hsame : event.Redelivers old) (hclosed : HitsClosed s event) (nowMs : Nat)
    : Unchanged s (LifecycleEngine.apply s event nowMs).1 := by
  have happlied := apply_applied s event nowMs
  generalize LifecycleEngine.apply s event nowMs = result at happlied
  rcases result with ⟨s', outcome⟩
  dsimp only at happlied ⊢
  cases happlied with
  | unbound => exact fun _ => rfl
  | @late id tier lc hcorr hget _ =>
    have hfits := fits_of_revises h.store (get_self h.store hget)
      (lc.withLateEvent_revises event nowMs)
    intro id'
    rw [get_upsert h.store hfits]
    split
    . next heq =>
      subst heq
      have hid : (lc.withLateEvent event nowMs).id = lc.id := rfl
      rw [hid, get_self h.store hget]
      rfl
    . rfl
  | @updated id tier lc hcorr hget hopen =>
    exact absurd (hclosed id tier lc (firstMatch_of_match hcorr) hget) hopen
  | created hcorr => exact absurd hcorr (h.ne_new hmem hsame)

end Delivered

-- An event that hits an open lifecycle is recorded on it, whether or not it was before.
theorem not_unchanged {s : σ} (h : Inv s) {event : Event} (hopen : ¬HitsClosed s event) (nowMs : Nat)
    : ¬Unchanged s (LifecycleEngine.apply s event nowMs).1 := by
  simp only [HitsClosed, Classical.not_forall] at hopen
  rcases hopen with ⟨id, tier, lc, hfirst, hget, hopen⟩
  have hcorr : correlate s event = .match' id tier := by
    rw [correlate_eq, hfirst]
  have hfits := fits_of_revises h (get_self h hget) (lc.withEvent_revises event tier nowMs)
  have hid : id = (lc.withEvent event tier nowMs).id := (get_id h hget).symm
  intro hunchanged
  have := hunchanged id
  rw [apply_of_open hcorr hget hopen, get_recordEvent, get_upsert h hfits, if_pos hid, hget,
    Option.map_some, Option.map_some, Option.some.injEq] at this
  have hlength := congrArg (·.1.length) this
  simp [Lifecycle.projection] at hlength

end Redelivery

end Athar
