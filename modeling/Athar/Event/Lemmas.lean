import Athar.Event.Impl

/-!
This module contains what the structural checks of an event amount to: which of its strings must be
known, and the range of its trust.
-/

namespace Athar

-- Neither empty nor a placeholder.
def Known (id : String) : Prop :=
  id ≠ "" ∧ id ∉ RESERVED_UNKNOWN_TOKENS

instance (id : String) : Decidable (Known id) := inferInstanceAs (Decidable (_ ∧ _))

def KnownOrAbsent (id : Option String) : Prop :=
  ∀ s ∈ id, Known s

instance (id : Option String) : Decidable (KnownOrAbsent id) :=
  inferInstanceAs (Decidable (∀ s ∈ id, Known s))

theorem checkNonempty_eq_ok_iff {field value : String}
    : checkNonempty field value = .ok () ↔ Known value := by
  unfold checkNonempty Known
  simp only [String.isEmpty_iff]
  split
  . next h => simp [h]
  . next h =>
    split
    . next h' => simp [h']
    . next h' => simp [h, h']

theorem checkActor_eq_ok_iff {field : String} {actor : ActorRef}
    : checkActor field actor = .ok () ↔ KnownOrAbsent actor.id := by
  unfold checkActor KnownOrAbsent
  cases actor.id with
  | none => simp
  | some id =>
    simp only [Option.mem_some_iff, forall_eq', Known, String.isEmpty_iff]
    split
    . next h => simp [h]
    . next h =>
      split
      . next h' => simp [h']
      . next h' => simp [h, h']

namespace Event

-- The actors whose ids are checked.
def actors (event : Event) : List ActorRef :=
  event.actor.toList ++ event.onBehalfOf.toList ++ event.beneficiary.toList
    ++ event.resourceOwner.toList ++ (event.authenticatedPrincipal.map (·.actor)).toList

theorem checkActor?_eq_ok_iff {field : String} {actor : Option ActorRef}
    : checkActor? field actor = .ok () ↔ ∀ a ∈ actor.toList, KnownOrAbsent a.id := by
  cases actor with
  | none => simp [checkActor?]
  | some actor => simp [checkActor?, checkActor_eq_ok_iff]

theorem bind_eq_ok_iff {ε : Type} {check : Except ε Unit} {rest : Except ε Unit}
    : (check >>= fun _ => rest) = .ok () ↔ check = .ok () ∧ rest = .ok () := by
  cases check with
  | error e => simp [bind, Except.bind]
  | ok u => simp [bind, Except.bind]

theorem validate_eq_ok_iff {event : Event}
    : event.validate = .ok ()
        ↔ event.schemaVersion = SCHEMA_VERSION
          ∧ (∀ s ∈ [event.eventId, event.eventType, event.tenantId, event.timestamp,
              event.receivedAt], Known s)
          ∧ (∀ a ∈ event.actors, KnownOrAbsent a.id)
          ∧ 0 ≤ event.trust.confidence ∧ event.trust.confidence ≤ 1 := by
  have hrange : (if ¬(0 ≤ event.trust.confidence ∧ event.trust.confidence ≤ 1) then
        throw (.confidenceOutOfRange "trust.confidence" event.trust.confidence)
      else pure () : Except ValidationError Unit) = .ok ()
      ↔ 0 ≤ event.trust.confidence ∧ event.trust.confidence ≤ 1 := by
    split
    . next h =>
      apply iff_of_false _ h
      rintro ⟨⟩
    . next h => exact iff_of_true rfl (not_not.mp h)
  unfold validate
  dsimp only
  split
  . next hversion =>
    apply iff_of_false
    . rintro ⟨⟩
    . intro h
      exact hversion h.1
  . next hversion =>
    simp only [bind_eq_ok_iff, checkNonempty_eq_ok_iff, checkActor?_eq_ok_iff, hrange, actors,
      List.forall_mem_append, List.forall_mem_cons, List.not_mem_nil, false_imp_iff, implies_true,
      not_not.mp hversion, and_true, true_and, and_assoc]

end Event

end Athar
