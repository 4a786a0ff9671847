import Mathlib.Data.Multiset.AddSub
import Mathlib.Data.Multiset.Filter

/-!
This module contains queues that have owners. Elements are taken from the front of any of the queues, so
the elements of one owner come out in an order that is not known, but each of them comes out once.
-/

namespace Queues

variable {ν β : Type*} [DecidableEq ν]

def waiting (owner : ν) (queues : List (ν × List β)) : List β :=
  (queues.filter (·.1 = owner)).flatMap Prod.snd

-- The element at the front of a queue, with its owner, and the queues without it.
def take (k : Nat) (queues : List (ν × List β)) : Option ((ν × β) × List (ν × List β)) :=
  match queues[k]? with
  | some (owner, x :: rest) => some ((owner, x), queues.set k (owner, rest))
  | _ => none

def takenBy (owner : ν) (taken : List (ν × β)) : List β :=
  (taken.filter (·.1 = owner)).map Prod.snd

theorem waiting_append (owner : ν) (queues more : List (ν × List β))
    : waiting owner (queues ++ more) = waiting owner queues ++ waiting owner more := by
  simp [waiting]

theorem waiting_cons (owner : ν) (queue : ν × List β) (queues : List (ν × List β))
    : waiting owner (queue :: queues)
        = (if queue.1 = owner then queue.2 else []) ++ waiting owner queues := by
  unfold waiting
  by_cases h : queue.1 = owner <;> simp [h]

theorem takenBy_append (owner : ν) (taken more : List (ν × β))
    : takenBy owner (taken ++ more) = takenBy owner taken ++ takenBy owner more := by
  simp [takenBy]

theorem takenBy_singleton (owner : ν) (x : ν × β)
    : takenBy owner [x] = if x.1 = owner then [x.2] else [] := by
  by_cases h : x.1 = owner <;> simp [takenBy, h]

omit [DecidableEq ν] in
theorem take_eq_some {k : Nat} {queues rest : List (ν × List β)} {x : ν × β}
    (h : take k queues = some (x, rest))
    : ∃ before elements after, queues = before ++ (x.1, x.2 :: elements) :: after
        ∧ rest = before ++ (x.1, elements) :: after := by
  unfold take at h
  split at h
  . next owner y elements hqueue =>
    rcases List.getElem?_eq_some_iff.mp hqueue with ⟨hk, hget⟩
    have hsplit : ∃ before after, queues = before ++ queues[k] :: after ∧ before.length = k
        ∧ queues.set k (owner, elements) = before ++ (owner, elements) :: after :=
      List.exists_of_set hk
    rcases hsplit with ⟨before, after, hqueues, _, hset⟩
    cases h
    rw [hget] at hqueues
    exact ⟨before, elements, after, hqueues, hset⟩
  . contradiction

/--
What is taken no longer waits, and everything else does.
-/
theorem waiting_of_take {k : Nat} {queues rest : List (ν × List β)} {x : ν × β}
    (h : take k queues = some (x, rest)) (owner : ν)
    : (waiting owner queues : Multiset β) = takenBy owner [x] + waiting owner rest := by
  rcases take_eq_some h with ⟨before, elements, after, rfl, rfl⟩
  rw [waiting_append, waiting_append, waiting_cons, waiting_cons, takenBy_singleton]
  dsimp only
  split
  . rw [Multiset.coe_add, Multiset.coe_eq_coe]
    exact List.perm_middle
  . simp

end Queues
