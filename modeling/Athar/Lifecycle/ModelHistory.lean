import Athar.Lifecycle.Instance
import Athar.Lifecycle.Sole
import Athar.Shim.Impl.EventMapper

/-!
This module connects the states of a model record, as the shim observes them, with the lifecycle that
the engine makes of the observations. The first terminal state decides, then whether the record was
deleted.
-/

namespace Athar

open LifecycleStore LawfulLifecycleStore LifecycleEngine Shim EventMapper

-- The states that a record is created in and updated to, and whether it is deleted in the end.
structure ModelHistory where
  created : Option String
  updates : List (Option String)
  deleted : Bool
  deriving DecidableEq, Repr

-- The verb of a state that ends the record, whatever the case of its letters.
def terminalVerb (state : Option String) : Option String :=
  state.bind fun s => defaultTerminalMap.lookup (strtolower s)

-- The event types of the updates from a state on.
def updateTypes (previous : Option String) : List (Option String) → List String
  | [] => []
  | current :: rest => eventType "payment" .updated current previous [] :: updateTypes current rest

namespace ModelHistory

variable (h : ModelHistory)

def eventTypes : List String :=
  eventType "payment" .created h.created none [] :: updateTypes h.created h.updates
    ++ if h.deleted then [eventType "payment" .deleted (h.updates.getLastD h.created) none []] else []

-- The state and the closure that the history stands for.
def status : Option (State × Closure) :=
  match (h.created :: h.updates).findSome? terminalVerb with
  | some verb => transitionFor .payment ("payment." ++ verb)
  | none =>
    if h.deleted then
      some (.cancelled, .closed)
    else
      some (if h.updates = [] then .started else .processing, .open)

end ModelHistory

theorem eventType_created (state : Option String)
    : eventType "payment" .created state none []
        = match terminalVerb state with
          | some verb => "payment." ++ verb
          | none => "payment.create" := by
  rfl

-- A change from a state that does not end the record is never taken for a repetition.
theorem eventType_updated {previous : Option String} (hprevious : terminalVerb previous = none)
    (current : Option String)
    : eventType "payment" .updated current previous []
        = match terminalVerb current with
          | some verb => "payment." ++ verb
          | none => "payment.process" := by
  unfold eventType
  dsimp only
  have hverb : ((current.map strtolower).bind fun s =>
      if current.map strtolower ≠ previous.map strtolower then defaultTerminalMap.lookup s else none)
        = terminalVerb current := by
    cases current with
    | none => rfl
    | some s =>
      rw [Option.map_some, Option.bind_some]
      split
      . rfl
      . next hsame =>
        rw [← hprevious]
        cases previous with
        | none => simp at hsame
        | some p =>
          have heq : strtolower s = strtolower p := by simpa using hsame
          simp [terminalVerb, heq]
  rw [← hverb]
  rfl

-- Every verb of the map is one that closes a payment.
theorem terminalVerb_closes {state : Option String} {verb : String}
    (h : terminalVerb state = some verb)
    : ∃ target : State × Closure, transitionFor .payment ("payment." ++ verb) = some target
        ∧ target.2.isClosed = true := by
  rcases Option.bind_eq_some_iff.mp h with ⟨s, _, hlookup⟩
  have hcloses : ∀ entry ∈ defaultTerminalMap,
      (transitionFor .payment ("payment." ++ entry.2)).any (·.2.isClosed) = true := by
    decide +kernel
  rcases List.lookup_eq_some_iff.mp hlookup with ⟨before, after, heq, _⟩
  have hmem : (strtolower s, verb) ∈ defaultTerminalMap := by
    rw [heq]
    simp
  have htarget := hcloses _ hmem
  cases htransition : transitionFor .payment ("payment." ++ verb) with
  | none =>
    rw [htransition] at htarget
    contradiction
  | some target =>
    rw [htransition] at htarget
    exact ⟨target, rfl, htarget⟩

-- The updates from a state that does not end the record, on an open payment.
theorem foldl_updateTypes {previous : Option String} (hprevious : terminalVerb previous = none)
    (updates : List (Option String)) {current : State × Closure} (hopen : current.2 = .open)
    : some ((updateTypes previous updates).foldl settle current)
        = match updates.findSome? terminalVerb with
          | some verb => transitionFor .payment ("payment." ++ verb)
          | none => some (if updates = [] then current else (.processing, .open)) := by
  have hopen' : ¬current.2.isClosed := by
    rw [hopen]
    decide
  induction updates generalizing previous current with
  | nil => rfl
  | cons state updates ih =>
    rw [updateTypes, eventType_updated hprevious, List.foldl_cons, settle_of_open hopen',
      List.findSome?_cons]
    cases hverb : terminalVerb state with
    | some verb =>
      rcases terminalVerb_closes hverb with ⟨target, htransition, hclosed⟩
      dsimp only
      rw [htransition, Option.getD_some, foldl_settle_of_closed hclosed]
    | none =>
      have hprocess : transitionFor .payment "payment.process" = some (.processing, .open) := rfl
      dsimp only
      rw [hprocess, Option.getD_some, ih hverb rfl (by decide)]
      cases updates.findSome? terminalVerb with
      | some verb => rfl
      | none => simp

theorem fromEventType_payment (verb : String)
    : LifecycleType.fromEventType ("payment." ++ verb) = some .payment := by
  unfold LifecycleType.fromEventType
  rw [if_pos]
  rw [List.isPrefixOf_iff_prefix, String.toList_append]
  exact List.prefix_append _ _

namespace ModelHistory

-- What the machine of the engine makes of the event types of a history.
def settled (h : ModelHistory) : State × Closure :=
  (h.eventTypes.tail).foldl settle
    ((transitionFor .payment (h.eventTypes.headD "")).getD (.started, .open))

theorem settled_of_terminal {h : ModelHistory} {verb : String}
    (hverb : terminalVerb h.created = some verb) : some h.settled = h.status := by
  rcases terminalVerb_closes hverb with ⟨target, htransition, hclosed⟩
  have hfirst : h.eventTypes.headD "" = "payment." ++ verb := by
    rw [eventTypes, eventType_created, hverb]
    rfl
  unfold settled
  rw [hfirst, htransition, Option.getD_some, foldl_settle_of_closed hclosed, status,
    List.findSome?_cons, hverb]
  exact htransition.symm

theorem settled_of_ongoing {h : ModelHistory} (hongoing : terminalVerb h.created = none)
    : some h.settled = h.status := by
  have hcreate : transitionFor .payment "payment.create" = some (.started, .open) := rfl
  have hcancel : transitionFor .payment "payment.cancel" = some (.cancelled, .closed) := rfl
  have hopen : (State.started, Closure.open).2 = .open := rfl
  have hupdates := foldl_updateTypes hongoing h.updates hopen
  unfold settled status eventTypes
  rw [eventType_created, hongoing, List.cons_append, List.headD_cons, List.tail_cons, hcreate,
    Option.getD_some, List.foldl_append, List.findSome?_cons, hongoing]
  generalize (updateTypes h.created h.updates).foldl settle (.started, .open) = updated at hupdates
  dsimp only
  cases hverb : h.updates.findSome? terminalVerb with
  | some verb =>
    rw [hverb] at hupdates
    have htransition : some updated = transitionFor .payment ("payment." ++ verb) := hupdates
    rcases List.exists_of_findSome?_eq_some hverb with ⟨state, _, hstate⟩
    rcases terminalVerb_closes hstate with ⟨target, htarget, hclosed⟩
    rw [htarget, Option.some.injEq] at htransition
    rw [htransition, foldl_settle_of_closed hclosed]
    exact htarget.symm
  | none =>
    rw [hverb] at hupdates
    dsimp only at hupdates ⊢
    rw [Option.some.injEq] at hupdates
    subst hupdates
    cases h.deleted with
    | false => split <;> rfl
    | true => split <;> rfl

theorem settled_eq_status (h : ModelHistory) : some h.settled = h.status := by
  cases hverb : terminalVerb h.created with
  | some verb => exact settled_of_terminal hverb
  | none => exact settled_of_ongoing hverb

theorem fromEventType_first (h : ModelHistory)
    : LifecycleType.fromEventType (h.eventTypes.headD "") = some .payment := by
  rw [eventTypes, eventType_created]
  cases terminalVerb h.created with
  | some verb => exact fromEventType_payment verb
  | none => exact fromEventType_payment "create"

end ModelHistory

/--
The events of a model record, all about one resource and delivered in order to an empty store, make one
lifecycle, whose state and closure are those that the history of the record stands for.
-/
theorem lifecycle_of_history (backend : Backend) (h : ModelHistory) {r : String}
    {arrivals : List (Event × Nat)} (htypes : arrivals.map (·.1.eventType) = h.eventTypes)
    (hresource : ∀ a ∈ arrivals, a.1.resourceId = some r)
    : ∃ lc, get (Run.exec EngineCall.step (DynStore.empty backend)
            (arrivals.map fun a => .apply a.1 a.2)) lc.id = some lc
        ∧ (∀ id, get (Run.exec EngineCall.step (DynStore.empty backend)
            (arrivals.map fun a => .apply a.1 a.2)) id ≠ none → id = lc.id)
        ∧ lc.resourceId = some r
        ∧ some (lc.state, lc.closure) = h.status := by
  cases arrivals with
  | nil => contradiction
  | cons arrival arrivals =>
    have hfirst : arrival.1.eventType = h.eventTypes.headD "" := by
      rw [← htypes]
      rfl
    have hrest : arrivals.map (·.1.eventType) = h.eventTypes.tail := by
      rw [← htypes]
      rfl
    have hpayment : LifecycleType.fromEventType arrival.1.eventType = some .payment := by
      rw [hfirst]
      exact h.fromEventType_first
    rcases (unused_empty backend).apply hpayment (hresource arrival List.mem_cons_self) arrival.2
      with ⟨lc, hsole, hstatus⟩
    rcases hsole.run (fun a ha => hresource a (List.mem_cons_of_mem _ ha)) with ⟨lc', hsole', hstatus'⟩
    refine ⟨lc', hsole'.stored, hsole'.only, hsole'.resource, ?_⟩
    rw [← h.settled_eq_status, ModelHistory.settled, ← hfirst, ← hrest, ← hstatus, ← hstatus']
    rfl

section Instances

-- A payment that is paid, refunded and deleted.
def paidHistory : ModelHistory := ⟨some "Draft", [some "pending", some "PAID", some "refunded"], true⟩

def paidArrivals : List (Event × Nat) :=
  [(paymentEvent "payment.create" "e1" "tnt_a" "pay_1", 1),
    (paymentEvent "payment.process" "e2" "tnt_a" "pay_1", 2),
    (paymentEvent "payment.settle" "e3" "tnt_a" "pay_1", 3),
    (paymentEvent "payment.reverse" "e4" "tnt_a" "pay_1", 4),
    (paymentEvent "payment.cancel" "e5" "tnt_a" "pay_1", 5)]

theorem lifecycle_of_paidHistory
    : ∃ lc, get (Run.exec EngineCall.step (DynStore.empty .sqlite)
            (paidArrivals.map fun a => .apply a.1 a.2)) lc.id = some lc
        ∧ (∀ id, get (Run.exec EngineCall.step (DynStore.empty .sqlite)
            (paidArrivals.map fun a => .apply a.1 a.2)) id ≠ none → id = lc.id)
        ∧ lc.resourceId = some "pay_1"
        ∧ some (lc.state, lc.closure) = paidHistory.status :=
  lifecycle_of_history .sqlite paidHistory (by decide +kernel) (by decide)

end Instances

end Athar
