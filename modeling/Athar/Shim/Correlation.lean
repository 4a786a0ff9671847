import Athar.Lib.Grouping
import Athar.Shim.Impl.Middleware
import Athar.Shim.Lemmas.Assoc
import Athar.Shim.Secrets

/-!
This module contains which correlation a frame is given. The correlations are held on one stack that
outlives the requests of a worker, but a frame only sees the innermost one around the call that made it.
So the frames of a worker can be told apart by their correlation id, request by request.
-/

namespace Athar.Shim

open Redact Scopes

-- The correlation id of a frame.
def correlationOf : Json → Option Json
  | .object members =>
    match members.lookup "causality" with
    | some (.object causality) => causality.lookup "correlation_id"
    | _ => none
  | _ => none

section Encoded

-- The text of an integer key has no letter.
theorem lookup_jsonEntries {name : String} (hname : ∃ c ∈ name.toList, c.isDigit = false ∧ c ≠ '-')
    (entries : PhpArray) : (jsonEntries entries).lookup name = (entries.get name).map PhpValue.json := by
  unfold PhpArray.get
  induction entries with
  | nil => rfl
  | cons entry entries ih =>
    rcases entry with ⟨key, value⟩
    rw [jsonEntries, List.lookup_cons, List.lookup_cons, ih]
    have hbeq : (name == key.text) = (PhpKey.string name == key) := by
      cases key with
      | string s =>
        rw [Bool.eq_iff_iff]
        simp [PhpKey.text]
      | int i =>
        have hne : name ≠ i.repr := by
          rintro rfl
          rcases hname with ⟨c, hc, hdigit, hminus⟩
          rcases mem_toString_int hc with h | h
          . rw [h] at hdigit
            contradiction
          . contradiction
        rw [Bool.eq_iff_iff]
        simp [PhpKey.text, hne]
    rw [hbeq]
    split <;> rfl

theorem json_of_get {entries : PhpArray} {name : String} {value : PhpValue}
    (h : entries.get name = some value) : (PhpValue.array entries).json = .object (jsonEntries entries) := by
  have hmem : PhpKey.string name ∈ entries.map Prod.fst := by
    have hget : entries.lookup (.string name) = some value := h
    by_contra hnot
    rw [List.lookup_eq_none_iff.mpr] at hget
    . contradiction
    . intro e he
      rw [bne_iff_ne]
      intro hkey
      exact hnot (hkey ▸ List.mem_map_of_mem he)
  have hlist : arrayIsList entries = false := by
    unfold arrayIsList
    rw [decide_eq_false_iff_not]
    intro heq
    rw [heq] at hmem
    simp [list] at hmem
  rw [PhpValue.json, hlist, if_neg (by decide)]

theorem correlationOf_json {safe : PhpArray} (causality : PhpArray) {id : String}
    (hsafe : safe.get "causality" = some (.array causality))
    (hcausality : causality.get "correlation_id" = some (.string id))
    : correlationOf (PhpValue.array safe).json = some (.string id) := by
  rw [json_of_get hsafe, correlationOf, lookup_jsonEntries ⟨'c', by decide, by decide, by decide⟩, hsafe,
    Option.map_some, json_of_get hcausality]
  dsimp only
  rw [lookup_jsonEntries ⟨'c', by decide, by decide, by decide⟩, hcausality]
  rfl

end Encoded

section Inject

-- The correlation id that an event brings along.
def idIn (name : String) : PhpValue → PhpValue
  | .array entries => PhpArray.getOr entries name .null
  | _ => .null

variable {id name : String} {filled : PhpValue}

-- Where the place is empty, or has the id already, it has the id afterwards.
theorem get_of_fillIn (hid : Runtime.nonEmpty id = true) {causality : PhpValue}
    (hown : (idIn name causality).isEmpty = true ∨ idIn name causality = .string id)
    (h : Runtime.fillIn name (some id) causality = some filled)
    : ∃ entries, filled = .array entries ∧ PhpArray.get entries name = some (.string id) := by
  unfold Runtime.fillIn at h
  rw [Option.bind_eq_bind, Option.bind_eq_some_iff] at h
  rcases h with ⟨isEmpty, hempty, h⟩
  dsimp only at h
  rw [hid, Bool.and_true] at h
  cases causality with
  | array entries =>
    rw [Runtime.emptyIn, Option.some_inj] at hempty
    split at h
    . cases h
      exact ⟨_, rfl, Entries.lookup_set_self _ _ _⟩
    . next hne =>
      cases h
      rcases hown with hown | hown
      . rw [idIn, hempty] at hown
        contradiction
      . exact ⟨entries, rfl, (get_eq_string_iff (o := some id) hown).mpr rfl⟩
  | object members => contradiction
  | null =>
    cases hempty
    cases h
    exact ⟨_, rfl, by simp [PhpArray.get, assoc]⟩
  | bool b =>
    cases hempty
    cases b with
    | true => contradiction
    | false =>
      cases h
      exact ⟨_, rfl, by simp [PhpArray.get, assoc]⟩
  | _ =>
    cases hempty
    contradiction

theorem get_of_fillIn_of_ne (other : String) (hne : name ≠ other) {id : Option String}
    {entries : PhpArray} (h : Runtime.fillIn name id (.array entries) = some filled)
    : ∃ entries', filled = .array entries' ∧ PhpArray.get entries' other = entries.get other := by
  unfold Runtime.fillIn at h
  rw [Option.bind_eq_bind, Option.bind_eq_some_iff] at h
  rcases h with ⟨isEmpty, _, h⟩
  cases id with
  | none =>
    cases h
    exact ⟨entries, rfl, rfl⟩
  | some id =>
    dsimp only at h
    split at h
    . cases h
      exact ⟨_, rfl, Entries.lookup_set_of_ne (by simpa using hne) _ _⟩
    . cases h
      exact ⟨entries, rfl, rfl⟩

variable {top : Correlation} {event injected safe : PhpArray} {frame : Json}

def ownCorrelation (event : PhpArray) : PhpValue :=
  idIn "correlation_id" (event.getOr "causality" (.array []))

theorem get_of_injectCorrelation (hid : Runtime.nonEmpty top.correlationId = true)
    (hown : (ownCorrelation event).isEmpty = true ∨ ownCorrelation event = .string top.correlationId)
    (h : Runtime.injectCorrelation (some top) event = some injected)
    : ∃ causality, injected.get "causality" = some (.array causality)
        ∧ PhpArray.get causality "correlation_id" = some (.string top.correlationId) := by
  unfold Runtime.injectCorrelation at h
  simp only [Option.bind_eq_bind, Option.bind_eq_some_iff] at h
  rcases h with ⟨first, hfirst, second, hsecond, hinjected⟩
  rcases get_of_fillIn hid hown hfirst with ⟨entries, rfl, hentries⟩
  rcases get_of_fillIn_of_ne "correlation_id" (by decide) hsecond with ⟨entries', rfl, hget⟩
  cases hinjected
  exact ⟨entries', Entries.lookup_set_self _ _ _, hget.trans hentries⟩

theorem get_of_redact {floatText : ℚ → String} (hname : name ≠ "coverage")
    (h : Runtime.redact floatText event = some safe)
    : safe.get name = (stripEntries event).get name := by
  unfold Runtime.redact at h
  dsimp only at h
  rw [stripSecrets_fst] at h
  split at h
  . cases h
    rfl
  . rw [Option.bind_eq_bind, Option.bind_eq_some_iff] at h
    rcases h with ⟨fields, _, h⟩
    cases fields with
    | none =>
      cases h
      rfl
    | some fields =>
      dsimp only at h
      rw [Option.bind_eq_bind, Option.bind_eq_some_iff] at h
      rcases h with ⟨merged, _, h⟩
      cases h
      unfold Runtime.setRedactedFields
      split
      . exact Entries.lookup_set_of_ne (by simpa using hname.symm) _ _
      . rfl

variable {floatText : ℚ → String} {runtime : Runtime}

/--
A frame of an event that brings no correlation id has the id of the innermost correlation.
-/
theorem correlationOf_observe (htop : runtime.correlationStack.getLast? = some top)
    (hid : Runtime.nonEmpty top.correlationId = true)
    (hown : (ownCorrelation event).isEmpty = true ∨ ownCorrelation event = .string top.correlationId)
    (h : runtime.observe floatText event = some frame)
    : correlationOf frame = some (.string top.correlationId) := by
  unfold Runtime.observe at h
  split at h
  . simp only [Option.bind_eq_bind, Option.bind_eq_some_iff] at h
    rcases h with ⟨injected, hinjected, safe, hsafe, hframe⟩
    rw [htop] at hinjected
    rcases get_of_injectCorrelation hid hown hinjected with ⟨causality, hget, hcorrelation⟩
    unfold EventFactory.encodeFrame jsonEncode at hframe
    split at hframe
    . cases hframe
      apply correlationOf_json (stripEntries causality)
      . rw [get_of_redact (by decide) hsafe, get_stripEntries isSecretKey_causality, hget,
          Option.map_some, strip_array]
      . rw [get_stripEntries isSecretKey_correlationId, hcorrelation]
        rfl
    . contradiction
  . contradiction

end Inject


section Perform

def AppCall.ownCorrelation : AppCall → PhpValue
  | .context _ => .null
  | .observe event => Shim.ownCorrelation event
  | .observeEvent _ _ _ _ _ ctx _ _ => ctx.getOr "correlation_id" .null
  | .emit _ _ => .null

-- The call leaves its correlation to the shim.
def AppCall.Blank (call : AppCall) : Prop :=
  call.ownCorrelation.isEmpty = true

theorem ownCorrelation_of_get {event : PhpArray} (causality : List (String × PhpValue)) {value : PhpValue}
    (h : event.get "causality" = some (.array (assoc causality)))
    (hid : causality.lookup "correlation_id" = some value) : ownCorrelation event = value := by
  have hevent : event.getOr "causality" (.array []) = .array (assoc causality) := by
    rw [PhpArray.getOr, h]
    rfl
  rw [ownCorrelation, hevent, idIn, PhpArray.getOr, get_assoc, hid]
  cases value <;> rfl

theorem ownCorrelation_businessEvent (factory : EventFactory) (stamp : Stamp)
    (eventType resourceId resourceType : String) (data context : PhpArray)
    : ownCorrelation (factory.businessEvent stamp eventType resourceId resourceType data context)
        = context.getOr "correlation_id" .null := by
  apply ownCorrelation_of_get [
    ("parent_event_id", context.getOr "parent_event_id" .null),
    ("causation_id", context.getOr "causation_id" .null),
    ("correlation_id", context.getOr "correlation_id" .null),
    ("customer_correlation_ids", (context.getOr "customer_correlation_ids" (.array [])).toObject)]
  . unfold EventFactory.businessEvent PhpArray.get
    rw [List.append_assoc, List.lookup_append]
    rfl
  . rfl

theorem ownCorrelation_event (sha256 : String → String) (factory : EventFactory) (context : PhpArray)
    (stamp : Stamp) (capture : Capture)
    : ownCorrelation (HttpMiddleware.event sha256 factory context stamp capture) = .null := by
  unfold ownCorrelation HttpMiddleware.event
  dsimp only
  rw [getOr_set_of_ne (by decide)]
  rfl

theorem getOr_withParticipant {role other : String} (hid : role ++ "_id" ≠ other)
    (htype : role ++ "_type" ≠ other) (id : Option String) (context : PhpArray)
    : (Runtime.withParticipant role id context).getOr other .null = context.getOr other .null := by
  unfold Runtime.withParticipant
  cases id with
  | none => rfl
  | some id =>
    dsimp only
    split
    . rfl
    . split
      . exact getOr_set_of_ne hid _ _ _
      . rw [getOr_set_of_ne htype, getOr_set_of_ne hid]

theorem getOr_withDefaultId_of_ne {name other : String} (hne : name ≠ other) (id : Option String)
    (context : PhpArray)
    : (Runtime.withDefaultId name id context).getOr other .null = context.getOr other .null := by
  unfold Runtime.withDefaultId
  cases id with
  | none => rfl
  | some id =>
    dsimp only
    split
    . exact getOr_set_of_ne hne _ _ _
    . rfl

theorem getOr_withDefaultId (id name : String) (context : PhpArray)
    : (Runtime.withDefaultId name (some id) context).getOr name .null = context.getOr name .null
        ∨ (Runtime.withDefaultId name (some id) context).getOr name .null = .string id := by
  unfold Runtime.withDefaultId
  dsimp only
  split
  . exact .inr (getOr_set_self _ _ _)
  . exact .inl rfl

variable {floatText : ℚ → String} {sha256 : String → String}

theorem correlationOf_perform {scope : Correlation} (hid : Runtime.nonEmpty scope.correlationId = true)
    {call : AppCall} (hblank : call.Blank) (s : Session)
    : ∀ frame ∈ (call.perform floatText sha256 [scope] s).2,
        correlationOf frame = some (.string scope.correlationId) := by
  have htop : (s.runtime [scope]).correlationStack.getLast? = some scope := rfl
  intro frame hframe
  cases call with
  | context attrs => contradiction
  | observe event =>
    rw [AppCall.perform, Option.mem_toList] at hframe
    exact correlationOf_observe htop hid (.inl hblank) hframe
  | observeEvent stamp eventType resourceType resourceId data context beneficiaryId actorId =>
    rw [AppCall.perform, Option.mem_toList] at hframe
    unfold Runtime.observeEvent at hframe
    split at hframe
    . rw [htop] at hframe
      refine correlationOf_observe htop hid ?_ hframe
      rw [ownCorrelation_businessEvent, getOr_withDefaultId_of_ne (by decide)]
      rcases getOr_withDefaultId scope.correlationId "correlation_id"
        (Runtime.withParticipant "actor" actorId
          (Runtime.withParticipant "beneficiary" beneficiaryId context)) with hown | hown
      . left
        rw [hown, getOr_withParticipant (by decide) (by decide),
          getOr_withParticipant (by decide) (by decide)]
        exact hblank
      . exact .inr hown
    . contradiction
  | emit stamp capture =>
    rw [AppCall.perform, Option.mem_toList] at hframe
    refine correlationOf_observe htop hid (.inl ?_) hframe
    rw [ownCorrelation_event]
    rfl

end Perform

section Worker

variable (floatText : ℚ → String) (sha256 : String → String)

theorem getLast?_toList {α : Type} (o : Option α) : o.toList.getLast? = o := by
  cases o <;> rfl

theorem observe_top (s : Session) (stack : List Correlation) (event : PhpArray)
    : (s.runtime stack).observe floatText event
        = (s.runtime stack.getLast?.toList).observe floatText event := by
  unfold Runtime.observe Session.runtime
  dsimp only
  rw [getLast?_toList]

theorem perform_topOnly : Scoped.TopOnly (AppCall.perform floatText sha256) := by
  intro stack s call
  cases call with
  | context attrs => rfl
  | observe event => rw [AppCall.perform, observe_top, AppCall.perform]
  | observeEvent stamp eventType resourceType resourceId data context beneficiaryId actorId =>
    have hobserve := fun event => observe_top floatText s stack event
    unfold AppCall.perform Runtime.observeEvent
    simp only [hobserve]
    dsimp only [Session.runtime]
    rw [getLast?_toList]
    rfl
  | emit stamp capture => rw [AppCall.perform, observe_top, AppCall.perform]

structure Request where
  ulid : String
  stamp : Stamp
  capture : Capture
  handler : AppScoped

namespace Request

def scope (r : Request) : Correlation :=
  ⟨"req_" ++ r.ulid, none⟩

def code (r : Request) : AppCode :=
  HttpMiddleware.handle r.ulid r.stamp r.capture r.handler.compile

-- The handler leaves every correlation to the middleware.
def Blank (r : Request) : Prop :=
  r.handler.All (fun scope call => scope = some r.scope ∧ call.Blank) (some r.scope)

def lexical (r : Request) : AppScoped :=
  .within r.scope (.seq r.handler (.call (.emit r.stamp r.capture)))

theorem exec_code (r : Request) (stack : List Correlation) (s : Session)
    : r.code.exec (AppCall.perform floatText sha256) stack s
        = (stack, r.lexical.run (AppCall.perform floatText sha256) none s) :=
  Scoped.exec_compile (perform_topOnly floatText sha256) r.lexical stack s

theorem nonEmpty_scope (r : Request) : Runtime.nonEmpty r.scope.correlationId = true := by
  have hlist : r.scope.correlationId.toList = 'r' :: 'e' :: 'q' :: '_' :: r.ulid.toList := by
    simp [scope]
  have hempty : r.scope.correlationId ≠ "" := by
    intro h
    simp [h] at hlist
  have hzero : r.scope.correlationId ≠ "0" := by
    intro h
    simp [h] at hlist
  simp [Runtime.nonEmpty, hempty, hzero]

-- Every frame of the request has its id.
theorem correlationOf_outputs {r : Request} (h : r.Blank) (s : Session)
    : ∀ frame ∈ (r.lexical.run (AppCall.perform floatText sha256) none s).outputs,
        correlationOf frame = some (.string r.scope.correlationId) := by
  have hact : ∀ scope s (call : AppCall), scope = some r.scope ∧ call.Blank →
      ∀ frame ∈ (call.perform floatText sha256 scope.toList s).2,
        correlationOf frame = some (.string r.scope.correlationId) := by
    rintro _ s call ⟨rfl, hblank⟩
    exact correlationOf_perform r.nonEmpty_scope hblank s
  have hcalls : r.lexical.All (fun scope call => scope = some r.scope ∧ call.Blank) none :=
    ⟨h, rfl, rfl⟩
  exact Scoped.outputs_of_all hact hcalls s

end Request

-- A process that serves requests one after the other, and goes on when one of them throws.
def worker : List Request → AppCode
  | [] => .done
  | r :: rs => .seq (.attempt r.code .done) (worker rs)

-- Each request with its frames, as if no correlation were held when it is served. Only the context of the
-- captures goes from one to the next.
def served : List Request → Session → List (String × List Json)
  | [], _ => []
  | r :: rs, s =>
    let (_, result) := r.code.exec (AppCall.perform floatText sha256) [] s
    (r.scope.correlationId, result.outputs) :: served rs result.state

theorem stack_worker (rs : List Request) (stack : List Correlation) (s : Session)
    : ((worker rs).exec (AppCall.perform floatText sha256) stack s).1 = stack := by
  induction rs generalizing s with
  | nil => rfl
  | cons r rs ih =>
    have hrest := ih (r.lexical.run (AppCall.perform floatText sha256) none s).state
    unfold worker
    rw [Code.exec, Code.exec, r.exec_code floatText sha256]
    cases hcompleted : (r.lexical.run (AppCall.perform floatText sha256) none s).completed with
    | true => simpa [hcompleted, Result.andThen] using hrest
    | false => simpa [hcompleted, Code.exec, Result.andThen, Result.returned] using hrest

theorem outputs_worker (rs : List Request) (stack : List Correlation) (s : Session)
    : ((worker rs).exec (AppCall.perform floatText sha256) stack s).2.outputs
        = (served floatText sha256 rs s).flatMap Prod.snd := by
  induction rs generalizing s with
  | nil => rfl
  | cons r rs ih =>
    have hcode := r.exec_code floatText sha256
    unfold worker served
    rw [Code.exec, Code.exec, hcode, hcode, List.flatMap_cons,
      ← ih (r.lexical.run (AppCall.perform floatText sha256) none s).state]
    cases hcompleted : (r.lexical.run (AppCall.perform floatText sha256) none s).completed with
    | true => simp [hcompleted, Result.andThen]
    | false => simp [hcompleted, Code.exec, Result.andThen, Result.returned]

/--
A worker leaves the correlations that are held as they are, whatever its handlers throw, and its frames
are those that each request has by itself.
-/
theorem exec_worker (rs : List Request) (stack : List Correlation) (s : Session)
    : ((worker rs).exec (AppCall.perform floatText sha256) stack s).1 = stack
        ∧ ((worker rs).exec (AppCall.perform floatText sha256) stack s).2.outputs
            = (served floatText sha256 rs s).flatMap Prod.snd :=
  ⟨stack_worker floatText sha256 rs stack s, outputs_worker floatText sha256 rs stack s⟩

def correlatedTo (id : String) (frame : Json) : Bool :=
  match correlationOf frame with
  | some (.string s) => s = id
  | _ => false

theorem correlatedTo_served {rs : List Request} (h : ∀ r ∈ rs, r.Blank) (s : Session)
    : ∀ g ∈ served floatText sha256 rs s, ∀ frame ∈ g.2, ∀ id, correlatedTo id frame = true ↔ id = g.1 := by
  induction rs generalizing s with
  | nil =>
    intro g hg
    contradiction
  | cons r rs ih =>
    rw [List.forall_mem_cons] at h
    unfold served
    rw [r.exec_code, List.forall_mem_cons]
    constructor
    . intro frame hframe id
      rw [correlatedTo, Request.correlationOf_outputs floatText sha256 h.1 s frame hframe]
      simp [eq_comm]
    . exact ih h.2 _

theorem map_fst_served (rs : List Request) (s : Session)
    : (served floatText sha256 rs s).map Prod.fst = rs.map (·.scope.correlationId) := by
  induction rs generalizing s with
  | nil => rfl
  | cons r rs ih =>
    rw [served, List.map_cons, List.map_cons, ih]

/--
Where handlers leave the correlations to the middleware, the frames of a worker with the correlation id of
a request are the frames of that request, in their order.
-/
theorem filter_correlatedTo {rs : List Request} (hblank : ∀ r ∈ rs, r.Blank)
    (hulids : (rs.map Request.ulid).Nodup) (stack : List Correlation) (s : Session)
    : ∀ g ∈ served floatText sha256 rs s,
        ((worker rs).exec (AppCall.perform floatText sha256) stack s).2.outputs.filter (correlatedTo g.1)
          = g.2 := by
  have hids : ((served floatText sha256 rs s).map Prod.fst).Nodup := by
    rw [map_fst_served]
    have hinj : Function.Injective fun ulid : String => "req_" ++ ulid := by
      intro a b hab
      simpa using hab
    have := hulids.map hinj
    rwa [List.map_map] at this
  rw [outputs_worker floatText sha256 rs stack s]
  exact Grouping.filter_flatMap_snd hids (correlatedTo_served floatText sha256 hblank s)

section Instances

def firstTick : Stamp := ⟨"evt_1", "2026-01-01T00:00:00Z", none, 1⟩

def homePage : Capture := ⟨some "get", some "/", some none, some 200, 40⟩

-- The handler of the first request throws after its payment, and that of the second one opens a scope.
def twoRequests : List Request :=
  [⟨"01A", firstTick, homePage,
      .seq (.call (.observeEvent firstTick "payment.create" "payment" "pay_1" [] [] none none)) .throw⟩,
    ⟨"01B", firstTick, homePage, .within ⟨"req_01B", none⟩ (.call (.observe []))⟩]

theorem filter_correlatedTo_twoRequests
    : (served toString id twoRequests ⟨true, ⟨"tnt_a", "php-shim@0.1.0"⟩, []⟩).length = 2
        ∧ ∀ g ∈ served toString id twoRequests ⟨true, ⟨"tnt_a", "php-shim@0.1.0"⟩, []⟩,
          ((worker twoRequests).exec (AppCall.perform toString id) []
            ⟨true, ⟨"tnt_a", "php-shim@0.1.0"⟩, []⟩).2.outputs.filter (correlatedTo g.1) = g.2 := by
  have hblank : ∀ r ∈ twoRequests, r.Blank := by
    unfold twoRequests
    rw [List.forall_mem_cons, List.forall_mem_singleton]
    exact ⟨⟨⟨rfl, rfl⟩, trivial⟩, ⟨rfl, rfl⟩⟩
  refine ⟨rfl, ?_⟩
  exact filter_correlatedTo toString id hblank (by decide) [] _

end Instances

end Worker

end Athar.Shim
