import Athar.Detection.History
import Athar.Lib.Unwinding
import Athar.Lifecycle.Instance

/-!
This module contains the isolation of tenants in the signal engine. The trackers count by the subject
alone, and the key of a known resource is a concatenation that different tenants can share, so the
signals of a tenant are its own exactly as far as the others leave its keys and its counts alone.
-/

namespace Athar

-- Two lengths that a tracker answers alike.
def SameCount (threshold : UInt32) (n m : Nat) : Prop :=
  UInt32.ofNat n = UInt32.ofNat m ∨ (UInt32.ofNat n ≤ threshold ∧ UInt32.ofNat m ≤ threshold)

theorem exceeding_eq_iff {threshold : UInt32} {n m : Nat}
    : exceeding threshold n = exceeding threshold m ↔ SameCount threshold n m := by
  unfold exceeding SameCount
  dsimp only
  rw [← UInt32.not_lt, ← UInt32.not_lt]
  split
  . next hn =>
    split
    . next hm => simp [hn]
    . next hm =>
      simp only [reduceCtorEq, hn, not_true_eq_false, false_and, or_false, false_iff]
      intro heq
      rw [heq] at hn
      exact hm hn
  . next hn =>
    split
    . next hm =>
      simp only [reduceCtorEq, hm, not_true_eq_false, and_false, or_false, false_iff]
      intro heq
      rw [← heq] at hm
      exact hn hm
    . next hm => simp [hn, hm]

theorem toString_uint32_inj {n m : UInt32} (h : toString n = toString m) : n = m := by
  apply UInt32.toNat_inj.mp
  have hdigits : Nat.toDigits 10 n.toNat = Nat.toDigits 10 m.toNat := by
    have hlists := congrArg String.toList h
    simpa [toString, Nat.repr] using hlists
  rw [← Nat.ofDigitChars_ten_toDigits (n := n.toNat), hdigits, Nat.ofDigitChars_ten_toDigits]

-- A text with a number in it tells the number.
theorem counted_inj (before after : String) {n m : UInt32}
    (h : before ++ toString n ++ after = before ++ toString m ++ after) : n = m := by
  have hlists := congrArg String.toList h
  simp only [String.toList_append, List.append_cancel_right_eq, List.append_cancel_left_eq] at hlists
  exact toString_uint32_inj (String.toList_inj.mp hlists)

namespace SignalEngineConfig

variable {f : Floats} {config : SignalEngineConfig f} {event : Event} {n m : UInt32}

theorem highVelocitySignal_inj
    (h : config.highVelocitySignal event n = config.highVelocitySignal event m) : n = m := by
  have hvalue := congrArg Signal.value h
  apply counted_inj ("subject=" ++ event.subject ++ " count=")
    (" window_ms=" ++ toString config.velocity.windowMs)
  simpa only [highVelocitySignal, String.append_assoc] using hvalue

theorem credentialStuffingSignal_inj
    (h : config.credentialStuffingSignal event n = config.credentialStuffingSignal event m)
    : n = m := by
  have hvalue := congrArg Signal.value h
  apply counted_inj ("subject=" ++ event.subject ++ " failed_count=")
    (" window_ms=" ++ toString config.credentialStuffing.windowMs ++ " event_type="
      ++ event.eventType)
  simpa only [credentialStuffingSignal, String.append_assoc] using hvalue

theorem distinctTargetsSignal_inj
    (h : config.distinctTargetsSignal event n = config.distinctTargetsSignal event m) : n = m := by
  have hvalue := congrArg Signal.value h
  apply counted_inj ("subject=" ++ event.subject ++ " distinct_targets=")
    (" window_ms=" ++ toString config.targets.windowMs)
  simpa only [distinctTargetsSignal, String.append_assoc] using hvalue

theorem map_exceeding_eq_iff {signal : UInt32 → Signal} (hinj : ∀ n m, signal n = signal m → n = m)
    {threshold : UInt32} {n m : Nat}
    : (exceeding threshold n).map signal = (exceeding threshold m).map signal
        ↔ SameCount threshold n m := by
  rw [← exceeding_eq_iff]
  constructor
  . intro h
    exact Option.map_injective hinj h
  . intro h
    rw [h]

-- The histories say the same about the event: its resource is known in both or in neither, and each
-- tracker that it concerns answers both counts alike.
structure Agrees (config : SignalEngineConfig f) (history history' : History) (input : Event × Nat)
    : Prop where
  known : ∀ rid, input.1.resource.bind (·.id) = some rid →
    (input.1.knownKey rid ∈ knownKeys history ↔ input.1.knownKey rid ∈ knownKeys history')
  velocity : SameCount config.velocity.threshold (config.velocityCount history input)
    (config.velocityCount history' input)
  credentialStuffing : config.credentialStuffing.qualifies input.1 = true →
    SameCount config.credentialStuffing.threshold (config.failureCount history input)
      (config.failureCount history' input)
  targets : input.1.beneficiary.bind (·.id) ≠ none →
    SameCount config.targets.threshold (config.targetCount history input)
      (config.targetCount history' input)

theorem velocitySamples_filter (history : History) (subject : String)
    : (velocitySamples history).filter (·.1 = subject)
        = velocitySamples (history.filter (·.1.subject = subject)) := by
  unfold velocitySamples
  rw [List.filter_map]
  rfl

theorem targetSamples_filter (history : History) (subject : String)
    : (targetSamples history).filter (·.1 = subject)
        = targetSamples (history.filter (·.1.subject = subject)) := by
  unfold targetSamples
  rw [List.filter_filterMap, List.filterMap_filter]
  apply List.filterMap_congr
  intro i _
  cases i.1.beneficiary.bind (·.id) with
  | none => simp
  | some target => simp [Option.filter]

section SameSubject

variable {history history' : History} {input : Event × Nat}
  (h : history.filter (·.1.subject = input.1.subject)
    = history'.filter (·.1.subject = input.1.subject))

include h

theorem filter_subject_append : (history ++ [input]).filter (·.1.subject = input.1.subject)
    = (history' ++ [input]).filter (·.1.subject = input.1.subject) := by
  rw [List.filter_append, List.filter_append, h]

theorem velocityCount_congr : config.velocityCount history input = config.velocityCount history' input := by
  unfold velocityCount Lru.valueOf
  rw [velocitySamples_filter, velocitySamples_filter, filter_subject_append h]

theorem failureCount_congr : config.failureCount history input = config.failureCount history' input := by
  unfold failureCount Lru.valueOf failureSamples
  rw [velocitySamples_filter, velocitySamples_filter, List.filter_filter, List.filter_filter]
  simp only [Bool.and_comm]
  rw [← List.filter_filter, ← List.filter_filter, filter_subject_append h]

theorem targetCount_congr : config.targetCount history input = config.targetCount history' input := by
  unfold targetCount Lru.valueOf
  rw [targetSamples_filter, targetSamples_filter, filter_subject_append h]

end SameSubject

variable {history history' : History} {input : Event × Nat}

theorem newBeneficiary_eq_iff
    : newBeneficiary history event = newBeneficiary history' event
        ↔ ∀ rid, event.resource.bind (·.id) = some rid →
          (event.knownKey rid ∈ knownKeys history ↔ event.knownKey rid ∈ knownKeys history') := by
  unfold newBeneficiary
  cases event.resource.bind (·.id) with
  | none => simp
  | some rid =>
    simp only [Option.bind_some, Option.some.injEq, forall_eq']
    split
    . next h =>
      split
      . next h' => simp [h, h']
      . next h' => simp [h, h']
    . next h =>
      split
      . next h' => simp [h, h']
      . next h' => simp [h, h']

theorem highVelocity_eq_iff
    : config.highVelocity history input = config.highVelocity history' input
        ↔ SameCount config.velocity.threshold (config.velocityCount history input)
          (config.velocityCount history' input) :=
  map_exceeding_eq_iff fun _ _ => highVelocitySignal_inj

theorem credentialStuffingPattern_eq_iff
    : config.credentialStuffingPattern history input = config.credentialStuffingPattern history' input
        ↔ (config.credentialStuffing.qualifies input.1 = true →
          SameCount config.credentialStuffing.threshold (config.failureCount history input)
            (config.failureCount history' input)) := by
  unfold credentialStuffingPattern
  split
  . next h =>
    rw [map_exceeding_eq_iff fun _ _ => credentialStuffingSignal_inj]
    simp [h]
  . next h => simp [h]

theorem distinctTargets_eq_iff
    : config.distinctTargets history input = config.distinctTargets history' input
        ↔ (input.1.beneficiary.bind (·.id) ≠ none →
          SameCount config.targets.threshold (config.targetCount history input)
            (config.targetCount history' input)) := by
  unfold distinctTargets
  cases input.1.beneficiary.bind (·.id) with
  | none => simp
  | some target =>
    rw [Option.bind_some, Option.bind_some, map_exceeding_eq_iff fun _ _ => distinctTargetsSignal_inj]
    simp

theorem find?_kind {signal : Option Signal} {kind : SignalKind} (h : ∀ s ∈ signal, s.kind = kind)
    (kind' : SignalKind)
    : signal.toList.find? (·.kind = kind') = if kind = kind' then signal else none := by
  cases signal with
  | none => simp
  | some s =>
    rw [← h s rfl]
    split
    . next heq => simp [heq]
    . next hne => simp [hne]

-- The signals of a report can be told apart by their kinds.
theorem find?_report (kind : SignalKind)
    : (config.report history input).find? (·.kind = kind)
        = match kind with
          | .newBeneficiary => newBeneficiary history input.1
          | .highAmount => config.highAmountSignal input.1
          | .highVelocity => config.highVelocity history input
          | .credentialStuffingPattern => config.credentialStuffingPattern history input
          | .distinctTargets => config.distinctTargets history input := by
  have hnew : ∀ s ∈ newBeneficiary history input.1, s.kind = .newBeneficiary := by
    intro s hs
    rcases Option.bind_eq_some_iff.mp hs with ⟨rid, _, hsome⟩
    split at hsome
    . contradiction
    . cases hsome
      rfl
  have hamount : ∀ s ∈ config.highAmountSignal input.1, s.kind = .highAmount := by
    intro s hs
    unfold highAmountSignal at hs
    split at hs
    . contradiction
    . split at hs
      . cases hs
        rfl
      . contradiction
  have hvelocity : ∀ s ∈ config.highVelocity history input, s.kind = .highVelocity := by
    intro s hs
    rcases Option.map_eq_some_iff.mp hs with ⟨count, _, rfl⟩
    rfl
  have hfailure : ∀ s ∈ config.credentialStuffingPattern history input,
      s.kind = .credentialStuffingPattern := by
    intro s hs
    unfold credentialStuffingPattern at hs
    split at hs
    . rcases Option.map_eq_some_iff.mp hs with ⟨count, _, rfl⟩
      rfl
    . contradiction
  have htargets : ∀ s ∈ config.distinctTargets history input, s.kind = .distinctTargets := by
    intro s hs
    rcases Option.bind_eq_some_iff.mp hs with ⟨target, _, hsome⟩
    rcases Option.map_eq_some_iff.mp hsome with ⟨count, _, rfl⟩
    rfl
  unfold report
  simp only [List.find?_append, find?_kind hnew, find?_kind hamount, find?_kind hvelocity,
    find?_kind hfailure, find?_kind htargets]
  cases kind <;> simp

theorem report_eq_iff
    : config.report history input = config.report history' input ↔ config.Agrees history history' input := by
  constructor
  . intro h
    have hkind : ∀ kind, (config.report history input).find? (·.kind = kind)
        = (config.report history' input).find? (·.kind = kind) := by
      intro kind
      rw [h]
    simp only [find?_report] at hkind
    exact ⟨newBeneficiary_eq_iff.mp (hkind .newBeneficiary), highVelocity_eq_iff.mp (hkind .highVelocity),
      credentialStuffingPattern_eq_iff.mp (hkind .credentialStuffingPattern),
      distinctTargets_eq_iff.mp (hkind .distinctTargets)⟩
  . intro h
    unfold report
    rw [newBeneficiary_eq_iff.mpr h.known, highVelocity_eq_iff.mpr h.velocity,
      credentialStuffingPattern_eq_iff.mpr h.credentialStuffing, distinctTargets_eq_iff.mpr h.targets]

end SignalEngineConfig

namespace SignalEngine

open SignalEngineConfig

variable {f : Floats}

def ofTenant (tenantId : String) (input : Event × Nat) : Bool :=
  input.1.tenantId = tenantId

-- The signals that a run returns for the events of a tenant.
def signalsOf (config : SignalEngineConfig f) (tenantId : String) (inputs : History)
    : List (List Signal) :=
  Unwinding.outputs step (ofTenant tenantId) (new config) inputs

theorem signalsOf_eq_report {config : SignalEngineConfig f} (tenantId : String) {inputs : History}
    (hfits : config.Fits inputs)
    : signalsOf config tenantId inputs
        = (Unwinding.positions (ofTenant tenantId) [] inputs).map fun p => config.report p.1 p.2 := by
  have hstep : ∀ past input engine, Remembers config past engine → past ++ [input] <+: inputs →
      Remembers config (past ++ [input]) (Unwinding.next step engine input)
        ∧ (step engine input).2 = config.report past input := by
    intro past input engine h hpast
    exact h.step (hfits.sublist hpast.sublist)
  exact Unwinding.outputs_eq_positions (Remembers.new config) hstep (List.prefix_refl inputs)

/--
Two runs that contain the same events of a tenant at the same times return the same signals for them if
and only if, event by event, what came before says the same about the event.
-/
theorem signalsOf_eq_iff_agrees (config : SignalEngineConfig f) (tenantId : String) {xs ys : History}
    (hsame : xs.filter (ofTenant tenantId) = ys.filter (ofTenant tenantId)) (hxs : config.Fits xs)
    (hys : config.Fits ys)
    : signalsOf config tenantId xs = signalsOf config tenantId ys
        ↔ List.Forall₂ (fun p q => config.Agrees p.1 q.1 p.2)
          (Unwinding.positions (ofTenant tenantId) [] xs)
          (Unwinding.positions (ofTenant tenantId) [] ys) := by
  rw [signalsOf_eq_report tenantId hxs, signalsOf_eq_report tenantId hys]
  apply Unwinding.map_positions_eq_iff _ hsame
  intro history history' input
  exact report_eq_iff

-- An event that the trackers or the known resources could confuse with the other.
def Shares (event other : Event) : Prop :=
  other.subject = event.subject
    ∨ ∃ rid rid', event.resource.bind (·.id) = some rid ∧ other.resource.bind (·.id) = some rid'
      ∧ other.knownKey rid' = event.knownKey rid

variable {config : SignalEngineConfig f} {tenantId : String} {history : History} {input : Event × Nat}

theorem filter_subject_own
    (h : ∀ i ∈ history, ofTenant tenantId i = false → ¬Shares input.1 i.1)
    : (history.filter (ofTenant tenantId)).filter (·.1.subject = input.1.subject)
        = history.filter (·.1.subject = input.1.subject) := by
  rw [List.filter_filter]
  apply List.filter_congr
  intro i hi
  cases hown : ofTenant tenantId i with
  | true => simp
  | false =>
    have hother : i.1.subject ≠ input.1.subject := fun heq => h i hi hown (Or.inl heq)
    simp [hother]

theorem mem_knownKeys_own {rid : String} (hrid : input.1.resource.bind (·.id) = some rid)
    (h : ∀ i ∈ history, ofTenant tenantId i = false → ¬Shares input.1 i.1)
    : input.1.knownKey rid ∈ knownKeys history
        ↔ input.1.knownKey rid ∈ knownKeys (history.filter (ofTenant tenantId)) := by
  unfold knownKeys
  rw [List.mem_filterMap, List.mem_filterMap]
  constructor
  . rintro ⟨i, hi, hkey⟩
    refine ⟨i, ?_, hkey⟩
    rw [List.mem_filter]
    refine ⟨hi, ?_⟩
    rcases Option.map_eq_some_iff.mp hkey with ⟨rid', hrid', heq⟩
    rw [← Bool.not_eq_false]
    intro hown
    exact h i hi hown (Or.inr ⟨rid, rid', hrid, hrid', heq⟩)
  . rintro ⟨i, hi, hkey⟩
    exact ⟨i, List.mem_of_mem_filter hi, hkey⟩

-- If nothing of the other tenants shares anything with an event, its own tenant's history says it all.
theorem agrees_own (h : ∀ i ∈ history, ofTenant tenantId i = false → ¬Shares input.1 i.1)
    : config.Agrees history (history.filter (ofTenant tenantId)) input := by
  have hsubject := (filter_subject_own h).symm
  constructor
  . intro rid hrid
    exact mem_knownKeys_own hrid h
  . left
    rw [velocityCount_congr hsubject]
  . intro _
    left
    rw [failureCount_congr hsubject]
  . intro _
    left
    rw [targetCount_congr hsubject]

theorem signalsOf_eq_own {inputs : History} (hfits : config.Fits inputs)
    (h : ∀ i ∈ inputs, ofTenant tenantId i = true →
      ∀ j ∈ inputs, ofTenant tenantId j = false → ¬Shares i.1 j.1)
    : signalsOf config tenantId inputs
        = (Unwinding.positions (fun _ => true) [] (inputs.filter (ofTenant tenantId))).map
          fun p => config.report p.1 p.2 := by
  have hpurge := Unwinding.positions_map_filter (ofTenant tenantId) [] inputs
  rw [List.filter_nil] at hpurge
  rw [signalsOf_eq_report tenantId hfits, ← hpurge, List.map_map]
  apply List.map_congr_left
  intro p hp
  rcases Unwinding.mem_of_mem_positions hp with ⟨hpast, hmem, hown⟩
  apply report_eq_iff.mpr
  apply agrees_own
  intro i hi
  exact h p.2 hmem hown i (hpast hi)

/--
A tenant whose events share no subject and no resource key with those of others gets the signals that its
own events make.
-/
theorem signalsOf_eq_of_not_shares {xs ys : History}
    (hsame : xs.filter (ofTenant tenantId) = ys.filter (ofTenant tenantId)) (hxs : config.Fits xs)
    (hys : config.Fits ys)
    (hx : ∀ i ∈ xs, ofTenant tenantId i = true →
      ∀ j ∈ xs, ofTenant tenantId j = false → ¬Shares i.1 j.1)
    (hy : ∀ i ∈ ys, ofTenant tenantId i = true →
      ∀ j ∈ ys, ofTenant tenantId j = false → ¬Shares i.1 j.1)
    : signalsOf config tenantId xs = signalsOf config tenantId ys := by
  rw [signalsOf_eq_own hxs hx, signalsOf_eq_own hys hy, hsame]

end SignalEngine

section Instances

open SignalEngine

-- Rational numbers in place of the machine's, for events without amounts.
def Floats.rational : Floats where
  F64 := ℚ
  asF64 := some
  parse _ := none
  le a b := a ≤ b
  display q := toString q.num
  displayFixed2 q := toString q.num ++ ".00"

def defaultSignals : SignalEngineConfig Floats.rational := { highAmountFloor := (1000 : ℚ) }

-- Two tenants whose names and resources make one key.
def sharedKey : History :=
  [(paymentEvent "payment.create" "e1" "acme:eu" "42", 0),
    (paymentEvent "payment.create" "e2" "acme" "eu:42", 1000)]

def ownKey : History := [(paymentEvent "payment.create" "e2" "acme" "eu:42", 1000)]

def actorEvent (eventId tenantId actorId : String) : Event :=
  { paymentEvent "payment.create" eventId tenantId "pay_1" with
    actor := some ⟨some actorId, none, none, .unknown, none, none, []⟩ }

-- An actor of one tenant has the id of a busy actor of another.
def sharedActor : History :=
  (List.range 10).map (fun n => (actorEvent (toString n) "tnt_b" "7", n))
    ++ [(actorEvent "e1" "tnt_a" "7", 10)]

def ownActor : History := [(actorEvent "e1" "tnt_a" "7", 10)]

theorem signalsOf_eq_iff_agrees_sharedKey
    : signalsOf defaultSignals "acme" sharedKey = signalsOf defaultSignals "acme" ownKey
        ↔ List.Forall₂ (fun p q => defaultSignals.Agrees p.1 q.1 p.2)
          (Unwinding.positions (ofTenant "acme") [] sharedKey)
          (Unwinding.positions (ofTenant "acme") [] ownKey) :=
  signalsOf_eq_iff_agrees defaultSignals "acme" rfl
    ⟨by decide +kernel, by decide +kernel, by decide +kernel⟩
    ⟨by decide +kernel, by decide +kernel, by decide +kernel⟩

theorem sharedKey_and_sharedActor_leak
    : (∀ i ∈ sharedKey ++ sharedActor, i.1.validate = .ok ())
        ∧ (sharedKey.filter (ofTenant "acme") = ownKey.filter (ofTenant "acme")
          ∧ defaultSignals.Fits sharedKey ∧ defaultSignals.Fits ownKey
          ∧ signalsOf defaultSignals "acme" sharedKey ≠ signalsOf defaultSignals "acme" ownKey)
        ∧ (sharedActor.filter (ofTenant "tnt_a") = ownActor.filter (ofTenant "tnt_a")
          ∧ defaultSignals.Fits sharedActor ∧ defaultSignals.Fits ownActor
          ∧ signalsOf defaultSignals "tnt_a" sharedActor ≠ signalsOf defaultSignals "tnt_a" ownActor) := by
  refine ⟨?_, ⟨rfl, ⟨?_, ?_, ?_⟩, ⟨?_, ?_, ?_⟩, ?_⟩, ⟨rfl, ⟨?_, ?_, ?_⟩, ⟨?_, ?_, ?_⟩, ?_⟩⟩
  all_goals decide +kernel

end Instances

end Athar
