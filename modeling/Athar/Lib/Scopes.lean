import Mathlib.Data.List.Basic

/-!
This module contains code that shares one stack. A call sees the stack, code pushes and pops, may throw,
catch what is thrown, and do something in any case when other code ends. Code that only opens and closes
scopes around other code has a second meaning, in which a scope is no state at all but what the code
inside is read in. Both meanings agree.
-/

namespace Scopes

variable {σ ε ι ο : Type*}

inductive Code (σ ε ι : Type*) where
  | done
  | throw
  | call (i : ι)
  -- What comes next depends on the top of the stack and on the state.
  | ask (next : Option ε → σ → Code σ ε ι)
  | push (e : ε)
  | pop
  | seq (first second : Code σ ε ι)
  | attempt (body handler : Code σ ε ι)
  | ensure (body final : Code σ ε ι)

structure Result (σ ο : Type*) where
  completed : Bool
  state : σ
  outputs : List ο

namespace Result

def returned (s : σ) : Result σ ο where
  completed := true
  state := s
  outputs := []

-- What a result is after more has been done.
def andThen (r r' : Result σ ο) (completed : Bool) : Result σ ο where
  completed
  state := r'.state
  outputs := r.outputs ++ r'.outputs

end Result

section Exec

variable (act : List ε → σ → ι → σ × List ο)

def Code.exec : Code σ ε ι → List ε → σ → List ε × Result σ ο
  | .done, stack, s => (stack, .returned s)
  | .throw, stack, s => (stack, { Result.returned s with completed := false })
  | .call i, stack, s => (stack, ⟨true, (act stack s i).1, (act stack s i).2⟩)
  | .ask next, stack, s => (next stack.getLast? s).exec stack s
  | .push e, stack, s => (stack ++ [e], .returned s)
  | .pop, stack, s => (stack.dropLast, .returned s)
  | .seq first second, stack, s =>
    let (stack, r) := first.exec stack s
    if r.completed then
      let (stack, r') := second.exec stack r.state
      (stack, r.andThen r' r'.completed)
    else
      (stack, r)
  | .attempt body handler, stack, s =>
    let (stack, r) := body.exec stack s
    if r.completed then
      (stack, r)
    else
      let (stack, r') := handler.exec stack r.state
      (stack, r.andThen r' r'.completed)
  | .ensure body final, stack, s =>
    let (stack, r) := body.exec stack s
    let (stack, r') := final.exec stack r.state
    (stack, r.andThen r' (r.completed && r'.completed))

end Exec

-- Code that does not push or pop, but opens a scope around other code.
inductive Scoped (σ ε ι : Type*) where
  | done
  | throw
  | call (i : ι)
  | ask (next : Option ε → σ → Scoped σ ε ι)
  | seq (first second : Scoped σ ε ι)
  | attempt (body handler : Scoped σ ε ι)
  | ensure (body final : Scoped σ ε ι)
  | within (e : ε) (body : Scoped σ ε ι)

namespace Scoped

-- A scope is pushed first, and popped whatever the code inside does.
def compile : Scoped σ ε ι → Code σ ε ι
  | .done => .done
  | .throw => .throw
  | .call i => .call i
  | .ask next => .ask fun top s => (next top s).compile
  | .seq first second => .seq first.compile second.compile
  | .attempt body handler => .attempt body.compile handler.compile
  | .ensure body final => .ensure body.compile final.compile
  | .within e body => .seq (.push e) (.ensure body.compile .pop)

section Run

variable (act : List ε → σ → ι → σ × List ο)

-- The code read in a scope, without a stack.
def run : Scoped σ ε ι → Option ε → σ → Result σ ο
  | .done, _, s => .returned s
  | .throw, _, s => { Result.returned s with completed := false }
  | .call i, scope, s => ⟨true, (act scope.toList s i).1, (act scope.toList s i).2⟩
  | .ask next, scope, s => (next scope s).run scope s
  | .seq first second, scope, s =>
    let r := first.run scope s
    if r.completed then
      let r' := second.run scope r.state
      r.andThen r' r'.completed
    else
      r
  | .attempt body handler, scope, s =>
    let r := body.run scope s
    if r.completed then
      r
    else
      let r' := handler.run scope r.state
      r.andThen r' r'.completed
  | .ensure body final, scope, s =>
    let r := body.run scope s
    let r' := final.run scope r.state
    r.andThen r' (r.completed && r'.completed)
  | .within e body, _, s => body.run (some e) s

end Run

-- A call that looks at the top of the stack only.
def TopOnly (act : List ε → σ → ι → σ × List ο) : Prop :=
  ∀ stack s i, act stack s i = act stack.getLast?.toList s i

variable {act : List ε → σ → ι → σ × List ο}

/--
Code that only opens scopes does with the stack what it does when it is read in its scopes, and leaves
the stack as it found it, whatever it throws.
-/
theorem exec_compile (htop : TopOnly act) (p : Scoped σ ε ι) (stack : List ε) (s : σ)
    : p.compile.exec act stack s = (stack, p.run act stack.getLast? s) := by
  induction p generalizing stack s with
  | done => rfl
  | throw => rfl
  | call i => rw [compile, Code.exec, run, htop]
  | ask next ih =>
    rw [compile, Code.exec, run]
    exact ih _ _ stack s
  | seq first second ihf ihs =>
    rw [compile, Code.exec, run, ihf]
    dsimp only
    split
    . rw [ihs]
    . rfl
  | attempt body handler ihb ihh =>
    rw [compile, Code.exec, run, ihb]
    dsimp only
    split
    . rfl
    . rw [ihh]
  | ensure body final ihb ihf =>
    rw [compile, Code.exec, run, ihb]
    dsimp only
    rw [ihf]
  | within e body ih =>
    have hbody := ih (stack ++ [e]) s
    rw [List.getLast?_concat] at hbody
    simp [compile, Code.exec, run, hbody, Result.andThen, Result.returned]

-- Every call that the code may make is fine in the scope in which it is made.
def All (P : Option ε → ι → Prop) : Scoped σ ε ι → Option ε → Prop
  | .done, _ => True
  | .throw, _ => True
  | .call i, scope => P scope i
  | .ask next, scope => ∀ s, (next scope s).All P scope
  | .seq first second, scope => first.All P scope ∧ second.All P scope
  | .attempt body handler, scope => body.All P scope ∧ handler.All P scope
  | .ensure body final, scope => body.All P scope ∧ final.All P scope
  | .within e body, _ => body.All P (some e)

theorem outputs_of_all {P : Option ε → ι → Prop} {Q : ο → Prop}
    (hact : ∀ scope s i, P scope i → ∀ o ∈ (act scope.toList s i).2, Q o) {p : Scoped σ ε ι}
    {scope : Option ε} (h : p.All P scope) (s : σ) : ∀ o ∈ (p.run act scope s).outputs, Q o := by
  induction p generalizing scope s with
  | done => simp [run, Result.returned]
  | throw => simp [run, Result.returned]
  | call i => exact hact scope s i h
  | ask next ih =>
    rw [run]
    exact ih _ _ (h s) s
  | seq first second ihf ihs =>
    rw [run]
    dsimp only
    split
    . intro o ho
      rcases List.mem_append.mp ho with hfirst | hsecond
      . exact ihf h.1 s o hfirst
      . exact ihs h.2 _ o hsecond
    . exact ihf h.1 s
  | attempt body handler ihb ihh =>
    rw [run]
    dsimp only
    split
    . exact ihb h.1 s
    . intro o ho
      rcases List.mem_append.mp ho with hbody | hhandler
      . exact ihb h.1 s o hbody
      . exact ihh h.2 _ o hhandler
  | ensure body final ihb ihf =>
    intro o ho
    rcases List.mem_append.mp ho with hbody | hfinal
    . exact ihb h.1 s o hbody
    . exact ihf h.2 _ o hfinal
  | within e body ih =>
    rw [run]
    exact ih h s

end Scoped

end Scopes
