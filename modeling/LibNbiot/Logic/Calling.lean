/-
# Programs that make calls

A program that is written against an interface knows nothing of what is behind it:
it makes a call, goes on with the answer, and ends with a result. What runs it says
what the calls do to some state. Two sides whose calls give the same answers cannot
be told apart by any program, and what every call keeps every program keeps.
-/

import LibNbiot.Logic.Program

namespace Logic

/-- A program: a result, or a call and what comes after its answer. -/
inductive Calling (C : Type) (Answer : C → Type) (α : Type) where
  | result (a : α)
  | call (c : C) (next : Answer c → Calling C Answer α)

namespace Calling

open Program

variable {C : Type} {Answer : C → Type} {α β σ τ : Type}

def bind : Calling C Answer α → (α → Calling C Answer β) → Calling C Answer β
  | .result a, f => f a
  | .call c next, f => .call c fun answer => (next answer).bind f

instance : Monad (Calling C Answer) where
  pure := .result
  bind := bind

/-- A program on a side that executes calls. -/
def run (exec : (c : C) → StateM σ (Answer c)) : Calling C Answer α → StateM σ α
  | .result a => Pure.pure a
  | .call c next => do (next (← exec c)).run exec

section Run

variable {exec : (c : C) → StateM σ (Answer c)}

@[simp] theorem run_result (a : α) (s : σ) :
    (Pure.pure a : Calling C Answer α).run exec s = (a, s) := rfl

@[simp] theorem run_call (c : C) (s : σ) :
    (call c .result : Calling C Answer (Answer c)).run exec s = exec c s := rfl

@[simp] theorem run_then (p : Calling C Answer α) (f : α → Calling C Answer β) (s : σ) :
    (p >>= f).run exec s = (f (p.run exec s).1).run exec (p.run exec s).2 := by
  induction p generalizing s with
  | result a => rfl
  | call c next ih => exact ih (exec c s).1 (exec c s).2

@[simp] theorem run_ite (c : Prop) [Decidable c] (p q : Calling C Answer α) (s : σ) :
    (if c then p else q).run exec s = if c then p.run exec s else q.run exec s := by
  split <;> rfl

end Run

/-- **What calls answer, programs answer**: on two sides whose calls agree. -/
theorem run_agrees {exec : (c : C) → StateM σ (Answer c)} {exec' : (c : C) → StateM τ (Answer c)}
    {R : σ → τ → Prop}
    (h : ∀ c s t, R s t → (exec c s).1 = (exec' c t).1 ∧ R (exec c s).2 (exec' c t).2)
    (p : Calling C Answer α) {s : σ} {t : τ} (hst : R s t) :
    (p.run exec s).1 = (p.run exec' t).1 ∧ R (p.run exec s).2 (p.run exec' t).2 := by
  induction p generalizing s t with
  | result a => exact ⟨rfl, hst⟩
  | call c next ih =>
    obtain ⟨hanswer, hnext⟩ := h c s t hst
    simp only [run, Program.run_bind]
    rw [hanswer]
    exact ih _ hnext

end Calling

end Logic
