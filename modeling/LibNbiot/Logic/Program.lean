/-
# Programs over a state, and what they keep

A program is a computation in `StateM`: it reads a state, answers, and leaves a
state behind. This module collects the rules that reason about such programs
without ever unfolding a whole one. A program can *keep* an observation of the
state (a frame rule), and a program can be *simulated* by the steps of an
abstract machine, under a precondition and up to a postcondition that both speak
about the abstract state only.

Nothing here depends on what the state or the machine is about.
-/

import Mathlib.Logic.Relation

namespace Logic.Program

variable {σ κ α β : Type}

/-! ## Running programs -/

@[simp]
theorem run_pure (a : α) (s : σ) : (pure a : StateM σ α) s = (a, s) := rfl

@[simp]
theorem run_bind (m : StateM σ α) (k : α → StateM σ β) (s : σ) :
    (m >>= k) s = k (m s).1 (m s).2 := rfl

@[simp]
theorem run_map (f : α → β) (m : StateM σ α) (s : σ) :
    (f <$> m) s = (f (m s).1, (m s).2) := rfl

@[simp]
theorem run_get (s : σ) : (get : StateM σ σ) s = (s, s) := rfl

@[simp]
theorem run_set (t s : σ) : (set t : StateM σ PUnit) s = (⟨⟩, t) := rfl

@[simp]
theorem run_modify (f : σ → σ) (s : σ) : (modify f : StateM σ PUnit) s = (⟨⟩, f s) := rfl

/-- Do something on a condition, and go on either way. -/
def onlyIf (c : Prop) [Decidable c] (m : StateM σ PUnit) : StateM σ PUnit :=
  if c then m else pure ⟨⟩

@[simp]
theorem run_ite (c : Prop) [Decidable c] (m n : StateM σ α) (s : σ) :
    (if c then m else n) s = if c then m s else n s := by
  split <;> rfl

@[simp]
theorem run_onlyIf (c : Prop) [Decidable c] (m : StateM σ PUnit) (s : σ) :
    onlyIf c m s = if c then m s else (⟨⟩, s) :=
  run_ite c m (pure ⟨⟩) s

end Logic.Program
