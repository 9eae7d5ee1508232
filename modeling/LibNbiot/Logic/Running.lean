/-
# Programs that only run a machine

Often nothing is to be said about a program but that it runs a machine, from any
state. Such programs are closed under everything that programs are put together
with, and whatever every step of the machine keeps they keep as well.
-/

import LibNbiot.Logic.Machine

namespace Logic.Program

variable {σ κ α β : Type} {abs : σ → κ} {A B : Machine κ}

/-- Everything the program does to the abstract state is a run of the machine. -/
abbrev Runs (abs : σ → κ) (A : Machine κ) (m : StateM σ α) : Prop :=
  Refines abs A (fun _ => True) m fun _ _ => True

namespace Runs

theorem silent {m : StateM σ α} (h : Silent abs m) : Runs abs A m := Refines.silent h

theorem pure (a : α) : Runs abs A (Pure.pure a : StateM σ α) := .silent (.pure a)

theorem bind {m : StateM σ α} {f : α → StateM σ β} (hm : Runs abs A m)
    (hf : ∀ a, Runs abs A (f a)) : Runs abs A (m >>= f) := Refines.bind hm hf

theorem silent_bind {m : StateM σ α} {f : α → StateM σ β} (hm : Silent abs m)
    (hf : ∀ a, Runs abs A (f a)) : Runs abs A (m >>= f) := Refines.silent_bind hm hf

theorem map {m : StateM σ α} {f : α → β} (hm : Runs abs A m) : Runs abs A (f <$> m) :=
  Refines.map hm

theorem ite {c : Prop} [Decidable c] {m n : StateM σ α} (hm : Runs abs A m)
    (hn : Runs abs A n) : Runs abs A (if c then m else n) := Refines.ite (fun _ => hm) fun _ => hn

theorem onlyIf {c : Prop} [Decidable c] {m : StateM σ PUnit} (hm : Runs abs A m) :
    Runs abs A (Logic.Program.onlyIf c m) := ite hm (pure _)

/-- A program that does a single step. -/
theorem single {m : StateM σ α} (h : ∀ s, A.Step (abs s) (abs (m s).2)) : Runs abs A m :=
  Refines.single fun s _ => ⟨h s, trivial⟩

theorem mono {m : StateM σ α} (h : Runs abs A m) (hsub : A.Sub B) : Runs abs B m :=
  Refines.mono h hsub

/-- What every step keeps the program keeps. -/
theorem keeps {m : StateM σ α} {J : κ → Prop} (h : Runs abs A m)
    (hJ : ∀ {k k'}, A.Inv k → A.Step k k' → J k → J k') : Refines abs A J m fun _ => J :=
  (Refines.frame h hJ).conseq (fun _ hk => ⟨trivial, hk⟩) fun _ _ hk => hk.2

end Runs

end Logic.Program
