/-
# Machines, and the programs that refine them

An abstract machine is a step relation together with an invariant that every
step keeps. A program over a concrete state refines the machine, seen through an
abstraction, when everything it does to the abstract state is a run of the
machine. A refinement carries a precondition and a postcondition about the
abstract state, so that the refinement of a program is put together from the
refinements of its parts without looking inside them.

A smaller machine can stand in for a larger one: what refines it refines the
larger one as well, and whatever its steps leave alone is a frame.
-/

import LibNbiot.Logic.Program

namespace Logic.Program

open Relation

variable {σ κ α β : Type}

/-! ## Machines -/

/-- A step relation and an invariant that it keeps. -/
structure Machine (κ : Type) where
  Step : κ → κ → Prop
  Inv : κ → Prop
  keeps : ∀ {k k' : κ}, Inv k → Step k k' → Inv k'

namespace Machine

/-- The runs of a machine. -/
abbrev Run (A : Machine κ) : κ → κ → Prop := ReflTransGen A.Step

variable {A B C : Machine κ}

/-- What every step keeps from a state of the invariant, every run keeps. -/
theorem Run.keeps {J : κ → Prop} {k k' : κ} (hrun : A.Run k k') (hinv : A.Inv k)
    (hJ : ∀ {k k'}, A.Inv k → A.Step k k' → J k → J k') (hk : J k) : A.Inv k' ∧ J k' := by
  induction hrun with
  | refl => exact ⟨hinv, hk⟩
  | tail _ hstep ih => exact ⟨A.keeps ih.1 hstep, hJ ih.1 hstep ih.2⟩

theorem Run.inv {k k' : κ} (hrun : A.Run k k') (hinv : A.Inv k) : A.Inv k' :=
  (hrun.keeps (J := fun _ => True) hinv (fun _ _ _ => trivial) trivial).1

/-- The machine that can do anything: to refine it is to meet the postcondition. -/
def any (κ : Type) : Machine κ where
  Step _ _ := True
  Inv _ := True
  keeps _ _ := trivial

/-- Every step of the first machine is a run of the second. -/
structure Sub (A B : Machine κ) : Prop where
  inv : ∀ {k}, B.Inv k → A.Inv k
  step : ∀ {k k'}, B.Inv k → A.Step k k' → B.Run k k'

theorem Sub.run (h : Sub A B) {k k' : κ} (hinv : B.Inv k) (hrun : A.Run k k') : B.Run k k' := by
  induction hrun with
  | refl => exact .refl
  | tail _ hstep ih => exact ih.trans (h.step (ih.inv hinv) hstep)

theorem Sub.refl (A : Machine κ) : Sub A A := ⟨id, fun _ h => .single h⟩

theorem Sub.trans (hab : Sub A B) (hbc : Sub B C) : Sub A C :=
  ⟨fun h => hab.inv (hbc.inv h), fun hinv h => hbc.run hinv (hab.step (hbc.inv hinv) h)⟩

end Machine

/-! ## Silent programs -/

/-- A program that leaves the abstract state alone. -/
def Silent (abs : σ → κ) (m : StateM σ α) : Prop := ∀ s, abs (m s).2 = abs s

namespace Silent

variable {abs : σ → κ}

theorem pure (a : α) : Silent abs (Pure.pure a : StateM σ α) := fun _ => rfl

theorem bind {m : StateM σ α} {f : α → StateM σ β} (hm : Silent abs m)
    (hf : ∀ a, Silent abs (f a)) : Silent abs (m >>= f) :=
  fun s => (hf (m s).1 (m s).2).trans (hm s)

theorem map {m : StateM σ α} {f : α → β} (hm : Silent abs m) : Silent abs (f <$> m) := hm

theorem ite {c : Prop} [Decidable c] {m n : StateM σ α} (hm : Silent abs m)
    (hn : Silent abs n) : Silent abs (if c then m else n) := by
  split
  · exact hm
  · exact hn

theorem onlyIf {c : Prop} [Decidable c] {m : StateM σ PUnit} (hm : Silent abs m) :
    Silent abs (onlyIf c m) := ite hm (pure _)

end Silent

/-! ## Refinement -/

/-- From every concrete state whose abstraction meets the invariant and the
precondition, the program runs the machine and ends in the postcondition. -/
def Refines (abs : σ → κ) (A : Machine κ) (P : κ → Prop) (m : StateM σ α)
    (Q : α → κ → Prop) : Prop :=
  ∀ s, A.Inv (abs s) → P (abs s) → A.Run (abs s) (abs (m s).2) ∧ Q (m s).1 (abs (m s).2)

namespace Refines

variable {abs : σ → κ} {A B : Machine κ} {P S : κ → Prop} {Q T : α → κ → Prop}

theorem pure {a : α} (h : ∀ k, P k → Q a k) : Refines abs A P (Pure.pure a) Q :=
  fun s _ hs => ⟨.refl, h (abs s) hs⟩

theorem bind {m : StateM σ α} {f : α → StateM σ β} {R : α → κ → Prop} {Q : β → κ → Prop}
    (hm : Refines abs A P m R) (hf : ∀ a, Refines abs A (R a) (f a) Q) :
    Refines abs A P (m >>= f) Q := by
  intro s hinv hs
  obtain ⟨hrun, hR⟩ := hm s hinv hs
  obtain ⟨hrun', hQ⟩ := hf (m s).1 (m s).2 (hrun.inv hinv) hR
  exact ⟨hrun.trans hrun', hQ⟩

theorem map {m : StateM σ α} {f : α → β} {Q : β → κ → Prop}
    (hm : Refines abs A P m fun a => Q (f a)) : Refines abs A P (f <$> m) Q :=
  fun s hinv hs => hm s hinv hs

theorem conseq {m : StateM σ α} (h : Refines abs A S m T) (hpre : ∀ k, P k → S k)
    (hpost : ∀ a k, T a k → Q a k) : Refines abs A P m Q :=
  fun s hinv hs => (h s hinv (hpre _ hs)).imp_right (hpost _ _)

theorem pre {m : StateM σ α} (h : Refines abs A S m Q) (hpre : ∀ k, P k → S k) :
    Refines abs A P m Q :=
  h.conseq hpre fun _ _ hQ => hQ

theorem post {m : StateM σ α} (h : Refines abs A P m T) (hpost : ∀ a k, T a k → Q a k) :
    Refines abs A P m Q :=
  h.conseq (fun _ hP => hP) hpost

theorem ite {c : Prop} [Decidable c] {m n : StateM σ α}
    (hm : c → Refines abs A P m Q) (hn : ¬c → Refines abs A P n Q) :
    Refines abs A P (if c then m else n) Q := by
  split
  · exact hm ‹_›
  · exact hn ‹_›

theorem onlyIf {c : Prop} [Decidable c] {m : StateM σ PUnit} {Q : PUnit → κ → Prop}
    (hm : c → Refines abs A P m Q) (hn : ¬c → ∀ k, P k → Q ⟨⟩ k) :
    Refines abs A P (onlyIf c m) Q :=
  ite hm fun hc => pure (hn hc)

/-- The precondition can be taken for a fact about the state at hand. -/
theorem intro {m : StateM σ α} (h : ∀ k₀, P k₀ → Refines abs A (fun k => k = k₀) m Q) :
    Refines abs A P m Q :=
  fun s hinv hs => h (abs s) hs s hinv rfl

/-- So can the invariant of the machine. -/
theorem introInv {m : StateM σ α}
    (h : ∀ k₀, A.Inv k₀ → P k₀ → Refines abs A (fun k => k = k₀) m Q) : Refines abs A P m Q :=
  fun s hinv hs => h (abs s) hinv hs s hinv rfl

theorem silent {m : StateM σ α} (h : Silent abs m) : Refines abs A P m fun _ => P :=
  fun s _ hs => by rw [h s]; exact ⟨.refl, hs⟩

theorem silent_bind {m : StateM σ α} {f : α → StateM σ β} {Q : β → κ → Prop}
    (h : Silent abs m) (hf : ∀ a, Refines abs A P (f a) Q) : Refines abs A P (m >>= f) Q :=
  bind (silent h) hf

/-- Reading the state: the program goes on from the state that was read. -/
theorem reads {m : StateM σ α} {g : σ → α} {f : α → StateM σ β} {Q : β → κ → Prop}
    (hm : ∀ s, m s = (g s, s))
    (hf : ∀ s, P (abs s) → Refines abs A (fun k => k = abs s) (f (g s)) Q) :
    Refines abs A P (m >>= f) Q := by
  intro s hinv hs
  rw [run_bind, hm s]
  exact hf s hs s hinv rfl

/-- A program that does a single step. -/
theorem single {m : StateM σ α}
    (h : ∀ s, P (abs s) → A.Step (abs s) (abs (m s).2) ∧ Q (m s).1 (abs (m s).2)) :
    Refines abs A P m Q :=
  fun s _ hs => (h s hs).imp_left .single

/-- A postcondition proved apart from the run. -/
theorem and_post {m : StateM σ α} (h : Refines abs A P m Q)
    (hpost : ∀ s, P (abs s) → T (m s).1 (abs (m s).2)) :
    Refines abs A P m fun a k => Q a k ∧ T a k := by
  intro s hinv hs
  obtain ⟨hrun, hQ⟩ := h s hinv hs
  exact ⟨hrun, hQ, hpost s hs⟩

/-- What refines a machine refines every larger one. -/
theorem mono {m : StateM σ α} (h : Refines abs A P m Q) (hsub : A.Sub B) :
    Refines abs B P m Q :=
  fun s hinv hs => (h s (hsub.inv hinv) hs).imp_left (hsub.run hinv)

/-- A fact that every step keeps is kept by the program. -/
theorem frame {m : StateM σ α} {J : κ → Prop} (h : Refines abs A P m Q)
    (hJ : ∀ {k k'}, A.Inv k → A.Step k k' → J k → J k') :
    Refines abs A (fun k => P k ∧ J k) m fun a k => Q a k ∧ J k := by
  intro s hinv hs
  obtain ⟨hrun, hQ⟩ := h s hinv hs.1
  exact ⟨hrun, hQ, (hrun.keeps hinv hJ hs.2).2⟩

/-- The run of a program as a single step of another machine. -/
theorem atomic {m : StateM σ α} (h : Refines abs A P m Q) (hinv : ∀ {k}, B.Inv k → A.Inv k)
    (hstep : ∀ {k k' a}, B.Inv k → P k → A.Run k k' → Q a k' → B.Step k k') :
    Refines abs B P m Q := by
  intro s hs hP
  obtain ⟨hrun, hQ⟩ := h s (hinv hs) hP
  exact ⟨.single (hstep hs hP hrun hQ), hQ⟩

end Refines

end Logic.Program
