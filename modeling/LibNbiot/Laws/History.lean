/-
# Laws about the log

A law of the library is a property of every entry of the log, given the log
before it, or of every state that is reached. Some laws hold only in runs that
avoid a certain situation; that, too, is a property of the entries of the log.
An invariant of the session proves such a law when it is kept by every step
whose log still avoids the situation.
-/

import LibNbiot.Refinement.Runs

namespace LibNbiot

open Logic.Program Relation

/-- A property of an entry, given the log before it. -/
abbrev EntryLaw := LoopEvent ClientId SysEvent → View → Log → Prop

/-- A law holds of every entry of a log. -/
def Throughout (P : EntryLaw) : Log → Prop
  | [] => True
  | e :: t => P e.event e.view t ∧ Throughout P t

instance Throughout.decidable (P : EntryLaw) [∀ e v t, Decidable (P e v t)] :
    (t : Log) → Decidable (Throughout P t)
  | [] => .isTrue trivial
  | e :: t =>
      haveI := Throughout.decidable P t
      inferInstanceAs (Decidable (P e.event e.view t ∧ Throughout P t))

theorem Throughout.of_suffix {P : EntryLaw} {t t' : Log} (h : Throughout P t') (hs : t <:+ t') :
    Throughout P t := by
  obtain ⟨new, rfl⟩ := hs
  induction new with
  | nil => exact h
  | cons e new ih => exact ih h.2

/-- A log obeys a law: the law holds of every entry. -/
structure Obeys (P : EntryLaw) (t : Log) : Prop where
  throughout : Throughout P t

instance Obeys.decidable (P : EntryLaw) [∀ e v t, Decidable (P e v t)] (t : Log) :
    Decidable (Obeys P t) :=
  decidable_of_iff (Throughout P t) ⟨Obeys.mk, Obeys.throughout⟩

/-! ## The log only grows -/

theorem Answer.trace {k k' : Core} {c : ClientId} {phase : LoopPhase} {v : Int} {a : Bool}
    (h : Answer k c phase v a k') : k'.trace = k.trace := by
  cases h with
  | published v a k' h => cases h <;> rfl
  | _ => rfl

theorem Basic.suffix {k k' : Core} (h : Basic k k') : k.trace <:+ k'.trace := by
  have cons (e : LoopEvent ClientId SysEvent) (v : View) : k.trace <:+ ⟨e, v⟩ :: k.trace :=
    List.suffix_cons _ _
  cases h with
  | act h => cases h <;> first | exact cons _ _ | exact List.suffix_rfl
  | plug h => cases h <;> exact cons _ _
  | move h => cases h <;> exact cons _ _
  | ready h => cases h <;> first | exact cons _ _ | exact List.suffix_rfl
  | lost => exact List.suffix_rfl
  | hand h =>
    cases h with
    | countRetry c v w t hc hlog hleft =>
      simp only [Core.retry]
      split <;> exact cons _ _
    | _ => first | exact cons _ _ | exact List.suffix_rfl
  | turn h =>
    cases h with
    | answer c phase v a h hactive hdis ha =>
      rw [← ha.trace]
      exact List.suffix_cons _ _
    | wrap c phase a hanswered hdis h => cases h <;> exact List.suffix_rfl
    | _ => first | exact cons _ _ | exact List.suffix_rfl
  | ending h =>
    cases h with
    | wrap hanswered h => cases h <;> exact List.suffix_rfl
    | _ => first | exact cons _ _ | exact List.suffix_rfl
  | call h =>
    cases h with
    | publish id q hactive hqueue => exact (cons _ _).trans (List.suffix_cons _ _)
    | subscribe id q hactive hqueue hsub => exact (cons _ _).trans (List.suffix_cons _ _)
    | _ => exact cons _ _

theorem Step.suffix {k k' : Core} (h : Step k k') : k.trace <:+ k'.trace := by
  have hrun := h.basic
  clear h
  induction hrun with
  | refl => exact List.suffix_rfl
  | tail _ hstep ih => exact ih.trans hstep.suffix

/-! ## Invariants of the composite steps -/

section Composite

variable {C : EntryLaw} {I : Core → Prop}

/-- What the steps of a run keep under a law, the run keeps. -/
theorem keeps_run {R : Core → Core → Prop} (hbasic : ∀ {k k'}, R k k' → ReflTransGen Basic k k')
    (hstep : ∀ {k k'}, R k k' → Throughout C k'.trace → I k → I k') {k k' : Core}
    (hrun : ReflTransGen R k k') (hC : Throughout C k'.trace) (hk : I k) : I k' := by
  have suffix {k k' : Core} (hrun : ReflTransGen Basic k k') : k.trace <:+ k'.trace := by
    induction hrun with
    | refl => exact List.suffix_rfl
    | tail _ hstep ih => exact ih.trans hstep.suffix
  induction hrun with
  | refl => exact hk
  | tail _ h ih => exact hstep h hC (ih (hC.of_suffix (suffix (hbasic h))))

/-- What the elementary steps keep, and the end of the session by the gateway as a
whole, all steps keep. -/
theorem keeps_step (hquiet : ∀ {k k'}, Quiet k k' → Throughout C k'.trace → I k → I k')
    (hgone : ∀ {k k'}, Gone k k' → Throughout C k'.trace → I k → I k')
    (hhand : ∀ {k k'}, Hand k k' → Throughout C k'.trace → I k → I k')
    (hturn : ∀ {k k'}, Turn k k' → Throughout C k'.trace → I k → I k')
    (hended : ∀ {k k'}, Ended k k' → Throughout C k'.trace → I k → I k')
    (hcall : ∀ {k k'}, Call k k' → Throughout C k'.trace → I k → I k') {k k' : Core}
    (h : Step k k') (hC : Throughout C k'.trace) (hk : I k) : I k' := by
  cases h with
  | handler h =>
    cases h with
    | serve h =>
      cases h with
      | serving h => exact keeps_run (fun h => .single h.basic) hquiet h.quiet hC hk
      | gone h => exact hgone h hC hk
    | hand h => exact hhand h hC hk
  | turn h => exact hturn h hC hk
  | ended h => exact hended h hC hk
  | call h => exact hcall h hC hk

end Composite

/-! ## Runs under a law -/

section Runs

variable {C : EntryLaw} {I : Core → Prop} (hfresh : ∀ conf, I (.fresh conf))
  (setting : Setting) (calls : List ApiCall)

include hfresh in
/-- An invariant of the steps that respect a law holds in every run that does. -/
theorem holds_under (hstep : ∀ {k k'}, Step k k' → k.Steady → Throughout C k'.trace → I k → I k')
    (hC : Obeys C (setting.after calls).trace) : I (core (setting.after calls)) :=
  after_holds (J := fun k => Throughout C k.trace → I k) (fun n _ => hfresh n)
    (fun hsteady h hk hC => hstep h hsteady hC (hk (hC.of_suffix h.suffix))) setting calls
    hC.throughout

include hfresh in
/-- The same for the elementary steps. -/
theorem holds_under_basic (hstep : ∀ {k k'}, Basic k k' → Throughout C k'.trace → I k → I k')
    (hC : Obeys C (setting.after calls).trace) : I (core (setting.after calls)) :=
  after_holds_basic (J := fun k => Throughout C k.trace → I k) (fun n _ => hfresh n)
    (fun h hk hC => hstep h hC (hk (hC.of_suffix h.suffix))) setting calls hC.throughout

end Runs

/-! ## Scripted settings -/

/-- An outside world in which every look at the clock takes some milliseconds,
the reads answer from a list and fail when it is used up, and all else goes well
unless it is told to fail. -/
def scripted (reads : List Bytes) (clockStep : Nat) (fails : Device → Nat → Bool) (d : Device)
    (n : Nat) : Reply :=
  if fails d n then { ok := false }
  else match d with
    | .clock => { elapsed := clockStep }
    | .read => match reads[n]? with
      | some data => { data := data }
      | none => { ok := false }
    | .getImsi => { data := [49] }
    | _ => {}

/-- A library with notifications in a scripted world. -/
def Setting.script (reads : List Bytes) (clockStep : Nat) (maxResend : Nat := 0)
    (fails : Device → Nat → Bool := fun _ _ => false) : Setting where
  conf := { «notify» := true, gateway := [49], maxResend := maxResend }
  env := scripted reads clockStep fails
  epoch := 1

/-- The calls that connect the library, given a CONNACK. -/
def connecting (cleanSession : Nat) : List ApiCall :=
  .connect cleanSession :: List.replicate 5 (.eventLoop .active)

end LibNbiot
