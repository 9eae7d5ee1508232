/-
# The engine of the state machine

`NbiotStm` is built from objects that point to each other: states, transitions and
choices. An event goes from the current state to the first of its transitions that
waits for it, and from there along the pointers, until it enters a state. This
module models the objects and what they do with an event, for any state machine.

Nothing but the pointers says that an event gets anywhere: a pointer may be missing,
and pointers may go round in a circle, which is why the functions have fuel. Where
every way ends in a state, no event is lost.
-/

import LibNbiot.Logic.Program

namespace LibNbiot

open Logic.Program

namespace Engine

/-! ## Events -/

/-- `StmEvent::EventState`. -/
inductive EventState where
  | pending
  | accepted
  | ignored
  | aborted
  | handled
  deriving DecidableEq, Repr

/-- `StmEvent::Invalid`. -/
def invalidType : Int := 0

/-- `StmEvent::Timer`. -/
def timerType : Int := 1

def customMin : Int := 256

def customMax : Int := 0x7fffffff

/-- `StmEvent`. -/
structure Event where
  eventType : Int := invalidType
  eventState : EventState := .pending
  eventId : Int := -1
  deriving DecidableEq, Repr

namespace Event

def setEventState (e : Event) (s : EventState) : Event := { e with eventState := s }

/-- `setCustomEventType(type)`. -/
def setCustomEventType (e : Event) (type : Int) : Event :=
  if customMin ≤ type ∧ type ≤ customMax then { e with eventType := type } else e

@[simp] theorem eventType_setEventState (e : Event) (s : EventState) :
    (e.setEventState s).eventType = e.eventType := rfl

@[simp] theorem setEventState_setEventState (e : Event) (s s' : EventState) :
    (e.setEventState s).setEventState s' = e.setEventState s' := rfl

end Event

/-! ## Objects -/

/-- `ActionPtr`: a member function of the state machine, or none. -/
abbrev ActionPtr (σ : Type) := Option (Event → StateM σ Bool)

/-- `action(e)`. -/
def ActionPtr.call {σ : Type} (action : ActionPtr σ) (e : Event) : StateM σ Bool :=
  match action with
  | some f => f e
  | none => pure false

section Objects

variable (S T C σ : Type)

/-- What a pointer to an `IStateMachineNode` leads to. -/
inductive Node where
  | state (s : S)
  | stateMachine
  | transition (t : T)
  | choice (c : C)
  deriving DecidableEq, Repr

/-- The members of `Transition`. -/
structure TransitionObject where
  target : Option (Node S T C) := none
  trAction : ActionPtr σ := none
  eventType : Int := invalidType

/-- The members of `Choice`. -/
structure ChoiceObject where
  target0 : Option T := none
  target1 : Option T := none
  condition : ActionPtr σ := none

/-- The members of `State`. -/
structure StateObject where
  stateId : Nat := 0
  parent : Option (Node S T C) := none
  transitions : List T := []
  entryAction : ActionPtr σ := none

/-- All the objects of a state machine. -/
structure Objects where
  state : S → StateObject S T C σ := fun _ => {}
  transition : T → TransitionObject S T C σ := fun _ => {}
  choice : C → ChoiceObject T σ := fun _ => {}

/-- `AbstractStateMachine`: its members are part of a state that actions can change. -/
structure AbstractStateMachine where
  getCurrentState : StateM σ (Option S)
  setCurrentState : S → StateM σ Unit
  /-- Clear the state timer if it is valid. -/
  clearTimer : StateM σ Unit
  /-- What the history says of a transition that is triggered. -/
  fired : T → Event → StateM σ Unit

end Objects

variable {S T C σ : Type}

/-! ## What becomes of an event -/

section Functions

variable (stm : AbstractStateMachine S T σ) (objects : Objects S T C σ)

/-- `getRoot()`: whether it is the state machine. -/
def getRoot : Nat → S → Option Bool
  | 0, _ => none
  | fuel + 1, s =>
      match (objects.state s).parent with
      | some .stateMachine => some true
      | some (.state p) => getRoot fuel p
      | some (.transition _) | some (.choice _) | none => some false

/-- `State::enter(e)`. -/
def enter (fuel : Nat) (s : S) (e : Event) : StateM σ (Option Event) :=
  match getRoot objects fuel s with
  | some true => do
      stm.setCurrentState s
      stm.clearTimer
      let _ ← (objects.state s).entryAction.call e
      return some (e.setEventState .handled)
  | some false => return some (e.setEventState .aborted)
  | none => return none

mutual

/-- `Transition::trigger(e)`. -/
def trigger : Nat → T → Event → StateM σ (Option Event)
  | 0, _, _ => return none
  | fuel + 1, t, e => do
      stm.fired t e
      let _ ← (objects.transition t).trAction.call e
      match (objects.transition t).target with
      | some (.transition t') => trigger fuel t' e
      | some (.choice c) => execute fuel c e
      | some (.state s) => enter stm objects fuel s e
      | some .stateMachine | none => return some (e.setEventState .aborted)

/-- `Choice::execute(e)`. -/
def execute : Nat → C → Event → StateM σ (Option Event)
  | 0, _, _ => return none
  | fuel + 1, c, e =>
      match (objects.choice c).condition with
      | some condition => do
          let yes ← condition e
          match if yes then (objects.choice c).target0 else (objects.choice c).target1 with
          | some t => trigger fuel t e
          | none => return some (e.setEventState .aborted)
      | none => return some (e.setEventState .aborted)

end

/-- The first transition of a state that waits for events of a type. -/
def transitionFor (s : S) (type : Int) : Option T :=
  (objects.state s).transitions.find? fun t => (objects.transition t).eventType = type

/-- `State::handleEvent(ev)`. -/
def handleInState (fuel : Nat) (s : S) (ev : Event) : StateM σ (Option Event) :=
  match transitionFor objects s ev.eventType with
  | some t => trigger stm objects fuel t (ev.setEventState .accepted)
  | none => return some (ev.setEventState .ignored)

/-- `AbstractStateMachine::handleEvent(ev)`. -/
def handleEvent (fuel : Nat) (ev : Event) : StateM σ (Option Event) := do
  match ← stm.getCurrentState with
  | some s => handleInState stm objects fuel s ev
  | none => return some (ev.setEventState .ignored)

end Functions

/-! ## Ways that end in a state -/

/-- A state that a way up the parents leads from to the state machine, in so many steps. -/
inductive Rooted (objects : Objects S T C σ) : Nat → S → Prop
  | machine {n : Nat} {s : S} (h : (objects.state s).parent = some .stateMachine) :
      Rooted objects (n + 1) s
  | state {n : Nat} {s p : S} (h : (objects.state s).parent = some (.state p))
      (hp : Rooted objects n p) : Rooted objects (n + 1) s

/-- An object from which every way ends in a state, in so many steps. -/
inductive Settles (objects : Objects S T C σ) : Nat → Node S T C → Prop
  | state {n : Nat} {s : S} (h : Rooted objects n s) : Settles objects n (.state s)
  | transition {n : Nat} {t : T} {node : Node S T C}
      (h : (objects.transition t).target = some node) (hnode : Settles objects n node) :
      Settles objects (n + 1) (.transition t)
  | choice {n : Nat} {c : C} {t₀ t₁ : T} {condition : Event → StateM σ Bool}
      (h : objects.choice c = ⟨some t₀, some t₁, some condition⟩)
      (h₀ : Settles objects n (.transition t₀)) (h₁ : Settles objects n (.transition t₁)) :
      Settles objects (n + 1) (.choice c)

variable {stm : AbstractStateMachine S T σ} {objects : Objects S T C σ}

theorem Rooted.getRoot_eq {n : Nat} {s : S} (h : Rooted objects n s) {fuel : Nat}
    (hfuel : n ≤ fuel) : getRoot objects fuel s = some true := by
  induction h generalizing fuel with
  | machine h =>
    obtain ⟨fuel, rfl⟩ := Nat.exists_eq_add_of_le' hfuel
    rw [← Nat.add_assoc, getRoot, h]
  | state h hp ih =>
    obtain ⟨fuel, rfl⟩ := Nat.exists_eq_add_of_le' hfuel
    rw [← Nat.add_assoc, getRoot, h]
    exact ih (Nat.le_add_left _ fuel)

/-- What an object makes of an event that gets there. -/
def Node.pass (stm : AbstractStateMachine S T σ) (objects : Objects S T C σ) (fuel : Nat)
    (e : Event) : Node S T C → StateM σ (Option Event)
  | .state s => enter stm objects fuel s e
  | .transition t => trigger stm objects fuel t e
  | .choice c => execute stm objects fuel c e
  | .stateMachine => return some (e.setEventState .aborted)

theorem trigger_succ {t : T} {node : Node S T C}
    (h : (objects.transition t).target = some node) (fuel : Nat) (e : Event) :
    trigger stm objects (fuel + 1) t e = (do
      stm.fired t e
      let _ ← (objects.transition t).trAction.call e
      node.pass stm objects fuel e) := by
  rw [trigger]
  simp only [h]
  cases node <;> rfl

theorem execute_succ {c : C} {t₀ t₁ : T} {condition : Event → StateM σ Bool}
    (h : objects.choice c = ⟨some t₀, some t₁, some condition⟩) (fuel : Nat) (e : Event) :
    execute stm objects (fuel + 1) c e = (do
      if ← condition e then trigger stm objects fuel t₀ e else trigger stm objects fuel t₁ e) := by
  rw [execute]
  simp only [h]
  congr 1
  funext yes
  cases yes <;> rfl

/-- Where every way ends in a state the event is handled, whatever the actions do. -/
theorem Settles.handled {n : Nat} {node : Node S T C} (h : Settles objects n node) {fuel : Nat}
    (hfuel : n ≤ fuel) (e : Event) (x : σ) :
    (node.pass stm objects fuel e x).1 = some (e.setEventState .handled) := by
  induction h generalizing fuel x with
  | state h =>
    rw [Node.pass, enter, h.getRoot_eq hfuel]
    rfl
  | transition h hnode ih =>
    obtain ⟨fuel, rfl⟩ := Nat.exists_eq_add_of_le' hfuel
    rw [Node.pass, ← Nat.add_assoc, trigger_succ h]
    exact ih (Nat.le_add_left _ fuel) _
  | choice h h₀ h₁ ih₀ ih₁ =>
    obtain ⟨fuel, rfl⟩ := Nat.exists_eq_add_of_le' hfuel
    rw [Node.pass, ← Nat.add_assoc, execute_succ h, run_bind, run_ite]
    split
    · exact ih₀ (Nat.le_add_left _ fuel) _
    · exact ih₁ (Nat.le_add_left _ fuel) _

/-- The transition that the current state has for events of a type. -/
def currentTransition (stm : AbstractStateMachine S T σ) (objects : Objects S T C σ) (type : Int)
    (x : σ) : Option T :=
  (stm.getCurrentState x).1.bind fun s => transitionFor objects s type

/-- **No event is lost**: where every way ends in a state, an event is handled if the current
state waits for it, and ignored otherwise. -/
theorem handleEvent_settles {n : Nat}
    (h : ∀ s, ∀ t ∈ (objects.state s).transitions, Settles objects n (.transition t))
    {fuel : Nat} (hfuel : n ≤ fuel) (ev : Event) (x : σ) :
    (handleEvent stm objects fuel ev x).1 = some (ev.setEventState
      (if (currentTransition stm objects ev.eventType x).isSome then .handled else .ignored)) := by
  rw [currentTransition, handleEvent, run_bind]
  cases hs : (stm.getCurrentState x).1 with
  | none => rfl
  | some s =>
    simp only [handleInState]
    cases ht : transitionFor objects s ev.eventType with
    | none => simp [ht]
    | some t =>
      have hsettles := h s t (List.mem_of_find?_eq_some ht)
      simpa [ht, Node.pass] using hsettles.handled hfuel (ev.setEventState .accepted) _

end Engine

end LibNbiot
