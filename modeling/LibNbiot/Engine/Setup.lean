/-
# The objects of the state machine

`NbiotStm` sets up its objects with one call after another. This module makes the
calls in the order of the source, and shows that what the objects then do with an
event is what the model of the state machine says: the same actions in the same
order, in the same state in the end.
-/

import LibNbiot.Engine.Nodes
import LibNbiot.StateMachine

namespace LibNbiot

open Logic.Program

namespace Engine

/-! ## Calls that set up objects -/

section SetUp

variable {S T C σ : Type} [DecidableEq S] [DecidableEq T] [DecidableEq C]

namespace Objects

def onTransition (objects : Objects S T C σ) (t : T)
    (f : TransitionObject S T C σ → TransitionObject S T C σ) : Objects S T C σ :=
  { objects with
    transition := fun t' => if t' = t then f (objects.transition t') else objects.transition t' }

def onChoice (objects : Objects S T C σ) (c : C) (f : ChoiceObject T σ → ChoiceObject T σ) :
    Objects S T C σ :=
  { objects with choice := fun c' => if c' = c then f (objects.choice c') else objects.choice c' }

def onState (objects : Objects S T C σ) (s : S)
    (f : StateObject S T C σ → StateObject S T C σ) : Objects S T C σ :=
  { objects with state := fun s' => if s' = s then f (objects.state s') else objects.state s' }

end Objects

/-- A call of a member function that sets something up. -/
inductive SetUp (S T C σ : Type) where
  /-- `t->setTarget(target)`. -/
  | setTarget (t : T) (target : Node S T C)
  /-- `t->setAction(this, action)`. -/
  | setAction (t : T) (action : Event → StateM σ Bool)
  /-- `t->setEventType(type)`. -/
  | setEventType (t : T) (type : Int)
  /-- `c->setCondition(this, condition)`. -/
  | setCondition (c : C) (condition : Event → StateM σ Bool)
  /-- `c->setTransitions(t0, t1)`. -/
  | setTransitions (c : C) (t0 t1 : T)
  /-- `s->setAction(this, action)`. -/
  | setEntryAction (s : S) (action : Event → StateM σ Bool)
  /-- `s->addTransition(tr)`. -/
  | addTransition (s : S) (tr : T)
  /-- `s->setId(id)`. -/
  | setId (s : S) (id : Nat)

def SetUp.apply (objects : Objects S T C σ) : SetUp S T C σ → Objects S T C σ
  | .setTarget t target => objects.onTransition t fun o => { o with target := some target }
  | .setAction t action => objects.onTransition t fun o => { o with trAction := some action }
  | .setEventType t type => objects.onTransition t fun o => { o with eventType := type }
  | .setCondition c condition => objects.onChoice c fun o => { o with condition := some condition }
  | .setTransitions c t0 t1 =>
      objects.onChoice c fun o => { o with target0 := some t0, target1 := some t1 }
  | .setEntryAction s action => objects.onState s fun o => { o with entryAction := some action }
  | .addTransition s tr =>
      objects.onState s fun o => { o with transitions := o.transitions ++ [tr] }
  | .setId s id => objects.onState s fun o => { o with stateId := id }

end SetUp

/-! ## Codes -/

/-- `NbiotStm::EventType`, behind the types that every state machine has. -/
def typeOf : StmEvent → Int
  | .invalid => invalidType
  | .timer => timerType
  | .initializeEvent => customMin
  | .connectEvent => customMin + 1
  | .sleepEvent => customMin + 2
  | .wakeupEvent => customMin + 3
  | .connectedAwakeEvent => customMin + 4
  | .awakeSleepEvent => customMin + 5
  | .awakeActiveEvent => customMin + 6
  | .hibernateEvent => customMin + 7
  | .reInitializeEvent => customMin + 8
  | .disconnectEvent => customMin + 9
  | .errorDisconnectEvent => customMin + 10
  | .connectedEvent => customMin + 13
  | .attachedEvent => customMin + 14

/-- The event of a type; the types between them are of no event that is ever made. -/
def ofType (type : Int) : StmEvent :=
  ([.timer, .initializeEvent, .connectEvent, .sleepEvent, .wakeupEvent, .connectedAwakeEvent,
    .awakeSleepEvent, .awakeActiveEvent, .hibernateEvent, .reInitializeEvent, .disconnectEvent,
    .errorDisconnectEvent, .connectedEvent, .attachedEvent].find? fun e => typeOf e = type).getD
    .invalid

/-- `StateIds`. -/
def idOf : StateId → Nat
  | .initial => 1
  | .disconnected => 2
  | .error => 3
  | .connected => 4
  | .connectedSleep => 5
  | .deepSleep => 6
  | .disconnectedSleep => 7
  | .connectedAwake => 8
  | .waitForAttach => 9
  | .waitForConnect => 10

@[simp] theorem ofType_typeOf (e : StmEvent) : ofType (typeOf e) = e := by
  cases e <;> rfl

/-! ## The state machine -/

namespace NbiotStm

abbrev StmObjects := Objects StateId Transition Choice Sys

/-- An action as an object calls it; nobody reads what the actions of transitions and states
return. -/
def doing (m : StmEvent → M Unit) (e : Event) : M Bool := do
  m (ofType e.eventType)
  return false

/-- The constructor: every state has the state machine for its parent. -/
def construct : StmObjects where
  state _ := { parent := some .stateMachine }

/-- `setUpStateMachine()`, without the actions that only print. -/
def setUpStateMachine : List (SetUp StateId Transition Choice Sys) := [
  .setTarget .mInitialize (.choice .isInitialized),
  .setEventType .mInitialize (typeOf .initializeEvent),
  .setTarget .mInitialTimeout (.choice .isInitialized),
  .setEventType .mInitialTimeout (typeOf .timer),
  .setTarget .mIsInitializedDisconnected (.state .disconnected),
  .setTarget .mIsInitializedError (.state .error),
  .setAction .mIsInitializedError (doing fun _ => Transition.mIsInitializedError.action),
  .setTarget .mConnect (.choice .isAttached),
  .setAction .mConnect (doing fun _ => Transition.mConnect.action),
  .setEventType .mConnect (typeOf .connectEvent),
  .setTarget .mIsNotAttached (.state .waitForAttach),
  .setAction .mIsNotAttached (doing fun _ => Transition.mIsNotAttached.action),
  .setTarget .mIsAttachedIpConnect (.choice .isIpConnected),
  .setAction .mIsAttachedIpConnect (doing fun _ => Transition.mIsAttachedIpConnect.action),
  .setEventType .mIsAttachedIpConnect (typeOf .attachedEvent),
  .setTarget .mIsAttachedError (.state .error),
  .setAction .mIsAttachedError (doing fun _ => Transition.mIsAttachedError.action),
  .setEventType .mIsAttachedError (typeOf .timer),
  .setTarget .mIsIpConnectedError (.state .error),
  .setAction .mIsIpConnectedError (doing fun _ => Transition.mIsIpConnectedError.action),
  .setTarget .mIsConnectedConnected (.state .connected),
  .setAction .mIsConnectedConnected (doing fun _ => Transition.mIsConnectedConnected.action),
  .setEventType .mIsConnectedConnected (typeOf .connectedEvent),
  .setTarget .mWaitConnectIsConnected (.state .waitForConnect),
  .setAction .mWaitConnectIsConnected (doing fun _ => Transition.mWaitConnectIsConnected.action),
  .setTarget .mIsConnectedError (.state .error),
  .setAction .mIsConnectedError (doing fun _ => Transition.mIsConnectedError.action),
  .setEventType .mIsConnectedError (typeOf .timer),
  .setTarget .mSleep (.state .connectedSleep),
  .setAction .mSleep (doing fun _ => Transition.mSleep.action),
  .setEventType .mSleep (typeOf .sleepEvent),
  .setTarget .mWakeup (.state .connected),
  .setAction .mWakeup (doing fun _ => Transition.mWakeup.action),
  .setEventType .mWakeup (typeOf .wakeupEvent),
  .setTarget .mSleepAwake (.state .connectedAwake),
  .setEventType .mSleepAwake (typeOf .connectedAwakeEvent),
  .setTarget .mAwakeSleep (.state .connectedSleep),
  .setEventType .mAwakeSleep (typeOf .awakeSleepEvent),
  .setTarget .mAwakeActive (.state .connected),
  .setAction .mAwakeActive (doing fun _ => Transition.mAwakeActive.action),
  .setEventType .mAwakeActive (typeOf .awakeActiveEvent),
  .setTarget .mAwakeTimeout (.state .connectedSleep),
  .setEventType .mAwakeTimeout (typeOf .timer),
  .setTarget .mHibernate (.state .deepSleep),
  .setEventType .mHibernate (typeOf .hibernateEvent),
  .setTarget .mReInitialize (.state .initial),
  .setEventType .mReInitialize (typeOf .reInitializeEvent),
  .setTarget .mDisconnect (.state .disconnected),
  .setEventType .mDisconnect (typeOf .disconnectEvent),
  .setTarget .mErrorDisconnect (.state .disconnected),
  .setEventType .mErrorDisconnect (typeOf .errorDisconnectEvent),
  .setTarget .mErrorReInitialize (.state .initial),
  .setEventType .mErrorReInitialize (typeOf .reInitializeEvent),
  .setTarget .mErrorTimeout (.state .initial),
  .setEventType .mErrorTimeout (typeOf .timer),
  .setTarget .mDisSleep (.state .disconnectedSleep),
  .setEventType .mDisSleep (typeOf .sleepEvent),
  .setTarget .mDisWakeup (.state .disconnected),
  .setEventType .mDisWakeup (typeOf .wakeupEvent),
  .setTarget .mDisHibernate (.state .deepSleep),
  .setEventType .mDisHibernate (typeOf .hibernateEvent),
  .setCondition .isInitialized fun _ => Choice.isInitialized.condition,
  .setTransitions .isInitialized .mIsInitializedDisconnected .mIsInitializedError,
  .setCondition .isAttached fun _ => Choice.isAttached.condition,
  .setTransitions .isAttached .mIsAttachedIpConnect .mIsNotAttached,
  .setCondition .isIpConnected fun _ => Choice.isIpConnected.condition,
  .setTransitions .isIpConnected .mWaitConnectIsConnected .mIsIpConnectedError,
  .setEntryAction .initial (doing fun e => StateId.initial.entryAction e),
  .addTransition .initial .mInitialize,
  .addTransition .initial .mInitialTimeout,
  .setId .initial (idOf .initial),
  .setEntryAction .disconnected (doing fun e => StateId.disconnected.entryAction e),
  .addTransition .disconnected .mConnect,
  .addTransition .disconnected .mDisSleep,
  .addTransition .disconnected .mDisHibernate,
  .setId .disconnected (idOf .disconnected),
  .setEntryAction .error (doing fun e => StateId.error.entryAction e),
  .addTransition .error .mErrorDisconnect,
  .addTransition .error .mErrorReInitialize,
  .addTransition .error .mErrorTimeout,
  .setId .error (idOf .error),
  .setEntryAction .connected (doing fun e => StateId.connected.entryAction e),
  .addTransition .connected .mSleep,
  .addTransition .connected .mHibernate,
  .addTransition .connected .mDisconnect,
  .setId .connected (idOf .connected),
  .addTransition .connectedSleep .mWakeup,
  .addTransition .connectedSleep .mSleepAwake,
  .setId .connectedSleep (idOf .connectedSleep),
  .setEntryAction .connectedAwake (doing fun e => StateId.connectedAwake.entryAction e),
  .addTransition .connectedAwake .mAwakeSleep,
  .addTransition .connectedAwake .mAwakeActive,
  .addTransition .connectedAwake .mAwakeTimeout,
  .setId .connectedAwake (idOf .connectedAwake),
  .setEntryAction .deepSleep (doing fun e => StateId.deepSleep.entryAction e),
  .addTransition .deepSleep .mReInitialize,
  .setId .deepSleep (idOf .deepSleep),
  .addTransition .disconnectedSleep .mDisWakeup,
  .setId .disconnectedSleep (idOf .disconnectedSleep),
  .setEntryAction .waitForAttach (doing fun e => StateId.waitForAttach.entryAction e),
  .addTransition .waitForAttach .mIsAttachedIpConnect,
  .addTransition .waitForAttach .mIsAttachedError,
  .setId .waitForAttach (idOf .waitForAttach),
  .setEntryAction .waitForConnect (doing fun e => StateId.waitForConnect.entryAction e),
  .addTransition .waitForConnect .mIsConnectedConnected,
  .addTransition .waitForConnect .mIsConnectedError,
  .setId .waitForConnect (idOf .waitForConnect)]

/-- The objects behind the constructor and `setUpStateMachine()`. -/
def objects : StmObjects := setUpStateMachine.foldl SetUp.apply construct

/-- The state machine itself. -/
def machine : AbstractStateMachine StateId Transition Sys where
  getCurrentState := do return (← getStm).currentState
  setCurrentState := setCurrentState
  clearTimer := do
    onlyIf (← getStm).stateTimeout.valid <|
      modifyStm fun stm => { stm with stateTimeout := Timer.clear }
  fired t e := logApp (.fired t (ofType e.eventType))

/-- A target as a pointer. -/
def node : Target → Node StateId Transition Choice
  | .state st => .state st
  | .choice c _ _ _ _ => .choice c

theorem target_eq (t : Transition) : (objects.transition t).target = some (node t.target) := by
  cases t <;> rfl

theorem trAction_eq (t : Transition) (e : Event) (s : Sys) :
    ((objects.transition t).trAction.call e s).2 = (t.action s).2 := by
  cases t <;> rfl

theorem entryAction_eq (st : StateId) (e : Event) (s : Sys) :
    ((objects.state st).entryAction.call e s).2 = (st.entryAction (ofType e.eventType) s).2 := by
  cases st <;> rfl

/-- The transition of a choice when its condition holds, and when it does not. -/
def branches : Choice → Transition × Transition
  | .isInitialized => (.mIsInitializedDisconnected, .mIsInitializedError)
  | .isAttached => (.mIsAttachedIpConnect, .mIsNotAttached)
  | .isIpConnected => (.mWaitConnectIsConnected, .mIsIpConnectedError)

theorem choice_eq (c : Choice) :
    objects.choice c = ⟨some (branches c).1, some (branches c).2, some fun _ => c.condition⟩ := by
  cases c <;> rfl

theorem parent_eq (st : StateId) : (objects.state st).parent = some .stateMachine := by
  cases st <;> rfl

theorem transitionFor_eq (st : StateId) (e : StmEvent) :
    transitionFor objects st (typeOf e) = st.transitionFor e := by
  cases st <;> cases e <;> rfl

/-! ## Every way ends in a state -/

theorem settles_state (st : StateId) (n : Nat) : Settles objects (n + 1) (.state st) :=
  .state (.machine (parent_eq st))

theorem settles_simple {t : Transition} {st : StateId} (h : t.target = .state st) (n : Nat) :
    Settles objects (n + 2) (.transition t) :=
  .transition (by rw [target_eq, h, node]) (settles_state st n)

theorem settles_choice {c : Choice} {n : Nat} (h₀ : Settles objects n (.transition (branches c).1))
    (h₁ : Settles objects n (.transition (branches c).2)) : Settles objects (n + 1) (.choice c) :=
  .choice (choice_eq c) h₀ h₁

theorem settles_transition (t : Transition) : Settles objects 6 (.transition t) := by
  have hinitialized : Settles objects 5 (.choice .isInitialized) :=
    settles_choice (settles_simple rfl 2) (settles_simple rfl 2)
  have hconnected : ∀ n, Settles objects (n + 3) (.choice .isIpConnected) := fun n =>
    settles_choice (settles_simple rfl n) (settles_simple rfl n)
  have hattached : Settles objects 5 (.choice .isAttached) :=
    settles_choice (.transition (target_eq _) (hconnected 0)) (settles_simple rfl 2)
  cases t with
  | mInitialize => exact .transition (target_eq _) hinitialized
  | mInitialTimeout => exact .transition (target_eq _) hinitialized
  | mConnect => exact .transition (target_eq _) hattached
  | mIsAttachedIpConnect => exact .transition (target_eq _) (hconnected 2)
  | _ => exact settles_simple rfl 4

/-- The state machine waits for a connect. -/
def waiting : Sys :=
  { rest := { io := { env := fun _ _ => {} }, stm := { currentState := some .disconnected } } }

example :
    (handleEvent machine objects 6 { eventType := typeOf .connectEvent } waiting).1 =
      some { eventType := typeOf .connectEvent, eventState := .handled } :=
  (handleEvent_settles (fun _ t _ => settles_transition t) (Nat.le_refl 6) _ waiting).trans rfl

/-! ## What the objects do is what the model says -/

/-- A target as the objects draw it. -/
def Draws : Transition → Target → Prop
  | t, .state st => t.target = .state st
  | t, .choice c t₀ target₀ t₁ target₁ =>
      t.target = .choice c t₀ target₀ t₁ target₁ ∧ branches c = (t₀, t₁) ∧
        Draws t₀ target₀ ∧ Draws t₁ target₁

theorem draws_target (t : Transition) : Draws t t.target := by
  cases t <;> simp [Draws, Transition.target, Choice.target, branches]

theorem fired_eq (t : Transition) (e : Event) :
    machine.fired t e = logApp (.fired t (ofType e.eventType)) := rfl

theorem enter_eq (st : StateId) {fuel : Nat} (hfuel : 0 < fuel) (e : Event) (s : Sys) :
    (enter machine objects fuel st e s).2 = (enterState st (ofType e.eventType) s).2 := by
  rw [enter, (Rooted.machine (n := 0) (parent_eq st)).getRoot_eq hfuel]
  exact entryAction_eq st e _

/-- The steps that a target takes at most. -/
def steps : Target → Nat
  | .state _ => 2
  | .choice _ _ target₀ _ target₁ => max (steps target₀) (steps target₁) + 2

theorem trigger_eq {t : Transition} {target : Target} (h : Draws t target) {fuel : Nat}
    (hfuel : steps target ≤ fuel) (e : Event) (s : Sys) :
    (trigger machine objects fuel t e s).2 =
      (LibNbiot.trigger t (ofType e.eventType) target s).2 := by
  induction target generalizing t fuel s with
  | state st =>
    obtain ⟨fuel, rfl⟩ := Nat.exists_eq_add_of_le' hfuel
    have htarget : (objects.transition t).target = some (.state st) := by
      rw [target_eq, show t.target = .state st from h, node]
    rw [steps, trigger_succ htarget (fuel + 1), LibNbiot.trigger]
    simp only [run_bind, trAction_eq]
    exact enter_eq st (Nat.succ_pos fuel) e _
  | choice c t₀ target₀ t₁ target₁ ih₀ ih₁ =>
    obtain ⟨fuel, rfl⟩ := Nat.exists_eq_add_of_le' hfuel
    obtain ⟨ht, hbranches, h₀, h₁⟩ := h
    have htarget : (objects.transition t).target = some (.choice c) := by rw [target_eq, ht, node]
    have hchoice := choice_eq c
    rw [hbranches] at hchoice
    rw [steps, ← Nat.add_assoc, trigger_succ htarget, LibNbiot.trigger]
    simp only [run_bind, trAction_eq, fired_eq, Node.pass]
    rw [execute_succ hchoice]
    simp only [run_bind, run_ite]
    split
    · exact ih₀ h₀ ((Nat.le_max_left _ _).trans (Nat.le_add_left _ fuel)) _
    · exact ih₁ h₁ ((Nat.le_max_right _ _).trans (Nat.le_add_left _ fuel)) _

theorem steps_target (t : Transition) : steps t.target ≤ 6 := by
  cases t <;> decide

theorem getCurrentState_eq (s : Sys) :
    machine.getCurrentState s = (s.rest.stm.currentState, s) := rfl

/-- The transition that the state machine has for an event. -/
def waitsFor (e : StmEvent) (s : Sys) : Option Transition :=
  s.rest.stm.currentState.bind (·.transitionFor e)

theorem currentTransition_eq (e : StmEvent) (s : Sys) :
    currentTransition machine objects (typeOf e) s = waitsFor e s := by
  rw [currentTransition, getCurrentState_eq, waitsFor]
  simp only [transitionFor_eq]

theorem handleEvent_run (e : StmEvent) (s : Sys) :
    LibNbiot.handleEvent e s =
      match waitsFor e s with
      | some t => LibNbiot.trigger t e t.target s
      | none => ((), s) := by
  have hread : getStm s = (s.rest.stm, s) := rfl
  rw [LibNbiot.handleEvent, run_bind, hread, waitsFor]
  cases s.rest.stm.currentState with
  | none => rfl
  | some st => cases h : st.transitionFor e <;> simp [h]

theorem handleEvent_snd {fuel : Nat} (hfuel : 6 ≤ fuel) (e : StmEvent) (id : Int) (s : Sys) :
    (handleEvent machine objects fuel { eventType := typeOf e, eventId := id } s).2 =
      (LibNbiot.handleEvent e s).2 := by
  rw [handleEvent_run, waitsFor, handleEvent, run_bind, getCurrentState_eq]
  cases s.rest.stm.currentState with
  | none => rfl
  | some st =>
    simp only [handleInState, transitionFor_eq, Option.bind_some]
    cases st.transitionFor e with
    | none => rfl
    | some t =>
      have htrigger := trigger_eq (draws_target t) ((steps_target t).trans hfuel)
        { eventType := typeOf e, eventState := .accepted, eventId := id } s
      rwa [ofType_typeOf] at htrigger

/-- What becomes of an event that the state machine gets. -/
def outcome (e : StmEvent) (id : Int) (s : Sys) : Event where
  eventType := typeOf e
  eventState := if (waitsFor e s).isSome then .handled else .ignored
  eventId := id

/-- **The objects do what the model says**: for every event, in every state of the system. -/
theorem handleEvent_objects {fuel : Nat} (hfuel : 6 ≤ fuel) (e : StmEvent) (id : Int) (s : Sys) :
    handleEvent machine objects fuel { eventType := typeOf e, eventId := id } s =
      (some (outcome e id s), (LibNbiot.handleEvent e s).2) := by
  refine Prod.ext ?_ (handleEvent_snd hfuel e id s)
  rw [handleEvent_settles (fun _ t _ => settles_transition t) hfuel, currentTransition_eq]
  rfl

end NbiotStm

end Engine

end LibNbiot
