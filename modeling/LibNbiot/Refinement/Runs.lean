/-
# Every run of the library is a run of the session machine

The library is configured, which only sets the retry limit and the keep-alive
interval as far as the core is concerned, then started, and then called in any order. Whatever holds of all
runs of the machine from a fresh core holds of every state the library reaches.
-/

import LibNbiot.Refinement.Calls
import Mathlib.Data.List.Induction

namespace LibNbiot

open Logic.Program Relation

/-- What a configuration sets in the core. -/
structure CoreConf where
  maxRetry : Nat := 0
  keepAlive : Nat := 60

def Core.conf (k : Core) : CoreConf := ⟨k.maxRetry, k.keepAlive⟩

/-- The core of a fresh library with what its configuration has set. -/
def Core.fresh (conf : CoreConf) : Core where
  loop := {}
  result _ := .fail
  value _ := 0
  trace := []
  state := none
  isconnected := false
  socket := false
  duration := 0
  keepAlive := conf.keepAlive
  qos := .qos1
  sendbuf := List.replicate maxPacketSize 0
  readbuf := List.replicate maxPacketSize 0
  inflightMsgid := 0
  pubRetryCount := 0
  subRetryCount := 0
  maxRetry := conf.maxRetry
  events := []
  pendingEvents := []

/-! ## Configuration -/

/-- The core, what a configuration sets aside. -/
def coreBelow (s : Sys) : Core := { core s with maxRetry := 0, keepAlive := 0 }

theorem below {α : Type} {m : M α} (h : Silent core m) : Silent coreBelow m := fun s =>
  congrArg (fun k : Core => { k with maxRetry := 0, keepAlive := 0 }) (h s)

theorem configure_silent {κ : Type} {abs : Sys → κ} {valid : Prop} [Decidable valid] (error : Nat)
    {set : M Unit} (h : Silent abs set) : Silent abs (configure valid error set) :=
  .ite (.bind h fun _ => .pure _) (.pure _)

theorem nbiotConfig_silent (conf : NbiotConf) : Silent coreBelow (nbiotConfig conf) := by
  refine .bind (below getMqtt_silent) fun mqtt => .ite ?_ (.pure _)
  refine .bind (.onlyIf fun _ => rfl) fun _ => ?_
  refine .bind (configure_silent _ fun _ => rfl) fun _ => ?_
  refine .bind (configure_silent _ (.bind (below (modifyPool_silent fun _ => rfl)) fun _ =>
    below restartAutoPoll_silent)) fun _ => ?_
  refine .bind (configure_silent _ (below (modifyPool_silent fun _ => rfl))) fun _ => ?_
  refine .bind (configure_silent _ fun _ => rfl) fun _ => ?_
  refine .bind (configure_silent _ (below (modifyPool_silent fun _ => rfl))) fun _ => ?_
  refine .bind (configure_silent _ (below (modifyPool_silent fun _ => rfl))) fun _ => ?_
  refine .bind (configure_silent _ fun _ => rfl) fun _ => ?_
  exact .bind (below (modifyPool_silent fun _ => rfl)) fun _ => .bind (fun _ => rfl) fun _ => .pure _

/-- A library that was configured. -/
def Setting.configured (setting : Setting) : Sys := (nbiotConfig setting.conf setting.construct).2

/-- A configured library is fresh but for what the configuration sets. -/
theorem config_core (setting : Setting) :
    core setting.configured = .fresh (core setting.configured).conf := by
  have h : coreBelow setting.configured = coreBelow setting.construct :=
    nbiotConfig_silent setting.conf setting.construct
  have hcore : core setting.configured = { coreBelow setting.configured with
      maxRetry := (core setting.configured).maxRetry
      keepAlive := (core setting.configured).keepAlive } := rfl
  rw [hcore, h]
  rfl

/-! ## Start -/

theorem Core.fresh_steady (conf : CoreConf) : (Core.fresh conf).Steady := ⟨nofun, nofun⟩

theorem Core.fresh_idle (conf : CoreConf) : (Core.fresh conf).Idle := ⟨rfl, nofun⟩

/-- What `startStateMachine` does once the initial state is the current one. -/
def runInitialState : M Unit := do
  onlyIf (← getStm).stateTimeout.valid <|
    modifyStm fun stm => { stm with stateTimeout := Timer.clear }
  StateId.initial.entryAction .invalid
  sendEvent .initializeEvent
  setLock false

theorem startStateMachine_run (s : Sys) :
    startStateMachine s = runInitialState (setCurrentState .initial s).2 := by
  simp only [startStateMachine, enterState, runInitialState, setLock, run_bind]

theorem runInitialState_refines :
    Refines core session Core.Idle runInitialState fun _ => Core.Idle := by
  refine .silent_bind getStm_silent fun stm => .silent_bind (.onlyIf fun _ => rfl) fun _ => ?_
  refine .bind (Serves.of_acts (actionInitialEntry_refines _)).session fun _ => ?_
  exact .bind (Serves.session (sendEvent_serves (by decide))) fun _ => .silent (setLock_silent _)

theorem startStateMachine_refines :
    Refines core session (fun k => k.Idle ∧ k.state = none) startStateMachine
      fun _ => Core.Idle := by
  have hset : Refines core session (fun k => k.Idle ∧ k.state = none) (setCurrentState .initial)
      fun _ => Core.Idle :=
    .single fun s hs => ⟨.call (.boot hs.2), ⟨hs.1.running, hs.1.active⟩⟩
  have hbind := hset.bind fun _ => runInitialState_refines
  intro s hinv hs
  rw [startStateMachine_run]
  exact hbind s hinv hs

theorem nbiotStart_refines :
    Refines core session (fun k => k.Idle ∧ k.state = none) nbiotStart fun _ => Core.Idle := by
  refine .silent_bind getMqtt_silent fun mqtt => .silent_bind getStm_silent fun stm => ?_
  exact .ite (fun _ => .bind startStateMachine_refines fun _ => .pure fun _ h => h) fun _ =>
    .pure fun _ h => h.1

/-! ## Runs -/

/-- Every run of the library, seen through its core, is a run of the session from the
configured library. -/
theorem after_refines (setting : Setting) (calls : List ApiCall) :
    session.Run (core setting.configured) (core (setting.after calls)) ∧
      (core (setting.after calls)).Idle := by
  have hfresh := config_core setting
  have hinit : session.Inv (core setting.configured) := hfresh ▸ Core.fresh_steady _
  have hidle : (core setting.configured).Idle := hfresh ▸ Core.fresh_idle _
  have hstate : (core setting.configured).state = none := congrArg Core.state hfresh
  induction calls using List.reverseRecOn with
  | nil => exact nbiotStart_refines setting.configured hinit ⟨hidle, hstate⟩
  | append_singleton calls call ih =>
    rw [setting.after_snoc]
    obtain ⟨hrun, hidle⟩ := ih
    obtain ⟨hrun', hidle'⟩ := exec_refines call _ (hrun.inv hinit) hidle
    exact ⟨hrun.trans hrun', hidle'⟩

/-- What holds of a fresh core and is kept by every step of the session holds of
every state that the library reaches. -/
theorem after_holds {J : Core → Prop} (hfresh : ∀ conf, J (.fresh conf))
    (hstep : ∀ {k k'}, k.Steady → Step k k' → J k → J k') (setting : Setting)
    (calls : List ApiCall) : J (core (setting.after calls)) := by
  obtain ⟨hrun, -⟩ := after_refines setting calls
  rw [config_core] at hrun
  exact (hrun.keeps (Core.fresh_steady _) hstep (hfresh _)).2

/-- The same for the elementary steps. -/
theorem after_holds_basic {J : Core → Prop} (hfresh : ∀ conf, J (.fresh conf))
    (hstep : ∀ {k k'}, Basic k k' → J k → J k') (setting : Setting) (calls : List ApiCall) :
    J (core (setting.after calls)) := by
  obtain ⟨hrun, -⟩ := after_refines setting calls
  rw [config_core] at hrun
  exact (Machine.Run.keeps (A := ⟨Basic, fun _ => True, fun _ _ => trivial⟩) (session_basic hrun)
    trivial (fun _ => hstep) (hfresh _)).2

end LibNbiot
