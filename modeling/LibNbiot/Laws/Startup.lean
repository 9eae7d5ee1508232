/-
# Calls before the start

Some public functions look at the current state of the state machine, and there is
none before the library was started. The library is started by the first call of
the start function that comes after a valid configuration; of the configurations,
only the first counts. The functions to connect and to publish ask first whether the
library was initialized, which it is not before its start; the others do not ask.
-/

import LibNbiot.Interface
import LibNbiot.Laws.History
import LibNbiot.Logic.Splitting

namespace LibNbiot

open Logic.Program Relation

/-! ## The start-up of the library -/

/-- A configuration with no setting out of its range. -/
def NbiotConf.Valid (conf : NbiotConf) : Prop :=
  (60 ≤ conf.keepAliveInterval ∧ conf.keepAliveInterval ≤ 86400) ∧
    (conf.autoPollInterval ≤ 86399 ∧ conf.autoPollInterval < conf.keepAliveInterval) ∧
    (1 ≤ conf.maxTopicCount ∧ conf.maxTopicCount ≤ 256) ∧ 1000 ≤ conf.pollInterval ∧
    cString conf.gateway ≠ [] ∧ 1024 ≤ conf.port ∧ conf.maxResend ≤ 10

instance (conf : NbiotConf) : Decidable conf.Valid := inferInstanceAs (Decidable (_ ∧ _))

/-- How far the calls so far have brought the library. -/
inductive Startup where
  | unconfigured
  | misconfigured
  | configured
  | started
  deriving DecidableEq, Repr

/-- What a call does for the start-up. -/
def Startup.next : Startup → PublicCall → Startup
  | .unconfigured, .nbiotConfig conf => if conf.Valid then .configured else .misconfigured
  | .configured, .nbiotStart => .started
  | phase, _ => phase

/-- The start-up after some calls. -/
def startup (calls : List PublicCall) : Startup := calls.foldl Startup.next .unconfigured

theorem startup_snoc (calls : List PublicCall) (call : PublicCall) :
    startup (calls ++ [call]) = (startup calls).next call := by
  simp [startup]

/-- The functions that look at the current state without asking whether there is one. -/
def PublicCall.asksState (debug : Bool) : PublicCall → Bool
  | .api (.connect _) | .api (.publish _ _ _) => false
  | .api _ | .isNbiotConnected | .getNbiotState => true
  | .currentNbiotState => debug
  | _ => false

/-- Was a current state looked at that the state machine did not have? -/
def derefs : Log → Bool
  | [] => false
  | e :: t =>
      match e.event with
      | .app .nullDeref => true
      | _ => derefs t

theorem derefs_cons {e : LoopEvent ClientId SysEvent} (he : e ≠ .app .nullDeref) (v : View)
    (t : Log) : derefs (⟨e, v⟩ :: t) = derefs t := by
  rw [derefs]
  split
  · rename_i h
    exact absurd h he
  · rfl

/-! ## A started library -/

/-- A state machine that has a current state keeps one, and none is missed. -/
theorem Basic.stated {k k' : Core} (h : Basic k k') (hk : k.state.isSome) :
    k'.state.isSome ∧ derefs k'.trace = derefs k.trace := by
  cases h with
  | act h =>
    cases h with
    | note e h hstate =>
      refine ⟨hk, derefs_cons (fun he => ?_) _ _⟩
      rw [hstate (LoopEvent.app.inj he)] at hk
      cases hk
    | _ => exact ⟨hk, rfl⟩
  | plug h => cases h <;> exact ⟨hk, rfl⟩
  | move h => cases h <;> first | exact ⟨hk, rfl⟩ | exact ⟨rfl, rfl⟩
  | ready h => cases h <;> exact ⟨hk, rfl⟩
  | lost => exact ⟨hk, rfl⟩
  | hand h =>
    cases h with
    | countRetry c v w t hc hlog hleft => rcases hc with rfl | rfl <;> exact ⟨hk, rfl⟩
    | _ => exact ⟨hk, rfl⟩
  | turn h =>
    cases h with
    | answer c phase v a h hactive hdis ha =>
      cases ha with
      | published v a k' h => cases h <;> exact ⟨hk, rfl⟩
      | _ => exact ⟨hk, rfl⟩
    | wrap c phase a hanswered hdis h => cases h <;> exact ⟨hk, rfl⟩
    | _ => exact ⟨hk, rfl⟩
  | ending h =>
    cases h with
    | wrap hanswered h => cases h <;> exact ⟨hk, rfl⟩
    | _ => exact ⟨hk, rfl⟩
  | call h =>
    cases h with
    | boot h => exact ⟨rfl, rfl⟩
    | _ => exact ⟨hk, rfl⟩

theorem run_stated {k k' : Core} (h : session.Run k k') (hk : k.state.isSome) :
    k'.state.isSome ∧ derefs k'.trace = derefs k.trace := by
  have hrun := session_basic h
  clear h
  induction hrun with
  | refl => exact ⟨hk, rfl⟩
  | tail _ hstep ih =>
    obtain ⟨hstate, hderefs⟩ := hstep.stated ih.1
    exact ⟨hstate, hderefs.trans ih.2⟩

/-- Between two calls no handler runs. -/
structure Resting (s : Sys) : Prop where
  steady : (core s).Steady
  idle : (core s).Idle

theorem Resting.of_refines {α : Type} {m : M α}
    (h : Refines core session Core.Idle m fun _ => Core.Idle) {s : Sys} (hs : Resting s) :
    Resting (m s).2 ∧ session.Run (core s) (core (m s).2) := by
  obtain ⟨hrun, hidle⟩ := h s hs.steady hs.idle
  exact ⟨⟨hrun.inv (A := session) hs.steady, hidle⟩, hrun⟩

/-! ## A library that was not started -/

/-- Before its start the library has no state and was not initialized. -/
structure Unstarted (s : Sys) : Prop where
  state : s.rest.stm.currentState = none
  initialized : s.rest.pool.initialized = false
  autoReconnect : s.rest.pool.autoReconnect = false
  interval : 0 < s.rest.pool.eventLoopExecInterval

@[simp]
theorem rest_logApp (e : SysEvent) (s : Sys) : (logApp e s).2.rest = s.rest := rfl

@[simp]
theorem derefs_logApp_api (call : ApiCall) (s : Sys) :
    derefs (logApp (.api call) s).2.trace = derefs s.trace := rfl

@[simp]
theorem derefs_logApp_setDuration (duration : Nat) (s : Sys) :
    derefs (logApp (.setDuration duration) s).2.trace = derefs s.trace := rfl

@[simp]
theorem derefs_logApp_nullDeref (s : Sys) : derefs (logApp .nullDeref s).2.trace = true := rfl

/-- A look at the state that is not there. -/
theorem getCurrentStateId_unstarted {s : Sys} (hs : s.rest.stm.currentState = none) :
    getCurrentStateId s = (none, (logApp .nullDeref s).2) := by
  simp [getCurrentStateId, getStm, hs]

theorem stateIs_unstarted {s : Sys} (hs : s.rest.stm.currentState = none) (st : StateId) :
    stateIs st s = (false, (logApp .nullDeref s).2) := by
  simp [stateIs, getCurrentStateId_unstarted hs]

/-- A step that only logs. -/
theorem Unstarted.of_rest {s s' : Sys} (hs : Unstarted s) (h : s'.rest = s.rest) : Unstarted s' := by
  refine ⟨?_, ?_, ?_, ?_⟩ <;> rw [h]
  · exact hs.state
  · exact hs.initialized
  · exact hs.autoReconnect
  · exact hs.interval

/-- Before the start most calls only look at the state, or do not even do that. -/
theorem exec_looks {s : Sys} (hs : Unstarted s) (debug : Bool) {call : ApiCall}
    (hwakeup : call ≠ .wakeup) : (call.exec s).2.rest = s.rest ∧
      derefs (call.exec s).2.trace = (derefs s.trace || (PublicCall.api call).asksState debug) := by
  cases call with
  | connect cleanSession =>
    constructor <;> simp [ApiCall.exec, ApiCall.run, connect, getPool, hs.initialized,
      PublicCall.asksState]
  | publish topic data qos =>
    constructor <;> simp [ApiCall.exec, ApiCall.run, publish, getPool, hs.initialized,
      PublicCall.asksState]
  | subscribe topic mh =>
    constructor <;> simp [ApiCall.exec, ApiCall.run, subscribe, isConnected, stateIs_unstarted,
      hs.state, PublicCall.asksState]
  | unsubscribe topic =>
    constructor <;> simp [ApiCall.exec, ApiCall.run, unsubscribe, isConnected, stateIs_unstarted,
      hs.state, PublicCall.asksState]
  | disconnect =>
    constructor <;> simp [ApiCall.exec, ApiCall.run, disconnect, isConnected, isSleeping,
      stateIs_unstarted, hs.state, PublicCall.asksState]
  | sleep duration =>
    constructor <;> simp [ApiCall.exec, ApiCall.run, sleep, isConnected, isDisconnected,
      stateIs_unstarted, hs.state, PublicCall.asksState]
  | hibernate duration =>
    constructor <;> simp [ApiCall.exec, ApiCall.run, hibernate, isConnected, isDisconnected,
      isSleeping, stateIs_unstarted, hs.state, PublicCall.asksState]
  | wakeup => exact absurd rfl hwakeup
  | poll pollInterval =>
    constructor <;> simp [ApiCall.exec, ApiCall.run, poll, isConnected, isSleeping,
      stateIs_unstarted, hs.state, PublicCall.asksState]
  | eventLoop mode =>
    constructor <;> simp [ApiCall.exec, ApiCall.run, eventLoop, eventLoopReady, getPool, getMqtt,
      hs.interval, getCurrentStateId_unstarted, hs.state, PublicCall.asksState]

/-- `wakeup` also sets the duration. -/
theorem wakeup_unstarted {s : Sys} (hs : Unstarted s) :
    (ApiCall.wakeup.exec s).2.rest = (setDuration 0 s).2.rest ∧
      derefs (ApiCall.wakeup.exec s).2.trace = true := by
  constructor <;> simp [ApiCall.exec, ApiCall.run, wakeup, leaveSleep, isSleeping,
    stateIs_unstarted, hs.state, hs.autoReconnect, getPool, setDuration, modifyPool]

/-- A call of the network functions before the start. -/
theorem exec_unstarted {s : Sys} (hs : Unstarted s) (call : ApiCall) (debug : Bool) :
    Unstarted (call.exec s).2 ∧ (call.exec s).2.rest.mqtt = s.rest.mqtt ∧
      derefs (call.exec s).2.trace = (derefs s.trace || (PublicCall.api call).asksState debug) := by
  by_cases hwakeup : call = .wakeup
  · subst hwakeup
    obtain ⟨hrest, hderefs⟩ := wakeup_unstarted hs
    have hset : Unstarted (setDuration 0 s).2 :=
      ⟨hs.state, hs.initialized, hs.autoReconnect, hs.interval⟩
    refine ⟨hset.of_rest hrest, ?_, hderefs.trans (Bool.or_true _).symm⟩
    rw [hrest]
    rfl
  · obtain ⟨hrest, hderefs⟩ := exec_looks hs debug hwakeup
    exact ⟨hs.of_rest hrest, congrArg Parts.mqtt hrest, hderefs⟩

/-! ## Configuration and start -/

/-- What the configuration leaves alone. -/
def startView (s : Sys) : Core × Bool × Bool × Nat :=
  (coreBelow s, s.rest.pool.initialized, s.rest.pool.autoReconnect,
    s.rest.pool.eventLoopExecInterval)

theorem nbiotConfig_startView (conf : NbiotConf) : Silent startView (nbiotConfig conf) := by
  refine .bind (fun _ => rfl) fun mqtt => .ite ?_ (.pure _)
  refine .bind (.onlyIf fun _ => rfl) fun _ => ?_
  refine .bind (configure_silent _ fun _ => rfl) fun _ => ?_
  refine .bind (configure_silent _ fun _ => rfl) fun _ => ?_
  refine .bind (configure_silent _ fun _ => rfl) fun _ => ?_
  refine .bind (configure_silent _ fun _ => rfl) fun _ => ?_
  refine .bind (configure_silent _ fun _ => rfl) fun _ => ?_
  refine .bind (configure_silent _ fun _ => rfl) fun _ => ?_
  refine .bind (configure_silent _ fun _ => rfl) fun _ => ?_
  exact .bind (fun _ => rfl) fun _ => .bind (fun _ => rfl) fun _ => .pure _

/-- A configuration concerns neither the state nor the log. -/
theorem nbiotConfig_state (conf : NbiotConf) (s : Sys) :
    (nbiotConfig conf s).2.rest.stm.currentState = s.rest.stm.currentState ∧
      derefs (nbiotConfig conf s).2.trace = derefs s.trace := by
  have h := congrArg Prod.fst (nbiotConfig_startView conf s)
  exact ⟨congrArg Core.state h, congrArg (fun k : Core => derefs k.trace) h⟩

theorem nbiotConfig_resting (conf : NbiotConf) {s : Sys} (hs : Resting s) :
    Resting (nbiotConfig conf s).2 := by
  have h : coreBelow (nbiotConfig conf s).2 = coreBelow s :=
    congrArg Prod.fst (nbiotConfig_startView conf s)
  have hsteady : (coreBelow s).Steady := hs.steady
  have hidle : (coreBelow s).Idle := ⟨hs.idle.running, hs.idle.active⟩
  rw [← h] at hsteady hidle
  exact ⟨hsteady, hidle.running, hidle.active⟩

theorem nbiotConfig_unstarted (conf : NbiotConf) {s : Sys} (hs : Unstarted s) :
    Unstarted (nbiotConfig conf s).2 := by
  have h := nbiotConfig_startView conf s
  refine ⟨(nbiotConfig_state conf s).1.trans hs.state, ?_, ?_, ?_⟩
  · exact (congrArg (fun v => v.2.1) h).trans hs.initialized
  · exact (congrArg (fun v => v.2.2.1) h).trans hs.autoReconnect
  · have hinterval : (nbiotConfig conf s).2.rest.pool.eventLoopExecInterval =
        s.rest.pool.eventLoopExecInterval := congrArg (fun v => v.2.2.2) h
    rw [hinterval]
    exact hs.interval

theorem configure_run (valid : Prop) [Decidable valid] (error : Nat) (set : M Unit) (s : Sys) :
    (configure valid error set s).1 = if valid then 0 else error := by
  rw [configure, run_ite]
  split <;> rfl

theorem error_eq_zero {valid : Prop} [Decidable valid] {error : Nat} (h : error ≠ 0) :
    (if valid then 0 else error) = 0 ↔ valid := by
  simp [h]

theorem error_le (valid : Prop) [Decidable valid] (error : Nat) :
    (if valid then 0 else error) ≤ error := by
  split
  · exact Nat.zero_le _
  · exact le_rfl

/-- The first configuration keeps its result. -/
theorem nbiotConfig_result (conf : NbiotConf) {s : Sys}
    (hs : s.rest.mqtt.configError = errorNoConfig) :
    (nbiotConfig conf s).2.rest.mqtt.configError = (nbiotConfig conf s).1 := by
  simp [nbiotConfig, getMqtt, hs, modifyMqtt]

/-- The first configuration is a success if and only if it is valid. -/
theorem nbiotConfig_first (conf : NbiotConf) {s : Sys}
    (hs : s.rest.mqtt.configError = errorNoConfig) :
    (conf.Valid → (nbiotConfig conf s).2.rest.mqtt.configError = 0) ∧
      (¬conf.Valid → (nbiotConfig conf s).2.rest.mqtt.configError ≠ 0 ∧
        (nbiotConfig conf s).2.rest.mqtt.configError ≠ errorNoConfig) := by
  rw [nbiotConfig_result conf hs]
  simp only [nbiotConfig, getMqtt, run_bind, run_get, run_pure, hs, if_true, run_onlyIf,
    configure_run]
  refine ⟨fun hvalid => ?_, fun hinvalid => ⟨fun hzero => hinvalid ?_, Nat.ne_of_lt ?_⟩⟩
  · obtain ⟨hkeepAlive, hautoPoll, hmaxTopics, hpoll, hgateway, hport, hresend⟩ := hvalid
    rw [if_pos hkeepAlive, if_pos hautoPoll, if_pos hmaxTopics, if_pos hpoll, if_pos hgateway,
      if_pos hport, if_pos hresend]
  · simpa [error_eq_zero, NbiotConf.Valid, and_assoc] using hzero
  · calc
      _ ≤ 64 + 128 + 256 + 512 + 1024 + 2048 + 4096 := by apply_rules [Nat.add_le_add, error_le]
      _ < errorNoConfig := by decide

/-- A later configuration changes nothing. -/
theorem nbiotConfig_later (conf : NbiotConf) {s : Sys}
    (hs : s.rest.mqtt.configError ≠ errorNoConfig) : (nbiotConfig conf s).2 = s := by
  simp [nbiotConfig, getMqtt, hs]

/-- The state machine has its current state before it looks at it. -/
theorem startStateMachine_state {s : Sys} (hs : Resting s) (hstate : s.rest.stm.currentState = none) :
    (startStateMachine s).2.rest.stm.currentState.isSome ∧
      derefs (startStateMachine s).2.trace = derefs s.trace := by
  have hboot : session.Step (core s) ((core s).enter .initial) := .call (.boot hstate)
  have hsteady : ((core s).enter .initial).Steady := session.keeps hs.steady hboot
  have hidle : ((core s).enter .initial).Idle := ⟨hs.idle.running, hs.idle.active⟩
  obtain ⟨hrun, -⟩ := runInitialState_refines (setCurrentState .initial s).2 hsteady hidle
  rw [startStateMachine_run]
  exact run_stated hrun rfl

theorem startStateMachine_resting {s : Sys} (hs : Resting s)
    (hstate : s.rest.stm.currentState = none) : Resting (startStateMachine s).2 := by
  obtain ⟨hrun, hidle⟩ := startStateMachine_refines s hs.steady ⟨hs.idle, hstate⟩
  exact ⟨hrun.inv (A := session) hs.steady, hidle⟩

/-! ## All public calls -/

/-- What is known after the calls that have led to a phase of the start-up. -/
def Reached (s : Sys) : Startup → Prop
  | .unconfigured => Unstarted s ∧ s.rest.mqtt.configError = errorNoConfig
  | .misconfigured =>
      Unstarted s ∧ s.rest.mqtt.configError ≠ 0 ∧ s.rest.mqtt.configError ≠ errorNoConfig
  | .configured => Unstarted s ∧ s.rest.mqtt.configError = 0
  | .started => s.rest.stm.currentState.isSome

theorem Reached.unstarted {s : Sys} {phase : Startup} (h : Reached s phase)
    (hphase : phase ≠ .started) : Unstarted s := by
  cases phase with
  | started => exact absurd rfl hphase
  | _ => exact h.1

/-- A step before the start that leaves the configuration alone. -/
theorem Reached.of_unstarted {s s' : Sys} {phase : Startup} (h : Reached s phase)
    (hphase : phase ≠ .started) (hs' : Unstarted s') (hmqtt : s'.rest.mqtt = s.rest.mqtt) :
    Reached s' phase := by
  cases phase with
  | unconfigured => exact ⟨hs', hmqtt ▸ h.2⟩
  | misconfigured => exact ⟨hs', hmqtt ▸ h.2⟩
  | configured => exact ⟨hs', hmqtt ▸ h.2⟩
  | started => exact absurd rfl hphase

/-- The questions do not disturb the library. -/
theorem PublicCall.query_refines (debug : Bool) (call : PublicCall)
    (hconfig : ∀ conf, call ≠ .nbiotConfig conf) (hstart : call ≠ .nbiotStart) :
    Refines core session Core.Idle (call.exec debug) fun _ => Core.Idle := by
  have acts (st : StateId) : Serves (stateIs st) := .of_acts (stateIs_acts st)
  have hcurrent : Serves getCurrentStateId := .of_acts (.of getCurrentStateId_refines fun _ => trivial)
  cases call with
  | nbiotConfig conf => exact absurd rfl (hconfig conf)
  | nbiotStart => exact absurd rfl hstart
  | api call => exact exec_refines call
  | isNbiotConnected =>
    have hquery : Serves LibNbiot.isNbiotConnected :=
      Serves.bind (acts _) fun _ => .ite (fun _ => .pure fun _ h => h) fun _ =>
        Serves.bind (acts _) fun _ => .ite (fun _ => .pure fun _ h => h) fun _ => acts _
    exact .bind hquery.session fun _ => .pure fun _ h => h
  | getNbiotState => exact .bind hcurrent.session fun _ => .pure fun _ h => h
  | currentNbiotState =>
    have hquery : Serves (LibNbiot.currentNbiotState debug) :=
      .ite (fun _ => Serves.bind hcurrent fun _ => .pure fun _ h => h) fun _ => .pure fun _ h => h
    exact .bind hquery.session fun _ => .pure fun _ h => h
  | getNbiotEventLoopStatus =>
    have hquery : Silent core LibNbiot.getNbiotEventLoopStatus :=
      .bind getMqtt_silent fun _ => .ite (.pure _) (.bind get_silent fun _ => .pure _)
    exact .silent_bind hquery fun _ => .pure fun _ h => h
  | _ => exact .silent_bind (fun _ => rfl) fun _ => .pure fun _ h => h

theorem nbiotStart_run (s : Sys) :
    (nbiotStart s).2 = if s.rest.mqtt.configError = 0 ∧ s.rest.stm.currentState.isNone then
      (startStateMachine s).2 else s := by
  change ((if s.rest.mqtt.configError = 0 ∧ s.rest.stm.currentState.isNone then
    (do startStateMachine; return true) else return false : M Bool) s).2 = _
  rw [run_ite]
  split <;> rfl

/-- A question before the start: the state is missed by those who look at it. -/
theorem query_unstarted {s : Sys} (hs : Unstarted s) (debug : Bool) {call : PublicCall}
    (hconfig : ∀ conf, call ≠ .nbiotConfig conf) (hstart : call ≠ .nbiotStart) :
    Unstarted (call.exec debug s).2 ∧ (call.exec debug s).2.rest.mqtt = s.rest.mqtt ∧
      derefs (call.exec debug s).2.trace = (derefs s.trace || call.asksState debug) := by
  have looks : Unstarted (getCurrentStateId s).2 ∧ (getCurrentStateId s).2.rest.mqtt = s.rest.mqtt ∧
      derefs (getCurrentStateId s).2.trace = (derefs s.trace || true) := by
    rw [getCurrentStateId_unstarted hs.state]
    exact ⟨hs.of_rest rfl, rfl, (Bool.or_true _).symm⟩
  cases call with
  | nbiotConfig conf => exact absurd rfl (hconfig conf)
  | nbiotStart => exact absurd rfl hstart
  | api call => exact exec_unstarted hs call debug
  | isNbiotConnected =>
    have hlooks : (PublicCall.isNbiotConnected.exec debug s).2.rest = s.rest ∧
        derefs (PublicCall.isNbiotConnected.exec debug s).2.trace = true := by
      constructor <;> simp [PublicCall.exec, isNbiotConnected, isConnected, stateIs_unstarted,
        hs.state]
    exact ⟨hs.of_rest hlooks.1, congrArg Parts.mqtt hlooks.1,
      hlooks.2.trans (Bool.or_true _).symm⟩
  | getNbiotState => exact looks
  | currentNbiotState =>
    cases debug
    · exact ⟨hs, rfl, (Bool.or_false _).symm⟩
    · have hexec : (PublicCall.currentNbiotState.exec true s).2 = (getCurrentStateId s).2 := rfl
      rw [hexec]
      exact looks
  | getNbiotEventLoopStatus =>
    have hquery : (getNbiotEventLoopStatus s).2 = s := by
      change ((if s.rest.mqtt.evLoopRc = .pending then return .pending
        else (do return if (← get).loop.isBusy then .pending else .idle) : M NbiotResult) s).2 = _
      rw [run_ite]
      split <;> rfl
    have hexec : (PublicCall.getNbiotEventLoopStatus.exec debug s).2 = s := hquery
    rw [hexec]
    exact ⟨hs, rfl, (Bool.or_false _).symm⟩
  | _ => exact ⟨hs, rfl, (Bool.or_false _).symm⟩

/-- Neither do they bring the start-up any further. -/
theorem Reached.query {s : Sys} {phase : Startup} (h : Reached s phase) (hs : Resting s)
    (debug : Bool) {call : PublicCall} (hconfig : ∀ conf, call ≠ .nbiotConfig conf)
    (hstart : call ≠ .nbiotStart) :
    Resting (call.exec debug s).2 ∧ Reached (call.exec debug s).2 (phase.next call) ∧
      derefs (call.exec debug s).2.trace =
        (derefs s.trace || (call.asksState debug && decide (phase ≠ .started))) := by
  obtain ⟨hresting, hrun⟩ := hs.of_refines (call.query_refines debug hconfig hstart)
  have hnext : phase.next call = phase := by
    cases call with
    | nbiotConfig conf => exact absurd rfl (hconfig conf)
    | nbiotStart => exact absurd rfl hstart
    | _ => cases phase <;> rfl
  rw [hnext]
  by_cases hphase : phase = .started
  · subst hphase
    obtain ⟨hstate, hderefs⟩ := run_stated hrun h
    refine ⟨hresting, hstate, hderefs.trans ?_⟩
    rw [decide_eq_false (not_not.2 rfl), Bool.and_false, Bool.or_false]
    rfl
  · obtain ⟨hunstarted, hmqtt, hderefs⟩ := query_unstarted (h.unstarted hphase) debug hconfig hstart
    refine ⟨hresting, h.of_unstarted hphase hunstarted hmqtt, hderefs.trans ?_⟩
    rw [decide_eq_true hphase, Bool.and_true]

/-- One public call: where the start-up stands then, and whether a state was missed. -/
theorem Reached.exec {s : Sys} {phase : Startup} (h : Reached s phase) (hs : Resting s)
    (debug : Bool) (call : PublicCall) :
    Resting (call.exec debug s).2 ∧ Reached (call.exec debug s).2 (phase.next call) ∧
      derefs (call.exec debug s).2.trace =
        (derefs s.trace || (call.asksState debug && decide (phase ≠ .started))) := by
  cases call with
  | nbiotConfig conf =>
    refine ⟨nbiotConfig_resting conf hs, ?_, ?_⟩
    · have hexec : ((PublicCall.nbiotConfig conf).exec debug s).2 = (nbiotConfig conf s).2 := rfl
      rw [hexec]
      cases phase with
      | unconfigured =>
        obtain ⟨hvalid, hinvalid⟩ := nbiotConfig_first conf h.2
        have hunstarted := nbiotConfig_unstarted conf h.1
        simp only [Startup.next]
        split
        · exact ⟨hunstarted, hvalid ‹_›⟩
        · exact ⟨hunstarted, hinvalid ‹_›⟩
      | misconfigured =>
        rw [nbiotConfig_later conf h.2.2]
        exact h
      | configured =>
        rw [nbiotConfig_later conf (by rw [h.2]; decide)]
        exact h
      | started => exact (congrArg Option.isSome (nbiotConfig_state conf s).1).trans h
    · exact (nbiotConfig_state conf s).2.trans (Bool.or_false _).symm
  | nbiotStart =>
    have hexec : (PublicCall.nbiotStart.exec debug s).2 = (nbiotStart s).2 := rfl
    rw [hexec, nbiotStart_run]
    by_cases hphase : phase = .configured
    · subst hphase
      rw [if_pos ⟨h.2, Option.isNone_iff_eq_none.2 h.1.state⟩]
      obtain ⟨hstate, hderefs⟩ := startStateMachine_state hs h.1.state
      exact ⟨startStateMachine_resting hs h.1.state, hstate, hderefs.trans (Bool.or_false _).symm⟩
    · have hno : ¬(s.rest.mqtt.configError = 0 ∧ s.rest.stm.currentState.isNone) := by
        rintro ⟨hconfig, hnone⟩
        cases phase with
        | unconfigured => exact absurd (hconfig.symm.trans h.2) (by decide)
        | misconfigured => exact h.2.1 hconfig
        | configured => exact hphase rfl
        | started =>
          have hsome : s.rest.stm.currentState.isSome := h
          rw [Option.isNone_iff_eq_none.1 hnone] at hsome
          cases hsome
      have hnext : phase.next .nbiotStart = phase := by
        cases phase <;> first | rfl | exact absurd rfl hphase
      rw [if_neg hno, hnext]
      exact ⟨hs, h, (Bool.or_false _).symm⟩
  | _ => exact h.query hs debug nofun nofun

theorem construct_reached (setting : Setting) :
    Resting setting.construct ∧ Reached setting.construct .unconfigured :=
  ⟨⟨Core.fresh_steady {}, Core.fresh_idle {}⟩, ⟨rfl, rfl, rfl, (by decide : 0 < 100)⟩, rfl⟩

/-! ## Sequences of calls -/

/-- Every function that looks at the current state is called after the start. -/
def StartedFirst (debug : Bool) (calls : List PublicCall) : Prop :=
  ∀ before call after, calls = before ++ call :: after → call.asksState debug = true →
    startup before = .started

theorem startedFirst_snoc (debug : Bool) (calls : List PublicCall) (call : PublicCall) :
    StartedFirst debug (calls ++ [call]) ↔
      StartedFirst debug calls ∧ (call.asksState debug = true → startup calls = .started) := by
  unfold StartedFirst
  exact Logic.forall_split_concat

/-- After any calls: where the start-up stands, and whether a state was missed. -/
theorem called_reached (setting : Setting) (debug : Bool) (calls : List PublicCall) :
    Resting (setting.called debug calls) ∧
      Reached (setting.called debug calls) (startup calls) ∧
      (derefs (setting.called debug calls).trace = false ↔ StartedFirst debug calls) := by
  induction calls using List.reverseRecOn with
  | nil =>
    obtain ⟨hresting, hreached⟩ := construct_reached setting
    exact ⟨hresting, hreached, fun _ before call after h => by simp at h, fun _ => rfl⟩
  | append_singleton calls call ih =>
    obtain ⟨hresting, hreached, hderefs⟩ := ih
    obtain ⟨hresting', hreached', hderefs'⟩ := hreached.exec hresting debug call
    rw [setting.called_snoc, startup_snoc]
    refine ⟨hresting', hreached', ?_⟩
    rw [hderefs', startedFirst_snoc, Bool.or_eq_false_iff, hderefs, Bool.and_eq_false_imp]
    simp only [decide_eq_false_iff_not, not_not]

/-- **No missing state is looked at** if and only if the functions that look at the
state are called after the start, whatever the setting, the build and the order of the
calls. -/
theorem derefs_iff (setting : Setting) (debug : Bool) (calls : List PublicCall) :
    derefs (setting.called debug calls).trace = false ↔ StartedFirst debug calls :=
  (called_reached setting debug calls).2.2

/-- Asked for the connection before the start, the library looks at no state at all. -/
theorem derefs_isNbiotConnected :
    derefs (({ conf := {}, env := fun _ _ => {} } : Setting).called false
      [.isNbiotConnected]).trace = true := by
  decide +kernel

end LibNbiot
