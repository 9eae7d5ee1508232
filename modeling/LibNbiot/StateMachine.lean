/-
# The state machine and its dispatcher

`NbiotStm` with the generic machine it is built from. A transition performs its
action and goes on to its target, which is a state or a choice between two
further transitions; entering a state sets it, clears the state timer and
performs the entry action. Entry actions and transition actions post events but
never push any, so an event that is being handled is the only one in progress.

A pushed event is handled in the same `dispatch`. A posted event is only made
ready by one `dispatch` and handled by the next, and every `dispatch` looks at
the state timer first.
-/

import LibNbiot.Client

namespace LibNbiot

open Logic.Program

def timeoutOneMinute : Nat := 60000
def attachTimeout : Nat := 300000
def restartModemThreshold : Nat := 5
def oneSecondMs : Nat := 1000
def loopInterval : Int := 1000

/-! ## Events and notifications -/

/-- `getCurrentState()->getId()`. -/
def getCurrentStateId : M (Option StateId) := do
  let st := (← getStm).currentState
  if st.isNone then logApp .nullDeref
  return st

/-- `setTimeout(ms)` of the dispatcher. -/
def setTimeout (ms : Nat) : M Unit := do
  let t ← startTimer ms
  modifyStm fun stm => { stm with stateTimeout := t }

/-- `postEvent(type)`. -/
def postEvent (e : StmEvent) : M Unit := do
  logApp (.posted e)
  modifyStm fun stm => { stm with pendingEvents := stm.pendingEvents ++ [e] }

/-- Call the notification handler of the application, if there is one. -/
def notify (n : Notification) : M Unit := do
  if (← getMqtt).notifyHandler then logApp (.notified n)

def setErrno (e : ErrorNumber) : M Unit := modifyPool fun pool => { pool with errno := e }

/-! ## Connecting and disconnecting -/

/-- `mqttDisconnect()`. -/
def mqttDisconnect : M Unit := do
  if (← getSn).isconnected then
    let _ ← Client.disconnect (← getPool).duration

/-- `mqttConnect(cleanSession)`; the keep-alive interval is cut to the width of
the packet field. -/
def mqttConnect (cleanSession : Nat) : M Bool := do
  if (← getSn).isconnected then
    return true
  else
    let pool ← getPool
    let rc ← Client.connect (toUShort pool.keepAliveInterval) cleanSession
      (cString pool.authentication)
    return rc = mqttSuccess

/-- `finishDisconnect()`. -/
def finishDisconnect : M Unit := do
  onlyIf (← networkIsConnected) do let _ ← networkDisconnect
  if (← get).loop.isBusy then
    loopBreak

/-- `doDisconnect()`. -/
def doDisconnect : M Unit := do
  if (← getSn).isconnected then
    let _ ← Client.disconnect (← getPool).duration
  else
    finishDisconnect

/-- `doModemAttach()`. -/
def doModemAttach : M Unit := do
  modifyPool fun pool => { pool with modemAttached := false }
  setTime .attach attachTimeout
  registerLoopClient (some .attach)

/-- A query of the modem takes at least a millisecond. -/
def modemIsAttached : M Bool := do
  let r ← ask .isAttached
  modifyIo fun io => { io with now := io.now + 1 }
  return r.ok

/-! ## Actions -/

/-- The conditions of the three choices. -/
inductive Choice where
  | isInitialized
  | isAttached
  | isIpConnected
  deriving DecidableEq, Repr

def Choice.condition : Choice → M Bool
  | .isInitialized => do return (← getPool).initialized
  | .isAttached => modemIsAttached
  | .isIpConnected => networkIsConnected

/-- `actionIsAttachedIpConnect`. -/
def actionIsAttachedIpConnect : M Unit := do
  modifyPool fun pool => { pool with modemRestartOnError := 0, waitTimer := Timer.clear }
  if !(← getPool).gateway.isEmpty then
    let _ ← networkConnect

/-- `actionIsNotAttached`. -/
def actionIsNotAttached : M Unit := do
  let t ← startTimer timeoutOneMinute
  modifyPool fun pool => { pool with waitTimer := t }
  doModemAttach

/-- The actions of the transitions; the remaining ones do nothing but print. -/
def Transition.action : Transition → M Unit
  | .mIsInitializedError => setErrno .initializeError
  | .mConnect => setErrno .success
  | .mIsNotAttached => actionIsNotAttached
  | .mIsAttachedIpConnect => actionIsAttachedIpConnect
  | .mIsAttachedError =>
      modifyPool fun pool =>
        { pool with
          errno := .gprsNotConnected
          modemRestartOnError := (pool.modemRestartOnError + 1) % 65536 }
  | .mIsIpConnectedError => setErrno .ipNotConnected
  | .mWaitConnectIsConnected => do
      let _ ← mqttConnect (← getPool).cleanSession
  | .mIsConnectedError => setErrno .connectionError
  | .mSleep => do if 0 < (← getPool).duration then mqttDisconnect
  | .mWakeup => do
      if 0 < (← getPool).duration then
        let _ ← mqttConnect 0
  | .mAwakeActive => do
      let _ ← mqttConnect 0
  | _ => pure ()

/-! ## Entry actions -/

/-- Read the login from the modem unless it is set, and build the client id. -/
def initCredentials : M Bool := do
  if (← getPool).authLogin.isEmpty then
    let r ← ask .getImsi
    if r.ok then
      modifyPool fun pool => { pool with authLogin := r.data }
  if (← getPool).authLogin.isEmpty then
    return false
  else
    modifyPool fun pool => { pool with authentication := pool.authLogin ++ pool.authPasswd }
    return true

/-- A re-initialization does not reboot the modem. -/
def rebootModem (reInitialize : Bool) : M Bool := do
  if reInitialize then
    return true
  else
    let r ← ask .reboot
    logApp (.rebooted r.ok)
    return r.ok

def initializeModem (rebooted : Bool) : M Bool := do
  if rebooted then
    let r ← ask .modemInit
    logApp (.modemInitialized r.ok)
    return r.ok
  else
    return false

/-- `actionInitialEntry`. -/
def actionInitialEntry (e : StmEvent) : M Unit := do
  let reInitialize : Bool := e = .reInitializeEvent || e = .timer
  let ok ← initializeModem (← rebootModem reInitialize)
  let ok ← (if ok && !reInitialize then initCredentials else pure ok)
  onlyIf reInitialize (postEvent .initializeEvent)
  modifyPool fun pool => { pool with initialized := ok }
  notify
    { state := some .initial
      action := if reInitialize then .reInitialize else .initializeAction
      returnCode := rcAccepted
      errorNumber := if ok then .success else .initializeError }
  setTimeout timeoutOneMinute

/-- `actionDisconnectedEntry`. -/
def actionDisconnectedEntry : M Unit := do
  doDisconnect
  notify
    { state := some .disconnected
      action := .disconnect
      returnCode := rcAccepted
      errorNumber := (← getPool).errno }
  setErrno .success

/-- An initialized modem is given up for a reboot only after several errors. -/
def recoverFromError : M Unit := do
  if (← getPool).initialized then
    if restartModemThreshold ≤ (← getPool).modemRestartOnError then
      modifyPool fun pool => { pool with modemRestartOnError := 0 }
      let r ← ask .reboot
      logApp (.rebooted r.ok)
      postEvent .reInitializeEvent
    else
      postEvent .errorDisconnectEvent
  else
    setTimeout timeoutOneMinute

/-- `actionErrorEntry`. -/
def actionErrorEntry : M Unit := do
  recoverFromError
  let errno := (← getPool).errno
  notify
    { state := some .error
      action :=
        match errno with
        | .gprsNotConnected | .ipNotConnected | .connectionError => .connect
        | _ => .initializeAction
      returnCode := rcAccepted
      errorNumber := errno }

/-- Topics from before the connection are subscribed in the session or gone. -/
def restoreSubscriptions : M Unit := do
  let pool ← getPool
  let before ← getRegistry
  onlyIf (!pool.hasSubscription && before.hasAnyTopic .both) <|
    if pool.cleanSession ≠ 0 then
      modifyRegistry (·.clearRegistry)
    else
      modifyPool fun pool => { pool with hasSubscription := true }
  logApp (.sessionOpened pool.cleanSession pool.hasSubscription before (← getRegistry))

/-- `actionConnectedEntry`. -/
def actionConnectedEntry : M Unit := do
  modifyPool fun pool => { pool with errno := .success, waitTimer := Timer.clear }
  restoreSubscriptions
  notify
    { state := some .connected
      action := .connect
      returnCode := rcAccepted
      errorNumber := .success }

/-- `actionDeepSleepEntry`. -/
def actionDeepSleepEntry : M Unit := do
  doDisconnect
  let _ ← ask .switchModem
  logApp .modemSwitchedOff
  modifyPool fun pool => { pool with initialized := false, hasSubscription := false }
  notify
    { state := some .deepSleep
      action := .hibernate
      returnCode := rcAccepted
      errorNumber := .success }

/-- The entry actions; the two sleep states have none. -/
def StateId.entryAction (e : StmEvent) : StateId → M Unit
  | .initial => actionInitialEntry e
  | .disconnected => actionDisconnectedEntry
  | .error => actionErrorEntry
  | .connected => actionConnectedEntry
  | .connectedAwake => do setTimeout (oneSecondMs * (← getPool).duration)
  | .deepSleep => actionDeepSleepEntry
  | .waitForAttach => setTimeout timeoutOneMinute
  | .waitForConnect => setTimeout timeoutOneMinute
  | .connectedSleep | .disconnectedSleep => pure ()

/-- `setCurrentState(st)`. -/
def setCurrentState (st : StateId) : M Unit := do
  modifyStm fun stm => { stm with currentState := some st }
  logApp (.entered st)

/-- `State::enter(e)`. -/
def enterState (st : StateId) (e : StmEvent) : M Unit := do
  setCurrentState st
  onlyIf (← getStm).stateTimeout.valid <|
    modifyStm fun stm => { stm with stateTimeout := Timer.clear }
  st.entryAction e

/-! ## Transitions -/

/-- Where a transition leads: a state, or a choice with two transitions and
their targets. -/
inductive Target where
  | state (st : StateId)
  | choice (c : Choice) (t₀ : Transition) (target₀ : Target) (t₁ : Transition) (target₁ : Target)

def Choice.target : Choice → Target
  | .isInitialized =>
      .choice .isInitialized .mIsInitializedDisconnected (.state .disconnected)
        .mIsInitializedError (.state .error)
  | .isIpConnected =>
      .choice .isIpConnected .mWaitConnectIsConnected (.state .waitForConnect)
        .mIsIpConnectedError (.state .error)
  | .isAttached =>
      .choice .isAttached .mIsAttachedIpConnect
        (.choice .isIpConnected .mWaitConnectIsConnected (.state .waitForConnect)
          .mIsIpConnectedError (.state .error))
        .mIsNotAttached (.state .waitForAttach)

/-- `setTarget`. -/
def Transition.target : Transition → Target
  | .mInitialize | .mInitialTimeout => Choice.isInitialized.target
  | .mIsInitializedDisconnected => .state .disconnected
  | .mIsInitializedError => .state .error
  | .mConnect => Choice.isAttached.target
  | .mIsNotAttached => .state .waitForAttach
  | .mIsAttachedIpConnect => Choice.isIpConnected.target
  | .mIsAttachedError => .state .error
  | .mIsIpConnectedError => .state .error
  | .mIsConnectedConnected => .state .connected
  | .mWaitConnectIsConnected => .state .waitForConnect
  | .mIsConnectedError => .state .error
  | .mSleep => .state .connectedSleep
  | .mWakeup => .state .connected
  | .mSleepAwake => .state .connectedAwake
  | .mAwakeSleep => .state .connectedSleep
  | .mAwakeActive => .state .connected
  | .mAwakeTimeout => .state .connectedSleep
  | .mHibernate => .state .deepSleep
  | .mReInitialize => .state .initial
  | .mDisconnect => .state .disconnected
  | .mErrorDisconnect => .state .disconnected
  | .mErrorReInitialize => .state .initial
  | .mErrorTimeout => .state .initial
  | .mDisSleep => .state .disconnectedSleep
  | .mDisWakeup => .state .disconnected
  | .mDisHibernate => .state .deepSleep

/-- `Transition::trigger(e)` with `Choice::execute(e)`. -/
def trigger (t : Transition) (e : StmEvent) : Target → M Unit
  | .state st => do
      logApp (.fired t e)
      t.action
      enterState st e
  | .choice c t₀ target₀ t₁ target₁ => do
      logApp (.fired t e)
      t.action
      if ← c.condition then trigger t₀ e target₀ else trigger t₁ e target₁

/-- `addTransition` and `setEventType`: the transitions of a state, in order,
with the events they wait for. -/
def StateId.transitions : StateId → List (StmEvent × Transition)
  | .initial => [(.initializeEvent, .mInitialize), (.timer, .mInitialTimeout)]
  | .disconnected =>
      [(.connectEvent, .mConnect), (.sleepEvent, .mDisSleep), (.hibernateEvent, .mDisHibernate)]
  | .error =>
      [(.errorDisconnectEvent, .mErrorDisconnect), (.reInitializeEvent, .mErrorReInitialize),
        (.timer, .mErrorTimeout)]
  | .connected =>
      [(.sleepEvent, .mSleep), (.hibernateEvent, .mHibernate), (.disconnectEvent, .mDisconnect)]
  | .connectedSleep => [(.wakeupEvent, .mWakeup), (.connectedAwakeEvent, .mSleepAwake)]
  | .connectedAwake =>
      [(.awakeSleepEvent, .mAwakeSleep), (.awakeActiveEvent, .mAwakeActive),
        (.timer, .mAwakeTimeout)]
  | .deepSleep => [(.reInitializeEvent, .mReInitialize)]
  | .disconnectedSleep => [(.wakeupEvent, .mDisWakeup)]
  | .waitForAttach => [(.attachedEvent, .mIsAttachedIpConnect), (.timer, .mIsAttachedError)]
  | .waitForConnect => [(.connectedEvent, .mIsConnectedConnected), (.timer, .mIsConnectedError)]

/-- The first transition of a state that waits for an event. -/
def StateId.transitionFor (st : StateId) (e : StmEvent) : Option Transition :=
  st.transitions.lookup e

/-- `handleEvent(ev)`: an event nobody waits for is ignored. -/
def handleEvent (e : StmEvent) : M Unit := do
  match (← getStm).currentState with
  | some st =>
      match st.transitionFor e with
      | some t => trigger t e t.target
      | none => pure ()
  | none => pure ()

/-! ## The dispatcher -/

/-- The state timeout: an expired state timer makes a timer event ready and is
started again with its old duration. -/
def dispatchTimeout : M Unit := do
  let t := (← getStm).stateTimeout
  if t.valid then
    let left ← remaining t
    logApp (.dispatched (some left))
    if left = 0 then
      modifyStm fun stm => { stm with events := stm.events ++ [.timer] }
      let now ← getMillis
      let later ← (if t.startMs ≠ 0 ∧ t.remaining now ≠ 0 then getMillis else pure now)
      setTimeout (t.expired now later)
  else
    logApp (.dispatched none)

/-- The dispatcher's main loop over the events that are ready. Handling an event
readies no further one. -/
def drainEvents : List StmEvent → M Unit
  | [] => pure ()
  | e :: events => do
      modifyStm fun stm => { stm with events := events }
      handleEvent e
      drainEvents events

/-- `dispatch()`. -/
def dispatch : M Unit := do
  dispatchTimeout
  drainEvents (← getStm).events
  modifyStm fun stm =>
    { stm with events := stm.events ++ stm.pendingEvents, pendingEvents := [] }

/-- `sendEvent(type)`. -/
def sendEvent (e : StmEvent) : M Unit := do
  modifyStm fun stm => { stm with events := stm.events ++ [e] }
  dispatch

/-- `startStateMachine()`: the invalid event enters the initial state. -/
def startStateMachine : M Unit := do
  enterState .initial .invalid
  sendEvent .initializeEvent
  modifyPool fun pool => { pool with eventLoopLock := false }

/-- `doReconnect()`: without a clean session, which is then as before. -/
def doReconnect : M Unit := do
  let oldCleanSession := (← getPool).cleanSession
  modifyPool fun pool => { pool with cleanSession := 0 }
  sendEvent .connectEvent
  modifyPool fun pool => { pool with cleanSession := oldCleanSession }

end LibNbiot
