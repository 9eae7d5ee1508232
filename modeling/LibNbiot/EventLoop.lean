/-
# The event loop and the public calls

`NbiotMQTT::eventLoop` lets the loop controller take one turn, follows up on what
it returned, and dispatches events only when no loop client is pending. The
public calls send events to the state machine or hand requests to the loop
controller. A run starts with the configuration and the start of the library and
goes on with any calls.
-/

import LibNbiot.Handlers

namespace LibNbiot

open Logic.Program

def halfSecondMs : Nat := 500
def yieldDefaultMs : Nat := 15000

def restartAutoPoll : M Unit := do
  let t ← startTimer (((← getPool).autoPollInterval * oneSecondMs) % 2 ^ 32)
  modifyPool fun pool => { pool with autoPollTimer := t }

/-! ## One execution of the event loop -/

/-- Sleep mode handling: the sleeping client wakes up for a ping. -/
def handleAsleep : M Unit := do
  if ← stateIs .connectedSleep then
    sendEvent .connectedAwakeEvent
    let _ ← Client.pmPing (← getPool).authLogin
    let _ ← Client.yield yieldDefaultMs
    restartAutoPoll

/-- The end of a publish loop that failed. -/
def publishFailed : M Unit := do
  let returnCode := toUChar (← get).loop.loopValue
  modifyPool fun pool => { pool with currentTopic := { pool.currentTopic with returnCode } }
  pubackNotify (← getPool).currentTopic
  if (← getPool).currentTopic.returnCode ≠ rcRejectedInvalidTopicId then
    setErrno .connectionError
    postEvent .disconnectEvent

/-- What follows a loop client that failed, by its id. -/
def loopFailure : NbiotLoopId → M Unit
  | .disconnect => finishDisconnect
  | .publish => publishFailed
  | _ => pure ()

/-- What follows a loop client that failed, the controller being cleared last. -/
def loopFailed : M Unit := do
  loopFailure (← get).loop.loopId
  registerLoopClient none

/-- The current topic as a successful register or subscribe loop leaves it. -/
def registeredTopic (loopId : NbiotLoopId) (registry : NbiotTopicRegistry) (topic : NbiotTopic) :
    NbiotTopic :=
  match loopId with
  | .register => (registry.attachWildcardMessageHandler topic).setReg .pub
  | .subscribe => topic.setReg .sub
  | _ => topic

/-- The registry after a successful register or subscribe loop. -/
def registerTopic (loopId : NbiotLoopId) : M Unit := do
  let topic := registeredTopic loopId (← getRegistry) (← getPool).currentTopic
  modifyPool fun pool => { pool with currentTopic := topic }
  onlyIf (loopId = .register ∨ loopId = .subscribe) <| modifyRegistry (·.insertTopic topic)
  if loopId = .subscribe then
    modifyRegistry (·.updateWildcardMessageHandler topic)
    modifyPool fun pool => { pool with hasSubscription := true }

/-- The notification about a publish that succeeded. -/
def publishSucceeded : M Unit := do
  modifyPool fun pool =>
    { pool with currentTopic := { pool.currentTopic with returnCode := rcAccepted } }
  pubackNotify (← getPool).currentTopic

/-- What follows for the current topic, if there is one. -/
def topicSucceeded (loopId : NbiotLoopId) : M Unit := do
  modifyPool fun pool => { pool with currentTopic := { pool.currentTopic with id := pool.topicid.id } }
  if (← getPool).currentTopic.valid then
    registerTopic loopId
    if loopId = .publish then publishSucceeded

/-- What follows a loop client that ended well. -/
def loopSucceeded (loopId : NbiotLoopId) : M Unit := do
  let before ← getRegistry
  topicSucceeded loopId
  onlyIf (loopId = .subscribe) do
    logApp (.handlerInstalled true (← getPool).currentTopic before (← getRegistry))
  onlyIf (loopId = .connect ∧ (← getSn).isconnected) (postEvent .connectedEvent)
  if loopId = .disconnect then
    finishDisconnect

/-- Event dispatching and automatic polling, when no loop client is pending. -/
def dispatchAndPoll : M Unit := do
  dispatch
  if 0 < (← getPool).autoPollInterval ∧ (← getSn).isconnected then
    if (← remaining (← getPool).autoPollTimer) = 0 then
      let _ ← Client.yield halfSecondMs
      restartAutoPoll

/-- The turn of the loop controller with its aftermath: the result that decides
about dispatching. -/
def hookedLoop : M NbiotResult := do
  let loopResult ← nbiotLoop wiring
  onlyIf (loopResult = .fail) loopFailed
  let loopId := (← get).loop.loopId
  if loopResult = .idle ∧ loopId ≠ .unknown then
    loopSucceeded loopId
    return .pending
  else
    return loopResult

/-- The event loop between taking and releasing its lock. -/
def eventLoopBody (mode : EventMode) : M Unit := do
  onlyIf (mode = .asleep) handleAsleep
  let loopResult ← hookedLoop
  if loopResult ≠ .pending then
    dispatchAndPoll
    modifyMqtt fun mqtt => { mqtt with evLoopRc := .idle }
  else
    modifyMqtt fun mqtt => { mqtt with evLoopRc := .pending }

def setLock (lock : Bool) : M Unit := modifyPool fun pool => { pool with eventLoopLock := lock }

/-- The event loop runs when its interval has passed and it is not running. -/
def eventLoopRun (mode : EventMode) : M Unit := do
  if !(← getPool).eventLoopLock then
    if (← remaining (← getPool).eventLoopTimer) = 0 then
      let t ← startTimer (← getPool).eventLoopExecInterval
      modifyPool fun pool => { pool with eventLoopTimer := t }
      setLock true
      eventLoopBody mode
      setLock false

/-- The event loop needs an interval and a started state machine. -/
def eventLoopReady : M Bool := do
  if 0 < (← getPool).eventLoopExecInterval then return (← getCurrentStateId).isSome
  else return false

/-- `eventLoop(mode)`. -/
def eventLoop (mode : EventMode) : M NbiotResult := do
  onlyIf (← eventLoopReady) do
    eventLoopRun mode
    if (← getMqtt).evLoopRc = .idle ∧ (← get).loop.isBusy then
      modifyMqtt fun mqtt => { mqtt with evLoopRc := .pending }
  return (← getMqtt).evLoopRc

/-! ## The public calls -/

/-- `NbiotMQTT::connect`. -/
def connect (cleanSession : Nat) : M ErrorNumber := do
  if (← getPool).initialized then
    let connected ← isConnected
    let free ← (if connected then pure false else (!·) <$> isSleeping)
    if free then
      modifyPool fun pool => { pool with cleanSession := cleanSession }
      sendEvent .connectEvent
      return (← getPool).errno
    else
      onlyIf (← isSleeping) (sendEvent .wakeupEvent)
      return (← getPool).errno
  else
    return .initializeError

/-- The time a poll yields for: short without a subscription. -/
def pollTime (pollInterval : Nat) : M Nat := do
  let preset := (← getMqtt).pollInterval
  if !(← getRegistry).hasAnyTopic .sub then return halfSecondMs
  else return if pollInterval = 0 then preset else pollInterval

/-- `NbiotMQTT::poll`. -/
def poll (pollInterval : Nat) : M Unit := do
  let awake ← isConnected
  let proceed ← (if awake then pure true else isSleeping)
  if proceed then
    onlyIf (← isSleeping) (sendEvent .wakeupEvent)
    let _ ← Client.yield (← pollTime pollInterval)
    restartAutoPoll

/-- A name that is stored in the shared topic id shows part of its address. -/
def topicNameAt : M NbiotTopic.TopicTypeNormal := do
  return .topicName (← ask .address).word

/-- Select the topic of a publish: the result of the registration that an
unknown name needs. -/
def publishTopicFor (topic : Bytes) : M Int := do
  modifyPool fun pool => { pool with topicid := { type := .normal, id := 65535 } }
  match (← getRegistry).findTopic topic with
  | none =>
      if (← getRegistry).topicCount < (← getPool).maxTopics then
        modifyPool fun pool =>
          { pool with currentTopic := pool.currentTopic.assign (NbiotTopic.ofName topic) }
        let ttn ← topicNameAt
        modifyPool fun pool => { pool with topicid := pool.currentTopic.toSNTopic pool.topicid ttn }
        Client.registerTopic (← getPool).topicid
      else
        setErrno .maxTopicsExceeded
        return mqttFailure
  | some index =>
      onlyIf (!((← getRegistry).topicAt index).isReg .pub) <|
        modifyRegistry (·.setTopicFlag index .pub)
      let known := (← getRegistry).topicAt index
      modifyPool fun pool => { pool with currentTopic := pool.currentTopic.assign known }
      modifyPool fun pool =>
        { pool with topicid := pool.currentTopic.toSNTopic pool.topicid .topicId }
      return mqttSuccess

/-- The part of `publish` that runs when the client is connected and free. -/
def publishNow (topic data : Bytes) (qos : QoS) : M Unit := do
  setErrno .success
  let rc ← publishTopicFor topic
  if rc = mqttSuccess then
    let rc ← Client.publish (← getPool).topicid data false qos
    if rc < 0 then
      setErrno .connectionError
      sendEvent .disconnectEvent
    else
      poll 0
  else
    onlyIf ((← getPool).errno = .success) (setErrno .connectionError)
    sendEvent .disconnectEvent

/-- `NbiotMQTT::publish`. -/
def publish (topic data : Bytes) (qos : QoS) : M ErrorNumber := do
  if (← getPool).initialized then
    onlyIf (← isSleeping) (sendEvent .wakeupEvent)
    if ← isConnected then
      if (← get).loop.isBusy then
        return .loopCtrlBusyError
      else
        publishNow topic data qos
        return (← getPool).errno
    else
      return .connectionError
  else
    return .initializeError

/-- Send the subscribe request for the current topic; only then the handler of
the application goes to it. -/
def subscribeCurrent (mh : Option MessageHandler) : M ErrorNumber := do
  let ttn ← topicNameAt
  modifyPool fun pool => { pool with topicid := pool.currentTopic.toSNTopic pool.topicid ttn }
  let rc ← Client.subscribe (← getPool).topicid .qos1
  if rc ≠ mqttSuccess then
    return .connectionError
  else
    modifyPool fun pool => { pool with currentTopic := { pool.currentTopic with mh := mh } }
    return .success

/-- The topic is subscribed already, and only its handler is new. -/
def attachHandler (index : Nat) (mh : Option MessageHandler) : M Unit := do
  let before ← getRegistry
  modifyRegistry (·.attachMessageHandler index mh)
  logApp (.handlerInstalled false (before.topicAt index) before (← getRegistry))

/-- `NbiotMQTT::subscribe`. -/
def subscribe (topic : Bytes) (mh : Option MessageHandler) : M ErrorNumber := do
  if ← isConnected then
    if (← get).loop.isBusy then
      return .loopCtrlBusyError
    else
      match (← getRegistry).findTopic topic with
      | none =>
          if (← getRegistry).topicCount < (← getPool).maxTopics then
            modifyPool fun pool =>
              { pool with currentTopic := pool.currentTopic.assign (NbiotTopic.ofName topic) }
            subscribeCurrent mh
          else
            return .maxTopicsExceeded
      | some index =>
          let nbTopic := (← getRegistry).topicAt index
          if !nbTopic.isReg .sub then
            modifyPool fun pool => { pool with currentTopic := pool.currentTopic.assign nbTopic }
            subscribeCurrent mh
          else
            attachHandler index mh
            return .success
  else
    return .connectionError

/-- A topic leaves the registry, perhaps as the last subscribed one. -/
def dropTopic (index : Nat) : M Unit := do
  modifyRegistry (·.removeTopic index)
  if !(← getRegistry).hasAnyTopic .sub then
    modifyPool fun pool => { pool with hasSubscription := false }

/-- `NbiotMQTT::unsubscribe`: the loop controller may be busy. -/
def unsubscribe (topic : Bytes) : M ErrorNumber := do
  if ← isConnected then
    match (← getRegistry).findTopic topic with
    | some index =>
        let nbTopic := (← getRegistry).topicAt index
        if nbTopic.isReg .sub then
          let ttn ← topicNameAt
          let rc ← Client.unsubscribe (nbTopic.toSNTopic {} ttn)
          if rc ≠ mqttSuccess then
            return .connectionError
          else
            dropTopic index
            return .success
        else
          return .connectionError
    | none => return .connectionError
  else
    return .connectionError

def setDuration (duration : Nat) : M Unit := do
  modifyPool fun pool => { pool with duration := duration }
  logApp (.setDuration duration)

/-- `NbiotMQTT::sleep`. -/
def sleep (duration : Nat) : M Unit := do
  let awake ← isConnected
  let proceed ← (if awake then pure true else isDisconnected)
  if proceed then
    setDuration duration
    modifyPool fun pool => { pool with autoReconnect := false }
    sendEvent .sleepEvent

/-- `NbiotMQTT::hibernate`. -/
def hibernate (duration : Nat) : M Unit := do
  let awake ← isConnected
  let idle ← (if awake then pure true else isDisconnected)
  let proceed ← (if idle then pure true else isSleeping)
  if proceed then
    onlyIf (← isSleeping) (sendEvent .wakeupEvent)
    setDuration duration
    let autoReconnect := (← isConnected) && 0 < duration
    modifyPool fun pool => { pool with autoReconnect := autoReconnect }
    sendEvent .hibernateEvent

/-- The events by which `wakeup` leaves the sleeping states. -/
def leaveSleep : M Unit := do
  if ← isSleeping then
    onlyIf (← stateIs .connectedAwake) (sendEvent .awakeSleepEvent)
    sendEvent .wakeupEvent
  else if ← stateIs .deepSleep then
    sendEvent .reInitializeEvent

/-- `NbiotMQTT::wakeup`. -/
def wakeup : M Unit := do
  leaveSleep
  onlyIf (← getPool).autoReconnect do
    doReconnect
    modifyPool fun pool => { pool with autoReconnect := false }
  setDuration 0

/-! ## Configuration and start -/

/-- `NbiotConf`. A missing gateway is an empty one. -/
structure NbiotConf where
  notify : Bool := false
  keepAliveInterval : Nat := 300
  autoPollInterval : Nat := 0
  maxTopicCount : Nat := 20
  pollInterval : Nat := 10000
  gateway : Bytes := []
  port : Nat := 1883
  maxResend : Nat := 0
  login : Option Bytes := none
  password : Option Bytes := none
  deriving DecidableEq, Repr

/-- `setAutoPoll`. -/
def setAutoPoll (autoPoll : Nat) : M Unit := do
  modifyPool fun pool => { pool with autoPollInterval := autoPoll }
  restartAutoPoll

/-- Apply one setting if it is valid: the error bit it sets otherwise. -/
def configure (valid : Prop) [Decidable valid] (error : Nat) (set : M Unit) : M Nat := do
  if valid then
    set
    return 0
  else
    return error

/-- `nbiotConfig`: the first call counts, whatever its result. -/
def nbiotConfig (conf : NbiotConf) : M Nat := do
  if (← getMqtt).configError = errorNoConfig then
    onlyIf conf.notify <| modifyMqtt fun mqtt => { mqtt with notifyHandler := true }
    let keepAlive ← configure (60 ≤ conf.keepAliveInterval ∧ conf.keepAliveInterval ≤ 86400) 64 <|
      modifyPool fun pool => { pool with keepAliveInterval := conf.keepAliveInterval }
    let autoPoll ← configure
      (conf.autoPollInterval ≤ 86399 ∧ conf.autoPollInterval < conf.keepAliveInterval) 128 <|
      setAutoPoll conf.autoPollInterval
    let maxTopics ← configure (1 ≤ conf.maxTopicCount ∧ conf.maxTopicCount ≤ 256) 256 <|
      modifyPool fun pool => { pool with maxTopics := conf.maxTopicCount }
    let pollInterval ← configure (1000 ≤ conf.pollInterval) 512 <|
      modifyMqtt fun mqtt => { mqtt with pollInterval := conf.pollInterval }
    let gateway ← configure (cString conf.gateway ≠ []) 1024 <|
      modifyPool fun pool => { pool with gateway := cString conf.gateway }
    let port ← configure (1024 ≤ conf.port) 2048 <|
      modifyPool fun pool => { pool with mqttPort := conf.port }
    let maxResend ← configure (conf.maxResend ≤ 10) 4096 <|
      modifySn fun sn => { sn with maxRetry := conf.maxResend }
    modifyPool fun pool =>
      { pool with
        authLogin := (cString <$> conf.login).getD pool.authLogin
        authPasswd := (cString <$> conf.password).getD pool.authPasswd }
    let result := keepAlive + autoPoll + maxTopics + pollInterval + gateway + port + maxResend
    modifyMqtt fun mqtt => { mqtt with configError := result }
    return result
  else
    return 16384

/-- `nbiotStart`. -/
def nbiotStart : M Bool := do
  if (← getMqtt).configError = 0 ∧ (← getStm).currentState.isNone then
    startStateMachine
    return true
  else
    return false

/-! ## Runs -/

/-- One public call. -/
def ApiCall.run : ApiCall → M Unit
  | .connect cleanSession => do let _ ← LibNbiot.connect cleanSession
  | .publish topic data qos => do let _ ← LibNbiot.publish topic data qos
  | .subscribe topic mh => do let _ ← LibNbiot.subscribe topic mh
  | .unsubscribe topic => do let _ ← LibNbiot.unsubscribe topic
  | .disconnect => LibNbiot.disconnect
  | .sleep duration => LibNbiot.sleep duration
  | .hibernate duration => LibNbiot.hibernate duration
  | .wakeup => LibNbiot.wakeup
  | .poll pollInterval => LibNbiot.poll pollInterval
  | .eventLoop mode => do let _ ← LibNbiot.eventLoop mode

/-- One public call, logged as it begins. -/
def ApiCall.exec (call : ApiCall) : M Unit := do
  logApp (.api call)
  call.run

/-- What a run depends on besides the calls: the configuration, the replies of
the outside world and the clock at the start. -/
structure Setting where
  conf : NbiotConf
  env : Device → Nat → Reply
  epoch : Nat := 0

/-- The library as it is constructed. -/
def Setting.construct (setting : Setting) : Sys :=
  { rest := { io := { env := setting.env, now := setting.epoch } } }

/-- The library after it was configured and started. -/
def Setting.boot (setting : Setting) : Sys :=
  (do let _ ← nbiotConfig setting.conf
      let _ ← nbiotStart : M Unit) setting.construct |>.2

/-- The library after it was started and called. -/
def Setting.after (setting : Setting) (calls : List ApiCall) : Sys :=
  calls.foldl (fun s call => (call.exec s).2) setting.boot

theorem Setting.after_snoc (setting : Setting) (calls : List ApiCall) (call : ApiCall) :
    setting.after (calls ++ [call]) = (call.exec (setting.after calls)).2 := by
  simp [Setting.after]

end LibNbiot
