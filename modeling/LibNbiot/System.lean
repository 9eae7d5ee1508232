/-
# The state of the library

Everything the global `NbiotMQTT` object holds: the MQTT-SN client with its
buffers, the state machine with its dispatcher, the data pool, the topic
registry, and the loop controller with its eight clients. The outside world (the
clock, the modem, the network) is an environment that answers every look from a
script of replies; a reply also says how much time has passed, so the clock can
advance at every look and never runs backwards.

A socket is connected exactly while the modem class holds a connection number.
Opening it can fail in two ways, with the number gone or with an earlier one
kept; closing it can fail and then leaves it as it is; a write without a
connection is refused.
-/

import LibNbiot.Loop
import LibNbiot.Topic

namespace LibNbiot

open Logic.Program

/-! ## Enumerations of the source -/

/-- `StateIds`; the invalid state is the absence of one. -/
inductive StateId where
  | initial
  | disconnected
  | error
  | connected
  | connectedSleep
  | deepSleep
  | disconnectedSleep
  | connectedAwake
  | waitForAttach
  | waitForConnect
  deriving DecidableEq, Repr

/-- `ErrorNumber`. -/
inductive ErrorNumber where
  | success
  | initializeError
  | gprsNotConnected
  | ipNotConnected
  | connectionError
  | notStartedError
  | maxTopicsExceeded
  | loopCtrlBusyError
  | invalidTopicId
  deriving DecidableEq, Repr

/-- `NbiotAction`, as far as a notification uses it. -/
inductive NbiotAction where
  | initializeAction
  | reInitialize
  | connect
  | registerTopic
  | publish
  | disconnect
  | hibernate
  deriving DecidableEq, Repr

/-- `MQTTSN_returnCodes`. -/
def rcAccepted : Nat := 0
def rcRejectedInvalidTopicId : Nat := 2
def rcRejectedNotSupported : Nat := 3

/-- `QoS`. -/
inductive QoS where
  | qos0
  | qos1
  | qos2
  deriving DecidableEq, Repr

def QoS.toNat : QoS → Nat
  | .qos0 => 0
  | .qos1 => 1
  | .qos2 => 2

/-- `NbiotEventMode`. -/
inductive EventMode where
  | active
  | asleep
  deriving DecidableEq, Repr

/-- The events of the state machine: the state timeout and `NbiotStm::EventType`. -/
inductive StmEvent where
  | invalid
  | timer
  | initializeEvent
  | connectEvent
  | sleepEvent
  | wakeupEvent
  | connectedAwakeEvent
  | awakeSleepEvent
  | awakeActiveEvent
  | hibernateEvent
  | reInitializeEvent
  | disconnectEvent
  | errorDisconnectEvent
  | connectedEvent
  | attachedEvent
  deriving DecidableEq, Repr

/-- The transitions of `NbiotStm`, under the names of its members. -/
inductive Transition where
  | mInitialize
  | mInitialTimeout
  | mIsInitializedDisconnected
  | mIsInitializedError
  | mConnect
  | mIsNotAttached
  | mIsAttachedIpConnect
  | mIsAttachedError
  | mIsIpConnectedError
  | mIsConnectedConnected
  | mWaitConnectIsConnected
  | mIsConnectedError
  | mSleep
  | mWakeup
  | mSleepAwake
  | mAwakeSleep
  | mAwakeActive
  | mAwakeTimeout
  | mHibernate
  | mReInitialize
  | mDisconnect
  | mErrorDisconnect
  | mErrorReInitialize
  | mErrorTimeout
  | mDisSleep
  | mDisWakeup
  | mDisHibernate
  deriving DecidableEq, Repr

/-- `Notification`. -/
structure Notification where
  state : Option StateId
  action : NbiotAction
  returnCode : Nat
  errorNumber : ErrorNumber
  deriving DecidableEq, Repr

/-- The eight loop clients of the library. -/
inductive ClientId where
  | attach
  | con
  | pub
  | reg
  | sub
  | unsub
  | yield
  | dis
  deriving DecidableEq, Repr

def ClientId.loopId : ClientId → NbiotLoopId
  | .attach => .cgatt
  | .con => .connect
  | .pub => .publish
  | .reg => .register
  | .sub => .subscribe
  | .unsub => .unsubscribe
  | .yield => .yield
  | .dis => .disconnect

/-- The calls of the public interface that run the library. -/
inductive ApiCall where
  | connect (cleanSession : Nat)
  | publish (topic data : Bytes) (qos : QoS)
  | subscribe (topic : Bytes) (mh : Option MessageHandler)
  | unsubscribe (topic : Bytes)
  | disconnect
  | sleep (duration : Nat)
  | hibernate (duration : Nat)
  | wakeup
  | poll (pollInterval : Nat)
  | eventLoop (mode : EventMode)
  deriving DecidableEq, Repr

/-! ## The log -/

/-- What the library itself writes to the log. -/
inductive SysEvent where
  | api (call : ApiCall)
  /-- A packet was serialized into the send buffer. -/
  | serialized (p : Packet) (bytes : Bytes)
  /-- The publish buffer was copied over the send buffer. -/
  | restored (bytes : Bytes)
  /-- A publish or subscribe was handed to the loop controller. -/
  | publishQueued (msgId : Nat) (qos : QoS)
  | subscribeQueued (msgId : Nat)
  /-- A retry of the client was counted. -/
  | retried (c : ClientId)
  /-- Bytes were given to the network, which took or refused them. -/
  | wrote (bytes : Bytes) (ok : Bool)
  /-- A complete packet was read, or the attempt to read one failed. -/
  | received (packet : Bytes)
  | receiveFailed
  /-- A REGISTER of the gateway named a topic. -/
  | topicNamed (topicName : Bytes)
  | delivered (handler : MessageHandler) (topicName : Bytes) (message : PublishData)
  | notified (n : Notification)
  /-- The dispatcher looked at the state timer, which is absent when invalid. -/
  | dispatched (left : Option Nat)
  | posted (e : StmEvent)
  | fired (t : Transition) (e : StmEvent)
  | entered (st : StateId)
  /-- The Connected state has looked at the topics from before the connection:
  the clean session and the subscription flag it saw, the registry before and
  after. -/
  | sessionOpened (cleanSession : Nat) (hasSubscription : Bool)
      (before after : NbiotTopicRegistry)
  /-- A subscribe has come to its end, by its loop or at once: the topic it was
  about, and the registry before and after. -/
  | handlerInstalled (looped : Bool) (topic : NbiotTopic) (before after : NbiotTopicRegistry)
  | setDuration (duration : Nat)
  | socketOpened (ok : Bool)
  | socketClosed (ok : Bool)
  | rebooted (ok : Bool)
  | modemInitialized (ok : Bool)
  | modemSwitchedOff
  /-- The state machine was asked for a current state it does not have. -/
  | nullDeref
  deriving DecidableEq, Repr

/-- What every log entry shows of the library. -/
structure View where
  state : Option StateId
  isconnected : Bool
  socket : Bool
  duration : Nat
  qos : QoS
  queue : List ClientId
  active : Option ClientId
  deriving DecidableEq, Repr

/-! ## The parts of the state -/

/-- Whom the library asks. -/
inductive Device where
  | clock
  | write
  | read
  | socketOpen
  | socketClose
  | reboot
  | modemInit
  | attach
  | isAttached
  | getImsi
  | switchModem
  | address
  deriving DecidableEq, Repr

/-- An answer of the outside world: the milliseconds that have passed, success,
received bytes, and a number (an address in memory). -/
structure Reply where
  elapsed : Nat := 0
  ok : Bool := true
  data : Bytes := []
  word : Nat := 0
  deriving DecidableEq, Repr

/-- The outside world: the replies still to come, the clock and the socket. -/
structure Io where
  env : Device → Nat → Reply
  asked : Device → Nat := fun _ => 0
  now : Int := 0
  socket : Bool := false

/-- `NbiotMqttSnClient` with its base `MQTTSN::Client`. The object is global, so
what no constructor sets is zero. The topic that the requests share is the data
pool's `m_topicid`. -/
structure MqttSnClient where
  commandTimeoutMs : Nat := 32767
  sendbuf : Bytes := List.replicate maxPacketSize 0
  readbuf : Bytes := List.replicate maxPacketSize 0
  lastSent : Timer := {}
  lastReceived : Timer := {}
  duration : Nat := 0
  pingOutstanding : Bool := false
  pmPingRespOutstanding : Bool := false
  cleansession : Bool := false
  packetId : Nat := 0
  payload : Bytes := []
  retained : Bool := false
  qos : QoS := .qos1
  isconnected : Bool := false
  pubbuf : Bytes := List.replicate maxPacketSize 0
  inflightLen : Nat := 0
  inflightMsgid : Nat := 0
  inflightQoS : QoS := .qos0
  pubRetryTimeout : Nat := 0
  pubRetryCount : Nat := 0
  subRetryTimeout : Nat := 0
  subRetryCount : Nat := 0
  maxRetry : Nat := 0
  yieldRunning : Bool := false
  deriving DecidableEq, Repr

/-- `NbiotStm` with its base class and its dispatcher. -/
structure Stm where
  currentState : Option StateId := none
  stateTimeout : Timer := {}
  events : List StmEvent := []
  pendingEvents : List StmEvent := []
  deriving DecidableEq, Repr

/-- `NbiotStmDataPool`. -/
structure DataPool where
  errno : ErrorNumber := .notStartedError
  topicid : TopicId := { type := .normal, id := 65535 }
  currentTopic : NbiotTopic := {}
  initialized : Bool := false
  hasSubscription : Bool := false
  authLogin : Bytes := []
  authPasswd : Bytes := []
  authentication : Bytes := []
  gateway : Bytes := []
  mqttPort : Nat := 1883
  keepAliveInterval : Nat := 60
  autoPollInterval : Nat := 0
  eventLoopExecInterval : Nat := 100
  eventLoopLock : Bool := true
  eventLoopTimer : Timer := {}
  autoPollTimer : Timer := {}
  cleanSession : Nat := 0
  autoReconnect : Bool := false
  duration : Nat := 0
  modemRestartOnError : Nat := 0
  maxTopics : Nat := 20
  modemAttached : Bool := false
  waitTimer : Timer := {}
  deriving DecidableEq, Repr

/-- `ErrorNoConfig`: the library was never configured. -/
def errorNoConfig : Nat := 32768

/-- `NbiotMQTT`, its parts aside, and the global `configError`. -/
structure Mqtt where
  notifyHandler : Bool := false
  evLoopRc : NbiotResult := .idle
  pollInterval : Nat := 1000
  configError : Nat := errorNoConfig
  deriving DecidableEq, Repr

/-- Everything but the loop controller and its clients. -/
structure Parts where
  io : Io
  sn : MqttSnClient := {}
  stm : Stm := {}
  pool : DataPool := {}
  registry : NbiotTopicRegistry := {}
  mqtt : Mqtt := {}

instance : Observed ClientId Parts View where
  view loop parts :=
    { state := parts.stm.currentState
      isconnected := parts.sn.isconnected
      socket := parts.io.socket
      duration := parts.pool.duration
      qos := parts.sn.qos
      queue := loop.clientList
      active := loop.loopClient }

/-- The whole library. -/
abbrev Sys := LoopWorld ClientId SysEvent View Parts

abbrev M := StateM Sys

/-! ## Access to the parts -/

def modifyIo (f : Io → Io) : M Unit :=
  modify fun s => { s with rest := { s.rest with io := f s.rest.io } }

def modifySn (f : MqttSnClient → MqttSnClient) : M Unit :=
  modify fun s => { s with rest := { s.rest with sn := f s.rest.sn } }

def modifyStm (f : Stm → Stm) : M Unit :=
  modify fun s => { s with rest := { s.rest with stm := f s.rest.stm } }

def modifyPool (f : DataPool → DataPool) : M Unit :=
  modify fun s => { s with rest := { s.rest with pool := f s.rest.pool } }

def modifyRegistry (f : NbiotTopicRegistry → NbiotTopicRegistry) : M Unit :=
  modify fun s => { s with rest := { s.rest with registry := f s.rest.registry } }

def modifyMqtt (f : Mqtt → Mqtt) : M Unit :=
  modify fun s => { s with rest := { s.rest with mqtt := f s.rest.mqtt } }

def getSn : M MqttSnClient := do return (← get).rest.sn

def getStm : M Stm := do return (← get).rest.stm

def getPool : M DataPool := do return (← get).rest.pool

def getRegistry : M NbiotTopicRegistry := do return (← get).rest.registry

def getMqtt : M Mqtt := do return (← get).rest.mqtt

def logApp (e : SysEvent) : M Unit := log (.app e)

/-! ## The outside world -/

/-- Ask a device: take the next reply of its script and let the time pass. -/
def ask (d : Device) : M Reply := do
  let io := (← get).rest.io
  let r := io.env d (io.asked d)
  modifyIo fun io =>
    { io with asked := Function.update io.asked d (io.asked d + 1), now := io.now + r.elapsed }
  return r

/-- `getMillis()`. -/
def getMillis : M Int := do
  let _ ← ask .clock
  return (← get).rest.io.now

/-- `Timer(end)` and `start(end)`. -/
def startTimer (duration : Nat) : M Timer := do
  return Timer.startFor (← getMillis) duration

def remaining (t : Timer) : M Nat := do
  return t.remaining (← getMillis)

/-- `left_ms()`. -/
def leftMs (t : Timer) : M Nat := do
  return t.leftMs (← getMillis)

/-- `Network::isConnected()`. -/
def networkIsConnected : M Bool := do return (← get).rest.io.socket

/-- `Network::connect()`: a failure leaves no new connection behind. -/
def networkConnect : M Bool := do
  let r ← ask .socketOpen
  modifyIo fun io => { io with socket := r.ok || (io.socket && r.word = 0) }
  logApp (.socketOpened r.ok)
  return r.ok

/-- `Network::disconnect()`. -/
def networkDisconnect : M Bool := do
  let r ← ask .socketClose
  modifyIo fun io => { io with socket := io.socket && !r.ok }
  logApp (.socketClosed r.ok)
  return r.ok

/-- `Network::write()`. -/
def networkWrite (bytes : Bytes) : M Bool := do
  let r ← ask .write
  let ok := r.ok && (← networkIsConnected)
  logApp (.wrote bytes ok)
  return ok

/-- Overwrite a buffer from an offset on. -/
def overwrite (buf : Bytes) (offset : Nat) (bytes : Bytes) : Bytes :=
  buf.take offset ++ bytes ++ buf.drop (offset + bytes.length)

/-- `Network::read()` into the read buffer at an offset: the number of bytes, or
`-1`. What was read is copied with a terminating zero byte. -/
def networkRead (offset len : Nat) : M Int := do
  let r ← ask .read
  if r.ok then
    let data := r.data.take len
    onlyIf (0 < data.length) <|
      modifySn fun sn => { sn with readbuf := overwrite sn.readbuf offset (data ++ [0]) }
    return data.length
  else
    return -1

end LibNbiot
