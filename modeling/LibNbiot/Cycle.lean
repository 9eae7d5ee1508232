/-
# One packet from the network

`MQTTSN::Client::cycle` reads a packet and does what it asks for: it answers a
REGISTER, delivers and acknowledges a PUBLISH, and tells `NbiotMQTT` about a
late PUBACK, a DISCONNECT of the gateway or an awaited PINGRESP. `NbiotMQTT` in
turn updates the registry, notifies the application or drives the state machine.
-/

import LibNbiot.StateMachine

namespace LibNbiot

open Logic.Program

/-! ## The state, as `NbiotMQTT` asks for it -/

/-- `isConnected()` and its siblings. -/
def stateIs (st : StateId) : M Bool := do return (← getCurrentStateId) = some st

def isConnected : M Bool := stateIs .connected

def isDisconnected : M Bool := stateIs .disconnected

/-- `isSleeping()`. -/
def isSleeping : M Bool := do
  if ← stateIs .connectedSleep then return true
  if ← stateIs .connectedAwake then return true
  stateIs .disconnectedSleep

/-- `NbiotMQTT::disconnect()`. -/
def disconnect : M Unit := do
  let awake ← isConnected
  let proceed ← (if awake then pure true else isSleeping)
  if proceed then
    onlyIf (← isSleeping) (sendEvent .wakeupEvent)
    sendEvent .disconnectEvent

/-! ## Notifications of the client -/

/-- Tell the application, if it wants to know, with the current state. -/
def notifyState (action : NbiotAction) (returnCode : Nat) (errorNumber : Option StateId → ErrorNumber) :
    M Unit := do
  if (← getMqtt).notifyHandler then
    let st ← getCurrentStateId
    notify { state := st, action, returnCode, errorNumber := errorNumber st }

/-- `pubackNotify`: a topic whose id was rejected leaves the registry. -/
def pubackNotify (topic : NbiotTopic) : M Unit := do
  notifyState .publish topic.returnCode fun _ =>
    if topic.returnCode = rcAccepted then .success
    else if topic.returnCode = rcRejectedInvalidTopicId then .invalidTopicId
    else .connectionError
  if topic.returnCode = rcRejectedInvalidTopicId then
    match (← getRegistry).findTopicId topic.id with
    | some index => modifyRegistry (·.removeTopic index)
    | none => pure ()

/-- `registerNotify`: the return code for the REGACK. -/
def registerNotify (topic : NbiotTopic) : M Nat := do
  logApp (.topicNamed topic.topicName)
  let registry ← getRegistry
  match registry.findTopic topic.topicName with
  | some index =>
      let topic :=
        if (registry.topicAt index).mh.isNone then registry.attachWildcardMessageHandler topic
        else topic
      modifyRegistry (·.insertTopic topic)
      return rcAccepted
  | none =>
      if registry.topicCount < (← getPool).maxTopics then
        modifyRegistry (·.insertTopic (registry.attachWildcardMessageHandler topic))
        return rcAccepted
      else
        notifyState .registerTopic rcRejectedNotSupported fun _ => .maxTopicsExceeded
        return rcRejectedNotSupported

/-- Is a DISCONNECT of the gateway its answer to the one of a sleeping client? -/
def expectedDisconnect (st : Option StateId) : Bool :=
  st = some .connectedSleep || st = some .connectedAwake

/-- `disconnectNotify(duration)`, called with a duration of zero. -/
def disconnectNotify : M Unit := do
  let st ← getCurrentStateId
  onlyIf (← getMqtt).notifyHandler <|
    notify
      { state := st
        action := .disconnect
        returnCode := rcAccepted
        errorNumber := if expectedDisconnect st then .success else .connectionError }
  if !expectedDisconnect st then disconnect

/-- `pingRespNotify`. -/
def pingRespNotify : M Unit := do
  if ← stateIs .connectedAwake then
    sendEvent .awakeSleepEvent
    stopYield

/-! ## The packets -/

/-- Serialize and send an answer: the value of `rc` afterwards, an unsigned
character, so that a failure is 255. -/
def answerPacket (p : Packet) (timer : Timer) : M Nat := do
  let len ← serialize p
  if len = 0 then
    return toUChar mqttFailure
  else
    let (rc, _) ← sendPacket len timer
    return toUChar rc

/-- A PUBACK while no PUBLISH with QoS 1 is outstanding. -/
def cyclePuback : M Nat := do
  if (← getSn).inflightMsgid = 0 then
    let (rc, ack) := deserializePuback (← getSn).readbuf
    if rc ≠ 1 then
      return toUChar mqttFailure
    else
      pubackNotify { id := ack.topicId, returnCode := ack.returnCode }
      return toUChar mqttSuccess
  else
    return toUChar mqttSuccess

/-- A REGISTER: `none` when the rest of the cycle is skipped. -/
def cycleRegister (timer : Timer) : M (Option Nat) := do
  let (rc, data) := deserializeRegister (← getSn).readbuf
  if rc ≠ 1 then
    return none
  else
    let returnCode ← registerNotify { NbiotTopic.ofId data.topicId with topicName := data.topicName }
    some <$> answerPacket (.regack data.topicId data.packetId returnCode) timer

/-- What a well-formed DISCONNECT of the gateway does. -/
def gatewayDisconnect : M Unit := do
  modifySn fun sn => { sn with isconnected := false }
  disconnectNotify

def cycleDisconnect : M Nat := do
  if deserializeDisconnect (← getSn).readbuf ≠ 1 then
    return toUChar mqttFailure
  else
    gatewayDisconnect
    return toUChar mqttSuccess

/-- Call a message handler of the application. -/
def callMessageHandler (handler : Option (MessageHandler × Bytes)) (data : PublishData) : M Unit :=
  match handler with
  | some (h, topicName) => logApp (.delivered h topicName data)
  | none => pure ()

/-- `deliverMessage(topic, message)`. -/
def deliverMessage (data : PublishData) : M Nat := do
  let (rc, handler, registry) := (← getRegistry).messageDispatcher data.topic.id
  callMessageHandler handler data
  modifyRegistry fun _ => registry
  return rc

/-- The acknowledgement of a PUBLISH by its QoS; any other QoS is an error. -/
def acknowledge (data : PublishData) (retCode : Nat) (timer : Timer) : M Nat :=
  if data.qos = 1 then
    answerPacket (.puback data.topic.id data.packetId retCode) timer
  else if data.qos = 2 then
    answerPacket (.pubrec data.packetId) timer
  else
    return toUChar mqttFailure

/-- A PUBLISH: `none` when the rest of the cycle is skipped, with the value `rc`
has then. -/
def cyclePublish (timer : Timer) : M (Nat × Bool) := do
  let r ← ask .address
  let (rc, data) := deserializePublish (← getSn).readbuf r.word
  if rc ≠ 1 then
    return (toUChar mqttSuccess, false)
  else
    let retCode ← deliverMessage data
    if data.qos = 0 then
      return (toUChar mqttSuccess, true)
    else
      return (← acknowledge data retCode timer, true)

/-- A PINGRESP, to the ping of the sleeping client or to the keep-alive ping. -/
def cyclePingresp : M Unit := do
  if (← getSn).pmPingRespOutstanding then
    modifySn fun sn => { sn with pmPingRespOutstanding := false }
    pingRespNotify
  else if (← getSn).pingOutstanding then
    modifySn fun sn => { sn with pingOutstanding := false }

/-- The switch over the packet type: `rc`, and whether `keepalive` is reached. -/
def cycleSwitch (packetType : Nat) (timer : Timer) : M (Nat × Bool) := do
  if packetType = MsgType.puback.code.toNat then
    return (← cyclePuback, true)
  else if packetType = MsgType.register.code.toNat then
    match ← cycleRegister timer with
    | some rc => return (rc, true)
    | none => return (toUChar mqttSuccess, false)
  else if packetType = MsgType.disconnect.code.toNat then
    return (← cycleDisconnect, true)
  else if packetType = MsgType.publish.code.toNat then
    cyclePublish timer
  else if packetType = MsgType.pingresp.code.toNat then
    cyclePingresp
    return (toUChar mqttSuccess, true)
  else
    return (toUChar mqttSuccess, true)

/-- `cycle(timer)`. The result goes through an unsigned character. -/
def cycle (timer : Timer) : M Int := do
  let packetType := toUShort (← readPacket timer)
  let (rc, goOn) ← cycleSwitch packetType timer
  onlyIf goOn keepalive
  return if rc = 0 then toUChar packetType else rc

/-- `loopWait(breakValue, interval)`. -/
def loopWait (breakValue interval : Int) : M Bool := do
  if interval = 0 then
    return false
  else
    let timer ← startTimer (toULong interval)
    return (← cycle timer) ≠ breakValue

end LibNbiot
