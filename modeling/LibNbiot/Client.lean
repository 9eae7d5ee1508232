/-
# The MQTT-SN client: requests, sending and reading

The base client `MQTTSN::Client` and the part of `NbiotMqttSnClient` that hands
requests to the loop controller. All packets go through one send buffer. A
connect, register, unsubscribe or disconnect request is serialized when it is
queued and leaves only its length with its loop client; a publish or subscribe
request leaves its message id and is serialized when its loop starts.
-/

import LibNbiot.System

namespace LibNbiot

open Logic.Program

/-- `MQTTSN::returnCode`. -/
def mqttSuccess : Int := 0
def mqttFailure : Int := -1

def minSendTime : Nat := 100
def recomendedSendTime : Nat := 1000
def oneSecond : Nat := 1000
def msPerSec : Nat := 1000

/-! ## Sending -/

/-- Serialize a packet into the send buffer: its length, zero on an error. -/
def serialize (p : Packet) : M Nat := do
  match p.serialize with
  | some b =>
      modifySn fun sn => { sn with sendbuf := overwrite sn.sendbuf 0 b }
      logApp (.serialized p b)
      return b.length
  | none => return 0

/-- The body of the sending loop: it runs at most once, because a write takes
all bytes or fails. -/
def writeSendbuf (length : Int) (timer : Timer) : M Bool := do
  if (← remaining timer) = 0 then
    return false
  else if maxPacketSize < length then
    return false
  else
    let _ ← remaining timer
    networkWrite ((← getSn).sendbuf.take length.toNat)

/-- `last_sent.countdown(duration)`, with a keep-alive only. -/
def renewLastSent : M Unit := do
  if 0 < (← getSn).duration then
    let t ← startTimer (msPerSec * (← getSn).duration)
    modifySn fun sn => { sn with lastSent := t }

/-- `last_received.countdown(duration)`, with a keep-alive only. -/
def renewLastReceived : M Unit := do
  if 0 < (← getSn).duration then
    let t ← startTimer (msPerSec * (← getSn).duration)
    modifySn fun sn => { sn with lastReceived := t }

/-- A timer that is nearly out is restarted. -/
def renewTimer (timer : Timer) : M Timer := do
  if (← leftMs timer) < minSendTime then startTimer recomendedSendTime else return timer

/-- The sending loop: are as many bytes sent as were asked for? -/
def sendLoop (length : Int) (timer : Timer) : M Bool :=
  if 0 < length then writeSendbuf length timer else return (length = 0)

/-- `sendPacket(length, timer)`; the timer, passed by reference, is restarted
when it is nearly out. -/
def sendPacket (length : Int) (timer : Timer) : M (Int × Timer) := do
  let timer ← renewTimer timer
  if ← sendLoop length timer then
    renewLastSent
    return (mqttSuccess, timer)
  else
    return (mqttFailure, timer)

/-- Has one of the two keep-alive timers run out? The second is only looked at
when the first has not. -/
def keepaliveExpired : M Bool := do
  if (← remaining (← getSn).lastSent) = 0 then return true
  else return (← remaining (← getSn).lastReceived) = 0

/-- `keepalive()`; its result is not used. -/
def keepalive : M Unit := do
  if (← getSn).duration ≠ 0 then
    let expired ← keepaliveExpired
    if expired ∧ ¬ (← getSn).pingOutstanding then
      let timer ← startTimer oneSecond
      let len ← serialize (.pingreq [])
      if 0 < len then
        let (rc, _) ← sendPacket len timer
        if rc = mqttSuccess then
          modifySn fun sn => { sn with pingOutstanding := true }

/-! ## Reading -/

/-- A failed attempt to read a packet. -/
def readFailure : M Int := do
  logApp .receiveFailed
  return mqttFailure

/-- Read what is missing of a packet: the number of bytes there are then. -/
def readMore (timer : Timer) (len datalen : Nat) : M Int := do
  if len < datalen then
    let _ ← leftMs timer
    return len + (← networkRead len (datalen - len))
  else
    return len

/-- A packet is complete: its type. -/
def readComplete (lenlen datalen : Nat) : M Int := do
  logApp (.received ((← getSn).readbuf.take datalen))
  renewLastReceived
  return byteAt (← getSn).readbuf lenlen

/-- The third step of `readPacket`: the bytes behind the length field. -/
def readRest (timer : Timer) (len : Nat) : M Int := do
  let (lenlen, datalen) := packetDecode (← getSn).readbuf
  let _ ← remaining timer
  -- the source reads a longer packet past the end of its buffer
  if maxPacketSize < datalen then
    readFailure
  else if datalen ≠ (← readMore timer len datalen) then
    readFailure
  else
    readComplete lenlen datalen

/-- `readPacket(timer)`: the packet type, or -1. The loops for waiting times of
more than 65535 ms look at the timer and do not run: no caller hands in more
than a second. -/
def readPacket (timer : Timer) : M Int := do
  let _ ← remaining timer
  let _ ← leftMs timer
  let len ← networkRead 0 1
  if len < 1 then
    readFailure
  else if byteAt (← getSn).readbuf 0 = 1 then
    let _ ← remaining timer
    let _ ← leftMs timer
    let more ← networkRead 1 2
    if len + more < 3 then readFailure else readRest timer 3
  else
    readRest timer 1

/-! ## Handing requests to the loop controller -/

/-- `PacketId::getNext()`. -/
def getNext : M Nat := do
  let next := (← getSn).packetId
  let next := if next = 65535 then 1 else next + 1
  modifySn fun sn => { sn with packetId := next }
  return next

/-- `getTimer().setTime(end)` of a loop client. -/
def setTime (c : ClientId) (duration : Nat) : M Unit :=
  modifyClient c fun cl => { cl with timer := cl.timer.setTime duration }

/-- `loopConnect`, `loopRegister`, `loopUnsubscribe` and `loopDisconnect`: only
the length of the serialized packet stays with the client. -/
def loopRequest (c : ClientId) (length : Nat) : M Unit := do
  setValue c length
  setTime c (← getSn).commandTimeoutMs
  registerLoopClient (some c)

def loopConnect (length : Nat) : M Unit := loopRequest .con length

def loopRegister (length : Nat) : M Unit := loopRequest .reg length

def loopUnsubscribe (length : Nat) : M Unit := loopRequest .unsub length

def loopDisconnect (length : Nat) : M Unit := loopRequest .dis length

/-- `loopPublish`. -/
def loopPublish (id : Nat) (timerLeft : Nat) : M Unit := do
  modifySn fun sn => { sn with pubRetryTimeout := timerLeft, pubRetryCount := sn.maxRetry }
  setTime .pub timerLeft
  setValue .pub id
  logApp (.publishQueued id (← getSn).qos)
  registerLoopClient (some .pub)

/-- `loopSubscribe`. -/
def loopSubscribe (id : Nat) (timerLeft : Nat) : M Unit := do
  modifySn fun sn => { sn with subRetryTimeout := timerLeft, subRetryCount := sn.maxRetry }
  setValue .sub id
  setTime .sub timerLeft
  logApp (.subscribeQueued id)
  registerLoopClient (some .sub)

/-- `loopYield`. -/
def loopYield (timeoutMs : Nat) : M Unit := do
  setValue .yield (toCInt timeoutMs)
  registerLoopClient (some .yield)

/-- `stopYield`. -/
def stopYield : M Unit := modifySn fun sn => { sn with yieldRunning := false }

/-! ## The requests -/

namespace Client

/-- `connect(options)`: nothing is sent while the client is connected. -/
def connect (duration cleansession : Nat) (clientId : Bytes) : M Int := do
  if (← getSn).isconnected then
    return mqttFailure
  else
    modifySn fun sn => { sn with duration := duration, cleansession := cleansession ≠ 0 }
    let len ← serialize (.connect cleansession duration clientId)
    if 0 < len then
      loopConnect len
      return mqttSuccess
    else
      return mqttFailure

/-- `registerTopic(topicName)`: the name goes as a C string. -/
def registerTopic (topicName : TopicId) : M Int := do
  let msgid ← getNext
  let len ← serialize (.register 0 msgid (cString topicName.name))
  if 0 < len then
    modifyPool fun pool => { pool with topicid := topicName }
    loopRegister len
    return mqttSuccess
  else
    return mqttFailure

/-- Only a publish with QoS 1 has a message id. -/
def nextPublishId (qos : QoS) : M Nat := if qos = .qos1 then getNext else return 0

/-- `publish(topicName, message)`. -/
def publish (topicName : TopicId) (payload : Bytes) (retained : Bool) (qos : QoS) : M Int := do
  let timer ← startTimer (← getSn).commandTimeoutMs
  if (← getSn).isconnected then
    let id ← nextPublishId qos
    modifyPool fun pool => { pool with topicid := topicName }
    modifySn fun sn => { sn with payload := payload, retained := retained, qos := qos }
    loopPublish id (← remaining timer)
    return mqttSuccess
  else
    return mqttFailure

/-- `subscribe(topicFilter, qos, mh)`; the handler is not used. -/
def subscribe (topicFilter : TopicId) (qos : QoS) : M Int := do
  if (← getSn).isconnected then
    let id ← getNext
    let timer ← startTimer (← getSn).commandTimeoutMs
    modifyPool fun pool => { pool with topicid := topicFilter }
    modifySn fun sn => { sn with qos := qos }
    loopSubscribe id (← remaining timer)
    return mqttSuccess
  else
    return mqttFailure

/-- `unsubscribe(topicFilter)`. -/
def unsubscribe (topicFilter : TopicId) : M Int := do
  if (← getSn).isconnected then
    let len ← serialize (.unsubscribe (← getNext) topicFilter)
    if 0 < len then
      modifyPool fun pool => { pool with topicid := topicFilter }
      loopUnsubscribe len
      return mqttSuccess
    else
      return mqttFailure
  else
    return mqttFailure

/-- `disconnect(duration)`: a duration of zero is left out of the packet. -/
def disconnect (duration : Nat) : M Int := do
  let _ ← startTimer (← getSn).commandTimeoutMs
  let len ← serialize (.disconnect (if duration = 0 then none else some duration))
  if 0 < len then
    loopDisconnect len
    return mqttSuccess
  else
    return mqttFailure

/-- `yield(timeout_ms)`. -/
def yield (timeoutMs : Nat) : M Int := do
  loopYield timeoutMs
  return mqttSuccess

/-- `publish(len, timer, qos)`: only QoS 0 is sent from here. -/
def republish (len : Int) (timer : Timer) (qos : QoS) : M Int := do
  if qos = .qos0 then
    let (rc, _) ← sendPacket len timer
    return rc
  else
    return mqttSuccess

/-- `pmPing(cID)`. -/
def pmPing (cID : Bytes) : M Int := do
  if (← getSn).pmPingRespOutstanding then
    return mqttFailure
  else
    let timer ← startTimer 1000
    let len ← serialize (.pingreq (cString cID))
    if 0 < len then
      let (rc, _) ← sendPacket len timer
      onlyIf (rc = mqttSuccess) <| modifySn fun sn => { sn with pmPingRespOutstanding := true }
      return rc
    else
      return mqttFailure

end Client

end LibNbiot
