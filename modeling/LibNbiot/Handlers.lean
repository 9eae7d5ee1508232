/-
# The handlers of the loop clients

Start, step and stop handlers of the eight loop clients. The step handlers of
the MQTT-SN requests are one pattern: store the remaining time in the client's
value, wait for the acknowledgement of their kind, and be done when it came or
when no time is left. Publish and subscribe also retransmit, and the message id
of a retransmission is taken from the value that the step before stored the
remaining time in.
-/

import LibNbiot.Cycle

namespace LibNbiot

open Logic.Program

/-- Start the timer of a loop client. -/
def startClientTimer (c : ClientId) (duration : Nat) : M Unit := do
  let t ← startTimer duration
  modifyClient c fun cl => { cl with timer := t }

/-- `getTimer().remaining()` of a loop client. -/
def clientRemaining (c : ClientId) : M Nat := do
  remaining ((← get).client c).timer

/-- `(loopInterval < loopTime) ? loopInterval : loopTime`. -/
def waitInterval (loopTime : Int) : Int := if loopInterval < loopTime then loopInterval else loopTime

/-- Store the remaining time of a client in its value and wait for a packet. -/
def storeAndWait (c : ClientId) (breakValue : MsgType) : M Bool := do
  let loopTime := toCInt (← clientRemaining c)
  setValue c loopTime
  loopWait breakValue.code.toNat (waitInterval loopTime)

/-! ## Requests serialized when they are queued -/

/-- Send the packet of the given length and start the client's timer. -/
def startRequest (c : ClientId) : M Bool := do
  let len ← getValue c
  let timer ← startTimer ((← get).client c).timer.getTime
  let (rc, timer) ← sendPacket len timer
  if rc = mqttSuccess then
    startClientTimer c (← remaining timer)
    return true
  else
    return false

/-- `startConLoop`: unlike its siblings it also renews the keep-alive. -/
def startConLoop : M Bool := do
  let len ← getValue .con
  let timer ← startTimer ((← get).client .con).timer.getTime
  let (rc, timer) ← sendPacket len timer
  if rc = mqttSuccess then
    renewLastReceived
    startClientTimer .con (← remaining timer)
    return true
  else
    return false

def doConLoop : M Bool := storeAndWait .con .connack

/-- The accepted CONNACK that `finishConLoop` looks for. -/
def connackAccepted : M Bool := do
  let (rc, connackRc) := deserializeConnack (← getSn).readbuf 255
  return rc = 1 ∧ connackRc = 0

/-- Copy the publish buffer over the send buffer. -/
def restorePubbuf : M Unit := do
  let pubbuf := (← getSn).pubbuf.take maxPacketSize
  modifySn fun sn => { sn with sendbuf := overwrite sn.sendbuf 0 pubbuf }
  logApp (.restored pubbuf)

/-- The outstanding publish is put back into the send buffer on a reconnect
without a clean session, but only a publish with QoS 0 is sent from here. -/
def republishInflight : M Bool := do
  if !(← getSn).cleansession ∧ 0 < (← getSn).inflightMsgid then
    restorePubbuf
    let timer ← startTimer (toULong (← getValue .con))
    let sn ← getSn
    return (← Client.republish sn.inflightLen timer sn.inflightQoS) = mqttSuccess
  else
    return true

/-- `finishConLoop`. -/
def finishConLoop : M Bool := do
  let ret ← (if (← getValue .con) = 0 then pure false else connackAccepted)
  let sent ← republishInflight
  if ret ∧ sent then
    modifySn fun sn => { sn with isconnected := true, pmPingRespOutstanding := false }
    return true
  else
    return false

def startRegLoop : M Bool := startRequest .reg

def doRegLoop : M Bool := storeAndWait .reg .regack

/-- `finishRegLoop`: the message id of the REGACK is not looked at. -/
def finishRegLoop : M Bool := do
  if (← getValue .reg) = 0 then
    return false
  else
    let (rc, ack) := deserializeRegack (← getSn).readbuf
    if 0 < rc ∧ ack.returnCode = rcAccepted then
      modifyPool fun pool => { pool with topicid := { pool.topicid with id := ack.topicId } }
      return true
    else
      return false

def startUnsubLoop : M Bool := startRequest .unsub

def doUnsubLoop : M Bool := storeAndWait .unsub .unsuback

/-- `finishUnsubLoop`: the message id of the UNSUBACK is not looked at. -/
def finishUnsubLoop : M Bool := do
  if (← getValue .unsub) = 0 then
    return false
  else
    return (deserializeUnsuback (← getSn).readbuf).1 = 1

def startDisLoop : M Bool := startRequest .dis

def doDisLoop : M Bool := storeAndWait .dis .disconnect

/-- `finishDisLoop`: a timeout counts as well as an answer. -/
def finishDisLoop : M Bool := do
  modifySn fun sn => { sn with isconnected := false, pmPingRespOutstanding := false }
  return true

/-! ## Requests serialized when their loop starts -/

/-- Send a packet that was just serialized, if it fits the buffer. -/
def sendSerialized (len : Nat) (timeout : Nat) : M Bool := do
  if 0 < len then
    let timer ← startTimer timeout
    let (rc, _) ← sendPacket len timer
    return rc = mqttSuccess
  else
    return false

/-- Serialize the subscribe that is being served. -/
def serializeSub (packetId : Int) (dup : Nat) : M Nat := do
  serialize (.subscribe dup (← getSn).qos.toNat (toUShort packetId) (← getPool).topicid)

/-- `sendSubPacket(packetId, dup, timeout)`. -/
def sendSubPacket (packetId : Int) (dup : Nat) (timeout : Nat) : M Bool := do
  sendSerialized (← serializeSub packetId dup) timeout

/-- Serialize the publish that is being served, and keep a copy of it. -/
def serializePub (packetId : Int) (dup : Nat) : M Nat := do
  let sn ← getSn
  let id := toUShort packetId
  let len ← serialize
    (.publish dup sn.qos.toNat sn.retained id (← getPool).topicid sn.payload)
  onlyIf (0 < len) <|
    modifySn fun sn =>
      { sn with
        pubbuf := overwrite sn.pubbuf 0 (sn.sendbuf.take len)
        inflightLen := len
        inflightMsgid := id
        inflightQoS := sn.qos }
  return len

/-- `sendPubPacket(packetId, dup, timeout)`. -/
def sendPubPacket (packetId : Int) (dup : Nat) (timeout : Nat) : M Bool := do
  sendSerialized (← serializePub packetId dup) timeout

/-- The common form of `startSubLoop` and `startPubLoop`. -/
def startWith (c : ClientId) (send : Int → Nat → Nat → M Bool) : M Bool := do
  let timer ← startTimer ((← get).client c).timer.getTime
  let packetId ← getValue c
  if ← send packetId 0 (← remaining timer) then
    startClientTimer c (← remaining timer)
    return true
  else
    return false

def startSubLoop : M Bool := startWith .sub sendSubPacket

def startPubLoop : M Bool := startWith .pub sendPubPacket

/-- Retransmit with the message id taken from the client's value, and restart
the client's timer when that worked. -/
def retransmit (c : ClientId) (send : Int → Nat → Nat → M Bool) (timeout : Nat) : M Unit := do
  let packetId ← getValue c
  let timer ← startTimer timeout
  if ← send packetId 1 (← remaining timer) then
    startClientTimer c (← remaining timer)

def countSubRetry : M Unit := do
  modifySn fun sn => { sn with subRetryCount := sn.subRetryCount - 1 }
  logApp (.retried .sub)

/-- Retransmit a subscribe whose time is up. -/
def retrySub : M Unit := do
  let left ← clientRemaining .sub
  if left = 0 ∧ 0 < (← getSn).subRetryCount then
    countSubRetry
    retransmit .sub sendSubPacket (← getSn).subRetryTimeout

def doSubLoop : M Bool := do
  retrySub
  storeAndWait .sub .suback

/-- `finishSubLoop`: the id of the SUBACK is stored whatever its return code
and message id. The default message handler is always attached. -/
def finishSubLoop : M Bool := do
  if (← getValue .sub) = 0 then
    return false
  else
    let (rc, ack) := deserializeSuback (← getSn).readbuf
    if rc = 1 then
      modifyPool fun pool => { pool with topicid := { pool.topicid with id := ack.topicId } }
      return ack.returnCode = rcAccepted
    else
      return false

def countPubRetry : M Unit := do
  modifySn fun sn => { sn with pubRetryCount := sn.pubRetryCount - 1 }
  logApp (.retried .pub)

/-- Retransmit a publish whose time is up. -/
def retryPub : M Unit := do
  let left ← clientRemaining .pub
  if left = 0 ∧ 0 < (← getSn).pubRetryCount then
    countPubRetry
    retransmit .pub sendPubPacket (← getSn).pubRetryTimeout

def doPubLoop : M Bool := do
  if (← getSn).qos = .qos0 then
    return false
  else
    retryPub
    storeAndWait .pub .puback

/-- The PUBACK of the outstanding publish: the value tells how it was answered. -/
def finishInflight (returnCode : Nat) : M Bool := do
  modifySn fun sn => { sn with inflightMsgid := 0 }
  if returnCode ≠ 0 then
    setValue .pub returnCode
    return false
  else
    return true

/-- `finishPubLoop`: a PUBACK with a foreign message id changes nothing but the
value. -/
def finishPubLoop : M Bool := do
  if (← getSn).qos = .qos0 then
    return true
  else if (← getValue .pub) = 0 then
    return false
  else
    let (rc, ack) := deserializePuback (← getSn).readbuf
    setValue .pub mqttSuccess
    if rc ≠ 1 then
      return false
    else if (← getSn).inflightMsgid = ack.msgId then
      finishInflight ack.returnCode
    else
      return true

/-! ## Yielding and attaching -/

def startYieldLoop : M Bool := do
  startClientTimer .yield (toULong (← getValue .yield))
  modifySn fun sn => { sn with yieldRunning := true }
  return true

/-- `doYieldLoop`: no result of `cycle` is `FAILURE`, so that every packet lets
the loop go on until its time is out. -/
def doYieldLoop : M Bool := do
  let loopTime := toCInt (← clientRemaining .yield)
  setValue .yield loopTime
  if (← getSn).yieldRunning then
    loopWait mqttFailure (waitInterval loopTime)
  else
    return false

def finishYieldLoop : M Bool := do
  let loopTime ← getValue .yield
  modifySn fun sn => { sn with yieldRunning := false }
  return loopTime = 0

def startAttachLoop : M Bool := do
  let timer ← startTimer ((← get).client .attach).timer.getTime
  if (← ask .attach).ok then
    startClientTimer .attach (← remaining timer)
    modifyPool fun pool => { pool with modemAttached := false }
    return true
  else
    return false

/-- The waiting loop of `doAttachLoop`: true when the modem is found attached.
A query takes at least a millisecond, so that the loop ends after as many turns
as the timer has milliseconds. -/
def pollAttached (timer : Timer) : Nat → M Bool
  | 0 => return false
  | fuel + 1 => do
      if (← remaining timer) = 0 then
        return false
      else if ← modemIsAttached then
        return true
      else
        pollAttached timer fuel

def doAttachLoop : M Bool := do
  let loopTime := toCInt (← clientRemaining .attach)
  setValue .attach loopTime
  let interval := waitInterval loopTime
  if interval = 0 then
    return false
  else
    let timer ← startTimer (toULong interval)
    if ← pollAttached timer (toULong interval + 1) then
      modifyPool fun pool => { pool with modemAttached := true }
      return false
    else
      return true

def finishAttachLoop : M Bool := do
  if (← getValue .attach) = 0 then
    return false
  else if ← modemIsAttached then
    postEvent .attachedEvent
    return true
  else
    modifyPool fun pool => { pool with modemAttached := false }
    return false

/-! ## The wiring -/

/-- The handlers, as the constructors attach them. -/
def handler : ClientId → LoopPhase → M Bool
  | .attach, .start => startAttachLoop
  | .attach, .step => doAttachLoop
  | .attach, .stop => finishAttachLoop
  | .con, .start => startConLoop
  | .con, .step => doConLoop
  | .con, .stop => finishConLoop
  | .pub, .start => startPubLoop
  | .pub, .step => doPubLoop
  | .pub, .stop => finishPubLoop
  | .reg, .start => startRegLoop
  | .reg, .step => doRegLoop
  | .reg, .stop => finishRegLoop
  | .sub, .start => startSubLoop
  | .sub, .step => doSubLoop
  | .sub, .stop => finishSubLoop
  | .unsub, .start => startUnsubLoop
  | .unsub, .step => doUnsubLoop
  | .unsub, .stop => finishUnsubLoop
  | .yield, .start => startYieldLoop
  | .yield, .step => doYieldLoop
  | .yield, .stop => finishYieldLoop
  | .dis, .start => startDisLoop
  | .dis, .step => doDisLoop
  | .dis, .stop => finishDisLoop

def wiring : LoopWiring ClientId Sys where
  loopId := ClientId.loopId
  handler c p := some (handler c p)

end LibNbiot
