/-
# The session machine

An abstract machine for the library, over its core. Its elementary steps say
what the code can do at one moment and under which condition: send a packet it
has just prepared, hand a request to the loop controller, take a transition that
the current state offers for the event at hand, take a client from the queue,
and so on. Which of them follow one another, and how often, the machine does not
say; a law of the library is a property that no order of these steps can break.

Three stretches of the code pass through states in which such a law is suspended
until the stretch is over: handling an event up to the entry action of the state
it leads to, the DISCONNECT of the gateway with the transition it causes, and
the end of a disconnect loop with the closing of the socket. They are steps of
their own, each with what holds at its end.
-/

import LibNbiot.Session.Core

namespace LibNbiot

open Logic.Program Relation

/-! ## What the log tells -/

/-- The handler that is running, with the value it was called with. -/
def running : Log → Option (ClientId × LoopPhase × Int)
  | [] => none
  | e :: t =>
      match e.event with
      | .called c phase v => some (c, phase, v)
      | .answered _ _ _ _ => none
      | _ => running t

/-- While another handler is running no stop handler is. -/
theorem not_running_stop {t : Log} {c : ClientId} {phase : LoopPhase} {v : Int}
    (hrun : running t = some (c, phase, v)) (hphase : phase ≠ .stop) (d : ClientId) (v' : Int) :
    running t ≠ some (d, .stop, v') := by
  rw [hrun]
  rintro ⟨⟩
  exact hphase rfl

/-- The packet that was read in the running step, or in the step just ended. -/
def lastReceived : Log → Option Bytes
  | [] => none
  | e :: t =>
      match e.event with
      | .app (.received p) => some p
      | .app .receiveFailed => none
      | .called _ .stop _ => lastReceived t
      | .called _ _ _ => none
      | _ => lastReceived t

/-- Has a transition been taken since the loop controller last did anything? -/
def firing : Log → Bool
  | [] => false
  | e :: t =>
      match e.event with
      | .app (.fired _ _) => true
      | .app _ | .registered _ => firing t
      | _ => false

/-- What the dispatcher last saw of the state timer, when no handler has been
called or has returned since. -/
def dispatching : Log → Option (Option Nat)
  | [] => none
  | e :: t =>
      match e.event with
      | .app (.dispatched left) => some left
      | .app _ | .registered _ => dispatching t
      | _ => none

/-- The duration that the public call in progress has set. -/
def setInCall : Log → Option Nat
  | [] => none
  | e :: t =>
      match e.event with
      | .app (.setDuration d) => some d
      | .app (.api _) => none
      | _ => setInCall t

/-- Is the entry action of a state running, with nothing yet that a transition,
a call or the loop controller has done? -/
def entering : Log → Bool
  | [] => false
  | e :: t =>
      match e.event with
      | .app (.entered _) => true
      | .app (.fired _ _) | .app (.dispatched _) | .app (.api _) | .app (.setDuration _) => false
      | .app _ | .registered _ => entering t
      | _ => false

/-- The end of the publish loop, while the library follows up on it. -/
def endedPublish : Log → Option (Bool × Int)
  | [] => none
  | e :: t =>
      match e.event with
      | .app _ | .registered _ => endedPublish t
      | .answered .pub .stop answer v => some (answer, v)
      | _ => none

/-- Closing the socket has failed at some time. -/
def closeFailed : Log → Bool
  | [] => false
  | e :: t =>
      match e.event with
      | .app (.socketClosed false) => true
      | _ => closeFailed t

/-! ## Conditions of the steps -/

/-- The clients whose packet is serialized when the request is queued. -/
def ClientId.isRequest : ClientId → Bool
  | .con | .reg | .unsub | .dis => true
  | .attach | .pub | .sub | .yield => false

/-- The acknowledgement a client waits for. -/
def ClientId.awaited : ClientId → Option MsgType
  | .con => some .connack
  | .pub => some .puback
  | .reg => some .regack
  | .sub => some .suback
  | .unsub => some .unsuback
  | .dis => some .disconnect
  | .attach | .yield => none

/-- The events that are posted, as against those pushed by a public call. -/
def StmEvent.postable : StmEvent → Bool
  | .initializeEvent | .reInitializeEvent | .errorDisconnectEvent | .connectedEvent
  | .attachedEvent | .disconnectEvent => true
  | _ => false

/-- The timer event comes from a state timer that has run out, the events of
sleep and hibernate from the call that has set the duration. -/
def Allowed (e : StmEvent) (t : Log) : Prop :=
  (e = .timer → dispatching t = some (some 0)) ∧
    (e = .sleepEvent ∨ e = .hibernateEvent → (setInCall t).isSome)

/-- The registry with which the Connected state goes on. -/
def NbiotTopicRegistry.opened (r : NbiotTopicRegistry) (cleanSession : Nat)
    (hasSubscription : Bool) : NbiotTopicRegistry :=
  if !hasSubscription && r.hasAnyTopic .both && cleanSession ≠ 0 then r.clearRegistry else r

/-- Entries that come at any time. -/
def SysEvent.plain : SysEvent → Bool
  | .sessionOpened cleanSession hasSubscription before after =>
      after = before.opened cleanSession hasSubscription
  | .topicNamed _ | .delivered _ _ _ | .handlerInstalled _ _ _ _ => true
  | .rebooted _ | .modemInitialized _ | .modemSwitchedOff | .nullDeref => true
  | .notified n => n.action ≠ .publish
  | _ => false

/-- A packet of the given type was read and is still in the buffer. -/
def HasRead (type : MsgType) (k : Core) : Prop :=
  (lastReceived k.trace).isSome ∧ packetType k.readbuf = type.code.toNat

/-- How the library may report a publish with a return code: while the PUBACK that
carries it is served, or at the end of the loop with the value that it has left. -/
def Reportable (returnCode : Nat) (k : Core) : Prop :=
  ((running k.trace).isSome ∧ HasRead .puback k ∧
      returnCode = (deserializePuback k.readbuf).2.returnCode) ∨
    ∃ answer v, endedPublish k.trace = some (answer, v) ∧
      returnCode = if answer then rcAccepted else toUChar v

/-- A publish is reported as a success only with an accepting return code. -/
def PublishNotified (k : Core) (n : Notification) : Prop :=
  (n.errorNumber = .success → n.returnCode = rcAccepted) ∧ Reportable n.returnCode k

/-- What is written is what was serialized last, or at the start of a request
loop as many bytes of the send buffer as the client's value says. -/
def Writable (k : Core) (b : Bytes) : Prop :=
  match k.trace with
  | ⟨.app (.serialized _ b'), _⟩ :: _ => b = b'
  | ⟨.called c .start len, _⟩ :: _ => c.isRequest = true ∧ b = k.sendbuf.take len.toNat
  | ⟨.app (.restored _), _⟩ :: _ => True
  | _ => False

/-- A DISCONNECT is built in an open session, on entering the Disconnected state
or, in another state, by the call that has set the duration. -/
def MayDisconnect (k : Core) : Prop :=
  k.isconnected = true ∧
    if k.state = some .disconnected then entering k.trace = true
    else (setInCall k.trace).isSome = true

/-- The packets that are serialized outside of a transmission. A CONNECT carries the
keep-alive interval of the data pool, cut to the width of its field, and a DISCONNECT
the duration. -/
def Sendable (k : Core) : Packet → Prop
  | .connect _ duration _ => duration = toUShort k.keepAlive
  | .disconnect d => d = (if k.duration = 0 then none else some k.duration) ∧ MayDisconnect k
  | .publish _ _ _ _ _ _ | .subscribe _ _ _ _ => False
  | _ => True

/-- A publish or subscribe packet of a client, with its DUP flag and message
id. -/
def TransmissionOf (dup id : Nat) : ClientId → Packet → Prop
  | .pub, .publish dup' _ _ id' _ _ => dup' = dup ∧ id' = id
  | .sub, .subscribe dup' _ id' _ => dup' = dup ∧ id' = id
  | _, _ => False

/-! ## Acts: what the code does at any time -/

inductive Act : Core → Core → Prop
  /-- A current state is missed only where there is none. -/
  | note {k : Core} (e : SysEvent) (h : e.plain = true)
      (hstate : e = .nullDeref → k.state = none) : Act k (k.emit e)
  | notifyPublish {k : Core} (n : Notification) (h : PublishNotified k n) :
      Act k (k.emit (.notified n))
  | serialize {k : Core} (p : Packet) (b : Bytes) (hp : Sendable k p)
      (hb : p.serialize = some b) : Act k (k.serialize p b)
  | write {k : Core} (b : Bytes) (ok : Bool) (h : Writable k b) : Act k (k.emit (.wrote b ok))
  /-- The packet that was just serialized is left to a client, by its length. -/
  | enqueue {k : Core} (c : ClientId) (p : Packet) (b : Bytes) (v : View) (t : Log)
      (hc : c.isRequest = true) (hlog : k.trace = ⟨.app (.serialized p b), v⟩ :: t)
      (hbuf : k.sendbuf.take b.length = b) : Act k ((k.setValue c b.length).register c)
  | yield {k : Core} (v : Int) : Act k ((k.setValue .yield v).register .yield)
  | attach {k : Core} : Act k (k.register .attach)
  | post {k : Core} (e : StmEvent) (h : e.postable = true) : Act k (k.post e)
  | setBreak {k : Core} : Act k { k with loop := { k.loop with breakFlag := true } }

/-! ## Moves of the state machine -/

inductive Move : Core → Core → Prop
  | fire {k : Core} (st : StateId) (t : Transition) (e : StmEvent) (hst : k.state = some st)
      (ht : st.transitionFor e = some t) (he : Allowed e k.trace) : Move k (k.emit (.fired t e))
  /-- The transition that a choice goes on with. -/
  | follow {k : Core} (t : Transition) (e : StmEvent) (h : firing k.trace = true) :
      Move k (k.emit (.fired t e))
  | enter {k : Core} (st : StateId) (h : firing k.trace = true) : Move k (k.enter st)

/-- The socket is opened and closed by actions of the state machine. -/
inductive Plug : Core → Core → Prop
  | openSocket {k : Core} (ok socket : Bool)
      (h : k.state = some .disconnected ∨ k.state = some .waitForAttach) :
      Plug k ({ k with socket := socket }.emit (.socketOpened ok))
  | closeSocket {k : Core} (ok : Bool)
      (h : k.state = some .disconnected ∨ k.state = some .deepSleep) :
      Plug k ({ k with socket := k.socket && !ok }.emit (.socketClosed ok))

/-- What an action of the state machine does. -/
inductive Action : Core → Core → Prop
  | act {k k' : Core} (h : Act k k') : Action k k'
  | plug {k k' : Core} (h : Plug k k') : Action k k'

/-- What happens while an event is handled. -/
inductive Handling : Core → Core → Prop
  | action {k k' : Core} (h : Action k k') : Handling k k'
  | move {k k' : Core} (h : Move k k') : Handling k k'

/-- The session and the socket are closed, or as far as the network allows. -/
def Core.Closed (k : Core) : Prop :=
  k.isconnected = false ∧ (k.socket = false ∨ closeFailed k.trace = true)

/-- One event handled, up to the end of the entry action. -/
structure Handled (k k' : Core) : Prop where
  run : ReflTransGen Handling k k'
  disconnected : k'.state = some .disconnected → .dis ∈ k'.loop.clientList ∨ k'.Closed

/-- The bookkeeping of the dispatcher. -/
inductive Ready : Core → Core → Prop
  | look {k : Core} (left : Option Nat) : Ready k (k.emit (.dispatched left))
  | queue {k : Core} (es : List StmEvent) : Ready k { k with events := es }
  | swap {k : Core} : Ready k { k with events := k.events ++ k.pendingEvents, pendingEvents := [] }

inductive Dispatching : Core → Core → Prop
  | handled {k k' : Core} (h : Handled k k') : Dispatching k k'
  | ready {k k' : Core} (h : Ready k k') : Dispatching k k'

/-- A whole `dispatch`: only posted events are left. -/
structure Dispatched (k k' : Core) : Prop where
  run : ReflTransGen Dispatching k k'
  events : ∀ e ∈ k'.events, e.postable = true

/-! ## Serving a packet -/

inductive Serving : Core → Core → Prop
  | act {k k' : Core} (h : Act k k') : Serving k k'
  | dispatch {k k' : Core} (h : Dispatched k k') : Serving k k'

/-- The gateway has ended the session, and the state machine has followed. -/
structure Gone (k k' : Core) : Prop where
  run : ReflTransGen Serving { k with isconnected := false } k'
  left : k'.state ≠ some .connected

inductive Serve : Core → Core → Prop
  | serving {k k' : Core} (h : Serving k k') : Serve k k'
  | gone {k k' : Core} (h : Gone k k') : Serve k k'

/-! ## The hands of the loop clients -/

/-- The retry counter of a client. -/
def Core.retryCount (k : Core) (c : ClientId) : Nat :=
  if c = .sub then k.subRetryCount else k.pubRetryCount

/-- A retry was counted. -/
def Core.retry (k : Core) (c : ClientId) : Core :=
  if c = .sub then { k with subRetryCount := k.subRetryCount - 1 }
  else { k with pubRetryCount := k.pubRetryCount - 1 }

/-- A publish or subscribe was serialized for sending. -/
def Core.prepare (k : Core) (c : ClientId) (p : Packet) (b : Bytes) (id : Nat) : Core :=
  { k.serialize p b with inflightMsgid := if c = .pub then id else k.inflightMsgid }

inductive Hand : Core → Core → Prop
  | store {k : Core} (c : ClientId) (phase : LoopPhase) (v v' : Int)
      (h : running k.trace = some (c, phase, v)) : Hand k (k.setValue c v')
  /-- The first transmission is the first thing that a start handler does. -/
  | transmit {k : Core} (c : ClientId) (v : Int) (p : Packet) (b : Bytes) (w : View) (t : Log)
      (hlog : k.trace = ⟨.called c .start v, w⟩ :: t) (hp : TransmissionOf 0 (toUShort v) c p)
      (hb : p.serialize = some b) : Hand k (k.prepare c p b (toUShort v))
  /-- A retry is the first thing that a step handler counts. -/
  | countRetry {k : Core} (c : ClientId) (v : Int) (w : View) (t : Log) (hc : c = .pub ∨ c = .sub)
      (hlog : k.trace = ⟨.called c .step v, w⟩ :: t) (hleft : 0 < k.retryCount c) :
      Hand k ((k.retry c).emit (.retried c))
  /-- A retransmission is counted before, even when it does not fit the buffer. -/
  | retransmit {k : Core} (c : ClientId) (v : Int) (p : Packet) (b : Bytes) (w : View) (t : Log)
      (h : running k.trace = some (c, .step, v)) (hlog : k.trace = ⟨.app (.retried c), w⟩ :: t)
      (hp : TransmissionOf 1 (toUShort v) c p) (hb : p.serialize = some b) :
      Hand k (k.prepare c p b (toUShort v))
  | restore {k : Core} (buf : Bytes) :
      Hand k ({ k with sendbuf := overwrite k.sendbuf 0 buf }.emit (.restored buf))
  | read {k : Core} (buf : Bytes) (h : lastReceived k.trace = none) : Hand k { k with readbuf := buf }
  /-- A packet that was read is as long as its length field says, and the only one in
  its step. -/
  | receive {k : Core} (c : ClientId) (v : Int) (h : running k.trace = some (c, .step, v))
      (hlen : (packetDecode k.readbuf).2 ≤ maxPacketSize) (hfirst : lastReceived k.trace = none) :
      Hand k (k.emit (.received (k.readbuf.take (packetDecode k.readbuf).2)))
  | receiveFailed {k : Core} (c : ClientId) (v : Int) (h : running k.trace = some (c, .step, v))
      (hfirst : lastReceived k.trace = none) : Hand k (k.emit .receiveFailed)

/-- What a handler of a loop client does. -/
inductive Handler : Core → Core → Prop
  | serve {k k' : Core} (h : Serve k k') : Handler k k'
  | hand {k k' : Core} (h : Hand k k') : Handler k k'

/-! ## What the handlers answer -/

/-- A publish or subscribe packet of a client was serialized last. -/
def IsTransmitting (dup : Nat) (c : ClientId) (t : Log) : Prop :=
  ∃ p b v t' id, t = ⟨.app (.serialized p b), v⟩ :: t' ∧ TransmissionOf dup id c p

/-- Such a packet was just written. -/
def HasTransmitted (dup : Nat) (c : ClientId) (k : Core) : Prop :=
  ∃ b ok v t, k.trace = ⟨.app (.wrote b ok), v⟩ :: t ∧ IsTransmitting dup c t

/-- A step handler that is done has used up its time or read what it waits for. -/
def StepDone (c : ClientId) (k : Core) : Prop :=
  match c.awaited with
  | some type =>
      k.value c = 0 ∨ (c = .pub ∧ k.qos = .qos0) ∨ HasRead type k
  | none => True

/-- A DISCONNECT of the gateway that was read has ended the session. -/
def Core.Heeded (k : Core) : Prop :=
  HasRead .disconnect k → deserializeDisconnect k.readbuf = 1 → k.isconnected = false

/-- The end of a publish loop, called with the value `v`. -/
inductive PublishEnd (v : Int) (k : Core) : Bool → Core → Prop
  | qos0 (h : k.qos = .qos0) : PublishEnd v k true k
  | timeout (h : v = 0) : PublishEnd v k false k
  | malformed (hv : v ≠ 0) (h : (deserializePuback k.readbuf).1 ≠ 1) :
      PublishEnd v k false (k.setValue .pub 0)
  | accepted (hv : v ≠ 0) (h : (deserializePuback k.readbuf).1 = 1)
      (hid : (deserializePuback k.readbuf).2.msgId = k.inflightMsgid)
      (hrc : (deserializePuback k.readbuf).2.returnCode = 0) :
      PublishEnd v k true { k.setValue .pub 0 with inflightMsgid := 0 }
  | rejected (hv : v ≠ 0) (h : (deserializePuback k.readbuf).1 = 1)
      (hid : (deserializePuback k.readbuf).2.msgId = k.inflightMsgid)
      (hrc : (deserializePuback k.readbuf).2.returnCode ≠ 0) :
      PublishEnd v k false
        { k.setValue .pub (deserializePuback k.readbuf).2.returnCode with inflightMsgid := 0 }
  /-- A foreign message id changes nothing but the value. -/
  | foreign (hv : v ≠ 0) (h : (deserializePuback k.readbuf).1 = 1)
      (hid : (deserializePuback k.readbuf).2.msgId ≠ k.inflightMsgid) :
      PublishEnd v k true (k.setValue .pub 0)

/-- The last thing a handler does: its answer, and what it changes with it. -/
inductive Answer (k : Core) : ClientId → LoopPhase → Int → Bool → Core → Prop
  | start (c : ClientId) (v : Int) (a : Bool)
      (h : a = true → c = .pub ∨ c = .sub → HasTransmitted 0 c k) : Answer k c .start v a k
  | goOn (c : ClientId) (v : Int) (h : k.Heeded) : Answer k c .step v true k
  | done (c : ClientId) (v : Int) (h : StepDone c k) (hheeded : k.Heeded) :
      Answer k c .step v false k
  | attach (v : Int) (a : Bool) : Answer k .attach .stop v a k
  | yield (v : Int) (a : Bool) : Answer k .yield .stop v a k
  | connected (v : Int) (hv : v ≠ 0) (h : deserializeConnack k.readbuf 255 = (1, 0)) :
      Answer k .con .stop v true { k with isconnected := true }
  | notConnected (v : Int) : Answer k .con .stop v false k
  | registered (v : Int) (a : Bool)
      (h : a = true → v ≠ 0 ∧ (deserializeRegack k.readbuf).2.returnCode = rcAccepted) :
      Answer k .reg .stop v a k
  | subscribed (v : Int) (a : Bool)
      (h : a = true → v ≠ 0 ∧ (deserializeSuback k.readbuf).2.returnCode = rcAccepted) :
      Answer k .sub .stop v a k
  | unsubscribed (v : Int) (a : Bool) (h : a = true → v ≠ 0) : Answer k .unsub .stop v a k
  | published (v : Int) (a : Bool) (k' : Core) (h : PublishEnd v k a k') :
      Answer k .pub .stop v a k'
  | disconnected (v : Int) : Answer k .dis .stop v true { k with isconnected := false }

/-! ## Turns of the loop controller -/

/-- The last thing that happened is that a handler of the client answered. -/
def Answered (c : ClientId) (phase : LoopPhase) (a : Bool) (k : Core) : Prop :=
  ∃ v w t, k.trace = ⟨.answered c phase a v, w⟩ :: t

/-- What the controller records after a handler has answered: only a client that
goes on is pending, only one that has ended or was never started is let go. -/
inductive Wrap (c : ClientId) (phase : LoopPhase) (a : Bool) (k : Core) : Core → Prop
  | result (r : NbiotResult) (h : r = .pending ↔ a = true ∧ phase ≠ .stop) :
      Wrap c phase a k (k.setResult c r)
  | value : Wrap c phase a k { k with loop := { k.loop with loopValue := k.value c } }
  | letGo (id : NbiotLoopId) (hactive : k.loop.loopClient = some c)
      (h : phase = .stop ∨ (phase = .start ∧ a = false)) :
      Wrap c phase a k { k with loop := { k.loop with loopClient := none, loopId := id } }

inductive Turn : Core → Core → Prop
  | clear {k : Core} (h : running k.trace = none) : Turn k k.clear
  | resetBreak {k : Core} : Turn k { k with loop := { k.loop with breakFlag := false } }
  | take {k : Core} (c : ClientId) (queue : List ClientId) (h : running k.trace = none)
      (hactive : k.loop.loopClient = none) (hqueue : k.loop.clientList = c :: queue) :
      Turn k (k.take c queue)
  | callStart {k : Core} (c : ClientId) (r : NbiotResult) (v : View) (t : Log)
      (hactive : k.loop.loopClient = some c) (hlog : k.trace = ⟨.taken c r, v⟩ :: t)
      (hr : r ≠ .pending) (h : running k.trace = none) :
      Turn k (k.log (.called c .start (k.value c)))
  | callStep {k : Core} (c : ClientId) (h : running k.trace = none)
      (hactive : k.loop.loopClient = some c) (hr : k.result c = .pending) :
      Turn k (k.log (.called c .step (k.value c)))
  | callStop {k : Core} (c : ClientId) (v : View) (t : Log)
      (hactive : k.loop.loopClient = some c)
      (hlog : k.trace = ⟨.answered c .step false (k.value c), v⟩ :: t) :
      Turn k (k.log (.called c .stop (k.value c)))
  | answer {k k' : Core} (c : ClientId) (phase : LoopPhase) (v : Int) (a : Bool)
      (h : running k.trace = some (c, phase, v)) (hactive : k.loop.loopClient = some c)
      (hdis : c = .dis → phase ≠ .stop) (ha : Answer k c phase v a k') :
      Turn k (k'.log (.answered c phase a (k'.value c)))
  | wrap {k k' : Core} (c : ClientId) (phase : LoopPhase) (a : Bool)
      (hanswered : Answered c phase a k) (hdis : c = .dis → phase ≠ .stop)
      (h : Wrap c phase a k k') : Turn k k'
  | idle {k : Core} (hactive : k.loop.loopClient = none) :
      Turn k { k with loop := { k.loop with loopValue := 0, loopId := .unknown } }

/-- The steps at the end of a disconnect loop. -/
inductive Ending : Core → Core → Prop
  | answer {k : Core} (v : Int) (h : running k.trace = some (.dis, .stop, v))
      (hactive : k.loop.loopClient = some .dis) :
      Ending k ({ k with isconnected := false }.log (.answered .dis .stop true (k.value .dis)))
  | wrap {k k' : Core} (hanswered : Answered .dis .stop true k)
      (h : Wrap .dis .stop true k k') : Ending k k'
  | closeSocket {k : Core} (ok : Bool) (v : Int) (w : View) (t : Log)
      (hlog : k.trace = ⟨.answered .dis .stop true v, w⟩ :: t) (hstate : w.state = k.state) :
      Ending k ({ k with socket := k.socket && !ok }.emit (.socketClosed ok))
  | setBreak {k : Core} : Ending k { k with loop := { k.loop with breakFlag := true } }

/-- The end of a disconnect loop, up to the closing of the socket. -/
structure Ended (k k' : Core) : Prop where
  run : ReflTransGen Ending k k'
  closed : k'.Closed

/-! ## The public calls -/

inductive Call : Core → Core → Prop
  | api {k : Core} (call : ApiCall) : Call k (k.emit (.api call))
  | setDuration {k : Core} (d : Nat) :
      Call k ({ k with duration := d }.emit (.setDuration d))
  | publish {k : Core} (id : Nat) (q : QoS) (hactive : k.loop.loopClient = none)
      (hqueue : .pub ∉ k.loop.clientList) : Call k (k.queuePublish id q)
  | subscribe {k : Core} (id : Nat) (q : QoS) (hactive : k.loop.loopClient = none)
      (hqueue : .pub ∉ k.loop.clientList) (hsub : .sub ∉ k.loop.clientList) :
      Call k (k.queueSubscribe id q)
  | boot {k : Core} (h : k.state = none) : Call k (k.enter .initial)

/-! ## The session -/

/-- The steps of the session. -/
inductive Step : Core → Core → Prop
  | handler {k k' : Core} (h : Handler k k') : Step k k'
  | turn {k k' : Core} (h : Turn k k') : Step k k'
  | ended {k k' : Core} (h : Ended k k') : Step k k'
  | call {k k' : Core} (h : Call k k') : Step k k'

/-- The elementary steps of the state machine and of serving a packet. -/
inductive Quiet : Core → Core → Prop
  | act {k k' : Core} (h : Act k k') : Quiet k k'
  | plug {k k' : Core} (h : Plug k k') : Quiet k k'
  | move {k k' : Core} (h : Move k k') : Quiet k k'
  | ready {k k' : Core} (h : Ready k k') : Quiet k k'

/-- The elementary steps of the session. -/
inductive Basic : Core → Core → Prop
  | act {k k' : Core} (h : Act k k') : Basic k k'
  | plug {k k' : Core} (h : Plug k k') : Basic k k'
  | move {k k' : Core} (h : Move k k') : Basic k k'
  | ready {k k' : Core} (h : Ready k k') : Basic k k'
  | lost {k : Core} : Basic k { k with isconnected := false }
  | hand {k k' : Core} (h : Hand k k') : Basic k k'
  | turn {k k' : Core} (h : Turn k k') : Basic k k'
  | ending {k k' : Core} (h : Ending k k') : Basic k k'
  | call {k k' : Core} (h : Call k k') : Basic k k'

end LibNbiot
