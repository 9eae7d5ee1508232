/-
# The core of the library's state

The laws of the library are about a small part of its state: the loop controller
with the flags and values of its clients, the log, the state of the state
machine, the session and socket flags, the two shared buffers and the counters
of the outstanding requests. This module singles that part out and names the
changes that the library makes to it. Timers, the registry and the outside world
are not in it, so that whatever only touches those is silent.
-/

import LibNbiot.EventLoop
import LibNbiot.Logic.Machine

namespace LibNbiot

open Logic.Program

abbrev Log := List (Entry ClientId SysEvent View)

/-- What the laws are about. -/
structure Core where
  loop : NbiotLoop ClientId
  result : ClientId → NbiotResult
  value : ClientId → Int
  trace : Log
  state : Option StateId
  isconnected : Bool
  socket : Bool
  duration : Nat
  keepAlive : Nat
  qos : QoS
  sendbuf : Bytes
  readbuf : Bytes
  inflightMsgid : Nat
  pubRetryCount : Nat
  subRetryCount : Nat
  maxRetry : Nat
  events : List StmEvent
  pendingEvents : List StmEvent

/-- The core of a state of the library. -/
def core (s : Sys) : Core where
  loop := s.loop
  result c := (s.client c).result
  value c := (s.client c).loopCtrl
  trace := s.trace
  state := s.rest.stm.currentState
  isconnected := s.rest.sn.isconnected
  socket := s.rest.io.socket
  duration := s.rest.pool.duration
  keepAlive := s.rest.pool.keepAliveInterval
  qos := s.rest.sn.qos
  sendbuf := s.rest.sn.sendbuf
  readbuf := s.rest.sn.readbuf
  inflightMsgid := s.rest.sn.inflightMsgid
  pubRetryCount := s.rest.sn.pubRetryCount
  subRetryCount := s.rest.sn.subRetryCount
  maxRetry := s.rest.sn.maxRetry
  events := s.rest.stm.events
  pendingEvents := s.rest.stm.pendingEvents

/-! ## Changes of the core -/

namespace Core

def view (k : Core) : View where
  state := k.state
  isconnected := k.isconnected
  socket := k.socket
  duration := k.duration
  qos := k.qos
  queue := k.loop.clientList
  active := k.loop.loopClient

def log (k : Core) (e : LoopEvent ClientId SysEvent) : Core :=
  { k with trace := ⟨e, k.view⟩ :: k.trace }

def emit (k : Core) (e : SysEvent) : Core := k.log (.app e)

def setValue (k : Core) (c : ClientId) (v : Int) : Core :=
  { k with value := Function.update k.value c v }

def setResult (k : Core) (c : ClientId) (r : NbiotResult) : Core :=
  { k with result := Function.update k.result c r }

/-- A packet was serialized into the send buffer. -/
def serialize (k : Core) (p : Packet) (b : Bytes) : Core :=
  { k with sendbuf := overwrite k.sendbuf 0 b }.emit (.serialized p b)

/-- A client was appended to the queue. -/
def register (k : Core) (c : ClientId) : Core :=
  { k.log (.registered c) with
    loop := { k.loop with clientList := k.loop.clientList ++ [c] } }

def post (k : Core) (e : StmEvent) : Core :=
  { k.emit (.posted e) with pendingEvents := k.pendingEvents ++ [e] }

def enter (k : Core) (st : StateId) : Core := { k with state := some st }.emit (.entered st)

/-- A publish was handed to the loop controller. -/
def queuePublish (k : Core) (id : Nat) (q : QoS) : Core :=
  (({ k with qos := q, pubRetryCount := k.maxRetry }.setValue .pub id).emit
    (.publishQueued id q)).register .pub

/-- A subscribe was handed to the loop controller. -/
def queueSubscribe (k : Core) (id : Nat) (q : QoS) : Core :=
  (({ k with qos := q, subRetryCount := k.maxRetry }.setValue .sub id).emit
    (.subscribeQueued id)).register .sub

/-- The controller was cleared. -/
def clear (k : Core) : Core :=
  { k.log (.cleared k.loop.loopClient k.loop.clientList) with
    loop :=
      { k.loop with clientList := [], loopClient := none, loopValue := 0, loopId := .unknown } }

/-- The front client of the queue was taken. -/
def take (k : Core) (c : ClientId) (queue : List ClientId) : Core :=
  { k.log (.taken c (k.result c)) with
    loop :=
      { k.loop with clientList := queue, loopClient := some c, loopId := c.loopId } }

end Core

/-! ## The changes of the small operations -/

section Operations

variable (s : Sys)

@[simp]
theorem core_log (e : LoopEvent ClientId SysEvent) : core (log e s).2 = (core s).log e := rfl

@[simp]
theorem core_logApp (e : SysEvent) : core (logApp e s).2 = (core s).emit e := rfl

/-- What a change of one client shows of a field of all clients. -/
private theorem field_update {γ : Type} (g : LoopClient → γ) (f : ClientId → LoopClient)
    (c : ClientId) (cl : LoopClient) :
    (fun d => g (Function.update f c cl d)) = Function.update (fun d => g (f d)) c (g cl) :=
  (Function.comp_update g f c cl)

theorem core_modifyClient (c : ClientId) (f : LoopClient → LoopClient) :
    core (modifyClient c f s).2 =
      ((core s).setValue c (f (s.client c)).loopCtrl).setResult c (f (s.client c)).result := by
  simp [core, modifyClient, Core.setValue, Core.setResult, field_update]

@[simp]
theorem core_setValue (c : ClientId) (v : Int) :
    core (setValue c v s).2 = (core s).setValue c v := by
  simp [core, Core.setValue, field_update]

@[simp]
theorem core_setResult (c : ClientId) (r : NbiotResult) :
    core (setResult c r s).2 = (core s).setResult c r := by
  simp [core, Core.setResult, field_update]

theorem modifyClient_silent (c : ClientId) (f : LoopClient → LoopClient)
    (hvalue : ∀ cl, (f cl).loopCtrl = cl.loopCtrl) (hresult : ∀ cl, (f cl).result = cl.result) :
    Silent core (modifyClient c f) := by
  intro s
  rw [core_modifyClient, hvalue, hresult]
  have hv : (core s).setValue c (s.client c).loopCtrl = core s :=
    congrArg (fun v => { core s with value := v }) (Function.update_eq_self c (core s).value)
  rw [hv]
  exact congrArg (fun r => { core s with result := r }) (Function.update_eq_self c (core s).result)

end Operations

/-! ## Silent operations -/

section Silent

theorem get_silent : Silent core (get : M Sys) := fun _ => rfl

theorem modifyPool_silent {f : DataPool → DataPool}
    (h : ∀ pool, ((f pool).duration, (f pool).keepAliveInterval) =
      (pool.duration, pool.keepAliveInterval)) : Silent core (modifyPool f) := by
  intro s
  obtain ⟨hduration, hkeepAlive⟩ := Prod.ext_iff.1 (h s.rest.pool)
  dsimp only at hduration hkeepAlive
  simp [core, modifyPool, hduration, hkeepAlive]

theorem modifyRegistry_silent (f : NbiotTopicRegistry → NbiotTopicRegistry) :
    Silent core (modifyRegistry f) := fun _ => rfl

theorem modifyMqtt_silent (f : Mqtt → Mqtt) : Silent core (modifyMqtt f) := fun _ => rfl

theorem getPool_silent : Silent core getPool := fun _ => rfl

theorem getSn_silent : Silent core getSn := fun _ => rfl

theorem getStm_silent : Silent core getStm := fun _ => rfl

theorem getMqtt_silent : Silent core getMqtt := fun _ => rfl

theorem getRegistry_silent : Silent core getRegistry := fun _ => rfl

theorem ask_silent (d : Device) : Silent core (ask d) := fun _ => rfl

theorem getMillis_silent : Silent core getMillis := fun _ => rfl

theorem startTimer_silent (duration : Nat) : Silent core (startTimer duration) := fun _ => rfl

theorem remaining_silent (t : Timer) : Silent core (remaining t) := fun _ => rfl

theorem leftMs_silent (t : Timer) : Silent core (leftMs t) := fun _ => rfl

theorem setTime_silent (c : ClientId) (duration : Nat) : Silent core (setTime c duration) :=
  modifyClient_silent c _ (fun _ => rfl) fun _ => rfl

theorem startClientTimer_silent (c : ClientId) (duration : Nat) :
    Silent core (startClientTimer c duration) :=
  .bind (startTimer_silent _) fun _ => modifyClient_silent c _ (fun _ => rfl) fun _ => rfl

theorem clientRemaining_silent (c : ClientId) : Silent core (clientRemaining c) := fun _ => rfl

theorem setTimeout_silent (ms : Nat) : Silent core (setTimeout ms) := fun _ => rfl

theorem setErrno_silent (e : ErrorNumber) : Silent core (setErrno e) := fun _ => rfl

theorem getNext_silent : Silent core getNext := fun _ => rfl

theorem stopYield_silent : Silent core stopYield := fun _ => rfl

theorem modemIsAttached_silent : Silent core modemIsAttached := fun _ => rfl

theorem choice_silent (c : Choice) : Silent core c.condition := by
  cases c <;> exact fun _ => rfl

theorem restartAutoPoll_silent : Silent core restartAutoPoll := fun _ => rfl

theorem setLock_silent (lock : Bool) : Silent core (setLock lock) := fun _ => rfl

theorem networkIsConnected_silent : Silent core networkIsConnected := fun _ => rfl

theorem initCredentials_silent : Silent core initCredentials := by
  refine .bind getPool_silent fun pool => ?_
  extract_lets jp
  have hjp : ∀ y, Silent core (jp y) := fun _ =>
    .bind getPool_silent fun _ => .ite (.pure _) (.bind (modifyPool_silent fun _ => rfl) fun _ =>
      .pure _)
  refine .ite ?_ (hjp ())
  exact .bind (ask_silent _) fun r => .ite (.bind (modifyPool_silent fun _ => rfl) hjp) (hjp ())

theorem pollAttached_silent (timer : Timer) (fuel : Nat) : Silent core (pollAttached timer fuel) := by
  induction fuel with
  | zero => exact .pure _
  | succ fuel ih =>
    refine .bind (remaining_silent _) fun left => .ite (.pure _) ?_
    refine .bind modemIsAttached_silent fun attached => ?_
    split
    · exact .pure _
    · exact ih

end Silent

end LibNbiot
