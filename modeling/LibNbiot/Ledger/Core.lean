/-
# The ledger of the library

A second small part of the library's state, for the laws that are about what the
library has to keep books on: the state machine with its error number and its
events, the credentials, the topics, and which requests are under way. Buffers,
the outside world and the values of the loop clients are not in it. Of the log
only the public calls, the topics that the gateway named and the comings and
goings of the subscribes are kept.
-/

import LibNbiot.EventLoop
import LibNbiot.Logic.Machine

namespace LibNbiot

open Logic.Program

/-- The public calls in a log, latest first. -/
def apiCalls : List (Entry ClientId SysEvent View) → List ApiCall
  | [] => []
  | e :: t =>
      match e.event with
      | .app (.api call) => call :: apiCalls t
      | _ => apiCalls t

/-- The topic names of the REGISTERs in a log, latest first. -/
def namedTopics : List (Entry ClientId SysEvent View) → List Bytes
  | [] => []
  | e :: t =>
      match e.event with
      | .app (.topicNamed topicName) => topicName :: namedTopics t
      | _ => namedTopics t

/-- The subscribe that is called last, when it is the last of all calls. -/
def subscribeCall : List ApiCall → Option (Bytes × Option MessageHandler)
  | .subscribe topic mh :: _ => some (topic, mh)
  | _ => none

/-- The subscribe in a log whose loop was queued last. -/
def queuedSubscribe : List (Entry ClientId SysEvent View) → Option (Bytes × Option MessageHandler)
  | [] => none
  | e :: t =>
      match e.event with
      | .app (.subscribeQueued _) => subscribeCall (apiCalls t)
      | _ => queuedSubscribe t

/-- The end of a subscribe: the call, whether it came by the loop, the topic, and
the registry before and after. -/
structure Installation where
  call : Option (Bytes × Option MessageHandler)
  looped : Bool
  topic : NbiotTopic
  before : NbiotTopicRegistry
  after : NbiotTopicRegistry
  deriving DecidableEq, Repr

/-- The ends of the subscribes in a log, latest first. -/
def installations : List (Entry ClientId SysEvent View) → List Installation
  | [] => []
  | e :: t =>
      match e.event with
      | .app (.handlerInstalled looped topic before after) =>
          ⟨if looped then queuedSubscribe t else subscribeCall (apiCalls t), looped, topic, before,
            after⟩ :: installations t
      | _ => installations t

/-! ## Errors in the log -/

/-- Is the library initialized? The choice behind the Initial state has told so last,
unless the modem has been switched off since. -/
def knownInitialized : List (Entry ClientId SysEvent View) → Bool
  | [] => false
  | e :: t =>
      match e.event with
      | .app (.fired .mIsInitializedDisconnected _) => true
      | .app (.fired .mIsInitializedError _) | .app .modemSwitchedOff => false
      | _ => knownInitialized t

/-- The attach timeouts since the last successful attach or the last reboot in the
Error state. -/
def attachTimeouts : List (Entry ClientId SysEvent View) → Nat
  | [] => 0
  | e :: t =>
      match e.event with
      | .app (.fired .mIsAttachedError _) => attachTimeouts t + 1
      | .app (.fired .mIsAttachedIpConnect _) => 0
      | .app (.rebooted _) => if e.view.state = some .error then 0 else attachTimeouts t
      | _ => attachTimeouts t

/-- An entry into the Error state: what the log had told before it, and whether the
modem was rebooted and the disconnect posted in that state. -/
structure ErrorEntry where
  initialized : Bool
  timeouts : Nat
  rebooted : Bool := false
  disconnects : Bool := false
  deriving DecidableEq, Repr

/-- The entries into the Error state in a log, latest first. -/
def errorEntries : List (Entry ClientId SysEvent View) → List ErrorEntry
  | [] => []
  | e :: t =>
      match e.event with
      | .app (.entered .error) => ⟨knownInitialized t, attachTimeouts t, false, false⟩ :: errorEntries t
      | .app (.rebooted _) =>
          if e.view.state = some .error then
            (errorEntries t).modify 0 ({ · with rebooted := true })
          else errorEntries t
      | .app (.posted .errorDisconnectEvent) =>
          if e.view.state = some .error then
            (errorEntries t).modify 0 ({ · with disconnects := true })
          else errorEntries t
      | _ => errorEntries t

/-- What the library keeps on errors: its own counter, and what the log tells. -/
structure Recovery where
  restarts : Nat
  timeouts : Nat
  known : Bool
  entries : List ErrorEntry
  deriving DecidableEq, Repr

/-- The events that are kept on the books. -/
def SysEvent.booked : SysEvent → Bool
  | .api _ | .topicNamed _ | .subscribeQueued _ | .handlerInstalled _ _ _ _ => true
  | .fired _ _ | .entered .error | .rebooted _ | .modemSwitchedOff => true
  | .posted .errorDisconnectEvent => true
  | _ => false

/-- What the library keeps books on. -/
structure Ledger where
  state : Option StateId
  events : List StmEvent
  pendingEvents : List StmEvent
  timeout : Bool
  errno : ErrorNumber
  initialized : Bool
  authLogin : Bytes
  authPasswd : Bytes
  authentication : Bytes
  currentTopic : NbiotTopic
  registry : NbiotTopicRegistry
  maxTopics : Nat
  queue : List ClientId
  loopId : NbiotLoopId
  calls : List ApiCall
  heard : List Bytes
  asked : Option (Bytes × Option MessageHandler)
  installed : List Installation
  recovery : Recovery

/-- The ledger of a state of the library. -/
def ledger (s : Sys) : Ledger where
  state := s.rest.stm.currentState
  events := s.rest.stm.events
  pendingEvents := s.rest.stm.pendingEvents
  timeout := s.rest.stm.stateTimeout.valid
  errno := s.rest.pool.errno
  initialized := s.rest.pool.initialized
  authLogin := s.rest.pool.authLogin
  authPasswd := s.rest.pool.authPasswd
  authentication := s.rest.pool.authentication
  currentTopic := s.rest.pool.currentTopic
  registry := s.rest.registry
  maxTopics := s.rest.pool.maxTopics
  queue := s.loop.clientList
  loopId := s.loop.loopId
  calls := apiCalls s.trace
  heard := namedTopics s.trace
  asked := queuedSubscribe s.trace
  installed := installations s.trace
  recovery :=
    { restarts := s.rest.pool.modemRestartOnError
      timeouts := attachTimeouts s.trace
      known := knownInitialized s.trace
      entries := errorEntries s.trace }

/-! ## Programs that leave the ledger alone -/

namespace Ledger

theorem get_silent : Silent ledger (get : M Sys) := fun _ => rfl

theorem getPool_silent : Silent ledger getPool := fun _ => rfl

theorem getSn_silent : Silent ledger getSn := fun _ => rfl

theorem getStm_silent : Silent ledger getStm := fun _ => rfl

theorem getMqtt_silent : Silent ledger getMqtt := fun _ => rfl

theorem getRegistry_silent : Silent ledger getRegistry := fun _ => rfl

theorem modifySn_silent (f : MqttSnClient → MqttSnClient) : Silent ledger (modifySn f) :=
  fun _ => rfl

theorem modifyMqtt_silent (f : Mqtt → Mqtt) : Silent ledger (modifyMqtt f) := fun _ => rfl

theorem modifyClient_silent (c : ClientId) (f : LoopClient → LoopClient) :
    Silent ledger (modifyClient c f) := fun _ => rfl

theorem setValue_silent (c : ClientId) (v : Int) : Silent ledger (setValue c v) := fun _ => rfl

theorem setResult_silent (c : ClientId) (r : NbiotResult) : Silent ledger (setResult c r) :=
  fun _ => rfl

theorem getValue_silent (c : ClientId) : Silent ledger (getValue c : M Int) := fun _ => rfl

theorem getResult_silent (c : ClientId) : Silent ledger (getResult c : M NbiotResult) :=
  fun _ => rfl

theorem ask_silent (d : Device) : Silent ledger (ask d) := fun _ => rfl

theorem getMillis_silent : Silent ledger getMillis := fun _ => rfl

theorem startTimer_silent (duration : Nat) : Silent ledger (startTimer duration) := fun _ => rfl

theorem remaining_silent (t : Timer) : Silent ledger (remaining t) := fun _ => rfl

theorem leftMs_silent (t : Timer) : Silent ledger (leftMs t) := fun _ => rfl

theorem networkIsConnected_silent : Silent ledger networkIsConnected := fun _ => rfl

theorem networkConnect_silent : Silent ledger networkConnect := fun _ => rfl

theorem networkDisconnect_silent : Silent ledger networkDisconnect := fun _ => rfl

theorem networkWrite_silent (bytes : Bytes) : Silent ledger (networkWrite bytes) := fun _ => rfl

/-- Of the other events nothing is seen. -/
theorem logApp_silent {e : SysEvent} (h : e.booked = false) : Silent ledger (logApp e) := by
  intro s
  have hlog : ∀ v t, apiCalls (⟨.app e, v⟩ :: t) = apiCalls t ∧
      namedTopics (⟨.app e, v⟩ :: t) = namedTopics t ∧
        queuedSubscribe (⟨.app e, v⟩ :: t) = queuedSubscribe t ∧
          installations (⟨.app e, v⟩ :: t) = installations t := by
    intro v t
    cases e with
    | api | topicNamed | subscribeQueued | handlerInstalled => cases h
    | _ => exact ⟨rfl, rfl, rfl, rfl⟩
  have hrecovery : ∀ v t, attachTimeouts (⟨.app e, v⟩ :: t) = attachTimeouts t ∧
      knownInitialized (⟨.app e, v⟩ :: t) = knownInitialized t ∧
        errorEntries (⟨.app e, v⟩ :: t) = errorEntries t := by
    intro v t
    cases e with
    | fired | rebooted | modemSwitchedOff => cases h
    | entered st => cases st <;> first | exact ⟨rfl, rfl, rfl⟩ | cases h
    | posted e => cases e <;> first | exact ⟨rfl, rfl, rfl⟩ | cases h
    | _ => exact ⟨rfl, rfl, rfl⟩
  simp only [ledger, logApp, log_run, hlog, hrecovery]

theorem setTime_silent (c : ClientId) (duration : Nat) : Silent ledger (setTime c duration) :=
  fun _ => rfl

theorem setDuration_silent (d : Nat) : Silent ledger (setDuration d) := fun _ => rfl

theorem restartAutoPoll_silent : Silent ledger restartAutoPoll := fun _ => rfl

theorem setLock_silent (lock : Bool) : Silent ledger (setLock lock) := fun _ => rfl

theorem stopYield_silent : Silent ledger stopYield := fun _ => rfl

theorem getNext_silent : Silent ledger getNext := fun _ => rfl

theorem modemIsAttached_silent : Silent ledger modemIsAttached := fun _ => rfl

theorem topicNameAt_silent : Silent ledger topicNameAt := fun _ => rfl

theorem choice_silent (c : Choice) : Silent ledger c.condition := by
  cases c <;> exact fun _ => rfl

theorem startClientTimer_silent (c : ClientId) (duration : Nat) :
    Silent ledger (startClientTimer c duration) := fun _ => rfl

theorem clientRemaining_silent (c : ClientId) : Silent ledger (clientRemaining c) := fun _ => rfl

/-! ## Sending and reading -/

theorem serialize_silent (p : Packet) : Silent ledger (serialize p) := by
  intro s
  cases hb : p.serialize with
  | none => simp only [serialize, hb]; rfl
  | some b => simp only [serialize, hb]; rfl

theorem writeSendbuf_silent (length : Int) (timer : Timer) :
    Silent ledger (writeSendbuf length timer) := by
  refine .bind (remaining_silent _) fun left => .ite (.pure _) (.ite (.pure _) ?_)
  exact .bind (remaining_silent _) fun _ => .bind getSn_silent fun _ => networkWrite_silent _

theorem renewLastSent_silent : Silent ledger renewLastSent := by
  refine .bind getSn_silent fun _ => .ite ?_ (.pure _)
  exact .bind getSn_silent fun _ => .bind (startTimer_silent _) fun _ => modifySn_silent _

theorem renewLastReceived_silent : Silent ledger renewLastReceived := by
  refine .bind getSn_silent fun _ => .ite ?_ (.pure _)
  exact .bind getSn_silent fun _ => .bind (startTimer_silent _) fun _ => modifySn_silent _

theorem renewTimer_silent (timer : Timer) : Silent ledger (renewTimer timer) :=
  .bind (leftMs_silent _) fun _ => .ite (startTimer_silent _) (.pure _)

theorem sendPacket_silent (length : Int) (timer : Timer) :
    Silent ledger (sendPacket length timer) := by
  refine .bind (renewTimer_silent _) fun timer => .bind ?_ fun sent =>
    .ite (.bind renewLastSent_silent fun _ => .pure _) (.pure _)
  exact .ite (writeSendbuf_silent _ _) (.pure _)

theorem keepalive_silent : Silent ledger keepalive := by
  have hexpired : Silent ledger keepaliveExpired := by
    refine .bind getSn_silent fun _ => .bind (remaining_silent _) fun _ => .ite (.pure _) ?_
    exact .bind getSn_silent fun _ => .bind (remaining_silent _) fun _ => .pure _
  refine .bind getSn_silent fun _ => .ite ?_ (.pure _)
  refine .bind hexpired fun _ => .bind getSn_silent fun _ => .ite ?_ (.pure _)
  refine .bind (startTimer_silent _) fun _ => .bind (serialize_silent _) fun _ => .ite ?_ (.pure _)
  exact .bind (sendPacket_silent _ _) fun _ => .ite (modifySn_silent _) (.pure _)

theorem networkRead_silent (offset len : Nat) : Silent ledger (networkRead offset len) := by
  refine .bind (ask_silent _) fun r => .ite ?_ (.pure _)
  exact .bind (.onlyIf (modifySn_silent _)) fun _ => .pure _

theorem readFailure_silent : Silent ledger readFailure := fun _ => rfl

theorem readRest_silent (timer : Timer) (len : Nat) : Silent ledger (readRest timer len) := by
  have hmore (datalen : Nat) : Silent ledger (readMore timer len datalen) :=
    .ite (.bind (leftMs_silent _) fun _ => .bind (networkRead_silent _ _) fun _ => .pure _) (.pure _)
  have hcomplete (lenlen datalen : Nat) : Silent ledger (readComplete lenlen datalen) :=
    .bind getSn_silent fun _ => .bind (logApp_silent rfl) fun _ =>
      .bind renewLastReceived_silent fun _ => .bind getSn_silent fun _ => .pure _
  refine .bind getSn_silent fun sn => .bind (remaining_silent _) fun _ => ?_
  refine .ite readFailure_silent (.bind (hmore _) fun _ => ?_)
  exact .ite readFailure_silent (hcomplete _ _)

theorem readPacket_silent (timer : Timer) : Silent ledger (readPacket timer) := by
  refine .bind (remaining_silent _) fun _ => .bind (leftMs_silent _) fun _ => ?_
  refine .bind (networkRead_silent _ _) fun len => .ite readFailure_silent ?_
  refine .bind getSn_silent fun _ => .ite ?_ (readRest_silent _ _)
  refine .bind (remaining_silent _) fun _ => .bind (leftMs_silent _) fun _ => ?_
  exact .bind (networkRead_silent _ _) fun _ => .ite readFailure_silent (readRest_silent _ _)

theorem answerPacket_silent (p : Packet) (timer : Timer) : Silent ledger (answerPacket p timer) :=
  .bind (serialize_silent _) fun _ => .ite (.pure _) (.bind (sendPacket_silent _ _) fun _ => .pure _)

theorem pmPing_silent (cID : Bytes) : Silent ledger (Client.pmPing cID) := by
  refine .bind getSn_silent fun _ => .ite (.pure _) (.bind (startTimer_silent _) fun _ => ?_)
  refine .bind (serialize_silent _) fun _ => .ite ?_ (.pure _)
  exact .bind (sendPacket_silent _ _) fun _ => .bind (.onlyIf (modifySn_silent _)) fun _ => .pure _

theorem notify_silent (n : Notification) : Silent ledger (notify n) :=
  .bind getMqtt_silent fun _ => .ite (logApp_silent rfl) (.pure _)

theorem getCurrentStateId_silent : Silent ledger getCurrentStateId := by
  refine .bind getStm_silent fun stm => ?_
  extract_lets done
  exact .ite (.bind (logApp_silent rfl) fun _ => .pure _) (.pure _)

theorem notifyState_silent (action : NbiotAction) (returnCode : Nat)
    (errorNumber : Option StateId → ErrorNumber) :
    Silent ledger (notifyState action returnCode errorNumber) :=
  .bind getMqtt_silent fun _ => .ite (.bind getCurrentStateId_silent fun _ => notify_silent _)
    (.pure _)

theorem stateIs_silent (st : StateId) : Silent ledger (stateIs st) :=
  .bind getCurrentStateId_silent fun _ => .pure _

theorem isSleeping_silent : Silent ledger isSleeping := by
  refine .bind (stateIs_silent _) fun _ => .ite (.pure _) ?_
  exact .bind (stateIs_silent _) fun _ => .ite (.pure _) (stateIs_silent _)

theorem loopBreak_silent : Silent ledger (loopBreak : M Unit) :=
  .bind get_silent fun _ => .ite (fun _ => rfl) (.pure _)

theorem finishDisconnect_silent : Silent ledger finishDisconnect := by
  refine .bind networkIsConnected_silent fun _ => .bind (.onlyIf ?_) fun _ => ?_
  · exact .bind networkDisconnect_silent fun _ => .pure _
  · exact .bind get_silent fun _ => .ite loopBreak_silent (.pure _)

end Ledger

end LibNbiot
