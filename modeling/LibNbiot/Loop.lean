/-
# The loop controller and its clients

`NbiotLoop` serves one loop client at a time from a queue. A client is started
once, stepped until its step handler says it is done, and then stopped; it keeps
its own result flag, while the controller keeps the queue, the active pointer, a
copy of the client's value and a deferred break flag.

The clients are the elements of a type `ι` and their handlers are programs over
the whole world, because a handler may register further clients or ask for a
break while it runs. The world also carries a log, latest entry first, that no
definition of the model reads back: every entry pairs an event with what could
be observed of the world at that moment.
-/

import LibNbiot.Logic.Program
import LibNbiot.Timer

namespace LibNbiot

open Logic.Program

/-- `NbiotResult`. -/
inductive NbiotResult where
  | success
  | idle
  | pending
  | fail
  deriving DecidableEq, Repr

/-- `NbiotLoopId`. -/
inductive NbiotLoopId where
  | unknown
  | cgatt
  | yield
  | connect
  | publish
  | register
  | subscribe
  | unsubscribe
  | disconnect
  deriving DecidableEq, Repr

/-- The three handlers of a loop client. -/
inductive LoopPhase where
  | start
  | step
  | stop
  deriving DecidableEq, Repr

/-- `LoopClient`: the result flag, the integer handed to the handlers by
reference, and the timer. The handlers and the id are the client's wiring. -/
structure LoopClient where
  result : NbiotResult := .fail
  loopCtrl : Int := 0
  timer : Timer := {}
  deriving DecidableEq, Repr

/-- `NbiotLoop`. -/
structure NbiotLoop (ι : Type) where
  clientList : List ι := []
  loopClient : Option ι := none
  loopValue : Int := 0
  loopId : NbiotLoopId := .unknown
  breakFlag : Bool := false
  deriving DecidableEq, Repr

/-- `isBusy()`. -/
def NbiotLoop.isBusy {ι : Type} (lc : NbiotLoop ι) : Bool :=
  0 < lc.clientList.length || lc.loopId != .unknown

/-! ## The world and its log -/

/-- What the loop controller does, and what the application logs itself. -/
inductive LoopEvent (ι ε : Type) where
  /-- The client was appended to the queue. -/
  | registered (c : ι)
  /-- The controller was cleared: the active client and the queue it dropped. -/
  | cleared (active : Option ι) (queue : List ι)
  /-- The client was taken from the queue, its result flag being `result`. -/
  | taken (c : ι) (result : NbiotResult)
  /-- A handler was called with the client's value. -/
  | called (c : ι) (phase : LoopPhase) (value : Int)
  /-- A handler returned, leaving a value behind. -/
  | answered (c : ι) (phase : LoopPhase) (answer : Bool) (value : Int)
  | app (e : ε)
  deriving DecidableEq, Repr

/-- A logged event with the view of the world at that moment. -/
structure Entry (ι ε ν : Type) where
  event : LoopEvent ι ε
  view : ν
  deriving DecidableEq, Repr

/-- The loop controller, its clients, the rest of the system and the log. -/
structure LoopWorld (ι ε ν ρ : Type) where
  loop : NbiotLoop ι := {}
  client : ι → LoopClient := fun _ => {}
  rest : ρ
  trace : List (Entry ι ε ν) := []

/-- What a log entry shows of the world. -/
class Observed (ι ρ : Type) (ν : outParam Type) where
  view : NbiotLoop ι → ρ → ν

/-- The ids and handlers of the loop clients; a handler that is not attached is
`none`. -/
structure LoopWiring (ι σ : Type) where
  loopId : ι → NbiotLoopId
  handler : ι → LoopPhase → Option (StateM σ Bool)

/-! ## The small operations -/

section Operations

variable {ι ε ν ρ : Type}

/-- Append an event to the log. -/
def log [Observed ι ρ ν] (e : LoopEvent ι ε) : StateM (LoopWorld ι ε ν ρ) Unit :=
  modify fun s => { s with trace := ⟨e, Observed.view s.loop s.rest⟩ :: s.trace }

@[simp]
theorem log_run [Observed ι ρ ν] (e : LoopEvent ι ε) (s : LoopWorld ι ε ν ρ) :
    log e s = ((), { s with trace := ⟨e, Observed.view s.loop s.rest⟩ :: s.trace }) := rfl

def modifyLoop (f : NbiotLoop ι → NbiotLoop ι) : StateM (LoopWorld ι ε ν ρ) Unit :=
  modify fun s => { s with loop := f s.loop }

@[simp]
theorem modifyLoop_run (f : NbiotLoop ι → NbiotLoop ι) (s : LoopWorld ι ε ν ρ) :
    modifyLoop f s = ((), { s with loop := f s.loop }) := rfl

/-- `getResult()`. -/
def getResult (c : ι) : StateM (LoopWorld ι ε ν ρ) NbiotResult := do
  return ((← get).client c).result

@[simp]
theorem getResult_run (c : ι) (s : LoopWorld ι ε ν ρ) :
    getResult c s = ((s.client c).result, s) := rfl

/-- `getValue()`. -/
def getValue (c : ι) : StateM (LoopWorld ι ε ν ρ) Int := do
  return ((← get).client c).loopCtrl

@[simp]
theorem getValue_run (c : ι) (s : LoopWorld ι ε ν ρ) :
    getValue c s = ((s.client c).loopCtrl, s) := rfl

def modifyClient [DecidableEq ι] (c : ι) (f : LoopClient → LoopClient) :
    StateM (LoopWorld ι ε ν ρ) Unit :=
  modify fun s => { s with client := Function.update s.client c (f (s.client c)) }

/-- `setValue(val)`, which is also what an assignment to the handler's reference
argument does. -/
def setValue [DecidableEq ι] (c : ι) (val : Int) : StateM (LoopWorld ι ε ν ρ) Unit :=
  modifyClient c fun cl => { cl with loopCtrl := val }

@[simp]
theorem setValue_run [DecidableEq ι] (c : ι) (val : Int) (s : LoopWorld ι ε ν ρ) :
    setValue c val s =
      ((), { s with client := Function.update s.client c { s.client c with loopCtrl := val } }) :=
  rfl

def setResult [DecidableEq ι] (c : ι) (r : NbiotResult) : StateM (LoopWorld ι ε ν ρ) Unit :=
  modifyClient c fun cl => { cl with result := r }

@[simp]
theorem setResult_run [DecidableEq ι] (c : ι) (r : NbiotResult) (s : LoopWorld ι ε ν ρ) :
    setResult c r s =
      ((), { s with client := Function.update s.client c { s.client c with result := r } }) :=
  rfl

end Operations

/-! ## The controller's own operations -/

section Controller

variable {ι ε ν ρ : Type} [Observed ι ρ ν]

/-- `NbiotLoop::clear()`: the break flag and the clients' flags stay. -/
def clearLoop : StateM (LoopWorld ι ε ν ρ) Unit := do
  let s ← get
  log (.cleared s.loop.loopClient s.loop.clientList)
  modifyLoop fun lc =>
    { lc with clientList := [], loopClient := none, loopValue := 0, loopId := .unknown }

/-- `registerLoopClient(client)`; `none` is the null pointer. -/
def registerLoopClient : Option ι → StateM (LoopWorld ι ε ν ρ) Unit
  | some c => do
      log (.registered c)
      modifyLoop fun lc => { lc with clientList := lc.clientList ++ [c] }
  | none => clearLoop

/-- `loopBreak()`: the break flag is not set in advance. -/
def loopBreak : StateM (LoopWorld ι ε ν ρ) Unit := do
  if 0 < (← get).loop.clientList.length then
    modifyLoop fun lc => { lc with breakFlag := true }

/-- The deferred break: a set flag clears the controller and is reset. -/
def breakPending : StateM (LoopWorld ι ε ν ρ) Unit := do
  if (← get).loop.breakFlag then
    clearLoop
    modifyLoop fun lc => { lc with breakFlag := false }

/-! ## One turn of a client -/

variable [DecidableEq ι] (w : LoopWiring ι (LoopWorld ι ε ν ρ))

/-- Call an attached handler with the client's value. -/
def callHandler (c : ι) (phase : LoopPhase) (h : StateM (LoopWorld ι ε ν ρ) Bool) :
    StateM (LoopWorld ι ε ν ρ) Bool := do
  log (.called c phase (← getValue c))
  let answer ← h
  log (.answered c phase answer (← getValue c))
  return answer

/-- The start handler decides whether the client is pending. -/
def startClient (c : ι) : StateM (LoopWorld ι ε ν ρ) Unit :=
  match w.handler c .start with
  | some h => do
      if ← callHandler c .start h then setResult c .pending else setResult c .fail
  | none => setResult c .pending

/-- `LoopClient::preLoopStep()`: a client that is still pending is not started. -/
def preLoopStep (c : ι) : StateM (LoopWorld ι ε ν ρ) NbiotResult := do
  onlyIf ((← getResult c) ≠ .pending) (startClient w c)
  getResult c

/-- The stop handler decides about success. -/
def stopClient (c : ι) : StateM (LoopWorld ι ε ν ρ) Unit :=
  match w.handler c .stop with
  | some h => do
      if ← callHandler c .stop h then setResult c .success else setResult c .fail
  | none => setResult c .success

/-- `LoopClient::postLoopStep()`. -/
def postLoopStep (c : ι) : StateM (LoopWorld ι ε ν ρ) NbiotResult := do
  onlyIf ((← getResult c) = .pending) (stopClient w c)
  getResult c

/-- The step handler decides whether the client goes on or is stopped. -/
def stepClient (c : ι) : StateM (LoopWorld ι ε ν ρ) Unit :=
  match w.handler c .step with
  | some h => do
      if ← callHandler c .step h then setResult c .pending
      else if (← postLoopStep w c) = .success then setResult c .idle
      else setResult c .fail
  | none => setResult c .fail

/-- `LoopClient::loopStep()`. -/
def loopStep (c : ι) : StateM (LoopWorld ι ε ν ρ) NbiotResult := do
  onlyIf ((← getResult c) = .pending) (stepClient w c)
  getResult c

/-! ## One turn of the controller -/

/-- The turn of a hooked client. -/
def stepActive (c : ι) : StateM (LoopWorld ι ε ν ρ) NbiotResult := do
  let ret ← loopStep w c
  let value ← getValue c
  modifyLoop fun lc => { lc with loopValue := value }
  if ret ≠ .pending then
    let ret ← getResult c
    modifyLoop fun lc => { lc with loopClient := none }
    return ret
  else
    return ret

/-- The front client `c` of the queue becomes the active one. -/
def takeFront (c : ι) (queue : List ι) : StateM (LoopWorld ι ε ν ρ) Unit := do
  log (.taken c (← getResult c))
  modifyLoop fun lc =>
    { lc with clientList := queue, loopClient := some c, loopId := w.loopId c }

/-- Take the front client of the queue and start it. -/
def takeClient (c : ι) (queue : List ι) : StateM (LoopWorld ι ε ν ρ) NbiotResult := do
  takeFront w c queue
  let ret ← preLoopStep w c
  onlyIf (ret ≠ .pending) <|
    modifyLoop fun lc => { lc with loopClient := none, loopId := .unknown }
  return ret

/-- The turn after a deferred break has been served. -/
def loopTurn : StateM (LoopWorld ι ε ν ρ) NbiotResult := do
  let lc := (← get).loop
  match lc.loopClient, lc.clientList with
  | some c, _ => stepActive w c
  | none, c :: queue => takeClient w c queue
  | none, [] =>
      modifyLoop fun lc => { lc with loopValue := 0, loopId := .unknown }
      return .idle

/-- `NbiotLoop::nbiotLoop()`. -/
def nbiotLoop : StateM (LoopWorld ι ε ν ρ) NbiotResult := do
  breakPending
  loopTurn w

end Controller

end LibNbiot
