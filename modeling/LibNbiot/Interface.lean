/-
# The public functions

Besides the calls that reach the network, the library has functions that configure
and start it and functions that only ask it something. They may be called in any
order, from the moment the library is constructed. A debug build prints the name of
the current state, for which it has to look at it.
-/

import LibNbiot.EventLoop

namespace LibNbiot

open Logic.Program

/-! ## Questions -/

/-- `isNbiotConnected()`: connected, sleeping or awake. -/
def isNbiotConnected : M Bool := do
  if ← isConnected then return true
  if ← stateIs .connectedSleep then return true
  stateIs .connectedAwake

/-- `isNbiotReady()`. -/
def isNbiotReady : M Bool := do return (← getPool).initialized

/-- `hasNbiotSubscription()`. -/
def hasNbiotSubscription : M Bool := do return (← getRegistry).hasAnyTopic .sub

/-- `isNbiotSubscribedTo(topic)`. -/
def isNbiotSubscribedTo (topic : Bytes) : M Bool := do return (← getRegistry).hasTopic topic .sub

/-- `getNbiotState()`. -/
def getNbiotState : M (Option StateId) := getCurrentStateId

/-- `getNbiotError()`. -/
def getNbiotError : M ErrorNumber := do return (← getPool).errno

/-- `getNbiotEventLoopStatus()`. -/
def getNbiotEventLoopStatus : M NbiotResult := do
  if (← getMqtt).evLoopRc = .pending then return .pending
  else return if (← get).loop.isBusy then .pending else .idle

/-- The names that `currentStateToString` has for the states. -/
def StateId.toText : StateId → String
  | .initial => "Initial State"
  | .disconnected => "Disconnected State"
  | .error => "Error State"
  | .connected => "Connected State"
  | .connectedSleep => "Sleep State"
  | .deepSleep => "Hibernate State"
  | _ => "Invalid State"

/-- `currentNbiotState()`: without debug output the state has no name. -/
def currentNbiotState (debug : Bool) : M String := do
  if debug then return ((← getCurrentStateId).map StateId.toText).getD "Invalid State"
  else return ""

/-! ## Sequences of calls -/

/-- The public functions. -/
inductive PublicCall where
  | nbiotConfig (conf : NbiotConf)
  | nbiotStart
  | api (call : ApiCall)
  | isNbiotConnected
  | isNbiotReady
  | hasNbiotSubscription
  | isNbiotSubscribedTo (topic : Bytes)
  | getNbiotState
  | getNbiotError
  | getNbiotEventLoopStatus
  | currentNbiotState
  deriving DecidableEq, Repr

/-- One call, in a build with or without debug output. -/
def PublicCall.exec (debug : Bool) : PublicCall → M Unit
  | .nbiotConfig conf => do let _ ← LibNbiot.nbiotConfig conf
  | .nbiotStart => do let _ ← LibNbiot.nbiotStart
  | .api call => call.exec
  | .isNbiotConnected => do let _ ← LibNbiot.isNbiotConnected
  | .isNbiotReady => do let _ ← LibNbiot.isNbiotReady
  | .hasNbiotSubscription => do let _ ← LibNbiot.hasNbiotSubscription
  | .isNbiotSubscribedTo topic => do let _ ← LibNbiot.isNbiotSubscribedTo topic
  | .getNbiotState => do let _ ← LibNbiot.getNbiotState
  | .getNbiotError => do let _ ← LibNbiot.getNbiotError
  | .getNbiotEventLoopStatus => do let _ ← LibNbiot.getNbiotEventLoopStatus
  | .currentNbiotState => do let _ ← LibNbiot.currentNbiotState debug

/-- The library after any public calls, from its construction on. -/
def Setting.called (setting : Setting) (debug : Bool) (calls : List PublicCall) : Sys :=
  calls.foldl (fun s call => (call.exec debug s).2) setting.construct

theorem Setting.called_snoc (setting : Setting) (debug : Bool) (calls : List PublicCall)
    (call : PublicCall) :
    setting.called debug (calls ++ [call]) = (call.exec debug (setting.called debug calls)).2 := by
  simp [Setting.called]

end LibNbiot
