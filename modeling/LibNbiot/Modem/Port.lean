/-
# The port of the modem classes

What the modem classes do at the serial port they do through `AtCommands`: they send
a command, read what is answered to it, or add a filter for lines that come in
unasked. What is at the other end of the line, and when it says something, is up to
the environment: it hears what is written, and whenever a call reads it says what has
come in and how the time of that call goes.
-/

import LibNbiot.Logic.Calling
import LibNbiot.Modem.AtCommands

namespace LibNbiot

open Logic Logic.Program Serial

variable {η ω : Type}

namespace AtCommands

/-- The lines that `readUntil(expected, timeout_ms, exact)` ends with. -/
def isExpected (expected : Bytes) (exact : Bool) (line : Bytes) : Bool :=
  if exact then cString line = cString expected
  else (cString expected).isPrefixOf (cString line)

/-- The loop of `readUntil`. A line that is not the right one is forgotten, and so is the
beginning of one when the time is over. -/
def untilLoop (fs : UrcFilterList η) (expected : Bytes) (exact : Bool) :
    List ReadTime → Response η → Response η
  | [], r => r
  | time :: times, r =>
      let l := readInTime fs time [] .simple r.unread
      let r := r.read l
      if isExpected expected exact l.line then { r with result := true, response := l.line }
      else if time.timeLeft ∧ timedOut time l = false then untilLoop fs expected exact times r
      else r

/-- `readUntil(expected, timeout_ms, exact)`, with what becomes of its calls. -/
def readUntil (fs : UrcFilterList η) (expected : Bytes) (exact : Bool) (times : List ReadTime)
    (stream : Bytes) : Response η :=
  untilLoop fs expected exact times { unread := stream }

/-- `sendCommand(const char* command)` writes the command and a carriage return. -/
def commandLine (command : Bytes) : Bytes := cString command ++ [carriageReturn]

end AtCommands

/-! ## Calls -/

/-- What the modem classes call. A call that reads has a time limit in milliseconds; none of
them waits for `REPLY_NONE`, which reads single bytes. -/
inductive PortCall (η : Type) where
  /-- `sendCommand(const nbiot::string& cmd)`. -/
  | sendCommand (cmd : Bytes)
  /-- `readResponse(expected, timeout_ms)`. -/
  | readResponse (expected : ExpectedReply) (whole : expected ≠ .none) (timeout : Nat)
  /-- `readUntil(expected, timeout_ms)`. -/
  | readUntil (expected : Bytes) (timeout : Nat)
  /-- `addUrcFilter(urc, uhc, urc_handler)`. -/
  | addUrcFilter (urc : Bytes) (handler : η)

/-- What a call returns; a call that reads also leaves a response behind. -/
abbrev PortCall.Answer : PortCall η → Type
  | .sendCommand _ => Bool
  | .readResponse _ _ _ => Bool × Bytes
  | .readUntil _ _ => Bool × Bytes
  | .addUrcFilter _ _ => Bool

/-- What goes on while a call reads: what has come in by its end, and its time. -/
structure Wait where
  said : Bytes := []
  times : List ReadTime := []
  deriving DecidableEq, Repr

/-- The other end of the line. It hears what is written, and knows how long a call waits and
what is already there to be read. -/
structure OtherEnd (ω : Type) where
  write : ω → Bytes → Bool × ω
  wait : ω → Nat → Bytes → Wait × ω

/-- The serial port, with its filters and what their handlers have got. -/
structure Port (η ω : Type) where
  other : ω
  unread : Bytes := []
  filters : UrcFilterList η := []
  handled : List (η × Bytes) := []

namespace Port

/-- A call that reads. -/
def read (W : OtherEnd ω) (timeout : Nat)
    (reading : UrcFilterList η → List ReadTime → Bytes → Response η) :
    StateM (Port η ω) (Bool × Bytes) := do
  let p ← get
  let (wait, other) := W.wait p.other timeout p.unread
  let r := reading p.filters wait.times (p.unread ++ wait.said)
  set { p with other := other, unread := r.unread, handled := p.handled ++ r.handled }
  return (r.result, r.response)

/-- What a call does. -/
def exec (W : OtherEnd ω) : (c : PortCall η) → StateM (Port η ω) c.Answer
  | .sendCommand cmd => do
      let p ← get
      let (sent, other) := W.write p.other cmd
      set { p with other := other }
      return sent
  | .readResponse expected _ timeout =>
      read W timeout fun fs times stream => AtCommands.readResponse fs expected times stream
  | .readUntil expected timeout =>
      read W timeout fun fs times stream => AtCommands.readUntil fs expected false times stream
  | .addUrcFilter urc handler => do
      let p ← get
      let (added, filters) := UrcFilterList.addUrcFilter p.filters urc handler
      set { p with filters := filters }
      return added

end Port

/-! ## Programs -/

/-- A program of a modem class. -/
abbrev Driver (η α : Type) := Calling (PortCall η) PortCall.Answer α

namespace Driver

/-- `sendCommand(const nbiot::string& cmd)`. -/
def sendString (cmd : Bytes) : Driver η Bool := Calling.call (.sendCommand cmd) .result

/-- `sendCommand(const char* command)`. -/
def sendCommand (command : Bytes) : Driver η Bool := sendString (AtCommands.commandLine command)

/-- `readResponse(expected, timeout_ms)` and `getResponse()`. -/
def readResponse (expected : ExpectedReply) (timeout : Nat)
    (whole : expected ≠ .none := by decide) : Driver η (Bool × Bytes) :=
  Calling.call (.readResponse expected whole timeout) .result

/-- `readUntil(expected, timeout_ms)` and `getResponse()`. -/
def readUntil (expected : Bytes) (timeout : Nat) : Driver η (Bool × Bytes) :=
  Calling.call (.readUntil expected timeout) .result

/-- `addUrcFilter(urc, uhc, urc_handler)`. -/
def addUrcFilter (urc : Bytes) (handler : η) : Driver η Bool :=
  Calling.call (.addUrcFilter urc handler) .result

end Driver

end LibNbiot
