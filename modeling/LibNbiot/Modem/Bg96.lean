/-
# The socket of the BG96

`Network` of `BG96MA-R02A07M1G/network.cpp`. The modem keeps the datagrams and
only tells that there are some; a read fetches them over the line and collects
them in a ring buffer, from which it serves the caller.
-/

import LibNbiot.Modem.Socket

namespace LibNbiot

/-- `Network` of the BG96. -/
structure Bg96Network where
  filters : UrcFilterList UrcHandler := []
  connectionNumber : Int := -1
  hostname : Bytes := []
  port : Nat := 0
  /-- The source counts no bytes here: the modem has told of some, or not. -/
  bytesAvail : Nat := 0
  qiurc : Bytes := []
  readBuffer : CircularBuffer Octet 256
  /-- The commands that were sent. -/
  commands : List Bytes := []
  history : SocketHistory := {}
  deriving DecidableEq, Repr

namespace Bg96Network

def readInterval : Nat := 100

/-- `"AT+QIOPEN=1,"`. -/
def cmdQIOPEN : Bytes := [65, 84, 43, 81, 73, 79, 80, 69, 78, 61, 49, 44]

/-- `",\"UDP\",\""`. -/
def udp : Bytes := [44, 34, 85, 68, 80, 34, 44, 34]

/-- `"+QIURC: \"recv\","`, which has no place for a number. -/
def respQIURCrecv : Bytes := [43, 81, 73, 85, 82, 67, 58, 32, 34, 114, 101, 99, 118, 34, 44]

/-- `"AT+QIRD="`. -/
def cmdQIRD : Bytes := [65, 84, 43, 81, 73, 82, 68, 61]

/-- `"AT+QISENDEX="`. -/
def cmdQISENDEX : Bytes := [65, 84, 43, 81, 73, 83, 69, 78, 68, 69, 88, 61]

/-- `"SEND OK"`. -/
def respQISENDEX : Bytes := [83, 69, 78, 68, 32, 79, 75]

/-- `"AT+QICLOSE="`. -/
def cmdQICLOSE : Bytes := [65, 84, 43, 81, 73, 67, 76, 79, 83, 69, 61]

/-- `"ERROR"`. -/
def error : Bytes := [69, 82, 82, 79, 82]

def comma : UInt8 := 44

def colon : UInt8 := 58

def quote : UInt8 := 34

def space : UInt8 := 32

def carriageReturn : UInt8 := 13

/-- A freshly constructed object; the constructor clears the filters. -/
def fresh (array : List Octet) : Bg96Network := { readBuffer := ⟨array, 0, 0, false⟩ }

def isConnected (n : Bg96Network) : Bool := 0 ≤ n.connectionNumber

def sendCommand (n : Bg96Network) (command : Bytes) : Bg96Network :=
  { n with commands := n.commands ++ [command] }

/-! ## Unasked lines -/

def parseFilterResult (n : Bg96Network) (line : Bytes) : Bg96Network :=
  match findChar line comma with
  | some _ => { n with bytesAvail := 1 }
  | none => n

def handleLine (n : Bg96Network) (line : Bytes) : Bg96Network :=
  match UrcFilterList.handlerOf n.filters line with
  | some .network => n.parseFilterResult line
  | _ => n

def handleLines (n : Bg96Network) (lines : List Bytes) : Bg96Network := lines.foldl handleLine n

/-! ## Connect and disconnect -/

/-- What the modem does about an open: the command is confirmed first, and the
line that tells of the socket comes later. -/
structure OpenExchange extends Exchange where
  /-- The line came in. -/
  opened : Bool := true
  /-- The lines that came in between the two. -/
  between : List Bytes := []
  deriving DecidableEq, Repr

/-- The modem is asked for the socket of the next number. -/
def askForSocket (n : Bg96Network) (hostname : Bytes) (port : Nat) (x : OpenExchange) :
    Bg96Network :=
  let n := { n with history := n.history.attempt }
  let n := n.sendCommand (printf (cmdQIOPEN ++ printInt (n.connectionNumber + 1) ++ udp ++
    cString hostname ++ [quote, comma] ++ decimal port ++ [carriageReturn]))
  if x.sent then
    let n := n.handleLines x.before
    if x.ok then
      let n := n.handleLines x.between
      if x.opened then { n with connectionNumber := n.connectionNumber + 1 } else n
    else n
  else n

/-- The number of the socket in the line that tells of it. -/
def openedNumber (response : Bytes) : Option Int :=
  match splitAny response [comma] with
  | [first, result] =>
      if atoi result = 0 then
        match splitAny first [colon] with
        | [_, number] => some (atoi number)
        | _ => none
      else none
  | _ => none

/-- What connect makes of the line: one that cannot be read leaves the number as
it is. -/
def assignSocket (n : Bg96Network) (hostname : Bytes) (port : Nat) (x : OpenExchange) :
    Bool × Bg96Network :=
  if x.sent ∧ x.ok ∧ x.opened then
    let found := openedNumber x.response
    let number := found.getD n.connectionNumber
    if 0 ≤ number then
      (found.isSome, { n with
        connectionNumber := number, hostname := cString hostname, port := port })
    else (false, { n with connectionNumber := -1, hostname := [], port := 0 })
  else (false, n)

/-- The filter for the datagrams of the socket. -/
def listen (n : Bg96Network) (waiting : Nat) : Bg96Network :=
  let qiurc := printf respQIURCrecv
  { n with
    qiurc := qiurc
    filters := (UrcFilterList.addUrcFilter n.filters qiurc .network).2
    history := n.history.connected waiting }

def connect (n : Bg96Network) (hostname : Bytes) (port : Nat) (x : OpenExchange) :
    Bool × Bg96Network :=
  let assigned := (n.askForSocket hostname port x).assignSocket hostname port x
  let n' := assigned.2.handleLines x.after
  (assigned.1, if assigned.1 then n'.listen n.readBuffer.size else n')

/-- The modem is asked to close the socket, if there is one. -/
def askToClose (n : Bg96Network) (x : Exchange) : Bg96Network :=
  if n.isConnected then
    let n := n.sendCommand (printf (cmdQICLOSE ++ printInt n.connectionNumber ++ [carriageReturn]))
    if x.sent then n.handleLines x.before else n
  else n

def forgetSocket (n : Bg96Network) : Bg96Network :=
  { n with
    hostname := []
    port := 0
    connectionNumber := -1
    filters := (UrcFilterList.removeUrcFilter n.filters respQIURCrecv).2
    history := n.history.disconnected }

def disconnect (n : Bg96Network) (x : Exchange) : Bool × Bg96Network :=
  let ret := !n.isConnected || (x.sent && x.ok)
  let asked := n.askToClose x
  (ret, (if ret then asked.forgetSocket else asked).handleLines x.after)

/-- The datagram is handed to the modem, if there is somebody to send it to. -/
def sendData (n : Bg96Network) (data : Bytes) (x : Exchange) : Bg96Network :=
  if n.hostname ≠ [] ∧ 0 < n.port then
    let head := printf (cmdQISENDEX ++ printInt n.connectionNumber ++ [comma, quote])
    let n := n.sendCommand (head ++ toHex data ++ [quote, carriageReturn])
    if x.sent then n.handleLines x.before else n
  else n

def write (n : Bg96Network) (data : Bytes) (x : Exchange) : Bool × Bg96Network :=
  (n.hostname ≠ [] ∧ 0 < n.port ∧ x.sent ∧ x.ok ∧ cString x.response = respQISENDEX,
    (n.sendData data x).handleLines x.after)

/-! ## Reading -/

/-- What the modem does about a command for data: the line that tells how much
there is, the bytes behind it as they come in or do not, and the lines around. -/
structure DataExchange extends Exchange where
  raw : List (Option UInt8) := []
  deriving DecidableEq, Repr

/-- The number of bytes that the line tells of. -/
def announced (response : Bytes) : Int :=
  if cString response = error then -1
  else match findChar response colon with
    | some pos =>
        let rest := (response.drop (pos + 1)).dropWhile (· = space)
        if rest = [] then -1 else atoi rest
    | none => -1

/-- The bytes that come in go to the ring buffer, if it has room; all are counted. -/
def collect (n : Bg96Network) : List (Option UInt8) → Nat × Bg96Network
  | [] => (0, n)
  | some c :: raw =>
      let (count, n) := collect
        { n with readBuffer := (n.readBuffer.putByte ⟨c, some n.history.attempts⟩).2 } raw
      (count + 1, n)
  | none :: raw => collect n raw

def ipRead (n : Bg96Network) (len : Int) (x : DataExchange) : Nat × Bg96Network :=
  let n := n.sendCommand
    (printf (cmdQIRD ++ printInt n.connectionNumber ++ [comma] ++ printInt len ++ [carriageReturn]))
  if x.sent then
    let n := n.handleLines x.before
    let avail := if x.ok then announced x.response else -1
    let (rb, n) := n.collect (x.raw.take avail.toNat)
    (rb, n.handleLines x.after)
  else (0, n.handleLines x.after)

/-- A pass of the loop of `read`, with what the modem says if it is asked. -/
structure DataPass extends Pass where
  answer : DataExchange := {}
  deriving DecidableEq, Repr

/-- The loop of `read`; `bytes` counts what has come in. The clock decides how often
the loop is entered. -/
def readLoop (reqLen timeout : Nat) : List DataPass → Nat → Bg96Network → Nat × Bg96Network
  | [], bytes, n => (bytes, n)
  | p :: passes, bytes, n =>
      if readInterval < min timeout p.remaining ∧ n.readBuffer.size < reqLen then
        let n := n.handleLines p.lines
        if n.bytesAvail ≠ 0 then
          let (rb, n) := n.ipRead (reqLen - bytes) p.answer
          readLoop reqLen timeout passes (bytes + rb) { n with bytesAvail := 0 }
        else readLoop reqLen timeout passes bytes n
      else (bytes, n)

/-- The octets that are served, at most so many. -/
def serve : Nat → Bg96Network → List Octet × Bg96Network
  | 0, n => ([], n)
  | count + 1, n =>
      match n.readBuffer.getByte with
      | (some octets, buffer) =>
          let (rest, n) := serve count { n with readBuffer := buffer }
          (octets ++ rest, n)
      | (none, _) => ([], n)

/-- `read(buffer, len, timeout_ms)`: the count and what is copied to the buffer.
The modem is asked first unless it has told of data. -/
def read (n : Bg96Network) (len : Int) (timeout : Nat) (first : DataExchange)
    (passes : List DataPass) : Int × List Octet × Bg96Network :=
  let bytes := n.readBuffer.size
  if len < 0 then (-1, [], n)
  else
    let reqLen := len.toNat
    let (rb, n) :=
      if n.bytesAvail = 0 then
        let (rb, n) := n.ipRead reqLen first
        (rb, { n with bytesAvail := 0 })
      else (0, n)
    let (bytes, n) := readLoop reqLen timeout passes (bytes + rb) n
    if 0 < bytes then
      let (octets, n) := n.serve reqLen
      (octets.length, octets,
        { n with history := n.history.log (.delivered n.history.opened octets) })
    else (-1, [], n)

/-! ## Runs -/

/-- The calls of the object, and the lines that come in while others talk to the
modem. -/
inductive Call where
  | connect (hostname : Bytes) (port : Nat) (x : OpenExchange)
  | disconnect (x : Exchange)
  | write (data : Bytes) (x : Exchange)
  | read (len : Int) (timeout : Nat) (first : DataExchange) (passes : List DataPass)
  | urc (lines : List Bytes)
  deriving DecidableEq, Repr

def exec (n : Bg96Network) : Call → Bg96Network
  | .connect hostname port x => (n.connect hostname port x).2
  | .disconnect x => (n.disconnect x).2
  | .write data x => (n.write data x).2
  | .read len timeout first passes => (n.read len timeout first passes).2.2
  | .urc lines => n.handleLines lines

def run (n : Bg96Network) (calls : List Call) : Bg96Network := calls.foldl exec n

end Bg96Network

end LibNbiot
