/-
# The socket of the BC95

`Network` of `BC95-G_BC68_B300SP2/network.cpp`. The modem announces a datagram by
a line that carries it in hexadecimal digits; the handler of the line puts the
bytes into a ring buffer and keeps their number in a counter beside it, and a
read takes as many bytes as the counter says.

A computation is `none` where the behaviour of the source is not defined.
-/

import LibNbiot.Timer
import LibNbiot.Modem.Socket

namespace LibNbiot

/-- `Network` of the BC95. -/
structure Bc95Network where
  filters : UrcFilterList UrcHandler := []
  connectionNumber : Int := -1
  hostname : Bytes := []
  port : Nat := 0
  bytesAvail : Nat := 0
  nsonmi : Bytes := []
  lastListenPort : Nat := 10000
  buffer : CircularBuffer Octet 512
  /-- The commands that were sent. -/
  commands : List Bytes := []
  history : SocketHistory := {}
  deriving DecidableEq, Repr

namespace Bc95Network

def maxSocket : Int := 7

def listenPortBase : Nat := 10001

def readInterval : Nat := 250

/-- `"AT+NSOCR=DGRAM,17,"`. -/
def cmdNSOCR : Bytes := [65, 84, 43, 78, 83, 79, 67, 82, 61, 68, 71, 82, 65, 77, 44, 49, 55, 44]

/-- `"+NSONMI:"`. -/
def respNSONMI : Bytes := [43, 78, 83, 79, 78, 77, 73, 58]

/-- `"AT+NSOST="`. -/
def cmdNSOST : Bytes := [65, 84, 43, 78, 83, 79, 83, 84, 61]

/-- `"AT+NSOCL="`. -/
def cmdNSOCL : Bytes := [65, 84, 43, 78, 83, 79, 67, 76, 61]

def comma : UInt8 := 44

def colon : UInt8 := 58

def quote : UInt8 := 34

def carriageReturn : UInt8 := 13

/-- A freshly constructed object; the constructor clears the filters. The array of
the ring buffer holds what was there before. -/
def fresh (array : List Octet) : Bc95Network := { buffer := ⟨array, 0, 0, false⟩ }

def isConnected (n : Bc95Network) : Bool := 0 ≤ n.connectionNumber

def sendCommand (n : Bc95Network) (command : Bytes) : Bc95Network :=
  { n with commands := n.commands ++ [command] }

/-! ## Incoming datagrams -/

/-- The octets at a pointer to the decoded bytes: what lies behind them is not
known. -/
def octetsAt (n : Bc95Network) (decoded : Bytes) (count : Nat) : List Octet :=
  (decoded.map fun c => ⟨c, some n.history.attempts⟩).take count ++
    List.replicate (count - decoded.length) .unknown

/-- The datagram of a line for the open socket, with the counter that the line
announces. -/
def receive (n : Bc95Network) (count : Nat) (decoded : Bytes) : Bc95Network :=
  let capacity := n.buffer.capacity
  let bytesAvail := if capacity < count then capacity else count
  { n with
    bytesAvail := bytesAvail
    buffer := (n.buffer.put (n.octetsAt decoded bytesAvail)).2
    history := n.history.log (.datagram n.buffer.size count decoded.length) }

/-- The number of a socket behind the colon of a line's first piece. Without a
colon the position is one behind `npos`, that is zero. -/
def socketNumber (first : Bytes) : Int :=
  match findChar first colon with
  | some pos => atoi (substr first (pos + 1) none)
  | none => atoi first

def parseFilterResult (n : Bc95Network) (line : Bytes) : Option Bc95Network :=
  match splitChar line comma with
  | [first, count, hex] =>
      if n.connectionNumber = socketNumber first then
        let bytesAvail := (atoi count % sizeMod).toNat
        if 0 < bytesAvail then (strip hex quote).map fun digits => n.receive bytesAvail (fromHex digits)
        else some { n with
          bytesAvail := bytesAvail
          history := n.history.log (.datagram n.buffer.size 0 0) }
      else some n
  | _ => some n

/-- A line goes to the handler of the first filter that it begins with; without
one it is somebody else's. -/
def handleLine (n : Bc95Network) (line : Bytes) : Option Bc95Network :=
  match UrcFilterList.handlerOf n.filters line with
  | some .network => n.parseFilterResult line
  | _ => some n

def handleLines (n : Bc95Network) (lines : List Bytes) : Option Bc95Network :=
  lines.foldlM handleLine n

/-! ## Connect and disconnect -/

/-- The port to listen at: every socket has its own. -/
def listenPort (n : Bc95Network) : Nat :=
  if 0 ≤ n.connectionNumber ∧ n.connectionNumber < maxSocket then
    listenPortBase + n.connectionNumber.toNat
  else n.lastListenPort

/-- The modem is asked for a socket. -/
def askForSocket (n : Bc95Network) (x : Exchange) : Option Bc95Network :=
  let n := { n with history := n.history.attempt }
  let n := n.sendCommand (printf (cmdNSOCR ++ decimal n.listenPort ++ [carriageReturn]))
  if x.sent then n.handleLines x.before else some n

/-- What connect makes of the reply. -/
def assignSocket (n : Bc95Network) (hostname : Bytes) (port listenPort : Nat) (x : Exchange) :
    Bool × Bc95Network :=
  if x.sent ∧ x.ok then
    let number := atoi x.response
    if 0 ≤ number ∧ number < maxSocket then
      (true, { n with
        connectionNumber := number
        hostname := cString hostname
        port := port
        lastListenPort := listenPort })
    else (false, { n with connectionNumber := -1, hostname := [], port := 0 })
  else (false, n)

/-- The filter for the datagrams of the socket. -/
def listen (n : Bc95Network) (waiting : Nat) : Bc95Network :=
  let nsonmi := printf (respNSONMI ++ printInt n.connectionNumber ++ [comma])
  { n with
    nsonmi := nsonmi
    filters := (UrcFilterList.addUrcFilter n.filters nsonmi .network).2
    history := n.history.connected waiting }

def connect (n : Bc95Network) (hostname : Bytes) (port : Nat) (x : Exchange) :
    Option (Bool × Bc95Network) := do
  let asked ← n.askForSocket x
  let assigned := asked.assignSocket hostname port n.listenPort x
  let n' ← assigned.2.handleLines x.after
  return (assigned.1, if assigned.1 then n'.listen n.buffer.size else n')

/-- The modem is asked to close the socket, if there is one. -/
def askToClose (n : Bc95Network) (x : Exchange) : Option Bc95Network :=
  if n.isConnected then
    let n := n.sendCommand (printf (cmdNSOCL ++ printInt n.connectionNumber ++ [carriageReturn]))
    if x.sent then n.handleLines x.before else some n
  else some n

def forgetSocket (n : Bc95Network) : Bc95Network :=
  { n with
    hostname := []
    port := 0
    connectionNumber := -1
    filters := (UrcFilterList.removeUrcFilter n.filters n.nsonmi).2
    nsonmi := []
    history := n.history.disconnected }

def disconnect (n : Bc95Network) (x : Exchange) : Option (Bool × Bc95Network) := do
  let ret := !n.isConnected || (x.sent && x.ok)
  let asked ← n.askToClose x
  let n' ← (if ret then asked.forgetSocket else asked).handleLines x.after
  return (ret, n')

/-- `"AT+NSOST=%d,%s,%d,%d,"`; the length is an `unsigned long` that is printed as an
`int`. -/
def headNSOST (n : Bc95Network) (len : Nat) : Bytes :=
  cmdNSOST ++ printInt n.connectionNumber ++ [comma] ++ n.hostname ++ [comma] ++ decimal n.port ++
    [comma] ++ printInt (toCInt len) ++ [comma]

/-- The datagram is handed to the modem, if there is somebody to send it to. -/
def sendData (n : Bc95Network) (data : Bytes) (x : Exchange) : Option Bc95Network :=
  if n.hostname ≠ [] ∧ 0 < n.port then
    let head := printf (n.headNSOST data.length)
    let n := n.sendCommand (head ++ toHex data ++ [carriageReturn])
    if x.sent then n.handleLines x.before else some n
  else some n

def write (n : Bc95Network) (data : Bytes) (x : Exchange) : Option (Bool × Bc95Network) := do
  let sent ← n.sendData data x
  let n' ← sent.handleLines x.after
  return (n.hostname ≠ [] ∧ 0 < n.port ∧ x.sent ∧ x.ok, n')

/-! ## Reading -/

def ipAvailable (n : Bc95Network) : Nat := n.bytesAvail % 2 ^ 16

/-- One `get` of the ring buffer and one step of the counter: neither asks whether
there is a byte. -/
def takeByte (n : Bc95Network) : Octet × Bc95Network :=
  (((n.buffer.getByte.1.getD []).headD .unknown),
    { n with
      buffer := n.buffer.getByte.2
      bytesAvail := decrement n.bytesAvail })

def takeBytes : Nat → Bc95Network → List Octet × Bc95Network
  | 0, n => ([], n)
  | count + 1, n =>
      let (octet, n) := n.takeByte
      let (octets, n) := takeBytes count n
      (octet :: octets, n)

/-- The variables of `read`: the bytes that are available, and those that have been
read. -/
structure Reading where
  network : Bc95Network
  dgmLen : Nat
  data : List Octet := []

/-- The loop of `read`. The clock decides how often it is entered. -/
def readLoop (reqLen timeout : Nat) : List Pass → Reading → Option Reading
  | [], r => some r
  | p :: passes, r =>
      if readInterval < min timeout p.remaining ∧ r.data.length < reqLen then do
        let n ← r.network.handleLines p.lines
        let dgmLen := n.ipAvailable
        if dgmLen = 0 then readLoop reqLen timeout passes { r with network := n, dgmLen := 0 }
        else if reqLen ≤ dgmLen + r.data.length then some { r with network := n, dgmLen := dgmLen }
        else
          let (octets, n) := n.takeBytes dgmLen
          readLoop reqLen timeout passes { network := n, dgmLen := 0, data := r.data ++ octets }
      else some r

def readRest (reqLen : Nat) (r : Reading) : List Octet × Bc95Network :=
  if 0 < r.dgmLen ∧ r.data.length < reqLen then
    let wanted := reqLen - r.data.length
    let n := { r.network with history := r.network.history.log (.lastBytes r.dgmLen wanted) }
    let (octets, n) := n.takeBytes wanted
    (r.data ++ octets, n)
  else (r.data, r.network)

/-- `read(buffer, len, timeout_ms)`: the count and what is copied to the buffer. -/
def read (n : Bc95Network) (len : Int) (timeout : Nat) (passes : List Pass) :
    Option (Int × List Octet × Bc95Network) :=
  if len < 0 then some (-1, [], n)
  else do
    let r ← readLoop len.toNat timeout passes ⟨n, n.ipAvailable, []⟩
    let (octets, n) := readRest len.toNat r
    return (octets.length, octets,
      { n with history := n.history.log (.delivered n.history.opened octets) })

/-! ## Runs -/

/-- The calls of the object, and the lines that come in while others talk to the
modem. -/
inductive Call where
  | connect (hostname : Bytes) (port : Nat) (x : Exchange)
  | disconnect (x : Exchange)
  | write (data : Bytes) (x : Exchange)
  | read (len : Int) (timeout : Nat) (passes : List Pass)
  | urc (lines : List Bytes)
  deriving DecidableEq, Repr

/-- The lines that come in during a call. -/
def Call.incoming : Call → List Bytes
  | .connect _ _ x => x.before ++ x.after
  | .disconnect x => x.before ++ x.after
  | .write _ x => x.before ++ x.after
  | .read _ _ passes => passes.flatMap (·.lines)
  | .urc lines => lines

def exec (n : Bc95Network) : Call → Option Bc95Network
  | .connect hostname port x => (n.connect hostname port x).map (·.2)
  | .disconnect x => (n.disconnect x).map (·.2)
  | .write data x => (n.write data x).map (·.2)
  | .read len timeout passes => (n.read len timeout passes).map (·.2.2)
  | .urc lines => n.handleLines lines

def run (n : Bc95Network) (calls : List Call) : Option Bc95Network := calls.foldlM exec n

end Bc95Network

end LibNbiot
