/-
# Reads from the sockets of the SARA-N2xx

`Network` of `SARA-N2XX-B656/network.cpp` and of `SARA-N2XX-B657SP3/network.cpp`,
as far as reads go. The modem keeps the datagrams: a line tells how many bytes it
has, and a command asks it for some. A reply announces a number of bytes and
carries them in hexadecimal digits; the two classes differ in whether the digits
are in quotes.

A computation is `none` where the behaviour of the source is not defined.
-/

import LibNbiot.Modem.Copying
import LibNbiot.Modem.Socket

namespace LibNbiot

/-- The firmware that a class is for. -/
inductive SaraModel where
  | b656
  | b657sp3
  deriving DecidableEq, Repr

/-- `Network` of a SARA-N2xx, without what only connecting and writing use. -/
structure SaraNetwork where
  filters : UrcFilterList UrcHandler := []
  connectionNumber : Int := -1
  bytesAvail : Nat := 0
  /-- The commands that were sent. -/
  commands : List Bytes := []
  deriving DecidableEq, Repr

/-- A sum in `int`. -/
def addInt (a b : Int) : Option Int :=
  if -(2 ^ 31) ≤ a + b ∧ a + b < 2 ^ 31 then some (a + b) else none

namespace SaraNetwork

def readInterval : Nat := 250

/-- `"AT+NSORF="`. -/
def cmdNSORF : Bytes := [65, 84, 43, 78, 83, 79, 82, 70, 61]

/-- `"OK"`. -/
def respOK : Bytes := [79, 75]

def comma : UInt8 := 44

def quote : UInt8 := 34

def carriageReturn : UInt8 := 13

def sendCommand (n : SaraNetwork) (command : Bytes) : SaraNetwork :=
  { n with commands := n.commands ++ [command] }

/-! ## Unasked lines -/

/-- The number behind the first comma is that of the bytes the modem has. -/
def parseFilterResult (n : SaraNetwork) (line : Bytes) : SaraNetwork :=
  match findChar line comma with
  | some pos => { n with bytesAvail := (atoi (substr line (pos + 1) none) % sizeMod).toNat }
  | none => n

def handleLine (n : SaraNetwork) (line : Bytes) : SaraNetwork :=
  match UrcFilterList.handlerOf n.filters line with
  | some .network => n.parseFilterResult line
  | _ => n

def handleLines (n : SaraNetwork) (lines : List Bytes) : SaraNetwork := lines.foldl handleLine n

def ipAvailable (n : SaraNetwork) : Nat := n.bytesAvail % 2 ^ 16

/-! ## Asking for data -/

/-- The bytes of the data field of a reply. -/
def dataBytes : SaraModel → Bytes → Option Bytes
  | .b656, digits => some (fromHex digits)
  | .b657sp3, digits => (strip digits quote).map fromHex

/-- What `ipRead` makes of a reply: the announced number, the bytes that are appended to
the data, and the object. The bytes are taken only if no more are announced than were
asked for. -/
def takeReply (n : SaraNetwork) (model : SaraModel) (len : Int) (response : Bytes) :
    Option (Int × Bytes × SaraNetwork) :=
  if respOK.isPrefixOf (cString response) then some (0, [], n)
  else match splitChar (cString response) comma with
    | [number, _, _, bytesAvail, digits, bytesRem] =>
        if n.connectionNumber = atoi number then
          let avail := atoi bytesAvail
          if 0 < avail ∧ avail ≤ len then
            (dataBytes model digits).map fun bytes =>
              (avail, bytes, { n with bytesAvail := (atoi bytesRem % sizeMod).toNat })
          else some (avail, [], n)
        else some (-1, [], n)
    | _ => some (-1, [], n)

/-- `ipRead(data, len, timeout_ms)`: the announced number or -1, what is appended to the
data, and the object. -/
def ipRead (n : SaraNetwork) (model : SaraModel) (len : Int) (x : Exchange) :
    Option (Int × Bytes × SaraNetwork) :=
  let n := n.sendCommand
    (printf (cmdNSORF ++ printInt n.connectionNumber ++ [comma] ++ printInt len ++ [carriageReturn]))
  let taken :=
    if x.sent then
      let n := n.handleLines x.before
      if x.ok then n.takeReply model len x.response else some (-1, [], n)
    else some (-1, [], n)
  taken.map fun (avail, bytes, n) => (avail, bytes, n.handleLines x.after)

/-! ## Reading -/

/-- A pass of the loop of `read`, with what the modem says if it is asked. -/
structure AskingPass extends Pass where
  answer : Exchange := {}
  deriving DecidableEq, Repr

/-- The variables of `read`: the bytes that the modem has told of, those that are counted,
and the string of those that were obtained. -/
structure Reading where
  network : SaraNetwork
  dgmLen : Nat := 0
  bytes : Int
  data : Bytes

/-- What `read` ends with: its result, the data, and what is copied to the buffer. -/
structure ReadAnswer where
  rc : Int
  data : Bytes
  written : List Store × Nat
  network : SaraNetwork
  deriving DecidableEq, Repr

/-- `bytes` after a reply. -/
def countReply (bytes rb : Int) : Option Int := if 0 < rb then addInt bytes rb else some bytes

/-- The loop of `read`. The clock decides how often it is entered. -/
def readLoop (model : SaraModel) (reqLen : Int) (timeout : Nat) :
    List AskingPass → Reading → Option Reading
  | [], r => some r
  | p :: passes, r =>
      if readInterval < min timeout p.remaining ∧ r.bytes < reqLen then
        let n := r.network.handleLines p.lines
        let dgmLen := n.ipAvailable
        if dgmLen = 0 then readLoop model reqLen timeout passes { r with network := n, dgmLen := 0 }
        else do
          let sum ← addInt dgmLen r.bytes
          if reqLen ≤ sum then some { r with network := n, dgmLen := dgmLen }
          else
            -- `dgmLen` stays as it is, also behind the loop
            let (rb, bytes, n) ← n.ipRead model dgmLen p.answer
            let count ← countReply r.bytes rb
            readLoop model reqLen timeout passes
              { network := n, dgmLen := dgmLen, bytes := count, data := r.data ++ bytes }
      else some r

/-- The remaining bytes are asked for, if the modem has told of some. -/
def readRest (model : SaraModel) (reqLen : Int) (last : Exchange) (r : Reading) :
    Option (Int × Bytes × SaraNetwork) :=
  if 0 < r.dgmLen ∧ r.bytes < reqLen then do
    let (rb, bytes, n) ← r.network.ipRead model (reqLen - r.bytes) last
    let rc ← addInt rb r.bytes
    return (rc, r.data ++ bytes, n)
  else some (r.bytes, r.data, r.network)

/-- `read(buffer, len, timeout_ms)`. The modem is asked for all of it first, then for what it
tells of while there is time, and last for what is missing. -/
def read (n : SaraNetwork) (model : SaraModel) (len : Int) (timeout : Nat) (first : Exchange)
    (passes : List AskingPass) (last : Exchange) : Option ReadAnswer :=
  if len < 0 then some ⟨-1, [], ([], 0), n⟩
  else do
    let (rb, data, n) ← n.ipRead model len first
    let bytes ← countReply 0 rb
    let r ← readLoop model len timeout passes { network := n, bytes := bytes, data := data }
    let (rc, data, n) ← readRest model len last r
    return ⟨rc, data, copyOut rc data, n⟩

end SaraNetwork

end LibNbiot
