/-
# The operations of the modem classes

`ModemBase` and the `Modem` classes of the supported modules, as programs over the
serial port. Most of them send a command, wait for its answer, and then read on for
a second, so that nothing of the answer is left over for the next operation.
-/

import LibNbiot.Modem.ModemBase
import LibNbiot.Modem.Port
import LibNbiot.Modem.Socket

namespace LibNbiot

open Logic

/-- The bytes of a text. -/
def ascii (text : String) : Bytes := text.toList.map fun c => UInt8.ofNat c.toNat

/-- The handlers of the modem classes, and those of others. -/
inductive ModemUrc where
  | parseCeregUrc
  | parseNpsmrUrc
  | parseCsconUrc
  | other (handler : Nat)
  deriving DecidableEq, Repr

/-- `IModem::ModemState`. -/
inductive ModemState where
  | off
  | on
  deriving DecidableEq, Repr

abbrev ModemDriver (α : Type) := Driver ModemUrc α

open Driver

/-! ## The base class -/

namespace ModemBase

def cmdCEREG5 : Bytes := ascii "AT+CEREG=5"

def cmdCIMI : Bytes := ascii "AT+CIMI"

def cmdCGATT0 : Bytes := ascii "AT+CGATT=0"

def cmdCGATTquery : Bytes := ascii "AT+CGATT?"

def respCGATTquery : Bytes := ascii "+CGATT:"

def cmdCFUN1 : Bytes := ascii "AT+CFUN=1"

def cmdCFUNquery : Bytes := ascii "AT+CFUN?"

def respCFUNquery : Bytes := ascii "+CFUN:"

def quote : UInt8 := 34

/-- The end of a command that `Printf` makes. -/
def endOfCommand : Bytes := [Serial.carriageReturn]

/-- `AT+CGDCONT=1,"IP","%s"` with a carriage return. -/
def cmdCGDCONT (apn : Bytes) : Bytes :=
  printf (ascii "AT+CGDCONT=1," ++ [quote] ++ ascii "IP" ++ [quote, comma, quote] ++ cString apn ++
    [quote] ++ endOfCommand)

/-- `AT+COPS=1,2,"%s"` with a carriage return. -/
def cmdCOPS (plmn : Bytes) : Bytes :=
  printf (ascii "AT+COPS=1,2," ++ [quote] ++ cString plmn ++ [quote] ++ endOfCommand)

/-- `AT+CFUN=%d` with a carriage return. -/
def cmdCFUN (state : ModemState) : Bytes :=
  printf (ascii "AT+CFUN=" ++ printInt (if state = .on then 1 else 0) ++ endOfCommand)

def halfSecond : Nat := 500
def oneSecond : Nat := 1000
def threeSeconds : Nat := 3000
def tenSeconds : Nat := 10000
def sixtySeconds : Nat := 60000
def sixtyfiveSeconds : Nat := 65000

/-- A step that is only done if all went well before it. -/
def ifOk (ok : Bool) (step : ModemDriver Bool) : ModemDriver Bool := if ok then step else pure false

/-- `readResponse(REPLY_IGNORE, oneSecond)`. -/
def ignoreRest : ModemDriver Unit := do
  let _ ← readResponse .ignore oneSecond
  return ()

/-- `readResponse(REPLY_OK, timeout)`. -/
def replyOk (timeout : Nat) : ModemDriver Bool := do return (← readResponse .ok timeout).1

/-- `readUntil(respOK, timeout)`. -/
def untilOk (timeout : Nat) : ModemDriver Bool := do return (← readUntil okReply timeout).1

/-- A command that is answered by OK, and nothing behind it is left. -/
def command (cmd : Bytes) (timeout : Nat) : ModemDriver Bool := do
  let ret ← ifOk (← sendString cmd) (replyOk timeout)
  ignoreRest
  return ret

/-- A command that is waited for until there is an OK. -/
def acknowledged (cmd : Bytes) (timeout : Nat) : ModemDriver Bool := do
  ifOk (← sendCommand cmd) (untilOk timeout)

/-- The number behind the first colon of a response, if there is anything. -/
def numberIn (response : Bytes) : Option Int :=
  let response := cString response
  match findChar response colon with
  | some pos =>
      let number := (response.drop (pos + 1)).dropWhile (· = space)
      if number ≠ [] then some (atoi number) else none
  | none => none

/-- A query for a number. -/
def query (command expected : Bytes) : ModemDriver (Option Int) := do
  let number ←
    if ← sendCommand command then do
      let (found, response) ← readUntil expected tenSeconds
      pure (if found then numberIn response else none)
    else pure none
  ignoreRest
  return number

/-- `attach()`. -/
def attach (plmn : Bytes) : ModemDriver Bool := command (cmdCOPS plmn) tenSeconds

/-- `detach()`. -/
def detach : ModemDriver Bool := command (AtCommands.commandLine cmdCGATT0) tenSeconds

/-- `getAttachState()`. -/
def getAttachState : ModemDriver Int := do
  return (← query cmdCGATTquery respCGATTquery).getD (-1)

/-- `isAttached()`. -/
def isAttached : ModemDriver Bool := do return (← getAttachState) = 1

/-- `getImsi(imsi)`: what is returned, and the string behind it. -/
def getImsi (imsi : Bytes) : ModemDriver (Bool × Bytes) := do
  let (ret, imsi) ←
    if ← sendCommand cmdCIMI then do
      let (ok, response) ← readResponse .any threeSeconds
      pure (if ok then (true, cString response) else (false, imsi))
    else pure (false, imsi)
  ignoreRest
  return (ret, imsi)

/-- `getDeviceId()`, which is what `m_deviceId` is then. -/
def getDeviceId (deviceId : Bytes) : ModemDriver Bytes := do
  if deviceId.isEmpty then
    return (← getImsi deviceId).2
  else
    return deviceId

/-- `isModemOn()`. -/
def isModemOn : ModemDriver ModemState := do
  match ← query cmdCFUNquery respCFUNquery with
  | some number => return if number = 0 then .off else .on
  | none => return .off

/-- `switchModem(state)`. -/
def switchModem (state : ModemState) : ModemDriver ModemState := do
  let ret ← isModemOn
  if ret ≠ state then
    return if ← command (cmdCFUN state) tenSeconds then state else ret
  else
    return ret

/-- `setupCeregUrc()`. -/
def setupCeregUrc : ModemDriver Bool := do
  let ok ← acknowledged cmdCEREG5 tenSeconds
  if ok then
    let _ ← addUrcFilter respCEREG .parseCeregUrc
  return ok

/-- The restart command of the modules that have one. -/
def cmdNRB : Bytes := ascii "AT+NRB"

/-- The beginning that `initialize()` has in all modem classes. -/
def switchOn : ModemDriver Bool := do
  let ok ← acknowledged cmdCFUN1 tenSeconds
  ignoreRest
  ifOk ok do return (← isModemOn) ≠ .off

/-- The context that `initialize()` defines for an access point. -/
def defineContext (ok : Bool) (apn : Bytes) : ModemDriver Bool := do
  let ok ← ifOk ok do ifOk (← sendString (cmdCGDCONT apn)) (replyOk halfSecond)
  ignoreRest
  return ok

end ModemBase

/-! ## The modem classes -/

open ModemBase

/-! `Modem` of BC95-G, BC68 and B300SP2. -/

namespace Bc95Modem

def cmdNSONMI3 : Bytes := ascii "AT+NSONMI=3"

def cmdCEDRXS0 : Bytes := ascii "AT+CEDRXS=0,5"

def cmdNPSMR1 : Bytes := ascii "AT+NPSMR=1"

def respNPSMR : Bytes := ascii "+NPSMR:"

def cmdCSCON1 : Bytes := ascii "AT+CSCON=1"

def respCSCON : Bytes := ascii "+CSCON:"

def cmdQREGSWT2 : Bytes := ascii "AT+QREGSWT=2"

def cmdQREGSWTquery : Bytes := ascii "AT+QREGSWT?"

def respQREGSWTquery : Bytes := ascii "+QREGSWT:"

def cmdCOPS0 : Bytes := ascii "AT+COPS=0"

/-- `checkQRegSwt()`. -/
def checkQRegSwt : ModemDriver Bool := do
  return (← query cmdQREGSWTquery respQREGSWTquery) = some 2

/-- `setQRegSwt2()`. -/
def setQRegSwt2 : ModemDriver Bool := do
  let ok ← acknowledged cmdQREGSWT2 tenSeconds
  ignoreRest
  return ok

/-- `reboot()`. The modem is restarted even if its mode could not be set. -/
def reboot : ModemDriver Bool := do
  let ok ← if ← checkQRegSwt then pure true else setQRegSwt2
  let sent ← sendCommand cmdNRB
  let ok ← ifOk (ok && sent) (untilOk sixtyfiveSeconds)
  ignoreRest
  return ok

/-- `initialize()`. -/
def initializeModem : ModemDriver Bool := do
  let ok ← switchOn
  let ok ← ifOk ok (acknowledged cmdNSONMI3 tenSeconds)
  let ok ← ifOk ok (acknowledged cmdCEDRXS0 tenSeconds)
  ignoreRest
  return ok

/-- `attach()`. -/
def attach : ModemDriver Bool := command (AtCommands.commandLine cmdCOPS0) tenSeconds

/-- `setupPmUrcs()`. -/
def setupPmUrcs : ModemDriver Bool := do
  let ok ← acknowledged cmdNPSMR1 tenSeconds
  let ok ← ifOk ok (acknowledged cmdCSCON1 tenSeconds)
  if ok then
    let _ ← addUrcFilter respNPSMR .parseNpsmrUrc
    let _ ← addUrcFilter respCSCON .parseCsconUrc
  return ok

end Bc95Modem

/-! `Modem` of SARA-N2XX, with either firmware. -/

namespace SaraModem

/-- `reboot()`. -/
def reboot : ModemDriver Bool := do
  let ok ← acknowledged cmdNRB sixtyfiveSeconds
  ignoreRest
  return ok

/-- `initialize()`. -/
def initializeModem (apn : Bytes) : ModemDriver Bool := do defineContext (← switchOn) apn

end SaraModem

/-! `Modem` of BG96. -/

namespace Bg96Modem

def cmdCGATT1 : Bytes := ascii "AT+CGATT=1"

def cmdATE0 : Bytes := ascii "ATE0"

/-- `attach()`. -/
def attach : ModemDriver Bool := command (AtCommands.commandLine cmdCGATT1) sixtySeconds

/-- `reboot()` switches the modem off, if it is on. -/
def reboot : ModemDriver Bool := do
  let _ ← sendCommand cmdATE0
  let _ ← readResponse .ok oneSecond
  let ok ←
    if (← isModemOn) = .on then do
      pure (decide ((← switchModem .off) = .off))
    else pure true
  ignoreRest
  return ok

/-- `initialize()`. -/
def initializeModem (apn : Bytes) : ModemDriver Bool := do defineContext (← switchOn) apn

end Bg96Modem

/-! ## Operations of any modem -/

/-- The module that a build is for. -/
inductive ModemKind where
  | bc95
  | saraB656
  | saraB657
  | bg96
  deriving DecidableEq, Repr

/-- What a modem object is configured with. -/
structure ModemConf where
  kind : ModemKind
  apn : Bytes := []
  plmn : Bytes := []
  deriving DecidableEq, Repr

/-- A call of a member of `IModem`. -/
inductive ModemCall where
  | reboot
  | initializeModem
  | attach
  | detach
  | isAttached
  | getImsi
  | getDeviceId
  | switchModem (state : ModemState)
  | isModemOn
  | setupCeregUrc
  | setupPmUrcs
  deriving DecidableEq, Repr

/-- What a call returns. -/
inductive ModemAnswer where
  | success (ok : Bool)
  | text (ok : Bool) (s : Bytes)
  | state (state : ModemState)
  deriving DecidableEq, Repr

namespace ModemCall

/-- A call on an object with some `m_deviceId`: the answer, and `m_deviceId` behind it. -/
def program (conf : ModemConf) (deviceId : Bytes) : ModemCall → ModemDriver (ModemAnswer × Bytes)
  | .reboot => do
      let ok ← match conf.kind with
        | .bc95 => Bc95Modem.reboot
        | .saraB656 | .saraB657 => SaraModem.reboot
        | .bg96 => Bg96Modem.reboot
      return (.success ok, deviceId)
  | .initializeModem => do
      let ok ← match conf.kind with
        | .bc95 => Bc95Modem.initializeModem
        | .saraB656 | .saraB657 => SaraModem.initializeModem conf.apn
        | .bg96 => Bg96Modem.initializeModem conf.apn
      return (.success ok, deviceId)
  | .attach => do
      let ok ← match conf.kind with
        | .bc95 => Bc95Modem.attach
        | .saraB656 | .saraB657 => ModemBase.attach conf.plmn
        | .bg96 => Bg96Modem.attach
      return (.success ok, deviceId)
  | .detach => do return (.success (← ModemBase.detach), deviceId)
  | .isAttached => do return (.success (← ModemBase.isAttached), deviceId)
  | .getImsi => do
      let (ok, imsi) ← ModemBase.getImsi []
      return (.text ok imsi, deviceId)
  | .getDeviceId => do
      let deviceId ← ModemBase.getDeviceId deviceId
      return (.text true deviceId, deviceId)
  | .switchModem state => do return (.state (← ModemBase.switchModem state), deviceId)
  | .isModemOn => do return (.state (← ModemBase.isModemOn), deviceId)
  | .setupCeregUrc => do return (.success (← ModemBase.setupCeregUrc), deviceId)
  | .setupPmUrcs => do
      let ok ← match conf.kind with
        | .bc95 => Bc95Modem.setupPmUrcs
        | .saraB656 | .saraB657 | .bg96 => pure false
      return (.success ok, deviceId)

end ModemCall

end LibNbiot
