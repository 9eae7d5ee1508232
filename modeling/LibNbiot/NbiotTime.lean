/-
# The millisecond clock

The clock is a second count and the milliseconds of the current second, driven by
`tick()` from an interrupt. From the frequency of the ticks the clock derives how
many milliseconds a tick is worth, or how many ticks a millisecond takes, in whole
numbers. The frequency is set once, when the core library is configured.
-/

import LibNbiot.Timer
import LibNbiot.Topic

namespace LibNbiot

/-- `ONE_KHZ`. -/
def oneKHz : Nat := 1000

/-- `CLOCKS_PER_SEC` of a POSIX system. -/
def clocksPerSec : Nat := 1000000

/-- `NbiotTime`, with the data of `NbiotTime_t`. -/
structure NbiotTime where
  timestamp : Int := 0
  millis : Nat := 0
  ticksPerMs : Nat := 1
  msPerTick : Nat := 1
  ticksCurrentMilli : Nat := 0
  tickLock : Bool := false
  deriving DecidableEq, Repr

namespace NbiotTime

def setTickFrequency (t : NbiotTime) (ticks : Nat) : NbiotTime :=
  let ticks := if ticks = 0 then clocksPerSec else ticks
  if oneKHz ≤ ticks then { t with ticksPerMs := toUShort ↑(ticks / oneKHz), msPerTick := 0 }
  else { t with msPerTick := toUShort ↑(oneKHz / ticks), ticksPerMs := 0 }

def getMinDelay (t : NbiotTime) : Nat := if t.msPerTick = 0 then 1 else t.msPerTick

def getMillis (t : NbiotTime) : Int := toLongLong (t.timestamp * oneKHz + t.millis)

def addMillis (t : NbiotTime) (ms : Nat) : NbiotTime :=
  let millis := toLongLong (t.getMillis + ms)
  { t with timestamp := millis.tdiv oneKHz, millis := toUShort (millis.tmod oneKHz) }

def getTime (t : NbiotTime) : Int := t.timestamp

/-- The ticks are locked out meanwhile. -/
def setTime (t : NbiotTime) (time : Int) : NbiotTime :=
  { t with timestamp := time, millis := 0, tickLock := false }

/-- The milliseconds that a tick adds. -/
def count (t : NbiotTime) : NbiotTime :=
  if 0 < t.msPerTick then { t with millis := toUShort ↑(t.millis + t.msPerTick) }
  else if 1 < t.ticksPerMs then
    let ticks := toUShort ↑(t.ticksCurrentMilli + 1)
    if t.ticksPerMs ≤ ticks then
      { t with millis := toUShort ↑(t.millis + 1), ticksCurrentMilli := 0 }
    else { t with ticksCurrentMilli := ticks }
  else { t with millis := toUShort ↑(t.millis + 1) }

/-- A full second is carried over. -/
def carry (t : NbiotTime) : NbiotTime :=
  if oneKHz ≤ t.millis then
    { t with
      timestamp := toLongLong (t.timestamp + 1)
      millis := toUShort ↑(t.millis - oneKHz) }
  else t

def tick (t : NbiotTime) : NbiotTime := if t.tickLock then t else t.count.carry

/-- The clock after so many ticks. -/
def ticks (t : NbiotTime) (n : Nat) : NbiotTime := tick^[n] t

end NbiotTime

/-! ## Configuration -/

/-- A function of the application, by its address. -/
structure FunctionPointer where
  address : Nat
  deriving DecidableEq, Repr

/-- `NbiotCoreConf`: a null pointer is `none`. -/
structure NbiotCoreConf where
  tickFrequency : Nat := 1000
  readstatusFu : Option FunctionPointer := none
  readbyteFu : Option FunctionPointer := none
  putcharFu : Option FunctionPointer := none
  writestatusFu : Option FunctionPointer := none
  apn : Option Bytes := none
  apnUser : Option Bytes := none
  apnPwd : Option Bytes := none
  plmn : Option Bytes := none
  deriving DecidableEq, Repr

def coreNoError : Nat := 0

def coreErrorTickFreq : Nat := 1

def coreErrorReadStatusFu : Nat := 2

def coreErrorReadByteFu : Nat := 4

def coreErrorPutCharFu : Nat := 16

def coreErrorWriteStatusFu : Nat := 32

def coreErrorMultipleConfig : Nat := 16384

def coreErrorNoConfig : Nat := 32768

/-- `FIFTY_HZ`. -/
def fiftyHz : Nat := 50

/-- `TEN_KHZ`. -/
def tenKHz : Nat := 10000

/-- What `NbiotCoreApp` configures: its clock, its serial port and its modem. -/
structure NbiotCoreApp where
  time : NbiotTime := {}
  serialReadStatus : Option FunctionPointer := none
  serialReadByte : Option FunctionPointer := none
  serialPutChar : Option FunctionPointer := none
  serialWriteStatus : Option FunctionPointer := none
  apn : Bytes := []
  apnUser : Bytes := []
  apnPwd : Bytes := []
  plmn : Bytes := []
  coreConfigError : Nat := coreErrorNoConfig
  deriving DecidableEq, Repr

namespace NbiotCoreApp

/-- The error bit of a setting that is refused. -/
def refused (accepted : Prop) [Decidable accepted] (error : Nat) : Nat :=
  if accepted then coreNoError else error

/-- A text that replaces the present one unless it is null or empty. -/
def unlessEmpty (text : Option Bytes) (present : Bytes) : Bytes :=
  match text.map cString with
  | some (c :: s) => c :: s
  | _ => present

/-- `FIFTY_HZ <= tickFrequency` and `TEN_KHZ >= tickFrequency`. -/
def TickFreqValid (conf : NbiotCoreConf) : Prop :=
  fiftyHz ≤ conf.tickFrequency ∧ conf.tickFrequency ≤ tenKHz

instance (conf : NbiotCoreConf) : Decidable (TickFreqValid conf) :=
  inferInstanceAs (Decidable (_ ∧ _))

/-- `nbiotCoreConfig`: the first call counts, whatever its result. An APN that is
not null is taken even if it is empty. -/
def nbiotCoreConfig (app : NbiotCoreApp) (conf : NbiotCoreConf) : Nat × NbiotCoreApp :=
  if app.coreConfigError = coreErrorNoConfig then
    let result := coreNoError ||| refused (TickFreqValid conf) coreErrorTickFreq |||
      refused conf.readstatusFu.isSome coreErrorReadStatusFu |||
      refused conf.readbyteFu.isSome coreErrorReadByteFu |||
      refused conf.putcharFu.isSome coreErrorPutCharFu |||
      refused conf.writestatusFu.isSome coreErrorWriteStatusFu
    (result,
      { time :=
          if TickFreqValid conf then app.time.setTickFrequency conf.tickFrequency else app.time
        serialReadStatus := conf.readstatusFu <|> app.serialReadStatus
        serialReadByte := conf.readbyteFu <|> app.serialReadByte
        serialPutChar := conf.putcharFu <|> app.serialPutChar
        serialWriteStatus := conf.writestatusFu <|> app.serialWriteStatus
        apn := (conf.apn.map cString).getD app.apn
        apnUser := unlessEmpty conf.apnUser app.apnUser
        apnPwd := unlessEmpty conf.apnPwd app.apnPwd
        plmn := unlessEmpty conf.plmn app.plmn
        coreConfigError := result })
  else (coreErrorMultipleConfig, app)

end NbiotCoreApp

end LibNbiot
