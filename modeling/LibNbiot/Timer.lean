/-
# Countdown timers

A timer holds two readings of the millisecond clock. Every query that needs the
present takes the clock reading as an argument, so a timer is a plain value and
the clock stays with whoever owns it. A timer started at clock value zero looks
cleared, exactly as in the source.
-/

import Mathlib.Data.Int.ModEq

namespace LibNbiot

/-! ## Fixed-width conversions -/

/-- Conversion to `unsigned long`. -/
def toULong (x : Int) : Nat := (x % 2 ^ 64).toNat

/-- Conversion to `long long`. -/
def toLongLong (x : Int) : Int := Int.bmod x (2 ^ 64)

/-- Conversion to `int`. -/
def toCInt (x : Int) : Int := Int.bmod x (2 ^ 32)

/-- Conversion to `unsigned short`. -/
def toUShort (x : Int) : Nat := (x % 2 ^ 16).toNat

/-- Conversion to `unsigned char`. -/
def toUChar (x : Int) : Nat := (x % 2 ^ 8).toNat

/-! ## The timer -/

/-- `nbiot::Timer`: the start and the end of the countdown, zero when unset. -/
structure Timer where
  startMs : Int := 0
  endMs : Int := 0
  deriving DecidableEq, Repr

namespace Timer

/-- `start(end)`: count `duration` milliseconds down from the reading `now`. -/
def startFor (now : Int) (duration : Nat) : Timer where
  startMs := now
  endMs := toLongLong (now + duration)

/-- `start()`: start a countdown preset by `setTime`. -/
def start (t : Timer) (now : Int) : Timer where
  startMs := now
  endMs := toLongLong (t.endMs + now)

/-- `setTime(end)` leaves an earlier start behind. -/
def setTime (t : Timer) (duration : Nat) : Timer := { t with endMs := toLongLong duration }

def getTime (t : Timer) : Nat :=
  if t.startMs ≠ 0 ∧ t.startMs ≤ t.endMs then toULong (t.endMs - t.startMs)
  else toULong t.endMs

def remaining (t : Timer) (now : Int) : Nat :=
  if t.endMs = 0 ∨ t.endMs ≤ now then 0 else toULong (t.endMs - now)

/-- `expired()` looks at the clock twice: once for `remaining()`, and once more
when time is left. -/
def expired (t : Timer) (now later : Int) : Nat :=
  if t.startMs = 0 then 0
  else if t.remaining now = 0 then toULong (t.endMs - t.startMs)
  else toULong (later - t.startMs)

def clear : Timer := {}

def valid (t : Timer) : Bool := t.startMs ≠ 0 ∧ t.endMs ≠ 0

/-- `left_ms()`: the remaining time cut to sixteen bits. -/
def leftMs (t : Timer) (now : Int) : Nat := toUShort (t.remaining now)

@[simp]
theorem valid_clear : clear.valid = false := rfl

end Timer

end LibNbiot
