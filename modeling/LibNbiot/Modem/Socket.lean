/-
# Sockets of a modem

What the modem classes have in common: the answers of a modem, the lines that
come in unasked meanwhile, and a history of the socket that no definition reads
back. In it every octet remembers the connect that it came in after, so that the
octets of one socket can be told from those of another.
-/

import LibNbiot.Modem.Strings
import LibNbiot.Modem.UrcFilter
import LibNbiot.Modem.CircularBuffer

namespace LibNbiot

/-- A received byte. Its origin is the number of connects that had been tried when
it came in; a byte that did not come in has none, and its value is not known. -/
structure Octet where
  value : UInt8
  origin : Option Nat
  deriving DecidableEq, Repr

/-- What is read where nothing was written. -/
def Octet.unknown : Octet := ⟨0, none⟩

/-- What happens to the bytes of a socket. -/
inductive SocketEvent where
  /-- A datagram came in: the bytes that were waiting, the announced count and the
  bytes of the line. -/
  | datagram (waiting count length : Nat)
  /-- A read ends with so many bytes of those that are available. -/
  | lastBytes (available wanted : Nat)
  /-- The socket was opened again: the bytes that were waiting. -/
  | reopened (waiting : Nat)
  /-- A read delivered octets; the connect that opened the socket again. -/
  | delivered (opened : Option Nat) (octets : List Octet)
  deriving DecidableEq, Repr

/-- The history of a socket object: the connects that were tried, whether a
disconnect has succeeded since the last connect that did, and the last connect
that succeeded after such a disconnect. -/
structure SocketHistory where
  attempts : Nat := 0
  closed : Bool := false
  opened : Option Nat := none
  events : List SocketEvent := []
  deriving DecidableEq, Repr

namespace SocketHistory

def log (h : SocketHistory) (e : SocketEvent) : SocketHistory := { h with events := e :: h.events }

def attempt (h : SocketHistory) : SocketHistory := { h with attempts := h.attempts + 1 }

/-- A connect has succeeded that found so many bytes waiting. -/
def connected (h : SocketHistory) (waiting : Nat) : SocketHistory :=
  if h.closed then
    { h with
      closed := false
      opened := some h.attempts
      events := .reopened waiting :: h.events }
  else h

def disconnected (h : SocketHistory) : SocketHistory := { h with closed := true }

end SocketHistory

/-- The handler of a filter: the object itself or someone else. -/
inductive UrcHandler where
  | network
  | other (handler : Nat)
  deriving DecidableEq, Repr

/-- What the modem does about a command. -/
structure Exchange where
  /-- The command was sent without an error. -/
  sent : Bool := true
  /-- The expected reply came in. -/
  ok : Bool := true
  response : Bytes := []
  /-- The lines that came in before it. -/
  before : List Bytes := []
  /-- The lines that came in behind it, until nothing did for a second. -/
  after : List Bytes := []
  deriving DecidableEq, Repr

/-- A pass of a waiting loop: the time that is left, and the lines that come in. -/
structure Pass where
  remaining : Nat
  lines : List Bytes := []
  deriving DecidableEq, Repr

/-- A text that `Printf` makes; one that does not fit its buffer is empty. -/
def printf (s : Bytes) : Bytes := if 0 < s.length ∧ s.length < 80 then s else []

end LibNbiot
