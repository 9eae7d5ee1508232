/-
# The ring buffer

`CircularBuffer<max_size>` of `nbiotcircularbuffer.h`: an array with a head to
write at, a tail to read from and a flag that tells a full buffer from an empty
one. A block goes in and out in one copy, or in two when it meets the end of the
array, with the head or the tail moved after each. The elements are bytes in the
source; nothing depends on that.
-/

import Mathlib.Data.List.Basic

namespace LibNbiot

/-- `memcpy` of a block to an offset of an array. -/
def memcpyTo {α : Type} (array : List α) (offset : Nat) (data : List α) : List α :=
  array.take offset ++ data ++ array.drop (offset + data.length)

/-- `memcpy` of so many elements from an offset of an array. -/
def memcpyFrom {α : Type} (array : List α) (offset len : Nat) : List α :=
  (array.drop offset).take len

/-- `CircularBuffer<max_size>`. -/
structure CircularBuffer (α : Type) (maxSize : Nat) where
  buffer : List α
  head : Nat := 0
  tail : Nat := 0
  full : Bool := false
  deriving DecidableEq, Repr

namespace CircularBuffer

variable {α : Type} {maxSize : Nat}

def reset (b : CircularBuffer α maxSize) : CircularBuffer α maxSize :=
  { b with head := 0, tail := 0, full := false }

def empty (b : CircularBuffer α maxSize) : Bool := !b.full && b.head = b.tail

def size (b : CircularBuffer α maxSize) : Nat :=
  if b.full then maxSize
  else if b.tail ≤ b.head then b.head - b.tail
  else maxSize + b.head - b.tail

def capacity (b : CircularBuffer α maxSize) : Nat := maxSize - b.size

def advance (b : CircularBuffer α maxSize) (count : Nat) : CircularBuffer α maxSize :=
  let tail := if b.full then (b.tail + count) % maxSize else b.tail
  let head := (b.head + count) % maxSize
  { b with head := head, tail := tail, full := head = tail }

def retreat (b : CircularBuffer α maxSize) (count : Nat) : CircularBuffer α maxSize :=
  { b with full := false, tail := (b.tail + count) % maxSize }

/-- A copy to the head, and the head moved behind it. -/
def store (b : CircularBuffer α maxSize) (data : List α) : CircularBuffer α maxSize :=
  { b with buffer := memcpyTo b.buffer b.head data }.advance data.length

/-- A copy from the tail, and the tail moved behind it. -/
def load (b : CircularBuffer α maxSize) (len : Nat) : List α × CircularBuffer α maxSize :=
  (memcpyFrom b.buffer b.tail len, b.retreat len)

/-- `put(unsigned char)`. -/
def putByte (b : CircularBuffer α maxSize) (data : α) : Bool × CircularBuffer α maxSize :=
  if !b.full then (true, b.store [data]) else (false, b)

/-- `put(const unsigned char*, size_t)`. -/
def put (b : CircularBuffer α maxSize) (data : List α) : Bool × CircularBuffer α maxSize :=
  if data.length ≤ b.capacity then
    if data.length < maxSize - b.head then (true, b.store data)
    else
      let l1 := maxSize - b.head
      (true, (b.store (data.take l1)).store (data.drop l1))
  else (false, b)

/-- `get(unsigned char&)`: a refused read leaves the argument alone. -/
def getByte (b : CircularBuffer α maxSize) : Option (List α) × CircularBuffer α maxSize :=
  if !b.empty then (some (b.load 1).1, (b.load 1).2) else (none, b)

/-- `get(unsigned char*, size_t)`. -/
def get (b : CircularBuffer α maxSize) (len : Nat) :
    Option (List α) × CircularBuffer α maxSize :=
  if len ≤ b.size then
    if len < maxSize - b.tail then (some (b.load len).1, (b.load len).2)
    else
      let l1 := maxSize - b.tail
      let first := b.load l1
      let second := first.2.load (len - l1)
      (some (first.1 ++ second.1), second.2)
  else (none, b)

end CircularBuffer

end LibNbiot
