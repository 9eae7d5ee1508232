/-
# Reading lines from the serial port

`readLine` collects the bytes of a line as long as there is time. A line that a
filter is for goes to the handler of the filter, and the call goes on with the next
line. A call that runs out of time leaves its line where it is, and the next call
begins a line of its own.
-/

import Mathlib.Data.List.TakeWhile
import LibNbiot.Modem.UrcFilter

namespace LibNbiot

namespace Serial

variable {η : Type}

/-- `SerialReadMode`. -/
inductive SerialReadMode where
  | normal
  | simple
  | ignore
  deriving DecidableEq, Repr

/-- `LineStatus`. -/
inductive LineStatus where
  | empty
  | data
  | complete
  deriving DecidableEq, Repr

def carriageReturn : UInt8 := 13

def lineFeed : UInt8 := 10

/-- The line status that a call begins with: in simple mode there is no need of a line
feed in front of the line. -/
def SerialReadMode.lineStatus : SerialReadMode → LineStatus
  | .simple => .data
  | .normal | .ignore => .empty

/-- `hasFilter()`. -/
def hasFilter (fs : UrcFilterList η) : Bool := !fs.isEmpty

/-- The variables of `readLine`, and what the handlers have got. -/
structure Reading (η : Type) where
  line : Bytes := []
  index : Nat := 0
  lineStatus : LineStatus
  handled : List (η × Bytes) := []
  deriving DecidableEq, Repr

/-- The body of the loop of `readLine`, for a byte that has been received. -/
def receiveByte (fs : UrcFilterList η) (r : Reading η) (uartInChar : UInt8) : Reading η :=
  if uartInChar = 0 ∨ uartInChar = carriageReturn then r
  else if uartInChar = lineFeed ∧ r.lineStatus = .empty then { r with lineStatus := .data }
  else if uartInChar = lineFeed ∧ r.lineStatus = .data then
    -- empty lines are ignored
    if 0 < r.index then
      if hasFilter fs then
        match fs.handlerOf r.line with
        | some handler =>
            { line := [], index := 0, lineStatus := .data,
              handled := r.handled ++ [(handler, cString r.line)] }
        | none => { r with lineStatus := .complete }
      else { r with lineStatus := .complete }
    else r
  else if r.lineStatus = .data then
    { r with line := r.line ++ [uartInChar], index := r.index + 1 }
  else r

/-- The loop of `readLine` over the bytes that come in before the time is over, and the
bytes that it does not get to. -/
def readBytes (fs : UrcFilterList η) : Reading η → Bytes → Reading η × Bytes
  | r, [] => (r, [])
  | r, uartInChar :: bytes =>
      let r := receiveByte fs r uartInChar
      if r.lineStatus = .complete then (r, bytes) else readBytes fs r bytes

/-- What comes of a call of `readLine`: the count that it returns, the line, what the
handlers got, the bytes that are left, and whether the line came to its end. -/
structure LineResult (η : Type) where
  count : Nat
  line : Bytes
  handled : List (η × Bytes)
  unread : Bytes
  complete : Bool
  deriving DecidableEq, Repr

/-- The end of `readLine`. -/
def LineResult.of (readMode : SerialReadMode) (r : Reading η) (unread : Bytes) : LineResult η where
  count := r.index
  line := if readMode = .ignore then [] else r.line
  handled := r.handled
  unread := unread
  complete := r.lineStatus = .complete

/-- `readLine(line, timeout_ms, readMode)`, with the bytes that come in before the time
is over. -/
def readLine (fs : UrcFilterList η) (line : Bytes) (readMode : SerialReadMode) (bytes : Bytes) :
    LineResult η :=
  let (r, unread) := readBytes fs { line := line, lineStatus := readMode.lineStatus } bytes
  .of readMode r unread

/-! ## What a piece of a line does -/

/-- The bytes of a line that are collected. -/
def isText (c : UInt8) : Bool := c ≠ 0 ∧ c ≠ carriageReturn

/-- The part of a line that is kept. -/
def text (bytes : Bytes) : Bytes := bytes.filter isText

/-- A reading after some bytes of a line. -/
def Reading.collect (r : Reading η) (bytes : Bytes) : Reading η :=
  if r.lineStatus = .data then
    { r with line := r.line ++ text bytes, index := r.index + (text bytes).length }
  else r

@[simp] theorem collect_lineStatus (r : Reading η) (bytes : Bytes) :
    (r.collect bytes).lineStatus = r.lineStatus := by
  unfold Reading.collect
  split <;> rfl

@[simp] theorem collect_handled (r : Reading η) (bytes : Bytes) :
    (r.collect bytes).handled = r.handled := by
  unfold Reading.collect
  split <;> rfl

@[simp] theorem text_append (a b : Bytes) : text (a ++ b) = text a ++ text b := List.filter_append ..

/-- No byte of a line is a zero. -/
theorem cString_text (bytes : Bytes) : cString (text bytes) = text bytes := by
  rw [cString, List.takeWhile_eq_self_iff]
  intro c hc
  have htext := (List.mem_filter.1 hc).2
  exact decide_eq_true (of_decide_eq_true htext).1

theorem receiveByte_eq_collect (fs : UrcFilterList η) {r : Reading η} {c : UInt8}
    (hc : c ≠ lineFeed) : receiveByte fs r c = r.collect [c] := by
  unfold receiveByte Reading.collect
  by_cases htext : c = 0 ∨ c = carriageReturn
  · have hnone : text [c] = [] := by
      obtain rfl | rfl := htext <;> rfl
    rw [if_pos htext, hnone]
    split <;> simp
  · have hone : text [c] = [c] := by
      obtain ⟨hzero, hreturn⟩ := not_or.1 htext
      simp [text, isText, hzero, hreturn]
    rw [if_neg htext, if_neg fun h => hc h.1, if_neg fun h => hc h.1, hone]
    rfl

theorem collect_append (r : Reading η) (a b : Bytes) :
    (r.collect a).collect b = r.collect (a ++ b) := by
  by_cases h : r.lineStatus = .data
  · simp [Reading.collect, h, Nat.add_assoc]
  · simp [Reading.collect, h]

@[simp] theorem collect_nil (r : Reading η) : r.collect [] = r := by
  unfold Reading.collect
  split <;> simp [text]

/-- The bytes of a piece without a line feed are collected. -/
theorem readBytes_piece (fs : UrcFilterList η) {r : Reading η} (hr : r.lineStatus ≠ .complete)
    {piece : Bytes} (hpiece : lineFeed ∉ piece) (rest : Bytes) :
    readBytes fs r (piece ++ rest) = readBytes fs (r.collect piece) rest := by
  induction piece generalizing r with
  | nil => rw [collect_nil, List.nil_append]
  | cons c piece ih =>
    have hc : c ≠ lineFeed := fun h => hpiece (h ▸ List.mem_cons_self)
    have hcomplete : (r.collect [c]).lineStatus ≠ .complete := by
      rw [collect_lineStatus]
      exact hr
    rw [List.cons_append, readBytes, receiveByte_eq_collect fs hc]
    rw [if_neg hcomplete, ih hcomplete fun h => hpiece (List.mem_cons_of_mem _ h), collect_append]
    rfl

/-- The end of a line that has something in it. -/
theorem receiveByte_lineFeed (fs : UrcFilterList η) {r : Reading η} (hr : r.lineStatus = .data)
    (hindex : 0 < r.index) :
    receiveByte fs r lineFeed =
      match fs.handlerOf r.line with
      | some handler =>
          { line := [], index := 0, lineStatus := .data,
            handled := r.handled ++ [(handler, cString r.line)] }
      | none => { r with lineStatus := .complete } := by
  unfold receiveByte
  rw [if_neg (by decide), if_neg (by simp [hr]), if_pos ⟨rfl, hr⟩, if_pos hindex]
  split
  · rfl
  · rename_i hnone
    have hnil : fs = [] := by simpa [hasFilter] using hnone
    rw [hnil]
    rfl

/-- The end of an empty line, or of what comes before the first line. -/
theorem receiveByte_lineFeed_none (fs : UrcFilterList η) {r : Reading η}
    (hr : r.lineStatus = .empty ∨ r.lineStatus = .data ∧ r.index = 0) :
    receiveByte fs r lineFeed = { r with lineStatus := .data } := by
  unfold receiveByte
  rw [if_neg (by decide)]
  obtain hempty | ⟨hdata, hindex⟩ := hr
  · rw [if_pos ⟨rfl, hempty⟩]
  · rw [if_neg (by simp [hdata]), if_pos ⟨rfl, hdata⟩, if_neg (by omega), ← hdata]

end Serial

end LibNbiot
