/-
# Lines on the wire

A modem puts a carriage return and a line feed in front of every line that it says
and behind it. As long as all of it comes in, a call that reads a line finds the first
one that no filter is for, in any mode; lines that filters are for go to the handlers
on the way, and what is behind the line is left as it was said.
-/

import LibNbiot.Modem.Port
import LibNbiot.Modem.SerialTimeouts

namespace LibNbiot

open Logic Serial

variable {η : Type}

/-- A line that is said: some characters, none of which ends a line. -/
structure TextLine where
  bytes : Bytes
  nonempty : bytes ≠ []
  isLine : IsLine bytes

namespace TextLine

/-- The line as it is said. -/
def frame (l : TextLine) : Bytes := crlf ++ (l.bytes ++ crlf)

/-- Lines as they are said, one behind the other. -/
def frames (ls : List TextLine) : Bytes := ls.flatMap frame

@[simp] theorem frames_nil : frames [] = [] := rfl

theorem frames_cons (l : TextLine) (ls : List TextLine) :
    frames (l :: ls) = l.frame ++ frames ls := rfl

theorem frames_append (ls ls' : List TextLine) : frames (ls ++ ls') = frames ls ++ frames ls' :=
  List.flatMap_append

theorem cString_bytes (l : TextLine) : cString l.bytes = l.bytes := by
  rw [← l.isLine.text_eq]
  exact cString_text l.bytes

end TextLine

open TextLine

/-! ## The lines that are heard -/

namespace UrcFilterList

/-- A line that no filter is for. -/
def passes (fs : UrcFilterList η) (l : TextLine) : Bool := (fs.handlerOf l.bytes).isNone

end UrcFilterList

/-- What a call does to the lines that are there. -/
structure HeardLine (η : Type) where
  line : Option TextLine := none
  handled : List (η × Bytes) := []
  rest : List TextLine := []

/-- The first line that no filter is for. -/
def hear (fs : UrcFilterList η) : List TextLine → HeardLine η
  | [] => {}
  | l :: ls =>
      match fs.handlerOf l.bytes with
      | some handler => { hear fs ls with handled := (handler, l.bytes) :: (hear fs ls).handled }
      | none => { line := some l, rest := ls }

namespace HeardLine

/-- What `readLine` makes of it. -/
def result (h : HeardLine η) (readMode : SerialReadMode) : LineResult η where
  count := h.line.elim 0 (·.bytes.length)
  line := if readMode = .ignore then [] else h.line.elim [] (·.bytes)
  handled := h.handled
  unread := frames h.rest
  complete := h.line.isSome

end HeardLine

theorem frame_append (l : TextLine) (rest : Bytes) :
    l.frame ++ rest =
      carriageReturn :: lineFeed :: ((l.bytes ++ [carriageReturn]) ++ lineFeed :: rest) := by
  simp [frame, crlf]

/-- A call that is in front of a line. -/
theorem readBytes_frame (fs : UrcFilterList η) {r : Reading η} (hline : r.line = [])
    (hindex : r.index = 0) (hstatus : r.lineStatus ≠ .complete) (l : TextLine) (rest : Bytes) :
    readBytes fs r (l.frame ++ rest) =
      (fs.handlerOf l.bytes).elim
        ({ line := l.bytes, index := l.bytes.length, lineStatus := .complete,
           handled := r.handled }, rest)
        fun handler =>
          readBytes fs { lineStatus := .data, handled := r.handled ++ [(handler, l.bytes)] }
            rest := by
  have hreturn : receiveByte fs r carriageReturn = r := if_pos (.inr rfl)
  have hfeed : receiveByte fs r lineFeed = { lineStatus := .data, handled := r.handled } := by
    have hstart : r.lineStatus = .empty ∨ r.lineStatus = .data ∧ r.index = 0 := by
      cases hr : r.lineStatus with
      | empty => exact .inl rfl
      | data => exact .inr ⟨rfl, hindex⟩
      | complete => exact absurd hr hstatus
    rw [receiveByte_lineFeed_none fs hstart]
    simp [hline, hindex]
  have hpiece : lineFeed ∉ l.bytes ++ [carriageReturn] := by
    rw [List.mem_append, List.mem_singleton]
    exact not_or.2 ⟨l.isLine.lineFeed_not_mem, by decide⟩
  have htext : text (l.bytes ++ [carriageReturn]) = l.bytes := by
    rw [text_append, l.isLine.text_eq]
    exact List.append_nil l.bytes
  have hdata : LineStatus.data ≠ .complete := by decide
  rw [frame_append, readBytes, hreturn, if_neg hstatus, readBytes, hfeed, if_neg hdata,
    readBytes_cut fs r.handled hpiece rest, htext, if_neg l.nonempty]

/-- A call that all the lines come in for. -/
theorem readBytes_frames (fs : UrcFilterList η) (ls : List TextLine) {r : Reading η}
    (hline : r.line = []) (hindex : r.index = 0) (hstatus : r.lineStatus ≠ .complete)
    (readMode : SerialReadMode) :
    LineResult.of readMode (readBytes fs r (frames ls)).1 (readBytes fs r (frames ls)).2 =
      { (hear fs ls).result readMode with handled := r.handled ++ (hear fs ls).handled } := by
  induction ls generalizing r with
  | nil =>
    simp [readBytes, LineResult.of, hear, HeardLine.result, hline, hindex, hstatus]
  | cons l ls ih =>
    rw [frames_cons, readBytes_frame fs hline hindex hstatus l, hear]
    cases fs.handlerOf l.bytes with
    | some handler =>
      simp only [Option.elim_some]
      rw [ih rfl rfl (by decide : LineStatus.data ≠ .complete)]
      simp [HeardLine.result]
    | none => simp [LineResult.of, HeardLine.result]

/-- A call in any mode, when all the lines come in in time. -/
theorem readInTime_frames (fs : UrcFilterList η) {time : ReadTime} {n : Nat} {ls : List TextLine}
    (htime : n ∈ time.arriving) (hn : (frames ls).length ≤ n) (readMode : SerialReadMode) :
    AtCommands.readInTime fs time [] readMode (frames ls) = (hear fs ls).result readMode := by
  have harriving : time.arriving.getD 0 = n := by
    rw [Option.mem_def.1 htime]
    rfl
  have hstatus : readMode.lineStatus ≠ .complete := lineStatus_ne_complete readMode
  rw [AtCommands.readInTime, harriving, List.take_of_length_le hn, List.drop_of_length_le hn,
    readLine]
  simp only [List.append_nil]
  rw [readBytes_frames fs ls rfl rfl hstatus readMode]
  rfl

end LibNbiot
