/-
# Responses to AT commands

`readResponse` reads what a modem answers, in one of six ways. To copy a response
it reads line after line, gives every line a second of its own, and stops behind
the first OK or ERROR. What a filter takes never comes to it. Time is what the
environment makes of it: for every call that reads, how many of the bytes come in
before the call is over, and whether there is time for another one.
-/

import LibNbiot.Modem.SerialLines

namespace LibNbiot

open Logic Serial

variable {η : Type}

/-- `ExpectedReply`. -/
inductive ExpectedReply where
  | ok
  | any
  | copy
  | exact
  | ignore
  | none
  deriving DecidableEq, Repr

/-- A call that reads: how many bytes come in while it reads, if it has any time for
that, and whether there is time left behind it. -/
structure ReadTime where
  arriving : Option Nat := none
  timeLeft : Bool := false
  deriving DecidableEq, Repr

/-- What comes of `readResponse`. -/
structure Response (η : Type) where
  result : Bool := false
  response : Bytes := []
  handled : List (η × Bytes) := []
  unread : Bytes
  deriving DecidableEq, Repr

/-- A response with what a call has read for it. -/
def Response.read (r : Response η) (l : LineResult η) : Response η :=
  { r with handled := r.handled ++ l.handled, unread := l.unread }

namespace AtCommands

/-- "OK". -/
def okReply : Bytes := [79, 75]

/-- "ERROR". -/
def errReply : Bytes := [69, 82, 82, 79, 82]

/-- "\r\n". -/
def crlf : Bytes := [carriageReturn, lineFeed]

/-- A call of `readLine`; the bytes that come in too late stay. -/
def readInTime (fs : UrcFilterList η) (time : ReadTime) (line : Bytes) (readMode : SerialReadMode)
    (stream : Bytes) : LineResult η :=
  let arriving := time.arriving.getD 0
  let r := readLine fs line readMode (stream.take arriving)
  { r with unread := r.unread ++ stream.drop arriving }

/-- `getError()` behind a call: it has run out of the time it had. -/
def timedOut (time : ReadTime) (l : LineResult η) : Bool := !l.complete && time.arriving.isSome

/-- A turn of the loop of `REPLY_COPY`, behind its call of `readLine` and in front of
the turns that are next. -/
def copyTurn (next : Response η → Response η) (time : ReadTime) (r : Response η)
    (l : LineResult η) : Response η :=
  let r := r.read l
  if 0 < l.count then
    let r := { r with result := true, response := r.response ++ l.line ++ crlf }
    if cString l.line = okReply ∨ cString l.line = errReply then r
    else if time.timeLeft then next r
    else r
  else r

/-- The loop of `REPLY_COPY`. -/
def copyLoop (fs : UrcFilterList η) : List ReadTime → Response η → Response η
  | [], r => r
  | time :: times, r =>
      copyTurn (copyLoop fs times) time r (readInTime fs time [] .simple r.unread)

/-- The loop of `REPLY_IGNORE`. -/
def ignoreLoop (fs : UrcFilterList η) : List ReadTime → Response η → Response η
  | [], r => r
  | time :: times, r =>
      let l := readInTime fs time [] .ignore r.unread
      let r : Response η := { r.read l with result := !timedOut time l }
      if 0 < l.count ∧ r.result = true then ignoreLoop fs times r else r

/-- `readResponse(expected)`, with what becomes of its calls. -/
def readResponse (fs : UrcFilterList η) (expected : ExpectedReply) (times : List ReadTime)
    (stream : Bytes) : Response η :=
  let first := times.headD {}
  let second := times.tail.headD {}
  match expected with
  | .ok =>
      let l := readInTime fs first [] .normal stream
      { ({ unread := stream } : Response η).read l with
        result := l.count = okReply.length ∧ timedOut first l = false ∧ cString l.line = okReply
        response := l.line }
  | .any =>
      let l := readInTime fs first [] .normal stream
      let r := ({ unread := stream } : Response η).read l
      if 0 < l.count ∧ timedOut first l = false then
        let ok := readInTime fs second [] .simple r.unread
        let result := ok.count = okReply.length ∧ timedOut second ok = false ∧
          cString ok.line = okReply
        { r.read ok with
          result := result
          response := if result then l.line else [] }
      else r
  | .copy => copyLoop fs times { unread := stream }
  | .exact =>
      let l := readInTime fs first [] .normal stream
      { ({ unread := stream } : Response η).read l with
        result := 0 < l.count ∧ timedOut first l = false
        response := l.line }
  | .none =>
      let n := min 1 (min (first.arriving.getD 0) stream.length)
      { result := n = 0, unread := stream.drop n }
  | .ignore => ignoreLoop fs times { unread := stream }

/-- The lines that calls in simple mode return, as long as each finds one in its time. -/
def linesInTime (fs : UrcFilterList η) : List ReadTime → Bytes → List Bytes
  | [], _ => []
  | time :: times, stream =>
      let l := readInTime fs time [] .simple stream
      if 0 < l.count then
        l.line :: if time.timeLeft then linesInTime fs times l.unread else []
      else []

/-! ## Lines and their ends -/

/-- A line that ends a response: OK or ERROR, and no filter takes it. -/
def IsFinal (fs : UrcFilterList η) (line : Bytes) : Prop :=
  (line = okReply ∨ line = errReply) ∧ fs.handlerOf line = none

/-- Nothing, or something that ends with a line. -/
def WholeLines (bytes : Bytes) : Prop := ∀ c ∈ bytes.getLast?, c = lineFeed

/-- All lines that no filter takes, each with its end. -/
def copied (fs : UrcFilterList η) (lines : List Bytes) : Bytes :=
  (lines.filter fun line => (fs.handlerOf line).isNone).flatMap (· ++ crlf)

/-- What the filters take. -/
def taken (fs : UrcFilterList η) (lines : List Bytes) : List (η × Bytes) :=
  lines.filterMap fun line => (fs.handlerOf line).map (·, line)

/-- A response goes on with the lines of a stream, up to the first one that ends it and
no further. -/
def CopiedBehind (fs : UrcFilterList η) (response : Bytes) (handled : List (η × Bytes))
    (stream : Bytes) (r : Response η) : Prop :=
  ∃ before last, stream = before ++ (last ++ [lineFeed]) ++ r.unread ∧ WholeLines before ∧
    lineFeed ∉ last ∧ IsFinal fs (text last) ∧ (∀ line ∈ linesOf before, ¬IsFinal fs line) ∧
    r.result = true ∧
    r.response = response ++ copied fs (linesOf (before ++ (last ++ [lineFeed]))) ∧
    r.handled = handled ++ taken fs (linesOf (before ++ (last ++ [lineFeed])))

/-- The lines of a stream are copied, up to the first one that ends a response. -/
def Copied (fs : UrcFilterList η) (stream : Bytes) (r : Response η) : Prop :=
  CopiedBehind fs [] [] stream r

/-- All the bytes come in whatever the call, and there is time for a call for each. -/
structure Untimed (stream : Bytes) (times : List ReadTime) : Prop where
  calls : stream.length ≤ times.length
  time : ∀ time ∈ times, time.timeLeft = true ∧ ∃ n ∈ time.arriving, stream.length ≤ n

theorem wholeLines_cut (piece : Bytes) {rest : Bytes} (h : WholeLines rest) :
    WholeLines (piece ++ lineFeed :: rest) := by
  intro c hc
  cases rest with
  | nil => simpa using hc.symm
  | cons d rest =>
    apply h
    simpa [List.getLast?_append, List.getLast?_cons_cons] using hc

theorem not_isFinal_nil (fs : UrcFilterList η) : ¬IsFinal fs [] := by
  rintro ⟨h | h, -⟩
  · exact absurd h (by decide)
  · exact absurd h (by decide)

theorem copied_append (fs : UrcFilterList η) (a b : List Bytes) :
    copied fs (a ++ b) = copied fs a ++ copied fs b := by
  simp [copied]

theorem taken_append (fs : UrcFilterList η) (a b : List Bytes) :
    taken fs (a ++ b) = taken fs a ++ taken fs b := by
  simp [taken]

/-- The first line of a stream is the end of its response. -/
theorem copiedBehind_final (fs : UrcFilterList η) (response : Bytes) (handled : List (η × Bytes))
    {last : Bytes} (hlast : lineFeed ∉ last) (hfinal : IsFinal fs (text last)) (rest : Bytes) :
    CopiedBehind fs response handled (last ++ lineFeed :: rest)
      { result := true, response := response ++ text last ++ crlf, handled := handled,
        unread := rest } := by
  have hne : text last ≠ [] := fun h => not_isFinal_nil fs (h ▸ hfinal)
  have hlines : linesOf ([] ++ (last ++ [lineFeed])) = [text last] := by
    rw [List.nil_append, linesOf_cut hlast, if_neg hne, linesOf_nil, List.append_nil]
  refine ⟨[], last, by simp, nofun, hlast, hfinal, by simp, rfl, ?_, ?_⟩
  · rw [hlines]
    simp [copied, hfinal.2]
  · rw [hlines]
    simp [taken, hfinal.2]

/-- A line in front of a stream that is not the end of its response. -/
theorem CopiedBehind.cut {fs : UrcFilterList η} {response : Bytes} {handled : List (η × Bytes)}
    {piece rest : Bytes} {lines : List Bytes} {r : Response η} (hpiece : lineFeed ∉ piece)
    (hlines : (if text piece = [] then [] else [text piece]) = lines)
    (hfinal : ∀ line ∈ lines, ¬IsFinal fs line)
    (h : CopiedBehind fs (response ++ copied fs lines) (handled ++ taken fs lines) rest r) :
    CopiedBehind fs response handled (piece ++ lineFeed :: rest) r := by
  obtain ⟨before, last, hrest, hwhole, hlast, hends, hbefore, hresult, hresponse, hhandled⟩ := h
  have hall : linesOf (piece ++ lineFeed :: before ++ (last ++ [lineFeed])) =
      lines ++ linesOf (before ++ (last ++ [lineFeed])) := by
    rw [List.append_assoc, List.cons_append, linesOf_cut hpiece, hlines]
  refine ⟨piece ++ lineFeed :: before, last, by simp [hrest], wholeLines_cut piece hwhole, hlast,
    hends, ?_, hresult, ?_, ?_⟩
  · intro line hline
    rw [linesOf_cut hpiece, hlines] at hline
    obtain hline | hline := List.mem_append.1 hline
    · exact hfinal line hline
    · exact hbefore line hline
  · rw [hall, copied_append, hresponse, List.append_assoc]
  · rw [hall, taken_append, hhandled, List.append_assoc]

/-! ## The loop that copies -/

/-- What a call returns that has all the time it needs: `readLine` at the beginning of a
line, with what the call has handled so far. -/
def lineFrom (fs : UrcFilterList η) (handled : List (η × Bytes)) (stream : Bytes) : LineResult η :=
  let (r, unread) := readBytes fs { lineStatus := .data, handled := handled } stream
  .of .simple r unread

theorem readInTime_eq (fs : UrcFilterList η) {time : ReadTime} {n : Nat} {stream : Bytes}
    (htime : n ∈ time.arriving) (hn : stream.length ≤ n) :
    readInTime fs time [] .simple stream = lineFrom fs [] stream := by
  have harriving : time.arriving.getD 0 = n := by
    rw [Option.mem_def.1 htime]
    rfl
  rw [readInTime, harriving, List.take_of_length_le hn, List.drop_of_length_le hn]
  simp only [List.append_nil]
  rfl

/-- A call with all the time it needs takes the first line that no filter is for. -/
theorem lineFrom_cut (fs : UrcFilterList η) (handled : List (η × Bytes)) {piece : Bytes}
    (hpiece : lineFeed ∉ piece) (rest : Bytes) :
    lineFrom fs handled (piece ++ lineFeed :: rest) =
      if text piece = [] then lineFrom fs handled rest
      else (fs.handlerOf (text piece)).elim
        { count := (text piece).length, line := text piece, handled := handled,
          unread := rest, complete := true }
        fun handler => lineFrom fs (handled ++ [(handler, text piece)]) rest := by
  rw [lineFrom, readBytes_cut fs handled hpiece]
  by_cases hempty : text piece = []
  · rw [if_pos hempty, if_pos hempty]
    rfl
  · rw [if_neg hempty, if_neg hempty]
    cases fs.handlerOf (text piece) <;> rfl

theorem Untimed.rest {stream rest : Bytes} {times : List ReadTime} (h : Untimed stream times)
    (hle : rest.length ≤ stream.length) : Untimed rest times where
  calls := hle.trans h.calls
  time time htime :=
    have ⟨hleft, n, hn, hstream⟩ := h.time time htime
    ⟨hleft, n, hn, hle.trans hstream⟩

theorem Untimed.next {stream rest : Bytes} {time : ReadTime} {times : List ReadTime}
    (h : Untimed stream (time :: times)) (hlt : rest.length < stream.length) :
    Untimed rest times where
  calls := Nat.le_of_lt_succ (hlt.trans_le h.calls)
  time next hnext :=
    (h.rest hlt.le).time next (List.mem_cons_of_mem _ hnext)

/-- A line that ends a response comes at the latest in the rest. -/
theorem final_rest {fs : UrcFilterList η} {piece rest : Bytes} (hpiece : lineFeed ∉ piece)
    (hfinal : ¬IsFinal fs (text piece))
    (h : ∃ line ∈ linesOf (piece ++ lineFeed :: rest), IsFinal fs line) :
    ∃ line ∈ linesOf rest, IsFinal fs line := by
  obtain ⟨line, hline, hends⟩ := h
  rw [linesOf_cut hpiece] at hline
  obtain hfirst | hrest := List.mem_append.1 hline
  · split at hfirst
    · cases hfirst
    · rw [List.mem_singleton.1 hfirst] at hends
      exact absurd hends hfinal
  · exact ⟨line, hrest, hends⟩

/-- A turn of the loop and all that follow, from any line of the stream on. -/
theorem copiedBehind_copyTurn (fs : UrcFilterList η) {time : ReadTime} {times : List ReadTime}
    {stream : Bytes} (htimes : Untimed stream (time :: times))
    (hfinal : ∃ line ∈ linesOf stream, IsFinal fs line) (r : Response η)
    (handled : List (η × Bytes)) :
    CopiedBehind fs r.response (r.handled ++ handled) stream
      (copyTurn (copyLoop fs times) time r (lineFrom fs handled stream)) := by
  induction stream using split_induction (a := lineFeed) generalizing time times r handled with
  | last piece hpiece =>
    obtain ⟨line, hline, -⟩ := hfinal
    rw [linesOf_piece hpiece] at hline
    cases hline
  | cut piece rest hpiece ih =>
    have hlt : rest.length < (piece ++ lineFeed :: rest).length := by
      simp
      omega
    rw [lineFrom_cut fs handled hpiece]
    by_cases hempty : text piece = []
    · have hrest := final_rest hpiece (hempty ▸ not_isFinal_nil fs) hfinal
      rw [if_pos hempty]
      apply CopiedBehind.cut hpiece (if_pos hempty) nofun
      simpa [copied, taken] using ih (htimes.rest hlt.le) hrest r handled
    · rw [if_neg hempty]
      cases hfs : fs.handlerOf (text piece) with
      | some handler =>
        -- the call goes on behind a line that is for a filter
        have hnot : ¬IsFinal fs (text piece) := fun h => nomatch hfs.symm.trans h.2
        have hrest := final_rest hpiece hnot hfinal
        apply CopiedBehind.cut hpiece (if_neg hempty) (by simpa using hnot)
        simpa [copied, taken, hfs] using
          ih (htimes.rest hlt.le) hrest r (handled ++ [(handler, text piece)])
      | none =>
        have hcount : 0 < (text piece).length := List.length_pos_iff.2 hempty
        by_cases hends : text piece = okReply ∨ text piece = errReply
        · have hresult := copiedBehind_final fs r.response (r.handled ++ handled) hpiece
            ⟨hends, hfs⟩ rest
          simpa [copyTurn, Response.read, hcount, cString_text, hends] using hresult
        · -- the line is copied, and the next call begins behind it
          have hrest := final_rest hpiece (fun h => hends h.1) hfinal
          have hnext := htimes.next hlt
          have hleft := (htimes.time time List.mem_cons_self).1
          apply CopiedBehind.cut hpiece (if_neg hempty) (by simpa using fun h => hends h.1)
          cases times with
          | nil =>
            obtain ⟨line, hline, -⟩ := hrest
            rw [List.length_eq_zero_iff.1 (Nat.le_zero.1 hnext.calls)] at hline
            cases hline
          | cons next times =>
            obtain ⟨-, n, hn, hle⟩ := hnext.time next List.mem_cons_self
            simpa [copyTurn, Response.read, hcount, cString_text, hends, hleft, copyLoop,
              readInTime_eq fs hn hle, copied, taken, hfs] using
              ih hnext hrest
                { result := true, response := r.response ++ text piece ++ crlf,
                  handled := r.handled ++ handled, unread := rest } []

/-- **Copied responses are complete**: without timeouts, a response with a line OK or
ERROR that no filter takes is copied up to the first such line, each line with its end
and those of the filters left out, and what is behind it stays unread. -/
theorem copied_readResponse (fs : UrcFilterList η) {stream : Bytes} {times : List ReadTime}
    (htimes : Untimed stream times) (hfinal : ∃ line ∈ linesOf stream, IsFinal fs line) :
    Copied fs stream (readResponse fs .copy times stream) := by
  cases times with
  | nil =>
    obtain ⟨line, hline, -⟩ := hfinal
    rw [List.length_eq_zero_iff.1 (Nat.le_zero.1 htimes.calls)] at hline
    cases hline
  | cons time times =>
    obtain ⟨-, n, hn, hle⟩ := htimes.time time List.mem_cons_self
    rw [readResponse, copyLoop, readInTime_eq fs hn hle]
    exact copiedBehind_copyTurn fs htimes hfinal { unread := stream } []

/-- "\r\nA\r\n+N\r\nOK\r\nB" with a filter for "+N". -/
theorem copied_readResponse_filtered :
    Copied [⟨[43, 78], 7⟩] [13, 10, 65, 13, 10, 43, 78, 13, 10, 79, 75, 13, 10, 66]
      (readResponse [⟨[43, 78], 7⟩] .copy (List.replicate 14 ⟨some 14, true⟩)
        [13, 10, 65, 13, 10, 43, 78, 13, 10, 79, 75, 13, 10, 66]) := by
  apply copied_readResponse
  · exact ⟨by decide, by decide⟩
  · exact ⟨okReply, by decide, .inl rfl, by decide⟩

end AtCommands

end LibNbiot
