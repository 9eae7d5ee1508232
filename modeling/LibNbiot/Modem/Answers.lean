/-
# Answers in whole lines

Where everything that a modem says comes in while the call that waits for it reads, the
calls of the port need not be understood byte by byte: they take lines off a list of
those that no filter is for. The calls on such a list are the second side of this
module, and no program of a modem class can tell it from the first.
-/

import LibNbiot.Modem.Frames
import LibNbiot.Modem.Operations

namespace LibNbiot

open Logic Logic.Program Serial TextLine

variable {η ω δ : Type}

/-! ## Calls on lines -/

namespace AtCommands

/-- A line that ends a reply. -/
def isFinal (l : TextLine) : Bool := l.bytes = okReply ∨ l.bytes = errReply

/-- What a reply in many lines is copied to, and the lines behind it. -/
def copyLines : List TextLine → Bytes × List TextLine
  | [] => ([], [])
  | l :: ls =>
      if isFinal l then (l.bytes ++ crlf, ls)
      else (l.bytes ++ crlf ++ (copyLines ls).1, (copyLines ls).2)

/-- `readResponse(expected)` on lines: what it returns, its response, and the lines behind it. -/
def replyOf : ExpectedReply → List TextLine → (Bool × Bytes) × List TextLine
  | .ok, [] | .any, [] | .exact, [] => ((false, []), [])
  | .ok, l :: ls => ((l.bytes = okReply, l.bytes), ls)
  | .any, [_] => ((false, []), [])
  | .any, l :: ok :: ls =>
      if ok.bytes = okReply then ((true, l.bytes), ls) else ((false, []), ls)
  | .exact, l :: ls => ((true, l.bytes), ls)
  | .copy, ls => ((ls ≠ [], (copyLines ls).1), (copyLines ls).2)
  | .ignore, _ => ((false, []), [])
  | .none, ls => ((ls = [], []), ls)

/-- `readUntil(expected)` on lines. -/
def untilOf (expected : Bytes) : List TextLine → (Bool × Bytes) × List TextLine
  | [] => ((isExpected expected false [], []), [])
  | l :: ls =>
      if isExpected expected false l.bytes then ((true, l.bytes), ls) else untilOf expected ls

end AtCommands

/-- A modem that hears commands, and says lines while a call waits. -/
structure LineModem (δ : Type) where
  write : δ → Bytes → Bool × δ
  say : δ → Nat → List TextLine × δ

/-- The port as a list of the lines that have been heard and not been read. -/
structure LinePort (η δ : Type) where
  modem : δ
  heard : List TextLine := []
  filters : UrcFilterList η := []

namespace LinePort

/-- A call that reads. -/
def read (D : LineModem δ) (timeout : Nat)
    (reading : List TextLine → (Bool × Bytes) × List TextLine) :
    StateM (LinePort η δ) (Bool × Bytes) := do
  let p ← get
  let (said, modem) := D.say p.modem timeout
  let (answer, heard) := reading (p.heard ++ said.filter p.filters.passes)
  set { p with modem := modem, heard := heard }
  return answer

/-- What a call does. A filter that is added also takes lines that were there before it. -/
def exec (D : LineModem δ) : (c : PortCall η) → StateM (LinePort η δ) c.Answer
  | .sendCommand cmd => do
      let p ← get
      let (sent, modem) := D.write p.modem cmd
      set { p with modem := modem }
      return sent
  | .readResponse expected _ timeout => read D timeout (AtCommands.replyOf expected)
  | .readUntil expected timeout => read D timeout (AtCommands.untilOf expected)
  | .addUrcFilter urc handler => do
      let p ← get
      let (added, filters) := UrcFilterList.addUrcFilter p.filters urc handler
      set { p with heard := p.heard.filter filters.passes, filters := filters }
      return added

end LinePort

/-! ## Reading lines -/

/-- All the bytes come in whatever the call, and there is time for a call for each and one
more. -/
structure Ample (stream : Bytes) (times : List ReadTime) : Prop where
  calls : stream.length < times.length
  time : ∀ time ∈ times, time.timeLeft = true ∧ ∃ n ∈ time.arriving, stream.length ≤ n

/-- The calls have taken lines off the front, and answered as on those that are heard. -/
def AnswersAs (fs : UrcFilterList η) (r : Response η) (out : (Bool × Bytes) × List TextLine) :
    Prop :=
  ∃ ls, r.unread = frames ls ∧ (r.result, r.response) = out.1 ∧ ls.filter fs.passes = out.2

variable {fs : UrcFilterList η}

theorem hear_line (ls : List TextLine) : (hear fs ls).line = (ls.filter fs.passes).head? := by
  induction ls with
  | nil => rfl
  | cons l ls ih =>
    rw [hear, List.filter_cons, UrcFilterList.passes]
    cases fs.handlerOf l.bytes with
    | some handler => exact ih
    | none => rfl

theorem hear_rest (ls : List TextLine) :
    (hear fs ls).rest.filter fs.passes = (ls.filter fs.passes).tail := by
  induction ls with
  | nil => rfl
  | cons l ls ih =>
    rw [hear, List.filter_cons, UrcFilterList.passes]
    cases fs.handlerOf l.bytes with
    | some handler => exact ih
    | none => rfl

theorem hear_rest_of_none {ls : List TextLine} (h : ls.filter fs.passes = []) :
    (hear fs ls).rest = [] := by
  induction ls with
  | nil => rfl
  | cons l ls ih =>
    rw [List.filter_cons, UrcFilterList.passes] at h
    rw [hear]
    cases hl : fs.handlerOf l.bytes with
    | some handler =>
      rw [hl] at h
      exact ih h
    | none =>
      rw [hl] at h
      cases h

theorem length_frames_rest {ls : List TextLine} (h : (hear fs ls).line.isSome) :
    (frames (hear fs ls).rest).length < (frames ls).length := by
  induction ls with
  | nil => cases h
  | cons l ls ih =>
    have hframe : 0 < l.frame.length := by simp [frame, crlf]
    rw [frames_cons, List.length_append]
    rw [hear] at h ⊢
    cases hl : fs.handlerOf l.bytes with
    | some handler =>
      rw [hl] at h
      exact (ih h).trans_le (Nat.le_add_left _ _)
    | none => exact Nat.lt_add_of_pos_left hframe

/-- The time of a call that all the bytes come in for. -/
def InTime (time : ReadTime) (stream : Bytes) : Prop :=
  time.timeLeft = true ∧ ∃ n ∈ time.arriving, stream.length ≤ n

/-- A call that hears nothing takes all there is. -/
theorem readInTime_none {time : ReadTime} {ls : List TextLine} (htime : InTime time (frames ls))
    (h : ls.filter fs.passes = []) (readMode : SerialReadMode) :
    ∃ l, AtCommands.readInTime fs time [] readMode (frames ls) = l ∧ l.count = 0 ∧ l.line = [] ∧
      l.unread = [] ∧ AtCommands.timedOut time l = true := by
  obtain ⟨-, n, hn, hle⟩ := htime
  have hline : (hear fs ls).line = none := by rw [hear_line, h, List.head?_nil]
  refine ⟨_, readInTime_frames fs hn hle readMode, ?_, ?_, ?_, ?_⟩
  · simp [HeardLine.result, hline]
  · simp [HeardLine.result, hline]
  · simp [HeardLine.result, hear_rest_of_none h]
  · rw [AtCommands.timedOut, Option.mem_def.1 hn]
    simp [HeardLine.result, hline]

/-- A call takes the first line that it hears. -/
theorem readInTime_some {time : ReadTime} {ls : List TextLine} (htime : InTime time (frames ls))
    {x : TextLine} {xs : List TextLine} (h : ls.filter fs.passes = x :: xs)
    (readMode : SerialReadMode) :
    ∃ l rest, AtCommands.readInTime fs time [] readMode (frames ls) = l ∧
      l.count = x.bytes.length ∧ l.line = (if readMode = .ignore then [] else x.bytes) ∧
      l.unread = frames rest ∧ rest.filter fs.passes = xs ∧
      (frames rest).length < (frames ls).length ∧ AtCommands.timedOut time l = false := by
  obtain ⟨-, n, hn, hle⟩ := htime
  have hline : (hear fs ls).line = some x := by rw [hear_line, h, List.head?_cons]
  refine ⟨_, (hear fs ls).rest, readInTime_frames fs hn hle readMode, ?_, ?_, rfl, ?_, ?_, ?_⟩
  · simp [HeardLine.result, hline]
  · simp [HeardLine.result, hline]
  · rw [hear_rest, h, List.tail_cons]
  · exact length_frames_rest (by rw [hline]; rfl)
  · rw [AtCommands.timedOut]
    simp [HeardLine.result, hline]

theorem Ample.head {stream : Bytes} {times : List ReadTime} (h : Ample stream times) :
    ∃ time rest, times = time :: rest ∧ InTime time stream := by
  cases times with
  | nil => exact absurd h.calls (Nat.not_lt_zero _)
  | cons time rest => exact ⟨time, rest, rfl, h.time time List.mem_cons_self⟩

theorem Ample.next {stream rest : Bytes} {time : ReadTime} {times : List ReadTime}
    (h : Ample stream (time :: times)) (hlt : rest.length < stream.length) : Ample rest times where
  calls := by
    have := h.calls
    rw [List.length_cons] at this
    omega
  time next hnext :=
    have ⟨hleft, n, hn, hstream⟩ := h.time next (List.mem_cons_of_mem _ hnext)
    ⟨hleft, n, hn, hlt.le.trans hstream⟩

/-! ## Replies -/

theorem untilLoop_answers (expected : Bytes) {times : List ReadTime} {ls : List TextLine}
    (htimes : Ample (frames ls) times) {r : Response η} (hunread : r.unread = frames ls)
    (hresult : r.result = false) (hresponse : r.response = []) :
    AnswersAs fs (AtCommands.untilLoop fs expected false times r)
      (AtCommands.untilOf expected (ls.filter fs.passes)) := by
  induction times generalizing ls r with
  | nil => exact absurd htimes.calls (Nat.not_lt_zero _)
  | cons time times ih =>
    have htime : InTime time (frames ls) := htimes.time time List.mem_cons_self
    rw [AtCommands.untilLoop, hunread]
    cases hpass : ls.filter fs.passes with
    | nil =>
      obtain ⟨l, hl, -, hline, hrest, hout⟩ := readInTime_none htime hpass .simple
      rw [AtCommands.untilOf]
      simp only [hl, hline, hout, Bool.true_eq_false, and_false, if_false]
      by_cases hexpected : AtCommands.isExpected expected false [] = true
      · rw [if_pos hexpected, hexpected]
        exact ⟨[], hrest, rfl, rfl⟩
      · rw [if_neg hexpected, Bool.eq_false_iff.2 hexpected]
        exact ⟨[], hrest, by simp [Response.read, hresult, hresponse], rfl⟩
    | cons x xs =>
      obtain ⟨l, rest, hl, -, hline, hrest, hxs, hlt, hout⟩ := readInTime_some htime hpass .simple
      have hmode : Serial.SerialReadMode.simple ≠ .ignore := by decide
      rw [if_neg hmode] at hline
      rw [AtCommands.untilOf]
      simp only [hl, hline, hout, htime.1, and_self, if_true]
      by_cases hexpected : AtCommands.isExpected expected false x.bytes = true
      · rw [if_pos hexpected, if_pos hexpected]
        exact ⟨rest, hrest, rfl, hxs⟩
      · rw [if_neg hexpected, if_neg hexpected, ← hxs]
        exact ih (htimes.next hlt) hrest hresult hresponse

theorem ignoreLoop_answers {times : List ReadTime} {ls : List TextLine}
    (htimes : Ample (frames ls) times) {r : Response η} (hunread : r.unread = frames ls)
    (hresponse : r.response = []) :
    AnswersAs fs (AtCommands.ignoreLoop fs times r) ((false, []), []) := by
  induction times generalizing ls r with
  | nil => exact absurd htimes.calls (Nat.not_lt_zero _)
  | cons time times ih =>
    have htime : InTime time (frames ls) := htimes.time time List.mem_cons_self
    rw [AtCommands.ignoreLoop, hunread]
    cases hpass : ls.filter fs.passes with
    | nil =>
      obtain ⟨l, hl, hcount, -, hrest, hout⟩ := readInTime_none htime hpass .ignore
      simp only [hl, hcount, hout]
      exact ⟨[], hrest, by simp [Response.read, hresponse], rfl⟩
    | cons x xs =>
      obtain ⟨l, rest, hl, hcount, -, hrest, -, hlt, hout⟩ := readInTime_some htime hpass .ignore
      have hpos : 0 < x.bytes.length := List.length_pos_iff.2 x.nonempty
      simp only [hl, hcount, hout, hpos, Bool.not_false, and_self, if_true]
      exact ih (htimes.next hlt) hrest hresponse

theorem copyLoop_answers {times : List ReadTime} {ls : List TextLine}
    (htimes : Ample (frames ls) times) {r : Response η} (hunread : r.unread = frames ls) :
    AnswersAs fs (AtCommands.copyLoop fs times r)
      ((r.result || ls.filter fs.passes ≠ [],
        r.response ++ (AtCommands.copyLines (ls.filter fs.passes)).1),
        (AtCommands.copyLines (ls.filter fs.passes)).2) := by
  induction times generalizing ls r with
  | nil => exact absurd htimes.calls (Nat.not_lt_zero _)
  | cons time times ih =>
    have htime : InTime time (frames ls) := htimes.time time List.mem_cons_self
    rw [AtCommands.copyLoop, hunread]
    cases hpass : ls.filter fs.passes with
    | nil =>
      obtain ⟨l, hl, hcount, -, hrest, -⟩ := readInTime_none htime hpass .simple
      simp only [hl, AtCommands.copyTurn, hcount, Nat.lt_irrefl, if_false]
      exact ⟨[], hrest, by simp [Response.read, AtCommands.copyLines], rfl⟩
    | cons x xs =>
      obtain ⟨l, rest, hl, hcount, hline, hrest, hxs, hlt, -⟩ :=
        readInTime_some htime hpass .simple
      have hpos : 0 < x.bytes.length := List.length_pos_iff.2 x.nonempty
      have hmode : Serial.SerialReadMode.simple ≠ .ignore := by decide
      rw [if_neg hmode] at hline
      simp only [hl, AtCommands.copyTurn, hcount, hpos, hline, if_true, x.cString_bytes, htime.1,
        AtCommands.copyLines]
      by_cases hfinal : x.bytes = AtCommands.okReply ∨ x.bytes = AtCommands.errReply
      · rw [if_pos hfinal, if_pos (by simpa [AtCommands.isFinal] using hfinal)]
        exact ⟨rest, hrest, by simp [Response.read, AtCommands.crlf], hxs⟩
      · rw [if_neg hfinal, if_neg (by simpa [AtCommands.isFinal] using hfinal), ← hxs]
        let r' : Response η :=
          { r.read l with
            result := true
            response := (r.read l).response ++ x.bytes ++ AtCommands.crlf }
        obtain ⟨ls', hunread', hout, hpass'⟩ := ih (htimes.next hlt) (r := r') hrest
        refine ⟨ls', hunread', hout.trans ?_, hpass'⟩
        simp [r', Response.read]

/-- A line is the reply OK, as the calls see it. -/
theorem isOk {time : ReadTime} {l : LineResult η} {x : TextLine}
    (hcount : l.count = x.bytes.length) (hline : l.line = x.bytes)
    (hout : AtCommands.timedOut time l = false) :
    l.count = AtCommands.okReply.length ∧ AtCommands.timedOut time l = false ∧
      cString l.line = AtCommands.okReply ↔ x.bytes = AtCommands.okReply := by
  rw [hcount, hline, hout, x.cString_bytes]
  exact ⟨fun h => h.2.2, fun h => ⟨by rw [h], rfl, h⟩⟩

theorem readResponse_ok {times : List ReadTime} {ls : List TextLine}
    (htimes : Ample (frames ls) times) :
    AnswersAs fs (AtCommands.readResponse fs .ok times (frames ls))
      (AtCommands.replyOf .ok (ls.filter fs.passes)) := by
  obtain ⟨time, times, rfl, htime⟩ := htimes.head
  rw [AtCommands.readResponse]
  cases hpass : ls.filter fs.passes with
  | nil =>
    obtain ⟨l, hl, hcount, hline, hrest, -⟩ := readInTime_none htime hpass .normal
    simp only [List.headD_cons, hl, hcount, hline]
    exact ⟨[], hrest, rfl, rfl⟩
  | cons x xs =>
    obtain ⟨l, rest, hl, hcount, hline, hrest, hxs, -, hout⟩ :=
      readInTime_some htime hpass .normal
    simp only [List.headD_cons, hl, isOk hcount hline hout]
    exact ⟨rest, hrest, congrArg _ hline, hxs⟩

theorem readResponse_any {times : List ReadTime} {ls : List TextLine}
    (htimes : Ample (frames ls) times) :
    AnswersAs fs (AtCommands.readResponse fs .any times (frames ls))
      (AtCommands.replyOf .any (ls.filter fs.passes)) := by
  obtain ⟨time, times, rfl, htime⟩ := htimes.head
  rw [AtCommands.readResponse]
  cases hpass : ls.filter fs.passes with
  | nil =>
    obtain ⟨l, hl, hcount, -, hrest, -⟩ := readInTime_none htime hpass .normal
    simp only [List.headD_cons, hl, hcount]
    exact ⟨[], hrest, rfl, rfl⟩
  | cons x xs =>
    obtain ⟨l, rest, hl, hcount, hline, hrest, hxs, hlt, hout⟩ :=
      readInTime_some htime hpass .normal
    have hpos : 0 < x.bytes.length := List.length_pos_iff.2 x.nonempty
    have hunread : (({ unread := frames ls } : Response η).read l).unread = frames rest := hrest
    obtain ⟨time', times', rfl, htime'⟩ := (htimes.next hlt).head
    simp only [List.headD_cons, List.tail_cons, hl, hcount, hout, hpos, hunread, hline, true_and,
      if_true]
    cases xs with
    | nil =>
      obtain ⟨ok, hok, hcount', -, hrest', -⟩ := readInTime_none htime' hxs .simple
      simp only [hok, hcount']
      exact ⟨[], hrest', rfl, rfl⟩
    | cons y ys =>
      obtain ⟨ok, rest', hok, hcount', hline', hrest', hys, -, hout'⟩ :=
        readInTime_some htime' hxs .simple
      have hmode : Serial.SerialReadMode.simple ≠ .ignore := by decide
      rw [if_neg hmode] at hline'
      simp only [hok, isOk hcount' hline' hout']
      refine ⟨rest', hrest', ?_, ?_⟩
      · by_cases hy : y.bytes = AtCommands.okReply
        · simp [AtCommands.replyOf, hy]
        · simp [AtCommands.replyOf, hy]
      · rw [hys, AtCommands.replyOf]
        split <;> rfl

theorem readResponse_exact {times : List ReadTime} {ls : List TextLine}
    (htimes : Ample (frames ls) times) :
    AnswersAs fs (AtCommands.readResponse fs .exact times (frames ls))
      (AtCommands.replyOf .exact (ls.filter fs.passes)) := by
  obtain ⟨time, times, rfl, htime⟩ := htimes.head
  rw [AtCommands.readResponse]
  cases hpass : ls.filter fs.passes with
  | nil =>
    obtain ⟨l, hl, hcount, hline, hrest, -⟩ := readInTime_none htime hpass .normal
    simp only [List.headD_cons, hl, hcount, hline]
    exact ⟨[], hrest, rfl, rfl⟩
  | cons x xs =>
    obtain ⟨l, rest, hl, hcount, hline, hrest, hxs, -, hout⟩ :=
      readInTime_some htime hpass .normal
    have hpos : 0 < x.bytes.length := List.length_pos_iff.2 x.nonempty
    simp only [List.headD_cons, hl, hcount, hline, hout, hpos]
    exact ⟨rest, hrest, rfl, hxs⟩

/-- **Replies are replies to what is heard.** -/
theorem readResponse_answers {expected : ExpectedReply} (hexpected : expected ≠ .none)
    {times : List ReadTime} {ls : List TextLine} (htimes : Ample (frames ls) times) :
    AnswersAs fs (AtCommands.readResponse fs expected times (frames ls))
      (AtCommands.replyOf expected (ls.filter fs.passes)) := by
  cases expected with
  | ok => exact readResponse_ok htimes
  | any => exact readResponse_any htimes
  | copy =>
    obtain ⟨ls', hunread, hout, hpass⟩ := copyLoop_answers htimes (r := { unread := frames ls }) rfl
    exact ⟨ls', hunread, hout.trans (by simp [AtCommands.replyOf]), hpass⟩
  | exact => exact readResponse_exact htimes
  | ignore => exact ignoreLoop_answers htimes rfl rfl
  | none => exact absurd rfl hexpected

/-! ## Both sides -/

/-- A modem whose lines come in whole, and in time for the calls that wait for them. -/
structure Punctual (W : OtherEnd ω) (D : LineModem δ) (R : ω → δ → Prop) : Prop where
  write : ∀ {w d} (cmd : Bytes), R w d →
    (W.write w cmd).1 = (D.write d cmd).1 ∧ R (W.write w cmd).2 (D.write d cmd).2
  wait : ∀ {w d} (timeout : Nat) (unread : Bytes), R w d →
    (W.wait w timeout unread).1.said = frames (D.say d timeout).1 ∧
      Ample (unread ++ frames (D.say d timeout).1) (W.wait w timeout unread).1.times ∧
      R (W.wait w timeout unread).2 (D.say d timeout).2

/-- The line of a modem that says all at once. -/
def LineModem.wire (D : LineModem δ) : OtherEnd δ where
  write := D.write
  wait d timeout unread :=
    let said := frames (D.say d timeout).1
    let calls := unread.length + said.length
    let time : ReadTime := { arriving := some calls, timeLeft := true }
    ({ said := said, times := List.replicate (calls + 1) time }, (D.say d timeout).2)

theorem punctual_wire (D : LineModem δ) : Punctual D.wire D Eq where
  write := by
    rintro d _ cmd rfl
    exact ⟨rfl, rfl⟩
  wait := by
    rintro d _ timeout unread rfl
    refine ⟨rfl, ⟨?_, ?_⟩, rfl⟩
    · simp [LineModem.wire]
    · intro time htime
      rw [List.eq_of_mem_replicate htime]
      exact ⟨rfl, _, rfl, by simp⟩

/-- What is unread are lines, and those that no filter is for are heard. -/
structure Speaks (R : ω → δ → Prop) (p : Port η ω) (q : LinePort η δ) : Prop where
  modem : R p.other q.modem
  filters : p.filters = q.filters
  lines : ∃ ls, p.unread = frames ls ∧ ls.filter q.filters.passes = q.heard

theorem passes_iff_key {l : TextLine} :
    fs.passes l = true ↔ ∀ key ∈ fs.map UrcFilter.key, ¬key <+: l.bytes := by
  simp [UrcFilterList.passes, UrcFilterList.handlerOf, l.cString_bytes]

/-- A filter that is added is there, and so are the others. -/
theorem mem_keys_addUrcFilter {urc : Bytes} {handler : η} {key : Bytes} :
    key ∈ (UrcFilterList.addUrcFilter fs urc handler).2.map UrcFilter.key ↔
      key ∈ fs.map UrcFilter.key ∨ key = cString urc := by
  unfold UrcFilterList.addUrcFilter
  split
  · simp [UrcFilter.key]
  · rename_i index hindex
    have hkeys : (fs.modify index ({ · with handler := handler })).map UrcFilter.key =
        fs.map UrcFilter.key := map_key_modify fun _ _ => rfl
    rw [hkeys]
    refine ⟨.inl, fun h => h.elim id ?_⟩
    rintro rfl
    by_contra hkey
    have hnone : UrcFilterList.indexOf fs urc = none :=
      UrcFilterList.indexOf_eq_none.2 fun f hf heq => hkey (List.mem_map.2 ⟨f, hf, heq⟩)
    rw [hnone] at hindex
    cases hindex

/-- No line passes a filter because there is one more. -/
theorem passes_addUrcFilter {urc : Bytes} {handler : η} {l : TextLine}
    (h : UrcFilterList.passes (UrcFilterList.addUrcFilter fs urc handler).2 l = true) :
    fs.passes l = true := by
  rw [passes_iff_key] at h ⊢
  exact fun key hkey => h key (mem_keys_addUrcFilter.2 (.inl hkey))

variable {W : OtherEnd ω} {D : LineModem δ} {R : ω → δ → Prop}

theorem Speaks.read (hW : Punctual W D R) {p : Port η ω} {q : LinePort η δ} (h : Speaks R p q)
    (timeout : Nat) {reading : UrcFilterList η → List ReadTime → Bytes → Response η}
    {lines : List TextLine → (Bool × Bytes) × List TextLine}
    (hreading : ∀ fs times ls, Ample (frames ls) times →
      AnswersAs fs (reading fs times (frames ls)) (lines (ls.filter fs.passes))) :
    (Port.read W timeout reading p).1 = (LinePort.read D timeout lines q).1 ∧
      Speaks R (Port.read W timeout reading p).2 (LinePort.read D timeout lines q).2 := by
  obtain ⟨hmodem, hfilters, ls, hunread, hheard⟩ := h
  obtain ⟨hsaid, hample, hnext⟩ := hW.wait timeout p.unread hmodem
  have hstream : p.unread ++ frames (D.say q.modem timeout).1 =
      frames (ls ++ (D.say q.modem timeout).1) := by rw [hunread, frames_append]
  rw [hstream] at hample
  obtain ⟨ls', hunread', hanswer, hheard'⟩ := hreading q.filters _ _ hample
  rw [List.filter_append, hheard] at hanswer hheard'
  have hread : Port.read W timeout reading p =
      (let r := reading q.filters (W.wait p.other timeout p.unread).1.times
        (frames (ls ++ (D.say q.modem timeout).1))
      ((r.result, r.response),
        { p with
          other := (W.wait p.other timeout p.unread).2
          unread := r.unread
          handled := p.handled ++ r.handled })) := by
    rw [← hstream, ← hsaid, ← hfilters]
    rfl
  rw [hread]
  exact ⟨hanswer, hnext, hfilters, ls', hunread', hheard'⟩

/-- **Whole lines are all that a program sees** of a modem whose lines come in in time. -/
theorem Speaks.run_lines (hW : Punctual W D R) {α : Type} (program : Driver η α) {p : Port η ω}
    {q : LinePort η δ} (h : Speaks R p q) :
    (program.run (Port.exec W) p).1 = (program.run (LinePort.exec D) q).1 ∧
      Speaks R (program.run (Port.exec W) p).2 (program.run (LinePort.exec D) q).2 := by
  refine Calling.run_agrees (fun c p q h => ?_) program h
  cases c with
  | sendCommand cmd =>
    obtain ⟨hsent, hnext⟩ := hW.write cmd h.modem
    exact ⟨hsent, hnext, h.filters, h.lines⟩
  | readResponse expected whole timeout =>
    exact h.read hW timeout fun _ _ _ hample => readResponse_answers whole hample
  | readUntil expected timeout =>
    exact h.read hW timeout fun _ _ _ hample => untilLoop_answers expected hample rfl rfl rfl
  | addUrcFilter urc handler =>
    obtain ⟨hmodem, hfilters, ls, hunread, hheard⟩ := h
    have hadded : UrcFilterList.addUrcFilter p.filters urc handler =
        UrcFilterList.addUrcFilter q.filters urc handler := by rw [hfilters]
    refine ⟨congrArg Prod.fst hadded, hmodem, congrArg Prod.snd hadded, ls, hunread, ?_⟩
    have hpasses : ls.filter (UrcFilterList.addUrcFilter q.filters urc handler).2.passes =
        (ls.filter q.filters.passes).filter
          (UrcFilterList.addUrcFilter q.filters urc handler).2.passes := by
      rw [List.filter_filter]
      refine List.filter_congr fun l _ => ?_
      rw [Bool.eq_iff_iff, Bool.and_eq_true]
      exact ⟨fun h => ⟨h, passes_addUrcFilter h⟩, fun h => h.1⟩
    rw [hheard] at hpasses
    exact hpasses

end LibNbiot
