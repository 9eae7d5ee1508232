/-
# Unsolicited lines and calls that run out of time

A line that a filter is for can come in while any number of calls end before it is
complete. Its handler gets it exactly if one call reads it from its first byte to its
line feed, and if that call knows that a line has begun: it is in simple mode, or it
has read the line feed in front of the line as well.
-/

import LibNbiot.Modem.SerialLines

namespace LibNbiot

namespace Serial

variable {η : Type} {fs : UrcFilterList η}

/-! ## Reading on -/

/-- A reading at any byte: the index counts the bytes of the line, and there are none
before the first line feed. -/
structure Reading.Sound (r : Reading η) : Prop where
  index_eq : r.index = r.line.length
  empty : r.lineStatus = .empty → r.line = []
  nonzero : 0 ∉ r.line

theorem Reading.Sound.cString_eq {r : Reading η} (h : r.Sound) : cString r.line = r.line := by
  rw [cString, List.takeWhile_eq_self_iff]
  intro c hc
  exact decide_eq_true fun hzero => h.nonzero (hzero ▸ hc)

theorem lineStatus_ne_complete (readMode : SerialReadMode) : readMode.lineStatus ≠ .complete := by
  cases readMode <;> decide

theorem sound_start (readMode : SerialReadMode) :
    (Reading.mk (η := η) [] 0 readMode.lineStatus []).Sound :=
  ⟨rfl, fun _ => rfl, List.not_mem_nil⟩

/-- A byte is one of the line, or it ends a line that goes to a handler, or nothing
comes of it. -/
theorem receiveByte_cases (fs : UrcFilterList η) (r : Reading η) (c : UInt8) :
    (∃ lineStatus, receiveByte fs r c = { r with lineStatus := lineStatus } ∧
      (lineStatus = .empty → r.lineStatus = .empty)) ∨
    (c ≠ 0 ∧ text [c] = [c] ∧ r.lineStatus = .data ∧
      receiveByte fs r c = { r with line := r.line ++ [c], index := r.index + 1 }) ∨
    (c = lineFeed ∧ 0 < r.index ∧ ∃ handler, fs.handlerOf r.line = some handler ∧
      receiveByte fs r c =
        { lineStatus := .data, handled := r.handled ++ [(handler, cString r.line)] }) := by
  by_cases hc : c = lineFeed
  · subst hc
    by_cases hnone : r.lineStatus = .empty ∨ r.lineStatus = .data ∧ r.index = 0
    · exact .inl ⟨.data, receiveByte_lineFeed_none fs hnone, nofun⟩
    · cases hstatus : r.lineStatus with
      | empty => exact absurd (.inl hstatus) hnone
      | complete =>
        refine .inl ⟨r.lineStatus, ?_, fun hempty => absurd (hstatus.symm.trans hempty) nofun⟩
        rw [receiveByte, if_neg (by decide), if_neg (by simp [hstatus]), if_neg (by simp [hstatus]),
          if_neg (by simp [hstatus])]
      | data =>
        have hindex : 0 < r.index := Nat.pos_of_ne_zero fun hzero => hnone (.inr ⟨hstatus, hzero⟩)
        rw [receiveByte_lineFeed fs hstatus hindex]
        cases hhandler : fs.handlerOf r.line with
        | some handler => exact .inr (.inr ⟨rfl, hindex, handler, rfl, rfl⟩)
        | none => exact .inl ⟨.complete, rfl, nofun⟩
  · rw [receiveByte_eq_collect fs hc]
    unfold Reading.collect
    split
    · rename_i hstatus
      by_cases htext : isText c = true
      · have hone : text [c] = [c] := List.filter_eq_self.2 (by simpa using htext)
        have hzero : c ≠ 0 := (of_decide_eq_true htext).1
        exact .inr (.inl ⟨hzero, hone, hstatus, by rw [hone]; rfl⟩)
      · have hskip : text [c] = [] := by simp [text, htext]
        exact .inl ⟨r.lineStatus, by simp [hskip], id⟩
    · exact .inl ⟨r.lineStatus, rfl, id⟩

theorem receiveByte_sound {r : Reading η} (h : r.Sound) (c : UInt8) :
    (receiveByte fs r c).Sound := by
  obtain ⟨lineStatus, hr, hempty⟩ | ⟨hzero, -, hdata, hr⟩ | ⟨-, -, handler, -, hr⟩ :=
    receiveByte_cases fs r c
  · rw [hr]
    exact ⟨h.index_eq, fun hnone => h.empty (hempty hnone), h.nonzero⟩
  · rw [hr]
    refine ⟨by simp [h.index_eq], fun hnone => ?_, ?_⟩
    · exact absurd (hdata.symm.trans hnone) nofun
    · simpa [h.nonzero] using hzero.symm
  · rw [hr]
    exact ⟨rfl, fun _ => rfl, List.not_mem_nil⟩

theorem readBytes_singleton (fs : UrcFilterList η) (r : Reading η) (c : UInt8) :
    (readBytes fs r [c]).1 = receiveByte fs r c := by
  rw [readBytes]
  split <;> rfl

/-- A call that does not return within some bytes goes on with the next ones. -/
theorem readBytes_append {r : Reading η} {bytes : Bytes}
    (h : (readBytes fs r bytes).1.lineStatus ≠ .complete) (rest : Bytes) :
    readBytes fs r (bytes ++ rest) = readBytes fs (readBytes fs r bytes).1 rest := by
  induction bytes generalizing r with
  | nil => rfl
  | cons c bytes ih =>
    rw [readBytes] at h
    rw [List.cons_append, readBytes, readBytes]
    split
    · rename_i hcomplete
      rw [if_pos hcomplete] at h
      exact absurd hcomplete h
    · rename_i hmore
      rw [if_neg hmore] at h
      exact ih h

/-- A call that reads more has not returned before. -/
theorem not_complete_of_unread {r : Reading η} (hr : r.lineStatus ≠ .complete) {bytes rest : Bytes}
    (hrest : rest ≠ []) (h : (readBytes fs r (bytes ++ rest)).2 = []) :
    (readBytes fs r bytes).1.lineStatus ≠ .complete := by
  induction bytes generalizing r with
  | nil => exact hr
  | cons c bytes ih =>
    rw [List.cons_append, readBytes] at h
    rw [readBytes]
    split
    · rename_i hcomplete
      rw [if_pos hcomplete] at h
      exact absurd (List.append_eq_nil_iff.1 h).2 hrest
    · rename_i hmore
      rw [if_neg hmore] at h
      exact ih hmore h

theorem readBytes_sound (fs : UrcFilterList η) {r : Reading η} (h : r.Sound) (bytes : Bytes) :
    (readBytes fs r bytes).1.Sound := by
  induction bytes generalizing r with
  | nil => exact h
  | cons c bytes ih =>
    rw [readBytes]
    split
    · exact receiveByte_sound h c
    · exact ih (receiveByte_sound h c)

/-- Behind a line feed, a call that has not returned is at the beginning of a line. -/
theorem receiveByte_lineFeed_starts {r : Reading η} (h : r.Sound)
    (hr : r.lineStatus ≠ .complete)
    (hmore : (receiveByte fs r lineFeed).lineStatus ≠ .complete) :
    ∃ handled, receiveByte fs r lineFeed = { lineStatus := .data, handled := handled } := by
  obtain ⟨line, index, lineStatus, handled⟩ := r
  have hindex : index = line.length := h.index_eq
  cases lineStatus with
  | empty =>
    obtain rfl : line = [] := h.empty rfl
    obtain rfl : index = 0 := hindex
    exact ⟨handled, receiveByte_lineFeed_none fs (.inl rfl)⟩
  | data =>
    obtain rfl | hpos := Nat.eq_zero_or_pos index
    · obtain rfl : line = [] := List.length_eq_zero_iff.1 hindex.symm
      exact ⟨handled, receiveByte_lineFeed_none fs (.inr ⟨rfl, rfl⟩)⟩
    · rw [receiveByte_lineFeed fs rfl hpos] at hmore ⊢
      dsimp only at hmore ⊢
      cases hhandler : fs.handlerOf line with
      | some handler => exact ⟨_, rfl⟩
      | none =>
        rw [hhandler] at hmore
        exact absurd rfl hmore
  | complete => exact absurd rfl hr

/-- A call at the beginning of what it reads, or behind a line feed: it is at the
beginning of a line, unless it is not in simple mode and has not seen a line feed. -/
theorem readBytes_starts (fs : UrcFilterList η) (readMode : SerialReadMode) {bytes rest : Bytes}
    (hbytes : bytes = [] ∨ ∃ init, bytes = init ++ [lineFeed]) (hrest : rest ≠ [])
    (h : (readBytes fs { lineStatus := readMode.lineStatus } (bytes ++ rest)).2 = []) :
    ∃ handled, (readBytes fs { lineStatus := readMode.lineStatus } bytes).1 =
      { lineStatus := if readMode = .simple ∨ bytes ≠ [] then .data else .empty,
        handled := handled } := by
  have hstart := lineStatus_ne_complete readMode
  have hmore := not_complete_of_unread (r := { lineStatus := readMode.lineStatus }) hstart hrest h
  obtain rfl | ⟨init, rfl⟩ := hbytes
  · refine ⟨[], ?_⟩
    cases readMode <;> rfl
  · rw [List.append_assoc] at h
    have hinit := not_complete_of_unread (r := { lineStatus := readMode.lineStatus }) hstart
      (List.append_ne_nil_of_left_ne_nil (List.cons_ne_nil lineFeed []) rest) h
    have hsound := readBytes_sound fs (sound_start readMode) init
    rw [readBytes_append hinit] at hmore ⊢
    generalize (readBytes fs { lineStatus := readMode.lineStatus } init).1 = r at *
    rw [readBytes_singleton] at hmore ⊢
    simpa using receiveByte_lineFeed_starts hsound hinit hmore

/-! ## What a line and its line feed do -/

/-- The text of a line, without anything that is left out or ends it. -/
def IsLine (l : Bytes) : Prop := ∀ c ∈ l, c ≠ 0 ∧ c ≠ carriageReturn ∧ c ≠ lineFeed

instance (l : Bytes) : Decidable (IsLine l) := inferInstanceAs (Decidable (∀ c ∈ l, _))

/-- How a line ends. -/
def crlf : Bytes := [carriageReturn, lineFeed]

theorem IsLine.text_eq {l : Bytes} (h : IsLine l) : text l = l := by
  rw [text, List.filter_eq_self]
  intro c hc
  exact decide_eq_true ⟨(h c hc).1, (h c hc).2.1⟩

theorem IsLine.lineFeed_not_mem {l : Bytes} (h : IsLine l) : lineFeed ∉ l :=
  fun hmem => (h lineFeed hmem).2.2 rfl

/-- A line goes to its handler when it is read from the beginning of a line, and only
then. -/
theorem readBytes_line_iff {l : Bytes} (hl : IsLine l) {handler : η}
    (hhandler : fs.handlerOf l = some handler) (starts : Prop) [Decidable starts]
    (handled : List (η × Bytes)) :
    (readBytes fs { lineStatus := if starts then .data else .empty, handled := handled }
        (l ++ crlf)).1.handled = handled ++ [(handler, l)] ↔ starts ∧ l ≠ [] := by
  have hsplit : l ++ crlf = (l ++ [carriageReturn]) ++ [lineFeed] := by simp [crlf]
  have hpiece : lineFeed ∉ l ++ [carriageReturn] := by
    rw [List.mem_append, List.mem_singleton]
    exact not_or.2 ⟨hl.lineFeed_not_mem, by decide⟩
  have htext : text (l ++ [carriageReturn]) = l := by
    rw [text_append, hl.text_eq]
    exact List.append_nil l
  have hnone : handled ≠ handled ++ [(handler, l)] := by simp
  rw [hsplit, readBytes_piece fs (by split <;> nofun) hpiece, readBytes_singleton]
  by_cases hstarts : starts
  · rw [if_pos hstarts]
    have hcollect : Reading.collect { lineStatus := .data, handled := handled }
        (l ++ [carriageReturn]) =
          { line := l, index := l.length, lineStatus := .data, handled := handled } := by
      simp only [Reading.collect, if_true, htext, List.nil_append, Nat.zero_add]
    rw [hcollect]
    obtain rfl | hline := eq_or_ne l []
    · rw [receiveByte_lineFeed_none fs (.inr ⟨rfl, rfl⟩)]
      simp
    · rw [receiveByte_lineFeed fs rfl (List.length_pos_iff.2 hline), hhandler,
        ← hl.text_eq, cString_text, hl.text_eq]
      simp [hstarts, hline]
  · rw [if_neg hstarts]
    have hcollect : Reading.collect { lineStatus := .empty, handled := handled }
        (l ++ [carriageReturn]) = { lineStatus := .empty, handled := handled } := rfl
    rw [hcollect, receiveByte_lineFeed_none fs (.inl rfl)]
    simp [hstarts]

/-! ## What a call can hand over at all -/

/-- What the handlers get is not empty, and has come in with a line feed behind it. -/
theorem handled_readBytes (fs : UrcFilterList η) {r : Reading η} (hr : r.Sound) (bytes : Bytes) :
    ∃ handled, (readBytes fs r bytes).1.handled = r.handled ++ handled ∧
      ∀ call ∈ handled, call.2 ≠ [] ∧ call.2.length < r.index + (text bytes).length := by
  induction bytes generalizing r with
  | nil => exact ⟨[], (List.append_nil _).symm, nofun⟩
  | cons c bytes ih =>
    have hstep : ∃ handled, (receiveByte fs r c).handled = r.handled ++ handled ∧
        (receiveByte fs r c).index ≤ r.index + (text [c]).length ∧
        ∀ call ∈ handled, call.2 ≠ [] ∧ call.2.length < r.index + (text [c]).length := by
      obtain ⟨lineStatus, hr', -⟩ | ⟨-, htext, -, hr'⟩ | ⟨rfl, hindex, handler, -, hr'⟩ :=
        receiveByte_cases fs r c
      · rw [hr']
        exact ⟨[], (List.append_nil _).symm, Nat.le_add_right _ _, nofun⟩
      · rw [hr', htext]
        exact ⟨[], (List.append_nil _).symm, le_rfl, nofun⟩
      · rw [hr', hr.cString_eq]
        refine ⟨_, rfl, Nat.zero_le _, ?_⟩
        have hlength := hr.index_eq
        intro call hcall
        obtain rfl := List.mem_singleton.1 hcall
        refine ⟨List.length_pos_iff.1 (hlength ▸ hindex), ?_⟩
        exact hlength.symm.trans_lt (Nat.lt_add_one _)
    obtain ⟨first, hfirst, hindex, hfirsts⟩ := hstep
    have htext : (text (c :: bytes)).length = (text [c]).length + (text bytes).length := by
      rw [← List.length_append, ← text_append]
      rfl
    rw [htext, readBytes]
    split
    · refine ⟨first, hfirst, fun call hcall => ?_⟩
      obtain ⟨hne, hlt⟩ := hfirsts call hcall
      exact ⟨hne, by omega⟩
    · obtain ⟨more, hmore, hmores⟩ := ih (receiveByte_sound hr c)
      refine ⟨first ++ more, by rw [hmore, hfirst, List.append_assoc], fun call hcall => ?_⟩
      obtain hcall | hcall := List.mem_append.1 hcall
      · obtain ⟨hne, hlt⟩ := hfirsts call hcall
        exact ⟨hne, by omega⟩
      · obtain ⟨hne, hlt⟩ := hmores call hcall
        exact ⟨hne, by omega⟩

/-! ## Sequences of calls -/

/-- A call with the bytes that it reads: those that come in before it returns or runs out
of time. -/
structure Call (fs : UrcFilterList η) where
  readMode : SerialReadMode
  bytes : Bytes
  reads : (readLine fs [] readMode bytes).unread = []

/-- The bytes that some calls read. -/
def streamOf (calls : List (Call fs)) : Bytes := calls.flatMap (·.bytes)

/-- What the handlers get while so many bytes come in. -/
def handledIn : Nat → List (Call fs) → List (η × Bytes)
  | _, [] => []
  | n, c :: calls =>
      (readLine fs [] c.readMode (c.bytes.take n)).handled ++ handledIn (n - c.bytes.length) calls

/-- A line in a stream goes to a handler: what the handlers get while the line and its end
come in is the line, once. -/
def Passes (calls : List (Call fs)) (before l : Bytes) (handler : η) : Prop :=
  handledIn (before ++ l ++ crlf).length calls =
    handledIn before.length calls ++ [(handler, l)]

instance [DecidableEq η] (calls : List (Call fs)) (before l : Bytes) (handler : η) :
    Decidable (Passes calls before l handler) :=
  inferInstanceAs (Decidable (_ = _))

/-- One of the calls reads the line as a whole, and knows that it begins: it is in simple
mode, or it reads the line feed in front of the line too. -/
def ReadsWhole (calls : List (Call fs)) (before l : Bytes) : Prop :=
  ∃ pre c post u v, calls = pre ++ c :: post ∧ streamOf pre ++ u = before ∧
    c.bytes = u ++ (l ++ crlf) ++ v ∧ (c.readMode = .simple ∨ u ≠ [])

@[simp] theorem handledIn_zero (calls : List (Call fs)) : handledIn 0 calls = [] := by
  induction calls with
  | nil => rfl
  | cons c calls ih =>
    rw [handledIn, List.take_zero, Nat.zero_sub, ih, List.append_nil]
    rfl

/-- What the handlers get is not empty, and has come in with a line feed behind it. -/
theorem mem_handledIn {calls : List (Call fs)} {n : Nat} {call : η × Bytes}
    (h : call ∈ handledIn n calls) :
    call.2 ≠ [] ∧ call.2.length < (text ((streamOf calls).take n)).length := by
  induction calls generalizing n with
  | nil => exact absurd h List.not_mem_nil
  | cons c calls ih =>
    have hstream : (text ((streamOf (c :: calls)).take n)).length =
        (text (c.bytes.take n)).length +
          (text ((streamOf calls).take (n - c.bytes.length))).length := by
      rw [← List.length_append, ← text_append, streamOf, List.flatMap_cons, List.take_append]
      rfl
    rw [handledIn] at h
    obtain h | h := List.mem_append.1 h
    · obtain ⟨handled, hhandled, hall⟩ :=
        handled_readBytes fs (sound_start c.readMode) (c.bytes.take n)
      have hmem : call ∈ handled := by
        have hsame : handled = (readLine fs [] c.readMode (c.bytes.take n)).handled := hhandled.symm
        rw [hsame]
        exact h
      obtain ⟨hne, hlt⟩ := hall call hmem
      dsimp only at hlt
      exact ⟨hne, by omega⟩
    · obtain ⟨hne, hlt⟩ := ih h
      exact ⟨hne, by omega⟩

theorem handledIn_cons (c : Call fs) (calls : List (Call fs)) (rest : Bytes) :
    handledIn (c.bytes ++ rest).length (c :: calls) =
      (readLine fs [] c.readMode c.bytes).handled ++ handledIn rest.length calls := by
  rw [handledIn, List.length_append, List.take_of_length_le (Nat.le_add_right ..),
    Nat.add_sub_cancel_left]

/-- A call in front of the line changes nothing. -/
theorem passes_cons {c : Call fs} {calls : List (Call fs)} {rest l : Bytes} {handler : η} :
    Passes (c :: calls) (c.bytes ++ rest) l handler ↔ Passes calls rest l handler := by
  rw [Passes, List.append_assoc, List.append_assoc, handledIn_cons, handledIn_cons,
    List.append_assoc, List.append_cancel_left_eq, ← List.append_assoc, Passes]

theorem readsWhole_cons {c : Call fs} {calls : List (Call fs)} {rest l : Bytes} :
    ReadsWhole (c :: calls) (c.bytes ++ rest) l ↔ ReadsWhole calls rest l := by
  constructor
  · rintro ⟨pre, c', post, u, v, hcalls, hu, hc, hknows⟩
    cases pre with
    | nil =>
      obtain ⟨rfl, rfl⟩ := List.cons.inj hcalls
      obtain rfl : u = c.bytes ++ rest := hu
      have hlength := congrArg List.length hc
      simp [crlf] at hlength
    | cons c₁ pre =>
      obtain ⟨rfl, rfl⟩ := List.cons.inj hcalls
      rw [streamOf, List.flatMap_cons, List.append_assoc] at hu
      exact ⟨pre, c', post, u, v, rfl, List.append_cancel_left hu, hc, hknows⟩
  · rintro ⟨pre, c', post, u, v, rfl, rfl, hc, hknows⟩
    refine ⟨c :: pre, c', post, u, v, rfl, ?_, hc, hknows⟩
    rw [streamOf, List.flatMap_cons, List.append_assoc]
    rfl

/-- A call that reads the line is the one that it begins in. -/
theorem readsWhole_whole {c : Call fs} {calls : List (Call fs)} {before l rest : Bytes}
    (hc : c.bytes = before ++ (l ++ crlf) ++ rest) :
    ReadsWhole (c :: calls) before l ↔ c.readMode = .simple ∨ before ≠ [] := by
  constructor
  · rintro ⟨pre, c', post, u, v, hcalls, hu, hc', hknows⟩
    cases pre with
    | nil =>
      obtain ⟨rfl, rfl⟩ := List.cons.inj hcalls
      obtain rfl : u = before := hu
      exact hknows
    | cons c₁ pre =>
      obtain ⟨rfl, rfl⟩ := List.cons.inj hcalls
      have hlength := congrArg List.length hu
      rw [streamOf, List.flatMap_cons, hc] at hlength
      simp [crlf] at hlength
  · exact fun hknows => ⟨[], c, calls, before, rest, rfl, rfl, hc, hknows⟩

/-- A call that reads the line as a whole. -/
theorem passes_whole {c : Call fs} {calls : List (Call fs)} {before l : Bytes} (rest : Bytes)
    {handler : η}
    (hbefore : before = [] ∨ ∃ init, before = init ++ [lineFeed])
    (hc : c.bytes = before ++ (l ++ crlf) ++ rest) (hl : IsLine l)
    (hhandler : fs.handlerOf l = some handler) :
    Passes (c :: calls) before l handler ↔ l ≠ [] ∧ ReadsWhole (c :: calls) before l := by
  have hreads := c.reads
  rw [hc, List.append_assoc] at hreads
  obtain ⟨handled, hstarts⟩ := readBytes_starts fs c.readMode hbefore (by simp [crlf]) hreads
  have hmore : (readBytes fs { lineStatus := c.readMode.lineStatus } before).1.lineStatus ≠
      .complete := by
    rw [hstarts]
    dsimp only
    split <;> nofun
  have htake : c.bytes.take before.length = before := by
    rw [hc, List.append_assoc, List.take_left]
  have htake' : c.bytes.take (before ++ l ++ crlf).length = before ++ (l ++ crlf) := by
    rw [hc, List.append_assoc before l crlf, List.take_left]
  have hfit : (before ++ l ++ crlf).length ≤ c.bytes.length := by
    rw [hc]
    simp
  have hnone : before.length - c.bytes.length = 0 := by
    rw [hc]
    simp
  have hline := readBytes_line_iff hl hhandler (c.readMode = .simple ∨ before ≠ []) handled
  have hpasses : Passes (c :: calls) before l handler ↔
      (c.readMode = .simple ∨ before ≠ []) ∧ l ≠ [] := by
    rw [← hline, Passes, handledIn, handledIn, htake, htake', Nat.sub_eq_zero_of_le hfit, hnone,
      handledIn_zero, List.append_nil, List.append_nil]
    have hfirst : (readLine fs [] c.readMode before).handled = handled :=
      congrArg Reading.handled hstarts
    have hboth : (readLine fs [] c.readMode (before ++ (l ++ crlf))).handled =
        (readBytes fs (readBytes fs { lineStatus := c.readMode.lineStatus } before).1
          (l ++ crlf)).1.handled :=
      congrArg (fun r => r.1.handled) (readBytes_append hmore _)
    rw [hfirst, hboth, hstarts]
  rw [hpasses, readsWhole_whole hc, and_comm]

/-- A part of a line with its end, but not all of it, goes on in one piece. -/
theorem lineFeed_not_mem_part {l part rest : Bytes} (hl : l ++ crlf = part ++ rest)
    (hrest : rest ≠ []) (hline : IsLine l) : lineFeed ∉ part := by
  have hend : ∃ rest', l ++ [carriageReturn] = part ++ rest' := by
    obtain rfl | ⟨rest', last, rfl⟩ := List.eq_nil_or_concat rest
    · exact absurd rfl hrest
    · have hsame : (l ++ [carriageReturn]) ++ [lineFeed] = (part ++ rest') ++ [last] := by
        simpa [crlf] using hl
      exact ⟨rest', (List.append_inj' hsame rfl).1⟩
  obtain ⟨rest', hrest'⟩ := hend
  intro hmem
  have hmem : lineFeed ∈ l ++ [carriageReturn] := hrest' ▸ List.mem_append_left _ hmem
  rcases List.mem_append.1 hmem with hmem | hmem
  · exact hline.lineFeed_not_mem hmem
  · exact absurd (List.mem_singleton.1 hmem) (by decide)

/-- A line does not fit into what is left of it behind a part. -/
theorem length_text_rest_le {l part rest : Bytes} (hl : l ++ crlf = part ++ rest) (hne : l ≠ [])
    (hpart : part ≠ []) (hline : IsLine l) : (text rest).length ≤ l.length := by
  obtain ⟨a, l', rfl⟩ := List.exists_cons_of_ne_nil hne
  obtain ⟨b, part', rfl⟩ := List.exists_cons_of_ne_nil hpart
  obtain ⟨rfl, -⟩ := List.cons.inj hl
  have htext := congrArg (fun bytes => (text bytes).length) hl
  have hkept : isText a = true := by
    have ha := hline a List.mem_cons_self
    exact decide_eq_true ⟨ha.1, ha.2.1⟩
  have hfirst : text (a :: part') = a :: text part' := List.filter_cons_of_pos hkept
  have hcrlf : (text crlf).length = 1 := by decide
  simp only [text_append, List.length_append, hline.text_eq, hfirst, hcrlf,
    List.length_cons] at htext ⊢
  omega

/-- A call that reads a part of the line. -/
theorem not_passes_of_part {c : Call fs} {calls : List (Call fs)} {before l part rest after : Bytes}
    (handler : η) (hc : c.bytes = before ++ part) (hpart : part ≠ []) (hrest : rest ≠ [])
    (hl : l ++ crlf = part ++ rest) (hstream : streamOf calls = rest ++ after) (hline : IsLine l) :
    ¬Passes (c :: calls) before l handler := by
  intro hpasses
  have hall : before ++ l ++ crlf = c.bytes ++ rest := by
    rw [hc, List.append_assoc, List.append_assoc, hl]
  have htake : c.bytes.take before.length = before := by rw [hc, List.take_left]
  have hnone : before.length - c.bytes.length = 0 := by
    rw [hc]
    simp
  have hquiet : (readLine fs [] c.readMode c.bytes).handled =
      (readLine fs [] c.readMode before).handled := by
    have hreads := c.reads
    rw [hc] at hreads
    have hmore := not_complete_of_unread (lineStatus_ne_complete c.readMode) hpart hreads
    rw [hc, readLine, readLine, readBytes_append hmore, ← List.append_nil part,
      readBytes_piece fs hmore (lineFeed_not_mem_part hl hrest hline)]
    exact collect_handled _ _
  rw [Passes, hall, handledIn_cons, handledIn, htake, hnone, handledIn_zero, List.append_nil,
    hquiet, List.append_cancel_left_eq] at hpasses
  have hmem : (handler, l) ∈ handledIn rest.length calls := by
    rw [hpasses]
    exact List.mem_singleton_self _
  obtain ⟨hne, hlt⟩ := mem_handledIn hmem
  rw [hstream, List.take_left] at hlt
  exact absurd hlt (Nat.not_lt.2 (length_text_rest_le hl hne hpart hline))

theorem not_readsWhole_of_part {c : Call fs} {calls : List (Call fs)} {before l part rest : Bytes}
    (hc : c.bytes = before ++ part) (hpart : part ≠ []) (hrest : rest ≠ [])
    (hl : l ++ crlf = part ++ rest) : ¬ReadsWhole (c :: calls) before l := by
  rintro ⟨pre, c', post, u, v, hcalls, hu, hc', -⟩
  have hlength := congrArg List.length hl
  have hpos := List.length_pos_iff.2 hrest
  have hpos' := List.length_pos_iff.2 hpart
  cases pre with
  | nil =>
    obtain ⟨rfl, rfl⟩ := List.cons.inj hcalls
    obtain rfl : u = before := hu
    have hshort := congrArg List.length (hc.symm.trans hc')
    simp only [List.length_append] at hlength hshort
    omega
  | cons c₁ pre =>
    obtain ⟨rfl, rfl⟩ := List.cons.inj hcalls
    have hlong := congrArg List.length hu
    rw [streamOf, List.flatMap_cons, hc] at hlong
    simp only [List.length_append] at hlong
    omega

/-- A line that begins where the stream begins, or behind a line feed. -/
theorem passes_iff_readsWhole {calls : List (Call fs)} {before l after : Bytes} {handler : η}
    (hbefore : before = [] ∨ ∃ init, before = init ++ [lineFeed])
    (hstream : streamOf calls = before ++ (l ++ crlf) ++ after) (hl : IsLine l)
    (hhandler : fs.handlerOf l = some handler) :
    Passes calls before l handler ↔ l ≠ [] ∧ ReadsWhole calls before l := by
  induction calls generalizing before with
  | nil =>
    have hlength := congrArg List.length hstream
    simp [streamOf, crlf] at hlength
  | cons c calls ih =>
    rw [streamOf, List.flatMap_cons] at hstream
    have hahead (rest : Bytes) (hrest : before = c.bytes ++ rest)
        (hcalls : streamOf calls = rest ++ (l ++ crlf) ++ after) :
        Passes (c :: calls) before l handler ↔ l ≠ [] ∧ ReadsWhole (c :: calls) before l := by
      subst hrest
      rw [passes_cons, readsWhole_cons]
      refine ih ?_ hcalls
      obtain hnil | ⟨init, hinit⟩ := hbefore
      · exact .inl (List.append_eq_nil_iff.1 hnil).2
      · obtain rfl | ⟨init', last, rfl⟩ := List.eq_nil_or_concat rest
        · exact .inl rfl
        · have hlast : (c.bytes ++ init') ++ [last] = init ++ [lineFeed] := by simpa using hinit
          obtain rfl := List.singleton_inj.1 (List.append_inj' hlast rfl).2
          exact .inr ⟨init', List.concat_eq_append⟩
    rw [List.append_assoc before] at hstream
    obtain ⟨rest, hrest, hcalls⟩ | ⟨part, hc, hline⟩ := List.append_eq_append_iff.1 hstream
    · exact hahead rest hrest (by rw [List.append_assoc]; exact hcalls)
    · by_cases hpart : part = []
      · subst hpart
        exact hahead [] (by simpa using hc.symm) hline.symm
      · obtain ⟨rest, rfl, -⟩ | ⟨rest, hcut, hcalls⟩ := List.append_eq_append_iff.1 hline
        · exact passes_whole rest hbefore (by rw [hc, ← List.append_assoc before]) hl hhandler
        · by_cases hrest : rest = []
          · subst hrest
            rw [List.append_nil] at hcut
            exact passes_whole [] hbefore (by rw [hc, hcut, List.append_nil]) hl hhandler
          · have hlost := not_passes_of_part handler hc hpart hrest hcut hcalls hl
            exact iff_of_false hlost fun h => not_readsWhole_of_part hc hpart hrest hcut h.2

/-- **A line goes to its handler**, complete and once, exactly if it is not empty, one call
reads it as a whole, and that call is in simple mode or reads the line feed in front of
the line too. -/
theorem passes_iff (calls : List (Call fs)) (before l after : Bytes) (handler : η)
    (hstream : streamOf calls = before ++ crlf ++ l ++ crlf ++ after) (hl : IsLine l)
    (hplace : place fs l = .handled handler l) :
    Passes calls (before ++ crlf) l handler ↔ l ≠ [] ∧ ReadsWhole calls (before ++ crlf) l := by
  have hhandler : fs.handlerOf l = some handler := by
    rw [place_eq fs (hl.text_eq ▸ cString_text l)] at hplace
    cases hfind : fs.handlerOf l with
    | some h =>
      rw [hfind] at hplace
      exact congrArg some (Delivery.handled.inj hplace).1
    | none =>
      rw [hfind] at hplace
      cases hplace
  rw [List.append_assoc (before ++ crlf)] at hstream
  refine passes_iff_readsWhole (.inr ⟨before ++ [carriageReturn], ?_⟩) hstream hl hhandler
  simp [crlf]

/-- A filter for lines that begin with `+N`. -/
def filterN : UrcFilterList Nat := [⟨[43, 78], 1⟩]

/-- A call that gets a response, and one that gets what comes in behind it. -/
def responseThenLine : List (Call filterN) :=
  [⟨.normal, [13, 10, 79, 75, 13, 10], by decide⟩,
    ⟨.ignore, [13, 10, 43, 78, 55, 13, 10, 13], by decide⟩]

/-- A response, and an unsolicited line that the next call reads. -/
theorem passes_iff_behind_response :
    Passes responseThenLine ([13, 10, 79, 75, 13, 10] ++ crlf) [43, 78, 55] 1 ↔
      ([43, 78, 55] : Bytes) ≠ [] ∧
        ReadsWhole responseThenLine ([13, 10, 79, 75, 13, 10] ++ crlf) [43, 78, 55] :=
  passes_iff responseThenLine [13, 10, 79, 75, 13, 10] [43, 78, 55] [13] 1 (by decide)
    (by decide +kernel) (by decide +kernel)

/-- A call runs out of time in the middle of the line; what it has read is lost, and the
rest of the line is no line for a filter. -/
theorem not_passes_cut :
    ∃ calls : List (Call filterN),
      calls.map (·.readMode) = [.ignore, .simple] ∧
      streamOf calls = [] ++ crlf ++ [43, 78, 55] ++ crlf ++ [] ∧ IsLine [43, 78, 55] ∧
      place filterN [43, 78, 55] = .handled 1 [43, 78, 55] ∧
      ¬Passes calls ([] ++ crlf) [43, 78, 55] 1 :=
  ⟨[⟨.ignore, [13, 10, 43], by decide⟩, ⟨.simple, [78, 55, 13, 10], by decide⟩], rfl, by decide,
    by decide +kernel, by decide +kernel, by decide +kernel⟩

end Serial

end LibNbiot
