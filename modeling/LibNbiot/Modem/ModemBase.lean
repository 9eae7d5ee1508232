/-
# The modem base class

Two members of `ModemBase`: `sendAtCommand` hands a reply to the caller, and
`parseCeregUrc` reads the registration status out of an unasked line. The line has
eight positions; its fields are what a split at the commas finds, and a split finds
no empty fields.
-/

import LibNbiot.Modem.AtCommands
import LibNbiot.Modem.Copying
import LibNbiot.Modem.SplitJoin

namespace LibNbiot

open Logic

/-- `CeregResponse`, with the arrays of its strings. -/
structure CeregResponse where
  stat : Int := 0
  tac : Vector UInt8 3 := .replicate 3 0
  ci : Vector UInt8 5 := .replicate 5 0
  act : Int := 0
  causeType : Int := 0
  rejectCause : Int := 0
  activeTime : Vector UInt8 9 := .replicate 9 0
  periodicTau : Vector UInt8 9 := .replicate 9 0
  deriving DecidableEq, Repr

/-- `ModemBase`, as far as the registration status goes. -/
structure ModemBase where
  /-- A handler is attached. -/
  ceregHandler : Bool := false
  ceregResponse : CeregResponse := {}
  deriving DecidableEq, Repr

namespace ModemBase

def comma : UInt8 := 44

def colon : UInt8 := 58

def space : UInt8 := 32

/-- `"+CEREG:"`. -/
def respCEREG : Bytes := [43, 67, 69, 82, 69, 71, 58]

def cuTacLen : Nat := 2

def cuCiLen : Nat := 4

def cuActiveTimeLen : Nat := 8

def cuPeriodicTauLen : Nat := 8

/-- `"OK"`. -/
def okReply : Bytes := [79, 75]

/-- `"ERROR"`. -/
def errReply : Bytes := [69, 82, 82, 79, 82]

/-! ## Commands of the caller -/

/-- `readResponse(REPLY_COPY)`: the lines that come in in time, until one ends the
reply, each with a line end behind it. -/
def copyResponse : List Bytes → Bytes
  | [] => []
  | line :: lines =>
      line ++ [13, 10] ++
        if cString line = okReply ∨ cString line = errReply then [] else copyResponse lines

/-- `sendAtCommand(command, response, len, timeout)`: the result and what is written
to `response`. -/
def sendAtCommand (sent : Bool) (lines : List Bytes) (len : Nat) : Bool × List Store :=
  if sent ∧ lines ≠ [] then
    let res := cString (copyResponse lines)
    if res.length ≤ len then (true, (copy res len).1) else (false, [])
  else (false, [])

/-- The loop of `REPLY_COPY`, from any response on. -/
theorem copyLoop_eq {η : Type} (fs : UrcFilterList η) (times : List ReadTime) (r : Response η) :
    (AtCommands.copyLoop fs times r).response =
        r.response ++ copyResponse (AtCommands.linesInTime fs times r.unread) ∧
      ((AtCommands.copyLoop fs times r).result = true ↔
        r.result = true ∨ AtCommands.linesInTime fs times r.unread ≠ []) := by
  have hcrlf : AtCommands.crlf = [13, 10] := rfl
  induction times generalizing r with
  | nil => simp [AtCommands.copyLoop, AtCommands.linesInTime, copyResponse]
  | cons time times ih =>
    rw [AtCommands.copyLoop, AtCommands.copyTurn, AtCommands.linesInTime]
    generalize AtCommands.readInTime fs time [] .simple r.unread = l
    by_cases hcount : 0 < l.count
    · simp only [if_pos hcount, copyResponse]
      by_cases hends : cString l.line = okReply ∨ cString l.line = errReply
      · have hfinal : cString l.line = AtCommands.okReply ∨ cString l.line = AtCommands.errReply :=
          hends
        simp [hends, hfinal, Response.read, hcrlf]
      · have hgoes : ¬(cString l.line = AtCommands.okReply ∨
            cString l.line = AtCommands.errReply) := hends
        cases time.timeLeft with
        | true => simp [hends, hgoes, ih, Response.read, hcrlf]
        | false => simp [hends, hgoes, Response.read, copyResponse, hcrlf]
    · simp [if_neg hcount, Response.read, copyResponse]

/-- A reply is made of the lines that come in in time, and there is one if there are any. -/
theorem readResponse_copy {η : Type} (fs : UrcFilterList η) (times : List ReadTime)
    (stream : Bytes) :
    (AtCommands.readResponse fs .copy times stream).response =
        copyResponse (AtCommands.linesInTime fs times stream) ∧
      ((AtCommands.readResponse fs .copy times stream).result = true ↔
        AtCommands.linesInTime fs times stream ≠ []) := by
  obtain ⟨hresponse, hresult⟩ := copyLoop_eq fs times { unread := stream }
  exact ⟨hresponse, hresult.trans (by simp)⟩

/-! ## The registration status -/

/-- The list of parameters is read into the response, if it is as long as it should
be, and the handler is called. -/
def report (m : ModemBase) : List Bytes → List CeregResponse × ModemBase
  | [stat, tac, ci, act, causeType, rejectCause, activeTime, periodicTau] =>
      let old := m.ceregResponse
      let ceregResponse : CeregResponse :=
        { stat := atoi stat
          tac := stored old.tac (copy tac cuTacLen).1
          ci := stored old.ci (copy ci cuCiLen).1
          act := atoi act
          causeType := atoi causeType
          rejectCause := atoi rejectCause
          activeTime := stored old.activeTime (copy activeTime cuActiveTimeLen).1
          periodicTau := stored old.periodicTau (copy periodicTau cuPeriodicTauLen).1 }
      ([ceregResponse], { m with ceregResponse := ceregResponse })
  | _ => ([], m)

/-- `parseCeregUrc`: what the handler is called with, and the object after. -/
def parseCeregUrc (m : ModemBase) (urc : Bytes) : List CeregResponse × ModemBase :=
  if m.ceregHandler then
    let response := cString urc
    match findChar response colon with
    | some pos =>
        let params := (response.drop (pos + 1)).dropWhile (· = space)
        if params ≠ [] then m.report (splitChar params comma) else ([], m)
    | none => ([], m)
  else ([], m)

/-! ## Lines with eight positions -/

/-- The fields of a line, in their order: the status is not empty, the others may
be. -/
structure CeregFields where
  stat : Bytes
  tac : Bytes
  ci : Bytes
  act : Bytes
  causeType : Bytes
  rejectCause : Bytes
  activeTime : Bytes
  periodicTau : Bytes
  /-- A field is no more than a field. -/
  plain : ∀ f ∈ [stat, tac, ci, act, causeType, rejectCause, activeTime, periodicTau],
    ∀ c ∈ f, c ≠ 0 ∧ c ≠ comma
  present : ∃ c rest, stat = c :: rest ∧ c ≠ space

namespace CeregFields

/-- The positions that may be empty. -/
def optional (f : CeregFields) : List Bytes :=
  [f.tac, f.ci, f.act, f.causeType, f.rejectCause, f.activeTime, f.periodicTau]

def positions (f : CeregFields) : List Bytes := f.stat :: f.optional

/-- The line, with so many spaces behind the colon. -/
def line (f : CeregFields) (spaces : Nat) : Bytes :=
  respCEREG ++ List.replicate spaces space ++ [comma].intercalate f.positions

end CeregFields

/-- Every field comes from its own position, and strings are cut to their length. -/
structure ByPosition (r : CeregResponse) (f : CeregFields) : Prop where
  stat : r.stat = atoi f.stat
  tac : cString r.tac.toList = f.tac.take cuTacLen
  ci : cString r.ci.toList = f.ci.take cuCiLen
  act : r.act = atoi f.act
  causeType : r.causeType = atoi f.causeType
  rejectCause : r.rejectCause = atoi f.rejectCause
  activeTime : cString r.activeTime.toList = f.activeTime.take cuActiveTimeLen
  periodicTau : cString r.periodicTau.toList = f.periodicTau.take cuPeriodicTauLen

/-- The handler is called once, with every field from its own position. -/
def ParsedByPosition (m : ModemBase) (f : CeregFields) (spaces : Nat) : Prop :=
  ∃ r, (m.parseCeregUrc (f.line spaces)).1 = [r] ∧ ByPosition r f

/-! ## What is read of them -/

variable {m : ModemBase} {f : CeregFields}

namespace CeregFields

theorem plain_of_mem (f : CeregFields) {field : Bytes} (h : field ∈ f.positions) {c : UInt8}
    (hc : c ∈ field) : c ≠ 0 ∧ c ≠ comma := f.plain field h c hc

/-- The parameters begin with the status. -/
theorem params_eq (f : CeregFields) :
    [comma].intercalate f.positions = f.stat ++ comma :: [comma].intercalate f.optional := by
  rw [positions, optional, List.intercalate_cons_cons, List.append_assoc]
  rfl

theorem cString_line (f : CeregFields) (spaces : Nat) : cString (f.line spaces) = f.line spaces := by
  rw [cString, List.takeWhile_eq_self_iff]
  intro c hc
  rw [decide_eq_true_iff]
  rw [line, List.mem_append, List.mem_append] at hc
  rcases hc with (hc | hc) | hc
  · rintro rfl
    exact absurd hc (by decide)
  · rw [List.eq_of_mem_replicate hc]
    decide
  · rcases mem_of_mem_intercalate hc with rfl | ⟨field, hfield, hc⟩
    · decide
    · exact (f.plain_of_mem hfield hc).1

/-- The first colon is that of the head. -/
theorem findChar_line (f : CeregFields) (spaces : Nat) : findChar (f.line spaces) colon = some 6 := by
  have hhead : respCEREG.findIdx? (· = colon) = some 6 := by decide
  rw [findChar, cString_line, line, List.append_assoc, List.findIdx?_append, hhead]
  rfl

/-- The spaces are eaten up. -/
theorem params_line (f : CeregFields) (spaces : Nat) :
    ((f.line spaces).drop 7).dropWhile (· = space) = [comma].intercalate f.positions := by
  obtain ⟨c, rest, hstat, hc⟩ := f.present
  have hdrop : (f.line spaces).drop 7 =
      List.replicate spaces space ++ [comma].intercalate f.positions := by
    rw [line, List.append_assoc]
    exact List.drop_left' rfl
  have hspaces : ∀ d ∈ List.replicate spaces space, decide (d = space) = true :=
    fun d hd => decide_eq_true (List.eq_of_mem_replicate hd)
  rw [hdrop, List.dropWhile_append_of_pos hspaces, params_eq, hstat, List.cons_append,
    List.dropWhile_cons_of_neg (by simpa using hc)]

/-- A split finds the fields that are not empty. -/
theorem splitChar_params (f : CeregFields) :
    splitChar ([comma].intercalate f.positions) comma =
      f.positions.filter (fun field => !field.isEmpty) := by
  obtain ⟨c, rest, hstat, -⟩ := f.present
  have hsome : f.stat ≠ [] := by
    rw [hstat]
    exact List.cons_ne_nil c rest
  exact splitChar_intercalate hsome fun field hfield c hc => (f.plain_of_mem hfield hc).2

end CeregFields

/-- The handler gets what is left of the positions without the empty ones. -/
theorem parseCeregUrc_line (hm : m.ceregHandler = true) (f : CeregFields) (spaces : Nat) :
    m.parseCeregUrc (f.line spaces) =
      m.report (f.positions.filter fun field => !field.isEmpty) := by
  have hparams : [comma].intercalate f.positions ≠ [] := by
    rw [f.params_eq]
    simp
  unfold parseCeregUrc
  simp only [if_pos hm, f.cString_line, f.findChar_line, f.params_line]
  rw [if_pos hparams, f.splitChar_params]

theorem positions_filter_of_all (h : ∀ field ∈ f.optional, field ≠ []) :
    f.positions.filter (fun field => !field.isEmpty) = f.positions := by
  rw [List.filter_eq_self]
  intro field hfield
  rcases List.mem_cons.1 hfield with rfl | hfield
  · obtain ⟨c, rest, hstat, -⟩ := f.present
    rw [hstat]
    rfl
  · simpa using h field hfield

/-- Without one of the positions the list is too short. -/
theorem report_of_missing (h : ∃ field ∈ f.optional, field = []) :
    m.report (f.positions.filter fun field => !field.isEmpty) = ([], m) := by
  have hshort : (f.positions.filter fun field => !field.isEmpty).length < 8 := by
    obtain ⟨field, hfield, hnil⟩ := h
    apply List.length_filter_lt_length_iff_exists.2
    exact ⟨field, List.mem_cons_of_mem _ hfield, by simp [hnil]⟩
  unfold report
  split
  · rename_i heq
    rw [heq] at hshort
    exact absurd hshort (by simp)
  · rfl

/-- **A line is parsed by position** exactly if none of the positions is empty. -/
theorem parsedByPosition_iff (hm : m.ceregHandler = true) (f : CeregFields) (spaces : Nat) :
    m.ParsedByPosition f spaces ↔ ∀ field ∈ f.optional, field ≠ [] := by
  rw [ParsedByPosition, parseCeregUrc_line hm]
  constructor
  · rintro ⟨r, hr, -⟩ field hfield hnil
    rw [report_of_missing ⟨field, hfield, hnil⟩] at hr
    cases hr
  · intro h
    have hcopied {n len : Nat} (dest : Vector UInt8 n) {field : Bytes} (hfield : field ∈ f.positions)
        (hlen : 0 < len) (hroom : len < n) :
        cString (stored dest (copy field len).1).toList = field.take len :=
      cString_stored dest (fun c hc => (f.plain_of_mem hfield hc).1) hlen hroom
    rw [positions_filter_of_all h]
    refine ⟨_, rfl, rfl, ?_, ?_, rfl, rfl, rfl, ?_, ?_⟩
    · exact hcopied _ (by simp [CeregFields.positions, CeregFields.optional]) (by decide) (by decide)
    · exact hcopied _ (by simp [CeregFields.positions, CeregFields.optional]) (by decide) (by decide)
    · exact hcopied _ (by simp [CeregFields.positions, CeregFields.optional]) (by decide) (by decide)
    · exact hcopied _ (by simp [CeregFields.positions, CeregFields.optional]) (by decide) (by decide)

/-- `5,"1","2",9,0,3,"4","5"`: all eight positions. -/
def roaming : CeregFields where
  stat := [53]
  tac := [34, 49, 34]
  ci := [34, 50, 34]
  act := [57]
  causeType := [48]
  rejectCause := [51]
  activeTime := [34, 52, 34]
  periodicTau := [34, 53, 34]
  plain := by simp [comma]
  present := ⟨53, [], rfl, by decide⟩

/-- `5,,,,,,,`: the status alone, with all positions there. -/
def statusOnly : CeregFields where
  stat := [53]
  tac := []
  ci := []
  act := []
  causeType := []
  rejectCause := []
  activeTime := []
  periodicTau := []
  plain := by simp [comma]
  present := ⟨53, [], rfl, by decide⟩

theorem parsedByPosition_iff_roaming :
    ParsedByPosition { ceregHandler := true } roaming 1 ↔ ∀ field ∈ roaming.optional, field ≠ [] :=
  parsedByPosition_iff rfl roaming 1

/-- Of a line with empty positions the handler does not hear. -/
theorem not_parsedByPosition_statusOnly :
    ¬ParsedByPosition { ceregHandler := true } statusOnly 1 := by
  rintro ⟨r, hr, -⟩
  rw [parseCeregUrc_line rfl, report_of_missing ⟨[], by simp [CeregFields.optional, statusOnly], rfl⟩]
    at hr
  cases hr

end ModemBase

end LibNbiot
