/-
# Modems that keep their word

A modem keeps its word: a command that it gets it replies to, it does what it says OK to,
and what it says of itself is so. Between its replies it may say other lines unasked, of
which the driver only has to know how they begin. This module says what such a modem is
and what the calls of the port make of it: a line that is expected is never lost, and one
that is not expected is never taken for it.
-/

import LibNbiot.Modem.Answers

namespace LibNbiot

open Logic Logic.Program TextLine AtCommands

/-! ## The modem -/

/-- The reply to a command: some lines, and OK or ERROR. -/
structure ModemReply where
  infos : List TextLine := []
  ok : Bool := true

namespace ModemReply

def okLine : TextLine := ⟨okReply, by decide, by decide +kernel⟩

def errorLine : TextLine := ⟨errReply, by decide, by decide +kernel⟩

/-- The line that ends a reply. -/
def final (r : ModemReply) : TextLine := if r.ok then okLine else errorLine

def lines (r : ModemReply) : List TextLine := r.infos ++ [r.final]

end ModemReply

/-- What there is to know of a modem. -/
structure ModemView (δ : Type) where
  on : δ → Bool
  attached : δ → Bool
  imsi : TextLine
  reply : δ → Bytes → ModemReply
  /-- What the modem still has to say. -/
  owes : δ → List TextLine
  /-- How lines begin that are in no reply. -/
  urcs : List Bytes
  /-- How those begin that the modem may say unasked now. -/
  unasked : δ → List Bytes

variable {δ : Type}

namespace ModemView

/-- A line that may be in a reply. -/
def isReply (V : ModemView δ) (l : TextLine) : Bool :=
  V.urcs.all fun key => !key.isPrefixOf l.bytes

/-- The lines that a modem has to say to a command; there are none if nothing is sent. -/
def answer (V : ModemView δ) (d : δ) (cmd : Bytes) : List TextLine :=
  if cmd = [] then [] else (V.reply d cmd).lines

/-- `IModem::ModemState` of a modem. -/
def state (V : ModemView δ) (d : δ) : ModemState := if V.on d then .on else .off

end ModemView

/-- A line that tells a number: behind a colon, and as many spaces as the modem likes. -/
def TellsNumber (head : Bytes) (n : Nat) (l : TextLine) : Prop :=
  ∃ spaces, l.bytes = head ++ (List.replicate spaces ModemBase.space ++ decimal n)

/-- The commands that switch a modem on and off. -/
def switchOf (cmd : Bytes) : Option Bool :=
  if cmd = ModemBase.cmdCFUN .on then some true
  else if cmd = ModemBase.cmdCFUN .off then some false
  else none

/-- The commands that let a modem say lines unasked, and how they begin. -/
def urcsOf (cmd : Bytes) : List Bytes :=
  if cmd = commandLine ModemBase.cmdCEREG5 then [ModemBase.respCEREG]
  else if cmd = commandLine Bc95Modem.cmdNPSMR1 then [Bc95Modem.respNPSMR]
  else if cmd = commandLine Bc95Modem.cmdCSCON1 then [Bc95Modem.respCSCON]
  else []

/-- A modem that keeps its word. -/
structure Honest (D : LineModem δ) (V : ModemView δ) : Prop where
  write : ∀ d cmd, (D.write d cmd).1 = true
  owes : ∀ d cmd, V.owes (D.write d cmd).2 = V.owes d ++ V.answer d cmd
  /-- What it has to say it says while it is waited for, and perhaps more. -/
  tells : ∀ d timeout, (D.say d timeout).1.filter V.isReply = V.owes d
  told : ∀ d timeout, V.owes (D.say d timeout).2 = []
  chatter : ∀ d timeout, ∀ l ∈ (D.say d timeout).1, V.isReply l = false →
    ∃ key ∈ V.unasked d, key <+: l.bytes
  unasked_say : ∀ d timeout, V.unasked (D.say d timeout).2 ⊆ V.unasked d
  unasked_write : ∀ d cmd, V.unasked (D.write d cmd).2 ⊆
    V.unasked d ++ if (V.reply d cmd).ok then urcsOf cmd else []
  /-- It is switched on and off by commands only; what a restart does is open. -/
  on_say : ∀ d timeout, V.on (D.say d timeout).2 = V.on d
  on_write : ∀ d cmd, cmd ≠ commandLine ModemBase.cmdNRB → V.on (D.write d cmd).2 =
    if (V.reply d cmd).ok then (switchOf cmd).getD (V.on d) else V.on d
  /-- Lines of replies cannot be taken for others. -/
  infos : ∀ d cmd, ∀ l ∈ (V.reply d cmd).infos, ¬okReply <+: l.bytes ∧ V.isReply l = true
  urcs : ∀ key ∈ V.urcs, ¬key <+: okReply ∧ ¬okReply <+: key ∧ ¬key <+: errReply
  known : ∀ cmd, urcsOf cmd ⊆ V.urcs
  simple : ∀ d cmd, cmd = commandLine ModemBase.cmdCGATT0 ∨ switchOf cmd ≠ none →
    (V.reply d cmd).infos = []
  echo : ∀ d, ∀ l ∈ (V.reply d (commandLine Bg96Modem.cmdATE0)).infos,
    ¬ModemBase.respCFUNquery <+: l.bytes
  /-- A modem that reports one of both things about its power saving reports the other. -/
  reports : ∀ d d', (V.reply d (commandLine Bc95Modem.cmdNPSMR1)).ok = true →
    (V.reply d' (commandLine Bc95Modem.cmdCSCON1)).ok = true
  cfun : ∀ d, ∃ n l, V.reply d (commandLine ModemBase.cmdCFUNquery) = { infos := [l] } ∧
    TellsNumber ModemBase.respCFUNquery n l ∧ n < 2 ^ 31 ∧ (V.on d = true ↔ n ≠ 0)
  cgatt : ∀ d, ∃ n l, V.reply d (commandLine ModemBase.cmdCGATTquery) = { infos := [l] } ∧
    TellsNumber ModemBase.respCGATTquery n l ∧ n < 2 ^ 31 ∧ (V.attached d = true ↔ n = 1)
  cimi : ∀ d, V.reply d (commandLine ModemBase.cmdCIMI) = { infos := [V.imsi] }

/-! ## Lines -/

section Lines

variable {D : LineModem δ} {V : ModemView δ} {l : TextLine}

theorem isReply_iff : V.isReply l = true ↔ ∀ key ∈ V.urcs, ¬key <+: l.bytes := by
  simp [ModemView.isReply, ← List.isPrefixOf_iff_prefix]

theorem isReply_eq_false : V.isReply l = false ↔ ∃ key ∈ V.urcs, key <+: l.bytes := by
  rw [← Bool.not_eq_true, isReply_iff]
  simp

theorem Honest.isReply_final (hD : Honest D V) (r : ModemReply) : V.isReply r.final = true := by
  rw [isReply_iff]
  intro key hkey
  obtain ⟨hok, -, herror⟩ := hD.urcs key hkey
  rw [ModemReply.final]
  split
  · exact hok
  · exact herror

/-- No line that is said unasked begins like the reply OK. -/
theorem Honest.not_ok_urc (hD : Honest D V) (hl : V.isReply l = false) : ¬okReply <+: l.bytes := by
  obtain ⟨key, hkey, hprefix⟩ := isReply_eq_false.1 hl
  obtain ⟨hok, hok', -⟩ := hD.urcs key hkey
  intro h
  rcases List.prefix_or_prefix_of_prefix h hprefix with h | h
  · exact hok' h
  · exact hok h

theorem isExpected_iff (expected : Bytes) (l : TextLine) :
    isExpected expected false l.bytes = true ↔ cString expected <+: l.bytes := by
  simp [isExpected, l.cString_bytes]

/-- Lines that are not expected are passed over. -/
theorem untilOf_append {expected : Bytes} {ls : List TextLine}
    (h : ∀ l ∈ ls, ¬cString expected <+: l.bytes) (rest : List TextLine) :
    untilOf expected (ls ++ rest) = untilOf expected rest := by
  induction ls with
  | nil => rfl
  | cons l ls ih =>
    have hl : ¬isExpected expected false l.bytes = true := by
      rw [isExpected_iff]
      exact h l List.mem_cons_self
    rw [List.cons_append, untilOf, if_neg hl]
    exact ih fun l' hl' => h l' (List.mem_cons_of_mem _ hl')

theorem untilOf_cons {expected : Bytes} (h : cString expected <+: l.bytes) (rest : List TextLine) :
    untilOf expected (l :: rest) = ((true, l.bytes), rest) := by
  rw [untilOf, if_pos ((isExpected_iff expected l).2 h)]

theorem untilOf_suffix (expected : Bytes) (ls : List TextLine) :
    (untilOf expected ls).2 <:+ ls := by
  induction ls with
  | nil => exact List.suffix_rfl
  | cons l ls ih =>
    rw [untilOf]
    split
    · exact List.suffix_cons l ls
    · exact ih.trans (List.suffix_cons l ls)

theorem copyLines_suffix (ls : List TextLine) : (copyLines ls).2 <:+ ls := by
  induction ls with
  | nil => exact List.suffix_rfl
  | cons l ls ih =>
    rw [copyLines]
    split
    · exact List.suffix_cons l ls
    · exact ih.trans (List.suffix_cons l ls)

theorem replyOf_suffix (expected : ExpectedReply) (ls : List TextLine) :
    (replyOf expected ls).2 <:+ ls := by
  cases expected with
  | copy => exact copyLines_suffix ls
  | ignore => exact List.nil_suffix
  | none => exact List.suffix_rfl
  | ok | exact =>
    cases ls with
    | nil => exact List.suffix_rfl
    | cons l ls => exact List.suffix_cons l ls
  | any =>
    match ls with
    | [] => exact List.suffix_rfl
    | [l] => exact List.nil_suffix
    | l :: ok :: ls =>
      have hrest : (replyOf .any (l :: ok :: ls)).2 = ls := by
        rw [replyOf]
        split <;> rfl
      rw [hrest]
      exact (List.suffix_cons ok ls).trans (List.suffix_cons l _)

/-- Waiting for OK finds out how a reply ends, whatever is said in between. -/
theorem Honest.untilOf_ok (hD : Honest D V) {d : δ} {cmd : Bytes} {ls : List TextLine}
    (h : ls.filter V.isReply = (V.reply d cmd).lines) :
    (untilOf okReply ls).1.1 = (V.reply d cmd).ok ∧
      (untilOf okReply ls).2.filter V.isReply = [] := by
  obtain ⟨infos, tail, rfl, hinfos, htail⟩ := List.filter_eq_append_iff.1 h
  obtain ⟨urcs, rest, rfl, hurcs, -, hrest⟩ := List.filter_eq_cons_iff.1 htail
  have hskip : ∀ l ∈ infos ++ urcs, ¬okReply <+: l.bytes := by
    intro l hl
    by_cases hreply : V.isReply l = true
    · obtain hl | hl := List.mem_append.1 hl
      · exact (hD.infos d cmd l (hinfos ▸ List.mem_filter.2 ⟨hl, hreply⟩)).1
      · exact absurd hreply (hurcs l hl)
    · exact hD.not_ok_urc (Bool.eq_false_iff.2 hreply)
  rw [← List.append_assoc, untilOf_append hskip]
  cases hok : (V.reply d cmd).ok with
  | true =>
    have hfinal : (V.reply d cmd).final = ModemReply.okLine := by simp [ModemReply.final, hok]
    rw [hfinal, untilOf_cons List.prefix_rfl]
    exact ⟨rfl, hrest⟩
  | false =>
    have hfinal : (V.reply d cmd).final = ModemReply.errorLine := by simp [ModemReply.final, hok]
    have hrest' : ∀ l ∈ ModemReply.errorLine :: rest, ¬okReply <+: l.bytes := by
      intro l hl
      obtain rfl | hl := List.mem_cons.1 hl
      · decide
      · exact hD.not_ok_urc (Bool.eq_false_iff.2 (List.filter_eq_nil_iff.1 hrest l hl))
    rw [hfinal, ← List.append_nil (ModemReply.errorLine :: rest), untilOf_append hrest']
    exact ⟨rfl, rfl⟩

end Lines

/-! ## The port -/

/-- The lines of replies that are still to be read, on a port that may be about to get filters
for lines that begin in some ways. -/
structure Owed (V : ModemView δ) (coming : List Bytes) (q : LinePort ModemUrc δ)
    (lines : List TextLine) : Prop where
  lines : q.heard.filter V.isReply ++ V.owes q.modem = lines
  heard : ∀ l ∈ q.heard, V.isReply l = false → ∃ key ∈ coming, key <+: l.bytes
  unasked : V.unasked q.modem ⊆ q.filters.map UrcFilter.key ++ coming
  urcs : q.filters.map UrcFilter.key ⊆ V.urcs

/-- Nothing is left to be read. -/
abbrev Clean (V : ModemView δ) (q : LinePort ModemUrc δ) : Prop := Owed V [] q []

/-- What a program makes of the port. -/
abbrev after {α : Type} (D : LineModem δ) (p : ModemDriver α) (q : LinePort ModemUrc δ) :
    α × LinePort ModemUrc δ :=
  p.run (LinePort.exec D) q

section Calls

variable {D : LineModem δ} {V : ModemView δ} {coming : List Bytes} {q : LinePort ModemUrc δ}
  {lines : List TextLine}

@[simp] theorem after_readResponse (expected : ExpectedReply) (timeout : Nat)
    (whole : expected ≠ .none) :
    after D (Driver.readResponse expected timeout whole) q =
      LinePort.read D timeout (replyOf expected) q := rfl

@[simp] theorem after_readUntil (expected : Bytes) (timeout : Nat) :
    after D (Driver.readUntil expected timeout) q =
      LinePort.read D timeout (untilOf expected) q := rfl

/-- Filters take no lines of replies. -/
theorem filter_passes {fs : UrcFilterList ModemUrc} (h : fs.map UrcFilter.key ⊆ V.urcs)
    (ls : List TextLine) : (ls.filter fs.passes).filter V.isReply = ls.filter V.isReply := by
  rw [List.filter_filter]
  refine List.filter_congr fun l _ => ?_
  rw [Bool.and_eq_left_iff_imp]
  intro hl
  rw [passes_iff_key]
  exact fun key hkey => isReply_iff.1 hl key (h hkey)

/-- A command is sent, and its reply is owed. -/
theorem send_owed (hD : Honest D V) (h : Owed V coming q lines) (cmd : Bytes) :
    ∃ q', after D (Driver.sendString cmd) q = (true, q') ∧
      Owed V (coming ++ if (V.reply q.modem cmd).ok then urcsOf cmd else []) q'
        (lines ++ V.answer q.modem cmd) ∧
      q'.modem = (D.write q.modem cmd).2 := by
  refine ⟨{ q with modem := (D.write q.modem cmd).2 }, Prod.ext (hD.write q.modem cmd) rfl,
    ⟨?_, ?_, ?_, h.urcs⟩, rfl⟩
  · rw [hD.owes, ← List.append_assoc, h.lines]
  · intro l hl hreply
    obtain ⟨key, hkey, hprefix⟩ := h.heard l hl hreply
    exact ⟨key, List.mem_append_left _ hkey, hprefix⟩
  · rw [← List.append_assoc]
    exact List.Subset.trans (hD.unasked_write q.modem cmd)
      (List.append_subset.2 ⟨List.subset_append_of_subset_left _ h.unasked,
        List.subset_append_right _ _⟩)

/-- A call reads from lines of which those of replies are the ones that are owed. -/
theorem read_lines (hD : Honest D V) (h : Owed V coming q lines) (timeout : Nat)
    (reading : List TextLine → (Bool × Bytes) × List TextLine) :
    ∃ q' ls, LinePort.read D timeout reading q = ((reading ls).1, q') ∧
      ls.filter V.isReply = lines ∧
      (∀ l ∈ ls, V.isReply l = false → ∃ key ∈ coming, key <+: l.bytes) ∧
      q' = { q with modem := (D.say q.modem timeout).2, heard := (reading ls).2 } := by
  let ls := q.heard ++ (D.say q.modem timeout).1.filter q.filters.passes
  refine ⟨_, ls, rfl, ?_, ?_, rfl⟩
  · rw [← h.lines, ← hD.tells q.modem timeout, List.filter_append, filter_passes h.urcs]
  · intro l hl hreply
    obtain hl | hl := List.mem_append.1 hl
    · exact h.heard l hl hreply
    · obtain ⟨hsaid, hpass⟩ := List.mem_filter.1 hl
      obtain ⟨key, hkey, hprefix⟩ := hD.chatter q.modem timeout l hsaid hreply
      refine ⟨key, ?_, hprefix⟩
      obtain hkey | hkey := List.mem_append.1 (h.unasked hkey)
      · exact absurd hprefix (passes_iff_key.1 hpass key hkey)
      · exact hkey

/-- What is not read is still there. -/
theorem read_owed (hD : Honest D V) (h : Owed V coming q lines) (timeout : Nat)
    {reading : List TextLine → (Bool × Bytes) × List TextLine}
    (hreading : ∀ ls, (reading ls).2 <:+ ls) :
    ∃ q' ls, LinePort.read D timeout reading q = ((reading ls).1, q') ∧
      ls.filter V.isReply = lines ∧
      (∀ l ∈ ls, V.isReply l = false → ∃ key ∈ coming, key <+: l.bytes) ∧
      Owed V coming q' ((reading ls).2.filter V.isReply) ∧ V.on q'.modem = V.on q.modem := by
  obtain ⟨q', ls, hread, hlines, hurcs, rfl⟩ := read_lines hD h timeout reading
  refine ⟨_, ls, hread, hlines, hurcs, ⟨?_, ?_, ?_, h.urcs⟩, hD.on_say q.modem timeout⟩
  · simp [hD.told]
  · exact fun l hl => hurcs l ((hreading ls).subset hl)
  · exact List.Subset.trans (hD.unasked_say q.modem timeout) h.unasked

/-- Where all filters are there, a call reads just what is owed. -/
theorem read_clean (hD : Honest D V) (h : Owed V [] q lines) (timeout : Nat)
    {reading : List TextLine → (Bool × Bytes) × List TextLine}
    (hreading : ∀ ls, (reading ls).2 <:+ ls) :
    ∃ q', LinePort.read D timeout reading q = ((reading lines).1, q') ∧
      Owed V [] q' (reading lines).2 ∧ V.on q'.modem = V.on q.modem := by
  obtain ⟨q', ls, hread, hlines, hurcs, howed, hon⟩ := read_owed hD h timeout hreading
  have hall : ∀ l ∈ ls, V.isReply l = true := by
    intro l hl
    by_contra hreply
    obtain ⟨key, hkey, -⟩ := hurcs l hl (Bool.eq_false_iff.2 hreply)
    exact absurd hkey List.not_mem_nil
  have hls : ls = lines := by rw [← hlines, List.filter_eq_self.2 hall]
  have hrest : (reading ls).2.filter V.isReply = (reading ls).2 :=
    List.filter_eq_self.2 fun l hl => hall l ((hreading ls).subset hl)
  rw [hrest] at howed
  subst hls
  exact ⟨q', hread, howed, hon⟩

/-- A filter is added for lines that one was to come for. -/
theorem add_owed {urc : Bytes} (handler : ModemUrc) (hurc : cString urc = urc)
    (hknown : urc ∈ V.urcs) (h : Owed V (urc :: coming) q lines) :
    ∃ q' added, after D (Driver.addUrcFilter urc handler) q = (added, q') ∧
      Owed V coming q' lines ∧ q'.modem = q.modem := by
  let filters := (UrcFilterList.addUrcFilter q.filters urc handler).2
  have hkeys : ∀ key, key ∈ filters.map UrcFilter.key ↔
      key ∈ q.filters.map UrcFilter.key ∨ key = urc := by
    intro key
    rw [mem_keys_addUrcFilter, hurc]
  have hfilters : filters.map UrcFilter.key ⊆ V.urcs := by
    intro key hkey
    rcases (hkeys key).1 hkey with hkey | rfl
    · exact h.urcs hkey
    · exact hknown
  refine ⟨{ q with heard := q.heard.filter filters.passes, filters := filters }, _, rfl,
    ⟨?_, ?_, ?_, hfilters⟩, rfl⟩
  · rw [← h.lines, filter_passes hfilters]
  · intro l hl hreply
    obtain ⟨hl, hpass⟩ := List.mem_filter.1 hl
    obtain ⟨key, hkey, hprefix⟩ := h.heard l hl hreply
    rcases List.mem_cons.1 hkey with rfl | hkey
    · exact absurd hprefix (passes_iff_key.1 hpass key ((hkeys key).2 (.inr rfl)))
    · exact ⟨key, hkey, hprefix⟩
  · intro key hkey
    rcases List.mem_append.1 (h.unasked hkey) with hkey | hkey
    · exact List.mem_append_left _ ((hkeys key).2 (.inl hkey))
    · rcases List.mem_cons.1 hkey with rfl | hkey
      · exact List.mem_append_left _ ((hkeys key).2 (.inr rfl))
      · exact List.mem_append_right _ hkey

end Calls

end LibNbiot
