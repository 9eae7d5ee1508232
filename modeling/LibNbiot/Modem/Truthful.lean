/-
# What a modem class says of its modem

On a modem that keeps its word the operations of the modem classes find out whether it is
on and attached and who it is, and what they return of their own doing is so. Each starts
and ends with nothing left to be read, so this holds for any sequence of them, in any
order, from the first on: no answer is ever taken for that to another command.
-/

import LibNbiot.Modem.Honest

namespace LibNbiot

open Logic Logic.Program TextLine AtCommands ModemBase

variable {δ : Type} {D : LineModem δ} {V : ModemView δ} {q : LinePort ModemUrc δ}
  {lines : List TextLine} {α β : Type}

/-! ## Programs that clean up -/

/-- A program that finds nothing to be read and leaves nothing to be read; the relation is
between what the modem was, the result, and what the modem is then. -/
def Tidy (D : LineModem δ) (V : ModemView δ) (p : ModemDriver α) (R : δ → α → δ → Prop) : Prop :=
  ∀ q, Clean V q → ∃ a q', after D p q = (a, q') ∧ Clean V q' ∧ R q.modem a q'.modem

namespace Tidy

variable {p : ModemDriver α} {R S : δ → α → δ → Prop}

theorem mono (h : Tidy D V p R) (hRS : ∀ d a d', R d a d' → S d a d') : Tidy D V p S := by
  intro q hq
  obtain ⟨a, q', hp, hq', hR⟩ := h q hq
  exact ⟨a, q', hp, hq', hRS _ _ _ hR⟩

/-- Whatever comes of it, nothing is left behind. -/
theorem cleans (h : Tidy D V p R) : Tidy D V p fun _ _ _ => True :=
  h.mono fun _ _ _ _ => trivial

theorem result (a : α) : Tidy D V (pure a) fun d b d' => b = a ∧ d' = d :=
  fun q hq => ⟨a, q, rfl, hq, rfl, rfl⟩

theorem andThen {f : α → ModemDriver β} {T : α → δ → β → δ → Prop} (h : Tidy D V p R)
    (hf : ∀ a, Tidy D V (f a) (T a)) :
    Tidy D V (p >>= f) fun d b d' => ∃ a d'', R d a d'' ∧ T a d'' b d' := by
  intro q hq
  obtain ⟨a, q', hp, hq', hR⟩ := h q hq
  obtain ⟨b, q'', hfa, hq'', hT⟩ := hf a q' hq'
  refine ⟨b, q'', ?_, hq'', a, q'.modem, hR, hT⟩
  rw [after, Calling.run_then]
  rw [after] at hp hfa
  rw [hp]
  exact hfa

theorem branch {c : Prop} [Decidable c] {p' : ModemDriver α} (h : c → Tidy D V p R)
    (h' : ¬c → Tidy D V p' R) : Tidy D V (if c then p else p') R := by
  split
  · exact h ‹_›
  · exact h' ‹_›

end Tidy

/-! ## Commands -/

/-- The commands after which a modem is as it was. -/
def Plain (cmd : Bytes) : Prop :=
  cmd ≠ commandLine cmdNRB ∧ switchOf cmd = none ∧ urcsOf cmd = []

instance (cmd : Bytes) : Decidable (Plain cmd) := inferInstanceAs (Decidable (_ ∧ _ ∧ _))

theorem commandLine_ne_nil (cmd : Bytes) : commandLine cmd ≠ [] := by
  rw [commandLine]
  exact List.concat_ne_nil _ _

theorem Honest.on_sent (hD : Honest D V) (d : δ) {cmd : Bytes} (hrestart : cmd ≠ commandLine cmdNRB)
    (hswitch : switchOf cmd = none) : V.on (D.write d cmd).2 = V.on d := by
  rw [hD.on_write d cmd hrestart, hswitch]
  exact ite_self _

theorem answer_commandLine (d : δ) (cmd : Bytes) :
    V.answer d (commandLine cmd) = (V.reply d (commandLine cmd)).lines :=
  if_neg (commandLine_ne_nil cmd)

theorem ignoreRest_owed (hD : Honest D V) (h : Owed V [] q lines) :
    ∃ q', after D ignoreRest q = ((), q') ∧ Clean V q' ∧ V.on q'.modem = V.on q.modem := by
  obtain ⟨q', hread, howed, hon⟩ := read_clean hD h oneSecond (replyOf_suffix .ignore)
  exact ⟨q', by simp [ignoreRest, hread], howed, hon⟩

/-- A command that has an answer in one line is known to be taken or not. -/
theorem tidy_command (hD : Honest D V) {cmd : Bytes} (hurcs : urcsOf cmd = []) (timeout : Nat) :
    Tidy D V (command cmd timeout) fun d ok d' =>
      V.on d' = V.on (D.write d cmd).2 ∧
        (cmd ≠ [] → (V.reply d cmd).infos = [] → ok = (V.reply d cmd).ok) := by
  intro q hq
  obtain ⟨q₁, hsend, howed, hmodem⟩ := send_owed hD hq cmd
  rw [hurcs, ite_self] at howed
  obtain ⟨q₂, hread, howed₂, hon₂⟩ := read_clean hD howed timeout (replyOf_suffix .ok)
  obtain ⟨q₃, hrest, hclean, hon₃⟩ := ignoreRest_owed hD howed₂
  refine ⟨(replyOf .ok (V.answer q.modem cmd)).1.1, q₃, ?_, hclean, ?_, ?_⟩
  · simp [command, ifOk, replyOk, hsend, hread, hrest]
  · rw [hon₃, hon₂, hmodem]
  · intro hcmd hinfos
    rw [ModemView.answer, if_neg hcmd, ModemReply.lines, hinfos, ModemReply.final]
    cases (V.reply q.modem cmd).ok <;> rfl

/-- A command that is waited for is known to be taken or not, whatever is said meanwhile. -/
theorem acknowledged_owed (hD : Honest D V) {coming : List Bytes} (h : Owed V coming q [])
    (cmd : Bytes) (timeout : Nat) :
    ∃ q', after D (acknowledged cmd timeout) q = ((V.reply q.modem (commandLine cmd)).ok, q') ∧
      Owed V (coming ++ if (V.reply q.modem (commandLine cmd)).ok then urcsOf (commandLine cmd)
        else []) q' [] ∧
      V.on q'.modem = V.on (D.write q.modem (commandLine cmd)).2 := by
  obtain ⟨q₁, hsend, howed, hmodem⟩ := send_owed hD h (commandLine cmd)
  rw [List.nil_append, answer_commandLine] at howed
  obtain ⟨q₂, ls, hread, hls, -, howed₂, hon⟩ :=
    read_owed hD howed timeout (untilOf_suffix AtCommands.okReply)
  obtain ⟨hok, hrest⟩ := hD.untilOf_ok hls
  rw [hrest] at howed₂
  refine ⟨q₂, ?_, howed₂, by rw [hon, hmodem]⟩
  have hread' : LinePort.read D timeout (untilOf ModemBase.okReply) q₁ =
      ((untilOf AtCommands.okReply ls).1, q₂) := hread
  simp [acknowledged, ifOk, untilOk, Driver.sendCommand, hsend, hread', hok]

theorem tidy_acknowledged (hD : Honest D V) {cmd : Bytes} (hurcs : urcsOf (commandLine cmd) = [])
    (timeout : Nat) :
    Tidy D V (acknowledged cmd timeout) fun d ok d' =>
      V.on d' = V.on (D.write d (commandLine cmd)).2 ∧ ok = (V.reply d (commandLine cmd)).ok := by
  intro q hq
  obtain ⟨q', hrun, howed, hon⟩ := acknowledged_owed hD hq cmd timeout
  rw [hurcs, ite_self] at howed
  exact ⟨_, q', hrun, howed, hon, rfl⟩

/-- A step of an initialization, which does not say whether the modem is on. -/
theorem tidy_plain (hD : Honest D V) {cmd : Bytes} (hcmd : Plain (commandLine cmd))
    (timeout : Nat) :
    Tidy D V (acknowledged cmd timeout) fun d _ d' => V.on d' = V.on d := by
  obtain ⟨hrestart, hswitch, hurcs⟩ := hcmd
  refine (tidy_acknowledged hD hurcs timeout).mono fun d _ d' h => ?_
  rw [h.1, hD.on_sent d hrestart hswitch]

theorem tidy_ignoreRest (hD : Honest D V) :
    Tidy D V ignoreRest fun d _ d' => V.on d' = V.on d := by
  intro q hq
  obtain ⟨q', hrun, hclean, hon⟩ := ignoreRest_owed hD hq
  exact ⟨(), q', hrun, hclean, hon⟩

/-! ## Queries -/

/-- What is left of other replies is passed over. -/
theorem query_owed (hD : Honest D V) {left : List TextLine} (h : Owed V [] q left)
    {cmd expected : Bytes} (hurcs : urcsOf (commandLine cmd) = [])
    (hleft : ∀ l ∈ left, ¬cString expected <+: l.bytes) :
    ∃ q', after D (query cmd expected) q =
        ((let found := (untilOf expected (V.reply q.modem (commandLine cmd)).lines).1
          if found.1 then numberIn found.2 else none), q') ∧
      Clean V q' ∧ V.on q'.modem = V.on (D.write q.modem (commandLine cmd)).2 := by
  obtain ⟨q₁, hsend, howed, hmodem⟩ := send_owed hD h (commandLine cmd)
  rw [hurcs, ite_self, answer_commandLine] at howed
  obtain ⟨q₂, hread, howed₂, hon₂⟩ :=
    read_clean hD howed tenSeconds (untilOf_suffix expected)
  obtain ⟨q₃, hrest, hclean, hon₃⟩ := ignoreRest_owed hD howed₂
  rw [untilOf_append hleft] at hread
  refine ⟨q₃, ?_, hclean, by rw [hon₃, hon₂, hmodem]⟩
  simp [query, Driver.sendCommand, hsend, hread, hrest]

/-- A number is read as it is told. -/
theorem numberIn_tells {head : Bytes} {n : Nat} {l : TextLine} (h : TellsNumber head n l)
    (hhead : head.findIdx? (· = colon) = some (head.length - 1)) (hn : n < 2 ^ 31) :
    numberIn l.bytes = some (n : Int) := by
  obtain ⟨spaces, hl⟩ := h
  have hpos : 0 < head.length := by
    rw [List.length_pos_iff]
    rintro rfl
    cases hhead
  have hcolon : findChar l.bytes colon = some (head.length - 1) := by
    rw [findChar, l.cString_bytes, hl, List.findIdx?_append, hhead]
    rfl
  have hspaces : ∀ c ∈ List.replicate spaces space, decide (c = space) = true :=
    fun c hc => decide_eq_true (List.eq_of_mem_replicate hc)
  have hdecimal : (decimal n).dropWhile (· = space) = decimal n := by
    obtain ⟨c, rest, hcons⟩ := List.exists_cons_of_ne_nil (decimalLoop_ne_nil n n)
    have hc : isDigit c = true := decimalLoop_digits (n + 1) n c (by rw [hcons]; simp)
    rw [decimal, hcons, List.dropWhile_cons_of_neg]
    rw [decide_eq_true_iff]
    rintro rfl
    exact absurd hc (by decide)
  have hdrop : l.bytes.drop (head.length - 1 + 1) =
      List.replicate spaces space ++ decimal n := by
    rw [hl, Nat.sub_add_cancel hpos]
    exact List.drop_left
  have hsome : decimal n ≠ [] := decimalLoop_ne_nil n n
  rw [numberIn]
  simp only [l.cString_bytes, hcolon]
  rw [hdrop, List.dropWhile_append_of_pos hspaces, hdecimal, if_pos hsome, atoi_decimal hn]

/-- A query finds the number that is told. -/
theorem query_tells (hD : Honest D V) {left : List TextLine} (h : Owed V [] q left)
    {cmd expected : Bytes} (hcmd : Plain (commandLine cmd))
    (hexpected : cString expected = expected)
    (hcolon : expected.findIdx? (· = colon) = some (expected.length - 1))
    (hleft : ∀ l ∈ left, ¬expected <+: l.bytes) {n : Nat} {l : TextLine} (hn : n < 2 ^ 31)
    (hreply : V.reply q.modem (commandLine cmd) = { infos := [l] })
    (hl : TellsNumber expected n l) :
    ∃ q', after D (query cmd expected) q = (some (n : Int), q') ∧ Clean V q' ∧
      V.on q'.modem = V.on q.modem := by
  obtain ⟨hrestart, hswitch, hurcs⟩ := hcmd
  rw [← hexpected] at hleft
  obtain ⟨q', hrun, hclean, hon⟩ := query_owed hD h hurcs hleft
  have hprefix : cString expected <+: l.bytes := by
    obtain ⟨spaces, hl⟩ := hl
    rw [hexpected, hl]
    exact List.prefix_append _ _
  refine ⟨q', ?_, hclean, hon.trans (hD.on_sent q.modem hrestart hswitch)⟩
  rw [hrun, hreply, ModemReply.lines, List.singleton_append, untilOf_cons hprefix]
  simp [numberIn_tells hl hcolon hn]

theorem isModemOn_owed (hD : Honest D V) {left : List TextLine} (h : Owed V [] q left)
    (hleft : ∀ l ∈ left, ¬respCFUNquery <+: l.bytes) :
    ∃ q', after D isModemOn q = (V.state q.modem, q') ∧ Clean V q' ∧
      V.on q'.modem = V.on q.modem := by
  obtain ⟨n, l, hreply, hl, hn, hon⟩ := hD.cfun q.modem
  obtain ⟨q', hrun, hclean, hon'⟩ :=
    query_tells hD h (by decide : Plain (commandLine cmdCFUNquery)) (by decide) (by decide) hleft hn
      hreply hl
  refine ⟨q', ?_, hclean, hon'⟩
  by_cases hzero : n = 0
  · have hoff : V.on q.modem = false := Bool.eq_false_iff.2 fun h => hon.1 h hzero
    simp [isModemOn, hrun, ModemView.state, hoff, hzero]
  · simp [isModemOn, hrun, ModemView.state, hon.2 hzero, hzero]

/-! ## Operations -/

section Operations

variable (hD : Honest D V)

include hD

/-- The mode of a modem is what it is. -/
theorem tidy_isModemOn :
    Tidy D V isModemOn fun d state d' => state = V.state d ∧ V.on d' = V.on d := by
  intro q hq
  obtain ⟨q', hrun, hclean, hon⟩ := isModemOn_owed hD hq fun l hl => absurd hl List.not_mem_nil
  exact ⟨_, q', hrun, hclean, rfl, hon⟩

/-- It is what was asked for, or what it was before. -/
theorem tidy_switchModem (state : ModemState) :
    Tidy D V (switchModem state) fun _ state' d' => state' = V.state d' := by
  have hcmd : ∀ state, cmdCFUN state ≠ commandLine cmdNRB ∧ urcsOf (cmdCFUN state) = [] ∧
      cmdCFUN state ≠ [] ∧ switchOf (cmdCFUN state) = some (decide (state = .on)) := by
    intro state
    cases state <;> decide
  obtain ⟨hrestart, hurcs, hsome, hswitch⟩ := hcmd state
  have hsimple : ∀ d, (V.reply d (cmdCFUN state)).infos = [] := fun d =>
    hD.simple d _ (.inr (by rw [hswitch]; exact Option.some_ne_none _))
  refine ((tidy_isModemOn hD).andThen fun ret => Tidy.branch (R := fun d b d' =>
    ret = V.state d → b = V.state d') (fun hne => ?_) fun heq => ?_).mono ?_
  · refine ((tidy_command hD hurcs tenSeconds).andThen fun ok => Tidy.result _).mono ?_
    rintro d b d' ⟨ok, d'', ⟨hon, hok⟩, rfl, rfl⟩ hret
    rw [hD.on_write d _ hrestart, ← hok hsome (hsimple d), hswitch] at hon
    rw [hret, ModemView.state, ModemView.state, hon]
    cases ok <;> cases state <;> rfl
  · refine (Tidy.result ret).mono ?_
    rintro d b d' ⟨rfl, rfl⟩ hret
    exact hret
  · rintro d b d' ⟨ret, d'', ⟨hret, hon⟩, hb⟩
    refine hb ?_
    rw [hret, ModemView.state, ModemView.state, hon]

theorem tidy_isAttached :
    Tidy D V isAttached fun d attached d' => attached = V.attached d ∧ V.on d' = V.on d := by
  intro q hq
  obtain ⟨n, l, hreply, hl, hn, hattached⟩ := hD.cgatt q.modem
  obtain ⟨q', hrun, hclean, hon⟩ :=
    query_tells hD hq (by decide : Plain (commandLine cmdCGATTquery)) (by decide) (by decide)
      (fun l hl => absurd hl List.not_mem_nil) hn hreply hl
  refine ⟨decide ((n : Int) = 1), q', ?_, hclean, ?_, hon⟩
  · simp [isAttached, getAttachState, hrun]
  · rw [Bool.eq_iff_iff, hattached, decide_eq_true_iff]
    exact Int.natCast_inj

theorem tidy_getImsi (imsi : Bytes) :
    Tidy D V (getImsi imsi) fun d answer d' =>
      answer = (true, V.imsi.bytes) ∧ V.on d' = V.on d := by
  have hplain : Plain (commandLine cmdCIMI) := by decide
  obtain ⟨hrestart, hswitch, hurcs⟩ := hplain
  intro q hq
  obtain ⟨q₁, hsend, howed, hmodem⟩ := send_owed hD hq (commandLine cmdCIMI)
  rw [hurcs, ite_self, answer_commandLine, hD.cimi] at howed
  obtain ⟨q₂, hread, howed₂, hon₂⟩ :=
    read_clean hD howed threeSeconds (replyOf_suffix .any)
  obtain ⟨q₃, hrest, hclean, hon₃⟩ := ignoreRest_owed hD howed₂
  have hreply : (replyOf .any ([] ++ ModemReply.lines { infos := [V.imsi] })).1 =
      (true, V.imsi.bytes) := rfl
  rw [hreply] at hread
  refine ⟨(true, V.imsi.bytes), q₃, ?_, hclean, rfl, ?_⟩
  · simp [getImsi, Driver.sendCommand, hsend, hread, hrest, V.imsi.cString_bytes]
  · rw [hon₃, hon₂, hmodem, hD.on_sent q.modem hrestart hswitch]

/-- `m_deviceId` is empty, or it is what the modem says. -/
theorem tidy_getDeviceId {deviceId : Bytes} (hid : deviceId = [] ∨ deviceId = V.imsi.bytes) :
    Tidy D V (ModemBase.getDeviceId deviceId) fun d answer d' =>
      answer = V.imsi.bytes ∧ V.on d' = V.on d := by
  rcases hid with rfl | rfl
  · refine ((tidy_getImsi hD []).andThen fun answer => Tidy.result _).mono ?_
    rintro d b d' ⟨answer, d'', ⟨rfl, hon⟩, rfl, rfl⟩
    exact ⟨rfl, hon⟩
  · have hsome : V.imsi.bytes.isEmpty = false := List.isEmpty_eq_false_iff.2 V.imsi.nonempty
    rw [ModemBase.getDeviceId, hsome]
    refine (Tidy.result _).mono ?_
    rintro d b d' ⟨rfl, rfl⟩
    exact ⟨rfl, rfl⟩

/-- A command leaves a modem as it was, whatever it is for, unless it is one to switch it. -/
theorem tidy_command_plain {cmd : Bytes} (hcmd : Plain cmd) (timeout : Nat) :
    Tidy D V (command cmd timeout) fun d _ d' => V.on d' = V.on d := by
  obtain ⟨hrestart, hswitch, hurcs⟩ := hcmd
  refine (tidy_command hD hurcs timeout).mono fun d _ d' h => ?_
  rw [h.1, hD.on_sent d hrestart hswitch]

theorem tidy_detach :
    Tidy D V ModemBase.detach fun d ok d' =>
      ok = (V.reply d (commandLine cmdCGATT0)).ok ∧ V.on d' = V.on d := by
  have hplain : Plain (commandLine cmdCGATT0) := by decide
  obtain ⟨hrestart, hswitch, hurcs⟩ := hplain
  refine (tidy_command hD hurcs tenSeconds).mono fun d ok d' h => ⟨?_, ?_⟩
  · exact h.2 (commandLine_ne_nil _) (hD.simple d _ (.inl rfl))
  · rw [h.1, hD.on_sent d hrestart hswitch]

/-! ## Filters -/

/-- Lines that come before their filter is there go when it is. -/
theorem tidy_setupCeregUrc : Tidy D V setupCeregUrc fun d _ d' => V.on d' = V.on d := by
  intro q hq
  obtain ⟨q₁, hrun, howed, hon⟩ := acknowledged_owed hD hq cmdCEREG5 tenSeconds
  have hon' : V.on q₁.modem = V.on q.modem :=
    hon.trans (hD.on_sent q.modem (by decide) (by decide))
  cases hok : (V.reply q.modem (commandLine cmdCEREG5)).ok with
  | false =>
    rw [hok] at hrun howed
    exact ⟨false, q₁, by simp [setupCeregUrc, hrun], howed, hon'⟩
  | true =>
    rw [hok] at hrun howed
    have hknown : respCEREG ∈ V.urcs := hD.known (commandLine cmdCEREG5) List.mem_cons_self
    obtain ⟨q₂, added, hadd, howed₂, hmodem⟩ :=
      add_owed (D := D) .parseCeregUrc (by decide) hknown howed
    exact ⟨true, q₂, by simp [setupCeregUrc, hrun, hadd], howed₂,
      (congrArg V.on hmodem).trans hon'⟩

theorem tidy_setupPmUrcs : Tidy D V Bc95Modem.setupPmUrcs fun d _ d' => V.on d' = V.on d := by
  intro q hq
  obtain ⟨q₁, hrun, howed, hon⟩ := acknowledged_owed hD hq Bc95Modem.cmdNPSMR1 tenSeconds
  have hon' : V.on q₁.modem = V.on q.modem :=
    hon.trans (hD.on_sent q.modem (by decide) (by decide))
  cases hok : (V.reply q.modem (commandLine Bc95Modem.cmdNPSMR1)).ok with
  | false =>
    rw [hok] at hrun howed
    exact ⟨false, q₁, by simp [Bc95Modem.setupPmUrcs, ifOk, hrun], howed, hon'⟩
  | true =>
    obtain ⟨q₂, hrun₂, howed₂, hon₂⟩ :=
      acknowledged_owed hD howed Bc95Modem.cmdCSCON1 tenSeconds
    rw [hD.reports _ q₁.modem hok] at hrun₂ howed₂
    rw [hok] at hrun howed₂
    have hnpsmr : Bc95Modem.respNPSMR ∈ V.urcs :=
      hD.known (commandLine Bc95Modem.cmdNPSMR1) List.mem_cons_self
    have hcscon : Bc95Modem.respCSCON ∈ V.urcs :=
      hD.known (commandLine Bc95Modem.cmdCSCON1) List.mem_cons_self
    obtain ⟨q₃, added, hadd, howed₃, hmodem₃⟩ :=
      add_owed (D := D) .parseNpsmrUrc (by decide) hnpsmr howed₂
    obtain ⟨q₄, added', hadd', howed₄, hmodem₄⟩ :=
      add_owed (D := D) .parseCsconUrc (by decide) hcscon howed₃
    refine ⟨true, q₄, ?_, howed₄, ?_⟩
    · simp [Bc95Modem.setupPmUrcs, ifOk, hrun, hrun₂, hadd, hadd']
    · have hon₂' : V.on q₂.modem = V.on q₁.modem :=
        hon₂.trans (hD.on_sent q₁.modem (by decide) (by decide))
      exact (congrArg V.on (hmodem₄.trans hmodem₃)).trans (hon₂'.trans hon')

end Operations

end LibNbiot
