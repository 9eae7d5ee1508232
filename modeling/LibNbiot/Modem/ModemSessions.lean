/-
# Sessions with a modem

The calls of a modem object, one after the other, as the state machine of the client and
the application make them. The modem is switched on and off, restarted, attached and
asked, and in all of that the object never tells of it what is not so.
-/

import LibNbiot.Modem.Truthful

namespace LibNbiot

open Logic Logic.Program TextLine AtCommands ModemBase

variable {δ ω : Type} {D : LineModem δ} {V : ModemView δ} {q : LinePort ModemUrc δ}

/-! ## Starting and restarting -/

/-- The modem stays on or off, and a step succeeds only behind one that did. -/
def KeepsOn (V : ModemView δ) (ok : Bool) (d : δ) (ok' : Bool) (d' : δ) : Prop :=
  V.on d' = V.on d ∧ (ok' = true → ok = true)

theorem Tidy.keepsOn {ok : Bool} {p : ModemDriver Bool} {f : Bool → ModemDriver Bool}
    (h : Tidy D V p (KeepsOn V ok)) (hf : ∀ ok, Tidy D V (f ok) (KeepsOn V ok)) :
    Tidy D V (p >>= f) (KeepsOn V ok) := by
  refine (h.andThen hf).mono ?_
  rintro d ok' d' ⟨ok'', d'', ⟨hon, hok⟩, hon', hok'⟩
  exact ⟨hon'.trans hon, fun h => hok (hok' h)⟩

theorem tidy_ifOk {p : ModemDriver Bool} (h : Tidy D V p fun d _ d' => V.on d' = V.on d)
    (ok : Bool) : Tidy D V (ifOk ok p) (KeepsOn V ok) := by
  cases ok with
  | true => exact h.mono fun d ok' d' hon => ⟨hon, fun _ => rfl⟩
  | false =>
    refine (Tidy.result false).mono ?_
    rintro d ok' d' ⟨rfl, rfl⟩
    exact ⟨rfl, id⟩

/-- The commands after which a modem may be another one. -/
def specialCommands : List Bytes :=
  [commandLine cmdNRB, cmdCFUN .on, cmdCFUN .off, commandLine cmdCEREG5,
    commandLine Bc95Modem.cmdNPSMR1, commandLine Bc95Modem.cmdCSCON1]

/-- A command is known by how it begins, whatever an access point is called. -/
theorem plain_printf {head : Bytes} (hhead : ∀ cmd ∈ specialCommands, ¬head <+: cmd)
    (rest : Bytes) : Plain (printf (head ++ rest)) := by
  rw [printf]
  split
  · have hne : ∀ cmd ∈ specialCommands, head ++ rest ≠ cmd := by
      rintro cmd hcmd rfl
      exact hhead _ hcmd (List.prefix_append head rest)
    simp only [specialCommands, List.forall_mem_cons] at hne
    obtain ⟨hnrb, hon, hoff, hcereg, hnpsmr, hcscon, -⟩ := hne
    refine ⟨hnrb, ?_, ?_⟩
    · rw [switchOf, if_neg hon, if_neg hoff]
    · rw [urcsOf, if_neg hcereg, if_neg hnpsmr, if_neg hcscon]
  · decide

theorem plain_cmdCGDCONT (apn : Bytes) : Plain (cmdCGDCONT apn) := by
  have hhead : ∀ cmd ∈ specialCommands, ¬ascii "AT+CGDCONT=1," <+: cmd := by decide
  rw [cmdCGDCONT, List.append_assoc, List.append_assoc, List.append_assoc, List.append_assoc,
    List.append_assoc]
  exact plain_printf hhead _

theorem plain_cmdCOPS (plmn : Bytes) : Plain (cmdCOPS plmn) := by
  have hhead : ∀ cmd ∈ specialCommands, ¬ascii "AT+COPS=1,2," <+: cmd := by decide
  rw [cmdCOPS, List.append_assoc, List.append_assoc, List.append_assoc]
  exact plain_printf hhead _

section Starting

variable (hD : Honest D V)

include hD

theorem tidy_ignoreRest_then (ok : Bool) :
    Tidy D V (do ignoreRest; return ok) (KeepsOn V ok) := by
  refine ((tidy_ignoreRest hD).andThen fun _ => Tidy.result ok).mono ?_
  rintro d ok' d' ⟨-, d'', hon, rfl, rfl⟩
  exact ⟨hon, id⟩

theorem tidy_defineContext (ok : Bool) (apn : Bytes) :
    Tidy D V (defineContext ok apn) (KeepsOn V ok) := by
  cases ok with
  | true =>
    refine (tidy_command_plain hD (plain_cmdCGDCONT apn) halfSecond).mono ?_
    exact fun d ok' d' hon => ⟨hon, fun _ => rfl⟩
  | false => exact tidy_ignoreRest_then hD false

theorem tidy_isNotOff :
    Tidy D V (do return decide ((← isModemOn) ≠ .off)) fun _ ok d' =>
      ok = true → V.on d' = true := by
  refine ((tidy_isModemOn hD).andThen fun state => Tidy.result (decide (state ≠ .off))).mono ?_
  rintro d ok d' ⟨state, d'', ⟨rfl, hon⟩, rfl, rfl⟩ hstate
  rw [hon]
  simpa [ModemView.state] using hstate

/-- A modem that was switched on is on. -/
theorem tidy_switchOn : Tidy D V switchOn fun _ ok d' => ok = true → V.on d' = true := by
  have hcheck : ∀ ok, Tidy D V (ifOk ok do return (← isModemOn) ≠ .off)
      fun _ ok d' => ok = true → V.on d' = true := by
    intro ok
    refine Tidy.branch (fun _ => tidy_isNotOff hD) fun _ => (Tidy.result false).mono ?_
    rintro d ok' d' ⟨rfl, -⟩ hok
    cases hok
  refine ((tidy_acknowledged hD (by decide) tenSeconds).andThen fun ok =>
    (tidy_ignoreRest hD).andThen fun _ => hcheck ok).mono ?_
  rintro d ok' d' ⟨ok, d₁, -, -, d₂, -, h⟩
  exact h

/-- What is done behind it leaves it on. -/
theorem tidy_switchOn_then {f : Bool → ModemDriver Bool}
    (hf : ∀ ok, Tidy D V (f ok) (KeepsOn V ok)) :
    Tidy D V (switchOn >>= f) fun _ ok d' => ok = true → V.on d' = true := by
  refine ((tidy_switchOn hD).andThen hf).mono ?_
  rintro d ok' d' ⟨ok, d'', hon, hkeep, hok⟩ h
  rw [hkeep]
  exact hon (hok h)

theorem tidy_initializeBc95 :
    Tidy D V Bc95Modem.initializeModem fun _ ok d' => ok = true → V.on d' = true :=
  tidy_switchOn_then hD fun ok =>
    (tidy_ifOk (tidy_plain hD (by decide) tenSeconds) ok).keepsOn fun ok =>
      (tidy_ifOk (tidy_plain hD (by decide) tenSeconds) ok).keepsOn (tidy_ignoreRest_then hD)

theorem tidy_initializeModem (apn : Bytes) :
    Tidy D V (do defineContext (← switchOn) apn) fun _ ok d' => ok = true → V.on d' = true :=
  tidy_switchOn_then hD fun ok => tidy_defineContext hD ok apn

/-- A restart leaves nothing to be read, whether it is waited for or not. -/
theorem tidy_restart (ok : Bool) :
    Tidy D V (do
      let sent ← Driver.sendCommand cmdNRB
      let ok ← ifOk (ok && sent) (untilOk sixtyfiveSeconds)
      ignoreRest
      return ok) fun _ _ _ => True := by
  intro q hq
  have hurcs : urcsOf (commandLine cmdNRB) = [] := by decide
  obtain ⟨q₁, hsend, howed, -⟩ := send_owed hD hq (commandLine cmdNRB)
  rw [hurcs, ite_self] at howed
  cases ok with
  | true =>
    obtain ⟨q₂, hread, howed₂, -⟩ :=
      read_clean hD howed sixtyfiveSeconds (untilOf_suffix ModemBase.okReply)
    obtain ⟨q₃, hrest, hclean, -⟩ := ignoreRest_owed hD howed₂
    exact ⟨_, q₃, by simp [Driver.sendCommand, ifOk, untilOk, hsend, hread, hrest]; rfl, hclean,
      trivial⟩
  | false =>
    obtain ⟨q₂, hrest, hclean, -⟩ := ignoreRest_owed hD howed
    exact ⟨false, q₂, by simp [Driver.sendCommand, ifOk, hsend, hrest], hclean, trivial⟩

/-- A query that nothing is known of. -/
theorem tidy_query {cmd : Bytes} (hcmd : urcsOf (commandLine cmd) = []) (expected : Bytes) :
    Tidy D V (query cmd expected) fun _ _ _ => True := by
  intro q hq
  have hleft : ∀ l ∈ ([] : List TextLine), ¬cString expected <+: l.bytes := nofun
  obtain ⟨q', hrun, hclean, -⟩ := query_owed hD hq hcmd hleft
  exact ⟨_, q', hrun, hclean, trivial⟩

theorem tidy_rebootBc95 : Tidy D V Bc95Modem.reboot fun _ _ _ => True := by
  have hcheck : Tidy D V Bc95Modem.checkQRegSwt fun _ _ _ => True :=
    ((tidy_query hD (by decide) Bc95Modem.respQREGSWTquery).andThen fun _ =>
      Tidy.result _).cleans
  have hset : Tidy D V Bc95Modem.setQRegSwt2 fun _ _ _ => True :=
    ((tidy_acknowledged hD (by decide) tenSeconds).andThen (tidy_ignoreRest_then hD)).cleans
  exact (hcheck.andThen fun _ => Tidy.branch
    (fun _ => ((Tidy.result true).andThen (tidy_restart hD)).cleans)
    fun _ => (hset.andThen (tidy_restart hD)).cleans).cleans

theorem tidy_rebootSara : Tidy D V SaraModem.reboot fun _ _ _ => True :=
  ((tidy_acknowledged hD (by decide) sixtyfiveSeconds).andThen (tidy_ignoreRest_then hD)).cleans

/-- A BG96 is switched off, and what is left of an echo is passed over. -/
theorem tidy_rebootBg96 :
    Tidy D V Bg96Modem.reboot fun _ ok d' => ok = !V.on d' := by
  have htail : ∀ state : ModemState, Tidy D V
      (if state = .on then do
        let state ← switchModem .off
        let ok ← pure (decide (state = .off))
        ignoreRest
        return ok
      else do
        let ok ← pure true
        ignoreRest
        return ok)
      fun d ok d' => state = V.state d → ok = !V.on d' := by
    intro state
    refine Tidy.branch (fun _ => ?_) fun hstate => ?_
    · refine ((tidy_switchModem hD .off).andThen fun state =>
        (Tidy.result _).andThen fun ok => (tidy_ignoreRest hD).andThen fun _ =>
          Tidy.result ok).mono ?_
      rintro d ok d' ⟨state', d₁, rfl, ok', d₂, ⟨rfl, rfl⟩, -, d₃, hon, rfl, rfl⟩ -
      rw [hon]
      cases hon₂ : V.on d₂ <;> simp [ModemView.state, hon₂]
    · refine ((Tidy.result true).andThen fun ok => (tidy_ignoreRest hD).andThen fun _ =>
        Tidy.result ok).mono ?_
      rintro d ok d' ⟨ok', d₁, ⟨rfl, rfl⟩, -, d₂, hon, rfl, rfl⟩ rfl
      rw [hon]
      simpa [ModemView.state] using hstate
  intro q hq
  have hurcs : urcsOf (commandLine Bg96Modem.cmdATE0) = [] := by decide
  obtain ⟨q₁, hsend, howed, -⟩ := send_owed hD hq (commandLine Bg96Modem.cmdATE0)
  rw [hurcs, ite_self, answer_commandLine, List.nil_append] at howed
  obtain ⟨q₂, hread, howed₂, -⟩ := read_clean hD howed oneSecond (replyOf_suffix .ok)
  have hleft : ∀ l ∈ (replyOf .ok (V.reply q.modem (commandLine Bg96Modem.cmdATE0)).lines).2,
      ¬respCFUNquery <+: l.bytes := by
    intro l hl
    rcases List.mem_append.1 ((replyOf_suffix _ _).subset hl) with hl | hl
    · exact hD.echo q.modem l hl
    · rw [List.mem_singleton.1 hl, ModemReply.final]
      split <;> decide
  obtain ⟨q₃, hmode, hclean, hon₃⟩ := isModemOn_owed hD howed₂ hleft
  obtain ⟨ok, q₄, hrun, hclean₄, hok⟩ := htail (V.state q₂.modem) q₃ hclean
  refine ⟨ok, q₄, ?_, hclean₄, hok ?_⟩
  · simp only [Bg96Modem.reboot, Driver.sendCommand, Calling.run_then, hsend, after_readResponse,
      hread, hmode]
    exact hrun
  · rw [ModemView.state, ModemView.state, hon₃]

end Starting

/-! ## Calls -/

/-- What a call on a modem object tells of a modem that was one thing before it and is
another then. -/
def Tells (V : ModemView δ) (conf : ModemConf) (d d' : δ) : ModemCall → ModemAnswer → Prop
  | .isModemOn, answer => answer = .state (V.state d) ∧ V.on d' = V.on d
  | .switchModem _, answer => answer = .state (V.state d')
  | .isAttached, answer => answer = .success (V.attached d) ∧ V.on d' = V.on d
  | .getImsi, answer | .getDeviceId, answer =>
      answer = .text true V.imsi.bytes ∧ V.on d' = V.on d
  | .initializeModem, answer => answer = .success true → V.on d' = true
  | .reboot, answer => conf.kind = .bg96 → answer = .success (!V.on d')
  | .detach, answer =>
      answer = .success (V.reply d (commandLine cmdCGATT0)).ok ∧ V.on d' = V.on d
  | .attach, _ | .setupCeregUrc, _ | .setupPmUrcs, _ => V.on d' = V.on d

/-- A call that returns a success leaves `m_deviceId` alone. -/
theorem Tidy.success {p : ModemDriver Bool} {R : δ → Bool → δ → Prop} (h : Tidy D V p R)
    {call : ModemCall} {conf : ModemConf} {deviceId : Bytes}
    (hid : deviceId = [] ∨ deviceId = V.imsi.bytes)
    (hR : ∀ d ok d', R d ok d' → Tells V conf d d' call (.success ok)) :
    Tidy D V (do return (ModemAnswer.success (← p), deviceId)) fun d out d' =>
      Tells V conf d d' call out.1 ∧ (out.2 = [] ∨ out.2 = V.imsi.bytes) := by
  refine (h.andThen fun ok => Tidy.result _).mono ?_
  rintro d out d' ⟨ok, d'', hok, rfl, rfl⟩
  exact ⟨hR d ok d' hok, hid⟩

/-- A call tells what is so. -/
theorem tidy_program (hD : Honest D V) (conf : ModemConf) {deviceId : Bytes}
    (hid : deviceId = [] ∨ deviceId = V.imsi.bytes) (call : ModemCall) :
    Tidy D V (call.program conf deviceId) fun d out d' =>
      Tells V conf d d' call out.1 ∧ (out.2 = [] ∨ out.2 = V.imsi.bytes) := by
  obtain ⟨kind, apn, plmn⟩ := conf
  cases call with
  | reboot =>
    cases kind with
    | bc95 =>
      refine (tidy_rebootBc95 hD).success hid ?_
      rintro d ok d' - ⟨⟩
    | saraB656 | saraB657 =>
      refine (tidy_rebootSara hD).success hid ?_
      rintro d ok d' - ⟨⟩
    | bg96 =>
      refine (tidy_rebootBg96 hD).success hid ?_
      rintro d ok d' rfl -
      rfl
  | initializeModem =>
    have htells : ∀ (d : δ) (ok : Bool) (d' : δ), (ok = true → V.on d' = true) →
        Tells V ⟨kind, apn, plmn⟩ d d' .initializeModem (.success ok) := by
      intro d ok d' h hok
      exact h (ModemAnswer.success.inj hok)
    cases kind with
    | bc95 =>
      exact (tidy_initializeBc95 hD).success hid htells
    | saraB656 | saraB657 | bg96 =>
      exact (tidy_initializeModem hD apn).success hid htells
  | attach =>
    cases kind with
    | bc95 | bg96 =>
      exact (tidy_command_plain hD (by decide) _).success hid fun _ _ _ => id
    | saraB656 | saraB657 =>
      exact (tidy_command_plain hD (plain_cmdCOPS plmn) _).success hid fun _ _ _ => id
  | detach =>
    refine (tidy_detach hD).success hid ?_
    rintro d ok d' ⟨rfl, hon⟩
    exact ⟨rfl, hon⟩
  | isAttached =>
    refine (tidy_isAttached hD).success hid ?_
    rintro d ok d' ⟨rfl, hon⟩
    exact ⟨rfl, hon⟩
  | getImsi =>
    refine ((tidy_getImsi hD []).andThen fun _ => Tidy.result _).mono ?_
    rintro d out d' ⟨_, d'', ⟨rfl, hon⟩, rfl, rfl⟩
    exact ⟨⟨rfl, hon⟩, hid⟩
  | getDeviceId =>
    refine ((tidy_getDeviceId hD hid).andThen fun _ => Tidy.result _).mono ?_
    rintro d out d' ⟨_, d'', ⟨rfl, hon⟩, rfl, rfl⟩
    exact ⟨⟨rfl, hon⟩, .inr rfl⟩
  | switchModem state =>
    refine ((tidy_switchModem hD state).andThen fun _ => Tidy.result _).mono ?_
    rintro d out d' ⟨_, d'', rfl, rfl, rfl⟩
    exact ⟨rfl, hid⟩
  | isModemOn =>
    refine ((tidy_isModemOn hD).andThen fun _ => Tidy.result _).mono ?_
    rintro d out d' ⟨_, d'', ⟨rfl, hon⟩, rfl, rfl⟩
    exact ⟨⟨rfl, hon⟩, hid⟩
  | setupCeregUrc =>
    exact (tidy_setupCeregUrc hD).success hid fun _ _ _ => id
  | setupPmUrcs =>
    cases kind with
    | bc95 =>
      exact (tidy_setupPmUrcs hD).success hid fun _ _ _ => id
    | saraB656 | saraB657 | bg96 =>
      refine (Tidy.result (ModemAnswer.success false, deviceId)).mono ?_
      rintro d out d' ⟨rfl, rfl⟩
      exact ⟨rfl, hid⟩

/-! ## Sessions -/

namespace ModemCall

/-- Calls one after the other; what is left of them is `m_deviceId`. -/
def session (conf : ModemConf) : Bytes → List ModemCall → ModemDriver Bytes
  | deviceId, [] => pure deviceId
  | deviceId, call :: calls => do session conf (← call.program conf deviceId).2 calls

end ModemCall

theorem tidy_session (hD : Honest D V) (conf : ModemConf) {deviceId : Bytes}
    (hid : deviceId = [] ∨ deviceId = V.imsi.bytes) (calls : List ModemCall) :
    Tidy D V (ModemCall.session conf deviceId calls) fun _ deviceId _ =>
      deviceId = [] ∨ deviceId = V.imsi.bytes := by
  induction calls generalizing deviceId with
  | nil =>
    refine (Tidy.result deviceId).mono ?_
    rintro d _ d' ⟨rfl, -⟩
    exact hid
  | cons call calls ih =>
    intro q hq
    obtain ⟨out, q', hrun, hclean, -, hout⟩ := tidy_program hD conf hid call q hq
    obtain ⟨deviceId', q'', hrun', hclean', hid'⟩ := ih hout q' hclean
    refine ⟨deviceId', q'', ?_, hclean', hid'⟩
    rw [ModemCall.session, after, Calling.run_then]
    rw [after] at hrun hrun'
    rw [hrun]
    exact hrun'

/-! ## Sessions over the wire -/

/-- Where nothing of a reply is left, nothing is left that a call hears. -/
theorem Owed.heard_nil (h : Clean V q) : q.heard = [] := by
  have hnone := (List.append_eq_nil_iff.1 h.lines).1
  rw [List.filter_eq_nil_iff] at hnone
  rw [List.eq_nil_iff_forall_not_mem]
  intro l hl
  obtain ⟨key, hkey, -⟩ := h.heard l hl (Bool.eq_false_iff.2 (hnone l hl))
  exact absurd hkey List.not_mem_nil

/-- Nothing is there to be read but lines that filters take. -/
def NothingHeard (p : Port ModemUrc ω) : Prop :=
  ∃ ls, p.unread = frames ls ∧ ∀ l ∈ ls, p.filters.passes l = false

variable {W : OtherEnd ω} {R : ω → δ → Prop} {p : Port ModemUrc ω}

theorem Speaks.nothingHeard (h : Speaks R p q) (hq : Clean V q) : NothingHeard p := by
  obtain ⟨ls, hunread, hheard⟩ := h.lines
  rw [hq.heard_nil, List.filter_eq_nil_iff] at hheard
  refine ⟨ls, hunread, fun l hl => ?_⟩
  rw [h.filters]
  exact Bool.eq_false_iff.2 (hheard l hl)

/-- **What a modem object tells of its modem is so**, whatever calls were made before. -/
theorem Speaks.session_tells (hW : Punctual W D R) (hD : Honest D V) (h : Speaks R p q)
    (hq : Clean V q) (conf : ModemConf) (calls : List ModemCall) (call : ModemCall) :
    let before := (ModemCall.session conf [] calls).run (Port.exec W) p
    let out := (call.program conf before.1).run (Port.exec W) before.2
    ∃ d d', R before.2.other d ∧ R out.2.other d' ∧ Tells V conf d d' call out.1.1 ∧
      NothingHeard before.2 ∧ NothingHeard out.2 := by
  intro before out
  obtain ⟨deviceId, q₁, hrun, hclean, hid⟩ := tidy_session hD conf (.inl rfl) calls q hq
  obtain ⟨hbefore, hspeaks⟩ := h.run_lines hW (ModemCall.session conf [] calls)
  rw [after] at hrun
  rw [hrun] at hbefore hspeaks
  obtain ⟨answer, q₂, hcall, hclean', htells, -⟩ := tidy_program hD conf hid call q₁ hclean
  obtain ⟨hout, hspeaks'⟩ := hspeaks.run_lines hW (call.program conf deviceId)
  rw [after] at hcall
  rw [hcall] at hout hspeaks'
  have hprogram : out = (call.program conf deviceId).run (Port.exec W) before.2 :=
    congrArg (fun deviceId => (call.program conf deviceId).run (Port.exec W) before.2) hbefore
  rw [hprogram]
  refine ⟨q₁.modem, q₂.modem, hspeaks.modem, hspeaks'.modem, ?_, hspeaks.nothingHeard hclean,
    hspeaks'.nothingHeard hclean'⟩
  rw [hout]
  exact htells

/-! A modem on the bench: it takes every command, and tells of its registration if it is
asked to. -/

structure BenchModem where
  on : Bool := false
  attached : Bool := false
  reports : Bool := false
  owes : List TextLine := []

namespace BenchModem

def line (text : String) (nonempty : ascii text ≠ []) (isLine : Serial.IsLine (ascii text)) :
    TextLine := ⟨ascii text, nonempty, isLine⟩

def cfunLine (on : Bool) : TextLine :=
  if on then line "+CFUN:1" (by decide) (by decide +kernel)
  else line "+CFUN:0" (by decide) (by decide +kernel)

def cgattLine (attached : Bool) : TextLine :=
  if attached then line "+CGATT: 1" (by decide) (by decide +kernel)
  else line "+CGATT: 0" (by decide) (by decide +kernel)

def cimiLine : TextLine := line "901405100000001" (by decide) (by decide +kernel)

def ceregLine : TextLine := line "+CEREG:1" (by decide) (by decide +kernel)

def infos (m : BenchModem) (cmd : Bytes) : List TextLine :=
  if cmd = commandLine cmdCFUNquery then [cfunLine m.on]
  else if cmd = commandLine cmdCGATTquery then [cgattLine m.attached]
  else if cmd = commandLine cmdCIMI then [cimiLine]
  else []

def urcs : List Bytes := [respCEREG, Bc95Modem.respNPSMR, Bc95Modem.respCSCON]

/-- Of what it is to say it keeps the lines of replies. -/
def view : ModemView BenchModem where
  on := on
  attached := attached
  imsi := cimiLine
  reply m cmd := { infos := m.infos cmd }
  owes m := m.owes.filter fun l => urcs.all fun key => !key.isPrefixOf l.bytes
  urcs := urcs
  unasked m := if m.reports then [respCEREG] else []

def modem : LineModem BenchModem where
  write m cmd :=
    (true, {
      on := (switchOf cmd).getD m.on
      attached := cmd = commandLine Bc95Modem.cmdCOPS0 ∨ m.attached
      reports := m.reports || urcsOf cmd = [respCEREG]
      owes := m.owes ++ view.answer m cmd })
  say m _ := (view.owes m ++ if m.reports then [ceregLine] else [], { m with owes := [] })

theorem infos_eq_nil (m : BenchModem) {cmd : Bytes} (hcfun : cmd ≠ commandLine cmdCFUNquery)
    (hcgatt : cmd ≠ commandLine cmdCGATTquery) (hcimi : cmd ≠ commandLine cmdCIMI) :
    m.infos cmd = [] := by
  rw [infos, if_neg hcfun, if_neg hcgatt, if_neg hcimi]

theorem infos_reply (m : BenchModem) (cmd : Bytes) :
    ∀ l ∈ m.infos cmd, ¬AtCommands.okReply <+: l.bytes ∧ view.isReply l = true := by
  have hcfun : ∀ on, ¬AtCommands.okReply <+: (cfunLine on).bytes ∧
      view.isReply (cfunLine on) = true := by
    decide
  have hcgatt : ∀ on, ¬AtCommands.okReply <+: (cgattLine on).bytes ∧
      view.isReply (cgattLine on) = true := by
    decide
  have hcimi : ¬AtCommands.okReply <+: cimiLine.bytes ∧ view.isReply cimiLine = true := by decide
  intro l hl
  rw [infos] at hl
  split at hl
  · rw [List.mem_singleton.1 hl]
    exact hcfun m.on
  · split at hl
    · rw [List.mem_singleton.1 hl]
      exact hcgatt m.attached
    · split at hl
      · rw [List.mem_singleton.1 hl]
        exact hcimi
      · exact absurd hl List.not_mem_nil

theorem answer_reply (m : BenchModem) (cmd : Bytes) :
    ∀ l ∈ view.answer m cmd, view.isReply l = true := by
  intro l hl
  rw [ModemView.answer] at hl
  split at hl
  · exact absurd hl List.not_mem_nil
  · rcases List.mem_append.1 hl with hl | hl
    · exact (infos_reply m cmd l hl).2
    · have hok : view.isReply ModemReply.okLine = true := by decide
      rw [List.mem_singleton.1 hl]
      exact hok

theorem view_urcs : ∀ key ∈ view.urcs,
    ¬key <+: AtCommands.okReply ∧ ¬AtCommands.okReply <+: key ∧ ¬key <+: AtCommands.errReply := by
  decide

theorem honest_modem : Honest modem view where
  write _ _ := rfl
  owes m cmd := by
    have hanswer : (view.answer m cmd).filter view.isReply = view.answer m cmd :=
      List.filter_eq_self.2 (answer_reply m cmd)
    exact (List.filter_append _ _).trans (congrArg (view.owes m ++ ·) hanswer)
  tells m timeout := by
    have hcereg : (if m.reports then [ceregLine] else []).filter view.isReply = [] := by
      cases m.reports <;> decide
    have howes : (view.owes m).filter view.isReply = view.owes m :=
      List.filter_eq_self.2 fun l hl => (List.mem_filter.1 hl).2
    exact (List.filter_append _ _).trans (by rw [hcereg, howes, List.append_nil])
  told _ _ := rfl
  chatter m timeout l hl hreply := by
    rcases List.mem_append.1 hl with hl | hl
    · exact absurd (List.mem_filter.1 hl).2 (Bool.eq_false_iff.1 hreply)
    · cases hreports : m.reports with
      | false =>
        rw [hreports] at hl
        exact absurd hl List.not_mem_nil
      | true =>
        rw [hreports] at hl
        rw [List.mem_singleton.1 hl]
        exact ⟨respCEREG, by simp [view, hreports], by decide⟩
  unasked_say _ _ := List.Subset.refl _
  unasked_write m cmd := by
    cases hreports : m.reports <;> by_cases hcmd : urcsOf cmd = [respCEREG] <;>
      simp [view, modem, hreports, hcmd]
  on_say _ _ := rfl
  on_write _ _ _ := rfl
  infos := infos_reply
  urcs := view_urcs
  known cmd := by
    rw [urcsOf]
    split_ifs <;> decide
  simple m cmd h := by
    have hdetach : m.infos (commandLine cmdCGATT0) = [] :=
      m.infos_eq_nil (by decide) (by decide) (by decide)
    have hon : m.infos (cmdCFUN .on) = [] :=
      m.infos_eq_nil (by decide) (by decide) (by decide)
    have hoff : m.infos (cmdCFUN .off) = [] :=
      m.infos_eq_nil (by decide) (by decide) (by decide)
    rcases h with rfl | h
    · exact hdetach
    · rw [switchOf] at h
      split at h
      · subst cmd
        exact hon
      · split at h
        · subst cmd
          exact hoff
        · exact absurd rfl h
  echo m := by
    have hinfos : m.infos (commandLine Bg96Modem.cmdATE0) = [] :=
      m.infos_eq_nil (by decide) (by decide) (by decide)
    intro l hl
    have hnone : l ∈ m.infos (commandLine Bg96Modem.cmdATE0) := hl
    rw [hinfos] at hnone
    exact absurd hnone List.not_mem_nil
  reports _ _ _ := rfl
  cfun m := by
    refine ⟨if m.on then 1 else 0, cfunLine m.on, rfl, ⟨0, ?_⟩, ?_, ?_⟩
    · cases m.on <;> decide
    · split <;> decide
    · cases hon : m.on <;> simp [view, hon]
  cgatt m := by
    refine ⟨if m.attached then 1 else 0, cgattLine m.attached, rfl, ⟨1, ?_⟩, ?_, ?_⟩
    · cases m.attached <;> decide
    · split <;> decide
    · cases hattached : m.attached <;> simp [view, hattached]
  cimi _ := rfl

end BenchModem

/-- Registration is reported, the modem is switched on and attached, and it is asked. -/
theorem session_tells_benchModem :
    let p : Port ModemUrc BenchModem := { other := {} }
    let before := (ModemCall.session ⟨.bc95, [], []⟩ []
      [.setupCeregUrc, .initializeModem, .attach]).run (Port.exec BenchModem.modem.wire) p
    let out := (ModemCall.isAttached.program ⟨.bc95, [], []⟩ before.1).run
      (Port.exec BenchModem.modem.wire) before.2
    ∃ d d', before.2.other = d ∧ out.2.other = d' ∧
      Tells BenchModem.view ⟨.bc95, [], []⟩ d d' .isAttached out.1.1 ∧
      NothingHeard before.2 ∧ NothingHeard out.2 := by
  have hspeaks : Speaks Eq ({ other := {} } : Port ModemUrc BenchModem)
      ({ modem := {} } : LinePort ModemUrc BenchModem) := ⟨rfl, rfl, [], rfl, rfl⟩
  have hclean : Clean BenchModem.view ({ modem := {} } : LinePort ModemUrc BenchModem) :=
    ⟨rfl, fun l hl => absurd hl List.not_mem_nil, List.Subset.refl _, List.nil_subset _⟩
  exact hspeaks.session_tells (punctual_wire BenchModem.modem) BenchModem.honest_modem hclean
    ⟨.bc95, [], []⟩ [.setupCeregUrc, .initializeModem, .attach] .isAttached

end LibNbiot
