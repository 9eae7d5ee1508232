/-
# Serving a packet refines the session machine

Whatever packet arrives, serving it is a run of the session machine, and the
result tells whether it was the packet that was waited for. A DISCONNECT of the
gateway is a single step: at its end the state machine is not connected.
-/

import LibNbiot.Refinement.StateMachine

namespace LibNbiot

open Logic.Program

/-! ## Asking for the state -/

theorem stateIs_refines (st : StateId) :
    Refines core actMachine (fun _ => True) (stateIs st)
      fun b k => b = true ↔ k.state = some st :=
  getCurrentStateId_refines.bind fun now => .pure fun k hk => by simp [hk]

theorem isSleeping_refines : Acts isSleeping := by
  have acts (st : StateId) : Acts (stateIs st) := .of (stateIs_refines st) fun _ => trivial
  refine Acts.bind (acts _) fun b => .ite (.pure fun _ h => h) ?_
  exact Acts.bind (acts _) fun b => .ite (.pure fun _ h => h) (acts _)

/-! ## Disconnecting -/

theorem Reaches.append {es es' : List StmEvent} {st st' : Option StateId}
    (h : Reaches (es ++ es') st st') : ∃ mid, Reaches es st mid ∧ Reaches es' mid st' := by
  induction es generalizing st with
  | nil => exact ⟨st, rfl, h⟩
  | cons e es ih =>
    obtain ⟨next, hlead, h⟩ := h
    obtain ⟨mid, hreach, h⟩ := ih h
    exact ⟨mid, ⟨next, hlead, hreach⟩, h⟩

theorem transitions_not_connected (st : StateId) :
    ∀ p ∈ st.transitions, p.1 = .disconnectEvent ∨ p.1 = .timer →
      .connected ∉ p.2.target.leaves := by
  cases st <;> decide

/-- The disconnect event leaves the Connected state, and neither it nor the state
timeout enters it. -/
theorem leads_not_connected {e : StmEvent} (he : e = .disconnectEvent ∨ e = .timer)
    {st st' : Option StateId} (h : Leads e st st')
    (hst : e = .timer → st ≠ some .connected) : st' ≠ some .connected := by
  cases st with
  | none => exact fun hst' => by simp [hst', Leads] at h
  | some st =>
    cases ht : st.transitionFor e with
    | some t =>
      simp only [Leads, ht] at h
      obtain ⟨leaf, hleaf, rfl⟩ := h
      rintro ⟨⟩
      exact transitions_not_connected st (e, t) (mem_transitions ht) he hleaf
    | none =>
      simp only [Leads, ht] at h
      subst h
      rintro ⟨⟩
      rcases he with rfl | rfl
      · cases ht
      · exact hst rfl rfl

theorem Sent.not_connected {st st' : Option StateId} (h : Sent .disconnectEvent st st') :
    st' ≠ some .connected := by
  obtain ⟨es, rest, -, hrest, hreach⟩ := h
  obtain ⟨mid, -, next, hlead, hreach⟩ := hreach.append
  have hnext := leads_not_connected (.inl rfl) hlead nofun
  rcases hrest with rfl | rfl
  · exact (show st' = next from hreach) ▸ hnext
  · obtain ⟨last, hlead, rfl⟩ := hreach
    exact leads_not_connected (.inr rfl) hlead fun _ => hnext

theorem disconnect_refines :
    Refines core servingMachine (fun _ => True) disconnect fun _ k => k.state ≠ some .connected := by
  refine .bind ((stateIs_refines .connected).mono acts_sub_serving) fun awake => ?_
  have hproceed : Refines core actMachine (fun k => awake = true ↔ k.state = some .connected)
      (if awake = true then pure true else isSleeping)
      fun proceed k => proceed = false → k.state ≠ some .connected := by
    refine .ite (fun _ => .pure fun _ _ => nofun) fun hawake => ?_
    refine (isSleeping_refines.keeps (J := fun k => k.state ≠ some .connected)
      fun h hk => by rw [h.state]; exact hk).conseq (fun k hk => ?_) fun _ _ hk _ => hk
    exact fun hstate => hawake (hk.2 hstate)
  refine .bind (hproceed.mono acts_sub_serving) fun proceed => .ite (fun _ => ?_) fun hproceed => ?_
  · refine .bind ((isSleeping_refines.mono acts_sub_serving).pre fun _ _ => trivial) fun asleep => ?_
    refine .bind (.onlyIf (fun _ => sendEvent_serves (by decide)) fun _ _ h => h)
      fun _ => ?_
    exact .intro fun k₀ _ => (sendEvent_refines k₀.state).conseq
      (fun k hk => ⟨congrArg _ hk, by decide, by simp⟩) fun _ _ hk => hk.not_connected
  · exact .pure fun k hk => hk (by simpa using hproceed)

/-! ## Notifications of the client -/

theorem Act.reportable {returnCode : Nat} {k k' : Core} (h : Act k k')
    (hk : Reportable returnCode k) : Reportable returnCode k' := by
  rw [Reportable, HasRead, h.unread.running, h.unread.received, h.unread.readbuf, h.endedPublish]
  exact hk

theorem pubackNotify_refines (topic : NbiotTopic) :
    Refines core actMachine (fun k => Reportable topic.returnCode k) (pubackNotify topic)
      fun _ _ => True := by
  refine .bind (R := fun _ _ => True) ?_ fun _ => ?_
  · refine .silent_bind getMqtt_silent fun mqtt => .ite (fun _ => ?_) fun _ =>
      .pure fun _ _ => trivial
    have hstate : Acts getCurrentStateId := .of getCurrentStateId_refines fun _ => trivial
    refine .bind (hstate.keeps Act.reportable) fun st => .silent_bind getMqtt_silent fun mqtt => ?_
    refine .ite (fun _ => .single fun s hs => ⟨.notifyPublish _ ⟨fun herr => ?_, hs⟩, trivial⟩)
      fun _ => .pure fun _ _ => trivial
    by_contra hrc
    dsimp only at herr hrc
    rw [if_neg hrc] at herr
    split at herr <;> cases herr
  · refine .silent (.ite (.bind getRegistry_silent fun registry => ?_) (.pure _))
    split
    · exact modifyRegistry_silent _
    · exact .pure _

theorem notifyState_refines {action : NbiotAction} (haction : action ≠ .publish) (returnCode : Nat)
    (errorNumber : Option StateId → ErrorNumber) :
    Acts (notifyState action returnCode errorNumber) := by
  refine .silent_bind getMqtt_silent fun mqtt => .ite (fun _ => ?_) fun _ => .pure fun _ h => h
  exact Acts.bind (.of getCurrentStateId_refines fun _ => trivial) fun st => notify_refines haction

theorem registerNotify_refines (topic : NbiotTopic) : Acts (registerNotify topic) := by
  refine .bind (logApp_refines rfl nofun) fun _ => .silent_bind getRegistry_silent fun registry => ?_
  split
  · exact .silent (.bind (modifyRegistry_silent _) fun _ => .pure _)
  · refine .silent_bind getPool_silent fun pool => .ite (fun _ => ?_) fun _ => ?_
    · exact .silent (.bind (modifyRegistry_silent _) fun _ => .pure _)
    · exact Acts.bind (notifyState_refines (by decide) _ _) fun _ => .pure fun _ h => h

theorem disconnectNotify_refines :
    Refines core servingMachine (fun _ => True) disconnectNotify
      fun _ k => k.state ≠ some .connected := by
  refine .bind (getCurrentStateId_refines.mono acts_sub_serving) fun st => ?_
  refine .silent_bind getMqtt_silent fun mqtt => ?_
  have hnotify : Acts (onlyIf (mqtt.notifyHandler = true) <|
      notify
        { state := st
          action := .disconnect
          returnCode := rcAccepted
          errorNumber := if expectedDisconnect st then .success else .connectionError }) :=
    .onlyIf (fun _ => notify_refines nofun) fun _ _ h => h
  refine .bind ((hnotify.keeps (J := fun k => k.state = st) fun h hk => h.state.trans hk).mono
    acts_sub_serving) fun _ => ?_
  refine .ite (fun _ => disconnect_refines.pre fun _ _ => trivial) fun hexpected => ?_
  refine .pure fun k hk hconnected => ?_
  rw [hk] at hconnected
  subst hconnected
  exact hexpected rfl

theorem Quiet.isconnected {k k' : Core} (h : Quiet k k') : k'.isconnected = k.isconnected := by
  cases h with
  | act h => cases h <;> rfl
  | plug h => cases h <;> rfl
  | move h => cases h <;> rfl
  | ready h => cases h <;> rfl

theorem Gone.isconnected {k k' : Core} (h : Gone k k') : k'.isconnected = false := by
  have hkeeps : ∀ {k k' : Core}, Serving k k' → k'.isconnected = k.isconnected := by
    intro k k' h
    have hrun := h.quiet
    clear h
    induction hrun with
    | refl => rfl
    | tail _ hstep ih => exact hstep.isconnected.trans ih
  have hrun := h.run
  clear h
  induction hrun with
  | refl => rfl
  | tail _ hstep ih => exact (hkeeps hstep).trans ih

/-- The end of the session by the gateway is one step. -/
theorem gatewayDisconnect_refines :
    Refines core serveMachine (fun _ => True) gatewayDisconnect
      fun _ k => k.isconnected = false := by
  intro s hinv _
  obtain ⟨hrun, hleft⟩ := disconnectNotify_refines
    (modifySn (fun sn => { sn with isconnected := false }) s).2 hinv trivial
  have hgone : Gone (core s) _ := ⟨hrun, hleft⟩
  exact ⟨.single (.gone hgone), hgone.isconnected⟩

theorem pingRespNotify_refines :
    Refines core servingMachine (fun _ => True) pingRespNotify fun _ _ => True := by
  refine .bind ((stateIs_refines .connectedAwake).mono acts_sub_serving) fun awake =>
    .ite (fun _ => ?_) fun _ => .pure fun _ _ => trivial
  exact .bind ((sendEvent_serves (by decide)).pre fun _ _ => trivial) fun _ =>
    .silent stopYield_silent

/-! ## The packets -/

/-- The result of serving a packet: success or failure as an unsigned character. -/
def Served (rc : Nat) : Prop := rc = toUChar mqttSuccess ∨ rc = toUChar mqttFailure

theorem answerPacket_refines {p : Packet} (hp : ∀ k, Sendable k p) (timer : Timer) :
    Refines core actMachine (fun _ => True) (answerPacket p timer) fun rc _ => Served rc := by
  refine .bind ((serialize_refines p).pre fun k _ => hp k) fun len => ?_
  refine .ite (fun _ => .pure fun _ _ => .inr rfl) fun hlen => ?_
  refine .bind ((sendPrepared_refines len timer).pre fun _ hk => hk (Nat.pos_of_ne_zero hlen))
    fun r => .pure fun _ hr => hr.imp (congrArg _) (congrArg _)

theorem byteAt_lt (buf : Bytes) (i : Nat) : byteAt buf i < 256 := (buf.getD i 0).toNat_lt

/-- The packet whose type the cycle goes by is the one that was read. -/
theorem TypeRead.hasRead {ty : Int} {k : Core} {type : MsgType} (h : TypeRead ty k)
    (hty : toUShort ty = type.code.toNat) : HasRead type k := by
  rcases h with ⟨rfl, -⟩ | ⟨hsome, rfl⟩
  · have hlt := type.code.toNat_lt
    rw [← hty] at hlt
    exact absurd hlt (by decide)
  · refine ⟨hsome, ?_⟩
    have hlt := byteAt_lt k.readbuf (packetDecode k.readbuf).1
    rw [← hty, packetType, toUShort]
    omega

theorem cyclePuback_refines :
    Refines core actMachine (fun k => (running k.trace).isSome ∧ HasRead .puback k) cyclePuback
      fun rc _ => Served rc := by
  refine .silent_bind getSn_silent fun sn => .ite (fun _ => ?_) fun _ =>
    .pure fun _ _ => .inl rfl
  refine .reads getSn_run fun s hs => .ite (fun _ => .pure fun _ _ => .inr rfl) fun _ => ?_
  refine .bind ((pubackNotify_refines _).pre fun k hk => ?_) fun _ => .pure fun _ _ => .inl rfl
  subst hk
  exact .inl ⟨hs.1, hs.2, rfl⟩

theorem cycleRegister_refines (timer : Timer) :
    Refines core actMachine (fun _ => True) (cycleRegister timer)
      fun rc _ => ∀ rc', rc = some rc' → Served rc' := by
  refine .silent_bind getSn_silent fun sn => .ite (fun _ => .pure fun _ _ => nofun) fun _ => ?_
  refine .bind (registerNotify_refines _) fun returnCode => .map ?_
  exact (answerPacket_refines (p := .regack _ _ _) (fun _ => trivial) timer).post fun _ _ hrc rc' h =>
    Option.some.inj h ▸ hrc

theorem cycleDisconnect_refines :
    Refines core serveMachine (fun _ => True) cycleDisconnect
      fun rc k => Served rc ∧ (deserializeDisconnect k.readbuf = 1 → k.isconnected = false) := by
  refine .reads getSn_run fun s _ => .ite (fun hno => .pure fun k hk => ⟨.inr rfl, fun h => ?_⟩)
    fun _ => ?_
  · rw [hk] at h
    exact absurd h hno
  · exact .bind (gatewayDisconnect_refines.pre fun _ _ => trivial) fun _ =>
      .pure fun _ hk => ⟨.inl rfl, fun _ => hk⟩

theorem deliverMessage_refines (data : PublishData) : Acts (deliverMessage data) := by
  refine .silent_bind getRegistry_silent fun registry => ?_
  have hcall (handler : Option (MessageHandler × Bytes)) : Acts (callMessageHandler handler data) := by
    cases handler with
    | none => exact .pure fun _ h => h
    | some handler => exact logApp_refines rfl nofun
  exact Acts.bind (hcall _) fun _ => .silent (.bind (modifyRegistry_silent _) fun _ => .pure _)

theorem acknowledge_refines (data : PublishData) (retCode : Nat) (timer : Timer) :
    Refines core actMachine (fun _ => True) (acknowledge data retCode timer)
      fun rc _ => Served rc := by
  refine .ite (fun _ => answerPacket_refines (p := .puback _ _ _) (fun _ => trivial) timer)
    fun _ => ?_
  exact .ite (fun _ => answerPacket_refines (p := .pubrec _) (fun _ => trivial) timer) fun _ =>
    .pure fun _ _ => .inr rfl

theorem cyclePublish_refines (timer : Timer) :
    Refines core actMachine (fun _ => True) (cyclePublish timer) fun r _ => Served r.1 := by
  refine .silent_bind (ask_silent _) fun r => .silent_bind getSn_silent fun sn => ?_
  refine .ite (fun _ => .pure fun _ _ => .inl rfl) fun _ => ?_
  refine .bind (deliverMessage_refines _) fun retCode => .ite (fun _ => ?_) fun _ => ?_
  · exact .pure fun _ _ => .inl rfl
  · exact .bind (acknowledge_refines _ _ _) fun rc => .pure fun _ hrc => hrc

theorem cyclePingresp_refines :
    Refines core serveMachine (fun _ => True) cyclePingresp fun _ _ => True := by
  refine .silent_bind getSn_silent fun sn => .ite (fun _ => ?_) fun _ => .silent ?_
  · exact .silent_bind (modifySn_silent fun _ => rfl) fun _ =>
      pingRespNotify_refines.mono serving_sub_serve
  · exact .bind getSn_silent fun _ => .ite (modifySn_silent fun _ => rfl) (.pure _)

/-- A DISCONNECT that was read has ended the session. -/
def DisconnectServed (ty : Int) (k : Core) : Prop :=
  toUShort ty = MsgType.disconnect.code.toNat → deserializeDisconnect k.readbuf = 1 →
    k.isconnected = false

theorem DisconnectServed.of_type {ty : Int} {k : Core} {type : MsgType}
    (hty : toUShort ty = type.code.toNat)
    (hne : type.code.toNat ≠ MsgType.disconnect.code.toNat) : DisconnectServed ty k :=
  fun h => absurd (hty.symm.trans h) hne

/-- Whatever was read has been served. -/
theorem DisconnectServed.heeded {ty : Int} {k : Core} (h : DisconnectServed ty k)
    (hread : TypeRead ty k) : k.Heeded := by
  intro hdisconnect
  obtain ⟨-, hnone⟩ | ⟨-, hty⟩ := hread
  · have hsome := hdisconnect.1
    rw [hnone] at hsome
    cases hsome
  · apply h
    have hlt := MsgType.disconnect.code.toNat_lt
    rw [hty, hdisconnect.2, toUShort]
    omega

theorem cycleSwitch_refines (ty : Int) (timer : Timer) :
    Refines core serveMachine (fun k => (running k.trace).isSome ∧ TypeRead ty k)
      (cycleSwitch (toUShort ty) timer) fun r k => Served r.1 ∧ DisconnectServed ty k := by
  refine .ite (fun hty => ?_) fun _ => .ite (fun hty => ?_) fun _ => .ite (fun _ => ?_) fun hno =>
    .ite (fun hty => ?_) fun _ => .ite (fun hty => ?_) fun _ =>
      .pure fun _ _ => ⟨.inl rfl, fun h => absurd h hno⟩
  · refine .bind ((cyclePuback_refines.mono acts_sub_serve).pre fun k hk => ?_) fun rc =>
      .pure fun _ hrc => ⟨hrc, .of_type hty (by decide)⟩
    exact ⟨hk.1, hk.2.hasRead hty⟩
  · refine .bind (((cycleRegister_refines timer).mono acts_sub_serve).pre fun _ _ => trivial)
      fun rc => ?_
    split
    · exact .pure fun _ hrc => ⟨hrc _ rfl, .of_type hty (by decide)⟩
    · exact .pure fun _ _ => ⟨.inl rfl, .of_type hty (by decide)⟩
  · exact .bind (cycleDisconnect_refines.pre fun _ _ => trivial) fun rc =>
      .pure fun _ hrc => ⟨hrc.1, fun _ => hrc.2⟩
  · exact ((cyclePublish_refines timer).mono acts_sub_serve).conseq (fun _ _ => trivial)
      fun _ _ hrc => ⟨hrc, .of_type hty (by decide)⟩
  · exact .bind (cyclePingresp_refines.pre fun _ _ => trivial) fun _ =>
      .pure fun _ _ => ⟨.inl rfl, .of_type hty (by decide)⟩

/-! ## A whole cycle -/

theorem code_ne_failure (type : MsgType) : type.code.toNat ≠ toUChar mqttFailure := by
  cases type <;> decide

theorem code_ne_success (type : MsgType) : type.code.toNat ≠ toUChar mqttSuccess := by
  cases type <;> decide

/-- The result of a cycle is the type of a packet only if that packet was read. -/
theorem cycle_refines (timer : Timer) :
    Refines core handlerMachine Reading (cycle timer)
      fun rc k => k.Heeded ∧ ∀ type : MsgType, rc = type.code.toNat → HasRead type k := by
  have hread := (readPacket_refines timer).frame (J := fun k => (running k.trace).isSome)
    fun _ h hk => by rw [h.unmoved.running]; exact hk
  refine .bind (hread.pre fun k hk => ⟨hk, ?_⟩) fun ty => ?_
  · obtain ⟨-, c, v, hrun⟩ := hk
    rw [hrun]
    rfl
  have hframe {k k' : Core} (h : Serve k k') (hk : TypeRead ty k) : TypeRead ty k' := by
    rw [TypeRead, h.unread.received, h.unread.readbuf]
    exact hk
  have hswitch := ((cycleSwitch_refines ty timer).frame (J := TypeRead ty)
    fun _ => hframe).mono serve_sub_handlers
  refine .bind (hswitch.pre fun k hk => ⟨⟨hk.2, hk.1⟩, hk.1⟩) fun r => ?_
  have hact {k k' : Core} (h : Act k k') (hk : DisconnectServed ty k) : DisconnectServed ty k' := by
    rw [DisconnectServed, h.unread.readbuf, (Quiet.act h).isconnected]
    exact hk
  have hkeepalive : Refines core actMachine
      (fun k => (Served r.1 ∧ DisconnectServed ty k) ∧ TypeRead ty k)
      (onlyIf (r.2 = true) keepalive)
      fun _ k => (Served r.1 ∧ DisconnectServed ty k) ∧ TypeRead ty k :=
    .onlyIf (fun _ => keepalive_refines.keeps fun h hk =>
      ⟨⟨hk.1.1, hact h hk.1.2⟩, hframe (.serving (.act h)) hk.2⟩) fun _ _ h => h
  refine .bind (hkeepalive.mono acts_sub_handlers) fun _ =>
    .pure fun k ⟨⟨hserved, hdisconnect⟩, hty⟩ => ⟨hdisconnect.heeded hty, fun type => ?_⟩
  split
  · rintro hcode
    have hcode : toUChar (toUShort ty) = type.code.toNat := Int.ofNat.inj hcode
    rcases hty with ⟨rfl, -⟩ | ⟨hsome, rfl⟩
    · exact absurd hcode.symm (code_ne_failure type)
    · refine ⟨hsome, ?_⟩
      have hlt := byteAt_lt k.readbuf (packetDecode k.readbuf).1
      rw [← hcode, packetType, toUShort, toUChar]
      omega
  · rename_i hne
    intro hcode
    have hcode : r.1 = type.code.toNat := Int.ofNat.inj hcode
    rcases hserved with hserved | hserved
    · exact absurd (hcode.symm.trans hserved) (code_ne_success type)
    · exact absurd (hcode.symm.trans hserved) (code_ne_failure type)

/-- Before a packet is read there is none to heed. -/
theorem Core.Heeded.of_unread {k : Core} (h : lastReceived k.trace = none) : k.Heeded := by
  intro hread
  have hsome := hread.1
  rw [h] at hsome
  cases hsome

theorem Reading.heeded {k : Core} (h : Reading k) : k.Heeded := .of_unread h.1

/-- A loop goes on waiting unless there was no time or the packet came. -/
theorem loopWait_refines (breakValue interval : Int) {J : Core → Prop} :
    Refines core handlerMachine (fun k => Reading k ∧ J k) (loopWait breakValue interval)
      fun goOn k => k.Heeded ∧ (goOn = false → (interval = 0 ∧ J k) ∨
        ∀ type : MsgType, breakValue = type.code.toNat → HasRead type k) := by
  refine .ite (fun h => .pure fun k hk => ⟨hk.1.heeded, fun _ => .inl ⟨h, hk.2⟩⟩) fun _ => ?_
  refine .silent_bind (startTimer_silent _) fun timer => ?_
  refine .bind ((cycle_refines timer).pre fun _ hk => hk.1) fun rc =>
    .pure fun k hk => ⟨hk.1, fun hgo => .inr ?_⟩
  have hrc : rc = breakValue := by simpa using hgo
  exact fun type htype => hk.2 type (hrc.trans htype)

end LibNbiot
