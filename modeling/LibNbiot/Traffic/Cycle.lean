/-
# What is received, answered and delivered

A cycle begins when nothing is left to be answered, and it ends so. In between a packet
is received, and stays in front of the read buffer for as long as it takes to serve it:
what is delivered is its message, and what answers it carries its ids.
-/

import LibNbiot.Refinement.Client
import LibNbiot.Traffic.StateMachine

namespace LibNbiot

open Logic.Program

namespace Traffic

/-! ## Packets in front of a buffer -/

section Front

variable {r buf : Bytes}

theorem byteAt_of_front (h : r <+: buf) {i : Nat} (hi : i < r.length) :
    byteAt buf i = byteAt r i := by
  obtain ⟨junk, rfl⟩ := h
  rw [byteAt, byteAt, List.getD_append _ _ _ _ hi]

theorem lt_of_byteAt {i : Nat} (h : byteAt r i ≠ 0) : i < r.length := by
  by_contra hi
  exact h (by rw [byteAt, List.getD_eq_default _ _ (Nat.le_of_not_lt hi), UInt8.toNat_zero])

/-- The header of a packet that has a type is read from the packet alone. -/
theorem packetDecode_of_front (h : r <+: buf) (htype : packetType r ≠ 0) :
    packetDecode buf = packetDecode r := by
  have hlt := lt_of_byteAt htype
  unfold packetDecode at hlt ⊢
  split at hlt
  · rename_i hlong
    have hbyte (i : Nat) (hi : i < 3) : byteAt buf i = byteAt r i := byteAt_of_front h (by omega)
    rw [readInt, readInt, hbyte 0 (by decide), hbyte 1 (by decide), hbyte 2 (by decide)]
  · rename_i hshort
    rw [byteAt_of_front h (by omega), if_neg hshort, if_neg hshort]

theorem headerOk_of_front (h : r <+: buf) {type : MsgType} (hcode : type.code.toNat ≠ 0)
    (hr : headerOk r type) : headerOk buf type := by
  have htype : packetType r ≠ 0 := hr.2.symm ▸ hcode
  refine ⟨by rw [packetDecode_of_front h htype]; exact hr.1, ?_⟩
  rw [packetType, packetDecode_of_front h htype, byteAt_of_front h (lt_of_byteAt htype)]
  exact hr.2

/-- A packet owes an answer whatever stands behind it. -/
theorem Owes.of_front (h : r <+: buf) (howes : Owes r) : Owes buf := by
  obtain hregister | ⟨hpublish, hqos⟩ := howes
  · exact .inl (headerOk_of_front h (by decide) hregister)
  · have htype : packetType r ≠ 0 := by
      rw [hpublish.2]
      decide
    have hflags : byteAt r ((packetDecode r).1 + 1) ≠ 0 := by omega
    refine .inr ⟨headerOk_of_front h (by decide) hpublish, ?_⟩
    rw [packetDecode_of_front h htype, byteAt_of_front h (lt_of_byteAt hflags)]
    exact hqos

end Front

/-! ## Reading -/

theorem Sending.of_settled {α : Type} {m : M α} (h : Sends m) :
    Refines traffic passings (fun k => Settled k.trace) m fun _ k => Settled k.trace :=
  (h.keeps (J := fun k => Settled k.trace) fun _ h => h.settled).mono sendings_sub_passings

/-- Reading changes nothing but the read buffer, by the bytes that were read. -/
theorem networkRead_traffic (offset len : Nat) (s : Sys) :
    traffic (networkRead offset len s).2 = traffic s ∧ (networkRead offset len s).1 < 1 ∨
      ∃ data, 0 < data.length ∧ data.length ≤ len ∧
        (networkRead offset len s).1 = data.length ∧ traffic (networkRead offset len s).2 =
          { traffic s with readbuf := overwrite (traffic s).readbuf offset (data ++ [0]) } := by
  simp only [networkRead, run_bind, run_ite, run_onlyIf]
  split_ifs with hok hdata
  · exact .inr ⟨_, hdata, List.length_take_le .., rfl, rfl⟩
  · refine .inl ⟨rfl, ?_⟩
    have hzero := Nat.eq_zero_of_not_pos hdata
    exact Int.ofNat_lt.2 (Nat.lt_one_iff.2 hzero)
  · exact .inl ⟨rfl, by simp⟩

/-- Nothing is left to be answered, and the length field in the buffer says this. -/
def HeaderIs (header : Nat × Nat) (k : Traffic) : Prop :=
  Settled k.trace ∧ packetDecode k.readbuf = header ∧ header.1 ≤ k.readbuf.length

/-- A packet was received, and stands in front of the read buffer. -/
def Received (k : Traffic) : Prop :=
  ∃ r, unanswered k.trace = some r ∧ undelivered k.trace = some r ∧ r <+: k.readbuf

/-- What an attempt to read a packet returns. -/
def TypeRead (rc : Int) (k : Traffic) : Prop :=
  rc = mqttFailure ∧ Settled k.trace ∨
    Received k ∧ (packetDecode k.readbuf).2 ≤ maxPacketSize ∧ rc = packetType k.readbuf

theorem readFailure_passes :
    Refines traffic passings (fun k => Settled k.trace) readFailure TypeRead :=
  fun _ _ hs => ⟨.single (.fail _ hs), .inl ⟨rfl, nofun⟩⟩

/-- A read behind the length field. -/
theorem networkRead_more {header : Nat × Nat} {len : Nat} (hlen : header.1 + len ≤ maxPacketSize) :
    Refines traffic passings (HeaderIs header) (networkRead header.1 len)
      fun _ => HeaderIs header := by
  rintro s _ ⟨hs, rfl, hbuf⟩
  obtain ⟨hsame, -⟩ | ⟨data, hpos, hdata, -, htraffic⟩ := networkRead_traffic _ len s
  · rw [hsame]
    exact ⟨.refl, hs, rfl, hbuf⟩
  · rw [htraffic]
    refine ⟨.single (.read _ data hpos (by omega)), hs, packetDecode_overwrite le_rfl hbuf _, ?_⟩
    exact hbuf.trans (length_overwrite _ _ _)

/-- A packet is complete: it is as long as its length field says. -/
theorem readComplete_passes {header : Nat × Nat} (hlen : header.2 ≤ maxPacketSize) :
    Refines traffic passings (HeaderIs header) (readComplete header.1 header.2) TypeRead := by
  refine .reads (g := fun s => s.rest.sn) (fun _ => rfl) fun s ⟨hsettled, hheader, _⟩ => ?_
  have hlog : Refines traffic passings (fun k => k = traffic s)
      (logApp (.received (s.rest.sn.readbuf.take header.2)))
      fun _ k => Received k ∧ packetDecode k.readbuf = header := by
    refine .single fun s' hs' => ?_
    have hbuf : s'.rest.sn.readbuf = s.rest.sn.readbuf := congrArg Traffic.readbuf hs'
    rw [← hbuf]
    refine ⟨.receive header.2 _ hlen (by rw [hs']; exact hsettled), ?_, ?_⟩
    · exact ⟨_, rfl, rfl, List.take_prefix _ _⟩
    · exact (congrArg (fun k : Traffic => packetDecode k.readbuf) hs').trans hheader
  refine .bind hlog fun _ => .silent_bind renewLastReceived_silent fun _ => ?_
  refine .reads (g := fun s => s.rest.sn) (fun _ => rfl) fun s' hs' => .pure fun k hk => .inr ?_
  subst hk
  refine ⟨hs'.1, by rw [hs'.2]; exact hlen, ?_⟩
  rw [packetType, hs'.2]
  rfl

theorem readRest_passes (timer : Timer) (len : Nat) :
    Refines traffic passings
      (fun k => Settled k.trace ∧ (packetDecode k.readbuf).1 = len ∧ len ≤ k.readbuf.length)
      (readRest timer len) TypeRead := by
  refine .reads (g := fun s => s.rest.sn) (fun _ => rfl) fun s ⟨hs, hlen, hbuf⟩ => ?_
  refine .silent_bind (fun _ => rfl) fun _ => ?_
  refine .pre (S := HeaderIs (packetDecode s.rest.sn.readbuf)) ?_ fun k hk => ?_
  · have hlen : (packetDecode s.rest.sn.readbuf).1 = len := hlen
    refine .ite (fun _ => readFailure_passes.pre fun _ h => h.1) fun hmax => ?_
    have hmax : (packetDecode s.rest.sn.readbuf).2 ≤ maxPacketSize := Nat.le_of_not_lt hmax
    have hmore : Refines traffic passings (HeaderIs (packetDecode s.rest.sn.readbuf))
        (readMore timer len (packetDecode s.rest.sn.readbuf).2)
        fun _ => HeaderIs (packetDecode s.rest.sn.readbuf) := by
      refine .ite (fun hlt => ?_) fun _ => .pure fun _ h => h
      refine .silent_bind (fun _ => rfl) fun _ => ?_
      rw [← hlen]
      exact .bind (networkRead_more (by omega)) fun _ => .pure fun _ h => h
    refine .bind hmore fun n => .ite (fun _ => readFailure_passes.pre fun _ h => h.1) fun _ => ?_
    exact readComplete_passes hmax
  · subst hk
    exact ⟨hs, rfl, hlen.le.trans hbuf⟩

/-- The first byte of a packet. -/
theorem networkRead_first :
    Refines traffic passings (fun k => Settled k.trace) (networkRead 0 1)
      fun len k => Settled k.trace ∧ len ≤ 1 ∧ (¬len < 1 → 0 < k.readbuf.length) := by
  intro s _ hs
  obtain ⟨hsame, hlen⟩ | ⟨data, hpos, hdata, hlen, htraffic⟩ := networkRead_traffic 0 1 s
  · rw [hsame]
    exact ⟨.refl, hs, by omega, fun h => absurd hlen h⟩
  · rw [htraffic]
    refine ⟨.single (.read 0 data hpos ?_), hs, by omega, fun _ => ?_⟩
    · simp only [maxPacketSize]
      omega
    · simp only [overwrite, List.length_append]
      omega

/-- The two bytes of a long length field. -/
theorem networkRead_long :
    Refines traffic passings
      (fun k => Settled k.trace ∧ 0 < k.readbuf.length ∧ byteAt k.readbuf 0 = 1) (networkRead 1 2)
      fun more k => Settled k.trace ∧ byteAt k.readbuf 0 = 1 ∧
        (¬1 + more < 3 → 3 ≤ k.readbuf.length) := by
  intro s _ ⟨hs, hbuf, hlong⟩
  obtain ⟨hsame, hlen⟩ | ⟨data, hpos, hdata, hlen, htraffic⟩ := networkRead_traffic 1 2 s
  · rw [hsame]
    exact ⟨.refl, hs, hlong, fun h => absurd hlen (by omega)⟩
  · rw [htraffic]
    refine ⟨.single (.read 1 data hpos ?_), hs, ?_, fun h => ?_⟩
    · simp only [maxPacketSize]
      omega
    · exact (byteAt_overwrite Nat.one_pos hbuf _).trans hlong
    · simp only [overwrite, List.length_append, List.length_take]
      omega

theorem readPacket_passes (timer : Timer) :
    Refines traffic passings (fun k => Settled k.trace) (readPacket timer) TypeRead := by
  refine .silent_bind (fun _ => rfl) fun _ => .silent_bind (fun _ => rfl) fun _ => ?_
  refine .bind networkRead_first fun len => ?_
  refine .ite (fun _ => readFailure_passes.pre fun _ h => h.1) fun hlen => ?_
  refine .reads (g := fun s => s.rest.sn) (fun _ => rfl) fun s hs => ?_
  refine .ite (fun hlong => ?_) fun hshort => ?_
  · refine .silent_bind (fun _ => rfl) fun _ => .silent_bind (fun _ => rfl) fun _ => ?_
    refine .bind (networkRead_long.pre fun k hk => ?_) fun more => ?_
    · subst hk
      exact ⟨hs.1, hs.2.2 hlen, hlong⟩
    refine .ite (fun _ => readFailure_passes.pre fun _ h => h.1) fun hmore => ?_
    refine (readRest_passes timer 3).pre fun k hk => ⟨hk.1, ?_, hk.2.2 fun h => hmore ?_⟩
    · rw [packetDecode, if_pos hk.2.1]
    · exact (Int.add_le_add_right hs.2.1 more).trans_lt h
  · refine (readRest_passes timer 1).pre fun k hk => ?_
    subst hk
    refine ⟨hs.1, ?_, hs.2.2 hlen⟩
    have hbyte : ¬byteAt (traffic s).readbuf 0 = 1 := hshort
    rw [packetDecode, if_neg hbyte]

/-! ## Serving -/

/-- A packet of this type was received. -/
def Arrived (type : MsgType) (k : Traffic) : Prop := Received k ∧ headerOk k.readbuf type

theorem Received.settled {k : Traffic} (h : Received k) (howes : ¬Owes k.readbuf) :
    Settled k.trace := by
  obtain ⟨r, hr, -, hfront⟩ := h
  intro r' hr' howes'
  obtain rfl : r = r' := Option.some.inj (hr.symm.trans hr')
  exact howes (howes'.of_front hfront)

/-- Only a REGISTER and a PUBLISH are to be answered. -/
theorem not_owes {buf : Bytes} (hregister : packetType buf ≠ MsgType.register.code.toNat)
    (hpublish : packetType buf ≠ MsgType.publish.code.toNat) : ¬Owes buf := by
  rintro (h | h)
  · exact hregister h.2
  · exact hpublish h.1.2

/-- Sending leaves what was received in its place. -/
theorem Sending.arrived {type : MsgType} {k k' : Traffic} (h : Sending k k')
    (hk : Arrived type k) : Arrived type k' := by
  rw [Arrived, Received, h.unanswered, h.undelivered, h.readbuf]
  exact hk

/-- An answer settles what was received. -/
theorem answerPacket_passes {p : Packet} {b : Bytes} (hp : p.isAnswer = true)
    (hb : p.serialize = some b) (timer : Timer) :
    Refines traffic passings (fun k => Answers p k) (answerPacket p timer)
      fun _ k => Settled k.trace := by
  have hserialize : Refines traffic passings (fun k => Answers p k) (LibNbiot.serialize p)
      fun _ k => Settled k.trace := by
    intro s _ hs
    simp only [LibNbiot.serialize, hb]
    refine ⟨.single (.answer p b _ hs hb), fun r hr => ?_⟩
    have hnone : unanswered (⟨.app (.serialized p b), Observed.view s.loop s.rest⟩ :: s.trace) =
        none := if_pos hp
    cases hnone.symm.trans hr
  refine .bind hserialize fun len => .ite (fun _ => .pure fun _ h => h) fun _ => ?_
  exact .bind (Sending.of_settled (sendPacket_sends _ _)) fun _ => .pure fun _ h => h

theorem registerNotify_sends (topic : NbiotTopic) : Sends (registerNotify topic) := by
  refine .bind (logApp_sends rfl) fun _ => .silent_bind (fun _ => rfl) fun registry => ?_
  split
  · exact .silent fun _ => rfl
  · refine .silent_bind (fun _ => rfl) fun _ => .ite (.silent fun _ => rfl) ?_
    exact .bind (notifyState_sends _ _ _) fun _ => .pure _

theorem cycleRegister_passes (timer : Timer) :
    Refines traffic passings (Arrived .register) (cycleRegister timer)
      fun _ k => Settled k.trace := by
  refine .reads (g := fun s => s.rest.sn) (fun _ => rfl) fun s ⟨hreceived, hheader⟩ => ?_
  have hheader : headerOk s.rest.sn.readbuf .register := hheader
  obtain ⟨data, hread⟩ : ∃ data, deserializeRegister s.rest.sn.readbuf = (1, data) :=
    ⟨_, if_pos hheader⟩
  simp only [hread]
  rw [if_neg (not_not.2 rfl)]
  have hkeeps := (registerNotify_sends { NbiotTopic.ofId data.topicId with
    topicName := data.topicName }).keeps (J := fun k =>
      (∃ r, unanswered k.trace = some r ∧ r <+: k.readbuf) ∧ k.readbuf = s.rest.sn.readbuf)
    fun _ h hk => by rw [h.unanswered, h.readbuf]; exact hk
  refine .bind ((hkeeps.mono sendings_sub_passings).pre fun k hk => ?_) fun returnCode => .map ?_
  · subst hk
    obtain ⟨r, hr, -, hfront⟩ := hreceived
    exact ⟨⟨r, hr, hfront⟩, rfl⟩
  · refine (answerPacket_passes rfl rfl timer).pre fun k ⟨⟨r, hr, hfront⟩, hbuf⟩ => ?_
    exact ⟨r, hr, hfront, data.topicName, by rw [hbuf, hread]⟩

/-- The message in the buffer, as long as it was not answered. -/
def Held (buf : Bytes) (k : Traffic) : Prop :=
  k.readbuf = buf ∧ ∃ r, unanswered k.trace = some r ∧ r <+: buf

theorem deliverMessage_passes {buf : Bytes} {data : PublishData} {address : Nat}
    (hread : deserializePublish buf address = (1, data)) :
    Refines traffic passings (fun k => Received k ∧ k.readbuf = buf) (deliverMessage data)
      fun _ => Held buf := by
  have hheld {k : Traffic} (hk : Received k ∧ k.readbuf = buf) : Held buf k := by
    obtain ⟨⟨r, hr, -, hfront⟩, rfl⟩ := hk
    exact ⟨rfl, r, hr, hfront⟩
  have hcall (handler : Option (MessageHandler × Bytes)) :
      Refines traffic passings (fun k => Received k ∧ k.readbuf = buf)
        (callMessageHandler handler data) fun _ => Held buf := by
    cases handler with
    | none => exact .pure fun _ => hheld
    | some handler =>
      refine .single fun s ⟨⟨r, hr, hr', hfront⟩, hbuf⟩ => ?_
      subst hbuf
      exact ⟨.deliver _ _ data _ ⟨r, address, hr', hfront, hread⟩, rfl, r, hr, hfront⟩
  refine .silent_bind (fun _ => rfl) fun registry => .bind (hcall _) fun _ => ?_
  exact .silent fun _ => rfl

theorem deserializePublish_qos {buf : Bytes} (address : Nat) (h : headerOk buf .publish) :
    ∃ data, deserializePublish buf address = (1, data) ∧
      data.qos = byteAt buf ((packetDecode buf).1 + 1) / 32 % 4 := by
  unfold deserializePublish
  simp only [if_pos h]
  exact ⟨_, rfl, rfl⟩

/-- A PUBLISH is answered by its QoS. -/
theorem acknowledge_passes {buf : Bytes} {data : PublishData} {address : Nat}
    (hheader : headerOk buf .publish) (hread : deserializePublish buf address = (1, data))
    (hqos : data.qos = byteAt buf ((packetDecode buf).1 + 1) / 32 % 4) (retCode : Nat)
    (timer : Timer) :
    Refines traffic passings (Held buf) (acknowledge data retCode timer)
      fun _ k => Settled k.trace := by
  refine .ite (fun hone => ?_) fun hone => .ite (fun htwo => ?_) fun htwo => .pure fun k hk => ?_
  · refine (answerPacket_passes rfl rfl timer).pre fun k ⟨hbuf, r, hr, hfront⟩ => ?_
    exact ⟨r, hr, hbuf.symm ▸ hfront, address, data, hbuf.symm ▸ hread, hone, rfl, rfl⟩
  · refine (answerPacket_passes rfl rfl timer).pre fun k ⟨hbuf, r, hr, hfront⟩ => ?_
    exact ⟨r, hr, hbuf.symm ▸ hfront, address, data, hbuf.symm ▸ hread, htwo, rfl⟩
  · obtain ⟨-, r, hr, hfront⟩ := hk
    intro r' hr' howes
    obtain rfl : r = r' := Option.some.inj (hr.symm.trans hr')
    obtain hregister | ⟨-, hanswered⟩ := howes.of_front hfront
    · exact absurd (hheader.2.symm.trans hregister.2) (by decide)
    · omega

theorem cyclePublish_passes (timer : Timer) :
    Refines traffic passings (Arrived .publish) (cyclePublish timer)
      fun _ k => Settled k.trace := by
  refine .silent_bind (fun _ => rfl) fun address => ?_
  refine .reads (g := fun s => s.rest.sn) (fun _ => rfl) fun s ⟨hreceived, hheader⟩ => ?_
  have hheader : headerOk s.rest.sn.readbuf .publish := hheader
  obtain ⟨data, hread, hqos⟩ := deserializePublish_qos address.word hheader
  simp only [hread]
  rw [if_neg (not_not.2 rfl)]
  refine .bind ((deliverMessage_passes hread).pre fun k hk => ?_) fun retCode => ?_
  · subst hk
    exact ⟨hreceived, rfl⟩
  refine .ite (fun hzero => .pure fun k hk => ?_) fun _ => ?_
  · -- with QoS 0 nothing is owed
    obtain ⟨-, r, hr, hfront⟩ := hk
    intro r' hr' howes
    obtain rfl : r = r' := Option.some.inj (hr.symm.trans hr')
    obtain hregister | ⟨-, hanswered⟩ := howes.of_front hfront
    · exact absurd (hheader.2.symm.trans hregister.2) (by decide)
    · omega
  · exact .bind (acknowledge_passes hheader hread hqos retCode timer) fun _ => .pure fun _ h => h

theorem pubackNotify_sends (topic : NbiotTopic) : Sends (pubackNotify topic) := by
  refine .bind (notifyState_sends _ _ _) fun _ => .ite (.silent_bind (fun _ => rfl) fun registry => ?_)
    (.pure _)
  split
  · exact .silent fun _ => rfl
  · exact .pure _

theorem cyclePuback_sends : Sends cyclePuback := by
  refine .silent_bind (fun _ => rfl) fun _ => .ite ?_ (.pure _)
  refine .silent_bind (fun _ => rfl) fun _ => .ite (.pure _) ?_
  exact .bind (pubackNotify_sends _) fun _ => .pure _

theorem cycleDisconnect_sends : Sends cycleDisconnect := by
  have hnotify : Sends disconnectNotify := by
    refine .bind getCurrentStateId_sends fun _ => .silent_bind (fun _ => rfl) fun _ => ?_
    exact .bind (.onlyIf (notify_sends _)) fun _ => .ite disconnectEvent_sends (.pure _)
  refine .silent_bind (fun _ => rfl) fun _ => .ite (.pure _) ?_
  exact .bind (.silent_bind (fun _ => rfl) fun _ => hnotify) fun _ => .pure _

theorem cyclePingresp_sends : Sends cyclePingresp := by
  have hnotify : Sends pingRespNotify := by
    refine .bind (stateIs_sends _) fun _ => .ite ?_ (.pure _)
    exact .bind (sendEvent_sends _) fun _ => .silent fun _ => rfl
  refine .silent_bind (fun _ => rfl) fun _ => .ite ?_ ?_
  · exact .silent_bind (fun _ => rfl) fun _ => hnotify
  · exact .silent_bind (fun _ => rfl) fun _ => .ite (.silent fun _ => rfl) (.pure _)

/-! ## A whole cycle -/

/-- The packet whose type the cycle goes by is the one that was received. -/
theorem TypeRead.arrived {ty : Int} {k : Traffic} {type : MsgType} (h : TypeRead ty k)
    (hty : toUShort ty = type.code.toNat) : Arrived type k := by
  obtain ⟨rfl, -⟩ | ⟨hreceived, hlen, rfl⟩ := h
  · have hlt := type.code.toNat_lt
    rw [← hty] at hlt
    exact absurd hlt (by decide)
  · have hlt : packetType k.readbuf < 256 := (k.readbuf.getD _ 0).toNat_lt
    rw [toUShort] at hty
    exact ⟨hreceived, by omega, by omega⟩

/-- Any other packet is not to be answered. -/
theorem TypeRead.settled {ty : Int} {k : Traffic} (h : TypeRead ty k)
    (hregister : toUShort ty ≠ MsgType.register.code.toNat)
    (hpublish : toUShort ty ≠ MsgType.publish.code.toNat) : Settled k.trace := by
  obtain ⟨-, hsettled⟩ | ⟨hreceived, -, rfl⟩ := h
  · exact hsettled
  · have hlt : packetType k.readbuf < 256 := (k.readbuf.getD _ 0).toNat_lt
    rw [toUShort] at hregister hpublish
    exact hreceived.settled (not_owes (by omega) (by omega))

theorem cycleSwitch_passes (ty : Int) (timer : Timer) :
    Refines traffic passings (TypeRead ty) (cycleSwitch (toUShort ty) timer)
      fun _ k => Settled k.trace := by
  have hother {type : MsgType} (hty : toUShort ty = type.code.toNat)
      (hregister : type.code.toNat ≠ MsgType.register.code.toNat)
      (hpublish : type.code.toNat ≠ MsgType.publish.code.toNat) {k : Traffic} (hk : TypeRead ty k) :
      Settled k.trace := hk.settled (hty ▸ hregister) (hty ▸ hpublish)
  refine .ite (fun hty => ?_) fun _ => .ite (fun hty => ?_) fun hregister => .ite (fun hty => ?_)
    fun _ => .ite (fun hty => ?_) fun hpublish => .ite (fun hty => ?_) fun _ => ?_
  · refine .bind ((Sending.of_settled cyclePuback_sends).pre fun k hk => ?_) fun _ =>
      .pure fun _ h => h
    exact hother hty (by decide) (by decide) hk
  · refine .bind ((cycleRegister_passes timer).pre fun k hk => hk.arrived hty) fun rc => ?_
    cases rc <;> exact .pure fun _ h => h
  · refine .bind ((Sending.of_settled cycleDisconnect_sends).pre fun k hk => ?_) fun _ =>
      .pure fun _ h => h
    exact hother hty (by decide) (by decide) hk
  · exact (cyclePublish_passes timer).pre fun k hk => hk.arrived hty
  · refine .bind ((Sending.of_settled cyclePingresp_sends).pre fun k hk => ?_) fun _ =>
      .pure fun _ h => h
    exact hother hty (by decide) (by decide) hk
  · exact .pure fun k hk => hk.settled hregister hpublish

/-- A program that finds everything answered and leaves it so. -/
abbrev Passes {α : Type} (m : M α) : Prop :=
  Refines traffic passings (fun k => Settled k.trace) m fun _ k => Settled k.trace

theorem cycle_passes (timer : Timer) : Passes (cycle timer) := by
  refine .bind (readPacket_passes timer) fun ty => .bind (cycleSwitch_passes ty timer) fun r => ?_
  exact .bind (Sending.of_settled (.onlyIf keepalive_sends)) fun _ => .pure fun _ h => h

theorem loopWait_passes (breakValue interval : Int) : Passes (loopWait breakValue interval) := by
  refine .ite (fun _ => .pure fun _ h => h) fun _ => .silent_bind (fun _ => rfl) fun timer => ?_
  exact .bind (cycle_passes timer) fun _ => .pure fun _ h => h

end Traffic

end LibNbiot
