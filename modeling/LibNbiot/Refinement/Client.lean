/-
# The client refines the session machine

Sending, reading and the requests of the MQTT-SN client, as runs of the session
machine. Every packet is serialized and then either written at once or left in
the send buffer for a loop client.
-/

import LibNbiot.Session.Machines

namespace LibNbiot

open Logic.Program

/-! ## Reading the state -/

theorem getSn_run (s : Sys) : getSn s = (s.rest.sn, s) := rfl

theorem getStm_run (s : Sys) : getStm s = (s.rest.stm, s) := rfl

theorem getPool_run (s : Sys) : getPool s = (s.rest.pool, s) := rfl

theorem networkIsConnected_run (s : Sys) : networkIsConnected s = (s.rest.io.socket, s) := rfl

/-! ## Programs that only act -/

/-- A program all of whose steps are acts. -/
abbrev Acts {α : Type} (m : M α) : Prop := Refines core actMachine (fun _ => True) m fun _ _ => True

namespace Acts

variable {α β : Type} {m : M α} {f : α → M β}

theorem bind (hm : Acts m) (hf : ∀ a, Acts (f a)) : Acts (m >>= f) := Refines.bind hm hf

theorem ite {c : Prop} [Decidable c] {m n : M α} (hm : Acts m) (hn : Acts n) :
    Acts (if c then m else n) := Refines.ite (fun _ => hm) fun _ => hn

theorem silent (h : Silent core m) : Acts m := Refines.silent h

theorem of {P : Core → Prop} {Q : α → Core → Prop} (h : Refines core actMachine P m Q)
    (hP : ∀ k, P k) : Acts m := h.conseq (fun k _ => hP k) fun _ _ _ => trivial

/-- What every act keeps is kept. -/
theorem keeps (hm : Acts m) {J : Core → Prop} (hJ : ∀ {k k'}, Act k k' → J k → J k') :
    Refines core actMachine J m fun _ => J :=
  (Refines.frame hm fun _ => hJ).conseq (fun _ hk => ⟨trivial, hk⟩) fun _ _ hk => hk.2

end Acts

/-! ## Serializing -/

theorem overwrite_take (buf b : Bytes) : (overwrite buf 0 b).take b.length = b := by
  simp [overwrite]

/-- A packet of the given length was serialized last and is in the buffer. -/
def Prepared (k : Core) (len : Nat) : Prop :=
  ∃ p b v t, k.trace = ⟨.app (.serialized p b), v⟩ :: t ∧ b.length = len ∧ k.sendbuf.take len = b

theorem Prepared.writable {k : Core} {len : Nat} (h : Prepared k len) :
    Writable k (k.sendbuf.take ((len : Int)).toNat) := by
  obtain ⟨p, b, v, t, hlog, -, hbuf⟩ := h
  simp [Writable, hlog, hbuf]

theorem serialize_none {p : Packet} (h : p.serialize = none) (s : Sys) :
    serialize p s = (0, s) := by
  simp only [serialize, h]
  rfl

theorem serialize_some {p : Packet} {b : Bytes} (h : p.serialize = some b) (s : Sys) :
    (serialize p s).1 = b.length ∧ core (serialize p s).2 = (core s).serialize p b := by
  simp only [serialize, h]
  exact ⟨rfl, rfl⟩

theorem serialize_loop (p : Packet) (s : Sys) :
    (core (serialize p s).2).loop = (core s).loop := by
  cases hb : p.serialize with
  | none => rw [serialize_none hb]
  | some b => rw [(serialize_some hb s).2]; rfl

theorem prepared_serialize (k : Core) (p : Packet) (b : Bytes) :
    Prepared (k.serialize p b) b.length :=
  ⟨p, b, _, _, rfl, rfl, overwrite_take _ _⟩

theorem serialize_refines (p : Packet) :
    Refines core actMachine (fun k => Sendable k p) (serialize p)
      fun len k => 0 < len → Prepared k len := by
  intro s _ hp
  cases hb : p.serialize with
  | none =>
    rw [serialize_none hb]
    exact ⟨.refl, fun h => absurd h (Nat.lt_irrefl 0)⟩
  | some b =>
    obtain ⟨hlen, hcore⟩ := serialize_some hb s
    rw [hlen, hcore]
    exact ⟨.single (.serialize p b hp hb), fun _ => prepared_serialize _ p b⟩

/-! ## Writing -/

theorem networkWrite_refines (b : Bytes) :
    Refines core actMachine (fun k => Writable k b) (networkWrite b) fun _ _ => True :=
  .single fun _ hs => ⟨.write b _ hs, trivial⟩

theorem writeSendbuf_refines (length : Int) (timer : Timer) :
    Refines core actMachine (fun k => Writable k (k.sendbuf.take length.toNat))
      (writeSendbuf length timer) fun _ _ => True := by
  refine .silent_bind (remaining_silent _) fun left => .ite (fun _ => ?_) fun _ => ?_
  · exact .pure fun _ _ => trivial
  refine .ite (fun _ => ?_) fun _ => ?_
  · exact .pure fun _ _ => trivial
  refine .silent_bind (remaining_silent _) fun _ => .reads getSn_run fun s hs => ?_
  exact (networkWrite_refines _).pre fun k hk => hk ▸ hs

theorem modifySn_silent {f : MqttSnClient → MqttSnClient}
    (h : ∀ s : Sys, core { s with rest := { s.rest with sn := f s.rest.sn } } = core s) :
    Silent core (modifySn f) := h

theorem renewLastSent_silent : Silent core renewLastSent := by
  refine .bind getSn_silent fun _ => .ite ?_ (.pure _)
  exact .bind getSn_silent fun _ => .bind (startTimer_silent _) fun _ =>
    modifySn_silent fun _ => rfl

theorem renewLastReceived_silent : Silent core renewLastReceived := by
  refine .bind getSn_silent fun _ => .ite ?_ (.pure _)
  exact .bind getSn_silent fun _ => .bind (startTimer_silent _) fun _ =>
    modifySn_silent fun _ => rfl

theorem renewTimer_silent (timer : Timer) : Silent core (renewTimer timer) :=
  .bind (leftMs_silent _) fun _ => .ite (startTimer_silent _) (.pure _)

theorem sendPacket_refines (length : Int) (timer : Timer) :
    Refines core actMachine (fun k => Writable k (k.sendbuf.take length.toNat))
      (sendPacket length timer) fun r _ => r.1 = mqttSuccess ∨ r.1 = mqttFailure := by
  refine .silent_bind (renewTimer_silent _) fun timer => ?_
  have hloop : Refines core actMachine (fun k => Writable k (k.sendbuf.take length.toNat))
      (sendLoop length timer) fun _ _ => True :=
    .ite (fun _ => writeSendbuf_refines _ _) fun _ => .pure fun _ _ => trivial
  refine .bind hloop fun sent => .ite (fun _ => ?_) fun _ => .pure fun _ _ => .inr rfl
  exact .silent_bind renewLastSent_silent fun _ => .pure fun _ _ => .inl rfl

theorem sendPrepared_refines (len : Nat) (timer : Timer) :
    Refines core actMachine (fun k => Prepared k len) (sendPacket len timer)
      fun r _ => r.1 = mqttSuccess ∨ r.1 = mqttFailure :=
  (sendPacket_refines len timer).pre fun _ hk => hk.writable

/-- What was sent was written, and nothing else has happened. -/
theorem sendPacket_wrote {length : Int} (hlength : 0 < length) (timer : Timer) (k₀ : Core) :
    Refines core (.any Core) (fun k => k = k₀) (sendPacket length timer)
      fun r k => r.1 = mqttSuccess → ∃ b ok v, k.trace = ⟨.app (.wrote b ok), v⟩ :: k₀.trace := by
  refine .silent_bind (renewTimer_silent _) fun timer => ?_
  have hwrite : Refines core (.any Core) (fun k => k = k₀) (writeSendbuf length timer)
      fun sent k => sent = true → ∃ b ok v, k.trace = ⟨.app (.wrote b ok), v⟩ :: k₀.trace := by
    have failed (k : Core) (_ : k = k₀) (h : false = true) :
        ∃ b ok v, k.trace = ⟨.app (.wrote b ok), v⟩ :: k₀.trace := absurd h Bool.false_ne_true
    refine .silent_bind (remaining_silent _) fun left => .ite (fun _ => .pure failed) fun _ => ?_
    refine .ite (fun _ => .pure failed) fun _ => .silent_bind (remaining_silent _) fun _ => ?_
    refine .silent_bind getSn_silent fun sn => .single ?_
    rintro s rfl
    exact ⟨trivial, fun _ => ⟨_, _, _, rfl⟩⟩
  refine .bind (.ite (fun _ => hwrite) fun h => absurd hlength h) fun sent => ?_
  refine .ite (fun hsent => ?_) fun _ =>
    .pure fun _ _ h => absurd h (by decide : mqttFailure ≠ mqttSuccess)
  exact .silent_bind renewLastSent_silent fun _ => .pure fun _ hk _ => hk hsent

theorem keepaliveExpired_silent : Silent core keepaliveExpired := by
  refine .bind getSn_silent fun _ => .bind (remaining_silent _) fun _ => .ite (.pure _) ?_
  exact .bind getSn_silent fun _ => .bind (remaining_silent _) fun _ => .pure _

theorem keepalive_refines : Acts keepalive := by
  refine .silent_bind getSn_silent fun sn => .ite (fun _ => ?_) fun _ => .pure fun _ h => h
  refine .silent_bind keepaliveExpired_silent fun expired => .silent_bind getSn_silent fun sn => ?_
  refine .ite (fun _ => ?_) fun _ => .pure fun _ h => h
  refine .silent_bind (startTimer_silent _) fun timer => ?_
  refine .bind ((serialize_refines _).pre fun _ _ => trivial) fun len => ?_
  refine .ite (fun hlen => ?_) fun _ => .pure fun _ _ => trivial
  refine .bind ((sendPrepared_refines len timer).pre fun _ hk => hk hlen) fun sent => ?_
  exact (Refines.silent (.ite (modifySn_silent fun _ => rfl) (.pure _))).post fun _ _ _ => trivial

/-! ## Reading -/

/-- A step handler is running that has not read a packet yet. -/
def Reading (k : Core) : Prop :=
  lastReceived k.trace = none ∧ ∃ c v, running k.trace = some (c, .step, v)

/-- Writing behind a byte of a buffer leaves the byte alone. -/
theorem byteAt_overwrite {buf : Bytes} {offset i : Nat} (hi : i < offset) (hbuf : i < buf.length)
    (b : Bytes) : byteAt (overwrite buf offset b) i = byteAt buf i := by
  have htake : i < (buf.take offset).length := by
    rw [List.length_take]
    omega
  rw [byteAt, byteAt, overwrite, List.append_assoc]
  simp only [List.getD_eq_getElem?_getD, List.getElem?_append_left htake, List.getElem?_take_of_lt hi]

/-- Writing behind the length field leaves what it says alone. -/
theorem packetDecode_overwrite {buf : Bytes} {offset : Nat} (hoffset : (packetDecode buf).1 ≤ offset)
    (hbuf : (packetDecode buf).1 ≤ buf.length) (b : Bytes) :
    packetDecode (overwrite buf offset b) = packetDecode buf := by
  unfold packetDecode at hoffset hbuf ⊢
  split at hoffset
  · rename_i hlong
    rw [if_pos hlong] at hbuf
    have byte (i : Nat) (hi : i < 3) : byteAt (overwrite buf offset b) i = byteAt buf i :=
      byteAt_overwrite (by omega) (by omega) b
    rw [readInt, readInt, byte 0 (by decide), byte 1 (by decide), byte 2 (by decide)]
  · rename_i hshort
    rw [if_neg hshort] at hbuf
    rw [byteAt_overwrite (by omega) (by omega)]
    simp only [if_neg hshort]

theorem length_overwrite (buf : Bytes) (offset : Nat) (b : Bytes) :
    buf.length ≤ (overwrite buf offset b).length := by
  simp only [overwrite, List.length_append, List.length_take, List.length_drop]
  omega

/-- Reading changes nothing but the read buffer, by the bytes that were read. -/
theorem networkRead_core (offset len : Nat) (s : Sys) :
    (core (networkRead offset len s).2 = core s ∧ (networkRead offset len s).1 < 1) ∨
      ∃ b, b ≠ [] ∧ (networkRead offset len s).1 ≤ b.length ∧
        core (networkRead offset len s).2 =
          { core s with readbuf := overwrite (core s).readbuf offset b } := by
  simp only [networkRead, run_bind, run_ite, run_onlyIf]
  split_ifs with hok hdata
  · refine .inr ⟨_, by simp, ?_, rfl⟩
    simp
  · exact .inl ⟨rfl, Int.ofNat_lt.2 (Nat.lt_one_iff.2 (Nat.eq_zero_of_not_pos hdata))⟩
  · exact .inl ⟨rfl, by simp⟩

theorem networkRead_le (offset len : Nat) (s : Sys) : (networkRead offset len s).1 ≤ len := by
  simp only [networkRead, run_bind, run_ite]
  split_ifs
  · exact Int.ofNat_le.2 (List.length_take_le ..)
  · exact (by decide : (-1 : Int) ≤ 0).trans (Int.natCast_nonneg len)

/-- The length field of a packet has been read, and says this. -/
def HeaderRead (header : Nat × Nat) (k : Core) : Prop :=
  Reading k ∧ packetDecode k.readbuf = header ∧ header.1 ≤ k.readbuf.length

theorem networkRead_first :
    Refines core handlerMachine Reading (networkRead 0 1)
      fun len k => Reading k ∧ len ≤ 1 ∧ (¬ len < 1 → 0 < k.readbuf.length) := by
  intro s _ hs
  rcases networkRead_core 0 1 s with ⟨hcore, hlen⟩ | ⟨b, hb, -, hcore⟩
  · rw [hcore]
    exact ⟨.refl, hs, networkRead_le 0 1 s, fun h => absurd hlen h⟩
  · rw [hcore]
    have hpos := List.length_pos_iff.2 hb
    refine ⟨.single (.hand (.read _ hs.1)), hs, networkRead_le 0 1 s, fun _ => ?_⟩
    simp only [overwrite, List.length_append]
    omega

/-- The two bytes of a long length field. -/
theorem networkRead_long :
    Refines core handlerMachine
      (fun k => Reading k ∧ 0 < k.readbuf.length ∧ byteAt k.readbuf 0 = 1) (networkRead 1 2)
      fun more k => Reading k ∧ byteAt k.readbuf 0 = 1 ∧ (¬ 1 + more < 3 → 3 ≤ k.readbuf.length) := by
  intro s _ ⟨hs, hbuf, hlong⟩
  rcases networkRead_core 1 2 s with ⟨hcore, hlen⟩ | ⟨b, -, hlen, hcore⟩
  · rw [hcore]
    exact ⟨.refl, hs, hlong, fun h => absurd hlen (by omega)⟩
  · rw [hcore]
    refine ⟨.single (.hand (.read _ hs.1)), hs, ?_, fun h => ?_⟩
    · exact (byteAt_overwrite Nat.one_pos hbuf b).trans hlong
    · simp only [overwrite, List.length_append, List.length_take]
      omega

theorem networkRead_more {header : Nat × Nat} (len : Nat) :
    Refines core handlerMachine (HeaderRead header) (networkRead header.1 len)
      fun _ => HeaderRead header := by
  rintro s _ ⟨hs, rfl, hbuf⟩
  rcases networkRead_core (packetDecode (core s).readbuf).1 len s with ⟨hcore, -⟩ | ⟨b, -, -, hcore⟩
  · rw [hcore]
    exact ⟨.refl, hs, rfl, hbuf⟩
  · rw [hcore]
    refine ⟨.single (.hand (.read _ hs.1)), hs, packetDecode_overwrite le_rfl hbuf b, ?_⟩
    exact hbuf.trans (length_overwrite _ _ _)

/-- What is known when a packet was read, or none was. -/
def TypeRead (rc : Int) (k : Core) : Prop :=
  rc = mqttFailure ∧ lastReceived k.trace = none ∨
    (lastReceived k.trace).isSome ∧ rc = packetType k.readbuf

theorem readFailure_refines :
    Refines core handlerMachine Reading readFailure TypeRead := by
  intro s _ ⟨hfirst, c, v, hrun⟩
  exact ⟨.single (.hand (.receiveFailed c v hrun hfirst)), .inl ⟨rfl, rfl⟩⟩

theorem readMore_refines (timer : Timer) (header : Nat × Nat) :
    Refines core handlerMachine (HeaderRead header) (readMore timer header.1 header.2)
      fun _ => HeaderRead header := by
  refine .ite (fun _ => ?_) fun _ => .pure fun _ h => h
  refine .silent_bind (leftMs_silent _) fun _ => ?_
  exact .bind (networkRead_more _) fun _ => .pure fun _ h => h

theorem readComplete_refines {header : Nat × Nat} (hlen : header.2 ≤ maxPacketSize) :
    Refines core handlerMachine (HeaderRead header) (readComplete header.1 header.2) TypeRead := by
  refine .reads getSn_run fun s ⟨⟨hfirst, c, v, hrun⟩, hdecode, _⟩ => ?_
  have hlog : Refines core handlerMachine (fun k => k = core s)
      (logApp (.received (s.rest.sn.readbuf.take header.2)))
      fun _ k => (lastReceived k.trace).isSome ∧ packetDecode k.readbuf = header := by
    refine .single fun s' hs' => ?_
    rw [core_logApp, hs', ← hdecode]
    refine ⟨.hand (.receive c v hrun ?_ hfirst), rfl, rfl⟩
    rw [hdecode]
    exact hlen
  refine .bind hlog fun _ => .silent_bind renewLastReceived_silent fun _ => ?_
  refine .reads getSn_run fun s' ⟨hsome, hdecode'⟩ => .pure fun k hk => .inr ?_
  subst hk
  exact ⟨hsome, by rw [packetType, hdecode']; rfl⟩

theorem readRest_refines (timer : Timer) (len : Nat) :
    Refines core handlerMachine
      (fun k => Reading k ∧ (packetDecode k.readbuf).1 = len ∧ len ≤ k.readbuf.length)
      (readRest timer len) TypeRead := by
  refine .reads getSn_run fun s ⟨hs, hlen, hbuf⟩ => .silent_bind (remaining_silent _) fun _ => ?_
  refine .pre (S := HeaderRead (packetDecode s.rest.sn.readbuf)) ?_ fun k hk => ?_
  · refine .ite (fun _ => ?_) fun hmax => ?_
    · exact readFailure_refines.pre fun _ h => h.1
    have hmore := readMore_refines timer (packetDecode s.rest.sn.readbuf)
    have hoffset : (packetDecode s.rest.sn.readbuf).1 = len := hlen
    rw [hoffset] at hmore
    refine .bind hmore fun n => .ite (fun _ => ?_) fun _ => ?_
    · exact readFailure_refines.pre fun _ h => h.1
    · exact readComplete_refines (Nat.le_of_not_lt hmax)
  · subst hk
    exact ⟨hs, rfl, hlen.le.trans hbuf⟩

theorem readPacket_refines (timer : Timer) :
    Refines core handlerMachine Reading (readPacket timer) TypeRead := by
  refine .silent_bind (remaining_silent _) fun _ => .silent_bind (leftMs_silent _) fun _ => ?_
  refine .bind networkRead_first fun len => .ite (fun _ => ?_) fun hlen => ?_
  · exact readFailure_refines.pre fun _ h => h.1
  refine .reads getSn_run fun s hs => .ite (fun hlong => ?_) fun hshort => ?_
  · refine .silent_bind (remaining_silent _) fun _ => .silent_bind (leftMs_silent _) fun _ => ?_
    refine .bind (networkRead_long.pre fun k hk => ?_) fun more => .ite (fun _ => ?_) fun hmore => ?_
    · subst hk
      exact ⟨hs.1, hs.2.2 hlen, hlong⟩
    · exact readFailure_refines.pre fun _ h => h.1
    · refine (readRest_refines timer 3).pre fun k hk => ⟨hk.1, ?_, hk.2.2 fun h => hmore ?_⟩
      · rw [packetDecode, if_pos hk.2.1]
      · exact (Int.add_le_add_right hs.2.1 more).trans_lt h
  · refine (readRest_refines timer 1).pre fun k hk => ?_
    subst hk
    refine ⟨hs.1, ?_, hs.2.2 hlen⟩
    have hbyte : ¬byteAt (core s).readbuf 0 = 1 := hshort
    rw [packetDecode, if_neg hbyte]

/-! ## Requests -/

theorem core_registerLoopClient (c : ClientId) (s : Sys) :
    core (registerLoopClient (some c) s).2 = (core s).register c := rfl

theorem loopRequest_refines {c : ClientId} (hc : c.isRequest = true) (len : Nat) :
    Refines core actMachine (fun k => Prepared k len) (loopRequest c len)
      fun _ k => c ∈ k.loop.clientList := by
  refine .single fun s ⟨p, b, v, t, hlog, hlen, hbuf⟩ => ?_
  have hcore : core (loopRequest c len s).2 = ((core s).setValue c len).register c := by
    simp only [loopRequest, run_bind, core_registerLoopClient, setTime_silent _ _ _,
      getSn_silent _, core_setValue]
  subst hlen
  rw [hcore]
  refine ⟨.enqueue c p b v t hc hlog hbuf, ?_⟩
  simp [Core.register, Core.setValue, Core.log]

namespace Client

theorem connect_refines (duration cleansession : Nat) (clientId : Bytes) :
    Refines core actMachine (fun k => duration = toUShort k.keepAlive)
      (connect duration cleansession clientId) fun _ _ => True := by
  refine .silent_bind getSn_silent fun sn => .ite (fun _ => ?_) fun _ => ?_
  · exact .pure fun _ _ => trivial
  refine .silent_bind (modifySn_silent fun _ => rfl) fun _ => ?_
  refine .bind ((serialize_refines _).pre fun _ hk => hk) fun len => ?_
  refine .ite (fun hlen => ?_) fun _ => .pure fun _ _ => trivial
  refine .bind ((loopRequest_refines rfl len).pre fun _ hk => hk hlen) fun _ => ?_
  exact .pure fun _ _ => trivial

/-- The register request is the only one in the queue afterwards. -/
theorem registerTopic_refines (topicName : TopicId) :
    Refines core actMachine (fun k => k.loop.clientList = []) (registerTopic topicName)
      fun _ k => ∀ c ∈ k.loop.clientList, c = .reg := by
  refine .silent_bind getNext_silent fun msgid => ?_
  have hserialize (p : Packet) (hp : ∀ k, Sendable k p) :
      Refines core actMachine (fun k => k.loop.clientList = []) (serialize p)
        fun len k => (0 < len → Prepared k len) ∧ k.loop.clientList = [] :=
    ((serialize_refines p).pre fun k _ => hp k).and_post fun s hs => by
      rw [serialize_loop]
      exact hs
  have hregister (len : Nat) (hlen : 0 < len) :
      Refines core actMachine (fun k => (0 < len → Prepared k len) ∧ k.loop.clientList = [])
        (loopRegister len) fun _ k => k.loop.clientList = [.reg] := by
    refine (((loopRequest_refines (c := .reg) rfl len).pre fun _ hk => hk.1 hlen).and_post
      fun s hs => ?_).post fun _ _ hk => hk.2
    exact congrArg (· ++ [ClientId.reg]) hs.2
  refine .bind (hserialize _ fun _ => trivial) fun len => ?_
  refine .ite (fun hlen => ?_) fun _ => .pure fun k hk => by simp [hk.2]
  refine .silent_bind (modifyPool_silent fun _ => rfl) fun _ => ?_
  exact .bind (hregister len hlen) fun _ => .pure fun k hk => by simp [hk]

theorem unsubscribe_refines (topicFilter : TopicId) : Acts (unsubscribe topicFilter) := by
  refine .silent_bind getSn_silent fun sn => .ite (fun _ => ?_) fun _ => ?_
  · refine .silent_bind getNext_silent fun msgid => ?_
    refine .bind ((serialize_refines _).pre fun _ _ => trivial) fun len => ?_
    refine .ite (fun hlen => ?_) fun _ => .pure fun _ _ => trivial
    refine .silent_bind (modifyPool_silent fun _ => rfl) fun _ => ?_
    refine .bind ((loopRequest_refines rfl len).pre fun _ hk => hk hlen) fun _ => ?_
    exact .pure fun _ _ => trivial
  · exact .pure fun _ h => h

/-- The part of `publish` behind the check: the request is the client's. -/
theorem publish_core (id : Nat) (payload : Bytes) (retained : Bool) (qos : QoS) (timer : Timer)
    (s : Sys) :
    core ((do
      modifySn fun sn => { sn with payload := payload, retained := retained, qos := qos }
      loopPublish id (← remaining timer) : M Unit) s).2 = (core s).queuePublish id qos := by
  simp only [loopPublish, run_bind, core_registerLoopClient, core_logApp, getSn_silent _,
    core_setValue, setTime_silent _ _ _]
  rfl

theorem publish_refines (topicName : TopicId) (payload : Bytes) (retained : Bool) (qos : QoS) :
    Refines core outside
      (fun k => k.loop.loopClient = none ∧ ∀ c ∈ k.loop.clientList, c = .reg)
      (publish topicName payload retained qos) fun _ _ => True := by
  refine .silent_bind getSn_silent fun sn => .silent_bind (startTimer_silent _) fun timer => ?_
  refine .silent_bind getSn_silent fun sn => .ite (fun _ => ?_) fun _ => .pure fun _ _ => trivial
  have hid : Silent core (nextPublishId qos) := .ite getNext_silent (.pure _)
  refine .silent_bind hid fun id => .silent_bind (modifyPool_silent fun _ => rfl) fun _ => ?_
  refine .single fun s hs => ⟨?_, trivial⟩
  refine (publish_core id payload retained qos timer s) ▸ .call (.publish id qos hs.1 fun hpub => ?_)
  exact absurd (hs.2 .pub hpub) (by decide)

/-- The part of `subscribe` behind the check. -/
theorem subscribe_core (id : Nat) (qos : QoS) (timer : Timer) (s : Sys) :
    core ((do
      modifySn fun sn => { sn with qos := qos }
      loopSubscribe id (← remaining timer) : M Unit) s).2 = (core s).queueSubscribe id qos := by
  simp only [loopSubscribe, run_bind, core_registerLoopClient, core_logApp, core_setValue,
    setTime_silent _ _ _]
  rfl

theorem subscribe_refines (topicFilter : TopicId) (qos : QoS) :
    Refines core outside (fun k => k.loop.loopClient = none ∧ k.loop.clientList = [])
      (subscribe topicFilter qos) fun _ _ => True := by
  refine .silent_bind getSn_silent fun sn => .ite (fun _ => ?_) fun _ => .pure fun _ _ => trivial
  refine .silent_bind getNext_silent fun id => .silent_bind getSn_silent fun sn => ?_
  refine .silent_bind (startTimer_silent _) fun timer => ?_
  refine .silent_bind (modifyPool_silent fun _ => rfl) fun _ => ?_
  refine .single fun s hs => ⟨?_, trivial⟩
  refine (subscribe_core id qos timer s) ▸ .call (.subscribe id qos hs.1 ?_ ?_) <;> simp [hs.2]

theorem disconnect_refines (duration : Nat) :
    Refines core actMachine (fun k => k.duration = duration ∧ MayDisconnect k) (disconnect duration)
      fun _ k => .dis ∈ k.loop.clientList := by
  refine .silent_bind getSn_silent fun sn => .silent_bind (startTimer_silent _) fun _ => ?_
  obtain ⟨b, hb, hpos⟩ : ∃ b, (Packet.disconnect
      (if duration = 0 then none else some duration)).serialize = some b ∧ 0 < b.length := by
    split
    · exact ⟨_, rfl, by decide⟩
    · exact ⟨_, rfl, by simp only [List.length_append, List.length_cons]; omega⟩
  have hser := (serialize_refines (.disconnect (if duration = 0 then none else some duration))).pre
    (P := fun k => k.duration = duration ∧ MayDisconnect k)
    fun k hk => by rw [Sendable, hk.1]; exact ⟨rfl, hk.2⟩
  refine .bind (hser.and_post (T := fun len _ => 0 < len) fun s _ => ?_) fun len => ?_
  · rwa [(serialize_some hb s).1]
  refine .ite (fun hlen => ?_) fun hlen => ?_
  · refine .bind ((loopRequest_refines rfl len).pre fun _ hk => hk.1 hlen) fun _ => ?_
    exact .pure fun _ hk => hk
  · exact .pure fun _ hk => absurd hk.2 hlen

theorem yield_refines (timeoutMs : Nat) : Acts (yield timeoutMs) := by
  refine .single fun s _ => ⟨?_, trivial⟩
  have hcore : core (yield timeoutMs s).2 =
      ((core s).setValue .yield (toCInt timeoutMs)).register .yield := by
    simp only [yield, loopYield, run_bind, run_pure, core_registerLoopClient, core_setValue]
  rw [hcore]
  exact .yield _

theorem pmPing_refines (cID : Bytes) : Acts (pmPing cID) := by
  refine .silent_bind getSn_silent fun sn => .ite (fun _ => ?_) fun _ => ?_
  · exact .pure fun _ h => h
  refine .silent_bind (startTimer_silent _) fun timer => ?_
  refine .bind ((serialize_refines _).pre fun _ _ => trivial) fun len => ?_
  refine .ite (fun hlen => ?_) fun _ => .pure fun _ _ => trivial
  refine .bind ((sendPrepared_refines len timer).pre fun _ hk => hk hlen) fun sent => ?_
  exact .silent_bind (.onlyIf (modifySn_silent fun _ => rfl)) fun _ => .pure fun _ _ => trivial

end Client

end LibNbiot
