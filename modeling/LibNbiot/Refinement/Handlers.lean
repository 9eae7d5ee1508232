/-
# The loop clients refine the session machine

Every start, step and stop handler runs the session machine and then answers.
A start handler sends what was serialized for it or serializes it now, a step
handler waits for one packet, and a stop handler decides from the value and the
read buffer; what it changes with its answer belongs to the answer.
-/

import LibNbiot.Refinement.Cycle

namespace LibNbiot

open Logic.Program

/-! ## Calling and answering -/

/-- A handler was just called with the client's value. -/
def Called (c : ClientId) (phase : LoopPhase) (v : Int) (k : Core) : Prop :=
  (∃ w t, k.trace = ⟨.called c phase v, w⟩ :: t) ∧ k.value c = v

/-- A handler that runs the machine and then answers. -/
def Answers (c : ClientId) (phase : LoopPhase) (v : Int) (P : Core → Prop) (m : M Bool) : Prop :=
  ∀ s, (core s).Steady → P (core s) →
    ∃ k, handlerMachine.Run (core s) k ∧ Answer k c phase v (m s).1 (core (m s).2)

namespace Answers

variable {c : ClientId} {phase : LoopPhase} {v : Int} {P : Core → Prop} {α : Type}

theorem of_refines {m : M Bool}
    (h : Refines core handlerMachine P m fun a k => Answer k c phase v a k) :
    Answers c phase v P m := by
  intro s hinv hs
  obtain ⟨hrun, hanswer⟩ := h s hinv hs
  exact ⟨_, hrun, hanswer⟩

theorem bind {m : M α} {f : α → M Bool} {R : α → Core → Prop}
    (hm : Refines core handlerMachine P m R) (hf : ∀ a, Answers c phase v (R a) (f a)) :
    Answers c phase v P (m >>= f) := by
  intro s hinv hs
  obtain ⟨hrun, hR⟩ := hm s hinv hs
  obtain ⟨k, hrun', hanswer⟩ := hf (m s).1 (m s).2 (hrun.inv hinv) hR
  exact ⟨k, hrun.trans hrun', hanswer⟩

theorem ite {b : Prop} [Decidable b] {m n : M Bool} (hm : b → Answers c phase v P m)
    (hn : ¬b → Answers c phase v P n) : Answers c phase v P (if b then m else n) := by
  split
  · exact hm ‹_›
  · exact hn ‹_›

theorem reads {m : M α} {g : Sys → α} {f : α → M Bool} (hm : ∀ s, m s = (g s, s))
    (hf : ∀ s, P (core s) → Answers c phase v (fun k => k = core s) (f (g s))) :
    Answers c phase v P (m >>= f) := by
  intro s hinv hs
  rw [run_bind, hm s]
  exact hf s hs s hinv rfl

/-- A handler that does nothing but answer. -/
theorem done {m : M Bool} (h : ∀ s, P (core s) → Answer (core s) c phase v (m s).1 (core (m s).2)) :
    Answers c phase v P m :=
  fun s _ hs => ⟨core s, .refl, h s hs⟩

end Answers

theorem core_getValue (c : ClientId) (s : Sys) : getValue c s = ((core s).value c, s) := rfl

/-! ## Requests -/

/-- The start handler of a request sends as many bytes as the value says. -/
theorem sendRequest_refines {c : ClientId} (hc : c.isRequest = true) (v : Int) (timer : Timer) :
    Refines core actMachine (Called c .start v) (sendPacket v timer)
      fun _ _ => True := by
  refine (sendPacket_refines v timer).conseq ?_ fun _ _ _ => trivial
  rintro k ⟨⟨w, t, hlog⟩, -⟩
  simp [Writable, hlog, hc]

theorem startRequest_refines {c : ClientId} (hc : c.isRequest = true) (v : Int) :
    Refines core actMachine (Called c .start v) (startRequest c) fun _ _ => True := by
  refine .reads (core_getValue c) fun s hs => .silent_bind get_silent fun _ => ?_
  refine .silent_bind (startTimer_silent _) fun timer => ?_
  refine .bind ((sendRequest_refines hc _ timer).pre ?_) fun r => ?_
  · rintro k rfl
    exact hs.2.symm ▸ hs
  · refine .ite (fun _ => .silent (.bind (remaining_silent _) fun _ => ?_)) fun _ =>
      .pure fun _ h => h
    exact .bind (startClientTimer_silent _ _) fun _ => .pure _

theorem startConLoop_refines (v : Int) :
    Refines core actMachine (Called .con .start v) startConLoop fun _ _ => True := by
  refine .reads (core_getValue .con) fun s hs => .silent_bind get_silent fun _ => ?_
  refine .silent_bind (startTimer_silent _) fun timer => ?_
  refine .bind ((sendRequest_refines (c := .con) rfl _ timer).pre ?_) fun r => ?_
  · rintro k rfl
    exact hs.2.symm ▸ hs
  · refine .ite (fun _ => .silent (.bind renewLastReceived_silent fun _ => ?_)) fun _ =>
      .pure fun _ h => h
    exact .bind (remaining_silent _) fun _ => .bind (startClientTimer_silent _ _) fun _ => .pure _

/-! ## Waiting -/

/-- A step handler is running that has not read a packet yet. -/
def Stepping (c : ClientId) (v : Int) (k : Core) : Prop :=
  running k.trace = some (c, .step, v) ∧ lastReceived k.trace = none

theorem Stepping.reading {c : ClientId} {v : Int} {k : Core} (h : Stepping c v k) : Reading k :=
  ⟨h.2, c, v, h.1⟩

theorem Called.stepping {c : ClientId} {v : Int} {k : Core} (h : Called c .step v k) :
    Stepping c v k := by
  obtain ⟨⟨w, t, hlog⟩, -⟩ := h
  rw [Stepping, hlog]
  exact ⟨rfl, rfl⟩

theorem setValue_refines (c : ClientId) (v v' : Int) {P : Core → Prop}
    (hP : ∀ k, P k → running k.trace = some (c, .step, v)) :
    Refines core handlerMachine P (setValue c v')
      fun _ k => ∃ k₀, P k₀ ∧ k = k₀.setValue c v' := by
  refine .single fun s hs => ?_
  rw [core_setValue]
  exact ⟨.hand (.store c .step v v' (hP _ hs)), _, hs, rfl⟩

/-- The stored time is nothing only if the wait is over. -/
theorem waitInterval_eq_zero {loopTime : Int} (h : waitInterval loopTime = 0) : loopTime = 0 := by
  unfold waitInterval at h
  split at h
  · exact absurd h (by decide)
  · exact h

theorem storeAndWait_refines (c : ClientId) (type : MsgType) (v : Int) :
    Refines core handlerMachine (Stepping c v) (storeAndWait c type)
      fun goOn k => k.Heeded ∧ (goOn = false → k.value c = 0 ∨ HasRead type k) := by
  refine .silent_bind (clientRemaining_silent c) fun left => ?_
  refine .bind (setValue_refines c v (toCInt left) fun k hk => hk.1) fun _ => ?_
  refine (loopWait_refines _ _ (J := fun k => k.value c = toCInt left)).conseq ?_ ?_
  · rintro _ ⟨k, hk, rfl⟩
    exact ⟨hk.reading, Function.update_self ..⟩
  · intro goOn k hk
    refine ⟨hk.1, fun hgo => ?_⟩
    exact (hk.2 hgo).imp (fun h => h.2.trans (waitInterval_eq_zero h.1)) fun h => h type rfl

/-- A step handler that waits for its acknowledgement. -/
theorem storeAndWait_answers {c : ClientId} {type : MsgType} (hc : c.awaited = some type) (v : Int) :
    Answers c .step v (Stepping c v) (storeAndWait c type) := by
  refine .of_refines ((storeAndWait_refines c type v).post fun goOn k hk => ?_)
  cases goOn with
  | true => exact .goOn c v hk.1
  | false =>
    refine .done c v ?_ hk.1
    simp only [StepDone, hc]
    exact (hk.2 rfl).imp id .inr

/-! ## Transmissions -/

/-- A packet of the client may be serialized for sending now. -/
def MayTransmit (c : ClientId) (dup id : Nat) (k : Core) : Prop :=
  ∀ p b, TransmissionOf dup id c p → p.serialize = some b → Hand k (k.prepare c p b id)

/-- A client that serializes its packets when it sends them. -/
def Serializes (c : ClientId) (serializeFor : Int → Nat → M Nat) : Prop :=
  ∀ packetId dup k₀, Refines core handlerMachine
    (fun k => k = k₀ ∧ MayTransmit c dup (toUShort packetId) k₀) (serializeFor packetId dup)
    fun len k => (0 < len → Prepared k len ∧ IsTransmitting dup c k.trace) ∧ Unread k₀ k

theorem prepared_prepare (k : Core) (c : ClientId) (p : Packet) (b : Bytes) (id : Nat) :
    Prepared (k.prepare c p b id) b.length :=
  ⟨p, b, _, _, rfl, rfl, overwrite_take _ _⟩

theorem isTransmitting_prepare (k : Core) {dup id : Nat} {c : ClientId} {p : Packet}
    (hp : TransmissionOf dup id c p) (b : Bytes) :
    IsTransmitting dup c (k.prepare c p b id).trace :=
  ⟨p, b, _, _, id, rfl, hp⟩

theorem unread_prepare (k : Core) (c : ClientId) (p : Packet) (b : Bytes) (id : Nat) :
    Unread k (k.prepare c p b id) :=
  ⟨⟨rfl, rfl, rfl, rfl, rfl⟩, rfl, rfl⟩

theorem serializeSub_serializes : Serializes .sub serializeSub := by
  intro packetId dup k₀
  refine .reads getSn_run fun s hs => .reads getPool_run fun s' hs' => ?_
  generalize hp : Packet.subscribe dup s.rest.sn.qos.toNat (toUShort packetId) s'.rest.pool.topicid = p
  rintro s₁ hinv hk
  obtain ⟨rfl, hs⟩ : core s₁ = k₀ ∧ MayTransmit .sub dup (toUShort packetId) k₀ :=
    ⟨(hk.trans hs').trans hs.1, hs.2⟩
  cases hb : p.serialize with
  | none =>
    rw [serialize_none hb]
    exact ⟨.refl, fun h => absurd h (Nat.lt_irrefl 0), .refl _⟩
  | some b =>
    obtain ⟨hlen, hcore⟩ := serialize_some hb s₁
    have hprepare : (core s₁).serialize p b = (core s₁).prepare .sub p b (toUShort packetId) := rfl
    rw [hlen, hcore, hprepare]
    have hof : TransmissionOf dup (toUShort packetId) .sub p := hp ▸ ⟨rfl, rfl⟩
    exact ⟨.single (.hand (hs p b hof hb)),
      fun _ => ⟨prepared_prepare _ _ _ _ _, isTransmitting_prepare _ hof b⟩,
      unread_prepare _ _ _ _ _⟩

theorem serializePub_serializes : Serializes .pub serializePub := by
  intro packetId dup k₀
  refine .reads getSn_run fun s hs => .reads getPool_run fun s' hs' => ?_
  generalize hp : Packet.publish dup s.rest.sn.qos.toNat s.rest.sn.retained (toUShort packetId)
    s'.rest.pool.topicid s.rest.sn.payload = p
  rintro s₁ hinv hk
  obtain ⟨rfl, hs⟩ : core s₁ = k₀ ∧ MayTransmit .pub dup (toUShort packetId) k₀ :=
    ⟨(hk.trans hs').trans hs.1, hs.2⟩
  simp only [run_bind, run_pure, run_onlyIf]
  cases hb : p.serialize with
  | none =>
    rw [serialize_none hb]
    exact ⟨.refl, fun h => absurd h (Nat.lt_irrefl 0), .refl _⟩
  | some b =>
    obtain ⟨hlen, hcore⟩ := serialize_some hb s₁
    have hprepare : ∀ f : MqttSnClient → MqttSnClient,
        (∀ t : Sys, core (modifySn f t).2 = { core t with inflightMsgid := toUShort packetId }) →
        core (modifySn f (serialize p s₁).2).2 =
          (core s₁).prepare .pub p b (toUShort packetId) := fun f hf => by
      rw [hf, hcore]
      rfl
    rw [hlen, if_pos (Packet.serialize_pos hb), hprepare _ fun _ => rfl]
    have hof : TransmissionOf dup (toUShort packetId) .pub p := hp ▸ ⟨rfl, rfl⟩
    exact ⟨.single (.hand (hs p b hof hb)),
      fun _ => ⟨prepared_prepare _ _ _ _ _, isTransmitting_prepare _ hof b⟩,
      unread_prepare _ _ _ _ _⟩

theorem sendSerialized_refines (len timeout : Nat) (dup : Nat) (c : ClientId) :
    Refines core actMachine (fun k => 0 < len → Prepared k len ∧ IsTransmitting dup c k.trace)
      (sendSerialized len timeout) fun sent k => sent = true → HasTransmitted dup c k := by
  refine .ite (fun hlen => ?_) fun _ => .pure fun _ _ h => absurd h Bool.false_ne_true
  refine .silent_bind (startTimer_silent _) fun timer => ?_
  have hlength : 0 < (len : Int) := Int.natCast_pos.2 hlen
  refine .bind (((sendPrepared_refines len timer).pre fun _ hk => (hk hlen).1).and_post
    (T := fun r k => r.1 = mqttSuccess → HasTransmitted dup c k) fun s hs hsent => ?_) fun r =>
    .pure fun k hk hsent => hk.2 (of_decide_eq_true hsent)
  obtain ⟨b, ok, v, hlog⟩ := (sendPacket_wrote hlength timer (core s) s trivial rfl).2 hsent
  exact ⟨b, ok, v, _, hlog, (hs hlen).2⟩

/-- Serializing and sending reads nothing. -/
theorem send_refines {c : ClientId} {serializeFor : Int → Nat → M Nat}
    (h : Serializes c serializeFor) (packetId : Int) (dup timeout : Nat) (k₀ : Core) :
    Refines core handlerMachine (fun k => k = k₀ ∧ MayTransmit c dup (toUShort packetId) k₀)
      (do sendSerialized (← serializeFor packetId dup) timeout)
      fun sent k => (sent = true → HasTransmitted dup c k) ∧ Unread k₀ k := by
  refine .bind (h packetId dup k₀) fun len => ?_
  exact ((sendSerialized_refines len timeout dup c).frame (J := Unread k₀)
    fun _ hact hk => hk.trans hact.unread).mono acts_sub_handlers

theorem Called.mayTransmit {c : ClientId} {v : Int} {k : Core} (h : Called c .start v k) :
    MayTransmit c 0 (toUShort v) k := by
  obtain ⟨⟨w, t, hlog⟩, -⟩ := h
  exact fun p b hp hb => .transmit c v p b w t hlog hp hb

/-- The start handler transmits for the first time, under the id in the value. -/
theorem startWith_refines {c : ClientId} {serializeFor : Int → Nat → M Nat}
    (h : Serializes c serializeFor) (v : Int) :
    Refines core handlerMachine (Called c .start v)
      (startWith c fun packetId dup timeout => do
        sendSerialized (← serializeFor packetId dup) timeout)
      fun a k => a = true → HasTransmitted 0 c k := by
  refine .silent_bind get_silent fun _ => .silent_bind (startTimer_silent _) fun timer => ?_
  refine .reads (core_getValue c) fun s hs => .silent_bind (remaining_silent _) fun left => ?_
  refine .bind ((send_refines h _ 0 left (core s)).pre ?_) fun sent => ?_
  · rintro k rfl
    exact ⟨rfl, hs.2.symm ▸ hs.mayTransmit⟩
  · refine .ite (fun hsent => .silent_bind (remaining_silent _) fun _ => ?_) fun _ =>
      .pure fun _ _ h => absurd h Bool.false_ne_true
    exact .silent_bind (startClientTimer_silent _ _) fun _ => .pure fun _ hk _ => hk.1 hsent

/-- A retry was just counted. -/
def Retrying (c : ClientId) (v : Int) (k : Core) : Prop :=
  (∃ w t, k.trace = ⟨.app (.retried c), w⟩ :: t) ∧ Stepping c v k ∧ k.value c = v

theorem Retrying.mayTransmit {c : ClientId} {v : Int} {k : Core} (h : Retrying c v k) :
    MayTransmit c 1 (toUShort v) k := by
  obtain ⟨⟨w, t, hlog⟩, hstep, -⟩ := h
  exact fun p b hp hb => .retransmit c v p b w t hstep.1 hlog hp hb

theorem Stepping.of_unread {c : ClientId} {v : Int} {k k' : Core} (h : Stepping c v k)
    (hk : Unread k k') : Stepping c v k' := by
  rw [Stepping, hk.running, hk.received]
  exact h

theorem retransmit_refines {c : ClientId} {serializeFor : Int → Nat → M Nat}
    (h : Serializes c serializeFor) (v : Int) (timeout : Nat) :
    Refines core handlerMachine (Retrying c v)
      (retransmit c (fun packetId dup timeout => do
        sendSerialized (← serializeFor packetId dup) timeout) timeout)
      fun _ => Stepping c v := by
  refine .reads (core_getValue c) fun s hs => .silent_bind (startTimer_silent _) fun timer => ?_
  refine .silent_bind (remaining_silent _) fun left => ?_
  refine .bind ((send_refines h _ 1 left (core s)).pre ?_) fun sent => ?_
  · rintro k rfl
    exact ⟨rfl, hs.2.2.symm ▸ hs.mayTransmit⟩
  · have hstep (k : Core) (hk : (sent = true → HasTransmitted 1 c k) ∧ Unread (core s) k) :
        Stepping c v k := hs.2.1.of_unread hk.2
    refine .ite (fun _ => .silent_bind (remaining_silent _) fun _ => ?_) fun _ => .pure hstep
    exact (Refines.silent (startClientTimer_silent _ _)).conseq hstep fun _ _ hk => hk

/-- Counting a retry: the counter was not used up. -/
theorem countRetry_refines {c : ClientId} (hc : c = .pub ∨ c = .sub) (v : Int) {count : M Unit}
    (hcount : ∀ s, core (count s).2 = ((core s).retry c).emit (.retried c)) :
    Refines core handlerMachine (fun k => Called c .step v k ∧ 0 < k.retryCount c) count
      fun _ => Retrying c v := by
  refine .single fun s ⟨hs, hleft⟩ => ?_
  have hstep := hs.stepping
  have hvalue := hs.2
  obtain ⟨⟨w, t, hlog⟩, -⟩ := hs
  rw [hcount]
  exact ⟨.hand (.countRetry c v w t hc hlog hleft), ⟨_, _, rfl⟩,
    by rcases hc with rfl | rfl <;> exact hstep, by rcases hc with rfl | rfl <;> exact hvalue⟩

theorem retrySub_refines (v : Int) :
    Refines core handlerMachine (Called .sub .step v) retrySub fun _ => Stepping .sub v := by
  refine .silent_bind (clientRemaining_silent _) fun left => .reads getSn_run fun s hs => ?_
  refine .ite (fun hleft => ?_) fun _ => .pure ?_
  · refine .bind ((countRetry_refines (.inr rfl) v fun _ => rfl).pre ?_) fun _ => ?_
    · rintro k rfl
      exact ⟨hs, hleft.2⟩
    · exact .silent_bind getSn_silent fun sn =>
        retransmit_refines serializeSub_serializes v _
  · rintro k rfl
    exact hs.stepping

theorem retryPub_refines (v : Int) :
    Refines core handlerMachine (Called .pub .step v) retryPub fun _ => Stepping .pub v := by
  refine .silent_bind (clientRemaining_silent _) fun left => .reads getSn_run fun s hs => ?_
  refine .ite (fun hleft => ?_) fun _ => .pure ?_
  · refine .bind ((countRetry_refines (.inl rfl) v fun _ => rfl).pre ?_) fun _ => ?_
    · rintro k rfl
      exact ⟨hs, hleft.2⟩
    · exact .silent_bind getSn_silent fun sn =>
        retransmit_refines serializePub_serializes v _
  · rintro k rfl
    exact hs.stepping

theorem doSubLoop_answers (v : Int) : Answers .sub .step v (Called .sub .step v) doSubLoop :=
  .bind (retrySub_refines v) fun _ => storeAndWait_answers rfl v

theorem doPubLoop_answers (v : Int) : Answers .pub .step v (Called .pub .step v) doPubLoop := by
  refine .reads getSn_run fun s hs => .ite (fun hqos => .done ?_) fun _ => ?_
  · intro s' hs'
    refine .done .pub v (.inr (.inl ⟨rfl, ?_⟩)) ?_
    · exact (congrArg Core.qos hs').trans hqos
    · rw [hs']
      exact hs.stepping.reading.heeded
  · refine .bind ((retryPub_refines v).pre ?_) fun _ => storeAndWait_answers rfl v
    rintro k rfl
    exact hs

/-! ## The ends of the loops -/

theorem restorePubbuf_refines (b : Bytes) :
    Refines core handlerMachine (fun k => k.readbuf = b) restorePubbuf
      fun _ k => (∃ buf w t, k.trace = ⟨.app (.restored buf), w⟩ :: t) ∧ k.readbuf = b :=
  .single fun _ hb => ⟨.hand (.restore _), ⟨_, _, _, rfl⟩, hb⟩

/-- The packet that was read stays in its buffer. -/
theorem republishInflight_refines (b : Bytes) :
    Refines core handlerMachine (fun k => k.readbuf = b) republishInflight
      fun _ k => k.readbuf = b := by
  refine .silent_bind getSn_silent fun sn => .silent_bind getSn_silent fun sn' => ?_
  refine .ite (fun _ => ?_) fun _ => .pure fun _ h => h
  refine .bind (restorePubbuf_refines b) fun _ => .silent_bind (fun _ => rfl) fun value => ?_
  refine .silent_bind (startTimer_silent _) fun timer => .silent_bind getSn_silent fun sn => ?_
  have hrepublish : Refines core actMachine
      (fun k => ∃ buf w t, k.trace = ⟨.app (.restored buf), w⟩ :: t)
      (Client.republish sn.inflightLen timer sn.inflightQoS) fun _ _ => True := by
    refine .ite (fun _ => .bind ((sendPacket_refines _ _).pre ?_) fun r => ?_) fun _ => ?_
    · rintro k ⟨buf, w, t, hlog⟩
      simp [Writable, hlog]
    · exact .pure fun _ _ => trivial
    · exact .pure fun _ _ => trivial
  have hkeeps := hrepublish.frame (J := fun k => k.readbuf = b)
    fun _ h hk => h.unread.readbuf.trans hk
  exact .bind (hkeeps.mono acts_sub_handlers) fun rc => .pure fun _ hk => hk.2

/-- What `finishConLoop` makes of its value and of the packet that was read. -/
def AcceptedIn (v : Int) (b : Bytes) (ret : Bool) : Prop :=
  ret = true → v ≠ 0 ∧ deserializeConnack b 255 = (1, 0)

theorem connackAccepted_refines (v : Int) (b : Bytes) (hv : v ≠ 0) :
    Refines core handlerMachine (fun k => k.readbuf = b) connackAccepted
      fun ret k => AcceptedIn v b ret ∧ k.readbuf = b := by
  refine .reads getSn_run fun s hs => .pure fun k hk => ⟨fun hret => ⟨hv, ?_⟩, hk ▸ hs⟩
  obtain ⟨hrc, hconnackRc⟩ := of_decide_eq_true hret
  rw [← hs]
  exact Prod.ext hrc hconnackRc

theorem finishConLoop_answers (v : Int) :
    Answers .con .stop v (Called .con .stop v) finishConLoop := by
  refine .reads (core_getValue .con) fun s hs => ?_
  have haccepted : Refines core handlerMachine (fun k => k = core s)
      (if (core s).value .con = 0 then pure false else connackAccepted)
      fun ret k => AcceptedIn v (core s).readbuf ret ∧ k.readbuf = (core s).readbuf := by
    refine .ite (fun _ => .pure fun k hk => ⟨nofun, by rw [hk]⟩) fun hvalue => ?_
    exact (connackAccepted_refines v _ (hs.2 ▸ hvalue)).pre fun k hk => by rw [hk]
  refine .bind haccepted fun ret => ?_
  have hrepublish := (republishInflight_refines (core s).readbuf).frame
    (J := fun _ => AcceptedIn v (core s).readbuf ret) fun _ _ h => h
  refine .bind (hrepublish.pre fun _ hk => ⟨hk.2, hk.1⟩) fun sent => ?_
  refine .ite (fun hret => .done fun s' hs' => ?_) fun _ => .done fun s' _ => .notConnected v
  obtain ⟨hv, hconnack⟩ := hs'.2 hret.1
  rw [← hs'.1] at hconnack
  exact .connected v hv hconnack

theorem finishRegLoop_answers (v : Int) :
    Answers .reg .stop v (Called .reg .stop v) finishRegLoop := by
  refine .reads (core_getValue .reg) fun s hs => .ite (fun _ => .done ?_) fun hv => ?_
  · exact fun s _ => .registered v false nofun
  refine .reads getSn_run fun s' hs' => .ite (fun hrc => .done fun s'' hs'' => ?_) fun _ =>
    .done fun _ _ => .registered v false nofun
  refine .registered v true fun _ => ⟨hs.2 ▸ hv, ?_⟩
  rw [hs'']
  exact hrc.2

theorem finishUnsubLoop_answers (v : Int) :
    Answers .unsub .stop v (Called .unsub .stop v) finishUnsubLoop := by
  refine .reads (core_getValue .unsub) fun s hs => .ite (fun _ => .done ?_) fun hv => ?_
  · exact fun s _ => .unsubscribed v false nofun
  · exact .reads getSn_run fun s' _ => .done fun s'' _ =>
      .unsubscribed v _ fun _ => hs.2 ▸ hv

theorem finishSubLoop_answers (v : Int) :
    Answers .sub .stop v (Called .sub .stop v) finishSubLoop := by
  refine .reads (core_getValue .sub) fun s hs => .ite (fun _ => .done ?_) fun hv => ?_
  · exact fun s _ => .subscribed v false nofun
  refine .reads getSn_run fun s' hs' => .ite (fun hrc => .done fun s'' hs'' => ?_) fun _ =>
    .done fun _ _ => .subscribed v false nofun
  refine .subscribed v _ fun hok => ⟨hs.2 ▸ hv, ?_⟩
  rw [hs'']
  exact of_decide_eq_true hok

theorem finishDisLoop_answers (v : Int) : Answers .dis .stop v (fun _ => True) finishDisLoop :=
  .done fun _ _ => .disconnected v

/-- The end of a publish that was answered in time. -/
theorem consumePuback_end {v : Int} (hv : v ≠ 0) (k₀ : Core) :
    Refines core (.any Core) (fun k => k = k₀)
      (do
        let (rc, ack) := deserializePuback (← getSn).readbuf
        setValue .pub mqttSuccess
        if rc ≠ 1 then
          return false
        else if (← getSn).inflightMsgid = ack.msgId then
          finishInflight ack.returnCode
        else
          return true) fun a k => PublishEnd v k₀ a k := by
  refine .reads getSn_run ?_
  rintro s rfl
  refine .bind (R := fun _ k => k = (core s).setValue .pub 0) (.single ?_) fun _ => ?_
  · rintro s' hs'
    exact ⟨trivial, by rw [core_setValue, hs']; rfl⟩
  refine .ite (fun hrc => .pure ?_) fun hrc => .reads getSn_run fun s' hs' => ?_
  · rintro _ rfl
    exact .malformed hv hrc
  have hrc : (deserializePuback (core s).readbuf).1 = 1 := not_not.1 hrc
  have hinflight : s'.rest.sn.inflightMsgid = (core s).inflightMsgid :=
    congrArg Core.inflightMsgid hs'
  refine .ite (fun hid => ?_) fun hid => .pure ?_
  · have hid := hid.symm.trans hinflight
    refine .bind (R := fun _ k => k = { (core s).setValue .pub 0 with inflightMsgid := 0 })
      (.single ?_) fun _ => .ite (fun hret => ?_) fun hret => .pure ?_
    · intro s'' hs''
      have hcore : core s'' = (core s).setValue .pub 0 := hs''.trans hs'
      exact ⟨trivial, congrArg (fun k => { k with inflightMsgid := 0 }) hcore⟩
    · refine .bind (R := fun _ k => k = { (core s).setValue .pub
        (deserializePuback (core s).readbuf).2.returnCode with inflightMsgid := 0 })
        (.single ?_) fun _ => .pure ?_
      · intro s'' hs''
        refine ⟨trivial, ?_⟩
        rw [core_setValue, hs'']
        simp [Core.setValue]
        rfl
      · rintro _ rfl
        exact .rejected hv hrc hid hret
    · rintro _ rfl
      exact .accepted hv hrc hid (not_not.1 hret)
  · rintro _ hk
    rw [hk, hs']
    exact .foreign hv hrc fun h => hid (hinflight.trans h.symm)

theorem finishPubLoop_answers (v : Int) :
    Answers .pub .stop v (Called .pub .stop v) finishPubLoop := by
  refine .reads getSn_run fun s hs => .ite (fun hqos => .done ?_) fun _ => ?_
  · exact fun s' hs' => .published v true _ (.qos0 ((congrArg Core.qos hs').trans hqos))
  refine .reads (core_getValue .pub) fun s₁ hs₁ => .ite (fun hv => .done ?_) fun hv => ?_
  · exact fun s' hs' => .published v false _ (.timeout (hs.2 ▸ hs₁ ▸ hv))
  · have hv : v ≠ 0 := hs.2 ▸ hs₁ ▸ hv
    exact .done fun s' _ => .published v _ _ (consumePuback_end hv (core s') s' trivial rfl).2

/-! ## Yielding and attaching -/

theorem startYieldLoop_silent : Silent core startYieldLoop :=
  .bind (fun _ => rfl) fun _ => .bind (startClientTimer_silent _ _) fun _ =>
    .bind (modifySn_silent fun _ => rfl) fun _ => .pure _

theorem doYieldLoop_refines (v : Int) :
    Refines core handlerMachine (Stepping .yield v) doYieldLoop fun _ k => k.Heeded := by
  refine .silent_bind (clientRemaining_silent _) fun left => ?_
  refine .bind (setValue_refines .yield v _ fun k hk => hk.1) fun _ => ?_
  refine .silent_bind getSn_silent fun sn => .ite (fun _ => ?_) fun _ => .pure ?_
  · refine (loopWait_refines _ _ (J := fun _ => True)).conseq ?_ fun _ _ hk => hk.1
    rintro _ ⟨k, hk, rfl⟩
    exact ⟨hk.reading, trivial⟩
  · rintro _ ⟨k, hk, rfl⟩
    exact hk.reading.heeded

theorem finishYieldLoop_silent : Silent core finishYieldLoop :=
  .bind (fun _ => rfl) fun _ => .bind (modifySn_silent fun _ => rfl) fun _ => .pure _

theorem startAttachLoop_silent : Silent core startAttachLoop := by
  refine .bind get_silent fun _ => .bind (startTimer_silent _) fun _ => .bind (ask_silent _) fun _ => ?_
  refine .ite (.bind (remaining_silent _) fun _ => .bind (startClientTimer_silent _ _) fun _ => ?_)
    (.pure _)
  exact .bind (modifyPool_silent fun _ => rfl) fun _ => .pure _

theorem doAttachLoop_refines (v : Int) :
    Refines core handlerMachine (Stepping .attach v) doAttachLoop fun _ k => k.Heeded := by
  have hheeded (k : Core) (h : ∃ k₀, Stepping .attach v k₀ ∧ ∃ left, k = k₀.setValue .attach left) :
      k.Heeded := by
    obtain ⟨k₀, hk, left, rfl⟩ := h
    exact hk.reading.heeded
  refine .silent_bind (clientRemaining_silent _) fun left => ?_
  refine .bind ((setValue_refines .attach v _ fun k hk => hk.1).post fun _ k ⟨k₀, hk, heq⟩ =>
    hheeded k ⟨k₀, hk, _, heq⟩) fun _ => ?_
  refine .ite (fun _ => .pure fun _ h => h) fun _ => ?_
  refine .silent_bind (startTimer_silent _) fun timer => ?_
  refine .silent_bind (pollAttached_silent _ _) fun attached => .ite (fun _ => ?_) fun _ => ?_
  · exact .silent_bind (modifyPool_silent fun _ => rfl) fun _ => .pure fun _ h => h
  · exact .pure fun _ h => h

theorem finishAttachLoop_refines : Acts finishAttachLoop := by
  refine .silent_bind (fun _ => rfl) fun left => .ite (fun _ => .pure fun _ h => h) fun _ => ?_
  refine .silent_bind modemIsAttached_silent fun attached => .ite (fun _ => ?_) fun _ => ?_
  · exact Acts.bind (postEvent_refines rfl) fun _ => .pure fun _ h => h
  · exact .silent (.bind (modifyPool_silent fun _ => rfl) fun _ => .pure _)

/-! ## All handlers -/

/-- A start handler that sends its own packet, or none. -/
theorem start_answers {c : ClientId} (hpub : c ≠ .pub) (hsub : c ≠ .sub) {v : Int}
    {P : Core → Prop} {m : M Bool} (h : Refines core handlerMachine P m fun _ _ => True) :
    Answers c .start v P m :=
  .of_refines (h.post fun a _ _ => .start c v a fun _ hc => (hc.elim hpub hsub).elim)

theorem startWith_answers {c : ClientId} {serializeFor : Int → Nat → M Nat}
    (h : Serializes c serializeFor) (v : Int) :
    Answers c .start v (Called c .start v)
      (startWith c fun packetId dup timeout => do
        sendSerialized (← serializeFor packetId dup) timeout) :=
  .of_refines ((startWith_refines h v).post fun a _ hk => .start c v a fun ha _ => hk ha)

theorem waiting_answers {c : ClientId} {type : MsgType} (hc : c.awaited = some type) (v : Int) :
    Answers c .step v (Called c .step v) (storeAndWait c type) := by
  intro s hinv hs
  exact storeAndWait_answers hc v s hinv hs.stepping

theorem step_answers {c : ClientId} (hc : c.awaited = none) {v : Int} {m : M Bool}
    (h : Refines core handlerMachine (Stepping c v) m fun _ k => k.Heeded) :
    Answers c .step v (Called c .step v) m := by
  refine .of_refines (h.conseq (fun k hk => hk.stepping) fun a k hk => ?_)
  cases a with
  | true => exact .goOn c v hk
  | false => exact .done c v (by simp [StepDone, hc]) hk

/-- Every handler runs the machine and then answers. -/
theorem handler_answers (c : ClientId) (phase : LoopPhase) (v : Int) :
    Answers c phase v (Called c phase v) (handler c phase) := by
  cases phase with
  | start =>
    cases c with
    | attach =>
      exact start_answers (c := .attach) nofun nofun ((Refines.silent startAttachLoop_silent).post
        fun _ _ _ => trivial)
    | con => exact start_answers (c := .con) nofun nofun ((startConLoop_refines v).mono acts_sub_handlers)
    | pub => exact startWith_answers serializePub_serializes v
    | reg => exact start_answers (c := .reg) nofun nofun ((startRequest_refines rfl v).mono acts_sub_handlers)
    | sub => exact startWith_answers serializeSub_serializes v
    | unsub => exact start_answers (c := .unsub) nofun nofun ((startRequest_refines rfl v).mono acts_sub_handlers)
    | yield =>
      exact start_answers (c := .yield) nofun nofun ((Refines.silent startYieldLoop_silent).post
        fun _ _ _ => trivial)
    | dis => exact start_answers (c := .dis) nofun nofun ((startRequest_refines rfl v).mono acts_sub_handlers)
  | step =>
    cases c with
    | attach => exact step_answers rfl (doAttachLoop_refines v)
    | yield => exact step_answers rfl (doYieldLoop_refines v)
    | pub => exact doPubLoop_answers v
    | sub => exact doSubLoop_answers v
    | con => exact waiting_answers rfl v
    | reg => exact waiting_answers rfl v
    | unsub => exact waiting_answers rfl v
    | dis => exact waiting_answers rfl v
  | stop =>
    have weaken {c : ClientId} {m : M Bool} (h : Answers c .stop v (fun _ => True) m) :
        Answers c .stop v (Called c .stop v) m := fun s hinv _ => h s hinv trivial
    cases c with
    | attach =>
      exact weaken (.of_refines ((finishAttachLoop_refines.mono acts_sub_handlers).post
        fun a _ _ => .attach v a))
    | yield =>
      exact weaken (.of_refines ((Refines.silent finishYieldLoop_silent).post
        fun a _ _ => .yield v a))
    | con => exact finishConLoop_answers v
    | dis => exact weaken (finishDisLoop_answers v)
    | pub => exact finishPubLoop_answers v
    | reg => exact finishRegLoop_answers v
    | sub => exact finishSubLoop_answers v
    | unsub => exact finishUnsubLoop_answers v

end LibNbiot
