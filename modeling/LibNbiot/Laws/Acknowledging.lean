/-
# Acknowledgements

A publish with QoS 1, a subscribe, register or unsubscribe loop ends well only
after an acknowledgement of its kind was read in its last step, with an accepting
return code. Whether that acknowledgement is one of the outstanding request is
another matter: only the publish loop looks at the message id, and takes a foreign
one for a success. The same holds of what the application is told about a publish,
where in addition a publish that is never answered is reported as a success.
-/

import LibNbiot.Laws.Transmissions

namespace LibNbiot

/-! ## The acknowledgement in a packet -/

/-- The number of bytes of an acknowledgement behind its length field. -/
def ClientId.ackLength : ClientId → Nat
  | .sub => 7
  | .unsub => 3
  | _ => 6

/-- A packet is as long as the acknowledgement that a client waits for. -/
def Complete (c : ClientId) (p : Bytes) : Prop := (packetDecode p).1 + c.ackLength ≤ p.length

/-- A complete packet has a type. -/
theorem Complete.header {c : ClientId} {p : Bytes} (h : Complete c p) :
    (packetDecode p).1 < p.length :=
  (Nat.lt_add_of_pos_right (by cases c <;> decide)).trans_le h

/-- What a stop handler reads from the acknowledgement that its client waits for. An
UNSUBACK has only a message id. -/
def ClientId.ackOf (c : ClientId) (buf : Bytes) : Ack :=
  match c with
  | .reg => (deserializeRegack buf).2
  | .pub => (deserializePuback buf).2
  | .sub => (deserializeSuback buf).2
  | .unsub => { msgId := (deserializeUnsuback buf).2 }
  | _ => {}

theorem byteAt_take {buf : Bytes} {n i : Nat} (h : i < (buf.take n).length) :
    byteAt (buf.take n) i = byteAt buf i := by
  have hi : i < n := h.trans_le (List.length_take_le n buf)
  simp only [byteAt, List.getD_eq_getElem?_getD, List.getElem?_take_of_lt hi]

theorem readInt_take {buf : Bytes} {n i : Nat} (h : i + 1 < (buf.take n).length) :
    readInt (buf.take n) i = readInt buf i := by
  rw [readInt, readInt, byteAt_take (Nat.lt_of_succ_lt h), byteAt_take h]

/-- A packet that is longer than its length field says the same in the buffer. -/
theorem packetDecode_take {buf : Bytes} {n : Nat}
    (h : (packetDecode (buf.take n)).1 < (buf.take n).length) :
    packetDecode (buf.take n) = packetDecode buf := by
  have hfirst : byteAt (buf.take n) 0 = byteAt buf 0 := byteAt_take (Nat.zero_lt_of_lt h)
  unfold packetDecode at h ⊢
  rw [hfirst] at h ⊢
  split
  · rename_i hlong
    rw [if_pos hlong] at h
    rw [readInt_take (Nat.lt_of_succ_lt h)]
  · rfl

/-- A packet with a type is of that type in the buffer. -/
theorem packetType_take {buf : Bytes} {n : Nat}
    (h : (packetDecode (buf.take n)).1 < (buf.take n).length) :
    packetType (buf.take n) = packetType buf := by
  rw [packetType, packetType, ← packetDecode_take h, byteAt_take h]

/-- A complete acknowledgement is read from the buffer as it was received. -/
theorem ackOf_take {c : ClientId} {buf : Bytes} {n : Nat} (h : Complete c (buf.take n)) :
    c.ackOf (buf.take n) = c.ackOf buf := by
  have hlong := h.header
  have hdecode := packetDecode_take hlong
  have hheader (type : MsgType) : headerOk (buf.take n) type ↔ headerOk buf type := by
    rw [headerOk, headerOk, packetType_take hlong, hdecode]
  rw [Complete, hdecode] at h
  have int (i : Nat) (hi : i + 2 ≤ c.ackLength) :
      readInt (buf.take n) ((packetDecode buf).1 + i) = readInt buf ((packetDecode buf).1 + i) :=
    readInt_take (by omega)
  have byte (i : Nat) (hi : i + 1 ≤ c.ackLength) :
      byteAt (buf.take n) ((packetDecode buf).1 + i) = byteAt buf ((packetDecode buf).1 + i) :=
    byteAt_take (by omega)
  cases c with
  | reg => 
    simp only [ClientId.ackOf, deserializeRegack, hdecode, hheader, int 1 (by decide),
      int 3 (by decide), byte 5 (by decide)]
  | pub =>
    simp only [ClientId.ackOf, deserializePuback, hdecode, hheader, int 1 (by decide),
      int 3 (by decide), byte 5 (by decide)]
  | sub =>
    simp only [ClientId.ackOf, deserializeSuback, hdecode, hheader, int 2 (by decide),
      int 4 (by decide), byte 6 (by decide)]
  | unsub =>
    simp only [ClientId.ackOf, deserializeUnsuback, hdecode, hheader, int 1 (by decide)]
  | _ => rfl

/-! ## The ids of the outstanding requests -/

/-- What start handlers have written since a client was last taken. -/
def startWrites : Log → List Bytes
  | [] => []
  | e :: t =>
      match e.event with
      | .taken _ _ => []
      | .app (.wrote b _) =>
          match running t with
          | some (_, .start, _) => b :: startWrites t
          | _ => startWrites t
      | _ => startWrites t

/-- The message ids under which the outstanding request of a client was sent. A
REGISTER has a topic id before its message id, an UNSUBSCRIBE has flags. -/
def sentIds (c : ClientId) (t : Log) : List Nat :=
  match c with
  | .pub | .sub => (transmissions t).map Prod.snd
  | .reg => (startWrites t).map fun b => readInt b ((packetDecode b).1 + 3)
  | .unsub => (startWrites t).map fun b => readInt b ((packetDecode b).1 + 2)
  | _ => []

/-- The message id of the PUBLISH packet that was built last for the active publish. -/
def builtId : Log → Option Nat
  | [] => none
  | e :: t =>
      match e.event with
      | .taken _ _ | .answered _ .stop _ _ => none
      | .app (.serialized (.publish _ _ _ id _ _) _) => some id
      | _ => builtId t

/-- The loops that an acknowledgement with a message id ends. -/
def ClientId.Acknowledged (c : ClientId) (qos : QoS) : Prop :=
  match c with
  | .reg | .sub | .unsub => True
  | .pub => qos = .qos1
  | _ => False

/-- A packet acknowledges the outstanding request of a client. -/
def Acknowledges (c : ClientId) (t : Log) (p : Bytes) : Prop :=
  Complete c p ∧ c.awaited.map (fun type => type.code.toNat) = some (packetType p) ∧
    (c.ackOf p).msgId ∈ sentIds c t ∧ (c.ackOf p).returnCode = rcAccepted

/-- A loop that ends well was acknowledged. -/
def EndsAcknowledged : EntryLaw
  | .answered c .stop true _, v, t =>
      c.Acknowledged v.qos → ∃ p ∈ lastReceived t, Acknowledges c t p
  | _, _, _ => True

/-- A loop ends in time only with a complete acknowledgement, which carries a message
id of the outstanding request if it is an accepting one. A PUBACK carries the id
of the PUBLISH that was built last in any case. -/
def EndsUnderId : EntryLaw
  | .called c .stop v, w, t =>
      c.Acknowledged w.qos → v ≠ 0 → ∀ p ∈ lastReceived t, Complete c p ∧
        (c = .pub → builtId t = some (c.ackOf p).msgId) ∧
        ((c.ackOf p).returnCode = rcAccepted → (c.ackOf p).msgId ∈ sentIds c t)
  | _, _, _ => True

instance (c : ClientId) (p : Bytes) : Decidable (Complete c p) := Nat.decLe _ _

instance (c : ClientId) (qos : QoS) : Decidable (c.Acknowledged qos) := by
  unfold ClientId.Acknowledged
  split <;> infer_instance

instance (c : ClientId) (t : Log) (p : Bytes) : Decidable (Acknowledges c t p) :=
  inferInstanceAs (Decidable (_ ∧ _))

instance (e : LoopEvent ClientId SysEvent) (v : View) (t : Log) :
    Decidable (EndsAcknowledged e v t) := by
  induction e using LoopEvent.casesOn with
  | answered c phase answer v =>
    induction phase using LoopPhase.casesOn with
    | stop =>
      induction answer using Bool.casesOn with
      | true => exact inferInstanceAs (Decidable (_ → _))
      | false => exact .isTrue trivial
    | _ => exact .isTrue trivial
  | _ => exact .isTrue trivial

instance (e : LoopEvent ClientId SysEvent) (v : View) (t : Log) :
    Decidable (EndsUnderId e v t) := by
  induction e using LoopEvent.casesOn with
  | called c phase v =>
    induction phase using LoopPhase.casesOn with
    | stop => exact inferInstanceAs (Decidable (_ → _))
    | _ => exact .isTrue trivial
  | _ => exact .isTrue trivial

/-! ## What is known when a loop ends -/

/-- Why a client that waits for an acknowledgement is done, with its value. -/
def Heard (c : ClientId) (type : MsgType) (v : Int) (k : Core) : Prop :=
  v = 0 ∨ (c = .pub ∧ k.qos = .qos0) ∨ HasRead type k

/-- A step handler that has just answered that it is done has heard why. -/
def HeardLast (k : Core) : Prop :=
  match k.trace with
  | ⟨.answered c .step false v, _⟩ :: _ => ∀ type, c.awaited = some type → Heard c type v k
  | _ => True

/-- What the log tells about the packet in the read buffer and the outstanding
publish. -/
structure ReadsKept (k : Core) : Prop where
  active : ∀ c phase v, running k.trace = some (c, phase, v) → k.loop.loopClient = some c
  buffer : ∀ p ∈ lastReceived k.trace, p = k.readbuf.take (packetDecode k.readbuf).2 ∧
    (packetDecode k.readbuf).2 ≤ maxPacketSize
  inflight : ∀ id ∈ builtId k.trace, k.inflightMsgid = id
  stopping : ∀ c v type, running k.trace = some (c, .stop, v) → c.awaited = some type →
    Heard c type v k
  last : HeardLast k

/-- Entries that concern neither reading nor the outstanding publish. -/
def LoopEvent.unread : LoopEvent ClientId SysEvent → Bool
  | .app (.serialized (.publish _ _ _ _ _ _) _) | .app (.received _) | .app .receiveFailed
  | .taken _ _ | .called _ _ _ | .answered _ _ _ _ => false
  | _ => true

theorem LoopEvent.unread.same {e : LoopEvent ClientId SysEvent} (he : e.unread = true) (v : View)
    (t : Log) : running (⟨e, v⟩ :: t) = running t ∧
      lastReceived (⟨e, v⟩ :: t) = lastReceived t ∧ builtId (⟨e, v⟩ :: t) = builtId t := by
  cases e with
  | app e =>
    cases e with
    | serialized p b => cases p <;> first | exact ⟨rfl, rfl, rfl⟩ | cases he
    | _ => first | exact ⟨rfl, rfl, rfl⟩ | cases he
  | _ => first | exact ⟨rfl, rfl, rfl⟩ | cases he

namespace ReadsKept

variable {k k' : Core}

/-- A step that logs nothing. The read buffer changes only before a packet was
read. -/
theorem of_silent (hk : ReadsKept k) (htrace : k'.trace = k.trace)
    (hactive : (running k.trace).isSome → k'.loop.loopClient = k.loop.loopClient)
    (hqos : k'.qos = k.qos) (hinflight : k'.inflightMsgid = k.inflightMsgid)
    (hread : k'.readbuf = k.readbuf ∨ lastReceived k.trace = none) : ReadsKept k' := by
  have heard {c : ClientId} {type : MsgType} {v : Int} (h : Heard c type v k) :
      Heard c type v k' := by
    rw [Heard, HasRead, htrace, hqos]
    rcases hread with hread | hread
    · rw [hread]
      exact h
    · refine h.imp_right (Or.imp_right fun h => ?_)
      have hsome := h.1
      rw [hread] at hsome
      cases hsome
  refine ⟨?_, ?_, ?_, ?_, ?_⟩
  · rw [htrace]
    intro c phase v hrun
    rw [hactive (by simp [hrun])]
    exact hk.active c phase v hrun
  · rw [htrace]
    intro p hp
    rcases hread with hread | hread
    · rw [hread]
      exact hk.buffer p hp
    · rw [hread] at hp
      cases hp
  · rw [htrace, hinflight]
    exact hk.inflight
  · rw [htrace]
    exact fun c v type hrun hc => heard (hk.stopping c v type hrun hc)
  · have hlast := hk.last
    unfold HeardLast at hlast ⊢
    rw [htrace]
    split
    · rename_i c v w t hlog
      rw [hlog] at hlast
      exact fun type hc => heard (hlast type hc)
    · trivial

/-- A step that logs an entry which concerns neither reading nor the outstanding
publish. -/
theorem of_unread (hk : ReadsKept k) {e : LoopEvent ClientId SysEvent} {v : View}
    (htrace : k'.trace = ⟨e, v⟩ :: k.trace) (he : e.unread = true)
    (hactive : (running k.trace).isSome →
      k'.loop.loopClient = k.loop.loopClient ∧ k'.qos = k.qos)
    (hinflight : k'.inflightMsgid = k.inflightMsgid) (hread : k'.readbuf = k.readbuf) :
    ReadsKept k' := by
  obtain ⟨hrunning, hreceived, hbuilt⟩ := LoopEvent.unread.same he v k.trace
  refine ⟨?_, ?_, ?_, ?_, ?_⟩
  · intro c phase v' hrun
    rw [htrace, hrunning] at hrun
    rw [(hactive (by simp [hrun])).1]
    exact hk.active c phase v' hrun
  · rw [htrace, hreceived, hread]
    exact hk.buffer
  · rw [htrace, hbuilt, hinflight]
    exact hk.inflight
  · intro c v' type hrun hc
    rw [htrace, hrunning] at hrun
    rw [Heard, HasRead, htrace, hreceived, hread, (hactive (by simp [hrun])).2]
    exact hk.stopping c v' type hrun hc
  · rw [HeardLast, htrace]
    cases e with
    | answered c phase a v' => cases he
    | _ => trivial

/-- A publish or subscribe packet is built. -/
theorem prepare (hk : ReadsKept k) {c : ClientId} {dup id : Nat} {p : Packet} (b : Bytes)
    (hp : TransmissionOf dup id c p) : ReadsKept (k.prepare c p b id) := by
  refine ⟨hk.active, hk.buffer, ?_, hk.stopping, trivial⟩
  intro id' hid
  cases c with
  | pub =>
    cases p with
    | publish dup' qos retained id'' topic payload =>
      obtain ⟨-, rfl⟩ := hp
      exact Option.some.inj hid
    | _ => exact hp.elim
  | sub =>
    cases p with
    | subscribe dup' qos id'' topic => exact hk.inflight id' hid
    | _ => exact hp.elim
  | _ => exact hp.elim

theorem act (hk : ReadsKept k) (h : Act k k') : ReadsKept k' := by
  cases h with
  | note e h =>
    refine hk.of_unread rfl ?_ (fun _ => ⟨rfl, rfl⟩) rfl rfl
    cases e <;> first | rfl | cases h
  | serialize p b hp hb =>
    refine hk.of_unread rfl ?_ (fun _ => ⟨rfl, rfl⟩) rfl rfl
    cases p <;> first | rfl | exact hp.elim
  | setBreak => exact hk.of_silent rfl (fun _ => rfl) rfl rfl (.inl rfl)
  | _ => exact hk.of_unread rfl rfl (fun _ => ⟨rfl, rfl⟩) rfl rfl

theorem hand (hk : ReadsKept k) (h : Hand k k') : ReadsKept k' := by
  cases h with
  | store c phase v v' h => exact hk.of_silent rfl (fun _ => rfl) rfl rfl (.inl rfl)
  | transmit c v p b w t hlog hp hb => exact hk.prepare b hp
  | countRetry c v w t hc hlog hleft =>
    rcases hc with rfl | rfl <;> exact hk.of_unread rfl rfl (fun _ => ⟨rfl, rfl⟩) rfl rfl
  | retransmit c v p b w t h hlog hp hb => exact hk.prepare b hp
  | restore buf => exact hk.of_unread rfl rfl (fun _ => ⟨rfl, rfl⟩) rfl rfl
  | read buf h => exact hk.of_silent rfl (fun _ => rfl) rfl rfl (.inr h)
  | receive c v h hlen =>
    refine ⟨hk.active, ?_, hk.inflight, fun d v' type hrun => ?_, trivial⟩
    · intro p hp
      obtain rfl := Option.some.inj hp
      exact ⟨rfl, hlen⟩
    · cases h.symm.trans hrun
  | receiveFailed c v h =>
    refine ⟨hk.active, (fun p hp => nomatch hp), hk.inflight, fun d v' type hrun => ?_, trivial⟩
    cases h.symm.trans hrun

/-- A handler has answered. -/
theorem answer (hk : ReadsKept k) {c : ClientId} {phase : LoopPhase} {v' : Int} {a : Bool}
    {w : View} (htrace : k'.trace = ⟨.answered c phase a v', w⟩ :: k.trace)
    (hread : k'.readbuf = k.readbuf) (hqos : k'.qos = k.qos)
    (hinflight : phase ≠ .stop → k'.inflightMsgid = k.inflightMsgid)
    (hdone : phase = .step → a = false → ∀ type, c.awaited = some type → Heard c type v' k) :
    ReadsKept k' := by
  refine ⟨?_, ?_, ?_, ?_, ?_⟩
  · rw [htrace]
    exact fun d phase' v'' h => nomatch h
  · rw [htrace, hread]
    exact hk.buffer
  · rw [htrace]
    intro id hid
    cases phase with
    | stop => cases hid
    | _ =>
      rw [hinflight nofun]
      exact hk.inflight id hid
  · rw [htrace]
    exact fun d v'' type h => nomatch h
  · rw [HeardLast, htrace]
    cases phase with
    | step =>
      cases a with
      | false =>
        intro type hc
        rw [Heard, HasRead, htrace, hread, hqos]
        exact hdone rfl rfl type hc
      | true => trivial
    | _ => trivial

theorem wrap (hk : ReadsKept k) {c : ClientId} {phase : LoopPhase} {a : Bool}
    (hanswered : Answered c phase a k) (h : Wrap c phase a k k') : ReadsKept k' := by
  obtain ⟨v, w, t, hlog⟩ := hanswered
  have hidle : (running k.trace).isSome = false := by
    rw [hlog]
    rfl
  have hactive : (running k.trace).isSome → k'.loop.loopClient = k.loop.loopClient := by
    rw [hidle]
    nofun
  cases h <;> exact hk.of_silent rfl hactive rfl rfl (.inl rfl)

theorem turn (hk : ReadsKept k) (h : Turn k k') : ReadsKept k' := by
  cases h with
  | clear h =>
    refine hk.of_unread rfl rfl (fun hsome => ?_) rfl rfl
    rw [h] at hsome
    cases hsome
  | resetBreak => exact hk.of_silent rfl (fun _ => rfl) rfl rfl (.inl rfl)
  | take c queue h hactive hqueue =>
    refine ⟨fun d phase v hrun => ?_, hk.buffer, (fun id hid => nomatch hid),
      fun d v type hrun => ?_, trivial⟩
    · cases h.symm.trans hrun
    · cases h.symm.trans hrun
  | callStart c r v t hactive hlog hr =>
    refine ⟨fun d phase v hrun => ?_, (fun p hp => nomatch hp), hk.inflight,
      (fun d v type hrun => nomatch hrun), trivial⟩
    obtain ⟨rfl, -⟩ : c = d ∧ _ := Prod.mk.inj (Option.some.inj hrun)
    exact hactive
  | callStep c h hactive hr =>
    refine ⟨fun d phase v hrun => ?_, (fun p hp => nomatch hp), hk.inflight,
      (fun d v type hrun => nomatch hrun), trivial⟩
    obtain ⟨rfl, -⟩ : c = d ∧ _ := Prod.mk.inj (Option.some.inj hrun)
    exact hactive
  | callStop c v t hactive hlog =>
    have hlast := hk.last
    rw [HeardLast, hlog] at hlast
    refine ⟨fun d phase v hrun => ?_, hk.buffer, hk.inflight, fun d v type hrun hc => ?_, trivial⟩
    · obtain ⟨rfl, -⟩ : c = d ∧ _ := Prod.mk.inj (Option.some.inj hrun)
      exact hactive
    · obtain ⟨rfl, h⟩ : c = d ∧ (LoopPhase.stop, k.value c) = (.stop, v) :=
        Prod.mk.inj (Option.some.inj hrun)
      obtain ⟨-, rfl⟩ := Prod.mk.inj h
      exact hlast type hc
  | answer c phase v a h hactive hdis ha =>
    have hread : ∀ k', Answer k c phase v a k' → k'.readbuf = k.readbuf ∧ k'.qos = k.qos := by
      intro k' ha
      cases ha with
      | published v a k' h => cases h <;> exact ⟨rfl, rfl⟩
      | _ => exact ⟨rfl, rfl⟩
    refine hk.answer (congrArg (_ :: ·) ha.trace) (hread _ ha).1 (hread _ ha).2 (fun hphase => ?_)
      fun hphase ha' type hc => ?_
    · cases ha with
      | start c v a h => rfl
      | goOn c v => rfl
      | done c v h => rfl
      | _ => exact absurd rfl hphase
    · subst hphase ha'
      cases ha with
      | done c v h =>
        rw [StepDone, hc] at h
        exact h
  | wrap c phase a hanswered hdis h => exact hk.wrap hanswered h
  | idle hactive => exact hk.of_silent rfl (fun _ => rfl) rfl rfl (.inl rfl)

/-- No handler runs while no client is active. -/
theorem idle (hk : ReadsKept k) {P : Prop} (hnone : k.loop.loopClient = none)
    (hsome : (running k.trace).isSome) : P := by
  obtain ⟨r, hrun⟩ := Option.isSome_iff_exists.1 hsome
  cases (hk.active r.1 r.2.1 r.2.2 hrun).symm.trans hnone

theorem call (hk : ReadsKept k) (h : Call k k') : ReadsKept k' := by
  cases h with
  | publish id q hactive hqueue =>
    have hset : ReadsKept (({ k with qos := q, pubRetryCount := k.maxRetry }.setValue .pub
        id).emit (.publishQueued id q)) := hk.of_unread rfl rfl (hk.idle hactive) rfl rfl
    exact hset.of_unread rfl rfl (fun _ => ⟨rfl, rfl⟩) rfl rfl
  | subscribe id q hactive hqueue hsub =>
    have hset : ReadsKept (({ k with qos := q, subRetryCount := k.maxRetry }.setValue .sub
        id).emit (.subscribeQueued id)) := hk.of_unread rfl rfl (hk.idle hactive) rfl rfl
    exact hset.of_unread rfl rfl (fun _ => ⟨rfl, rfl⟩) rfl rfl
  | _ => exact hk.of_unread rfl rfl (fun _ => ⟨rfl, rfl⟩) rfl rfl

theorem basic (h : Basic k k') (hk : ReadsKept k) : ReadsKept k' := by
  cases h with
  | act h => exact hk.act h
  | plug h => cases h <;> exact hk.of_unread rfl rfl (fun _ => ⟨rfl, rfl⟩) rfl rfl
  | move h => cases h <;> exact hk.of_unread rfl rfl (fun _ => ⟨rfl, rfl⟩) rfl rfl
  | ready h =>
    cases h with
    | look left => exact hk.of_unread rfl rfl (fun _ => ⟨rfl, rfl⟩) rfl rfl
    | _ => exact hk.of_silent rfl (fun _ => rfl) rfl rfl (.inl rfl)
  | lost => exact hk.of_silent rfl (fun _ => rfl) rfl rfl (.inl rfl)
  | hand h => exact hk.hand h
  | turn h => exact hk.turn h
  | ending h =>
    cases h with
    | answer v h hactive => exact hk.answer rfl rfl rfl (fun _ => rfl) nofun
    | wrap hanswered h => exact hk.wrap hanswered h
    | closeSocket ok v w t hlog hstate => exact hk.of_unread rfl rfl (fun _ => ⟨rfl, rfl⟩) rfl rfl
    | setBreak => exact hk.of_silent rfl (fun _ => rfl) rfl rfl (.inl rfl)
  | call h => exact hk.call h

theorem fresh (conf : CoreConf) : ReadsKept (.fresh conf) :=
  ⟨(fun _ _ _ h => nomatch h), (fun _ h => nomatch h), (fun _ h => nomatch h),
    (fun _ _ _ h => nomatch h), trivial⟩

end ReadsKept

/-! ## Loops that end well -/

/-- What the condition says of the packet with which a loop ends in time. -/
def UnderId (c : ClientId) (t : Log) (p : Bytes) : Prop :=
  Complete c p ∧ (c = .pub → builtId t = some (c.ackOf p).msgId) ∧
    ((c.ackOf p).returnCode = rcAccepted → (c.ackOf p).msgId ∈ sentIds c t)

namespace ReadsKept

variable {k : Core}

/-- In time, a loop ends with a packet of the awaited type. -/
theorem received (hk : ReadsKept k) {c : ClientId} {type : MsgType} {v : Int}
    (hrun : running k.trace = some (c, .stop, v)) (htype : c.awaited = some type)
    (hc : c.Acknowledged k.qos) (hv : v ≠ 0) :
    packetType k.readbuf = type.code.toNat ∧ ∃ p ∈ lastReceived k.trace,
      p = k.readbuf.take (packetDecode k.readbuf).2 := by
  rcases hk.stopping c v type hrun htype with h | ⟨rfl, hqos⟩ | ⟨hsome, h⟩
  · exact absurd h hv
  · rw [ClientId.Acknowledged, hqos] at hc
    cases hc
  · obtain ⟨p, hp⟩ := Option.isSome_iff_exists.1 hsome
    exact ⟨h, p, hp, (hk.buffer p hp).1⟩

/-- An accepting packet in time acknowledges the request. -/
theorem acknowledged (hk : ReadsKept k) {c : ClientId} {type : MsgType} {v : Int}
    (hrun : running k.trace = some (c, .stop, v)) (htype : c.awaited = some type)
    (hc : c.Acknowledged k.qos) (hv : v ≠ 0)
    (hunder : ∀ p ∈ lastReceived k.trace, UnderId c k.trace p)
    (hrc : (c.ackOf k.readbuf).returnCode = rcAccepted) :
    ∃ p ∈ lastReceived k.trace, Acknowledges c k.trace p := by
  obtain ⟨htypeRead, p, hp, rfl⟩ := hk.received hrun htype hc hv
  obtain ⟨hcomplete, -, hid⟩ := hunder _ hp
  have hack := ackOf_take hcomplete
  refine ⟨_, hp, hcomplete, ?_, hid (by rw [hack]; exact hrc), by rw [hack]; exact hrc⟩
  rw [htype, packetType_take hcomplete.header, htypeRead]
  rfl

/-- The id of a PUBACK in time is that of the outstanding publish. -/
theorem puback_inflight (hk : ReadsKept k) {v : Int}
    (hrun : running k.trace = some (.pub, .stop, v)) (hqos : k.qos = .qos1) (hv : v ≠ 0)
    (hunder : ∀ p ∈ lastReceived k.trace, UnderId .pub k.trace p) :
    (deserializePuback k.readbuf).2.msgId = k.inflightMsgid := by
  obtain ⟨-, p, hp, rfl⟩ := hk.received hrun rfl hqos hv
  obtain ⟨hcomplete, hbuilt, -⟩ := hunder _ hp
  have hack : ClientId.ackOf .pub _ = _ := ackOf_take hcomplete
  have hid := hk.inflight _ (hbuilt rfl)
  rw [hack] at hid
  exact hid.symm

end ReadsKept

/-- The invariant for the loops that end well. -/
structure EndsKept (k : Core) : Prop where
  reads : ReadsKept k
  underId : ∀ c v, running k.trace = some (c, .stop, v) → c.Acknowledged k.qos → v ≠ 0 →
    ∀ p ∈ lastReceived k.trace, UnderId c k.trace p
  law : Throughout EndsAcknowledged k.trace

/-- What was sent stays sent until the next client is taken. -/
theorem sentIds_mono {e : LoopEvent ClientId SysEvent} (he : ∀ c r, e ≠ .taken c r) (v : View)
    (t : Log) (c : ClientId) {id : Nat} (hid : id ∈ sentIds c t) : id ∈ sentIds c (⟨e, v⟩ :: t) := by
  have hsent : ∀ x ∈ transmissions t, x ∈ transmissions (⟨e, v⟩ :: t) := by
    intro x hx
    cases e with
    | taken c r => exact absurd rfl (he c r)
    | app e =>
      cases e with
      | wrote b ok => exact List.mem_append_right _ hx
      | _ => exact hx
    | _ => exact hx
  have hwritten : ∀ b ∈ startWrites t, b ∈ startWrites (⟨e, v⟩ :: t) := by
    intro b hb
    cases e with
    | taken c r => exact absurd rfl (he c r)
    | app e =>
      cases e with
      | wrote b' ok =>
        rw [startWrites]
        dsimp only
        split
        · exact List.mem_cons_of_mem _ hb
        · exact hb
      | _ => exact hb
    | _ => exact hb
  cases c with
  | pub => exact List.map_subset _ hsent hid
  | sub => exact List.map_subset _ hsent hid
  | reg => exact List.map_subset _ hwritten hid
  | unsub => exact List.map_subset _ hwritten hid
  | _ => cases hid

theorem UnderId.of_unread {e : LoopEvent ClientId SysEvent} (he : e.unread = true) {c : ClientId}
    {t : Log} {p : Bytes} (h : UnderId c t p) (v : View) : UnderId c (⟨e, v⟩ :: t) p := by
  obtain ⟨hcomplete, hbuilt, hid⟩ := h
  refine ⟨hcomplete, fun hc => ?_, fun hrc => sentIds_mono (fun c r h => ?_) v t c (hid hrc)⟩
  · rw [(LoopEvent.unread.same he v t).2.2]
    exact hbuilt hc
  · rw [h] at he
    cases he

namespace EndsKept

variable {k k' : Core}

theorem acknowledged (hk : EndsKept k) {c : ClientId} {type : MsgType} {v : Int}
    (hrun : running k.trace = some (c, .stop, v)) (htype : c.awaited = some type)
    (hc : c.Acknowledged k.qos) (hv : v ≠ 0)
    (hrc : (c.ackOf k.readbuf).returnCode = rcAccepted) :
    ∃ p ∈ lastReceived k.trace, Acknowledges c k.trace p :=
  hk.reads.acknowledged hrun htype hc hv (hk.underId c v hrun hc hv) hrc

/-- The end of a loop obeys the law. -/
theorem answered (hk : EndsKept k) {c : ClientId} {phase : LoopPhase} {v : Int} {a : Bool}
    (hrun : running k.trace = some (c, phase, v)) (ha : Answer k c phase v a k') (v' : Int) (w : View)
    (hw : w.qos = k.qos) : EndsAcknowledged (.answered c phase a v') w k.trace := by
  cases ha with
  | registered v a h =>
    cases a with
    | false => trivial
    | true =>
      obtain ⟨hv, hrc⟩ := h rfl
      exact fun _ => hk.acknowledged (c := .reg) hrun rfl trivial hv hrc
  | subscribed v a h =>
    cases a with
    | false => trivial
    | true =>
      obtain ⟨hv, hrc⟩ := h rfl
      exact fun _ => hk.acknowledged (c := .sub) hrun rfl trivial hv hrc
  | unsubscribed v a h =>
    cases a with
    | false => trivial
    | true => exact fun _ => hk.acknowledged (c := .unsub) hrun rfl trivial (h rfl) rfl
  | published v a k' h =>
    cases h with
    | qos0 hqos =>
      intro hc
      rw [hw, ClientId.Acknowledged, hqos] at hc
      cases hc
    | accepted hv h hid hrc =>
      intro hc
      rw [hw] at hc
      exact hk.acknowledged (c := .pub) hrun rfl hc hv hrc
    | foreign hv h hid =>
      intro hc
      rw [hw] at hc
      exact absurd (hk.reads.puback_inflight hrun hc hv (hk.underId .pub v hrun hc hv)) hid
    | _ => trivial
  | connected v => exact fun hc => hc.elim
  | disconnected v => exact fun hc => hc.elim
  | attach v a => cases a <;> first | trivial | exact fun hc => hc.elim
  | yield v a => cases a <;> first | trivial | exact fun hc => hc.elim
  | _ => trivial

theorem of_silent (hk : EndsKept k) (hreads : ReadsKept k') (htrace : k'.trace = k.trace)
    (hqos : k'.qos = k.qos) : EndsKept k' := by
  refine ⟨hreads, ?_, ?_⟩
  · rw [htrace, hqos]
    exact hk.underId
  · rw [htrace]
    exact hk.law

/-- A step that logs an entry which concerns neither reading nor the outstanding
publish. -/
theorem of_unread (hk : EndsKept k) (hreads : ReadsKept k') {e : LoopEvent ClientId SysEvent}
    {v : View} (htrace : k'.trace = ⟨e, v⟩ :: k.trace) (he : e.unread = true)
    (hqos : (running k.trace).isSome → k'.qos = k.qos) : EndsKept k' := by
  obtain ⟨hrunning, hreceived, -⟩ := LoopEvent.unread.same he v k.trace
  refine ⟨hreads, ?_, ?_⟩
  · intro c v' hrun hc hv p hp
    rw [htrace, hrunning] at hrun
    rw [hqos (by simp [hrun])] at hc
    rw [htrace, hreceived] at hp
    rw [htrace]
    exact (hk.underId c v' hrun hc hv p hp).of_unread he v
  · rw [htrace]
    refine ⟨?_, hk.law⟩
    cases e with
    | answered c phase a v' => cases he
    | _ => trivial

/-- A step that logs an entry behind which no stop handler is running. -/
theorem of_moving (hk : EndsKept k) (hreads : ReadsKept k') {e : LoopEvent ClientId SysEvent}
    {v : View} (htrace : k'.trace = ⟨e, v⟩ :: k.trace)
    (hrun : ∀ c v', running (⟨e, v⟩ :: k.trace) ≠ some (c, .stop, v'))
    (hlaw : EndsAcknowledged e v k.trace) : EndsKept k' := by
  refine ⟨hreads, fun c v' h => ?_, ?_⟩
  · rw [htrace] at h
    exact absurd h (hrun c v')
  · rw [htrace]
    exact ⟨hlaw, hk.law⟩

theorem hand (hk : EndsKept k) (hreads : ReadsKept k') (h : Hand k k') : EndsKept k' := by
  cases h with
  | store c phase v v' h => exact hk.of_silent hreads rfl rfl
  | transmit c v p b w t hlog hp hb =>
    have hrun : running k.trace = some (c, .start, v) := by
      rw [hlog]
      rfl
    exact hk.of_moving hreads rfl (not_running_stop hrun nofun) trivial
  | countRetry c v w t hc hlog hleft =>
    rcases hc with rfl | rfl <;> exact hk.of_unread hreads rfl rfl fun _ => rfl
  | retransmit c v p b w t h hlog hp hb =>
    exact hk.of_moving hreads rfl (not_running_stop h nofun) trivial
  | restore buf => exact hk.of_unread hreads rfl rfl fun _ => rfl
  | read buf h => exact hk.of_silent hreads rfl rfl
  | receive c v h hlen => exact hk.of_moving hreads rfl (not_running_stop h nofun) trivial
  | receiveFailed c v h => exact hk.of_moving hreads rfl (not_running_stop h nofun) trivial

theorem turn (hk : EndsKept k) (hreads : ReadsKept k') (h : Turn k k')
    (hC : Throughout EndsUnderId k'.trace) : EndsKept k' := by
  cases h with
  | clear h => exact hk.of_unread hreads rfl rfl fun _ => rfl
  | resetBreak => exact hk.of_silent hreads rfl rfl
  | take c queue h hactive hqueue =>
    refine hk.of_moving hreads rfl (fun d v hrun => ?_) trivial
    cases h.symm.trans hrun
  | callStart c r v t hactive hlog hr => exact hk.of_moving hreads rfl nofun trivial
  | callStep c h hactive hr => exact hk.of_moving hreads rfl nofun trivial
  | callStop c v t hactive hlog =>
    refine ⟨hreads, fun d v hrun hd hv p hp => ?_, trivial, hk.law⟩
    obtain ⟨rfl, h⟩ : c = d ∧ (LoopPhase.stop, k.value c) = (.stop, v) :=
      Prod.mk.inj (Option.some.inj hrun)
    obtain ⟨-, rfl⟩ := Prod.mk.inj h
    obtain ⟨hcomplete, hbuilt, hid⟩ := hC.1 hd hv p hp
    exact ⟨hcomplete, hbuilt, fun hrc =>
      sentIds_mono (e := .called c .stop (k.value c)) nofun _ _ c (hid hrc)⟩
  | answer c phase v a h hactive hdis ha =>
    refine hk.of_moving hreads (congrArg (_ :: ·) ha.trace) nofun (hk.answered h ha _ _ ?_)
    cases ha with
    | published v a k' h => cases h <;> rfl
    | _ => rfl
  | wrap c phase a hanswered hdis h => cases h <;> exact hk.of_silent hreads rfl rfl
  | idle hactive => exact hk.of_silent hreads rfl rfl

theorem call (hk : EndsKept k) (hreads : ReadsKept k') (h : Call k k') : EndsKept k' := by
  have running_idle (hnone : k.loop.loopClient = none) (c : ClientId) (v : Int) {P : Prop}
      (hrun : running k.trace = some (c, .stop, v)) : P :=
    hk.reads.idle hnone (by simp [hrun])
  cases h with
  | publish id q hactive hqueue =>
    exact ⟨hreads, fun c v hrun => running_idle hactive c v hrun, trivial, trivial, hk.law⟩
  | subscribe id q hactive hqueue hsub =>
    exact ⟨hreads, fun c v hrun => running_idle hactive c v hrun, trivial, trivial, hk.law⟩
  | _ => exact hk.of_unread hreads rfl rfl fun _ => rfl

theorem basic (h : Basic k k') (hC : Throughout EndsUnderId k'.trace) (hk : EndsKept k) :
    EndsKept k' := by
  have hreads := hk.reads.basic h
  cases h with
  | act h =>
    cases h with
    | note e h =>
      refine hk.of_unread hreads rfl ?_ fun _ => rfl
      cases e <;> first | rfl | cases h
    | serialize p b hp hb =>
      refine hk.of_unread hreads rfl ?_ fun _ => rfl
      cases p <;> first | rfl | exact hp.elim
    | setBreak => exact hk.of_silent hreads rfl rfl
    | _ => exact hk.of_unread hreads rfl rfl fun _ => rfl
  | plug h => cases h <;> exact hk.of_unread hreads rfl rfl fun _ => rfl
  | move h => cases h <;> exact hk.of_unread hreads rfl rfl fun _ => rfl
  | ready h =>
    cases h with
    | look left => exact hk.of_unread hreads rfl rfl fun _ => rfl
    | _ => exact hk.of_silent hreads rfl rfl
  | lost => exact hk.of_silent hreads rfl rfl
  | hand h => exact hk.hand hreads h
  | turn h => exact hk.turn hreads h hC
  | ending h =>
    cases h with
    | answer v h hactive => exact hk.of_moving hreads rfl nofun fun hc => hc.elim
    | wrap hanswered h => cases h <;> exact hk.of_silent hreads rfl rfl
    | closeSocket ok v w t hlog hstate => exact hk.of_unread hreads rfl rfl fun _ => rfl
    | setBreak => exact hk.of_silent hreads rfl rfl
  | call h => exact hk.call hreads h

theorem fresh (conf : CoreConf) : EndsKept (.fresh conf) :=
  ⟨.fresh conf, (fun _ _ h => nomatch h), trivial⟩

end EndsKept

/-- **Acknowledgements match requests** in every run whose loops end in time only
with complete acknowledgements that carry an id of the outstanding request. -/
theorem endsAcknowledged_after (setting : Setting) (calls : List ApiCall)
    (h : Obeys EndsUnderId (setting.after calls).trace) :
    Obeys EndsAcknowledged (setting.after calls).trace :=
  ⟨(holds_under_basic EndsKept.fresh setting calls EndsKept.basic h).law⟩

/-- A gateway that accepts the connection and answers a REGISTER and a PUBLISH, each
with the given message id. -/
def acknowledging (regId pubId : UInt8) : List Bytes :=
  [[3], [5, 0], [7], [11, 0, 1, 0, regId, 0], [7], [13, 0, 1, 0, pubId, 0]]

/-- A publish that is acknowledged under its own ids meets the condition. -/
theorem endsAcknowledged_after_publish :
    Obeys EndsAcknowledged
      ((Setting.script (acknowledging 1 2) 100).after (publishing ++ [.eventLoop .active])).trace :=
  endsAcknowledged_after _ _ (by decide +kernel)

/-- A REGACK of another request completes the register loop. -/
theorem not_endsAcknowledged_after_foreignRegack :
    ¬Obeys EndsAcknowledged
      ((Setting.script (acknowledging 9 2) 100).after publishing).trace := by
  decide +kernel

end LibNbiot
