/-
# The traffic of the library

What the library and the network see of each other: the three packet buffers and the
log. Everything that the library does to them is one of a few steps. A packet is
serialized into the send buffer, the send buffer is written, a kept publish is put
back; bytes are read, a packet is received, answered and delivered. Timers, topics and
the state machine are not in it.
-/

import LibNbiot.EventLoop
import LibNbiot.Logic.Running
import LibNbiot.Wire.Messages

namespace LibNbiot

open Logic.Program

/-- The packet buffers and the log. -/
structure Traffic where
  sendbuf : Bytes
  readbuf : Bytes
  pubbuf : Bytes
  trace : List (Entry ClientId SysEvent View)

/-- The traffic of a state of the library. -/
def traffic (s : Sys) : Traffic where
  sendbuf := s.rest.sn.sendbuf
  readbuf := s.rest.sn.readbuf
  pubbuf := s.rest.sn.pubbuf
  trace := s.trace

/-- The packets by which the client answers one of the gateway. -/
def Packet.isAnswer : Packet → Bool
  | .regack _ _ _ | .puback _ _ _ | .pubrec _ => true
  | _ => false

/-- A PUBLISH, which the client keeps a copy of. -/
def Packet.isPublish : Packet → Bool
  | .publish _ _ _ _ _ _ => true
  | _ => false

namespace Traffic

/-! ## What the log tells -/

/-- The packet that was received last, if it was not answered. -/
def unanswered : List (Entry ClientId SysEvent View) → Option Bytes
  | [] => none
  | e :: t =>
      match e.event with
      | .app (.received r) => some r
      | .app .receiveFailed => none
      | .app (.serialized p _) => if p.isAnswer then none else unanswered t
      | _ => unanswered t

/-- The packet that was received last, if nothing was delivered since. -/
def undelivered : List (Entry ClientId SysEvent View) → Option Bytes
  | [] => none
  | e :: t =>
      match e.event with
      | .app (.received r) => some r
      | .app .receiveFailed | .app (.delivered _ _ _) => none
      | _ => undelivered t

/-- A received packet that is to be answered: a REGISTER, or a PUBLISH with QoS 1 or 2. -/
def Owes (r : Bytes) : Prop :=
  headerOk r .register ∨
    headerOk r .publish ∧
      (byteAt r ((packetDecode r).1 + 1) / 32 % 4 = 1 ∨
        byteAt r ((packetDecode r).1 + 1) / 32 % 4 = 2)

/-- Nothing that was received is to be answered still. -/
def Settled (t : List (Entry ClientId SysEvent View)) : Prop := ∀ r, unanswered t = some r → ¬Owes r

/-- A packet answers what is in a buffer, with the ids that it came with. -/
def AnswerTo (buf : Bytes) : Packet → Prop
  | .regack topicId msgId _ => ∃ topicName, deserializeRegister buf = (1, ⟨topicId, msgId, topicName⟩)
  | .puback topicId msgId _ => ∃ address data, deserializePublish buf address = (1, data) ∧
      data.qos = 1 ∧ data.topic.id = topicId ∧ data.packetId = msgId
  | .pubrec msgId => ∃ address data, deserializePublish buf address = (1, data) ∧
      data.qos = 2 ∧ data.packetId = msgId
  | _ => False

/-- A packet answers the one that was received last, and is the first to do so. -/
def Answers (p : Packet) (k : Traffic) : Prop :=
  ∃ r, unanswered k.trace = some r ∧ r <+: k.readbuf ∧ AnswerTo k.readbuf p

/-- A message is that of the packet that was received last, and the first from there. -/
def Delivers (data : PublishData) (k : Traffic) : Prop :=
  ∃ r address, undelivered k.trace = some r ∧ r <+: k.readbuf ∧
    deserializePublish k.readbuf address = (1, data)

/-! ## Steps -/

def log (k : Traffic) (e : LoopEvent ClientId SysEvent) (v : View) : Traffic :=
  { k with trace := ⟨e, v⟩ :: k.trace }

/-- A packet was serialized into the send buffer. -/
def serialize (k : Traffic) (p : Packet) (b : Bytes) (v : View) : Traffic :=
  { k with sendbuf := overwrite k.sendbuf 0 b }.log (.app (.serialized p b)) v

/-- Entries that are not about packets. -/
def aside : LoopEvent ClientId SysEvent → Bool
  | .app (.serialized _ _) | .app (.restored _) | .app (.wrote _ _) => false
  | .app (.received _) | .app .receiveFailed | .app (.delivered _ _ _) => false
  | _ => true

/-- What the library does of its own accord. -/
inductive Sending : Traffic → Traffic → Prop
  | note {k : Traffic} (e : LoopEvent ClientId SysEvent) (v : View) (h : aside e = true) :
      Sending k (k.log e v)
  | request {k : Traffic} (p : Packet) (b : Bytes) (v : View) (hp : p.isAnswer = false)
      (hpublish : p.isPublish = false) (hb : p.serialize = some b) : Sending k (k.serialize p b v)
  /-- A publish is serialized, and a copy of it is kept. -/
  | publish {k : Traffic} (p : Packet) (b : Bytes) (v : View) (hp : p.isPublish = true)
      (hqos : Wire.qosFits p) (hb : p.serialize = some b) :
      Sending k { k.serialize p b v with pubbuf := overwrite k.pubbuf 0 b }
  | restore {k : Traffic} (v : View) :
      Sending k ({ k with sendbuf := overwrite k.sendbuf 0 (k.pubbuf.take maxPacketSize) }.log
        (.app (.restored (k.pubbuf.take maxPacketSize))) v)
  | write {k : Traffic} (n : Nat) (ok : Bool) (v : View) (hpos : 0 < n) (hn : n ≤ maxPacketSize) :
      Sending k (k.log (.app (.wrote (k.sendbuf.take n) ok)) v)

/-- What the library does for packets of the gateway. -/
inductive Passing : Traffic → Traffic → Prop
  | sending {k k' : Traffic} (h : Sending k k') : Passing k k'
  /-- The bytes that are read are followed by a zero byte. -/
  | read {k : Traffic} (offset : Nat) (data : Bytes) (hpos : 0 < data.length)
      (hfit : offset + data.length ≤ maxPacketSize) :
      Passing k { k with readbuf := overwrite k.readbuf offset (data ++ [0]) }
  | receive {k : Traffic} (n : Nat) (v : View) (hn : n ≤ maxPacketSize) (h : Settled k.trace) :
      Passing k (k.log (.app (.received (k.readbuf.take n))) v)
  | fail {k : Traffic} (v : View) (h : Settled k.trace) :
      Passing k (k.log (.app .receiveFailed) v)
  | answer {k : Traffic} (p : Packet) (b : Bytes) (v : View) (h : Answers p k)
      (hb : p.serialize = some b) : Passing k (k.serialize p b v)
  | deliver {k : Traffic} (handler : MessageHandler) (topicName : Bytes) (data : PublishData)
      (v : View) (h : Delivers data k) :
      Passing k (k.log (.app (.delivered handler topicName data)) v)

/-- The sending side by itself. -/
def sendings : Machine Traffic where
  Step := Sending
  Inv _ := True
  keeps _ _ := trivial

/-- Both sides. -/
def passings : Machine Traffic where
  Step := Passing
  Inv _ := True
  keeps _ _ := trivial

theorem sendings_sub_passings : sendings.Sub passings := ⟨id, fun _ h => .single (.sending h)⟩

/-- What is sent is no reason to answer again. -/
theorem Sending.unanswered {k k' : Traffic} (h : Sending k k') :
    unanswered k'.trace = unanswered k.trace := by
  cases h with
  | note e v h =>
    cases e with
    | app e => cases e <;> first | rfl | cases h
    | _ => rfl
  | request p b v hp => simp [serialize, log, Traffic.unanswered, hp]
  | publish p b v hp =>
    cases p with
    | publish => rfl
    | _ => cases hp
  | restore v => rfl
  | write n ok v => rfl

theorem Sending.undelivered {k k' : Traffic} (h : Sending k k') :
    undelivered k'.trace = undelivered k.trace := by
  cases h with
  | note e v h =>
    cases e with
    | app e => cases e <;> first | rfl | cases h
    | _ => rfl
  | _ => rfl

theorem Sending.readbuf {k k' : Traffic} (h : Sending k k') : k'.readbuf = k.readbuf := by
  cases h <;> rfl

theorem Sending.settled {k k' : Traffic} (h : Sending k k') (hk : Settled k.trace) :
    Settled k'.trace := by
  rw [Settled, h.unanswered]
  exact hk

/-! ## Programs that send -/

/-- A program that only sends. -/
abbrev Sends {α : Type} (m : M α) : Prop := Runs traffic sendings m

/-- Other entries in the log. -/
theorem log_sends {e : LoopEvent ClientId SysEvent} (h : aside e = true) :
    Sends (LibNbiot.log e) := .single fun _ => .note e _ h

theorem logApp_sends {e : SysEvent} (h : aside (.app e) = true) : Sends (logApp e) := log_sends h

theorem serialize_sends {p : Packet} (hp : p.isAnswer = false) (hpublish : p.isPublish = false) :
    Sends (LibNbiot.serialize p) := by
  intro s _ _
  cases hb : p.serialize with
  | none =>
    simp only [LibNbiot.serialize, hb]
    exact ⟨.refl, trivial⟩
  | some b =>
    simp only [LibNbiot.serialize, hb]
    exact ⟨.single (.request p b _ hp hpublish hb), trivial⟩

theorem writeSendbuf_sends {length : Int} (hpos : 0 < length) (timer : Timer) :
    Sends (writeSendbuf length timer) := by
  refine .silent_bind (fun _ => rfl) fun _ => .ite (.pure _) ?_
  refine Refines.ite (fun _ => Runs.pure _) fun hmax => ?_
  refine .silent_bind (fun _ => rfl) fun _ => .reads (g := fun s => s.rest.sn) (fun _ => rfl)
    fun s _ => .single fun s' hs' => ⟨?_, trivial⟩
  rw [show s.rest.sn.sendbuf = s'.rest.sn.sendbuf from congrArg Traffic.sendbuf hs'.symm]
  exact .write length.toNat _ _ (by omega) (by omega)

theorem renewLastSent_silent : Silent traffic renewLastSent :=
  .bind (fun _ => rfl) fun _ => .ite (fun _ => rfl) (.pure _)

theorem renewLastReceived_silent : Silent traffic renewLastReceived :=
  .bind (fun _ => rfl) fun _ => .ite (fun _ => rfl) (.pure _)

theorem renewTimer_silent (timer : Timer) : Silent traffic (renewTimer timer) :=
  .bind (fun _ => rfl) fun _ => .ite (fun _ => rfl) (.pure _)

theorem sendPacket_sends (length : Int) (timer : Timer) : Sends (sendPacket length timer) := by
  refine .silent_bind (renewTimer_silent _) fun timer => .bind ?_ fun sent => ?_
  · exact Refines.ite (fun hpos => writeSendbuf_sends hpos timer) fun _ => Runs.pure _
  · exact .ite (.silent_bind renewLastSent_silent fun _ => .pure _) (.pure _)

theorem keepalive_sends : Sends keepalive := by
  have hexpired : Silent traffic keepaliveExpired :=
    .bind (fun _ => rfl) fun _ => .bind (fun _ => rfl) fun _ => .ite (.pure _) fun _ => rfl
  refine .silent_bind (fun _ => rfl) fun _ => .ite ?_ (.pure _)
  refine .silent_bind hexpired fun _ => .silent_bind (fun _ => rfl) fun _ => .ite ?_ (.pure _)
  refine .silent_bind (fun _ => rfl) fun _ => .bind (serialize_sends rfl rfl) fun _ => ?_
  refine .ite (.bind (sendPacket_sends _ _) fun _ => ?_) (.pure _)
  exact .ite (.silent fun _ => rfl) (.pure _)

theorem pmPing_sends (cID : Bytes) : Sends (Client.pmPing cID) := by
  refine .silent_bind (fun _ => rfl) fun _ => .ite (.pure _) (.silent_bind (fun _ => rfl) fun _ => ?_)
  refine .bind (serialize_sends rfl rfl) fun _ => .ite ?_ (.pure _)
  refine .bind (sendPacket_sends _ _) fun _ => .silent_bind (.onlyIf fun _ => rfl) fun _ => .pure _

end Traffic

end LibNbiot
