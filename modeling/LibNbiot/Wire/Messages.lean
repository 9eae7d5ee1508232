/-
# What the packets say

A message is what a packet says, with fields of the width that the format has. It is
said by the packets of both sides and heard by the deserializers of both, whatever
the lengths of their buffers and whatever lies behind the packet: what one side writes,
the other side reads back.
-/

import Mathlib.Data.List.GetD
import LibNbiot.Wire

namespace LibNbiot

namespace Wire

/-- The two bits that a QoS has in the flags. -/
def qosOf (qos : Nat) : Fin 4 := .ofNat 4 qos

/-- The topic that a packet is about. -/
inductive Topic where
  | name (topicName : Bytes)
  | id (id : UInt16)
  | predefined (id : UInt16)
  | short (first second : UInt8)
  deriving DecidableEq, Repr

/-- What a packet says. -/
inductive Message where
  | connect (cleanSession willFlag : Bool) (duration : UInt16) (clientId : Bytes)
  | connack (returnCode : UInt8)
  | register (topicId msgId : UInt16) (topicName : Bytes)
  | regack (topicId msgId : UInt16) (returnCode : UInt8)
  | publish (dup retained : Bool) (qos : Fin 4) (topic : Topic) (msgId : UInt16) (payload : Bytes)
  | puback (topicId msgId : UInt16) (returnCode : UInt8)
  | ack (type : UInt8) (msgId : UInt16)
  | subscribe (dup : Bool) (qos : Fin 4) (msgId : UInt16) (topicFilter : Topic)
  | suback (qos : Fin 4) (topicId msgId : UInt16) (returnCode : UInt8)
  | unsubscribe (msgId : UInt16) (topicFilter : Topic)
  | unsuback (msgId : UInt16)
  | pingreq (clientId : Bytes)
  | pingresp
  | disconnect (duration : Option UInt16)
  deriving DecidableEq, Repr

/-- Which use is made of the storage of a topic id: only a normal topic can be a name. -/
def topicOf (t : TopicId) (named : Bool) : Topic :=
  match t.type with
  | .normal => if named then .name t.name else .id (.ofNat t.id)
  | .predefined => .predefined (.ofNat t.id)
  | .short => .short (.ofNat t.id) (.ofNat (t.id / 256))

/-! ## What is said -/

/-- The name that a PUBLISH with QoS -1 has in front of its payload. -/
def longName (topic : TopicId) (qos : Nat) : Bytes :=
  if topic.type = .normal ∧ qos = 3 then topic.name else []

/-- The type that a packet goes under. -/
def packetMsgType : Packet → MsgType
  | .connect .. => .connect
  | .register .. => .register
  | .regack .. => .regack
  | .publish .. => .publish
  | .puback .. => .puback
  | .pubrec .. => .pubrec
  | .subscribe .. => .subscribe
  | .unsubscribe .. => .unsubscribe
  | .pingreq .. => .pingreq
  | .disconnect .. => .disconnect

/-- What stands behind the type of a packet. -/
def packetBody : Packet → Bytes
  | .connect cleanSession duration clientId =>
      flagsByte 0 0 0 cleanSession .normal :: 1 :: writeInt duration ++ clientId
  | .register topicId msgId topicName => writeInt topicId ++ writeInt msgId ++ topicName
  | .regack topicId msgId returnCode =>
      writeInt topicId ++ writeInt msgId ++ [UInt8.ofNat returnCode]
  | .publish dup qos retained msgId topic payload =>
      flagsByte dup qos retained.toNat 0 topic.type :: publishTopic topic qos ++ writeInt msgId ++
        longName topic qos ++ payload
  | .puback topicId msgId returnCode =>
      writeInt topicId ++ writeInt msgId ++ [UInt8.ofNat returnCode]
  | .pubrec msgId => writeInt msgId
  | .subscribe dup qos msgId topic =>
      flagsByte dup qos 0 0 topic.type :: writeInt msgId ++ filterTopic topic
  | .unsubscribe msgId topic =>
      flagsByte 0 0 0 0 topic.type :: writeInt msgId ++ filterTopic topic
  | .pingreq clientId => clientId
  | .disconnect duration => duration.elim [] writeInt

/-- What a client says; a publish with QoS -1, which goes as 3, names its topic. -/
def meaning : Packet → Message
  | .connect cleanSession duration clientId =>
      .connect (cleanSession % 2 = 1) false (.ofNat duration) clientId
  | .register topicId msgId topicName => .register (.ofNat topicId) (.ofNat msgId) topicName
  | .regack topicId msgId returnCode =>
      .regack (.ofNat topicId) (.ofNat msgId) (.ofNat returnCode)
  | .publish dup qos retained msgId topic payload =>
      .publish (dup % 2 = 1) retained (qosOf qos) (topicOf topic (qos = 3)) (.ofNat msgId)
        payload
  | .puback topicId msgId returnCode =>
      .puback (.ofNat topicId) (.ofNat msgId) (.ofNat returnCode)
  | .pubrec msgId => .ack MsgType.pubrec.code (.ofNat msgId)
  | .subscribe dup qos msgId topic =>
      .subscribe (dup % 2 = 1) (qosOf qos) (.ofNat msgId) (topicOf topic true)
  | .unsubscribe msgId topic => .unsubscribe (.ofNat msgId) (topicOf topic true)
  | .pingreq clientId => .pingreq clientId
  | .disconnect duration => .disconnect (duration.map .ofNat)

/-- The type that an answer goes under. -/
def Answer.msgType : Answer → MsgType
  | .connack .. => .connack
  | .register .. => .register
  | .regack .. => .regack
  | .publish .. => .publish
  | .puback .. => .puback
  | .suback .. => .suback
  | .unsuback .. => .unsuback
  | .pingresp => .pingresp
  | .disconnect .. => .disconnect

/-- What a gateway says. -/
def Answer.meaning : Answer → Message
  | .connack returnCode => .connack (.ofNat returnCode)
  | .register topicId msgId topicName => Wire.meaning (.register topicId msgId topicName)
  | .regack topicId msgId returnCode => Wire.meaning (.regack topicId msgId returnCode)
  | .publish dup qos retained msgId topic payload =>
      Wire.meaning (.publish dup qos retained msgId topic payload)
  | .puback topicId msgId returnCode => Wire.meaning (.puback topicId msgId returnCode)
  | .suback qos topicId msgId returnCode =>
      .suback (qosOf qos) (.ofNat topicId) (.ofNat msgId) (.ofNat returnCode)
  | .unsuback msgId => .unsuback (.ofNat msgId)
  | .pingresp => .pingresp
  | .disconnect duration => Wire.meaning (.disconnect duration)

/-- The QoS of a publish has two bits. -/
def qosFits : Packet → Prop
  | .publish _ qos .. => qos < 4
  | _ => True

/-- The QoS of an answer that is a publish has two bits. -/
def Answer.qosFits : Answer → Prop
  | .publish _ qos .. => qos < 4
  | _ => True

/-! ## What is heard -/

/-- A result is a message, if success is what was returned. -/
def heard {α : Type} (read : Read α) (message : α → Message) : Option Message :=
  if read.1 = 1 then some (message read.2) else none

/-- What a packet of some type is read as, whichever side reads it. -/
def readAs (buf : Bytes) (buflen address : Nat) : MsgType → Option Message
  | .connect => heard (deserializeConnect buf buflen) fun d =>
      .connect (d.cleanSession = 1) (d.willFlag = 1) (.ofNat d.duration) d.clientId
  | .connack => heard (deserializeConnack buf buflen) fun rc => .connack (.ofNat rc)
  | .register => heard (deserializeRegister buf buflen) fun d =>
      .register (.ofNat d.topicId) (.ofNat d.packetId) d.topicName
  | .regack => heard (deserializeRegack buf buflen) fun a =>
      .regack (.ofNat a.topicId) (.ofNat a.msgId) (.ofNat a.returnCode)
  | .publish => heard (deserializePublish buf buflen address) fun d =>
      .publish d.dup d.retained (qosOf d.qos) (topicOf d.topic (d.qos = 3))
        (.ofNat d.packetId) d.payload
  | .puback => heard (deserializePuback buf buflen) fun a =>
      .puback (.ofNat a.topicId) (.ofNat a.msgId) (.ofNat a.returnCode)
  | .pubrec => heard (deserializeAck buf buflen) fun a => .ack (.ofNat a.1) (.ofNat a.2)
  | .subscribe => heard (deserializeSubscribe buf buflen) fun d =>
      .subscribe d.dup (qosOf d.qos) (.ofNat d.packetId) (topicOf d.topicFilter true)
  | .suback => heard (deserializeSuback buf buflen) fun a =>
      .suback (qosOf a.1) (.ofNat a.2.topicId) (.ofNat a.2.msgId) (.ofNat a.2.returnCode)
  | .unsubscribe => heard (deserializeUnsubscribe buf buflen) fun d =>
      .unsubscribe (.ofNat d.packetId) (topicOf d.topicFilter true)
  | .unsuback => heard (deserializeUnsuback buf buflen) fun id => .unsuback (.ofNat id)
  | .pingreq => heard (deserializePingreq buf buflen) fun clientId => .pingreq clientId
  | .pingresp => heard (deserializePingresp buf buflen) fun _ => .pingresp
  | .disconnect => heard (deserializeDisconnect buf buflen) fun duration =>
      .disconnect (duration.map .ofNat)

/-! ## Fields -/

section Fields

variable (head : Bytes)

@[simp] theorem byteAt_cons_zero (c : UInt8) (buf : Bytes) : byteAt (c :: buf) 0 = c.toNat := rfl

@[simp] theorem byteAt_cons_succ (c : UInt8) (buf : Bytes) (i : Nat) :
    byteAt (c :: buf) (i + 1) = byteAt buf i := rfl

theorem byteAt_append_length (buf : Bytes) (i : Nat) :
    byteAt (head ++ buf) (head.length + i) = byteAt buf i := by
  rw [byteAt, byteAt, List.getD_append_right _ _ _ _ (Nat.le_add_right _ _),
    Nat.add_sub_cancel_left]

theorem byteAt_append (buf : Bytes) : byteAt (head ++ buf) head.length = byteAt buf 0 :=
  byteAt_append_length head buf 0

theorem readInt_append_length (buf : Bytes) (i : Nat) :
    readInt (head ++ buf) (head.length + i) = readInt buf i := by
  rw [readInt, Nat.add_assoc, byteAt_append_length, byteAt_append_length, readInt]

theorem restAt_append_length (buf : Bytes) (i len : Nat) :
    restAt (head ++ buf) (head.length + i) (head.length + len) = restAt buf i len := by
  rw [restAt, List.drop_length_add_append, Nat.add_sub_add_left, restAt]

@[simp] theorem readInt_cons_succ (c : UInt8) (buf : Bytes) (i : Nat) :
    readInt (c :: buf) (i + 1) = readInt buf i := rfl

@[simp] theorem restAt_cons_succ (c : UInt8) (buf : Bytes) (i len : Nat) :
    restAt (c :: buf) (i + 1) (len + 1) = restAt buf i len := by
  rw [restAt, List.drop_succ_cons, Nat.add_sub_add_right, restAt]

@[simp] theorem restAt_append (a buf : Bytes) : restAt (a ++ buf) 0 a.length = a := by
  simp [restAt]

/-- What stands between two other things. -/
theorem restAt_between {front buf cur len : _} (a junk : Bytes)
    (hbuf : buf = front ++ (a ++ junk)) (hcur : cur = front.length) (hlen : len = cur + a.length) :
    restAt buf cur len = a := by
  subst hbuf hlen hcur
  exact (restAt_append_length front (a ++ junk) 0 a.length).trans (restAt_append a junk)

@[simp] theorem length_writeInt (n : Nat) : (writeInt n).length = 2 := rfl

@[simp] theorem byteAt_writeInt (n : Nat) (buf : Bytes) (i : Nat) :
    byteAt (writeInt n ++ buf) (i + 2) = byteAt buf i := rfl

@[simp] theorem readInt_writeInt_add (n : Nat) (buf : Bytes) (i : Nat) :
    readInt (writeInt n ++ buf) (i + 2) = readInt buf i := rfl

@[simp] theorem restAt_writeInt (n : Nat) (buf : Bytes) (i len : Nat) :
    restAt (writeInt n ++ buf) (i + 2) (2 + len) = restAt buf i len := by
  rw [writeInt, Nat.add_comm 2 len]
  exact (restAt_cons_succ _ _ _ _).trans (restAt_cons_succ _ _ _ _)

/-- A number is read as it was written, as far as it fits. -/
@[simp] theorem readInt_writeInt (n : Nat) (buf : Bytes) :
    readInt (writeInt n ++ buf) 0 = n % 65536 := by
  simp [readInt, writeInt, byteAt]
  omega

theorem readInt_between {front buf x : Bytes} {cur n : Nat}
    (hbuf : buf = front ++ (writeInt n ++ x)) (hcur : cur = front.length) :
    readInt buf cur = n % 65536 := by
  subst hbuf hcur
  exact (readInt_append_length front _ 0).trans (readInt_writeInt n x)

@[simp] theorem ofNat_mod_uint16 (n : Nat) : UInt16.ofNat (n % 65536) = UInt16.ofNat n := by
  rw [← UInt16.toNat_inj]
  simp

@[simp] theorem ofNat_mod_uint8 (n : Nat) : UInt8.ofNat (n % 256) = UInt8.ofNat n := by
  rw [← UInt8.toNat_inj]
  simp

@[simp] theorem qosOf_mod_four (n : Nat) : qosOf (n % 4) = qosOf n := by
  simp [qosOf, Fin.ofNat]

/-- The flags are read as they were written, each as far as it fits. -/
theorem toNat_flagsByte (dup qos retain cleanSession : Nat) (type : TopicType) :
    (flagsByte dup qos retain cleanSession type).toNat =
      128 * (dup % 2) + 32 * (qos % 4) + 16 * (retain % 2) + 4 * (cleanSession % 2) +
        type.code ∧ type.code < 3 := by
  have hcode : type.code < 3 := by cases type <;> decide
  rw [flagsByte, UInt8.toNat_ofNat']
  omega

section Flags

variable (dup qos retain cleanSession : Nat) (type : TopicType)

@[simp] theorem flagsByte_dup :
    (flagsByte dup qos retain cleanSession type).toNat / 128 % 2 = dup % 2 := by
  have := toNat_flagsByte dup qos retain cleanSession type
  omega

@[simp] theorem flagsByte_qos :
    (flagsByte dup qos retain cleanSession type).toNat / 32 % 4 = qos % 4 := by
  have := toNat_flagsByte dup qos retain cleanSession type
  omega

@[simp] theorem flagsByte_retain :
    (flagsByte dup qos retain cleanSession type).toNat / 16 % 2 = retain % 2 := by
  have := toNat_flagsByte dup qos retain cleanSession type
  omega

@[simp] theorem flagsByte_will :
    (flagsByte dup qos retain cleanSession type).toNat / 8 % 2 = 0 := by
  have := toNat_flagsByte dup qos retain cleanSession type
  omega

@[simp] theorem flagsByte_cleanSession :
    (flagsByte dup qos retain cleanSession type).toNat / 4 % 2 = cleanSession % 2 := by
  have := toNat_flagsByte dup qos retain cleanSession type
  omega

@[simp] theorem topicType_flagsByte :
    topicType (flagsByte dup qos retain cleanSession type).toNat = type := by
  have hcode : (flagsByte dup qos retain cleanSession type).toNat % 4 = type.code := by
    have := toNat_flagsByte dup qos retain cleanSession type
    omega
  rw [topicType, hcode]
  cases type <;> rfl

end Flags

end Fields

/-! ## Topics -/

/-- The two characters of a short name are read as they are stored. -/
theorem topicOf_short (id : Nat) (buf : Bytes) (named : Bool) :
    topicOf ⟨.short, byteAt ([UInt8.ofNat id, UInt8.ofNat (id / 256)] ++ buf) 0 +
        256 * byteAt ([UInt8.ofNat id, UInt8.ofNat (id / 256)] ++ buf) 1, []⟩ named =
      .short (.ofNat id) (.ofNat (id / 256)) := by
  simp only [topicOf, Topic.short.injEq, ← UInt8.toNat_inj]
  simp [byteAt]
  omega

/-- The topic filter of a SUBSCRIBE or UNSUBSCRIBE. -/
theorem topicOf_filterAt {topic : TopicId} {flags cur len : Nat} {buf : Bytes}
    (hflags : topicType flags = topic.type) (front junk : Bytes)
    (hbuf : buf = front ++ (filterTopic topic ++ junk)) (hcur : cur = front.length)
    (hlen : len = cur + (filterTopic topic).length) :
    topicOf (filterAt buf flags cur len) true = topicOf topic true := by
  subst hbuf hlen hcur
  unfold filterAt filterTopic
  rw [hflags]
  cases htype : topic.type with
  | normal =>
    have hrest := restAt_between topic.name junk rfl rfl (rfl : _ = front.length + _)
    simp [topicOf, htype, hrest]
  | predefined =>
    have hread : _ = topic.id % 65536 := readInt_between (x := junk) rfl (rfl : _ = front.length)
    simp [topicOf, htype, hread]
  | short =>
    have hshort := topicOf_short topic.id junk true
    simp only [byteAt_append, byteAt_append_length, hshort]
    simp [topicOf, htype]

theorem length_publishTopic (topic : TopicId) (qos : Nat) :
    (publishTopic topic qos).length = 2 := by
  unfold publishTopic
  cases topic.type with
  | normal =>
    by_cases hthree : qos = 3
    · rw [if_pos hthree, length_writeInt]
    · rw [if_neg hthree, length_writeInt]
  | predefined => rfl
  | short => rfl

/-- The topic of a PUBLISH, and the position behind it. -/
theorem publishTopicAt_eq {topic : TopicId} {qos flags cur : Nat} {buf msgId junk : Bytes}
    (htype : topicType flags = topic.type) (hqos : flags / 32 % 4 = qos)
    (hname : (longName topic qos).length < 65536) (front : Bytes) (address : Nat)
    (hbuf : buf = front ++ (publishTopic topic qos ++ (msgId ++ (longName topic qos ++ junk))))
    (hid : msgId.length = 2) (hcur : cur = front.length) :
    ∃ read, publishTopicAt buf flags cur address = (read, cur + 4 + (longName topic qos).length) ∧
      topicOf read (qos = 3) = topicOf topic (qos = 3) := by
  have hread (n : Nat) (x : Bytes) :
      readInt (front ++ (writeInt n ++ x)) front.length = n % 65536 := readInt_between rfl rfl
  subst hbuf hcur
  unfold publishTopicAt
  rw [htype, hqos]
  cases hcase : topic.type with
  | normal =>
    by_cases hthree : qos = 3
    · -- the length of the name stands where the id would be
      subst hthree
      have hfield : longName topic 3 = topic.name := if_pos ⟨hcase, rfl⟩
      have hdrop (x : Bytes) : (front ++ (writeInt topic.name.length ++ (msgId ++ x))).drop
          (front.length + 4) = x := by
        rw [List.drop_length_add_append, ← List.append_assoc]
        exact List.drop_left' (by simp [hid])
      rw [hfield] at hname
      simp [publishTopic, hcase, hfield, hread, hdrop, Nat.mod_eq_of_lt hname, topicOf]
    · simp [publishTopic, longName, hcase, hthree, hread, topicOf]
  | predefined => simp [publishTopic, longName, hcase, hread, topicOf]
  | short =>
    have hshort := topicOf_short topic.id (msgId ++ (longName topic qos ++ junk)) (qos = 3)
    have hlong : longName topic qos = [] := by simp [longName, hcase]
    refine ⟨_, by rw [hlong]; rfl, ?_⟩
    rw [← hlong]
    simpa only [publishTopic, hcase, byteAt_append, byteAt_append_length, topicOf] using hshort

/-! ## Headers -/

/-- A packet whose header says how long it is: the header, the type and the body. -/
structure IsFrame (b head : Bytes) (type : MsgType) (body : Bytes) : Prop where
  eq : b = head ++ type.code :: body
  header : head = packetEncode b.length
  decoded : ∀ junk buflen, b.length ≤ buflen →
    decodeIn (b ++ junk) buflen = some (head.length, b.length)

/-- A length is read as it was written. -/
theorem decodeIn_packetEncode {n buflen : Nat} (hn : 1 < n) (hlt : n < 65536) (hfit : n ≤ buflen)
    (buf : Bytes) :
    decodeIn (packetEncode n ++ buf) buflen = some ((packetEncode n).length, n) := by
  unfold decodeIn packetDecode packetEncode
  rw [if_neg (by omega)]
  split
  · rw [if_neg (by omega)]
    simp [readInt, writeInt, byteAt]
    omega
  · have htoNat : (UInt8.ofNat n).toNat = n := by
      rw [UInt8.toNat_ofNat']
      omega
    have hone : n ≠ 1 := by omega
    simp [byteAt, htoNat, hone]

/-- As many bytes are written as are announced, unless there are 255 behind the header. -/
theorem length_framedIn (type : MsgType) (body : Bytes) :
    (packetEncode (packetLen (body.length + 1)) ++ type.code :: body).length =
      if body.length + 1 = 255 then 258 else packetLen (body.length + 1) := by
  rw [List.length_append, List.length_cons]
  unfold packetEncode packetLen writeInt
  grind

theorem eq_of_unless {α : Type} {c : Prop} [Decidable c] {a b : α}
    (h : (if c then none else some a) = some b) : b = a := by
  split at h
  · cases h
  · exact (Option.some.inj h).symm

/-- A packet is its body with a header for its length. -/
theorem serializeIn_eq_framedIn (n : Nat) (p : Packet) :
    serializeIn n p = framedIn n ((packetBody p).length + 1) (packetMsgType p) (packetBody p) := by
  have hframed {length : Nat} {type : MsgType} {body : Bytes} (h : length = body.length + 1) :
      framedIn n length type body = framedIn n (body.length + 1) type body := by
    rw [h]
  cases p with
  | connect cleanSession duration clientId => exact hframed (by simp; omega)
  | register topicId msgId topicName => exact hframed (by simp; omega)
  | publish dup qos retained msgId topic payload =>
    exact hframed (by simp [length_publishTopic]; omega)
  | subscribe dup qos msgId topic => exact hframed (by simp; omega)
  | unsubscribe msgId topic => exact hframed (by simp; omega)
  | disconnect duration => cases duration <;> rfl
  | regack | puback | pubrec | pingreq => rfl

theorem isFrame_serializeIn {p : Packet} {b : Bytes} {n : Nat} (hb : serializeIn n p = some b)
    (hlen : b.length ≠ 258) (hlt : b.length < 65536) :
    ∃ head, IsFrame b head (packetMsgType p) (packetBody p) := by
  rw [serializeIn_eq_framedIn, framedIn] at hb
  obtain rfl := eq_of_unless hb
  have hsize := length_framedIn (packetMsgType p) (packetBody p)
  have hne : (packetBody p).length + 1 ≠ 255 := fun heq => hlen (hsize.trans (if_pos heq))
  rw [if_neg hne] at hsize
  refine ⟨_, rfl, by rw [hsize], fun junk buflen hfit => ?_⟩
  have hone : 1 < packetLen ((packetBody p).length + 1) := by
    unfold packetLen
    grind
  rw [List.append_assoc, decodeIn_packetEncode hone (hsize ▸ hlt) (hsize ▸ hfit), hsize]

namespace IsFrame

variable {b head body : Bytes} {type : MsgType} (h : IsFrame b head type body)
include h

theorem length_eq : b.length = head.length + (body.length + 1) := by
  rw [h.eq, List.length_append, List.length_cons]

theorem append_eq (junk : Bytes) : b ++ junk = head ++ type.code :: (body ++ junk) := by
  rw [h.eq, List.append_assoc, List.cons_append]

theorem withLength_eq {α : Type} (unset : α) (junk : Bytes) {buflen : Nat} (hfit : b.length ≤ buflen)
    (read : Nat → Nat → Read α) :
    withLength unset (b ++ junk) buflen read = read head.length b.length := by
  rw [withLength, h.decoded junk buflen hfit]

/-- A frame passes the checks of its type. -/
theorem checked_eq {α : Type} (unset : α) (junk : Bytes) {buflen : Nat} (hfit : b.length ≤ buflen)
    (fields : Nat → Nat → α) :
    checked unset (b ++ junk) buflen type fields = (1, fields head.length b.length) := by
  rw [checked, h.withLength_eq unset junk hfit, h.append_eq, byteAt_append, byteAt_cons_zero,
    if_pos ⟨by omega, rfl⟩]

end IsFrame

/-- The payload of a PUBLISH stands behind its topic and its message id. -/
theorem readAs_publish {dup qos msgId : Nat} {retained : Bool} {topic : TopicId}
    {payload b head : Bytes} (hqos : qos < 4)
    (h : IsFrame b head .publish (packetBody (.publish dup qos retained msgId topic payload)))
    (hlt : b.length < 65536) (junk : Bytes) {buflen : Nat} (hfit : b.length ≤ buflen)
    (address : Nat) :
    readAs (b ++ junk) buflen address .publish =
      some (meaning (.publish dup qos retained msgId topic payload)) := by
  have hfield := length_publishTopic topic qos
  have hlength := h.length_eq
  simp [packetBody, hfield] at hlength
  have hmod : qos % 4 = qos := Nat.mod_eq_of_lt hqos
  have hflags : (flagsByte dup qos retained.toNat 0 topic.type).toNat / 32 % 4 = qos := by
    rw [flagsByte_qos, hmod]
  have hbuf : b ++ junk = (head ++ [MsgType.publish.code,
      flagsByte dup qos retained.toNat 0 topic.type]) ++ (publishTopic topic qos ++
        (writeInt msgId ++ (longName topic qos ++ (payload ++ junk)))) := by
    simp [h.append_eq, packetBody]
  obtain ⟨read, hread, htopic⟩ := publishTopicAt_eq
    (topicType_flagsByte dup qos retained.toNat 0 topic.type) hflags (by omega) _ address hbuf rfl
    (show head.length + 2 = _ by simp)
  have hpayload : restAt (b ++ junk) (head.length + 2 + 4 + (longName topic qos).length) b.length =
      payload := by
    refine restAt_between payload junk (show _ = ((head ++ [MsgType.publish.code,
      flagsByte dup qos retained.toNat 0 topic.type]) ++ (publishTopic topic qos ++
        (writeInt msgId ++ longName topic qos))) ++ _ from ?_) ?_ ?_
    · simp [hbuf]
    · simp [hfield]
      omega
    · omega
  have hid : readInt (b ++ junk) (head.length + 4) = msgId % 65536 := by
    refine readInt_between (show _ = (head ++ [MsgType.publish.code,
      flagsByte dup qos retained.toNat 0 topic.type] ++ publishTopic topic qos) ++
        (_ ++ (longName topic qos ++ (payload ++ junk))) from ?_) ?_
    · simp [hbuf]
    · simp [hfield]
  have hretained : decide (retained.toNat % 2 = 1) = retained := by cases retained <;> rfl
  have hbyte : byteAt (b ++ junk) (head.length + 1) =
      (flagsByte dup qos retained.toNat 0 topic.type).toNat := by
    rw [h.append_eq, byteAt_append_length]
    rfl
  rw [readAs, deserializePublish, h.checked_eq _ _ hfit]
  simp only [hbyte, hread, hpayload, hid, heard, meaning]
  simp [hmod, htopic, hretained]

/-- **What one side writes the other reads**: whatever the buffers and whatever lies behind
the packet, but for the length that the header has wrong. -/
theorem readAs_serializeIn {p : Packet} {b : Bytes} {n : Nat} (hb : serializeIn n p = some b)
    (hqos : qosFits p) (hlen : b.length ≠ 258) (hlt : b.length < 65536) (junk : Bytes)
    {buflen : Nat} (hfit : b.length ≤ buflen) (address : Nat) :
    readAs (b ++ junk) buflen address (packetMsgType p) = some (meaning p) := by
  obtain ⟨head, h⟩ := isFrame_serializeIn hb hlen hlt
  cases p with
  | connect cleanSession duration clientId =>
    simp only [packetMsgType, packetBody] at h ⊢
    rw [readAs, deserializeConnect, h.withLength_eq _ _ hfit, h.append_eq, h.length_eq,
      if_neg (by simp [byteAt_append])]
    simp [byteAt_append_length, readInt_append_length, restAt_append_length, heard, meaning]
  | register topicId msgId topicName =>
    simp only [packetMsgType, packetBody] at h ⊢
    rw [readAs, deserializeRegister, h.checked_eq _ _ hfit, h.append_eq, h.length_eq]
    simp [readInt_append_length, restAt_append_length, heard, meaning]
  | regack topicId msgId returnCode =>
    simp only [packetMsgType, packetBody] at h ⊢
    rw [readAs, deserializeRegack, h.checked_eq _ _ hfit, h.append_eq, ackAt]
    simp [Nat.add_assoc, byteAt_append_length, readInt_append_length, heard, meaning]
  | publish dup qos retained msgId topic payload =>
    exact readAs_publish hqos h hlt junk hfit address
  | puback topicId msgId returnCode =>
    simp only [packetMsgType, packetBody] at h ⊢
    rw [readAs, deserializePuback, h.checked_eq _ _ hfit, h.append_eq, ackAt]
    simp [Nat.add_assoc, byteAt_append_length, readInt_append_length, heard, meaning]
  | pubrec msgId =>
    simp only [packetMsgType, packetBody] at h ⊢
    have htype : byteAt (b ++ junk) head.length = 15 := by
      rw [h.append_eq, byteAt_append]
      rfl
    have hid : readInt (b ++ junk) (head.length + 1) = msgId % 65536 := by
      rw [h.append_eq, readInt_append_length, readInt_cons_succ, readInt_writeInt]
    rw [readAs, deserializeAck, h.withLength_eq _ _ hfit]
    simp only [htype, hid, if_neg (show ¬buflen + head.length < b.length by omega)]
    simp [heard, meaning, MsgType.code]
  | subscribe dup qos msgId topic =>
    simp only [packetMsgType, packetBody] at h ⊢
    rw [readAs, deserializeSubscribe, h.checked_eq _ _ hfit, h.append_eq, h.length_eq]
    simp [byteAt_append_length, readInt_append_length, heard, meaning]
    apply topicOf_filterAt (topicType_flagsByte dup qos 0 0 topic.type)
      (head ++ MsgType.subscribe.code :: flagsByte dup qos 0 0 topic.type :: writeInt msgId) junk
    · simp
    · simp
    · omega
  | unsubscribe msgId topic =>
    simp only [packetMsgType, packetBody] at h ⊢
    rw [readAs, deserializeUnsubscribe, h.checked_eq _ _ hfit, h.append_eq, h.length_eq]
    simp [byteAt_append_length, readInt_append_length, heard, meaning]
    apply topicOf_filterAt (topicType_flagsByte 0 0 0 0 topic.type)
      (head ++ MsgType.unsubscribe.code :: flagsByte 0 0 0 0 topic.type :: writeInt msgId) junk
    · simp
    · simp
    · omega
  | pingreq clientId =>
    simp only [packetMsgType, packetBody] at h ⊢
    rw [readAs, deserializePingreq, h.withLength_eq _ _ hfit, h.append_eq, h.length_eq,
      if_neg (by simp [byteAt_append])]
    simp [restAt_append_length, heard, meaning]
  | disconnect duration =>
    simp only [packetMsgType, packetBody] at h ⊢
    rw [readAs, deserializeDisconnect, h.withLength_eq _ _ hfit, h.append_eq, h.length_eq,
      if_neg (by simp [byteAt_append])]
    cases duration with
    | none => simp [heard, meaning]
    | some d => simp [readInt_append_length, heard, meaning]

/-- **What a gateway writes a client reads**, whatever the buffers and whatever lies behind
the packet. An UNSUBACK announces eight bytes, and there has to be room for them. -/
theorem readAs_answer {a : Answer} {b : Bytes} {n : Nat} (hb : a.serializeIn n = some b)
    (hqos : a.qosFits) (hlen : b.length ≠ 258) (hlt : b.length < 65536) (junk : Bytes)
    {buflen : Nat} (hfit : b.length ≤ buflen) (hroom : 8 ≤ buflen) (address : Nat) :
    readAs (b ++ junk) buflen address a.msgType = some a.meaning := by
  have hpacket {p : Packet} (hp : serializeIn n p = some b) (hqos : qosFits p) :
      readAs (b ++ junk) buflen address (packetMsgType p) = some (meaning p) :=
    readAs_serializeIn hp hqos hlen hlt junk hfit address
  cases a with
  | connack returnCode =>
    have hbytes := eq_of_unless hb
    rw [Answer.msgType, readAs, deserializeConnack, withLength, hbytes, List.append_assoc,
      decodeIn_packetEncode (by decide) (by decide) (by omega)]
    simp [byteAt_append, byteAt_append_length, heard, Answer.meaning]
  | register topicId msgId topicName =>
    exact hpacket (p := .register topicId msgId topicName) hb hqos
  | regack topicId msgId returnCode => exact hpacket (p := .regack topicId msgId returnCode) hb hqos
  | publish dup qos retained msgId topic payload =>
    exact hpacket (p := .publish dup qos retained msgId topic payload) hb hqos
  | puback topicId msgId returnCode => exact hpacket (p := .puback topicId msgId returnCode) hb hqos
  | suback qos topicId msgId returnCode =>
    have hbytes := eq_of_unless hb
    have hle : packetLen 7 ≤ buflen := hroom
    rw [Answer.msgType, readAs, deserializeSuback, checked, withLength, hbytes, List.append_assoc,
      decodeIn_packetEncode (by decide) (by decide) hle]
    simp [byteAt_append, byteAt_append_length, readInt_append_length,
      Nat.add_assoc, ackAt, Nat.le_add_right_of_le hle, heard, Answer.meaning]
  | unsuback msgId =>
    have hbytes := eq_of_unless hb
    have hle : packetLen 7 ≤ buflen := hroom
    rw [Answer.msgType, readAs, deserializeUnsuback, checked, withLength, hbytes, List.append_assoc,
      decodeIn_packetEncode (by decide) (by decide) hle]
    simp [byteAt_append, readInt_append_length, Nat.le_add_right_of_le hle, heard, Answer.meaning]
  | pingresp =>
    -- the packet is found too short, and a length of one byte is what success looks like
    have hbytes := eq_of_unless hb
    rw [Answer.msgType, readAs, deserializePingresp, withLength, hbytes, List.append_assoc,
      decodeIn_packetEncode (by decide) (by decide) (by omega)]
    simp [packetEncode, heard, Answer.meaning]
  | disconnect duration => exact hpacket (p := .disconnect duration) hb hqos

end Wire

end LibNbiot
