/-
# MQTT-SN packets

The packets the client builds, byte by byte as the serializers write them, and
the deserializers of the packets it reads. A serializer that finds the packet
too long for the buffer writes nothing.

A deserializer reads a buffer that may be longer than the packet, so the bytes
behind a truncated packet are whatever an earlier packet left there. On an early
exit it returns the number of length bytes, which can be mistaken for success,
and leaves its results unset; unset results are zero here.
-/

import Mathlib.Data.List.Basic

namespace LibNbiot

/-- `MAX_PACKET_SIZE` of the client. -/
def maxPacketSize : Nat := 200

abbrev Bytes := List UInt8

/-! ## Message types -/

/-- `MQTTSN_msgTypes`, as far as the client knows them. -/
inductive MsgType where
  | connect
  | connack
  | register
  | regack
  | publish
  | puback
  | pubrec
  | subscribe
  | suback
  | unsubscribe
  | unsuback
  | pingreq
  | pingresp
  | disconnect
  deriving DecidableEq, Repr

def MsgType.code : MsgType → UInt8
  | .connect => 4
  | .connack => 5
  | .register => 10
  | .regack => 11
  | .publish => 12
  | .puback => 13
  | .pubrec => 15
  | .subscribe => 18
  | .suback => 19
  | .unsubscribe => 20
  | .unsuback => 21
  | .pingreq => 22
  | .pingresp => 23
  | .disconnect => 24

/-- `MQTTSN_topicTypes`. -/
inductive TopicType where
  | normal
  | predefined
  | short
  deriving DecidableEq, Repr

def TopicType.code : TopicType → Nat
  | .normal => 0
  | .predefined => 1
  | .short => 2

/-- `MQTTSN_topicid`. The id shares its storage with the name pointer and with
the two characters of a short name, so storing a name changes the id; the name
itself is kept as the bytes that the pointer and the length describe. -/
structure TopicId where
  type : TopicType := .normal
  id : Nat := 0
  name : Bytes := []
  deriving DecidableEq, Repr

/-! ## Writing -/

/-- `writeInt`. -/
def writeInt (n : Nat) : Bytes := [UInt8.ofNat (n / 256), UInt8.ofNat (n % 256)]

/-- `MQTTSNPacket_len`. -/
def packetLen (length : Nat) : Nat := if 255 < length then length + 3 else length + 1

/-- `MQTTSNPacket_encode`. -/
def packetEncode (length : Nat) : Bytes :=
  if 255 < length then 1 :: writeInt length else [UInt8.ofNat length]

/-- The length check and the two leading fields that every serializer writes. -/
def framed (length : Nat) (type : MsgType) (body : Bytes) : Option Bytes :=
  if maxPacketSize < packetLen length then none
  else some (packetEncode (packetLen length) ++ type.code :: body)

/-- `MQTTSNFlags`: each field is cut to the width it has in the bit field. -/
def flagsByte (dup qos retain cleanSession : Nat) (type : TopicType) : UInt8 :=
  UInt8.ofNat
    (128 * (dup % 2) + 32 * (qos % 4) + 16 * (retain % 2) + 4 * (cleanSession % 2) + type.code)

/-- The packets the client can build, with the fields the serializers read. -/
inductive Packet where
  | connect (cleanSession duration : Nat) (clientId : Bytes)
  | register (topicId msgId : Nat) (topicName : Bytes)
  | regack (topicId msgId returnCode : Nat)
  | publish (dup qos : Nat) (retained : Bool) (msgId : Nat) (topic : TopicId) (payload : Bytes)
  | puback (topicId msgId returnCode : Nat)
  | pubrec (msgId : Nat)
  | subscribe (dup qos msgId : Nat) (topic : TopicId)
  | unsubscribe (msgId : Nat) (topic : TopicId)
  | pingreq (clientId : Bytes)
  | disconnect (duration : Option Nat)
  deriving DecidableEq, Repr

/-- The topic field of a PUBLISH: a name only for QoS -1 and the id otherwise,
which for a short name are its two characters in storage order. -/
def publishTopic (topic : TopicId) (qos : Nat) : Bytes :=
  match topic.type with
  | .normal => if qos = 3 then writeInt topic.name.length else writeInt topic.id
  | .predefined => writeInt topic.id
  | .short => [UInt8.ofNat topic.id, UInt8.ofNat (topic.id / 256)]

/-- The topic field of a SUBSCRIBE or UNSUBSCRIBE. -/
def filterTopic (topic : TopicId) : Bytes :=
  match topic.type with
  | .normal => topic.name
  | .predefined => writeInt topic.id
  | .short => [UInt8.ofNat topic.id, UInt8.ofNat (topic.id / 256)]

/-- `MQTTSNSerialize_connect` and its siblings. -/
def Packet.serialize : Packet → Option Bytes
  | .connect cleanSession duration clientId =>
      framed (5 + clientId.length) .connect
        (flagsByte 0 0 0 cleanSession .normal :: 1 :: writeInt duration ++ clientId)
  | .register topicId msgId topicName =>
      framed (topicName.length + 5) .register (writeInt topicId ++ writeInt msgId ++ topicName)
  | .regack topicId msgId returnCode =>
      framed 6 .regack (writeInt topicId ++ writeInt msgId ++ [UInt8.ofNat returnCode])
  | .publish dup qos retained msgId topic payload =>
      let longName := if topic.type = .normal ∧ qos = 3 then topic.name else []
      framed (payload.length + 6 + longName.length) .publish
        (flagsByte dup qos retained.toNat 0 topic.type :: publishTopic topic qos ++
          writeInt msgId ++ longName ++ payload)
  | .puback topicId msgId returnCode =>
      framed 6 .puback (writeInt topicId ++ writeInt msgId ++ [UInt8.ofNat returnCode])
  | .pubrec msgId => some (packetEncode 4 ++ MsgType.pubrec.code :: writeInt msgId)
  | .subscribe dup qos msgId topic =>
      framed (4 + (filterTopic topic).length) .subscribe
        (flagsByte dup qos 0 0 topic.type :: writeInt msgId ++ filterTopic topic)
  | .unsubscribe msgId topic =>
      framed (4 + (filterTopic topic).length) .unsubscribe
        (flagsByte 0 0 0 0 topic.type :: writeInt msgId ++ filterTopic topic)
  | .pingreq clientId => framed (clientId.length + 1) .pingreq clientId
  | .disconnect duration =>
      match duration with
      | some d => framed 3 .disconnect (writeInt d)
      | none => framed 1 .disconnect []

/-! ## Reading -/

def byteAt (buf : Bytes) (i : Nat) : Nat := (buf.getD i 0).toNat

/-- `readInt`. -/
def readInt (buf : Bytes) (i : Nat) : Nat := 256 * byteAt buf i + byteAt buf (i + 1)

/-- `MQTTSNPacket_decode`: the number of length bytes and the length. -/
def packetDecode (buf : Bytes) : Nat × Nat :=
  if byteAt buf 0 = 1 then (3, readInt buf 1) else (1, byteAt buf 0)

/-- The packet type behind the length field. -/
def packetType (buf : Bytes) : Nat := byteAt buf (packetDecode buf).1

/-- The checks that most deserializers start with. -/
def headerOk (buf : Bytes) (type : MsgType) : Prop :=
  (packetDecode buf).2 ≤ maxPacketSize + (packetDecode buf).1 ∧
    packetType buf = type.code.toNat

instance (buf : Bytes) (type : MsgType) : Decidable (headerOk buf type) :=
  inferInstanceAs (Decidable (_ ∧ _))

/-- `MQTTSNDeserialize_connack`: the return code is left alone when the packet
is too short. -/
def deserializeConnack (buf : Bytes) (connackRc : Nat) : Nat × Nat :=
  let (lenlen, len) := packetDecode buf
  if 3 ≤ len ∧ packetType buf = MsgType.connack.code.toNat then (1, byteAt buf (lenlen + 1))
  else (lenlen, connackRc)

/-- The topic id, the message id and the return code of an acknowledgement. -/
structure Ack where
  topicId : Nat := 0
  msgId : Nat := 0
  returnCode : Nat := 0
  deriving DecidableEq, Repr

/-- `MQTTSNDeserialize_regack`. -/
def deserializeRegack (buf : Bytes) : Nat × Ack :=
  let (lenlen, _) := packetDecode buf
  if headerOk buf .regack then
    (1, ⟨readInt buf (lenlen + 1), readInt buf (lenlen + 3), byteAt buf (lenlen + 5)⟩)
  else (lenlen, {})

/-- `MQTTSNDeserialize_puback`. -/
def deserializePuback (buf : Bytes) : Nat × Ack :=
  let (lenlen, _) := packetDecode buf
  if headerOk buf .puback then
    (1, ⟨readInt buf (lenlen + 1), readInt buf (lenlen + 3), byteAt buf (lenlen + 5)⟩)
  else (lenlen, {})

/-- `MQTTSNDeserialize_suback`; the granted QoS is not used. -/
def deserializeSuback (buf : Bytes) : Nat × Ack :=
  let (lenlen, _) := packetDecode buf
  if headerOk buf .suback then
    (1, ⟨readInt buf (lenlen + 2), readInt buf (lenlen + 4), byteAt buf (lenlen + 6)⟩)
  else (lenlen, {})

/-- `MQTTSNDeserialize_unsuback`. -/
def deserializeUnsuback (buf : Bytes) : Nat × Nat :=
  let (lenlen, _) := packetDecode buf
  if headerOk buf .unsuback then (1, readInt buf (lenlen + 1)) else (lenlen, 0)

/-- `MQTTSNDeserialize_disconnect`: the return code, the duration not being
used. -/
def deserializeDisconnect (buf : Bytes) : Nat :=
  let (lenlen, len) := packetDecode buf
  if lenlen < len ∧ packetType buf = MsgType.disconnect.code.toNat ∧
      (len = lenlen + 3 ∨ len = lenlen + 1) then 1
  else lenlen

/-- A REGISTER of the gateway. -/
structure RegisterData where
  topicId : Nat := 0
  packetId : Nat := 0
  topicName : Bytes := []
  deriving DecidableEq, Repr

/-- `MQTTSNDeserialize_register`. A packet one byte too short has a name of
length -1, which the string type takes for a name up to the next zero byte. -/
def deserializeRegister (buf : Bytes) : Nat × RegisterData :=
  let (lenlen, len) := packetDecode buf
  if headerOk buf .register then
    let rest := buf.drop (lenlen + 5)
    let topicName :=
      if len + 1 = lenlen + 5 then rest.takeWhile (· ≠ 0) else rest.take (len - (lenlen + 5))
    (1, ⟨readInt buf (lenlen + 1), readInt buf (lenlen + 3), topicName⟩)
  else (lenlen, {})

/-- A PUBLISH of the gateway. -/
structure PublishData where
  dup : Bool := false
  qos : Nat := 0
  retained : Bool := false
  packetId : Nat := 0
  topic : TopicId := {}
  payload : Bytes := []
  deriving DecidableEq, Repr

/-- `MQTTSNDeserialize_publish`. In a QoS -1 packet with a long name nothing is
stored as the id; the storage then holds part of the address of the name, which
is handed in. -/
def deserializePublish (buf : Bytes) (address : Nat) : Nat × PublishData :=
  let (lenlen, len) := packetDecode buf
  if headerOk buf .publish then
    let flags := byteAt buf (lenlen + 1)
    let qos := flags / 32 % 4
    let type := if flags % 4 = 2 then TopicType.short
      else if flags % 4 = 1 then .predefined else .normal
    let field := readInt buf (lenlen + 2)
    let cur := lenlen + 6
    let (topic, cur) :=
      match type with
      | .normal =>
          if qos = 3 then (⟨.normal, address % 65536, (buf.drop cur).take field⟩, cur + field)
          else (⟨.normal, field, []⟩, cur)
      | .predefined => (⟨.predefined, field, []⟩, cur)
      | .short => (⟨.short, byteAt buf (lenlen + 2) + 256 * byteAt buf (lenlen + 3), []⟩, cur)
    (1, ⟨flags / 128 % 2 = 1, qos, flags / 16 % 2 = 1, readInt buf (lenlen + 4), topic,
      (buf.drop cur).take (len - cur)⟩)
  else (lenlen, {})

/-! ## Well-formedness -/

theorem framed_eq_some {length : Nat} {type : MsgType} {body b : Bytes}
    (h : framed length type body = some b) :
    packetLen length ≤ maxPacketSize ∧ b = packetEncode (packetLen length) ++ type.code :: body := by
  unfold framed at h
  split at h
  · cases h
  · exact ⟨by omega, by simpa using h.symm⟩

/-- The length field of a packet that fits the buffer is a single byte. -/
theorem packetEncode_of_le {length : Nat} (h : packetLen length ≤ maxPacketSize) :
    packetEncode (packetLen length) = [UInt8.ofNat (packetLen length)] ∧
      packetLen length = length + 1 := by
  have hlen : ¬ 255 < length := by
    intro hlt
    simp only [packetLen, if_pos hlt, maxPacketSize] at h
    omega
  have hpl : packetLen length = length + 1 := by simp [packetLen, hlen]
  refine ⟨?_, hpl⟩
  rw [hpl]
  rw [hpl] at h
  simp only [maxPacketSize] at h
  simp only [packetEncode, ite_eq_right_iff]
  omega

/-- No packet is empty. -/
theorem Packet.serialize_pos {p : Packet} {b : Bytes} (h : p.serialize = some b) :
    0 < b.length := by
  have hframed {length : Nat} {type : MsgType} {body : Bytes}
      (h : framed length type body = some b) : 0 < b.length := by
    rw [(framed_eq_some h).2, List.length_append, List.length_cons]
    omega
  cases p with
  | pubrec msgId =>
    obtain rfl := Option.some.inj h
    exact Nat.succ_pos _
  | disconnect duration => cases duration <;> exact hframed h
  | _ => exact hframed h

/-- A framed packet is as long as its length field says. -/
theorem framed_length {length : Nat} {type : MsgType} {body b : Bytes}
    (h : framed length type body = some b) (hbody : body.length + 1 = length) :
    b.length = packetLen length := by
  obtain ⟨hle, rfl⟩ := framed_eq_some h
  obtain ⟨henc, hlen⟩ := packetEncode_of_le hle
  rw [henc, hlen]
  simp
  omega

end LibNbiot
