/-
# The packet library

The functions that both sides share: a client writes what a gateway reads, and the
other way round, each with a buffer of its own length. The client's model uses them
with a buffer of `maxPacketSize` bytes; here the length is whatever it is.

As there, a deserializer that stops early returns the number of length bytes, or -1
where it could not read them, and leaves the rest of its results unset; unset results
are zero here.
-/

import LibNbiot.Packet

namespace LibNbiot

namespace Wire

/-! ## Headers -/

/-- `MQTTSNPACKET_READ_ERROR`. -/
def readError : Int := -1

/-- `MQTTSNPacket_decode(buf, buflen)`: nothing where it is a read error. -/
def decodeIn (buf : Bytes) (buflen : Nat) : Option (Nat × Nat) :=
  if buflen = 0 then none
  else if byteAt buf 0 = 1 ∧ buflen < 3 then none
  else some (packetDecode buf)

/-- `MQTTSNPacket_read` of a datagram: the packet type. -/
def packetRead (datagram : Bytes) (buflen : Nat) : Int :=
  let buf := datagram.take buflen
  if buf.length < 3 then readError
  else
    match decodeIn buf buf.length with
    | none => readError
    | some (lenlen, len) => if len = buf.length then byteAt buf lenlen else readError

/-- What a deserializer returns, and what it sets. -/
abbrev Read (α : Type) := Int × α

/-- Read the length field and go on. Where that is not possible the source goes on in front
of the buffer; here it stops. -/
def withLength {α : Type} (unset : α) (buf : Bytes) (buflen : Nat)
    (read : Nat → Nat → Read α) : Read α :=
  match decodeIn buf buflen with
  | none => (readError, unset)
  | some (lenlen, len) => read lenlen len

/-- The checks that most deserializers start with, in front of what they set. -/
def checked {α : Type} (unset : α) (buf : Bytes) (buflen : Nat) (type : MsgType)
    (fields : Nat → Nat → α) : Read α :=
  withLength unset buf buflen fun lenlen len =>
    if len ≤ buflen + lenlen ∧ byteAt buf lenlen = type.code.toNat then (1, fields lenlen len)
    else (lenlen, unset)

/-! ## Reading -/

/-- The bytes from a position up to the end of the packet. -/
def restAt (buf : Bytes) (cur len : Nat) : Bytes := (buf.drop cur).take (len - cur)

/-- `topicIdType` of the flags. -/
def topicType (flags : Nat) : TopicType :=
  if flags % 4 = 2 then .short else if flags % 4 = 1 then .predefined else .normal

/-- `MQTTSNPacket_connectData`, as far as it is read. -/
structure ConnectData where
  cleanSession : Nat := 0
  willFlag : Nat := 0
  duration : Nat := 0
  clientId : Bytes := []
  deriving DecidableEq, Repr

/-- `MQTTSNDeserialize_connect`. The flags are set before the protocol version is
looked at. -/
def deserializeConnect (buf : Bytes) (buflen : Nat) : Read ConnectData :=
  withLength {} buf buflen fun lenlen len =>
    if len < lenlen + 2 ∨ byteAt buf lenlen ≠ MsgType.connect.code.toNat then (lenlen, {})
    else
      let flags := byteAt buf (lenlen + 1)
      let data : ConnectData := { cleanSession := flags / 4 % 2, willFlag := flags / 8 % 2 }
      if byteAt buf (lenlen + 2) ≠ 1 then (lenlen, data)
      else
        let data : ConnectData :=
          { data with
            duration := readInt buf (lenlen + 3)
            clientId := restAt buf (lenlen + 5) len }
        (1, data)

/-- `MQTTSNDeserialize_connack`. -/
def deserializeConnack (buf : Bytes) (buflen : Nat) : Read Nat :=
  withLength 0 buf buflen fun lenlen len =>
    if len < 3 ∨ byteAt buf lenlen ≠ MsgType.connack.code.toNat then (lenlen, 0)
    else (1, byteAt buf (lenlen + 1))

/-- `MQTTSNDeserialize_pingreq`. -/
def deserializePingreq (buf : Bytes) (buflen : Nat) : Read Bytes :=
  withLength [] buf buflen fun lenlen len =>
    if len < lenlen + 1 ∨ byteAt buf lenlen ≠ MsgType.pingreq.code.toNat then (lenlen, [])
    else (1, restAt buf (lenlen + 1) len)

/-- `MQTTSNDeserialize_pingresp`: a PINGRESP is found too short, and the number of its
length bytes returned. -/
def deserializePingresp (buf : Bytes) (buflen : Nat) : Read Unit :=
  withLength () buf buflen fun lenlen len =>
    if len < lenlen + 2 ∨ byteAt buf lenlen ≠ MsgType.pingresp.code.toNat then (lenlen, ())
    else (1, ())

/-- `MQTTSNDeserialize_disconnect`, with the duration if there is one. -/
def deserializeDisconnect (buf : Bytes) (buflen : Nat) : Read (Option Nat) :=
  withLength none buf buflen fun lenlen len =>
    if len < lenlen + 1 ∨ byteAt buf lenlen ≠ MsgType.disconnect.code.toNat then (lenlen, none)
    else if len = lenlen + 3 then (1, some (readInt buf (lenlen + 1)))
    else if len = lenlen + 1 then (1, none)
    else (lenlen, none)

/-- `MQTTSNDeserialize_ack`: PUBCOMP, PUBREC or PUBREL. The packet type is set even when it
is none of them. -/
def deserializeAck (buf : Bytes) (buflen : Nat) : Read (Nat × Nat) :=
  withLength (0, 0) buf buflen fun lenlen len =>
    let type := byteAt buf lenlen
    if buflen + lenlen < len then (lenlen, (0, 0))
    else if type = 16 ∨ type = 15 ∨ type = 14 then (1, (type, readInt buf (lenlen + 1)))
    else (lenlen, (type, 0))

/-- The three fields of a REGACK or a PUBACK. -/
def ackAt (buf : Bytes) (cur : Nat) : Ack :=
  ⟨readInt buf cur, readInt buf (cur + 2), byteAt buf (cur + 4)⟩

/-- `MQTTSNDeserialize_regack`. -/
def deserializeRegack (buf : Bytes) (buflen : Nat) : Read Ack :=
  checked {} buf buflen .regack fun lenlen _ => ackAt buf (lenlen + 1)

/-- `MQTTSNDeserialize_puback`. -/
def deserializePuback (buf : Bytes) (buflen : Nat) : Read Ack :=
  checked {} buf buflen .puback fun lenlen _ => ackAt buf (lenlen + 1)

/-- `MQTTSNDeserialize_suback`, with the granted QoS. -/
def deserializeSuback (buf : Bytes) (buflen : Nat) : Read (Nat × Ack) :=
  checked (0, {}) buf buflen .suback fun lenlen _ =>
    (byteAt buf (lenlen + 1) / 32 % 4, ackAt buf (lenlen + 2))

/-- `MQTTSNDeserialize_unsuback`. -/
def deserializeUnsuback (buf : Bytes) (buflen : Nat) : Read Nat :=
  checked 0 buf buflen .unsuback fun lenlen _ => readInt buf (lenlen + 1)

/-- A SUBSCRIBE or UNSUBSCRIBE. -/
structure FilterData where
  dup : Bool := false
  qos : Nat := 0
  packetId : Nat := 0
  topicFilter : TopicId := {}
  deriving DecidableEq, Repr

/-- The topic filter behind the message id. -/
def filterAt (buf : Bytes) (flags cur len : Nat) : TopicId :=
  match topicType flags with
  | .normal => { type := .normal, name := restAt buf cur len }
  | .predefined => { type := .predefined, id := readInt buf cur }
  | .short => { type := .short, id := byteAt buf cur + 256 * byteAt buf (cur + 1) }

/-- `MQTTSNDeserialize_subscribe`. -/
def deserializeSubscribe (buf : Bytes) (buflen : Nat) : Read FilterData :=
  checked {} buf buflen .subscribe fun lenlen len =>
    let flags := byteAt buf (lenlen + 1)
    { dup := flags / 128 % 2 = 1
      qos := flags / 32 % 4
      packetId := readInt buf (lenlen + 2)
      topicFilter := filterAt buf flags (lenlen + 4) len }

/-- `MQTTSNDeserialize_unsubscribe`: of the flags, only the topic type is used. -/
def deserializeUnsubscribe (buf : Bytes) (buflen : Nat) : Read FilterData :=
  checked {} buf buflen .unsubscribe fun lenlen len =>
    { packetId := readInt buf (lenlen + 2)
      topicFilter := filterAt buf (byteAt buf (lenlen + 1)) (lenlen + 4) len }

/-- `MQTTSNDeserialize_register`; a name of negative length is empty here. -/
def deserializeRegister (buf : Bytes) (buflen : Nat) : Read RegisterData :=
  checked {} buf buflen .register fun lenlen len =>
    ⟨readInt buf (lenlen + 1), readInt buf (lenlen + 3), restAt buf (lenlen + 5) len⟩

/-- The topic of a PUBLISH and where its payload begins. Behind a long name the storage
of the id holds part of the address of the name. -/
def publishTopicAt (buf : Bytes) (flags cur address : Nat) : TopicId × Nat :=
  match topicType flags with
  | .normal =>
      let field := readInt buf cur
      if flags / 32 % 4 = 3 then
        (⟨.normal, address % 65536, (buf.drop (cur + 4)).take field⟩, cur + 4 + field)
      else (⟨.normal, field, []⟩, cur + 4)
  | .predefined => (⟨.predefined, readInt buf cur, []⟩, cur + 4)
  | .short => (⟨.short, byteAt buf cur + 256 * byteAt buf (cur + 1), []⟩, cur + 4)

/-- `MQTTSNDeserialize_publish`. -/
def deserializePublish (buf : Bytes) (buflen address : Nat) : Read PublishData :=
  checked {} buf buflen .publish fun lenlen len =>
    let flags := byteAt buf (lenlen + 1)
    let (topic, cur) := publishTopicAt buf flags (lenlen + 2) address
    ⟨flags / 128 % 2 = 1, flags / 32 % 4, flags / 16 % 2 = 1, readInt buf (lenlen + 4), topic,
      restAt buf cur len⟩

/-! ## Writing -/

/-- The length check and the two leading fields. -/
def framedIn (buflen length : Nat) (type : MsgType) (body : Bytes) : Option Bytes :=
  if buflen < packetLen length then none
  else some (packetEncode (packetLen length) ++ type.code :: body)

/-- `MQTTSNSerialize_connect` and its siblings: the packets of a client, some of which the
gateway sends too. -/
def serializeIn (buflen : Nat) : Packet → Option Bytes
  | .connect cleanSession duration clientId =>
      framedIn buflen (5 + clientId.length) .connect
        (flagsByte 0 0 0 cleanSession .normal :: 1 :: writeInt duration ++ clientId)
  | .register topicId msgId topicName =>
      framedIn buflen (topicName.length + 5) .register
        (writeInt topicId ++ writeInt msgId ++ topicName)
  | .regack topicId msgId returnCode =>
      framedIn buflen 6 .regack (writeInt topicId ++ writeInt msgId ++ [UInt8.ofNat returnCode])
  | .publish dup qos retained msgId topic payload =>
      let longName := if topic.type = .normal ∧ qos = 3 then topic.name else []
      framedIn buflen (payload.length + 6 + longName.length) .publish
        (flagsByte dup qos retained.toNat 0 topic.type :: publishTopic topic qos ++
          writeInt msgId ++ longName ++ payload)
  | .puback topicId msgId returnCode =>
      framedIn buflen 6 .puback (writeInt topicId ++ writeInt msgId ++ [UInt8.ofNat returnCode])
  | .pubrec msgId =>
      if buflen < 4 then none
      else some (packetEncode 4 ++ MsgType.pubrec.code :: writeInt msgId)
  | .subscribe dup qos msgId topic =>
      framedIn buflen (4 + (filterTopic topic).length) .subscribe
        (flagsByte dup qos 0 0 topic.type :: writeInt msgId ++ filterTopic topic)
  | .unsubscribe msgId topic =>
      framedIn buflen (4 + (filterTopic topic).length) .unsubscribe
        (flagsByte 0 0 0 0 topic.type :: writeInt msgId ++ filterTopic topic)
  | .pingreq clientId => framedIn buflen (clientId.length + 1) .pingreq clientId
  | .disconnect duration =>
      match duration with
      | some d => framedIn buflen 3 .disconnect (writeInt d)
      | none => framedIn buflen 1 .disconnect []

/-- The packets of a gateway, with the fields the serializers read. -/
inductive Answer where
  | connack (returnCode : Nat)
  | register (topicId msgId : Nat) (topicName : Bytes)
  | regack (topicId msgId returnCode : Nat)
  | publish (dup qos : Nat) (retained : Bool) (msgId : Nat) (topic : TopicId) (payload : Bytes)
  | puback (topicId msgId returnCode : Nat)
  | suback (qos topicId msgId returnCode : Nat)
  | unsuback (msgId : Nat)
  | pingresp
  | disconnect (duration : Option Nat)
  deriving DecidableEq, Repr

/-- `MQTTSNSerialize_connack` and its siblings. The length of an UNSUBACK is counted as
if it had the fields of a SUBACK. -/
def Answer.serializeIn (buflen : Nat) : Answer → Option Bytes
  | .connack returnCode =>
      if buflen < 3 then none
      else some (packetEncode 3 ++ MsgType.connack.code :: [UInt8.ofNat returnCode])
  | .register topicId msgId topicName =>
      Wire.serializeIn buflen (.register topicId msgId topicName)
  | .regack topicId msgId returnCode =>
      Wire.serializeIn buflen (.regack topicId msgId returnCode)
  | .publish dup qos retained msgId topic payload =>
      Wire.serializeIn buflen (.publish dup qos retained msgId topic payload)
  | .puback topicId msgId returnCode =>
      Wire.serializeIn buflen (.puback topicId msgId returnCode)
  | .suback qos topicId msgId returnCode =>
      framedIn buflen 7 .suback (flagsByte 0 qos 0 0 .normal ::
        writeInt topicId ++ writeInt msgId ++ [UInt8.ofNat returnCode])
  | .unsuback msgId => framedIn buflen 7 .unsuback (writeInt msgId)
  | .pingresp =>
      if buflen < 2 then none else some (packetEncode 2 ++ [MsgType.pingresp.code])
  | .disconnect duration => Wire.serializeIn buflen (.disconnect duration)

/-- What a client writes is what the library writes into its buffer. -/
theorem serialize_eq_serializeIn (p : Packet) : p.serialize = serializeIn maxPacketSize p := by
  cases p with
  | disconnect duration => cases duration <;> rfl
  | _ => rfl

end Wire

end LibNbiot
