/-
# Both sides of a connection

The client's deserializers are those of the packet library, with a buffer of
`maxPacketSize` bytes. So the gateway hears what the client says, whatever its own
buffer, and the client hears what the gateway says, if it is not too long for the
client's buffer.
-/

import LibNbiot.Wire.Messages

namespace LibNbiot

namespace Wire

/-! ## The client's deserializers -/

/-- What a deserializer of the client returns and sets. -/
def ofClient {α : Type} (read : Nat × α) : Read α := (read.1, read.2)

theorem decodeIn_maxPacketSize (buf : Bytes) :
    decodeIn buf maxPacketSize = some (packetDecode buf) := by
  simp [decodeIn, maxPacketSize]

theorem withLength_maxPacketSize {α : Type} (unset : α) (buf : Bytes)
    (read : Nat → Nat → Read α) :
    withLength unset buf maxPacketSize read = read (packetDecode buf).1 (packetDecode buf).2 := by
  rw [withLength, decodeIn_maxPacketSize]

/-- The client's way to check a header. -/
theorem checked_maxPacketSize {α : Type} (unset : α) (buf : Bytes) (type : MsgType)
    (fields : Nat → Nat → α) :
    checked unset buf maxPacketSize type fields =
      ofClient (if headerOk buf type then (1, fields (packetDecode buf).1 (packetDecode buf).2)
        else ((packetDecode buf).1, unset)) := by
  rw [checked, withLength_maxPacketSize]
  by_cases h : headerOk buf type
  · rw [if_pos h]
    exact if_pos h
  · rw [if_neg h]
    exact if_neg h

theorem ofClient_connack (buf : Bytes) :
    ofClient (LibNbiot.deserializeConnack buf 0) = deserializeConnack buf maxPacketSize := by
  rw [deserializeConnack, withLength_maxPacketSize]
  unfold ofClient LibNbiot.deserializeConnack packetType
  grind

theorem ofClient_regack (buf : Bytes) :
    ofClient (LibNbiot.deserializeRegack buf) = deserializeRegack buf maxPacketSize := by
  rw [deserializeRegack, checked_maxPacketSize]
  rfl

theorem ofClient_puback (buf : Bytes) :
    ofClient (LibNbiot.deserializePuback buf) = deserializePuback buf maxPacketSize := by
  rw [deserializePuback, checked_maxPacketSize]
  rfl

theorem ofClient_unsuback (buf : Bytes) :
    ofClient (LibNbiot.deserializeUnsuback buf) = deserializeUnsuback buf maxPacketSize := by
  rw [deserializeUnsuback, checked_maxPacketSize]
  rfl

/-- The client has no use for the granted QoS. -/
theorem ofClient_suback (buf : Bytes) :
    ofClient (LibNbiot.deserializeSuback buf) =
      ((deserializeSuback buf maxPacketSize).1, (deserializeSuback buf maxPacketSize).2.2) := by
  rw [deserializeSuback, checked_maxPacketSize]
  unfold ofClient LibNbiot.deserializeSuback ackAt
  grind

/-- The client has no use for the duration. -/
theorem ofClient_disconnect (buf : Bytes) :
    (LibNbiot.deserializeDisconnect buf : Int) = (deserializeDisconnect buf maxPacketSize).1 := by
  rw [deserializeDisconnect, withLength_maxPacketSize]
  unfold LibNbiot.deserializeDisconnect packetType
  grind

/-- A REGISTER with all its fields. -/
theorem ofClient_register {buf : Bytes} (h : (packetDecode buf).1 + 5 ≤ (packetDecode buf).2) :
    ofClient (LibNbiot.deserializeRegister buf) = deserializeRegister buf maxPacketSize := by
  rw [deserializeRegister, checked_maxPacketSize]
  unfold LibNbiot.deserializeRegister restAt
  simp only [if_neg (show ¬(packetDecode buf).2 + 1 = (packetDecode buf).1 + 5 by omega)]

theorem ofClient_publish (buf : Bytes) (address : Nat) :
    ofClient (LibNbiot.deserializePublish buf address) =
      deserializePublish buf maxPacketSize address := by
  rw [deserializePublish, checked_maxPacketSize]
  rfl

/-- What the client makes of a message: it has no use for a granted QoS or for the
duration of a DISCONNECT. -/
def Message.forClient : Message → Message
  | .suback _ topicId msgId returnCode => .suback (qosOf 0) topicId msgId returnCode
  | .disconnect _ => .disconnect none
  | m => m

/-- What a packet of some type is read as by the client's deserializers. A PINGRESP is
known by its type alone. -/
def clientReads (buf : Bytes) (address : Nat) : MsgType → Option Message
  | .connack => heard (ofClient (LibNbiot.deserializeConnack buf 0)) fun rc => .connack (.ofNat rc)
  | .register => heard (ofClient (LibNbiot.deserializeRegister buf)) fun d =>
      .register (.ofNat d.topicId) (.ofNat d.packetId) d.topicName
  | .regack => heard (ofClient (LibNbiot.deserializeRegack buf)) fun a =>
      .regack (.ofNat a.topicId) (.ofNat a.msgId) (.ofNat a.returnCode)
  | .publish => heard (ofClient (LibNbiot.deserializePublish buf address)) fun d =>
      .publish d.dup d.retained (qosOf d.qos) (topicOf d.topic (d.qos = 3))
        (.ofNat d.packetId) d.payload
  | .puback => heard (ofClient (LibNbiot.deserializePuback buf)) fun a =>
      .puback (.ofNat a.topicId) (.ofNat a.msgId) (.ofNat a.returnCode)
  | .suback => heard (ofClient (LibNbiot.deserializeSuback buf)) fun a =>
      .suback (qosOf 0) (.ofNat a.topicId) (.ofNat a.msgId) (.ofNat a.returnCode)
  | .unsuback => heard (ofClient (LibNbiot.deserializeUnsuback buf)) fun id => .unsuback (.ofNat id)
  | .pingresp => heard (1, packetType buf) fun _ => .pingresp
  | .disconnect => heard ((LibNbiot.deserializeDisconnect buf : Int), ()) fun _ => .disconnect none
  | _ => none

/-! ## Hearing each other -/

theorem packetDecode_of_decodeIn {buf : Bytes} {buflen : Nat} {header : Nat × Nat}
    (h : decodeIn buf buflen = some header) : packetDecode buf = header := by
  unfold decodeIn at h
  split at h
  · cases h
  · exact (eq_of_unless h).symm

theorem IsFrame.packetType_eq {b head body : Bytes} {type : MsgType} (h : IsFrame b head type body)
    (junk : Bytes) : packetType (b ++ junk) = type.code.toNat := by
  rw [packetType, packetDecode_of_decodeIn (h.decoded junk _ (Nat.le_refl _)), h.append_eq,
    byteAt_append]
  rfl

theorem packetType_packetEncode {m : Nat} (hm : 1 < m) (hlt : m < 65536) (type : MsgType)
    (body : Bytes) : packetType (packetEncode m ++ type.code :: body) = type.code.toNat := by
  rw [packetType, packetDecode_of_decodeIn (decodeIn_packetEncode hm hlt (Nat.le_refl m) _),
    byteAt_append]
  rfl

theorem length_serialize_le {p : Packet} {b : Bytes} (hb : p.serialize = some b) :
    b.length ≤ maxPacketSize := by
  rw [serialize_eq_serializeIn, serializeIn_eq_framedIn, framedIn] at hb
  split at hb
  · cases hb
  · rename_i hfit
    obtain rfl := Option.some.inj hb
    rw [length_framedIn]
    unfold packetLen maxPacketSize at *
    grind

/-- A packet that fits the client's buffer is well below the lengths with a wrong header. -/
theorem length_bounds {b : Bytes} (h : b.length ≤ maxPacketSize) :
    b.length ≠ 258 ∧ b.length < 65536 := by
  simp only [maxPacketSize] at h
  omega

/-- **The gateway hears the client**: what the client serializes is read with its own type
and fields, in any buffer that it fits, whatever is behind it. -/
theorem readAs_serialize {p : Packet} {b : Bytes} (hb : p.serialize = some b) (hqos : qosFits p)
    (junk : Bytes) {buflen : Nat} (hfit : b.length ≤ buflen) (address : Nat) :
    packetType (b ++ junk) = (packetMsgType p).code.toNat ∧
      readAs (b ++ junk) buflen address (packetMsgType p) = some (meaning p) := by
  obtain ⟨hlen, hlt⟩ := length_bounds (length_serialize_le hb)
  rw [serialize_eq_serializeIn] at hb
  obtain ⟨head, h⟩ := isFrame_serializeIn hb hlen hlt
  exact ⟨h.packetType_eq junk, readAs_serializeIn hb hqos hlen hlt junk hfit address⟩

/-- What the client has no use for is heard all the same. -/
theorem heard_forClient {α β : Type} {read : Read α} {message : α → Message} {m : Message}
    (h : heard read message = some m) (use : α → β) {forClient : β → Message}
    (huse : ∀ a, forClient (use a) = (message a).forClient) :
    heard (read.1, use read.2) forClient = some m.forClient := by
  unfold heard at h ⊢
  split at h
  · rename_i hone
    rw [if_pos hone, huse, Option.some.inj h]
  · cases h

theorem IsFrame.head_pos {b head body : Bytes} {type : MsgType} (h : IsFrame b head type body) :
    0 < head.length := by
  have hdecode := packetDecode_of_decodeIn (h.decoded [] _ (Nat.le_refl _))
  rw [packetDecode] at hdecode
  split at hdecode
  · have hthree : 3 = head.length := congrArg Prod.fst hdecode
    omega
  · have hone : 1 = head.length := congrArg Prod.fst hdecode
    omega

/-- The packets that are nothing but their type. -/
theorem packetBody_eq_nil {p : Packet} (h : packetBody p = []) :
    p = .pingreq [] ∨ p = .disconnect none := by
  cases p with
  | pingreq clientId =>
    obtain rfl : clientId = [] := h
    exact .inl rfl
  | disconnect duration =>
    cases duration with
    | none => exact .inr rfl
    | some d => cases h
  | _ => simp [packetBody, writeInt] at h

/-- **The library reads every datagram of the client but two**: an automatic PINGREQ and a
DISCONNECT without a duration are shorter than the shortest packet it takes. -/
theorem packetRead_serialize {p : Packet} {b : Bytes} (hb : p.serialize = some b) {buflen : Nat}
    (hfit : b.length ≤ buflen) :
    packetRead b buflen =
      if p = .pingreq [] ∨ p = .disconnect none then readError
      else ((packetMsgType p).code.toNat : Int) := by
  obtain ⟨hlen, hlt⟩ := length_bounds (length_serialize_le hb)
  by_cases hshort : p = .pingreq [] ∨ p = .disconnect none
  · have htwo : b.length = 2 := by
      obtain rfl | rfl := hshort
      · exact congrArg List.length (Option.some.inj hb).symm
      · exact congrArg List.length (Option.some.inj hb).symm
    rw [if_pos hshort, packetRead, List.take_of_length_le hfit, htwo]
    rfl
  · rw [serialize_eq_serializeIn] at hb
    obtain ⟨head, h⟩ := isFrame_serializeIn hb hlen hlt
    have hbody : 0 < (packetBody p).length :=
      List.length_pos_iff.2 fun hnil => hshort (packetBody_eq_nil hnil)
    have hthree : ¬b.length < 3 := by
      have := h.length_eq
      have := h.head_pos
      omega
    have hdecode := h.decoded [] _ (Nat.le_refl _)
    have htype : byteAt b head.length = (packetMsgType p).code.toNat := by
      rw [h.eq, byteAt_append]
      rfl
    rw [List.append_nil] at hdecode
    rw [if_neg hshort, packetRead, List.take_of_length_le hfit, if_neg hthree, hdecode]
    simp [htype]

theorem packetType_answer {a : Answer} {b : Bytes} {n : Nat} (hb : a.serializeIn n = some b)
    (hlen : b.length ≠ 258) (hlt : b.length < 65536) (junk : Bytes) :
    packetType (b ++ junk) = a.msgType.code.toNat := by
  have hpacket {p : Packet} (hp : serializeIn n p = some b) :
      packetType (b ++ junk) = (packetMsgType p).code.toNat :=
    have ⟨_, h⟩ := isFrame_serializeIn hp hlen hlt
    h.packetType_eq junk
  have hfixed {c : Prop} [Decidable c] {m : Nat} {type : MsgType} {body : Bytes} (hm : 1 < m)
      (hm' : m < 65536)
      (hb : (if c then none else some (packetEncode m ++ type.code :: body)) = some b) :
      packetType (b ++ junk) = type.code.toNat := by
    rw [eq_of_unless hb, List.append_assoc, List.cons_append, packetType_packetEncode hm hm']
  cases a with
  | connack => exact hfixed (m := 3) (by decide) (by decide) hb
  | register topicId msgId topicName => exact hpacket (p := .register topicId msgId topicName) hb
  | regack topicId msgId returnCode => exact hpacket (p := .regack topicId msgId returnCode) hb
  | publish dup qos retained msgId topic payload =>
    exact hpacket (p := .publish dup qos retained msgId topic payload) hb
  | puback topicId msgId returnCode => exact hpacket (p := .puback topicId msgId returnCode) hb
  | suback => exact hfixed (m := packetLen 7) (by decide) (by decide) hb
  | unsuback => exact hfixed (m := packetLen 7) (by decide) (by decide) hb
  | pingresp => exact hfixed (m := 2) (by decide) (by decide) hb
  | disconnect duration => exact hpacket (p := .disconnect duration) hb

/-- **The client hears the gateway**: what the gateway serializes in a buffer of any length
is read with its own type and fields, if it fits the client's buffer. -/
theorem clientReads_answer {a : Answer} {b : Bytes} {n : Nat} (hb : a.serializeIn n = some b)
    (hqos : a.qosFits) (hfit : b.length ≤ maxPacketSize) (junk : Bytes) (address : Nat) :
    packetType (b ++ junk) = a.msgType.code.toNat ∧
      clientReads (b ++ junk) address a.msgType = some a.meaning.forClient := by
  obtain ⟨hlen, hlt⟩ := length_bounds hfit
  have hread := readAs_answer hb hqos hlen hlt junk hfit (by decide) address
  refine ⟨packetType_answer hb hlen hlt junk, ?_⟩
  cases a with
  | connack returnCode =>
    rw [Answer.msgType, clientReads, ofClient_connack]
    exact hread
  | register topicId msgId topicName =>
    obtain ⟨head, h⟩ := isFrame_serializeIn (p := .register topicId msgId topicName) hb hlen hlt
    have hheader := packetDecode_of_decodeIn (h.decoded junk _ (Nat.le_refl _))
    rw [Answer.msgType, clientReads, ofClient_register]
    · exact hread
    · rw [hheader, h.length_eq]
      simp [packetBody]
      omega
  | regack topicId msgId returnCode =>
    rw [Answer.msgType, clientReads, ofClient_regack]
    exact hread
  | publish dup qos retained msgId topic payload =>
    rw [Answer.msgType, clientReads, ofClient_publish]
    exact hread
  | puback topicId msgId returnCode =>
    rw [Answer.msgType, clientReads, ofClient_puback]
    exact hread
  | suback qos topicId msgId returnCode =>
    rw [Answer.msgType, readAs] at hread
    rw [Answer.msgType, clientReads, ofClient_suback]
    exact heard_forClient hread Prod.snd fun _ => rfl
  | unsuback msgId =>
    rw [Answer.msgType, clientReads, ofClient_unsuback]
    exact hread
  | pingresp => rfl
  | disconnect duration =>
    rw [Answer.msgType, readAs] at hread
    rw [Answer.msgType, clientReads, ofClient_disconnect]
    exact heard_forClient hread (fun _ => ()) fun _ => rfl

/-- A PUBLISH of QoS -1 with the topic "a/b" and the payload "xy", behind it a zero. -/
def publishByName : Packet :=
  .publish 0 3 true 0 { type := .normal, name := [97, 47, 98] } [120, 121]

theorem readAs_serialize_publishByName :
    packetType ([12, 12, 0x70, 0, 3, 0, 0, 97, 47, 98, 120, 121] ++ [0]) = 12 ∧
      readAs ([12, 12, 0x70, 0, 3, 0, 0, 97, 47, 98, 120, 121] ++ [0]) 12 7 .publish =
        some (.publish false true 3 (.name [97, 47, 98]) 0 [120, 121]) :=
  readAs_serialize (p := publishByName) (by decide) (by decide : 3 < 4) [0] (by decide) 7

theorem packetRead_serialize_publishByName :
    packetRead [12, 12, 0x70, 0, 3, 0, 0, 97, 47, 98, 120, 121] 100 = 12 :=
  (packetRead_serialize (p := publishByName) rfl (by decide)).trans (if_neg (by decide))

/-- A SUBACK with QoS 1, behind it what an older packet left there. -/
theorem clientReads_answer_suback :
    packetType ([8, 19, 32, 1, 2, 3, 4, 0] ++ [9, 9]) = 19 ∧
      clientReads ([8, 19, 32, 1, 2, 3, 4, 0] ++ [9, 9]) 0 .suback =
        some (.suback (qosOf 0) 258 772 0) :=
  clientReads_answer (a := .suback 1 258 772 0) (n := 8) (by decide) trivial (by decide) [9, 9] 0

end Wire

end LibNbiot
