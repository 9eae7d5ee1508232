/-
# What the headers announce

A serializer checks the room for a packet and writes its header before it writes the
packet. Both go by the same length, which is not that of the packet when 255 bytes
follow the header: then the header takes three bytes where it was counted as one. The
serializer of an UNSUBACK counts fields that it does not write.
-/

import LibNbiot.Wire.Receiving

namespace LibNbiot

namespace Wire

open Logic.Program

/-- The header of a packet is read as it was written, cut to the width of its field. -/
theorem packetDecode_packetEncode {n : Nat} (hn : 1 < n) (buf : Bytes) :
    packetDecode (packetEncode n ++ buf) = ((packetEncode n).length, n % 65536) := by
  unfold packetDecode packetEncode
  split
  · simp [readInt, writeInt, byteAt]
    omega
  · have htoNat : (UInt8.ofNat n).toNat = n := by
      rw [UInt8.toNat_ofNat']
      omega
    have hone : n ≠ 1 := by omega
    simp [byteAt, htoNat, hone]
    omega

/-- A packet that was written: what its header announces, and whether it has stayed in
its buffer. -/
structure Written (buflen : Nat) (b : Bytes) : Prop where
  /-- The header announces the packet unless it is three bytes long for 255, or too short
  for the length. -/
  announced : (packetDecode b).2 = b.length ↔ b.length ≠ 258 ∧ b.length < 65536
  /-- Two bytes go past the end of a buffer that has room for what was counted only. -/
  within : b.length ≤ buflen ↔ ¬(b.length = 258 ∧ buflen < 258)

theorem packetLen_eq (length : Nat) :
    1 < packetLen (length + 1) ∧ (length + 1 = 255 → packetLen (length + 1) = 256) ∧
      (length + 1 ≠ 255 → packetLen (length + 1) ≠ 258) := by
  unfold packetLen
  grind

theorem written_framedIn {buflen : Nat} {type : MsgType} {body b : Bytes}
    (hb : framedIn buflen (body.length + 1) type body = some b) : Written buflen b := by
  unfold framedIn at hb
  split at hb
  · cases hb
  · rename_i hroom
    obtain rfl := Option.some.inj hb
    have hlength := length_framedIn type body
    obtain ⟨hone, hwrong, hright⟩ := packetLen_eq body.length
    refine ⟨?_, ?_⟩
    · rw [packetDecode_packetEncode hone, hlength]
      split
      · rename_i hcase
        rw [hwrong hcase]
        decide
      · rename_i hcase
        have := hright hcase
        omega
    · rw [hlength]
      split
      · rename_i hcase
        have := hwrong hcase
        omega
      · rename_i hcase
        have := hright hcase
        omega

/-- **A packet is as long as its header says**, and as the serializer has checked, but for
255 bytes behind the header. -/
theorem written_serializeIn {buflen : Nat} {p : Packet} {b : Bytes}
    (hb : serializeIn buflen p = some b) : Written buflen b := by
  rw [serializeIn_eq_framedIn] at hb
  exact written_framedIn hb

/-- The same for the packets of a gateway; an UNSUBACK announces twice its length. -/
theorem written_answer {buflen : Nat} {a : Answer} {b : Bytes} (hb : a.serializeIn buflen = some b) :
    if a.msgType = .unsuback then (packetDecode b).2 = 8 ∧ b.length = 4 else Written buflen b := by
  have hpacket {p : Packet} (hp : serializeIn buflen p = some b) : Written buflen b :=
    written_serializeIn hp
  have hframed (body : Bytes) {type : MsgType}
      (hb : framedIn buflen (body.length + 1) type body = some b) : Written buflen b :=
    written_framedIn hb
  cases a with
  | connack returnCode => exact hframed [UInt8.ofNat returnCode] hb
  | register topicId msgId topicName => exact hpacket (p := .register topicId msgId topicName) hb
  | regack topicId msgId returnCode => exact hpacket (p := .regack topicId msgId returnCode) hb
  | publish dup qos retained msgId topic payload =>
    exact hpacket (p := .publish dup qos retained msgId topic payload) hb
  | puback topicId msgId returnCode => exact hpacket (p := .puback topicId msgId returnCode) hb
  | suback qos topicId msgId returnCode =>
    exact hframed (flagsByte 0 qos 0 0 .normal ::
      writeInt topicId ++ writeInt msgId ++ [UInt8.ofNat returnCode]) hb
  | unsuback msgId =>
    obtain rfl := eq_of_unless hb
    exact ⟨rfl, rfl⟩
  | pingresp => exact hframed [] hb
  | disconnect duration => exact hpacket (p := .disconnect duration) hb

/-- The first three steps of `readPacket` for a length byte that is there. -/
theorem readPacket_first {s : Sys} {c : UInt8} (timer : Timer)
    (h : Hands (s.rest.io.env .read (s.rest.io.asked .read)) [c]) (hc : c ≠ 1) :
    ∃ s', readPacket timer s = readRest timer 1 s' ∧ s'.rest.io.env = s.rest.io.env ∧
      s'.rest.io.asked .read = s.rest.io.asked .read + 1 ∧
      ∃ junk, s'.rest.sn.readbuf = c :: junk := by
  have hunread := (unread_remaining timer s).trans (unread_leftMs timer _)
  have hfirst : Hands (nextRead (leftMs timer (remaining timer s).2).2) [c] := by
    rw [hunread.nextRead_eq]
    exact h
  obtain ⟨s', hread, hs'⟩ := networkRead_hands hfirst Nat.one_pos 0
  have hs := hs'.of_unread hunread
  have hbuf : s'.rest.sn.readbuf = c :: 0 :: s.rest.sn.readbuf.drop 2 := by
    rw [hs.readbuf]
    simp [overwrite]
  refine ⟨s', ?_, hs.env, hs.asked, _, hbuf⟩
  have hget : getSn s' = (s'.rest.sn, s') := rfl
  have hbyte : ¬byteAt s'.rest.sn.readbuf 0 = 1 := by
    rw [hbuf, byteAt_cons_zero]
    exact fun hone => hc (UInt8.toNat_inj.1 hone)
  rw [List.length_singleton] at hread
  unfold readPacket
  simp only [run_bind, hread]
  rw [if_neg (by decide)]
  simp only [run_bind, hget, run_ite, if_neg hbyte]

/-- **An UNSUBACK is not received**: the client waits for the bytes that its header
announces, and gives up when nothing else comes in. -/
theorem readPacket_unsuback {msgId n : Nat} {b : Bytes}
    (hb : (Answer.unsuback msgId).serializeIn n = some b) (timer : Timer) {s : Sys}
    (hfirst : Hands (s.rest.io.env .read (s.rest.io.asked .read)) (b.take 1))
    (hrest : (s.rest.io.env .read (s.rest.io.asked .read + 1)).data = b.drop 1) :
    (readPacket timer s).1 = mqttFailure := by
  obtain rfl := eq_of_unless hb
  obtain ⟨s', hpacket, henv, hasked, junk, hbuf⟩ := readPacket_first timer hfirst (by decide)
  have hdecode : packetDecode s'.rest.sn.readbuf = (1, 8) := by
    rw [hbuf]
    rfl
  have hunread := (unread_remaining timer s').trans (unread_leftMs timer _)
  have hreply : (nextRead (leftMs timer (remaining timer s').2).2).data =
      MsgType.unsuback.code :: writeInt msgId := by
    rw [hunread.nextRead_eq, nextRead, henv, hasked, hrest]
    rfl
  have hmore : (networkRead 1 7 (leftMs timer (remaining timer s').2).2).1 < 7 := by
    have hask (s : Sys) : (ask .read s).1 = nextRead s := rfl
    unfold networkRead
    simp only [run_bind, hask, run_ite, hreply, run_pure]
    split
    · exact (by decide : (3 : Int) < 7)
    · exact (by decide : (-1 : Int) < 7)
  have hget (s : Sys) : getSn s = (s.rest.sn, s) := rfl
  have hshort : ((8 : Nat) : Int) ≠ (readMore timer 1 8 (remaining timer s').2).1 := by
    have hcount : (readMore timer 1 8 (remaining timer s').2).1 =
        1 + (networkRead 1 7 (leftMs timer (remaining timer s').2).2).1 := rfl
    omega
  rw [hpacket]
  unfold readRest
  simp only [run_bind, hget, hdecode]
  rw [if_neg (by decide)]
  simp only [run_bind, run_ite, if_pos hshort]
  rfl

/-- An UNSUBACK for the message id 5, handed over byte for byte and followed by nothing. -/
def unsubacked : Sys :=
  { rest := { io := { env := fun _ k => { data := if k = 0 then [8] else [21, 0, 5] } } } }

theorem readPacket_unsuback_alone : (readPacket {} unsubacked).1 = mqttFailure :=
  readPacket_unsuback (show (Answer.unsuback 5).serializeIn 8 = some [8, 21, 0, 5] from rfl) {}
    ⟨rfl, [], rfl⟩ rfl

end Wire

end LibNbiot
