/-
# The gateway hears what the client has said

All packets share one send buffer, and a request is sent by nothing but its length, so
that a datagram may end too early or carry the rest of an older packet behind it. The
library by which a gateway reads takes neither: in every run, a datagram that it takes
is the packet that was serialized last, or the publish that was put back, and is read
with the fields it was serialized with.
-/

import LibNbiot.Laws.History
import LibNbiot.Traffic.Runs
import LibNbiot.Wire.Sides

namespace LibNbiot

open Logic.Program

namespace Traffic

/-- The publish that was serialized last, a copy of which is kept. -/
def keptPublish : Log → Option Packet
  | [] => none
  | e :: t =>
      match e.event with
      | .app (.serialized p _) => if p.isPublish then some p else keptPublish t
      | _ => keptPublish t

/-- The packet in front of the send buffer: the one that was serialized last, or the
kept publish since it was put back. -/
def inFront : Log → Option Packet
  | [] => none
  | e :: t =>
      match e.event with
      | .app (.serialized p _) => some p
      | .app (.restored _) => keptPublish t
      | _ => inFront t

/-- Whatever the length of the buffer that a gateway reads a datagram into: it refuses the
datagram, or what it reads is this packet and nothing else. -/
def HeardAs (b : Bytes) (said : Option Packet) : Prop :=
  ∀ buflen, Wire.packetRead b buflen = Wire.readError ∨
    ∃ p, said = some p ∧ p.serialize = some (b.take buflen) ∧
      Wire.packetRead b buflen = ((Wire.packetMsgType p).code.toNat : Int) ∧
        ∀ junk address, Wire.readAs (b.take buflen ++ junk) buflen address (Wire.packetMsgType p) =
          some (Wire.meaning p)

/-- What is written is refused or heard as the packet in front of the send buffer. -/
def HeardAsSaid : EntryLaw
  | .app (.wrote b _), _, t => HeardAs b (inFront t)
  | _, _, _ => True

/-! ## Packets in front of a buffer -/

/-- A packet stands in front of a buffer, or none has been there. -/
structure Fronts (said : Option Packet) (buf : Bytes) : Prop where
  length : buf.length = maxPacketSize
  packet : ∀ p, said = some p → Wire.qosFits p ∧ ∃ b, p.serialize = some b ∧ b <+: buf
  empty : said = none → byteAt buf 0 = 0

theorem fronts_fresh : Fronts none (List.replicate maxPacketSize 0) :=
  ⟨List.length_replicate, nofun, fun _ => rfl⟩

theorem overwrite_front {buf b : Bytes} (hb : b.length ≤ buf.length) :
    overwrite buf 0 b = b ++ buf.drop b.length ∧ (overwrite buf 0 b).length = buf.length := by
  constructor
  · simp [overwrite]
  · simp only [overwrite, List.length_append, List.length_take, List.length_drop]
    omega

/-- A packet that is serialized stands in front from then on. -/
theorem Fronts.serialize {said : Option Packet} {buf : Bytes} (h : Fronts said buf) {p : Packet}
    {b : Bytes} (hqos : Wire.qosFits p) (hb : p.serialize = some b) :
    Fronts (some p) (overwrite buf 0 b) := by
  obtain ⟨heq, hlength⟩ := overwrite_front (h.length ▸ Wire.length_serialize_le hb)
  refine ⟨hlength.trans h.length, ?_, nofun⟩
  rintro _ ⟨⟩
  exact ⟨hqos, b, hb, by rw [heq]; exact List.prefix_append _ _⟩

/-- A buffer of the same length takes the place of another. -/
theorem Fronts.restore {said : Option Packet} {buf pubbuf : Bytes} (hbuf : buf.length = maxPacketSize)
    (h : Fronts said pubbuf) : Fronts said (overwrite buf 0 (pubbuf.take maxPacketSize)) := by
  have htake : pubbuf.take maxPacketSize = pubbuf := List.take_of_length_le h.length.le
  have hdrop : buf.drop pubbuf.length = [] := List.drop_of_length_le (by rw [hbuf, h.length])
  rw [htake, (overwrite_front (by rw [hbuf, h.length])).1, hdrop, List.append_nil]
  exact h

/-- The header of a packet of the client is its length. -/
theorem serialize_eq_cons {p : Packet} {b : Bytes} (hb : p.serialize = some b) :
    b = UInt8.ofNat b.length :: (Wire.packetMsgType p).code :: Wire.packetBody p := by
  have hle := Wire.length_serialize_le hb
  obtain ⟨hlen, hlt⟩ := Wire.length_bounds hle
  rw [Wire.serialize_eq_serializeIn] at hb
  obtain ⟨head, h⟩ := Wire.isFrame_serializeIn hb hlen hlt
  have hhead : head = [UInt8.ofNat b.length] := by
    simp only [maxPacketSize] at hle
    rw [h.header, packetEncode, if_neg (by omega)]
  exact h.eq.trans (by rw [hhead, List.singleton_append])

/-- Any number of bytes from a buffer with a packet in front are taken only if they are
that packet. -/
theorem heardAs_packet {p : Packet} {b buf : Bytes} (hqos : Wire.qosFits p)
    (hb : p.serialize = some b) (hfront : b <+: buf) (n : Nat) : HeardAs (buf.take n) (some p) := by
  intro buflen
  have hcons := serialize_eq_cons hb
  have hle := Wire.length_serialize_le hb
  simp only [maxPacketSize] at hle
  have hlength : b.length = (Wire.packetBody p).length + 2 := congrArg List.length hcons
  by_cases hsame : (buf.take n).take buflen = b
  · -- the whole packet and nothing else
    have hread := Wire.packetRead_serialize hb (le_refl b.length)
    have hfit : b.length ≤ buflen := by
      rw [← hsame]
      exact List.length_take_le ..
    have htake : Wire.packetRead (buf.take n) buflen = Wire.packetRead b b.length := by
      rw [Wire.packetRead, Wire.packetRead, hsame, List.take_length]
    rw [htake, hread]
    split
    · exact .inl rfl
    · refine .inr ⟨p, rfl, hsame.symm ▸ hb, rfl, fun junk address => ?_⟩
      rw [hsame]
      exact (Wire.readAs_serialize hb hqos junk hfit address).2
  · refine .inl ?_
    rw [Wire.packetRead]
    set x := (buf.take n).take buflen with hx
    have hxfront : x <+: buf := (List.take_prefix _ _).trans (List.take_prefix _ _)
    have hne : b.length ≠ x.length := fun h => hsame (List.prefix_of_prefix_length_le hxfront hfront
      h.ge |>.eq_of_length h.symm)
    by_cases hshort : x.length < 3
    · exact if_pos hshort
    · have hfirst : byteAt x 0 = b.length := by
        rw [← byteAt_of_front hxfront (by omega), byteAt_of_front hfront (by omega), hcons,
          Wire.byteAt_cons_zero, UInt8.toNat_ofNat', ← hcons]
        omega
      have hdecode : Wire.decodeIn x x.length = some (1, b.length) := by
        rw [Wire.decodeIn, if_neg (by omega), if_neg (by omega), packetDecode, hfirst,
          if_neg (by omega)]
      simp only [if_neg hshort, hdecode, if_neg hne]

/-- Of a buffer that no packet was in nothing is taken. -/
theorem heardAs_empty {buf : Bytes} (h : byteAt buf 0 = 0) (n : Nat) : HeardAs (buf.take n) none := by
  intro buflen
  refine .inl ?_
  rw [Wire.packetRead]
  set x := (buf.take n).take buflen with hx
  by_cases hshort : x.length < 3
  · exact if_pos hshort
  · have hxfront : x <+: buf := (List.take_prefix _ _).trans (List.take_prefix _ _)
    have hfirst : byteAt x 0 = 0 := by rw [← byteAt_of_front hxfront (by omega), h]
    have hdecode : Wire.decodeIn x x.length = some (1, 0) := by
      rw [Wire.decodeIn, if_neg (by omega), if_neg (by omega), packetDecode, hfirst, if_neg (by decide)]
    simp only [if_neg hshort, hdecode, if_neg (show ¬0 = x.length by omega)]

theorem Fronts.heardAs {said : Option Packet} {buf : Bytes} (h : Fronts said buf) (n : Nat) :
    HeardAs (buf.take n) said := by
  cases said with
  | none => exact heardAs_empty (h.empty rfl) n
  | some p =>
    obtain ⟨hqos, b, hb, hfront⟩ := h.packet p rfl
    exact heardAs_packet hqos hb hfront n

/-! ## The invariant -/

/-- The log knows what stands in front of the two buffers. -/
structure Spoken (k : Traffic) : Prop where
  sendbuf : Fronts (inFront k.trace) k.sendbuf
  pubbuf : Fronts (keptPublish k.trace) k.pubbuf
  law : Throughout HeardAsSaid k.trace

theorem qosFits_of_not_publish {p : Packet} (h : p.isPublish = false) : Wire.qosFits p := by
  cases p with
  | publish => cases h
  | _ => trivial

theorem isPublish_of_isAnswer {p : Packet} (h : p.isAnswer = true) : p.isPublish = false := by
  cases p with
  | regack | puback | pubrec => rfl
  | _ => cases h

/-- Entries that are about no packet of the client change nothing. -/
theorem Spoken.pass {k : Traffic} (hk : Spoken k) {e : LoopEvent ClientId SysEvent} (v : View)
    (he : ∀ t, inFront (⟨e, v⟩ :: t) = inFront t ∧ keptPublish (⟨e, v⟩ :: t) = keptPublish t)
    (hlaw : HeardAsSaid e v k.trace) : Spoken (k.log e v) := by
  refine ⟨?_, ?_, hlaw, hk.law⟩
  · rw [log, (he k.trace).1]
    exact hk.sendbuf
  · rw [log, (he k.trace).2]
    exact hk.pubbuf

/-- A packet that is not a publish is serialized. -/
theorem Spoken.serialize {k : Traffic} (hk : Spoken k) {p : Packet} {b : Bytes} (v : View)
    (hp : p.isPublish = false) (hb : p.serialize = some b) : Spoken (k.serialize p b v) := by
  have hkept : keptPublish (⟨.app (.serialized p b), v⟩ :: k.trace) = keptPublish k.trace :=
    if_neg (by simp [hp])
  refine ⟨hk.sendbuf.serialize (qosFits_of_not_publish hp) hb, ?_, trivial, hk.law⟩
  rw [Traffic.serialize, log, hkept]
  exact hk.pubbuf

theorem Sending.spoken {k k' : Traffic} (h : Sending k k') (hk : Spoken k) : Spoken k' := by
  cases h with
  | note e v h =>
    cases e with
    | app e => cases e <;> first | exact hk.pass v (fun _ => ⟨rfl, rfl⟩) trivial | cases h
    | _ => exact hk.pass v (fun _ => ⟨rfl, rfl⟩) trivial
  | request p b v hp hpublish hb => exact hk.serialize v hpublish hb
  | publish p b v hp hqos hb =>
    have hkept : keptPublish (⟨.app (.serialized p b), v⟩ :: k.trace) = some p := if_pos hp
    refine ⟨hk.sendbuf.serialize hqos hb, ?_, trivial, hk.law⟩
    rw [Traffic.serialize, log, hkept]
    exact hk.pubbuf.serialize hqos hb
  | restore v => exact ⟨.restore hk.sendbuf.length hk.pubbuf, hk.pubbuf, trivial, hk.law⟩
  | write n ok v => exact hk.pass v (fun _ => ⟨rfl, rfl⟩) (hk.sendbuf.heardAs n)

theorem Passing.spoken {k k' : Traffic} (h : Passing k k') (hk : Spoken k) : Spoken k' := by
  cases h with
  | sending h => exact h.spoken hk
  | read offset data => exact ⟨hk.sendbuf, hk.pubbuf, hk.law⟩
  | receive n v => exact hk.pass v (fun _ => ⟨rfl, rfl⟩) trivial
  | fail v => exact hk.pass v (fun _ => ⟨rfl, rfl⟩) trivial
  | answer p b v h hb =>
    have hanswer : p.isAnswer = true := by
      obtain ⟨r, -, -, h⟩ := h
      cases p with
      | regack | puback | pubrec => rfl
      | _ => exact h.elim
    exact hk.serialize v (isPublish_of_isAnswer hanswer) hb
  | deliver handler topicName data v => exact hk.pass v (fun _ => ⟨rfl, rfl⟩) trivial

end Traffic

/-- **The gateway hears nothing that the client has not said**: in every run, a datagram
that the packet library takes is the packet that was serialized last, or the publish that
was put back. -/
theorem heard_as_said (setting : Setting) (calls : List ApiCall) :
    Obeys Traffic.HeardAsSaid (setting.after calls).trace :=
  ⟨(Traffic.after_holds ⟨Traffic.fronts_fresh, Traffic.fronts_fresh, trivial⟩ Traffic.Passing.spoken
    setting calls).law⟩

end LibNbiot
