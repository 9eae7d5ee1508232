/-
# Packets from the network

The network hands over bytes, and `readPacket` makes packets of them: it takes the length
byte and then as many bytes as it says. As long as every read is given the bytes that come
next, the packets of the gateway are received one by one, in order and whole.
-/

import Mathlib.Data.List.Forall2
import LibNbiot.Wire.Sides
import LibNbiot.Client

namespace LibNbiot

namespace Wire

open Logic.Program

/-! ## One read -/

/-- The reply of the network to a read begins with some bytes. -/
def Hands (r : Reply) (bytes : Bytes) : Prop := r.ok = true ∧ bytes <+: r.data

/-- The reply to the next read. -/
def nextRead (s : Sys) : Reply := s.rest.io.env .read (s.rest.io.asked .read)

/-- Nothing was read between two states. -/
structure Unread (s s' : Sys) : Prop where
  env : s'.rest.io.env = s.rest.io.env
  asked : s'.rest.io.asked .read = s.rest.io.asked .read
  readbuf : s'.rest.sn.readbuf = s.rest.sn.readbuf

theorem Unread.trans {s s' s'' : Sys} (h : Unread s s') (h' : Unread s' s'') : Unread s s'' where
  env := h'.env.trans h.env
  asked := h'.asked.trans h.asked
  readbuf := h'.readbuf.trans h.readbuf

theorem Unread.nextRead_eq {s s' : Sys} (h : Unread s s') : nextRead s' = nextRead s := by
  rw [nextRead, h.env, h.asked, nextRead]

theorem unread_ask {d : Device} (hd : d ≠ .read) (s : Sys) : Unread s (ask d s).2 where
  env := rfl
  asked := Function.update_of_ne (Ne.symm hd) ..
  readbuf := rfl

theorem unread_remaining (t : Timer) (s : Sys) : Unread s (remaining t s).2 :=
  unread_ask (d := .clock) (by decide) s

theorem unread_leftMs (t : Timer) (s : Sys) : Unread s (leftMs t s).2 :=
  unread_ask (d := .clock) (by decide) s

theorem unread_renewLastReceived (s : Sys) : Unread s (renewLastReceived s).2 := by
  unfold renewLastReceived
  simp only [run_bind, run_ite]
  split
  · exact (unread_ask (d := .clock) (by decide) s).trans ⟨rfl, rfl, rfl⟩
  · exact ⟨rfl, rfl, rfl⟩

theorem unread_logApp (e : SysEvent) (s : Sys) : Unread s (logApp e s).2 := ⟨rfl, rfl, rfl⟩

/-- What a read that is given some bytes makes of a state. -/
structure HandedOver (s s' : Sys) (offset : Nat) (bytes : Bytes) : Prop where
  env : s'.rest.io.env = s.rest.io.env
  asked : s'.rest.io.asked .read = s.rest.io.asked .read + 1
  readbuf : s'.rest.sn.readbuf = overwrite s.rest.sn.readbuf offset (bytes ++ [0])

theorem HandedOver.of_unread {s s' s'' : Sys} {offset : Nat} {bytes : Bytes} (h : Unread s s')
    (h' : HandedOver s' s'' offset bytes) : HandedOver s s'' offset bytes where
  env := h'.env.trans h.env
  asked := h'.asked.trans (congrArg (· + 1) h.asked)
  readbuf := by rw [h'.readbuf, h.readbuf]

theorem HandedOver.unread {s s' s'' : Sys} {offset : Nat} {bytes : Bytes}
    (h : HandedOver s s' offset bytes) (h' : Unread s' s'') : HandedOver s s'' offset bytes where
  env := h'.env.trans h.env
  asked := h'.asked.trans h.asked
  readbuf := h'.readbuf.trans h.readbuf

/-- A read that is given all the bytes it asks for. -/
theorem networkRead_hands {s : Sys} {bytes : Bytes} (h : Hands (nextRead s) bytes)
    (hpos : 0 < bytes.length) (offset : Nat) :
    ∃ s', networkRead offset bytes.length s = ((bytes.length : Int), s') ∧
      HandedOver s s' offset bytes := by
  obtain ⟨hok, t, ht⟩ := h
  have hreply : (ask .read s).1 = nextRead s := rfl
  have hdata : (nextRead s).data.take bytes.length = bytes := by
    rw [← ht, List.take_left]
  unfold networkRead
  simp only [run_bind, hreply, run_ite, if_pos hok, hdata, run_onlyIf, if_pos hpos]
  refine ⟨_, rfl, rfl, ?_, rfl⟩
  exact Function.update_self (f := s.rest.io.asked) Device.read (s.rest.io.asked .read + 1)

/-! ## One packet -/

/-- The next two reads are given a packet: its length byte, and what follows it. -/
structure Arrives (s : Sys) (b : Bytes) : Prop where
  first : Hands (s.rest.io.env .read (s.rest.io.asked .read)) (b.take 1)
  rest : Hands (s.rest.io.env .read (s.rest.io.asked .read + 1)) (b.drop 1)

/-- A packet that says how long it is, in one byte. -/
structure Announced (b : Bytes) : Prop where
  length : 2 ≤ b.length
  fits : b.length ≤ maxPacketSize
  announced : byteAt b 0 = b.length

/-- The state behind a packet, which stands in the read buffer with anything behind it. -/
structure Received (s s' : Sys) (b : Bytes) : Prop where
  env : s'.rest.io.env = s.rest.io.env
  asked : s'.rest.io.asked .read = s.rest.io.asked .read + 2
  readbuf : ∃ junk, s'.rest.sn.readbuf = b ++ junk

/-- Bytes are written behind the ones that are there. -/
theorem overwrite_append (a junk bytes : Bytes) :
    overwrite (a ++ junk) a.length bytes = a ++ bytes ++ junk.drop bytes.length := by
  simp [overwrite]

/-- The rest of a packet comes in. -/
theorem readMore_hands {s : Sys} {b : Bytes} (timer : Timer) (hb : Announced b)
    (h : Hands (nextRead s) (b.drop 1)) :
    ∃ s', readMore timer 1 b.length s = ((b.length : Int), s') ∧ HandedOver s s' 1 (b.drop 1) := by
  have hlength := hb.length
  have hunread := unread_leftMs timer s
  have hlen : (b.drop 1).length = b.length - 1 := List.length_drop ..
  rw [← hunread.nextRead_eq] at h
  obtain ⟨s', hread, hs'⟩ := networkRead_hands h (by omega) 1
  rw [hlen] at hread
  have hcount : ((1 : Nat) : Int) + ((b.length - 1 : Nat) : Int) = b.length := by omega
  refine ⟨s', ?_, hs'.of_unread hunread⟩
  rw [readMore, if_pos (by omega)]
  simp only [run_bind, hread, run_pure, hcount]

theorem readComplete_unread (lenlen datalen : Nat) (s : Sys) :
    ∃ s', readComplete lenlen datalen s = ((byteAt s.rest.sn.readbuf lenlen : Int), s') ∧
      Unread s s' := by
  have hlog := unread_logApp (.received (s.rest.sn.readbuf.take datalen)) s
  have hrenew := hlog.trans (unread_renewLastReceived _)
  refine ⟨_, Prod.ext ?_ rfl, hrenew⟩
  exact congrArg (fun buf => (byteAt buf lenlen : Int)) hrenew.readbuf

theorem byteAt_take_append {b junk : Bytes} (h : 0 < b.length) :
    byteAt (b.take 1 ++ junk) 0 = byteAt b 0 := by
  cases b with
  | nil => cases h
  | cons c b => rfl

/-- The third step of a packet whose length byte is there. -/
theorem readRest_hands {s : Sys} {b : Bytes} (timer : Timer) (hb : Announced b)
    (h : Hands (nextRead s) (b.drop 1)) (hbuf : ∃ junk, s.rest.sn.readbuf = b.take 1 ++ junk) :
    ∃ s', readRest timer 1 s = ((byteAt b 1 : Int), s') ∧
      s'.rest.io.env = s.rest.io.env ∧ s'.rest.io.asked .read = s.rest.io.asked .read + 1 ∧
      ∃ junk, s'.rest.sn.readbuf = b ++ junk := by
  have hlength := hb.length
  obtain ⟨junk, hbuf⟩ := hbuf
  have hbyte : byteAt s.rest.sn.readbuf 0 = b.length := by
    rw [hbuf, byteAt_take_append (by omega), hb.announced]
  have hdecode : packetDecode s.rest.sn.readbuf = (1, b.length) := by
    rw [packetDecode, hbyte, if_neg (by omega)]
  have hunread := unread_remaining timer s
  rw [← hunread.nextRead_eq] at h
  obtain ⟨s₁, hmore, hs₁⟩ := readMore_hands timer hb h
  obtain ⟨s₂, hcomplete, hs₂⟩ := readComplete_unread 1 b.length s₁
  have hs := (hs₁.of_unread hunread).unread hs₂
  have hread : s₁.rest.sn.readbuf = b ++ 0 :: junk.drop ((b.drop 1) ++ [0]).length := by
    have hone : (b.take 1).length = 1 := by
      rw [List.length_take]
      omega
    have hover := overwrite_append (b.take 1) junk (b.drop 1 ++ [0])
    rw [hone] at hover
    rw [(hs₁.of_unread hunread).readbuf, hbuf, hover, ← List.append_assoc, List.take_append_drop]
    simp
  refine ⟨s₂, ?_, hs.env, hs.asked, _, hs₂.readbuf.trans hread⟩
  have hget : getSn s = (s.rest.sn, s) := rfl
  have hfits : ¬maxPacketSize < b.length := Nat.not_lt.2 hb.fits
  have htype : byteAt s₁.rest.sn.readbuf 1 = byteAt b 1 := by
    rw [hread, byteAt, byteAt, List.getD_append _ _ _ _ (by omega)]
  unfold readRest
  simp only [run_bind, hget, hdecode, if_neg hfits, hmore]
  rw [if_neg (not_not.2 rfl), hcomplete, htype]

/-- A packet that is announced and handed over is received: `readPacket` returns its type. -/
theorem readPacket_arrives {s : Sys} {b : Bytes} (timer : Timer) (hb : Announced b)
    (h : Arrives s b) :
    ∃ s', readPacket timer s = ((byteAt b 1 : Int), s') ∧ Received s s' b := by
  have hlength := hb.length
  have hone : (b.take 1).length = 1 := by
    rw [List.length_take]
    omega
  have hunread := (unread_remaining timer s).trans (unread_leftMs timer _)
  have hfirst : Hands (nextRead (leftMs timer (remaining timer s).2).2) (b.take 1) := by
    rw [hunread.nextRead_eq]
    exact h.first
  obtain ⟨s₁, hread, hs₁⟩ := networkRead_hands hfirst (by omega) 0
  have hs := hs₁.of_unread hunread
  have hbuf : s₁.rest.sn.readbuf = b.take 1 ++ 0 :: s.rest.sn.readbuf.drop 2 := by
    have hover := overwrite_append [] s.rest.sn.readbuf (b.take 1 ++ [0])
    simp only [List.nil_append, List.length_nil, List.length_append, hone] at hover
    rw [hs.readbuf, hover, List.append_assoc]
    rfl
  have hrest : Hands (nextRead s₁) (b.drop 1) := by
    rw [nextRead, hs.env, hs.asked]
    exact h.rest
  obtain ⟨s₂, hpacket, henv, hasked, hreadbuf⟩ := readRest_hands timer hb hrest ⟨_, hbuf⟩
  refine ⟨s₂, ?_, henv.trans hs.env, ?_, hreadbuf⟩
  · unfold readPacket
    rw [hone] at hread
    have hbyte : ¬byteAt s₁.rest.sn.readbuf 0 = 1 := by
      rw [hbuf, byteAt_take_append (by omega), hb.announced]
      omega
    have hget : getSn s₁ = (s₁.rest.sn, s₁) := rfl
    simp only [run_bind, hread]
    rw [if_neg (by decide)]
    simp only [run_bind, hget, run_ite, if_neg hbyte, hpacket]
  · rw [hasked, hs.asked]

/-! ## Packet after packet -/

/-- The reads from the `k`-th on are given these packets, one after the other. -/
def ArrivesAll (env : Device → Nat → Reply) : Nat → List Bytes → Prop
  | _, [] => True
  | k, b :: bs => Hands (env .read k) (b.take 1) ∧ Hands (env .read (k + 1)) (b.drop 1) ∧
      ArrivesAll env (k + 2) bs

/-- Read so many packets: the type of each, and the read buffer behind it. -/
def receiveAll (timer : Timer) : Nat → M (List (Int × Bytes))
  | 0 => return []
  | n + 1 => do
      let packetType ← readPacket timer
      let readbuf := (← getSn).readbuf
      return (packetType, readbuf) :: (← receiveAll timer n)

/-- What was read is a packet: its type, and the packet in front of the buffer. -/
def IsPacket (read : Int × Bytes) (b : Bytes) : Prop :=
  read.1 = byteAt b 1 ∧ ∃ junk, read.2 = b ++ junk

theorem receiveAll_arrives {bs : List Bytes} (timer : Timer) (hbs : ∀ b ∈ bs, Announced b) {s : Sys}
    (h : ArrivesAll s.rest.io.env (s.rest.io.asked .read) bs) :
    List.Forall₂ IsPacket (receiveAll timer bs.length s).1 bs := by
  induction bs generalizing s with
  | nil => exact .nil
  | cons b bs ih =>
    obtain ⟨hfirst, hrest, hnext⟩ := h
    obtain ⟨s', hread, hs'⟩ :=
      readPacket_arrives timer (hbs b List.mem_cons_self) (s := s) ⟨hfirst, hrest⟩
    have hget : getSn s' = (s'.rest.sn, s') := rfl
    rw [← hs'.env, ← hs'.asked] at hnext
    simp only [List.length_cons, receiveAll, run_bind, run_pure, hread, hget]
    exact .cons ⟨rfl, hs'.readbuf⟩ (ih (fun b' hb' => hbs b' (List.mem_cons_of_mem _ hb')) hnext)

/-- What was read is what the gateway says. -/
def Hears (read : Int × Bytes) (a : Answer) : Prop :=
  read.1 = a.msgType.code.toNat ∧
    ∀ address, clientReads read.2 address a.msgType = some a.meaning.forClient

/-- An answer that fits the client's buffer has a length byte, which is right unless the
answer is an UNSUBACK. -/
theorem answer_eq {a : Answer} {b : Bytes} {n : Nat} (hb : a.serializeIn n = some b)
    (hfit : b.length ≤ maxPacketSize) (hunsuback : a.msgType ≠ .unsuback) :
    ∃ body, b = UInt8.ofNat b.length :: a.msgType.code :: body := by
  obtain ⟨hlen, hlt⟩ := length_bounds hfit
  have hpacket {p : Packet} (hp : serializeIn n p = some b) :
      ∃ body, b = UInt8.ofNat b.length :: (packetMsgType p).code :: body := by
    obtain ⟨head, h⟩ := isFrame_serializeIn hp hlen hlt
    have hhead : packetEncode b.length = [UInt8.ofNat b.length] := by
      simp only [maxPacketSize] at hfit
      exact if_neg (by omega)
    refine ⟨packetBody p, h.eq.trans ?_⟩
    rw [h.header, hhead, List.singleton_append]
  cases a with
  | connack => exact ⟨_, by rw [eq_of_unless hb]; rfl⟩
  | register topicId msgId topicName => exact hpacket (p := .register topicId msgId topicName) hb
  | regack topicId msgId returnCode => exact hpacket (p := .regack topicId msgId returnCode) hb
  | publish dup qos retained msgId topic payload =>
    exact hpacket (p := .publish dup qos retained msgId topic payload) hb
  | puback topicId msgId returnCode => exact hpacket (p := .puback topicId msgId returnCode) hb
  | suback => exact ⟨_, by rw [eq_of_unless hb]; rfl⟩
  | unsuback => exact absurd rfl hunsuback
  | pingresp => exact ⟨_, by rw [eq_of_unless hb]; rfl⟩
  | disconnect duration => exact hpacket (p := .disconnect duration) hb

theorem announced_answer {a : Answer} {b : Bytes} {n : Nat} (hb : a.serializeIn n = some b)
    (hfit : b.length ≤ maxPacketSize) (hunsuback : a.msgType ≠ .unsuback) : Announced b := by
  obtain ⟨body, hbody⟩ := answer_eq hb hfit hunsuback
  refine ⟨?_, hfit, ?_⟩
  · rw [hbody]
    simp
  · simp only [maxPacketSize] at hfit
    rw [hbody, byteAt_cons_zero, UInt8.toNat_ofNat', ← hbody]
    omega

/-- A packet that a gateway has serialized for a client, in a buffer of its own length. -/
structure Sent where
  buflen : Nat
  answer : Answer
  bytes : Bytes
  serialized : answer.serializeIn buflen = some bytes
  qosFits : answer.qosFits
  fits : bytes.length ≤ maxPacketSize
  notUnsuback : answer.msgType ≠ .unsuback

theorem Sent.hears (p : Sent) {read : Int × Bytes} (h : IsPacket read p.bytes) :
    Hears read p.answer := by
  obtain ⟨htype, junk, hread⟩ := h
  obtain ⟨body, hbody⟩ := answer_eq p.serialized p.fits p.notUnsuback
  refine ⟨?_, fun address => ?_⟩
  · rw [htype, hbody]
    rfl
  · rw [hread]
    exact (clientReads_answer p.serialized p.qosFits p.fits junk address).2

/-- An accepted CONNACK. -/
def sentConnack : Sent where
  buflen := 3
  answer := .connack 0
  bytes := [3, 5, 0]
  serialized := rfl
  qosFits := trivial
  fits := by decide
  notUnsuback := by decide

/-- A PUBLISH with QoS 1 for the topic id 7. -/
def sentPublish : Sent where
  buflen := 200
  answer := .publish 0 1 false 9 { id := 7 } [1]
  bytes := [8, 12, 32, 0, 7, 0, 9, 1]
  serialized := by decide
  qosFits := (by decide : 1 < 4)
  fits := by decide
  notUnsuback := by decide

/-- A CONNACK and a PUBLISH that arrive as one stream. -/
def arriving : Sys :=
  { rest := { io := { env := fun _ k =>
      { data := [3, 5, 0, 8, 12, 32, 0, 7, 0, 9, 1].drop ([0, 1, 3, 4].getD k 0) } } } }

end Wire

end LibNbiot
