/-
# The packet buffers are not overrun

Three buffers of `maxPacketSize` bytes are filled from packets of any length. The send
buffer and the copy of the publish keep their size in every run. The read buffer is
filled up to its end at most, but the network puts a zero byte behind what it hands
over, which is one byte too many when a packet fills the buffer.
-/

import LibNbiot.Laws.Hearing

namespace LibNbiot

open Logic.Program

namespace Traffic

/-- What is written is no more than the send buffer holds, and what is received no more
than the read buffer. -/
def Within : EntryLaw
  | .app (.wrote b _), _, _ => 0 < b.length ∧ b.length ≤ maxPacketSize
  | .app (.received r), _, _ | .app (.restored r), _, _ => r.length ≤ maxPacketSize
  | .app (.serialized _ b), _, _ => b.length ≤ maxPacketSize
  | _, _, _ => True

/-- The buffers as they are allocated, but for one byte behind the read buffer. -/
structure Bounded (k : Traffic) : Prop where
  sendbuf : k.sendbuf.length = maxPacketSize
  pubbuf : k.pubbuf.length = maxPacketSize
  readbuf : maxPacketSize ≤ k.readbuf.length ∧ k.readbuf.length ≤ maxPacketSize + 1
  law : Throughout Within k.trace

theorem length_overwrite_eq (buf : Bytes) (offset : Nat) (b : Bytes) (hoffset : offset ≤ buf.length) :
    (overwrite buf offset b).length = max buf.length (offset + b.length) := by
  simp only [overwrite, List.length_append, List.length_take, List.length_drop]
  omega

theorem Bounded.log {k : Traffic} (hk : Bounded k) {e : LoopEvent ClientId SysEvent} (v : View)
    (h : Within e v k.trace) : Bounded (k.log e v) :=
  ⟨hk.sendbuf, hk.pubbuf, hk.readbuf, h, hk.law⟩

theorem Bounded.serialize {k : Traffic} (hk : Bounded k) {p : Packet} {b : Bytes} (v : View)
    (hb : p.serialize = some b) : Bounded (k.serialize p b v) := by
  have hle := Wire.length_serialize_le hb
  refine ⟨?_, hk.pubbuf, hk.readbuf, hle, hk.law⟩
  exact (overwrite_front (hk.sendbuf ▸ hle)).2.trans hk.sendbuf

theorem Sending.bounded {k k' : Traffic} (h : Sending k k') (hk : Bounded k) : Bounded k' := by
  cases h with
  | note e v h =>
    cases e with
    | app e => cases e <;> first | exact hk.log v trivial | cases h
    | _ => exact hk.log v trivial
  | request p b v hp hpublish hb => exact hk.serialize v hb
  | publish p b v hp hqos hb =>
    obtain ⟨hsend, -, hread, hlaw⟩ := hk.serialize v hb
    have hle := Wire.length_serialize_le hb
    exact ⟨hsend, (overwrite_front (hk.pubbuf ▸ hle)).2.trans hk.pubbuf, hread, hlaw⟩
  | restore v =>
    have hle : (k.pubbuf.take maxPacketSize).length ≤ maxPacketSize := List.length_take_le ..
    refine ⟨?_, hk.pubbuf, hk.readbuf, hle, hk.law⟩
    exact (overwrite_front (hk.sendbuf ▸ hle)).2.trans hk.sendbuf
  | write n ok v hpos hn =>
    refine hk.log v ?_
    rw [Within, List.length_take, hk.sendbuf]
    omega

theorem Passing.bounded {k k' : Traffic} (h : Passing k k') (hk : Bounded k) : Bounded k' := by
  cases h with
  | sending h => exact h.bounded hk
  | read offset data hpos hfit =>
    obtain ⟨hlow, hhigh⟩ := hk.readbuf
    have hlength := length_overwrite_eq k.readbuf offset (data ++ [0]) (by omega)
    rw [List.length_append, List.length_singleton] at hlength
    exact ⟨hk.sendbuf, hk.pubbuf, by dsimp only; omega, hk.law⟩
  | receive n v hn => exact hk.log v ((List.length_take_le ..).trans hn)
  | fail v => exact hk.log v trivial
  | answer p b v h hb => exact hk.serialize v hb
  | deliver handler topicName data v => exact hk.log v trivial

theorem bounded_fresh : Bounded fresh :=
  ⟨List.length_replicate, List.length_replicate, by simp [fresh], trivial⟩

end Traffic

end LibNbiot
