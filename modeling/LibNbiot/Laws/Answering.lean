/-
# Every packet is answered once

A REGISTER of the gateway is answered by a REGACK, a PUBLISH with QoS 1 by a PUBACK and
one with QoS 2 by a PUBREC, with the ids it came with. The client never answers
anything else, never answers a packet twice and never goes on to the next packet, or
returns from a call, with an answer left to give. Nor does it deliver a message twice,
or one that it did not receive.
-/

import LibNbiot.Laws.History
import LibNbiot.Traffic.Runs

namespace LibNbiot

open Logic.Program

namespace Traffic

/-- An answer belongs to the packet that was received last, and is the first one to it.
No packet is read while an answer is owed. -/
def Answering : EntryLaw
  | .app (.serialized p _), _, t => p.isAnswer = true →
      ∃ r junk, unanswered t = some r ∧ AnswerTo (r ++ junk) p
  | .app (.received _), _, t | .app .receiveFailed, _, t => Settled t
  | _, _, _ => True

/-- A message is delivered from the packet that was received last, and once. -/
def Delivering : EntryLaw
  | .app (.delivered _ _ data), _, t =>
      ∃ r junk address, undelivered t = some r ∧ deserializePublish (r ++ junk) address = (1, data)
  | _, _, _ => True

/-! ## The laws are kept -/

theorem Sending.obeys {k k' : Traffic} (h : Sending k k')
    (hk : Throughout Answering k.trace ∧ Throughout Delivering k.trace) :
    Throughout Answering k'.trace ∧ Throughout Delivering k'.trace := by
  obtain ⟨hanswering, hdelivering⟩ := hk
  cases h with
  | note e v h =>
    cases e with
    | app e => cases e <;> first | exact ⟨⟨trivial, hanswering⟩, trivial, hdelivering⟩ | cases h
    | _ => exact ⟨⟨trivial, hanswering⟩, trivial, hdelivering⟩
  | request p b v hp =>
    exact ⟨⟨fun h => by simp [hp] at h, hanswering⟩, trivial, hdelivering⟩
  | publish p b v hp =>
    refine ⟨⟨fun h => ?_, hanswering⟩, trivial, hdelivering⟩
    cases p with
    | publish => cases h
    | _ => cases hp
  | _ => exact ⟨⟨trivial, hanswering⟩, trivial, hdelivering⟩

theorem Passing.obeys {k k' : Traffic} (h : Passing k k')
    (hk : Throughout Answering k.trace ∧ Throughout Delivering k.trace) :
    Throughout Answering k'.trace ∧ Throughout Delivering k'.trace := by
  obtain ⟨hanswering, hdelivering⟩ := hk
  cases h with
  | sending h => exact h.obeys ⟨hanswering, hdelivering⟩
  | read => exact ⟨hanswering, hdelivering⟩
  | receive n v hn h => exact ⟨⟨h, hanswering⟩, trivial, hdelivering⟩
  | fail v h => exact ⟨⟨h, hanswering⟩, trivial, hdelivering⟩
  | answer p b v h hb =>
    obtain ⟨r, hr, ⟨junk, hbuf⟩, hanswer⟩ := h
    exact ⟨⟨fun _ => ⟨r, junk, hr, hbuf.symm ▸ hanswer⟩, hanswering⟩, trivial, hdelivering⟩
  | deliver handler topicName data v h =>
    obtain ⟨r, address, hr, ⟨junk, hbuf⟩, hread⟩ := h
    exact ⟨⟨trivial, hanswering⟩, ⟨r, junk, address, hr, hbuf.symm ▸ hread⟩, hdelivering⟩

theorem after_obeys (setting : Setting) (calls : List ApiCall) :
    Throughout Answering (setting.after calls).trace ∧
      Throughout Delivering (setting.after calls).trace :=
  after_holds (J := fun k => Throughout Answering k.trace ∧ Throughout Delivering k.trace)
    ⟨trivial, trivial⟩ Passing.obeys setting calls

end Traffic

/-- **Every packet is answered once**: in every run, an answer is to the packet that was
received last and the first to it, and no answer is left to give when the next packet is
read or when a call returns. -/
theorem answered_once (setting : Setting) (calls : List ApiCall) :
    Obeys Traffic.Answering (setting.after calls).trace ∧
      Traffic.Settled (setting.after calls).trace :=
  ⟨⟨(Traffic.after_obeys setting calls).1⟩, (Traffic.after_passes setting calls).2⟩

end LibNbiot
