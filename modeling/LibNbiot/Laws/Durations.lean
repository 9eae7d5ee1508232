/-
# Sleep durations in DISCONNECT packets

The duration of a sleep is a field that `sleep` and `hibernate` set and only
`wakeup` clears, and every DISCONNECT carries what it finds there. A duration
that is still set when the Disconnected state is entered from an open session
ends up in a DISCONNECT that has nothing to do with the call that set it. Without
such an entry no DISCONNECT carries a duration that is not its own.
-/

import LibNbiot.Laws.History

namespace LibNbiot

/-- The duration that was set last. -/
def lastDuration : Log → Nat
  | [] => 0
  | e :: t =>
      match e.event with
      | .app (.setDuration d) => d
      | _ => lastDuration t

/-- A DISCONNECT with a duration is built by the call that has set it, and not on
entering the Disconnected state. -/
def PlainDisconnect : EntryLaw
  | .app (.serialized (.disconnect (some d)) _), v, t =>
      v.state ≠ some .disconnected ∧ setInCall t = some d
  | _, _, _ => True

/-- The Disconnected state is entered from an open session only without a
duration. -/
def EntersPlainly : EntryLaw
  | .app (.entered .disconnected), v, t => v.isconnected = true → lastDuration t = 0
  | _, _, _ => True

instance (e : LoopEvent ClientId SysEvent) (v : View) (t : Log) :
    Decidable (PlainDisconnect e v t) := by
  induction e using LoopEvent.casesOn with
  | app e =>
    induction e using SysEvent.casesOn with
    | serialized p b =>
      induction p using Packet.casesOn with
      | disconnect duration =>
        induction duration using Option.casesOn with
        | some d => exact inferInstanceAs (Decidable (_ ∧ _))
        | none => exact .isTrue trivial
      | _ => exact .isTrue trivial
    | _ => exact .isTrue trivial
  | _ => exact .isTrue trivial

instance (e : LoopEvent ClientId SysEvent) (v : View) (t : Log) :
    Decidable (EntersPlainly e v t) := by
  induction e using LoopEvent.casesOn with
  | app e =>
    induction e using SysEvent.casesOn with
    | entered st =>
      induction st using StateId.casesOn with
      | disconnected => exact inferInstanceAs (Decidable (_ → _))
      | _ => exact .isTrue trivial
    | _ => exact .isTrue trivial
  | _ => exact .isTrue trivial

theorem lastDuration_of_setInCall {t : Log} {d : Nat} (h : setInCall t = some d) :
    lastDuration t = d := by
  induction t with
  | nil => cases h
  | cons e t ih =>
    unfold setInCall at h
    unfold lastDuration
    split at h
    · rename_i heq
      rw [heq]
      exact Option.some.inj h
    · cases h
    · rename_i hset _
      split
      · rename_i heq
        exact absurd heq (hset _)
      · exact ih h

/-- What keeps a stale duration out of the DISCONNECT packets. -/
structure DurationsPlain (k : Core) : Prop where
  duration : k.duration = lastDuration k.trace
  entering : entering k.trace = true → k.state = some .disconnected → k.isconnected = true →
    k.duration = 0
  law : Throughout PlainDisconnect k.trace

namespace DurationsPlain

variable {k k' : Core}

theorem serialize (hk : DurationsPlain k) (p : Packet) (b : Bytes) (hp : Sendable k p) :
    DurationsPlain (k.serialize p b) := by
  refine ⟨hk.duration, hk.entering, ?_, hk.law⟩
  cases p with
  | disconnect d =>
    obtain ⟨hd, hconn, hmay⟩ := hp
    cases d with
    | none => trivial
    | some d =>
      have hne : k.duration ≠ 0 := fun h => by simp [h] at hd
      have hdur : k.duration = d := by simpa [hne] using hd.symm
      split at hmay
      · exact absurd (hk.entering hmay ‹_› hconn) hne
      · obtain ⟨d', hset⟩ := Option.isSome_iff_exists.1 hmay
        obtain rfl : d = d' := by
          rw [← hdur, hk.duration, lastDuration_of_setInCall hset]
        exact ⟨‹_›, hset⟩
  | _ => trivial

theorem act (hk : DurationsPlain k) (h : Act k k') : DurationsPlain k' := by
  cases h with
  | note e h =>
    cases e <;> first
      | exact absurd h Bool.false_ne_true
      | exact ⟨hk.duration, hk.entering, trivial, hk.law⟩
  | serialize p b hp hb => exact hk.serialize p b hp
  | setBreak => exact ⟨hk.duration, hk.entering, hk.law⟩
  | _ => exact ⟨hk.duration, hk.entering, trivial, hk.law⟩

theorem hand (hk : DurationsPlain k) (h : Hand k k') : DurationsPlain k' := by
  have transmission {dup id : Nat} {c : ClientId} {p : Packet} {b : Bytes}
      (hp : TransmissionOf dup id c p) : DurationsPlain (k.prepare c p b id) := by
    refine ⟨hk.duration, hk.entering, ?_, hk.law⟩
    cases p with
    | disconnect d => cases c <;> cases hp
    | _ => trivial
  cases h with
  | transmit c v p b w t hlog hp hb => exact transmission hp
  | retransmit c v p b w t h hlog hp hb => exact transmission hp
  | countRetry c v w t hc hlog hleft =>
    simp only [Core.retry]
    split <;> exact ⟨hk.duration, hk.entering, trivial, hk.law⟩
  | store c phase v v' h => exact ⟨hk.duration, hk.entering, hk.law⟩
  | read buf h => exact ⟨hk.duration, hk.entering, hk.law⟩
  | _ => exact ⟨hk.duration, hk.entering, trivial, hk.law⟩

theorem basic (h : Basic k k') (hC : Throughout EntersPlainly k'.trace) (hk : DurationsPlain k) :
    DurationsPlain k' := by
  cases h with
  | act h => exact hk.act h
  | plug h => cases h <;> exact ⟨hk.duration, hk.entering, trivial, hk.law⟩
  | move h =>
    cases h with
    | fire st t e hst ht he => exact ⟨hk.duration, nofun, trivial, hk.law⟩
    | follow t e h => exact ⟨hk.duration, nofun, trivial, hk.law⟩
    | enter st h =>
      refine ⟨hk.duration, fun _ hst hconn => ?_, trivial, hk.law⟩
      obtain rfl : st = .disconnected := Option.some.inj hst
      exact hk.duration.trans (hC.1 hconn)
  | ready h =>
    cases h with
    | look left => exact ⟨hk.duration, nofun, trivial, hk.law⟩
    | _ => exact ⟨hk.duration, hk.entering, hk.law⟩
  | lost => exact ⟨hk.duration, nofun, hk.law⟩
  | hand h => exact hk.hand h
  | turn h =>
    cases h with
    | answer c phase v a h hactive hdis ha =>
      cases ha with
      | published v a k' h => cases h <;> exact ⟨hk.duration, nofun, trivial, hk.law⟩
      | _ => exact ⟨hk.duration, nofun, trivial, hk.law⟩
    | wrap c phase a hanswered hdis h => cases h <;> exact ⟨hk.duration, hk.entering, hk.law⟩
    | resetBreak => exact ⟨hk.duration, hk.entering, hk.law⟩
    | idle hactive => exact ⟨hk.duration, hk.entering, hk.law⟩
    | _ => exact ⟨hk.duration, nofun, trivial, hk.law⟩
  | ending h =>
    cases h with
    | answer v h hactive => exact ⟨hk.duration, nofun, trivial, hk.law⟩
    | wrap hanswered h => cases h <;> exact ⟨hk.duration, hk.entering, hk.law⟩
    | closeSocket ok v w t hlog hstate => exact ⟨hk.duration, hk.entering, trivial, hk.law⟩
    | setBreak => exact ⟨hk.duration, hk.entering, hk.law⟩
  | call h =>
    cases h with
    | api call => exact ⟨hk.duration, nofun, trivial, hk.law⟩
    | setDuration d => exact ⟨rfl, nofun, trivial, hk.law⟩
    | publish id q hactive hqueue => exact ⟨hk.duration, hk.entering, trivial, trivial, hk.law⟩
    | subscribe id q hactive hqueue hsub => exact ⟨hk.duration, hk.entering, trivial, trivial, hk.law⟩
    | boot h => exact ⟨hk.duration, nofun, trivial, hk.law⟩

end DurationsPlain

/-- **A plain disconnect is plain** in every run that enters the Disconnected
state from an open session only without a duration. -/
theorem plainDisconnect_after (setting : Setting) (calls : List ApiCall)
    (h : Obeys EntersPlainly (setting.after calls).trace) :
    Obeys PlainDisconnect (setting.after calls).trace :=
  ⟨(holds_under_basic (I := DurationsPlain) (fun _ => ⟨rfl, nofun, trivial⟩) setting calls
    DurationsPlain.basic h).law⟩

/-- Connecting and disconnecting meets the condition. -/
theorem plainDisconnect_after_connect :
    Obeys PlainDisconnect
      ((Setting.script [[3], [5, 0]] 100).after (connecting 1 ++ [.disconnect])).trace :=
  plainDisconnect_after _ _ (by decide +kernel)

/-- A disconnect after a sleep of a minute sends that minute along. -/
theorem not_plainDisconnect_after_sleep :
    ¬Obeys PlainDisconnect
      ((Setting.script [[3], [5, 0]] 100).after (connecting 1 ++ [.sleep 60, .disconnect])).trace := by
  decide +kernel

end LibNbiot
