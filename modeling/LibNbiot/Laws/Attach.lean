/-
# A successful attach

The attach loop posts its success as an event, and the dispatcher looks at the
state timer before it handles posted events. So a success that is not handled
before the timeout of WaitForAttach is answered by the Error state. As long as no
dispatch finds the state timer run out while a success waits, the next
transition opens the IP connection.
-/

import LibNbiot.Laws.History

namespace LibNbiot

/-- The attach loop has ended well in WaitForAttach, and no transition has been
taken since. -/
def attachWaits : Log → Bool
  | [] => false
  | e :: t =>
      match e.event with
      | .answered .attach .stop true _ => e.view.state = some .waitForAttach || attachWaits t
      | .app (.fired _ _) => false
      | _ => attachWaits t

/-- The next transition after a successful attach opens the IP connection. -/
def AttachUsed : EntryLaw
  | .app (.fired t _), _, log => attachWaits log = true → t = .mIsAttachedIpConnect
  | _, _, _ => True

/-- No dispatch finds the state timer run out while a success waits. -/
def DispatchedInTime : EntryLaw
  | .app (.dispatched left), _, log => attachWaits log = true → left ≠ some 0
  | _, _, _ => True

instance (e : LoopEvent ClientId SysEvent) (v : View) (t : Log) : Decidable (AttachUsed e v t) := by
  induction e using LoopEvent.casesOn with
  | app e =>
    induction e using SysEvent.casesOn with
    | fired t e => exact inferInstanceAs (Decidable (_ → _))
    | _ => exact .isTrue trivial
  | _ => exact .isTrue trivial

instance (e : LoopEvent ClientId SysEvent) (v : View) (t : Log) :
    Decidable (DispatchedInTime e v t) := by
  induction e using LoopEvent.casesOn with
  | app e =>
    induction e using SysEvent.casesOn with
    | dispatched left => exact inferInstanceAs (Decidable (_ → _))
    | _ => exact .isTrue trivial
  | _ => exact .isTrue trivial

/-- A transition has been taken since the attach loop ended. -/
theorem attachWaits_of_firing {t : Log} (h : firing t = true) : attachWaits t = false := by
  induction t with
  | nil => rfl
  | cons e t ih =>
    obtain ⟨event, view⟩ := e
    cases event with
    | app e => cases e <;> first | rfl | exact ih h
    | registered c => exact ih h
    | _ => cases h

/-- In WaitForAttach only the attach and the timeout are waited for. -/
theorem transitionFor_waitForAttach {e : StmEvent} {t : Transition}
    (h : StateId.waitForAttach.transitionFor e = some t) :
    t = .mIsAttachedIpConnect ∨ e = .timer := by
  cases e with
  | attachedEvent => exact .inl (Option.some.inj h).symm
  | timer => exact .inr rfl
  | _ => cases h

/-- What keeps a successful attach from the Error state. -/
structure AttachAwaited (k : Core) : Prop where
  state : attachWaits k.trace = true → k.state = some .waitForAttach
  inTime : attachWaits k.trace = true → dispatching k.trace ≠ some (some 0)
  law : Throughout AttachUsed k.trace

namespace AttachAwaited

variable {k k' : Core}

theorem act (hk : AttachAwaited k) (h : Act k k') : AttachAwaited k' := by
  cases h with
  | note e h =>
    cases e <;> first
      | exact absurd h Bool.false_ne_true
      | exact ⟨hk.state, hk.inTime, trivial, hk.law⟩
  | setBreak => exact ⟨hk.state, hk.inTime, hk.law⟩
  | _ => exact ⟨hk.state, hk.inTime, trivial, hk.law⟩

theorem move (hk : AttachAwaited k) (h : Move k k') : AttachAwaited k' := by
  cases h with
  | fire st t e hst ht he =>
    refine ⟨nofun, nofun, fun hwaits => ?_, hk.law⟩
    obtain rfl : st = .waitForAttach := Option.some.inj (hst.symm.trans (hk.state hwaits))
    exact (transitionFor_waitForAttach ht).resolve_right fun h => hk.inTime hwaits (he.1 h)
  | follow t e h =>
    refine ⟨nofun, nofun, fun hwaits => ?_, hk.law⟩
    simp [attachWaits_of_firing h] at hwaits
  | enter st h =>
    have hwaits : attachWaits (k.enter st).trace = false := attachWaits_of_firing h
    exact ⟨fun h => by simp [hwaits] at h, fun h => by simp [hwaits] at h, trivial, hk.law⟩

theorem hand (hk : AttachAwaited k) (h : Hand k k') : AttachAwaited k' := by
  cases h with
  | countRetry c v w t hc hlog hleft =>
    simp only [Core.retry]
    split <;> exact ⟨hk.state, hk.inTime, trivial, hk.law⟩
  | store c phase v v' h => exact ⟨hk.state, hk.inTime, hk.law⟩
  | read buf h => exact ⟨hk.state, hk.inTime, hk.law⟩
  | _ => exact ⟨hk.state, hk.inTime, trivial, hk.law⟩

theorem answer (hk : AttachAwaited k) {c : ClientId} {phase : LoopPhase} {v : Int} {a : Bool}
    (ha : Answer k c phase v a k') : AttachAwaited (k'.log (.answered c phase a (k'.value c))) := by
  have hstate : k'.state = k.state := by
    cases ha with
    | published v a k' h => cases h <;> rfl
    | _ => rfl
  refine ⟨fun hwaits => ?_, fun _ => nofun, trivial, ha.trace ▸ hk.law⟩
  have hold : attachWaits k.trace = true → k'.state = some .waitForAttach := fun h =>
    hstate.trans (hk.state h)
  rw [← ha.trace] at hold
  simp only [Core.log, attachWaits] at hwaits
  split at hwaits
  · rcases Bool.or_eq_true_iff.1 hwaits with hview | hwaits
    · exact of_decide_eq_true hview
    · exact hold hwaits
  · cases hwaits
  · exact hold hwaits

theorem basic (h : Basic k k') (hC : Throughout DispatchedInTime k'.trace) (hk : AttachAwaited k) :
    AttachAwaited k' := by
  cases h with
  | act h => exact hk.act h
  | plug h => cases h <;> exact ⟨hk.state, hk.inTime, trivial, hk.law⟩
  | move h => exact hk.move h
  | ready h =>
    cases h with
    | look left =>
      exact ⟨hk.state, fun hwaits h => hC.1 hwaits (Option.some.inj h), trivial, hk.law⟩
    | _ => exact ⟨hk.state, hk.inTime, hk.law⟩
  | lost => exact ⟨hk.state, hk.inTime, hk.law⟩
  | hand h => exact hk.hand h
  | turn h =>
    cases h with
    | answer c phase v a h hactive hdis ha => exact hk.answer ha
    | wrap c phase a hanswered hdis h => cases h <;> exact ⟨hk.state, hk.inTime, hk.law⟩
    | resetBreak => exact ⟨hk.state, hk.inTime, hk.law⟩
    | idle hactive => exact ⟨hk.state, hk.inTime, hk.law⟩
    | _ => exact ⟨hk.state, fun _ => nofun, trivial, hk.law⟩
  | ending h =>
    cases h with
    | answer v h hactive => exact hk.answer (.disconnected v)
    | wrap hanswered h => cases h <;> exact ⟨hk.state, hk.inTime, hk.law⟩
    | closeSocket ok v w t hlog hstate => exact ⟨hk.state, hk.inTime, trivial, hk.law⟩
    | setBreak => exact ⟨hk.state, hk.inTime, hk.law⟩
  | call h =>
    cases h with
    | publish id q hactive hqueue => exact ⟨hk.state, hk.inTime, trivial, trivial, hk.law⟩
    | subscribe id q hactive hqueue hsub => exact ⟨hk.state, hk.inTime, trivial, trivial, hk.law⟩
    | boot h =>
      refine ⟨fun hwaits => ?_, hk.inTime, trivial, hk.law⟩
      exact absurd (h.symm.trans (hk.state hwaits)) nofun
    | _ => exact ⟨hk.state, hk.inTime, trivial, hk.law⟩

end AttachAwaited

/-- **A successful attach is used** in every run in which no dispatch finds the
state timer run out while the success waits. -/
theorem attachUsed_after (setting : Setting) (calls : List ApiCall)
    (h : Obeys DispatchedInTime (setting.after calls).trace) :
    Obeys AttachUsed (setting.after calls).trace :=
  ⟨(holds_under_basic (I := AttachAwaited) (fun _ => ⟨nofun, nofun, trivial⟩) setting calls
    AttachAwaited.basic h).law⟩

/-- A modem that is found attached only by the eleventh query, in a world where
every look at the clock takes some milliseconds. -/
def lateAttach (clockStep : Nat) : Setting :=
  .script [] clockStep 0 fun d n => d = .isAttached && n < 10

/-- A fast clock lets the success through. -/
theorem attachUsed_after_short_wait :
    Obeys AttachUsed
      ((lateAttach 100).after (.connect 1 :: List.replicate 12 (.eventLoop .active))).trace :=
  attachUsed_after _ _ (by decide +kernel)

/-- An attach that takes more than a minute, but less than its own time limit,
ends well and leads to the Error state. -/
theorem not_attachUsed_after_long_wait :
    ¬Obeys AttachUsed
      ((lateAttach 900).after (.connect 1 :: List.replicate 12 (.eventLoop .active))).trace := by
  decide +kernel

end LibNbiot
