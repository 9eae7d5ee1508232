/-
# A modem that is switched off

The entry action of DeepSleep queues a DISCONNECT when the session is open, and
switches the modem off at once; what is queued then, that DISCONNECT included, is
sent by later turns of the event loop. As long as no loop client waits or is
active when the modem is switched off, and none is queued before the modem is
initialized again, no start or step handler writes to the network in between.
-/

import LibNbiot.Laws.History

namespace LibNbiot

/-- Has the modem been switched off, and not been initialized since? -/
def modemOff : Log → Bool
  | [] => false
  | e :: t =>
      match e.event with
      | .app .modemSwitchedOff => true
      | .app (.modemInitialized true) => false
      | _ => modemOff t

/-- No start or step handler writes to the network while the modem is off. -/
def NoTrafficWhileOff : EntryLaw
  | .app (.wrote _ _), _, t =>
      match running t with
      | some (_, .start, _) | some (_, .step, _) => modemOff t = false
      | _ => True
  | _, _, _ => True

/-- The modem is switched off with the loop controller at rest, and no client is
queued before it is initialized again. -/
def RestsWhileOff : EntryLaw
  | .app .modemSwitchedOff, v, _ => v.queue = [] ∧ v.active = none
  | .registered _, _, t => modemOff t = false
  | _, _, _ => True

instance (e : LoopEvent ClientId SysEvent) (v : View) (t : Log) :
    Decidable (NoTrafficWhileOff e v t) := by
  induction e using LoopEvent.casesOn with
  | app e =>
    induction e using SysEvent.casesOn with
    | wrote b ok =>
      dsimp only [NoTrafficWhileOff]
      exact
        match running t with
        | some (_, .start, _) | some (_, .step, _) => inferInstanceAs (Decidable (_ = _))
        | some (_, .stop, _) | none => .isTrue trivial
    | _ => exact .isTrue trivial
  | _ => exact .isTrue trivial

instance (e : LoopEvent ClientId SysEvent) (v : View) (t : Log) :
    Decidable (RestsWhileOff e v t) := by
  induction e using LoopEvent.casesOn with
  | app e =>
    induction e using SysEvent.casesOn with
    | modemSwitchedOff => exact inferInstanceAs (Decidable (_ ∧ _))
    | _ => exact .isTrue trivial
  | registered c => exact inferInstanceAs (Decidable (_ = _))
  | _ => exact .isTrue trivial

/-- What keeps the modem silent while it is off. -/
structure SilentWhileOff (k : Core) : Prop where
  /-- A running handler belongs to the active client. -/
  active : (running k.trace).isSome → k.loop.loopClient.isSome
  rest : modemOff k.trace = true → k.loop.clientList = [] ∧ k.loop.loopClient = none
  law : Throughout NoTrafficWhileOff k.trace

namespace SilentWhileOff

variable {k k' : Core}

theorem quiet (hk : SilentWhileOff k) : running k.trace = none ∨ modemOff k.trace = false := by
  by_cases hoff : modemOff k.trace = true
  · left
    by_contra hrun
    have hactive := hk.active (Option.isSome_iff_ne_none.2 hrun)
    simp [(hk.rest hoff).2] at hactive
  · exact .inr (Bool.eq_false_of_not_eq_true hoff)

theorem write (hk : SilentWhileOff k) (b : Bytes) (ok : Bool) :
    SilentWhileOff (k.emit (.wrote b ok)) := by
  refine ⟨hk.active, hk.rest, ?_, hk.law⟩
  simp only [NoTrafficWhileOff]
  rcases hk.quiet with h | h
  · rw [h]
    trivial
  · split <;> first | exact h | trivial

/-- A client is queued while the modem is on. -/
theorem register (hk : SilentWhileOff k) (c : ClientId) (hon : modemOff k.trace = false) :
    SilentWhileOff (k.register c) :=
  ⟨hk.active, fun hoff => absurd (hon.symm.trans hoff) Bool.false_ne_true, trivial, hk.law⟩

/-- A change that the log does not show, of anything but queue and active
client. -/
theorem of_same (hk : SilentWhileOff k) (htrace : k'.trace = k.trace)
    (hqueue : k'.loop.clientList = k.loop.clientList)
    (hactive : k'.loop.loopClient = k.loop.loopClient) : SilentWhileOff k' := by
  obtain ⟨h₁, h₂, h₃⟩ := hk
  rw [← htrace] at h₁ h₂ h₃
  exact ⟨hactive ▸ h₁, by rw [hqueue, hactive]; exact h₂, h₃⟩

theorem act (hk : SilentWhileOff k) (h : Act k k') (hC : Throughout RestsWhileOff k'.trace) :
    SilentWhileOff k' := by
  cases h with
  | note e h =>
    cases e with
    | modemSwitchedOff => exact ⟨hk.active, fun _ => hC.1, trivial, hk.law⟩
    | modemInitialized ok =>
      cases ok
      · exact ⟨hk.active, hk.rest, trivial, hk.law⟩
      · exact ⟨hk.active, nofun, trivial, hk.law⟩
    | _ => first
      | exact absurd h Bool.false_ne_true
      | exact ⟨hk.active, hk.rest, trivial, hk.law⟩
  | write b ok h => exact hk.write b ok
  | enqueue c p b v t hc hlog hbuf =>
    have hstored : SilentWhileOff (k.setValue c b.length) := hk.of_same rfl rfl rfl
    exact hstored.register c hC.1
  | yield v =>
    have hstored : SilentWhileOff (k.setValue .yield v) := hk.of_same rfl rfl rfl
    exact hstored.register .yield hC.1
  | attach => exact hk.register .attach hC.1
  | setBreak => exact ⟨hk.active, hk.rest, hk.law⟩
  | _ => exact ⟨hk.active, hk.rest, trivial, hk.law⟩

theorem hand (hk : SilentWhileOff k) (h : Hand k k') : SilentWhileOff k' := by
  cases h with
  | countRetry c v w t hc hlog hleft =>
    simp only [Core.retry]
    split <;> exact ⟨hk.active, hk.rest, trivial, hk.law⟩
  | store c phase v v' h => exact hk.of_same rfl rfl rfl
  | read buf h => exact hk.of_same rfl rfl rfl
  | _ => exact ⟨hk.active, hk.rest, trivial, hk.law⟩

theorem wrap (hk : SilentWhileOff k) {c : ClientId} {phase : LoopPhase} {a : Bool}
    (hanswered : Answered c phase a k) (h : Wrap c phase a k k') : SilentWhileOff k' := by
  obtain ⟨v, w, t, hlog⟩ := hanswered
  cases h with
  | result r h => exact hk.of_same rfl rfl rfl
  | value => exact hk.of_same rfl rfl rfl
  | letGo id hactive h =>
    refine ⟨fun hrun => ?_, fun hoff => ⟨(hk.rest hoff).1, rfl⟩, hk.law⟩
    simp [hlog, running] at hrun

theorem turn (hk : SilentWhileOff k) (h : Turn k k') : SilentWhileOff k' := by
  cases h with
  | clear h => exact ⟨fun hrun => by simp [Core.clear, Core.log, running, h] at hrun,
      fun _ => ⟨rfl, rfl⟩, trivial, hk.law⟩
  | take c queue h hactive hqueue =>
    refine ⟨fun _ => rfl, fun hoff => ?_, trivial, hk.law⟩
    simp [(hk.rest hoff).1] at hqueue
  | callStart c r v t hactive hlog hr =>
    exact ⟨fun _ => by rw [Core.log, hactive]; rfl, hk.rest, trivial, hk.law⟩
  | callStep c h hactive hr =>
    exact ⟨fun _ => by rw [Core.log, hactive]; rfl, hk.rest, trivial, hk.law⟩
  | callStop c v t hactive hlog =>
    exact ⟨fun _ => by rw [Core.log, hactive]; rfl, hk.rest, trivial, hk.law⟩
  | answer c phase v a h hactive hdis ha =>
    refine ⟨fun hrun => (by cases hrun), ?_, trivial, ha.trace ▸ hk.law⟩
    have hoff : modemOff k.trace = false := by
      refine hk.quiet.resolve_left fun hrun => ?_
      rw [hrun] at h
      cases h
    intro h
    rw [← ha.trace] at hoff
    exact absurd (hoff.symm.trans h) Bool.false_ne_true
  | wrap c phase a hanswered hdis h => exact hk.wrap hanswered h
  | resetBreak => exact hk.of_same rfl rfl rfl
  | idle hactive => exact hk.of_same rfl rfl rfl

theorem ending (hk : SilentWhileOff k) (h : Ending k k') : SilentWhileOff k' := by
  cases h with
  | answer v h hactive => exact ⟨nofun, hk.rest, trivial, hk.law⟩
  | wrap hanswered h => exact hk.wrap hanswered h
  | closeSocket ok v w t hlog hstate => exact ⟨hk.active, hk.rest, trivial, hk.law⟩
  | setBreak => exact hk.of_same rfl rfl rfl

theorem basic (h : Basic k k') (hC : Throughout RestsWhileOff k'.trace)
    (hk : SilentWhileOff k) : SilentWhileOff k' := by
  cases h with
  | act h => exact hk.act h hC
  | plug h => cases h <;> exact ⟨hk.active, hk.rest, trivial, hk.law⟩
  | move h => cases h <;> exact ⟨hk.active, hk.rest, trivial, hk.law⟩
  | ready h =>
    cases h with
    | look left => exact ⟨hk.active, hk.rest, trivial, hk.law⟩
    | _ => exact hk.of_same rfl rfl rfl
  | lost => exact hk.of_same rfl rfl rfl
  | hand h => exact hk.hand h
  | turn h => exact hk.turn h
  | ending h => exact hk.ending h
  | call h =>
    cases h with
    | publish id q hactive hqueue =>
      refine SilentWhileOff.register ?_ .pub hC.1
      exact ⟨hk.active, hk.rest, trivial, hk.law⟩
    | subscribe id q hactive hqueue hsub =>
      refine SilentWhileOff.register ?_ .sub hC.1
      exact ⟨hk.active, hk.rest, trivial, hk.law⟩
    | _ => exact ⟨hk.active, hk.rest, trivial, hk.law⟩

end SilentWhileOff

end LibNbiot
