/-
# The session of the gateway and the topics of the library

A CONNECT tells the gateway whether to begin a clean session. When the CONNACK
has come, the library decides by itself whether to forget its topics: by the
clean session of the last `connect` call, which `doReconnect` has put back in
the meantime, and only if nothing is subscribed. The two decisions agree exactly
if there is nothing to forget, or what the library goes by agrees with the flag
that the accepted CONNECT carried.
-/

import LibNbiot.Laws.History

namespace LibNbiot

/-! ## What the log tells about the session -/

/-- The clean-session flag of a CONNECT packet. -/
def cleanFlag (b : Bytes) : Bool := byteAt b ((packetDecode b).1 + 1) / 4 % 2 = 1

/-- The clean-session flag of the CONNECT that the network took last. -/
def sentSession : Log → Option Bool
  | [] => none
  | e :: t =>
      match e.event with
      | .app (.wrote b true) =>
          if packetType b = MsgType.connect.code.toNat then some (cleanFlag b) else sentSession t
      | _ => sentSession t

/-- The clean-session flag of the CONNECT that was accepted last. -/
def acceptedSession : Log → Option Bool
  | [] => none
  | e :: t =>
      match e.event with
      | .answered .con .stop true _ => sentSession t
      | _ => acceptedSession t

/-- The transition that was taken last. -/
def lastFired : Log → Option Transition
  | [] => none
  | e :: t =>
      match e.event with
      | .app (.fired transition _) => some transition
      | _ => lastFired t

/-! ## The laws -/

/-- On entering the Connected state by an accepted CONNACK, the topics are
forgotten in a clean session and kept in any other. -/
def SessionAgrees : EntryLaw
  | .app (.sessionOpened _ _ before after), _, t =>
      lastFired t = some .mIsConnectedConnected → ∀ clean ∈ acceptedSession t,
        after.registry = if clean then [] else before.registry
  | _, _, _ => True

/-- There are no topics, or the library goes by a clean session, with topics of
which none is subscribed, exactly in a session that is clean. -/
def KnowsSession : EntryLaw
  | .app (.sessionOpened cleanSession hasSubscription before _), _, t =>
      lastFired t = some .mIsConnectedConnected → ∀ clean ∈ acceptedSession t,
        before.registry = [] ∨
          clean = (!hasSubscription && before.hasAnyTopic .both && cleanSession ≠ 0)
  | _, _, _ => True

instance (e : LoopEvent ClientId SysEvent) (v : View) (t : Log) :
    Decidable (SessionAgrees e v t) := by
  induction e using LoopEvent.casesOn with
  | app e =>
    induction e using SysEvent.casesOn with
    | sessionOpened cleanSession hasSubscription before after => exact inferInstanceAs (Decidable (_ → _))
    | _ => exact .isTrue trivial
  | _ => exact .isTrue trivial

instance (e : LoopEvent ClientId SysEvent) (v : View) (t : Log) :
    Decidable (KnowsSession e v t) := by
  induction e using LoopEvent.casesOn with
  | app e =>
    induction e using SysEvent.casesOn with
    | sessionOpened cleanSession hasSubscription before after => exact inferInstanceAs (Decidable (_ → _))
    | _ => exact .isTrue trivial
  | _ => exact .isTrue trivial

/-- The registry goes on as the clean session and the flag have it. -/
def OpensRegistry : EntryLaw
  | .app (.sessionOpened cleanSession hasSubscription before after), _, _ =>
      after = before.opened cleanSession hasSubscription
  | _, _, _ => True

theorem NbiotTopicRegistry.opened_eq_iff (r : NbiotTopicRegistry) (cleanSession : Nat)
    (hasSubscription clean : Bool) :
    (r.opened cleanSession hasSubscription).registry = (if clean then [] else r.registry) ↔
      r.registry = [] ∨ clean = (!hasSubscription && r.hasAnyTopic .both && cleanSession ≠ 0) := by
  rw [NbiotTopicRegistry.opened]
  cases clean <;>
    cases (!hasSubscription && r.hasAnyTopic .both && decide (cleanSession ≠ 0)) <;>
      simp [NbiotTopicRegistry.clearRegistry, eq_comm]

theorem OpensRegistry.agrees_iff {e : LoopEvent ClientId SysEvent} {v : View} {t : Log}
    (h : OpensRegistry e v t) : SessionAgrees e v t ↔ KnowsSession e v t := by
  unfold SessionAgrees KnowsSession
  split
  · rename_i cleanSession hasSubscription before after
    obtain rfl : after = before.opened cleanSession hasSubscription := h
    simp only [NbiotTopicRegistry.opened_eq_iff]
  · exact Iff.rfl

/-- Two laws that agree on every entry agree on the log. -/
theorem Throughout.congr {P Q R : EntryLaw} (hPQ : ∀ {e v t}, R e v t → (P e v t ↔ Q e v t))
    {t : Log} (h : Throughout R t) : Throughout P t ↔ Throughout Q t := by
  induction t with
  | nil => exact Iff.rfl
  | cons e t ih => exact and_congr (hPQ h.1) (ih h.2)

/-! ## Every registry is opened that way -/

theorem OpensRegistry.basic {k k' : Core} (h : Basic k k') (hk : Throughout OpensRegistry k.trace) :
    Throughout OpensRegistry k'.trace := by
  have cons (e : LoopEvent ClientId SysEvent) (v : View) (he : OpensRegistry e v k.trace) :
      Throughout OpensRegistry (⟨e, v⟩ :: k.trace) := ⟨he, hk⟩
  cases h with
  | act h =>
    cases h with
    | note e h =>
      cases e with
      | sessionOpened cleanSession hasSubscription before after =>
        exact cons _ _ (show after = _ from of_decide_eq_true h)
      | _ => exact cons _ _ trivial
    | _ => first | exact hk | exact cons _ _ trivial
  | plug h => cases h <;> exact cons _ _ trivial
  | move h => cases h <;> exact cons _ _ trivial
  | ready h => cases h <;> first | exact hk | exact cons _ _ trivial
  | lost => exact hk
  | hand h =>
    cases h with
    | countRetry c v w t hc hlog hleft =>
      simp only [Core.retry]
      split <;> exact cons _ _ trivial
    | _ => first | exact hk | exact cons _ _ trivial
  | turn h =>
    cases h with
    | answer c phase v a h hactive hdis ha => exact ⟨trivial, ha.trace.symm ▸ hk⟩
    | wrap c phase a hanswered hdis h => cases h <;> exact hk
    | _ => first | exact hk | exact cons _ _ trivial
  | ending h =>
    cases h with
    | wrap hanswered h => cases h <;> exact hk
    | _ => first | exact hk | exact cons _ _ trivial
  | call h =>
    cases h with
    | publish id q hactive hqueue => exact ⟨trivial, trivial, hk⟩
    | subscribe id q hactive hqueue hsub => exact ⟨trivial, trivial, hk⟩
    | _ => exact cons _ _ trivial

theorem opensRegistry_after (setting : Setting) (calls : List ApiCall) :
    Throughout OpensRegistry (setting.after calls).trace :=
  after_holds_basic (J := fun k => Throughout OpensRegistry k.trace) (fun _ => trivial)
    (fun h hk => OpensRegistry.basic h hk) setting calls

/-- A library that registers a topic, hibernates and reconnects by itself, with the
gateway's answers. -/
def hibernating : Setting × List ApiCall :=
  (Setting.script [[3], [5, 0], [7], [11, 0, 1, 0, 1, 0], [], [2], [24], [3], [5, 0]] 100,
    connecting 1 ++ .publish [97] [98] .qos0 :: List.replicate 4 (.eventLoop .active) ++
      .hibernate 60 :: List.replicate 6 (.eventLoop .active) ++
      .wakeup :: List.replicate 5 (.eventLoop .active))

end LibNbiot
