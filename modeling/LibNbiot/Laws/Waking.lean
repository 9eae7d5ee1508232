/-
# The way out of sleep

Disconnecting and hibernating wake a sleeping library up first. The wakeup event
gets it out of both sleep states, but a library that is awake for a ping does not
wait for it, nor for the event that is sent after it.
-/

import LibNbiot.Laws.Connecting

namespace LibNbiot

open Logic.Program Relation Ledger

/-- A sleeping library can be disconnected, and hibernated for any duration. -/
def LeavesSleep (s : Sys) : Prop :=
  (disconnect s).2.rest.stm.currentState = some .disconnected ∧
    ∀ duration, (hibernate duration s).2.rest.stm.currentState = some .deepSleep

/-! ## Where events lead -/

/-- An event leads from a state to another one, or is ignored there. -/
inductive StateId.Leads (e : StmEvent) (st : StateId) : StateId → Prop
  | ignored (h : st.transitionFor e = none) : Leads e st st
  | moves {initialized : Bool} {errno errno' : ErrorNumber} {st' : StateId}
      (h : Moves initialized errno st e st' errno') : Leads e st st'

theorem StateId.Enters.state {e : StmEvent} {st : StateId} {k k' : Ledger} (h : st.Enters e k k') :
    k'.state = some st := by
  cases h <;> rfl

theorem Reacts.leads {e : StmEvent} {st : StateId} {k k' : Ledger} (h : Reacts e k k')
    (hst : k.state = some st) : ∃ st', k'.state = some st' ∧ st.Leads e st' := by
  obtain ⟨hnone, rfl⟩ | ⟨st₁, st', errno, recovery, queue, hst₁, hmoves, henter⟩ := h.moves
  · have hwaits : k'.state.bind (·.transitionFor e) = none := hnone
    rw [hst] at hwaits
    exact ⟨st, hst, .ignored hwaits⟩
  · cases hst.symm.trans hst₁
    exact ⟨st', henter.state, .moves hmoves⟩

theorem Moves.waits {initialized : Bool} {errno errno' : ErrorNumber} {st st' : StateId}
    {e : StmEvent} (h : Moves initialized errno st e st' errno') : st.transitionFor e ≠ none := by
  cases h with
  | initialized he => obtain rfl | rfl := he <;> nofun
  | uninitialized he => obtain rfl | rfl := he <;> nofun
  | restart he => obtain rfl | rfl := he <;> nofun
  | asleep he => obtain rfl | rfl := he <;> nofun
  | _ => nofun

theorem StateId.Leads.eq_of_none {e : StmEvent} {st st' : StateId} (h : st.Leads e st')
    (hnone : st.transitionFor e = none) : st' = st := by
  cases h with
  | ignored => rfl
  | moves h => exact absurd hnone h.waits

/-- The state is one of some states. -/
def Ledger.In (k : Ledger) (S : List StateId) : Prop := ∃ st ∈ S, k.state = some st

/-- An event leads from each of some states to one of some others. -/
def StmEvent.Takes (e : StmEvent) (S S' : List StateId) : Prop :=
  ∀ {st st'}, st ∈ S → st.Leads e st' → st' ∈ S'

theorem Reacts.into {e : StmEvent} {S S' : List StateId} {k k' : Ledger} (h : Reacts e k k')
    (htakes : e.Takes S S') (hk : k.In S) : k'.In S' := by
  obtain ⟨st, hst, hstate⟩ := hk
  obtain ⟨st', hstate', hleads⟩ := h.leads hstate
  exact ⟨st', htakes hst hleads, hstate'⟩

/-- A dispatch of an event: the ready events, the event, the timer. -/
inductive Landing (e : StmEvent) (S S' : List StateId) (timer : List StmEvent) :
    List StmEvent → Ledger → Prop
  | ready (es : List StmEvent) {k : Ledger} (hes : ∀ e ∈ es, e.posted = true) (hk : k.In S) :
      Landing e S S' timer (es ++ e :: timer) k
  | sent {k : Ledger} (hk : k.In S') : Landing e S S' timer timer k
  | done {k : Ledger} (hk : k.In S') : Landing e S S' timer [] k

section Dispatching

variable {e : StmEvent} {S S' : List StateId} (hready : ∀ e : StmEvent, e.posted = true → e.Takes S S)
  (hsent : e.Takes S S') (htimer : StmEvent.Takes .timer S' S')

include hready hsent htimer

theorem Landing.step {timer : List StmEvent} (hlast : timer = [] ∨ timer = [.timer])
    {e' : StmEvent} {es : List StmEvent} {k k' : Ledger} (hk : Landing e S S' timer (e' :: es) k)
    (hreacts : Reacts e' { k with events := es } k') : Landing e S S' timer es k' := by
  generalize hlist : e' :: es = l at hk
  cases hk with
  | ready ready hes hk =>
    cases ready with
    | nil =>
      obtain ⟨rfl, rfl⟩ := List.cons.inj hlist
      exact .sent (hreacts.into hsent hk)
    | cons e'' ready =>
      obtain ⟨rfl, rfl⟩ := List.cons.inj hlist
      have hposted := hes _ List.mem_cons_self
      exact .ready ready (fun e he => hes e (List.mem_cons_of_mem _ he))
        (hreacts.into (hready _ hposted) hk)
  | sent hk =>
    obtain rfl | rfl := hlast
    · cases hlist
    · obtain ⟨rfl, rfl⟩ := List.cons.inj hlist
      exact .done (hreacts.into htimer hk)
  | done hk => cases hlist

/-- Where a dispatch leads, when the events that are ready, the event and the timer
each lead there. -/
theorem Dispatches.into {k k' : Ledger} (h : Dispatches [e] k k')
    (hevents : ∀ e ∈ k.events, e.posted = true) (hk : k.In S) : k'.In S' := by
  obtain ⟨timer, timeout, k', hlast, -, h⟩ := h
  have hlanding : Landing e S S' timer (k.events ++ [e] ++ timer) { k with timeout := timeout } := by
    rw [List.append_assoc]
    exact .ready k.events hevents hk
  obtain ⟨k₁, hk₁, rfl⟩ :=
    h.keeps (Landing.step hready hsent htimer (hlast.imp_right And.left)) hlanding
  have hin : k₁.In S' := by
    generalize hnil : ([] : List StmEvent) = l at hk₁
    cases hk₁ with
    | ready es hes hk => exact absurd hnil (by simp)
    | sent hk => exact hk
    | done hk => exact hk
  exact hin

end Dispatching

/-! ## The events after a wakeup -/

/-- The states that a wakeup leads to from the two sleep states. -/
def wokenStates : List StateId := [.connected, .disconnected]

/-- The states of a library that is awake for a ping, or asleep again. -/
def awakeStates : List StateId := [.connectedAwake, .connectedSleep]

theorem StmEvent.takes_woken {e : StmEvent} (he : e.posted = true) :
    e.Takes wokenStates wokenStates := by
  intro st st' hst hleads
  simp only [wokenStates, List.mem_cons, List.not_mem_nil, or_false] at hst ⊢
  cases hleads with
  | ignored => exact hst
  | moves h =>
    obtain rfl | rfl := hst
    · cases h with
      | disconnect => exact .inr rfl
      | sleep => cases he
      | hibernate => cases he
    · cases h <;> cases he

theorem StmEvent.takes_disconnected : StmEvent.Takes .disconnectEvent wokenStates [.disconnected] := by
  intro st st' hst hleads
  simp only [wokenStates, List.mem_cons, List.not_mem_nil, or_false] at hst ⊢
  obtain rfl | rfl := hst
  · cases hleads with
    | ignored h => cases h
    | moves h =>
      cases h
      rfl
  · exact hleads.eq_of_none rfl

theorem StmEvent.takes_deepSleep : StmEvent.Takes .hibernateEvent wokenStates [.deepSleep] := by
  intro st st' hst hleads
  simp only [wokenStates, List.mem_cons, List.not_mem_nil, or_false] at hst ⊢
  obtain rfl | rfl := hst
  · cases hleads with
    | ignored h => cases h
    | moves h =>
      cases h
      rfl
  · cases hleads with
    | ignored h => cases h
    | moves h =>
      cases h
      rfl

theorem StmEvent.takes_of_none {e : StmEvent} {st : StateId} (h : st.transitionFor e = none) :
    e.Takes [st] [st] := by
  intro st₁ st' hst hleads
  obtain rfl := List.mem_singleton.1 hst
  exact List.mem_singleton.2 (hleads.eq_of_none h)

theorem StmEvent.takes_awake {e : StmEvent}
    (he : e.posted = true ∨ e = .hibernateEvent ∨ e = .timer) : e.Takes awakeStates awakeStates := by
  intro st st' hst hleads
  simp only [awakeStates, List.mem_cons, List.not_mem_nil, or_false] at hst ⊢
  cases hleads with
  | ignored => exact hst
  | moves h =>
    obtain rfl | rfl := hst
    · cases h with
      | asleep => exact .inr rfl
      | active => simp [StmEvent.posted] at he
    · cases h <;> simp [StmEvent.posted] at he

/-! ## The calls -/

section Calls

variable {k k' : Ledger}

theorem Dispatches.into_disconnected (h : Dispatches [.disconnectEvent] k k')
    (hevents : ∀ e ∈ k.events, e.posted = true) (hk : k.In wokenStates) :
    k'.state = some .disconnected := by
  obtain ⟨st, hst, hstate⟩ := h.into (fun _ he => StmEvent.takes_woken he) StmEvent.takes_disconnected
    (StmEvent.takes_of_none rfl) hevents hk
  rw [hstate, List.mem_singleton.1 hst]

theorem Dispatches.into_deepSleep (h : Dispatches [.hibernateEvent] k k')
    (hevents : ∀ e ∈ k.events, e.posted = true) (hk : k.In wokenStates) :
    k'.state = some .deepSleep := by
  obtain ⟨st, hst, hstate⟩ := h.into (fun _ he => StmEvent.takes_woken he) StmEvent.takes_deepSleep
    (StmEvent.takes_of_none rfl) hevents hk
  rw [hstate, List.mem_singleton.1 hst]

theorem Dispatches.awake {e : StmEvent} (h : Dispatches [e] k k')
    (he : e.posted = true ∨ e = .hibernateEvent ∨ e = .timer)
    (hevents : ∀ e ∈ k.events, e.posted = true) (hk : k.In awakeStates) : k'.In awakeStates :=
  h.into (fun _ he => StmEvent.takes_awake (.inl he)) (StmEvent.takes_awake he)
    (StmEvent.takes_awake (.inr (.inr rfl))) hevents hk

end Calls

/-- A call wakes the library up and sends an event. -/
def WakesFirst (e : StmEvent) (k k' : Ledger) : Prop :=
  ∃ k₁, Dispatches [.wakeupEvent] k k₁ ∧ Dispatches [e] k₁ k'

theorem isSleeping_asks (s : Sys) :
    ∃ s', isSleeping s = ((ledger s).state.any StateId.sleeping, s') ∧ ledger s' = ledger s :=
  ⟨(isSleeping s).2, Prod.ext (isSleeping_fst s) rfl, isSleeping_silent s⟩

section Asleep

variable {s : Sys} (h : (ledger s).state.any StateId.sleeping = true)

include h

theorem ne_of_sleeping (st : StateId) (hst : st.sleeping = false) : (ledger s).state ≠ some st := by
  intro hstate
  rw [hstate] at h
  exact Bool.false_ne_true (hst.symm.trans h)

theorem disconnect_wakesFirst :
    WakesFirst .disconnectEvent (ledger s) (ledger (disconnect s).2) := by
  have hconnected := ne_of_sleeping h .connected rfl
  obtain ⟨s₁, h₁, hsame₁⟩ := stateIs_asks .connected s
  obtain ⟨s₂, h₂, hsame₂⟩ := isSleeping_asks s₁
  obtain ⟨s₃, h₃, hsame₃⟩ := isSleeping_asks s₂
  rw [hsame₁, h] at h₂
  rw [hsame₂, hsame₁, h] at h₃
  simp only [disconnect, isConnected, run_bind, h₁, hconnected, decide_false, Bool.false_eq_true,
    if_false, h₂, if_true, h₃, run_onlyIf]
  have hwakes := sendEvent_dispatches .wakeupEvent s₃
  rw [hsame₃, hsame₂, hsame₁] at hwakes
  exact ⟨_, hwakes, sendEvent_dispatches .disconnectEvent _⟩

theorem hibernate_wakesFirst (duration : Nat) :
    WakesFirst .hibernateEvent (ledger s) (ledger (hibernate duration s).2) := by
  have hconnected := ne_of_sleeping h .connected rfl
  have hdisconnected := ne_of_sleeping h .disconnected rfl
  obtain ⟨s₁, h₁, hsame₁⟩ := stateIs_asks .connected s
  obtain ⟨s₂, h₂, hsame₂⟩ := stateIs_asks .disconnected s₁
  obtain ⟨s₃, h₃, hsame₃⟩ := isSleeping_asks s₂
  obtain ⟨s₄, h₄, hsame₄⟩ := isSleeping_asks s₃
  rw [hsame₁] at h₂
  rw [hsame₂, hsame₁, h] at h₃
  rw [hsame₃, hsame₂, hsame₁, h] at h₄
  simp only [hibernate, isConnected, isDisconnected, run_bind, h₁, hconnected, decide_false,
    Bool.false_eq_true, if_false, h₂, hdisconnected, h₃, if_true, h₄, run_onlyIf]
  have hwakes := sendEvent_dispatches .wakeupEvent s₄
  rw [hsame₄, hsame₃, hsame₂, hsame₁] at hwakes
  generalize (sendEvent .wakeupEvent s₄).2 = s₅ at hwakes ⊢
  refine ⟨ledger s₅, hwakes, ?_⟩
  obtain ⟨s₆, h₆, hsame₆⟩ := stateIs_asks .connected (setDuration duration s₅).2
  rw [setDuration_silent duration s₅] at hsame₆
  have hsent (reconnect : Bool) : Dispatches [.hibernateEvent] (ledger s₆)
      (ledger (sendEvent .hibernateEvent (modifyPool (fun pool =>
        { pool with autoReconnect := reconnect }) s₆).2).2) :=
    sendEvent_dispatches .hibernateEvent (modifyPool (fun pool =>
      { pool with autoReconnect := reconnect }) s₆).2
  rw [h₆, ← hsame₆]
  exact hsent _

end Asleep

/-! ## The law -/

/-- The events that are ready after a wakeup were posted. -/
theorem Dispatches.events_posted {k k' : Ledger} (h : Dispatches [.wakeupEvent] k k')
    (hk : k.Ordered) : ∀ e ∈ k'.events, e.posted = true :=
  (Change.ordered (C := fun _ _ _ => True) (.dispatch _ (.order .wakeupEvent rfl) h) hk).events

/-- **A sleeping library can be disconnected and hibernated**, unless it is awake
for a ping: then the wakeup event is ignored, and so is the event behind it. -/
theorem leavesSleep_after_iff (setting : Setting) (calls : List ApiCall)
    (hsleeping : (isSleeping (setting.after calls)).1 = true) :
    LeavesSleep (setting.after calls) ↔
      (setting.after calls).rest.stm.currentState ≠ some .connectedAwake := by
  have hordered := ordered_after setting calls
  unfold LeavesSleep
  generalize setting.after calls = s at hsleeping hordered ⊢
  rw [isSleeping_fst] at hsleeping
  obtain ⟨st, hst, hasleep⟩ := (Option.any_eq_true _ _).1 hsleeping
  have hstate : (ledger s).state = some st := hst
  change (ledger (disconnect s).2).state = some .disconnected ∧
    (∀ duration, (ledger (hibernate duration s).2).state = some .deepSleep) ↔
      (ledger s).state ≠ some .connectedAwake
  obtain ⟨k, hwakes, hdisconnect⟩ := disconnect_wakesFirst hsleeping
  have hposted := hwakes.events_posted hordered
  have hwoken := hwakes.woken hordered hstate hasleep
  by_cases hawake : st = .connectedAwake
  · rw [hawake] at hwoken hstate
    refine iff_of_false (fun hleaves => ?_) (fun hne => hne hstate)
    have hk : k.In awakeStates := by
      obtain ⟨hstate | hstate, -⟩ := hwoken
      · exact ⟨_, .head _, hstate⟩
      · exact ⟨_, .tail _ (.head _), hstate⟩
    obtain ⟨st', hst', hstate'⟩ := hdisconnect.awake (.inl rfl) hposted hk
    cases hleaves.1.symm.trans hstate'
    exact absurd hst' (by decide)
  · have hk {k : Ledger} (hwoken : k.Woken (ledger s).errno st) : k.In wokenStates := by
      cases st with
      | connectedSleep => exact ⟨_, .head _, hwoken⟩
      | disconnectedSleep => exact ⟨_, .tail _ (.head _), hwoken.1⟩
      | connectedAwake => exact absurd rfl hawake
      | _ => cases hasleep
    refine iff_of_true ⟨hdisconnect.into_disconnected hposted (hk hwoken), fun duration => ?_⟩ ?_
    · obtain ⟨k', hwakes', hhibernate⟩ := hibernate_wakesFirst hsleeping duration
      exact hhibernate.into_deepSleep (hwakes'.events_posted hordered)
        (hk (hwakes'.woken hordered hstate hasleep))
    · rw [hstate]
      exact fun h => hawake (Option.some.inj h)

/-- A connected library that fell asleep can be disconnected and hibernated. -/
theorem leavesSleep_after_sleep :
    LeavesSleep ((Setting.script [[3], [5, 0]] 100).after (connecting 1 ++ [.sleep 10])) := by
  have hasleep : (isSleeping ((Setting.script [[3], [5, 0]] 100).after
      (connecting 1 ++ [.sleep 10]))).1 = true := by
    decide +kernel
  have hstate : ((Setting.script [[3], [5, 0]] 100).after
      (connecting 1 ++ [.sleep 10])).rest.stm.currentState = some .connectedSleep := by
    decide +kernel
  refine (leavesSleep_after_iff _ _ hasleep).2 fun hawake => ?_
  cases hstate.symm.trans hawake

/-- When it is awake for a ping, a disconnect leaves it awake. -/
theorem not_leavesSleep_after_awake :
    (isSleeping ((Setting.script [[3], [5, 0]] 100).after
      (connecting 1 ++ [.sleep 10, .eventLoop .asleep]))).1 = true ∧
    ¬LeavesSleep ((Setting.script [[3], [5, 0]] 100).after
      (connecting 1 ++ [.sleep 10, .eventLoop .asleep])) := by
  have hasleep : (isSleeping ((Setting.script [[3], [5, 0]] 100).after
      (connecting 1 ++ [.sleep 10, .eventLoop .asleep]))).1 = true := by
    decide +kernel
  have hstays : (disconnect ((Setting.script [[3], [5, 0]] 100).after
      (connecting 1 ++ [.sleep 10, .eventLoop .asleep]))).2.rest.stm.currentState =
        some .connectedAwake := by
    decide +kernel
  exact ⟨hasleep, fun h => nomatch hstays.symm.trans h.1⟩

end LibNbiot
