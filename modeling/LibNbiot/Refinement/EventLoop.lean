/-
# The event loop refines the session machine

One execution of the event loop takes a turn of the controller, follows up on
the client that has ended, and otherwise dispatches. The end of a disconnect
loop and the closing of the socket that follows it are one step.
-/

import LibNbiot.Refinement.Turns

namespace LibNbiot

open Logic.Program Relation

/-! ## After a turn -/

theorem Done.endedPublish {a : Bool} {k : Core} (h : Done .pub a k) :
    endedPublish k.trace = some (a, k.loop.loopValue) := by
  obtain ⟨⟨w, t, hlog, -⟩, -⟩ := h
  rw [hlog]
  rfl

theorem pubackNotify_session (topic : NbiotTopic) :
    Refines core session (fun k => k.Idle ∧ Reportable topic.returnCode k)
      (pubackNotify topic) fun _ => Core.Idle := by
  have hframe := (pubackNotify_refines topic).frame (J := Core.Idle)
    fun _ h hk => hk.of_unmoved h.unread.toUnmoved
  exact (hframe.mono acts_sub_session).conseq (fun _ hk => ⟨hk.2, hk.1⟩) fun _ _ hk => hk.2

theorem postEvent_session {e : StmEvent} (he : e.postable = true) :
    Refines core session Core.Idle (postEvent e)
      fun _ => Core.Idle :=
  ((postEvent_refines he).keeps fun h hk => hk.of_unmoved h.unread.toUnmoved).mono acts_sub_session

theorem logApp_session {e : SysEvent} (he : e.plain = true) (hne : e ≠ .nullDeref) :
    Refines core session Core.Idle (logApp e) fun _ => Core.Idle :=
  ((logApp_refines he hne).keeps fun h hk => hk.of_unmoved h.unread.toUnmoved).mono acts_sub_session

/-- The current topic is reported with a return code that its loop accounts for. -/
theorem reportTopic_refines {returnCode : Nat} {P : Core → Prop} {Q : Core → Prop} {rest : M Unit}
    (hP : ∀ k, P k → k.Idle ∧ Reportable returnCode k)
    (hrest : Refines core session Core.Idle rest fun _ => Q) :
    Refines core session P (do
      modifyPool fun pool =>
        { pool with currentTopic := { pool.currentTopic with returnCode := returnCode } }
      pubackNotify (← getPool).currentTopic
      rest : M Unit) fun _ => Q := by
  intro s hinv hs
  generalize hs₁ : (modifyPool (fun pool =>
    { pool with currentTopic := { pool.currentTopic with returnCode := returnCode } }) s).2 = s₁
  have hcore : core s₁ = core s := by
    rw [← hs₁]
    exact modifyPool_silent (fun _ => rfl) s
  have hcode : s₁.rest.pool.currentTopic.returnCode = returnCode := by
    rw [← hs₁]
    rfl
  obtain ⟨hrun, hQ⟩ := ((pubackNotify_session s₁.rest.pool.currentTopic).bind fun _ => hrest) s₁
    (hcore ▸ hinv) (by rw [hcore, hcode]; exact hP _ hs)
  simp only [run_bind, getPool_run, hs₁]
  exact ⟨hcore ▸ hrun, hQ⟩

/-- A failed publish is reported with what its loop has left behind. -/
theorem publishFailed_refines :
    Refines core session (fun k => k.Idle ∧ Done .pub false k) publishFailed
      fun _ => Core.Idle := by
  refine .reads (g := id) (fun _ => rfl) fun s hs => ?_
  refine reportTopic_refines (fun k hk => ?_) ?_
  · subst hk
    exact ⟨hs.1, .inr ⟨false, _, hs.2.endedPublish, rfl⟩⟩
  · refine .silent_bind getPool_silent fun pool => .ite (fun _ => ?_) fun _ => .pure fun _ h => h
    exact .silent_bind (setErrno_silent _) fun _ => postEvent_session rfl

theorem loopFailed_refines :
    Refines core session (Turned .fail) loopFailed fun _ => Core.Idle := by
  refine .reads (g := id) (fun _ => rfl) fun s hs => ?_
  have hfailure : Refines core session (fun k => k = core s) (loopFailure s.loop.loopId)
      fun _ => Core.Idle := by
    have hpure : Refines core session (fun k => k = core s) (pure () : M Unit)
        fun _ => Core.Idle := .pure fun k hk => hk ▸ hs.idle
    obtain hid | ⟨c, hdis, hdone⟩ := (hs.ended nofun).2
    · rw [show s.loop.loopId = .unknown from hid]
      exact hpure
    · rw [show s.loop.loopId = c.loopId from hdone.2]
      cases c with
      | pub => exact publishFailed_refines.pre fun k hk => hk ▸ ⟨hs.idle, hdone⟩
      | dis => exact absurd rfl hdis
      | _ => exact hpure
  refine .bind hfailure fun _ => ?_
  exact clearLoop_refines.conseq (fun k hk => hk.running) fun _ k hk => idle_of_inactive hk.1 hk.2.1

theorem registerTopic_silent (loopId : NbiotLoopId) : Silent core (registerTopic loopId) := by
  refine .bind getRegistry_silent fun registry => .bind getPool_silent fun pool => ?_
  refine .bind (modifyPool_silent fun _ => rfl) fun _ => ?_
  refine .bind (.onlyIf (modifyRegistry_silent _)) fun _ => .ite ?_ (.pure _)
  exact .bind (modifyRegistry_silent _) fun _ => modifyPool_silent fun _ => rfl

theorem topicSucceeded_silent {loopId : NbiotLoopId} (h : loopId ≠ .publish) :
    Silent core (topicSucceeded loopId) := by
  refine .bind (modifyPool_silent fun _ => rfl) fun _ => .bind getPool_silent fun pool => ?_
  refine .ite (.bind (registerTopic_silent _) fun _ => ?_) (.pure _)
  rw [if_neg h]
  exact .pure _

theorem publishSucceeded_refines :
    Refines core session (fun k => k.Idle ∧ Done .pub true k) publishSucceeded
      fun _ => Core.Idle := by
  have hrest : Refines core session Core.Idle (pure () : M Unit) fun _ => Core.Idle :=
    .pure fun _ h => h
  refine reportTopic_refines (fun k hk => ?_) hrest
  exact ⟨hk.1, .inr ⟨true, _, hk.2.endedPublish, rfl⟩⟩

theorem topicSucceeded_refines {c : ClientId} :
    Refines core session (fun k => k.Idle ∧ Done c true k)
      (topicSucceeded c.loopId) fun _ => Core.Idle := by
  by_cases hc : c.loopId = .publish
  · obtain rfl : c = .pub := by cases c <;> first | rfl | cases hc
    refine .silent_bind (modifyPool_silent fun _ => rfl) fun _ => .silent_bind getPool_silent
      fun pool => .ite (fun _ => ?_) fun _ => .pure fun _ h => h.1
    exact .silent_bind (registerTopic_silent _) fun _ => publishSucceeded_refines
  · exact (Refines.silent (topicSucceeded_silent hc)).post fun _ _ hk => hk.1

theorem loopSucceeded_refines {c : ClientId} (hdis : c ≠ .dis) :
    Refines core session (fun k => k.Idle ∧ Done c true k)
      (loopSucceeded c.loopId) fun _ => Core.Idle := by
  refine .silent_bind getRegistry_silent fun before => .bind topicSucceeded_refines fun _ => ?_
  have hlog : Refines core session Core.Idle (do
      logApp (.handlerInstalled true (← getPool).currentTopic before (← getRegistry)) : M Unit)
      fun _ => Core.Idle :=
    .silent_bind getPool_silent fun _ => .silent_bind getRegistry_silent fun _ =>
      logApp_session rfl nofun
  refine .bind (.onlyIf (fun _ => hlog) fun _ _ h => h) fun _ => ?_
  refine .silent_bind getSn_silent fun sn => ?_
  refine .bind (.onlyIf (fun _ => postEvent_session rfl) fun _ _ h => h) fun _ => ?_
  refine .ite (fun h => ?_) fun _ => .pure fun _ h => h
  exact absurd h (by cases c <;> first | exact absurd rfl hdis | decide)

/-! ## The end of a disconnect loop -/

theorem networkDisconnect_ends :
    Refines core endingMachine Disconnected (do let _ ← networkDisconnect : M Unit)
      fun _ k => k.Closed := by
  refine .single fun s hs => ?_
  obtain ⟨ok, hcore⟩ := networkDisconnect_core s
  obtain ⟨w, t, hlog, hstate⟩ := hs.done.1
  simp only [run_bind, run_pure, hcore]
  refine ⟨.closeSocket ok _ w t hlog hstate, hs.isconnected, ?_⟩
  cases ok
  · exact .inr rfl
  · exact .inl (Bool.and_false _)

theorem loopBreak_ends :
    Refines core endingMachine Core.Closed (loopBreak : M Unit) fun _ k => k.Closed := by
  refine .silent_bind get_silent fun s => .ite (fun _ => .single fun s hs => ?_) fun _ =>
    .pure fun _ h => h
  exact ⟨.setBreak, hs⟩

theorem finishDisconnect_ends :
    Refines core endingMachine Disconnected finishDisconnect fun _ k => k.Closed := by
  refine .reads networkIsConnected_run fun s hs => ?_
  refine .bind (R := fun _ => Core.Closed) (.onlyIf (fun _ => ?_) ?_) fun _ => ?_
  · exact networkDisconnect_ends.pre fun k hk => hk ▸ hs
  · rintro hsocket k rfl
    exact ⟨hs.isconnected, .inl (Bool.eq_false_of_not_eq_true hsocket)⟩
  · exact .silent_bind get_silent fun _ => .ite (fun _ => loopBreak_ends) fun _ => .pure fun _ h => h

theorem loopSucceeded_ends :
    Refines core endingMachine Disconnected (loopSucceeded .disconnect) fun _ k => k.Closed := by
  refine .silent_bind getRegistry_silent fun _ => .silent_bind (topicSucceeded_silent nofun) fun _ => ?_
  refine .bind (R := fun _ => Disconnected) (.onlyIf (fun h => nomatch h) fun _ _ h => h) fun _ => ?_
  refine .silent_bind getSn_silent fun sn => ?_
  exact .bind (.onlyIf (fun h => nomatch h.1) fun _ _ h => h) fun _ => finishDisconnect_ends

/-! ## The turn with its aftermath -/

/-- The part of `hookedLoop` behind the turn. -/
def afterTurn (loopResult : NbiotResult) : M NbiotResult := do
  onlyIf (loopResult = .fail) loopFailed
  let loopId := (← get).loop.loopId
  if loopResult = .idle ∧ loopId ≠ .unknown then
    loopSucceeded loopId
    return .pending
  else
    return loopResult

theorem hookedLoop_eq : hookedLoop = nbiotLoop wiring >>= afterTurn := rfl

theorem afterTurn_refines (r : NbiotResult) :
    Refines core session (Turned r) (afterTurn r) fun _ => Core.Idle := by
  refine .bind (R := fun _ k => k.Idle ∧ (r ≠ .fail → Turned r k)) (.onlyIf (fun hr => ?_) ?_)
    fun _ => .reads (g := id) (fun _ => rfl) fun s hs => .ite (fun h => ?_) fun _ => ?_
  · subst hr
    exact loopFailed_refines.post fun _ k hk => ⟨hk, absurd rfl⟩
  · exact fun _ k hk => ⟨hk.idle, fun _ => hk⟩
  · obtain ⟨rfl, hid⟩ := h
    obtain hunknown | ⟨c, hdis, hdone⟩ := ((hs.2 nofun).ended nofun).2
    · exact absurd hunknown hid
    · rw [show (id s).loop.loopId = c.loopId from hdone.2]
      refine .bind ((loopSucceeded_refines hdis).pre fun k hk => ?_) fun _ => .pure fun _ h => h
      exact hk ▸ ⟨hs.1, hdone⟩
  · exact .pure fun k hk => hk ▸ hs.1

/-- No handler runs and no client is active. -/
def Inactive (k : Core) : Prop := running k.trace = none ∧ k.loop.loopClient = none

theorem Ending.inactive {k k' : Core} (h : Ending k k') (hk : Inactive k) : Inactive k' := by
  cases h with
  | answer v h hactive => simp [hk.2] at hactive
  | wrap hanswered h =>
    cases h with
    | result r h => exact hk
    | value => exact hk
    | letGo id hactive h => exact ⟨hk.1, rfl⟩
  | closeSocket ok v w t hlog hstate => exact hk
  | setBreak => exact hk

theorem afterTurn_ends :
    Refines core endingMachine Disconnected (afterTurn .idle) fun _ k => k.Closed ∧ k.Idle := by
  have hframe := loopSucceeded_ends.frame (J := Inactive) fun _ h hk => h.inactive hk
  refine .bind (R := fun _ => Disconnected) (.onlyIf (fun h => nomatch h) fun _ _ h => h) fun _ => ?_
  refine .reads (g := id) (fun _ => rfl) fun s hs => ?_
  rw [show (id s).loop.loopId = .disconnect from hs.done.2]
  refine .ite (fun _ => ?_) fun h => absurd ⟨rfl, nofun⟩ h
  refine .bind (hframe.pre fun k hk => ?_) fun _ => .pure fun k hk => ?_
  · obtain ⟨w, t, hlog, -⟩ := hs.done.1
    exact hk ▸ ⟨hs, by rw [hlog]; rfl, hs.active⟩
  · exact ⟨hk.1, idle_of_inactive hk.2.1 hk.2.2⟩

/-- The turn with its aftermath. -/
theorem hookedLoop_refines :
    Refines core session Core.Idle hookedLoop fun _ => Core.Idle := by
  intro s hinv hidle
  rw [hookedLoop_eq, run_bind]
  obtain ⟨hrun, hturned⟩ | ⟨hr, hend, k₁, hrun, hending⟩ := nbiotLoop_runs s hinv hidle
  · obtain ⟨hrun', hidle'⟩ := afterTurn_refines _ _ (hrun.inv hinv) hturned
    exact ⟨hrun.trans hrun', hidle'⟩
  · rw [hr]
    obtain ⟨hending', hclosed, hidle'⟩ := afterTurn_ends _ (hending.inv (hrun.inv hinv)) hend
    exact ⟨hrun.tail (.ended ⟨hending.trans hending', hclosed⟩), hidle'⟩

/-! ## The event loop -/

/-- What a public call does between the turns of the controller leaves it idle. -/
theorem Refines.idle {α : Type} {m : M α} {P : Core → Prop} {Q : α → Core → Prop}
    (h : Refines core outside P m Q) :
    Refines core session (fun k => P k ∧ k.Idle) m fun a k => Q a k ∧ k.Idle :=
  (h.frame (J := Core.Idle) fun _ hstep hk => hk.of_unmoved hstep.unmoved).mono outside_sub_session

/-- A program that serves. -/
abbrev Serves {α : Type} (m : M α) : Prop :=
  Refines core servingMachine (fun _ => True) m fun _ _ => True

namespace Serves

variable {α β : Type}

theorem bind {m : M α} {f : α → M β} (hm : Serves m) (hf : ∀ a, Serves (f a)) : Serves (m >>= f) :=
  Refines.bind hm hf

theorem of_acts {m : M α} (h : Acts m) : Serves m := h.mono acts_sub_serving

theorem sendIf {e : StmEvent} (he : e.free = true) {b : Prop} [Decidable b] :
    Serves (onlyIf b (sendEvent e)) :=
  .onlyIf (fun _ => sendEvent_serves he) fun _ _ h => h

theorem session {m : M α} (h : Serves m) :
    Refines core LibNbiot.session Core.Idle m fun _ => Core.Idle :=
  (Refines.idle (h.mono serving_sub_outside)).conseq (fun _ hk => ⟨trivial, hk⟩) fun _ _ hk => hk.2

end Serves

theorem stateIs_acts (st : StateId) : Acts (stateIs st) := .of (stateIs_refines st) fun _ => trivial

theorem handleAsleep_serves : Serves handleAsleep := by
  refine Serves.bind (.of_acts (stateIs_acts _)) fun asleep => .ite (fun _ => ?_) fun _ =>
    .pure fun _ h => h
  refine Serves.bind (sendEvent_serves (by decide)) fun _ => ?_
  refine .silent_bind getPool_silent fun pool => ?_
  refine Serves.bind (.of_acts (Client.pmPing_refines _)) fun _ => ?_
  refine Serves.bind (.of_acts (Client.yield_refines _)) fun _ => ?_
  exact .silent restartAutoPoll_silent

theorem dispatchAndPoll_serves : Serves dispatchAndPoll := by
  refine Serves.bind dispatch_serves fun _ => .silent_bind getPool_silent fun pool => ?_
  refine .silent_bind getSn_silent fun sn => .ite (fun _ => ?_) fun _ => .pure fun _ h => h
  refine .silent_bind getPool_silent fun pool => .silent_bind (remaining_silent _) fun left => ?_
  refine .ite (fun _ => ?_) fun _ => .pure fun _ h => h
  exact Serves.bind (.of_acts (Client.yield_refines _)) fun _ => .silent restartAutoPoll_silent

theorem eventLoopBody_refines (mode : EventMode) :
    Refines core session Core.Idle (eventLoopBody mode) fun _ => Core.Idle := by
  refine .bind (.onlyIf (fun _ => handleAsleep_serves.session) fun _ _ h => h) fun _ => ?_
  refine .bind hookedLoop_refines fun r => .ite (fun _ => ?_) fun _ => .silent fun _ => rfl
  exact .bind dispatchAndPoll_serves.session fun _ => .silent fun _ => rfl

theorem eventLoopRun_refines (mode : EventMode) :
    Refines core session Core.Idle (eventLoopRun mode) fun _ => Core.Idle := by
  refine .silent_bind getPool_silent fun pool => .ite (fun _ => ?_) fun _ => .pure fun _ h => h
  refine .silent_bind getPool_silent fun pool => .silent_bind (remaining_silent _) fun left => ?_
  refine .ite (fun _ => ?_) fun _ => .pure fun _ h => h
  refine .silent_bind getPool_silent fun pool => .silent_bind (startTimer_silent _) fun t => ?_
  refine .silent_bind (modifyPool_silent fun _ => rfl) fun _ => ?_
  refine .silent_bind (setLock_silent _) fun _ => .bind (eventLoopBody_refines mode) fun _ => ?_
  exact .silent (setLock_silent _)

theorem eventLoopReady_serves : Serves eventLoopReady := by
  refine .silent_bind getPool_silent fun pool => .ite (fun _ => ?_) fun _ => .pure fun _ h => h
  refine Serves.bind (.of_acts (.of getCurrentStateId_refines fun _ => trivial)) fun st => ?_
  exact .pure fun _ h => h

theorem eventLoop_refines (mode : EventMode) :
    Refines core session Core.Idle (eventLoop mode) fun _ => Core.Idle := by
  refine .bind eventLoopReady_serves.session fun ready => .bind (.onlyIf (fun _ => ?_) fun _ _ h => h)
    fun _ => .silent_bind getMqtt_silent fun _ => .pure fun _ h => h
  refine .bind (eventLoopRun_refines mode) fun _ => .silent_bind getMqtt_silent fun mqtt => ?_
  refine .silent_bind get_silent fun s => .ite (fun _ => ?_) fun _ => .pure fun _ h => h
  exact .silent fun _ => rfl

end LibNbiot
