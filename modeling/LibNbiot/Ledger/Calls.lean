/-
# What the event loop and the public calls book

A turn of the loop controller with its aftermath, and every public call, as runs
of the ledger machine. A publish or subscribe selects its topic only while the
controller has nothing to do, and so far neither the current topic nor the calls
have changed in its course.
-/

import LibNbiot.Ledger.Clients

namespace LibNbiot

open Logic.Program Relation Ledger

variable {C : Option MessageHandler → List ApiCall → Bytes → Prop}

/-! ## A turn of the controller -/

theorem clearLoop_booked : Booked C (clearLoop : M Unit) := .change fun _ => .clear

theorem breakPending_booked : Booked C (breakPending : M Unit) :=
  .silent_bind get_silent fun _ => .ite (.bind clearLoop_booked fun _ => .silent fun _ => rfl)
    (.pure _)

theorem callHandler_booked (c : ClientId) (phase : LoopPhase) :
    Booked C (callHandler c phase (handler c phase)) := by
  refine .silent_bind (getValue_silent _) fun _ => .silent_bind (fun _ => rfl) fun _ => ?_
  refine .bind (handler_booked c phase) fun _ => .silent_bind (getValue_silent _) fun _ => ?_
  exact .silent_bind (fun _ => rfl) fun _ => .pure _

theorem startClient_booked (c : ClientId) : Booked C (startClient wiring c) :=
  .bind (callHandler_booked c .start) fun _ =>
    .ite (.silent (setResult_silent _ _)) (.silent (setResult_silent _ _))

theorem postLoopStep_booked (c : ClientId) : Booked C (postLoopStep wiring c) := by
  have hstop : Booked C (stopClient wiring c) := .bind (callHandler_booked c .stop) fun _ =>
    .ite (.silent (setResult_silent _ _)) (.silent (setResult_silent _ _))
  exact .silent_bind (getResult_silent _) fun _ => .bind (.onlyIf hstop) fun _ =>
    .silent (getResult_silent _)

theorem stepClient_booked (c : ClientId) : Booked C (stepClient wiring c) := by
  refine .bind (callHandler_booked c .step) fun _ => .ite (.silent (setResult_silent _ _)) ?_
  exact .bind (postLoopStep_booked c) fun _ =>
    .ite (.silent (setResult_silent _ _)) (.silent (setResult_silent _ _))

theorem stepActive_booked (c : ClientId) : Booked C (stepActive wiring c) := by
  have hstep : Booked C (loopStep wiring c) := .silent_bind (getResult_silent _) fun _ =>
    .bind (.onlyIf (stepClient_booked c)) fun _ => .silent (getResult_silent _)
  refine .bind hstep fun ret => .silent_bind (getValue_silent _) fun _ => ?_
  refine .silent_bind (fun _ => rfl) fun _ => .ite ?_ (.pure _)
  exact .silent_bind (getResult_silent _) fun _ => .silent_bind (fun _ => rfl) fun _ => .pure _

theorem takeClient_booked (c : ClientId) (queue : List ClientId) :
    Refines ledger (books C) (fun k => k.queue = c :: queue) (takeClient wiring c queue)
      fun _ _ => True := by
  refine .bind (R := fun _ _ => True) (.single fun s hs => ⟨.take c queue hs, trivial⟩) fun _ => ?_
  have hstart : Booked C (preLoopStep wiring c) := .silent_bind (getResult_silent _) fun _ =>
    .bind (.onlyIf (startClient_booked c)) fun _ => .silent (getResult_silent _)
  exact Booked.bind hstart fun _ => .bind (.onlyIf (.change fun _ => .unhook)) fun _ => .pure _

theorem nbiotLoop_booked : Booked C (nbiotLoop wiring) := by
  refine .bind breakPending_booked fun _ s hinv _ => ?_
  simp only [loopTurn, run_bind, run_get]
  cases s.loop.loopClient with
  | some c => exact stepActive_booked c s hinv trivial
  | none =>
    cases hqueue : s.loop.clientList with
    | cons c queue => exact takeClient_booked c queue s hinv hqueue
    | nil => exact (Booked.bind (.change fun _ => .unhook) fun _ => .pure _) s hinv trivial

/-! ## After a turn -/

theorem mark_booked (f : NbiotTopic → NbiotTopic)
    (h : ∀ t, ∃ id rc, f t = { t with id := id, returnCode := rc }) :
    Booked C (modifyPool fun pool => { pool with currentTopic := f pool.currentTopic }) := by
  refine .change fun s => ?_
  obtain ⟨id, rc, hf⟩ := h s.rest.pool.currentTopic
  have hmark := Change.mark (C := C) (k := ledger s) id rc
  rw [show (ledger s).currentTopic = s.rest.pool.currentTopic from rfl, ← hf] at hmark
  exact hmark

theorem publishFailed_booked : Booked C publishFailed := by
  refine .silent_bind get_silent fun s => .bind (mark_booked _ fun t => ⟨t.id, _, rfl⟩) fun _ => ?_
  refine .silent_bind getPool_silent fun _ => .bind (pubackNotify_booked _) fun _ => ?_
  refine .silent_bind getPool_silent fun _ => .ite ?_ (.pure _)
  exact .bind (.change fun _ => .fail .connectionError nofun) fun _ =>
    postEvent_booked (Or.inr (Or.inr rfl))

theorem loopFailed_booked : Booked C loopFailed := by
  have hfailure (id : NbiotLoopId) : Booked C (loopFailure id) := by
    cases id with
    | disconnect => exact .silent finishDisconnect_silent
    | publish => exact publishFailed_booked
    | _ => exact .pure _
  exact .silent_bind get_silent fun _ => .bind (hfailure _) fun _ => clearLoop_booked

theorem registerTopic_settles (s : Sys) :
    ledger (registerTopic s.loop.loopId s).2 = (ledger s).settle := by
  cases hid : s.loop.loopId <;>
    simp [registerTopic, settle, ledger, hid, modifyPool, modifyRegistry, getRegistry, getPool]

theorem topicSucceeded_booked (loopId : NbiotLoopId) :
    Refines ledger (books C) (fun k => k.loopId = loopId) (topicSucceeded loopId)
      fun _ _ => True := by
  have hmark : Refines ledger (books C) (fun k => k.loopId = loopId)
      (modifyPool fun pool =>
        { pool with currentTopic := { pool.currentTopic with id := pool.topicid.id } })
      fun _ k => k.loopId = loopId :=
    .single fun s hs => ⟨.mark s.rest.pool.topicid.id (ledger s).currentTopic.returnCode, hs⟩
  refine .bind hmark fun _ => .silent_bind getPool_silent fun pool => .ite (fun _ => ?_) fun _ =>
    .pure fun _ _ => trivial
  refine .bind (R := fun _ _ => True) (.single fun s hs => ⟨?_, trivial⟩) fun _ => ?_
  · have hsettles := registerTopic_settles s
    rw [show s.loop.loopId = loopId from hs] at hsettles
    rw [hsettles]
    exact .settle
  · refine Booked.ite ?_ (.pure _)
    exact .bind (mark_booked _ fun t => ⟨t.id, _, rfl⟩) fun _ =>
      .silent_bind getPool_silent fun _ => pubackNotify_booked _

/-- What a subscribe loop that went well makes of the registry. -/
theorem topicSucceeded_subscribed (s : Sys) (h : s.loop.loopId = .subscribe) :
    (ledger (topicSucceeded .subscribe s).2).loopId = .subscribe ∧
      (ledger (topicSucceeded .subscribe s).2).registry =
        s.rest.registry.subscribed (ledger (topicSucceeded .subscribe s).2).currentTopic := by
  let marked := (modifyPool (fun pool =>
    { pool with currentTopic := { pool.currentTopic with id := pool.topicid.id } }) s).2
  by_cases hok : marked.rest.pool.currentTopic.valid = true
  · have hrun : (topicSucceeded .subscribe s).2 = (registerTopic .subscribe marked).2 := by
      simp only [topicSucceeded, run_bind]
      show ((if marked.rest.pool.currentTopic.valid = true then (_ : M Unit) else _) marked).2 = _
      rw [if_pos hok]
      rfl
    have hloop : (ledger marked).loopId = .subscribe := h
    have hsettles := registerTopic_settles marked
    rw [show marked.loop.loopId = .subscribe from h] at hsettles
    rw [hrun, hsettles]
    have hvalid : ((ledger marked).currentTopic.setReg .sub).valid = true := hok
    simp only [settle, hloop, registeredTopic, NbiotTopicRegistry.subscribed, hvalid, if_true]
    exact ⟨trivial, rfl⟩
  · have hrun : (topicSucceeded .subscribe s).2 = marked := by
      simp only [topicSucceeded, run_bind]
      show ((if marked.rest.pool.currentTopic.valid = true then (_ : M Unit) else _) marked).2 = _
      rw [if_neg hok]
      rfl
    rw [hrun]
    refine ⟨h, ?_⟩
    rw [NbiotTopicRegistry.subscribed]
    exact (if_neg hok).symm

theorem loopSucceeded_booked (loopId : NbiotLoopId) :
    Refines ledger (books C) (fun k => k.loopId = loopId) (loopSucceeded loopId)
      fun _ _ => True := by
  refine .reads getRegistry_eq fun s hs => ?_
  have htopic := ((topicSucceeded_booked (C := C) loopId).pre
    (P := fun k => k = ledger s) fun k hk => hk ▸ hs).and_post
    (T := fun _ k => loopId = .subscribe →
      k.loopId = .subscribe ∧ k.registry = s.rest.registry.subscribed k.currentTopic)
    fun s' hs' hid => by
      subst hid
      rw [show s.rest.registry = s'.rest.registry from congrArg Ledger.registry hs'.symm]
      exact topicSucceeded_subscribed s' ((congrArg Ledger.loopId hs').trans hs)
  refine .bind htopic fun _ => .bind (R := fun _ _ => True) (.onlyIf (fun hid => ?_) fun _ _ _ => trivial)
    fun _ => ?_
  · refine .single fun s' hs' => ⟨?_, trivial⟩
    obtain ⟨hloop, hregistry⟩ := hs'.2 hid
    exact .install s.rest.registry hloop hregistry
  refine Booked.silent_bind getSn_silent fun _ => .bind (.onlyIf (postEvent_booked (Or.inr (Or.inl rfl)))) fun _ => ?_
  exact .ite (.silent finishDisconnect_silent) (.pure _)

theorem hookedLoop_booked : Booked C hookedLoop := by
  refine .bind nbiotLoop_booked fun r => .bind (.onlyIf loopFailed_booked) fun _ => ?_
  refine .reads (g := id) (fun _ => rfl) fun s _ => .ite (fun _ => ?_) fun _ => .pure fun _ _ => trivial
  exact .bind ((loopSucceeded_booked _).pre fun k hk => hk ▸ rfl) fun _ => .pure fun _ _ => trivial

/-! ## The event loop -/

theorem handleAsleep_booked : Booked C handleAsleep := by
  refine .silent_bind (stateIs_silent _) fun _ => .ite ?_ (.pure _)
  refine .bind (sendEvent_booked rfl) fun _ => .silent_bind getPool_silent fun _ => ?_
  refine .silent_bind (pmPing_silent _) fun _ => .bind (.queueing (loopYield_queueing _)) fun _ => ?_
  exact .silent restartAutoPoll_silent

theorem dispatchAndPoll_booked : Booked C dispatchAndPoll := by
  refine .bind dispatch_booked fun _ => .silent_bind getPool_silent fun _ => ?_
  refine .silent_bind getSn_silent fun _ => .ite ?_ (.pure _)
  refine .silent_bind getPool_silent fun _ => .silent_bind (remaining_silent _) fun _ => .ite ?_ (.pure _)
  exact .bind (.queueing (loopYield_queueing _)) fun _ => .silent restartAutoPoll_silent

theorem eventLoop_booked (mode : EventMode) : Booked C (eventLoop mode) := by
  have hbody : Booked C (eventLoopBody mode) := by
    refine .bind (.onlyIf handleAsleep_booked) fun _ => .bind hookedLoop_booked fun r => .ite ?_ ?_
    · exact .bind dispatchAndPoll_booked fun _ => .silent (modifyMqtt_silent _)
    · exact .silent (modifyMqtt_silent _)
  have hrun : Booked C (eventLoopRun mode) := by
    refine .silent_bind getPool_silent fun _ => .ite ?_ (.pure _)
    refine .silent_bind getPool_silent fun _ => .silent_bind (remaining_silent _) fun _ => ?_
    refine .ite ?_ (.pure _)
    refine .silent_bind getPool_silent fun _ => .silent_bind (startTimer_silent _) fun _ => ?_
    refine .silent_bind (fun _ => rfl) fun _ => .silent_bind (setLock_silent _) fun _ => ?_
    exact .bind hbody fun _ => .silent (setLock_silent _)
  have hready : Silent ledger eventLoopReady :=
    .bind getPool_silent fun _ => .ite (.bind getCurrentStateId_silent fun _ => .pure _) (.pure _)
  refine .silent_bind hready fun _ => .bind (.onlyIf ?_) fun _ => .silent (.bind getMqtt_silent fun _ =>
    .pure _)
  refine .bind hrun fun _ => .silent_bind getMqtt_silent fun _ => .silent_bind get_silent fun _ => ?_
  exact .ite (.silent (modifyMqtt_silent _)) (.pure _)

/-! ## Calls that only send events -/

theorem connect_booked (cleanSession : Nat) : Booked C (connect cleanSession) := by
  refine .silent_bind getPool_silent fun _ => .ite ?_ (.pure _)
  refine .silent_bind (stateIs_silent _) fun _ => .silent_bind (.ite (.pure _) (.map isSleeping_silent))
    fun _ => .ite ?_ ?_
  · refine .silent_bind (fun _ => rfl) fun _ => .bind (sendEvent_booked rfl) fun _ => ?_
    exact .silent_bind getPool_silent fun _ => .pure _
  · refine .silent_bind isSleeping_silent fun _ => .bind (.onlyIf (sendEvent_booked rfl)) fun _ => ?_
    exact .silent_bind getPool_silent fun _ => .pure _

theorem poll_booked (pollInterval : Nat) : Booked C (poll pollInterval) := by
  refine .silent_bind (stateIs_silent _) fun _ => .silent_bind (.ite (.pure _) isSleeping_silent)
    fun _ => .ite ?_ (.pure _)
  refine .silent_bind isSleeping_silent fun _ => .bind (.onlyIf (sendEvent_booked rfl)) fun _ => ?_
  have htime : Silent ledger (pollTime pollInterval) :=
    .bind getMqtt_silent fun _ => .bind getRegistry_silent fun _ => .ite (.pure _) (.pure _)
  refine .silent_bind htime fun _ => .bind (.queueing (loopYield_queueing _)) fun _ => ?_
  exact .silent restartAutoPoll_silent

theorem sleep_booked (duration : Nat) : Booked C (sleep duration) := by
  refine .silent_bind (stateIs_silent _) fun _ => .silent_bind (.ite (.pure _) (stateIs_silent _))
    fun _ => .ite ?_ (.pure _)
  refine .silent_bind (setDuration_silent _) fun _ => .silent_bind (fun _ => rfl) fun _ => ?_
  exact sendEvent_booked rfl

theorem hibernate_booked (duration : Nat) : Booked C (hibernate duration) := by
  refine .silent_bind (stateIs_silent _) fun _ => .silent_bind (.ite (.pure _) (stateIs_silent _))
    fun _ => .silent_bind (.ite (.pure _) isSleeping_silent) fun _ => .ite ?_ (.pure _)
  refine .silent_bind isSleeping_silent fun _ => .bind (.onlyIf (sendEvent_booked rfl)) fun _ => ?_
  refine .silent_bind (setDuration_silent _) fun _ => .silent_bind (stateIs_silent _) fun _ => ?_
  exact .silent_bind (fun _ => rfl) fun _ => sendEvent_booked rfl

theorem wakeup_booked : Booked C wakeup := by
  have hleave : Booked C leaveSleep := by
    refine .silent_bind isSleeping_silent fun _ => .ite ?_ ?_
    · refine .silent_bind (stateIs_silent _) fun _ => .bind (.onlyIf (sendEvent_booked rfl)) fun _ => ?_
      exact sendEvent_booked rfl
    · refine Refines.bind (stateIs_books (P := fun _ => True) .deepSleep) fun b => ?_
      refine Refines.ite (fun hb => .single fun s hs => ?_) fun _ => .pure fun _ _ => trivial
      exact ⟨.dispatch _ (.reInitialize (hs.2 hb)) (sendEvent_dispatches _ s), trivial⟩
  have hreconnect : Booked C doReconnect := by
    refine .silent_bind getPool_silent fun _ => .silent_bind (fun _ => rfl) fun _ => ?_
    exact .bind (sendEvent_booked rfl) fun _ => .silent fun _ => rfl
  refine .bind hleave fun _ => .silent_bind getPool_silent fun _ => .bind (.onlyIf ?_) fun _ =>
    .silent (setDuration_silent _)
  exact .bind hreconnect fun _ => .silent fun _ => rfl

theorem unsubscribe_queueing (topicFilter : TopicId) :
    Queueing (Client.unsubscribe topicFilter) := by
  refine .bind (.silent getSn_silent) fun _ => .ite ?_ (.pure _)
  refine .bind (.silent getNext_silent) fun _ => .bind (.silent (serialize_silent _)) fun _ => ?_
  refine .ite (.bind (.silent fun _ => rfl) fun _ => ?_) (.pure _)
  exact .bind (loopRequest_queueing rfl _) fun _ => .pure _

theorem unsubscribe_booked (topic : Bytes) : Booked C (unsubscribe topic) := by
  have hdrop (index : Nat) : Booked C (dropTopic index) :=
    .bind (.change fun _ => .forget index) fun _ => .silent_bind getRegistry_silent fun _ =>
      .ite (.silent fun _ => rfl) (.pure _)
  refine .silent_bind (stateIs_silent _) fun _ => .ite ?_ (.pure _)
  refine .silent_bind getRegistry_silent fun registry => ?_
  split
  · refine .silent_bind getRegistry_silent fun _ => .ite ?_ (.pure _)
    refine .silent_bind topicNameAt_silent fun _ => .bind (.queueing (unsubscribe_queueing _)) fun _ => ?_
    exact .ite (.pure _) (.bind (hdrop _) fun _ => .pure _)
  · exact .pure _

end LibNbiot
