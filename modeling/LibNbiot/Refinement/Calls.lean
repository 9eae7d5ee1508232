/-
# The public calls refine the session machine

Between the turns of the controller a public call sends events to the state
machine and hands requests to the controller. A publish or a subscribe looks
first whether the controller is busy, so that its request is alone there, but
for the registration that a publish may need. The runs of the library are put
together at the end: whatever is called, and however often, the session does it.
-/

import LibNbiot.Refinement.EventLoop

namespace LibNbiot

open Logic.Program Relation

namespace Serves

variable {α : Type} {m : M α}

/-- What serves may be done by a public call. -/
theorem outside (h : Serves m) : Refines core outside (fun _ => True) m fun _ _ => True :=
  h.mono serving_sub_outside

/-- It keeps what its steps leave alone. -/
theorem keeps (h : Serves m) {J : Core → Prop} (hJ : ∀ {k k'}, Unmoved k k' → J k → J k') :
    Refines core LibNbiot.outside J m fun _ => J :=
  (h.outside.frame (J := J) fun _ hstep hk => hJ hstep.unmoved hk).conseq
    (fun _ hk => ⟨trivial, hk⟩) fun _ _ hk => hk.2

theorem keeps_idle (h : Serves m) : Refines core LibNbiot.outside Core.Idle m fun _ => Core.Idle :=
  h.keeps fun hk h => h.of_unmoved hk

end Serves

/-! ## Calls that only send events -/

theorem connect_serves (cleanSession : Nat) : Serves (connect cleanSession) := by
  have hfree (connected : Bool) : Serves
      (if connected then pure false else (!·) <$> isSleeping) :=
    .ite (fun _ => .pure fun _ h => h) fun _ => .map (Serves.of_acts isSleeping_refines)
  refine .silent_bind getPool_silent fun pool => .ite (fun _ => ?_) fun _ => .pure fun _ h => h
  refine Serves.bind (.of_acts (stateIs_acts _)) fun connected => Serves.bind (hfree connected)
    fun free => .ite (fun _ => ?_) fun _ => ?_
  · refine .silent_bind (modifyPool_silent fun _ => rfl) fun _ => ?_
    refine Serves.bind (sendEvent_serves (by decide)) fun _ => ?_
    exact .silent_bind getPool_silent fun _ => .pure fun _ h => h
  · refine Serves.bind (.of_acts isSleeping_refines) fun asleep => ?_
    refine Serves.bind (.sendIf (by decide)) fun _ => ?_
    exact .silent_bind getPool_silent fun _ => .pure fun _ h => h

theorem pollTime_silent (pollInterval : Nat) : Silent core (pollTime pollInterval) :=
  .bind getMqtt_silent fun _ => .bind getRegistry_silent fun _ => .ite (.pure _) (.pure _)

/-- The clients that are awake, and as a last resort those of a second kind. -/
theorem proceed_serves {m : M Bool} (hm : Serves m) (first : Bool) :
    Serves (if first then pure true else m) :=
  .ite (fun _ => .pure fun _ h => h) fun _ => hm

theorem poll_serves (pollInterval : Nat) : Serves (poll pollInterval) := by
  refine Serves.bind (.of_acts (stateIs_acts _)) fun awake => ?_
  refine Serves.bind (proceed_serves (.of_acts isSleeping_refines) awake) fun proceed =>
    .ite (fun _ => ?_) fun _ => .pure fun _ h => h
  refine Serves.bind (.of_acts isSleeping_refines) fun asleep => ?_
  refine Serves.bind (.sendIf (by decide)) fun _ => .silent_bind (pollTime_silent _) fun time => ?_
  exact Serves.bind (.of_acts (Client.yield_refines _)) fun _ => .silent restartAutoPoll_silent

theorem leaveSleep_serves : Serves leaveSleep := by
  refine Serves.bind (.of_acts isSleeping_refines) fun asleep => .ite (fun _ => ?_) fun _ => ?_
  · refine Serves.bind (.of_acts (stateIs_acts _)) fun awake => ?_
    refine Serves.bind (.sendIf (by decide)) fun _ => ?_
    exact sendEvent_serves (by decide)
  · refine Serves.bind (.of_acts (stateIs_acts _)) fun deep => .ite (fun _ => ?_) fun _ =>
      .pure fun _ h => h
    exact sendEvent_serves (by decide)

theorem doReconnect_serves : Serves doReconnect := by
  refine .silent_bind getPool_silent fun pool => .silent_bind (modifyPool_silent fun _ => rfl) fun _ => ?_
  refine Serves.bind (sendEvent_serves (by decide)) fun _ => ?_
  exact .silent (modifyPool_silent fun _ => rfl)

/-! ## Durations -/

theorem setDuration_refines (d : Nat) {P : Core → Prop} :
    Refines core outside P (setDuration d) fun _ k => (setInCall k.trace).isSome :=
  .single fun _ _ => ⟨.call (.setDuration d), rfl⟩

/-- The events that need a duration are sent after it was set. -/
theorem sendDuration_refines {e : StmEvent} (he : e ≠ .timer) :
    Refines core outside (fun k => (setInCall k.trace).isSome) (sendEvent e) fun _ _ => True :=
  .intro fun k₀ hk₀ => ((sendEvent_refines k₀.state).conseq
    (by rintro _ rfl; exact ⟨rfl, he, fun _ => hk₀⟩) fun _ _ _ => trivial).mono serving_sub_outside

theorem isDisconnected_serves : Serves isDisconnected := .of_acts (stateIs_acts _)

theorem sleep_refines (duration : Nat) :
    Refines core outside (fun _ => True) (sleep duration) fun _ _ => True := by
  refine .bind (Serves.of_acts (stateIs_acts _)).outside fun awake => ?_
  refine .bind (proceed_serves isDisconnected_serves awake).outside fun proceed =>
    .ite (fun _ => ?_) fun _ => .pure fun _ h => h
  refine .bind (setDuration_refines duration) fun _ => .silent_bind (modifyPool_silent fun _ => rfl) fun _ => ?_
  exact sendDuration_refines nofun

theorem hibernate_refines (duration : Nat) :
    Refines core outside (fun _ => True) (hibernate duration) fun _ _ => True := by
  refine .bind (Serves.of_acts (stateIs_acts _)).outside fun awake => ?_
  refine .bind (proceed_serves isDisconnected_serves awake).outside fun idle => ?_
  refine .bind (proceed_serves (.of_acts isSleeping_refines) idle).outside fun proceed =>
    .ite (fun _ => ?_) fun _ => .pure fun _ h => h
  refine .bind (Serves.of_acts isSleeping_refines).outside fun asleep => ?_
  have hwake : Serves (onlyIf (asleep = true) (sendEvent .wakeupEvent)) :=
    .sendIf (by decide)
  refine .bind hwake.outside fun _ => .bind (setDuration_refines duration) fun _ => ?_
  have hconn := ((stateIs_acts .connected).keeps (J := fun k => (setInCall k.trace).isSome)
    fun h hk => by rw [h.undisturbed.setInCall]; exact hk).mono acts_sub_outside
  refine .bind hconn fun connected => .silent_bind (modifyPool_silent fun _ => rfl) fun _ => ?_
  exact sendDuration_refines nofun

theorem wakeup_refines :
    Refines core outside (fun _ => True) wakeup fun _ _ => True := by
  refine .bind leaveSleep_serves.outside fun _ => .silent_bind getPool_silent fun pool => ?_
  refine .bind (R := fun _ _ => True) (.onlyIf (fun _ => ?_) fun _ _ h => h) fun _ =>
    (setDuration_refines 0).post fun _ _ _ => trivial
  exact .bind doReconnect_serves.outside fun _ => .silent (modifyPool_silent fun _ => rfl)

/-! ## Requests -/

/-- The controller has nothing to do. -/
def Free (k : Core) : Prop := k.loop.loopClient = none ∧ k.loop.clientList = []

/-- It has at most a registration to do. -/
def Registering (k : Core) : Prop :=
  k.loop.loopClient = none ∧ ∀ c ∈ k.loop.clientList, c = .reg

theorem Free.registering {k : Core} (h : Free k) : Registering k :=
  ⟨h.1, fun c hc => by simp [h.2] at hc⟩

/-- A controller that is not busy has nothing to do. -/
theorem free_of_not_busy {k : Core} (hidle : k.Idle) (hbusy : ¬k.loop.isBusy = true) : Free k := by
  simp only [NbiotLoop.isBusy, Bool.or_eq_true, decide_eq_true_eq, bne_iff_ne, not_or,
    not_lt, Nat.le_zero, List.length_eq_zero_iff, ne_eq, not_not] at hbusy
  refine ⟨?_, hbusy.1⟩
  cases hactive : k.loop.loopClient with
  | none => rfl
  | some c =>
    have hid := (hidle.active c hactive).2
    rw [hbusy.2] at hid
    cases c <;> cases hid

theorem registerTopic_outside (topicName : TopicId) :
    Refines core outside Free (Client.registerTopic topicName) fun _ => Registering := by
  have hframe := (Client.registerTopic_refines topicName).frame
    (J := fun k => k.loop.loopClient = none) fun _ h hk => h.unread.active.trans hk
  exact (hframe.mono acts_sub_outside).conseq (fun _ hk => ⟨hk.2, hk.1⟩) fun _ _ hk => ⟨hk.2, hk.1⟩

theorem topicNameAt_silent : Silent core topicNameAt := .bind (ask_silent _) fun _ => .pure _

theorem publishTopicFor_refines (topic : Bytes) :
    Refines core outside Free (publishTopicFor topic) fun _ => Registering := by
  refine .silent_bind (modifyPool_silent fun _ => rfl) fun _ => ?_
  refine .silent_bind getRegistry_silent fun registry => ?_
  split
  · refine .silent_bind getRegistry_silent fun _ => .silent_bind getPool_silent fun pool => ?_
    refine .ite (fun _ => ?_) fun _ => ?_
    · refine .silent_bind (modifyPool_silent fun _ => rfl) fun _ => ?_
      refine .silent_bind topicNameAt_silent fun ttn => ?_
      refine .silent_bind (modifyPool_silent fun _ => rfl) fun _ => ?_
      exact .silent_bind getPool_silent fun _ => registerTopic_outside _
    · exact .silent_bind (setErrno_silent _) fun _ => .pure fun _ h => h.registering
  · refine .silent_bind getRegistry_silent fun _ => ?_
    refine .silent_bind (.onlyIf (modifyRegistry_silent _)) fun _ => ?_
    refine .silent_bind getRegistry_silent fun _ => ?_
    refine .silent_bind (modifyPool_silent fun _ => rfl) fun _ => ?_
    exact .silent_bind (modifyPool_silent fun _ => rfl) fun _ => .pure fun _ h => h.registering

theorem publishNow_refines (topic data : Bytes) (qos : QoS) :
    Refines core outside Free (publishNow topic data qos) fun _ _ => True := by
  have hdisconnect : Refines core outside (fun _ => True) (sendEvent .disconnectEvent)
      fun _ _ => True := (sendEvent_serves (by decide)).mono serving_sub_outside
  refine .silent_bind (setErrno_silent _) fun _ => .bind (publishTopicFor_refines topic) fun rc =>
    .ite (fun _ => ?_) fun _ => ?_
  · refine .silent_bind getPool_silent fun pool => .bind (Client.publish_refines _ _ _ _) fun rc => ?_
    exact .ite (fun _ => .silent_bind (setErrno_silent _) fun _ => hdisconnect) fun _ =>
      (poll_serves 0).outside
  · refine .silent_bind getPool_silent fun pool => ?_
    exact .silent_bind (.onlyIf (setErrno_silent _)) fun _ => hdisconnect.pre fun _ _ => trivial

theorem publish_outside (topic data : Bytes) (qos : QoS) :
    Refines core outside Core.Idle (publish topic data qos) fun _ _ => True := by
  refine .silent_bind getPool_silent fun pool => .ite (fun _ => ?_) fun _ => .pure fun _ _ => trivial
  refine .bind (Serves.of_acts isSleeping_refines).keeps_idle fun asleep => ?_
  have hwake : Serves (onlyIf (asleep = true) (sendEvent .wakeupEvent)) := .sendIf (by decide)
  refine .bind hwake.keeps_idle fun _ => ?_
  refine .bind (Serves.of_acts (stateIs_acts _)).keeps_idle fun connected => .ite (fun _ => ?_)
    fun _ => .pure fun _ _ => trivial
  refine .reads (g := id) (fun _ => rfl) fun s hs => .ite (fun _ => .pure fun _ _ => trivial)
    fun hbusy => ?_
  refine .bind ((publishNow_refines topic data qos).pre ?_) fun _ => ?_
  · rintro k rfl
    exact free_of_not_busy hs hbusy
  · exact .silent_bind getPool_silent fun _ => .pure fun _ _ => trivial

theorem subscribeCurrent_refines (mh : Option MessageHandler) :
    Refines core outside Free (subscribeCurrent mh) fun _ _ => True := by
  refine .silent_bind topicNameAt_silent fun ttn => .silent_bind (modifyPool_silent fun _ => rfl) fun _ => ?_
  refine .silent_bind getPool_silent fun pool => .bind (Client.subscribe_refines _ _) fun rc =>
    .ite (fun _ => .pure fun _ _ => trivial) fun _ => ?_
  exact .silent_bind (modifyPool_silent fun _ => rfl) fun _ => .pure fun _ _ => trivial

theorem attachHandler_serves (index : Nat) (mh : Option MessageHandler) :
    Serves (attachHandler index mh) :=
  .silent_bind getRegistry_silent fun _ => .silent_bind (modifyRegistry_silent _) fun _ =>
    .silent_bind getRegistry_silent fun _ => Serves.of_acts (logApp_refines rfl nofun)

theorem subscribe_outside (topic : Bytes) (mh : Option MessageHandler) :
    Refines core outside Core.Idle (subscribe topic mh) fun _ _ => True := by
  refine .bind (Serves.of_acts (stateIs_acts _)).keeps_idle fun connected => .ite (fun _ => ?_)
    fun _ => .pure fun _ _ => trivial
  refine .reads (g := id) (fun _ => rfl) fun s hs => .ite (fun _ => .pure fun _ _ => trivial)
    fun hbusy => ?_
  have hfree : ∀ k, k = core s → Free k := fun k hk => hk ▸ free_of_not_busy hs hbusy
  refine .silent_bind getRegistry_silent fun registry => ?_
  split
  · refine .silent_bind getRegistry_silent fun _ => .silent_bind getPool_silent fun pool => ?_
    refine .ite (fun _ => ?_) fun _ => .pure fun _ _ => trivial
    refine .silent_bind (modifyPool_silent fun _ => rfl) fun _ => ?_
    exact (subscribeCurrent_refines mh).pre hfree
  · refine .silent_bind getRegistry_silent fun _ => .ite (fun _ => ?_) fun _ => ?_
    · refine .silent_bind (modifyPool_silent fun _ => rfl) fun _ => ?_
      exact (subscribeCurrent_refines mh).pre hfree
    · have hidle : ∀ k, k = core s → k.Idle := fun k hk => hk ▸ hs
      exact .bind ((attachHandler_serves _ mh).keeps_idle.pre hidle) fun _ =>
        .pure fun _ _ => trivial

theorem dropTopic_silent (index : Nat) : Silent core (dropTopic index) :=
  .bind (modifyRegistry_silent _) fun _ => .bind getRegistry_silent fun _ =>
    .ite (modifyPool_silent fun _ => rfl) (.pure _)

theorem unsubscribe_serves (topic : Bytes) : Serves (unsubscribe topic) := by
  refine Serves.bind (.of_acts (stateIs_acts _)) fun connected => .ite (fun _ => ?_) fun _ =>
    .pure fun _ h => h
  refine .silent_bind getRegistry_silent fun registry => ?_
  split
  · refine .silent_bind getRegistry_silent fun _ => .ite (fun _ => ?_) fun _ => .pure fun _ h => h
    refine .silent_bind topicNameAt_silent fun ttn => ?_
    refine Serves.bind (.of_acts (Client.unsubscribe_refines _)) fun rc => .ite (fun _ => ?_)
      fun _ => ?_
    · exact .pure fun _ h => h
    · exact .silent_bind (dropTopic_silent _) fun _ => .pure fun _ h => h
  · exact .pure fun _ h => h

/-! ## All calls -/

/-- A public call may leave the controller to the next one. -/
theorem call_refines (call : ApiCall) :
    Refines core session Core.Idle call.run fun _ => Core.Idle := by
  have outsideIdle {m : M Unit} (h : Refines core outside Core.Idle m fun _ _ => True) :
      Refines core session Core.Idle m fun _ => Core.Idle :=
    (Refines.idle h).conseq (fun _ hk => ⟨hk, hk⟩) fun _ _ hk => hk.2
  have unit {α : Type} {m : M α} {A : Machine Core} {P : Core → Prop} {Q : Core → Prop}
      (h : Refines core A P m fun _ => Q) : Refines core A P (do let _ ← m : M Unit) fun _ => Q :=
    .bind h fun _ => .pure fun _ hk => hk
  cases call with
  | connect cleanSession => exact unit (connect_serves cleanSession).session
  | publish topic data qos => exact outsideIdle (unit (publish_outside topic data qos))
  | subscribe topic mh => exact outsideIdle (unit (subscribe_outside topic mh))
  | unsubscribe topic => exact unit (unsubscribe_serves topic).session
  | disconnect => exact Serves.session (disconnect_refines.post fun _ _ _ => trivial)
  | sleep duration => exact outsideIdle ((sleep_refines duration).pre fun _ _ => trivial)
  | hibernate duration => exact outsideIdle ((hibernate_refines duration).pre fun _ _ => trivial)
  | wakeup => exact outsideIdle (wakeup_refines.pre fun _ _ => trivial)
  | poll pollInterval => exact (poll_serves pollInterval).session
  | eventLoop mode => exact unit (eventLoop_refines mode)

theorem exec_refines (call : ApiCall) :
    Refines core session Core.Idle call.exec fun _ => Core.Idle := by
  refine .bind (R := fun _ => Core.Idle) (.single fun s hs => ⟨.call (.api call), ?_⟩) fun _ =>
    call_refines call
  exact ⟨hs.running, hs.active⟩

end LibNbiot
