/-
# The traffic of every run

The handlers of the loop clients, the loop controller, the event loop and the public
calls. Only the step handlers receive anything, and they leave nothing unanswered; so
every run of the library is a run of the traffic that ends with everything answered.
-/

import LibNbiot.Traffic.Cycle
import Mathlib.Data.List.Induction

namespace LibNbiot

open Logic.Program Relation

namespace Traffic

/-! ## The handlers of the loop clients -/

theorem storeAndWait_passes (c : ClientId) (breakValue : MsgType) :
    Passes (storeAndWait c breakValue) :=
  .silent_bind (fun _ => rfl) fun _ => .silent_bind (fun _ => rfl) fun _ => loopWait_passes _ _

theorem startRequest_sends (c : ClientId) : Sends (startRequest c) := by
  refine .silent_bind (fun _ => rfl) fun _ => .silent_bind (fun _ => rfl) fun _ => ?_
  refine .silent_bind (fun _ => rfl) fun _ => .bind (sendPacket_sends _ _) fun _ => ?_
  exact .ite (.silent fun _ => rfl) (.pure _)

theorem startConLoop_sends : Sends startConLoop := by
  refine .silent_bind (fun _ => rfl) fun _ => .silent_bind (fun _ => rfl) fun _ => ?_
  refine .silent_bind (fun _ => rfl) fun _ => .bind (sendPacket_sends _ _) fun _ => ?_
  exact .ite (.silent_bind renewLastReceived_silent fun _ => .silent fun _ => rfl) (.pure _)

theorem republishInflight_sends : Sends republishInflight := by
  have hrestore : Sends restorePubbuf := .single fun s => .restore _
  refine .silent_bind (fun _ => rfl) fun _ => .silent_bind (fun _ => rfl) fun _ => .ite ?_ (.pure _)
  refine .bind hrestore fun _ => .silent_bind (fun _ => rfl) fun _ => ?_
  refine .silent_bind (fun _ => rfl) fun _ => .silent_bind (fun _ => rfl) fun sn => .bind ?_ fun _ =>
    .pure _
  exact .ite (.bind (sendPacket_sends _ _) fun _ => .pure _) (.pure _)

theorem finishConLoop_sends : Sends finishConLoop := by
  have haccepted : Silent traffic connackAccepted := fun _ => rfl
  refine .silent_bind (fun _ => rfl) fun _ => .silent_bind (.ite (.pure _) haccepted) fun _ => ?_
  exact .bind republishInflight_sends fun _ => .ite (.silent fun _ => rfl) (.pure _)

theorem finishRegLoop_silent : Silent traffic finishRegLoop :=
  .bind (fun _ => rfl) fun _ => .ite (.pure _) (.bind (fun _ => rfl) fun _ =>
    .ite (fun _ => rfl) (.pure _))

theorem finishUnsubLoop_silent : Silent traffic finishUnsubLoop :=
  .bind (fun _ => rfl) fun _ => .ite (.pure _) fun _ => rfl

theorem finishSubLoop_silent : Silent traffic finishSubLoop :=
  .bind (fun _ => rfl) fun _ => .ite (.pure _) (.bind (fun _ => rfl) fun _ =>
    .ite (fun _ => rfl) (.pure _))

theorem sendSerialized_sends (len timeout : Nat) : Sends (sendSerialized len timeout) := by
  refine .ite (.silent_bind (fun _ => rfl) fun _ => ?_) (.pure _)
  exact .bind (sendPacket_sends _ _) fun _ => .pure _

theorem sendSubPacket_sends (packetId : Int) (dup timeout : Nat) :
    Sends (sendSubPacket packetId dup timeout) := by
  have hserialize : Sends (serializeSub packetId dup) :=
    .silent_bind (fun _ => rfl) fun _ => .silent_bind (fun _ => rfl) fun _ => serialize_sends rfl rfl
  exact .bind hserialize fun _ => sendSerialized_sends _ _

/-- The QoS of the library is never -1. -/
theorem qosFits_publish (dup msgId : Nat) (qos : QoS) (retained : Bool) (topic : TopicId)
    (payload : Bytes) : Wire.qosFits (.publish dup qos.toNat retained msgId topic payload) := by
  cases qos
  · exact (by decide : 0 < 4)
  · exact (by decide : 1 < 4)
  · exact (by decide : 2 < 4)

/-- A publish is serialized, and copied. -/
theorem serializePub_sends (packetId : Int) (dup : Nat) : Sends (serializePub packetId dup) := by
  intro s _ _
  simp only [serializePub, getSn, getPool, run_bind, run_get, run_pure]
  cases hb : (Packet.publish dup s.rest.sn.qos.toNat s.rest.sn.retained (toUShort packetId)
    s.rest.pool.topicid s.rest.sn.payload).serialize with
  | none =>
    simp only [LibNbiot.serialize, hb]
    exact ⟨.refl, trivial⟩
  | some b =>
    have hpos := Packet.serialize_pos hb
    simp only [LibNbiot.serialize, hb, run_bind, run_pure, run_onlyIf, if_pos hpos]
    have hstep := Sending.publish (k := traffic s) _ b (Observed.view s.loop s.rest) rfl
      (qosFits_publish dup (toUShort packetId) s.rest.sn.qos s.rest.sn.retained
        s.rest.pool.topicid s.rest.sn.payload) hb
    refine ⟨.single ?_, trivial⟩
    have hcopy : overwrite s.rest.sn.pubbuf 0 ((overwrite s.rest.sn.sendbuf 0 b).take b.length) =
        overwrite (traffic s).pubbuf 0 b := by
      rw [overwrite_take]
      rfl
    rw [← hcopy] at hstep
    exact hstep

theorem sendPubPacket_sends (packetId : Int) (dup timeout : Nat) :
    Sends (sendPubPacket packetId dup timeout) :=
  .bind (serializePub_sends _ _) fun _ => sendSerialized_sends _ _

section Transmissions

variable {send : Int → Nat → Nat → M Bool} (hsend : ∀ id dup time, Sends (send id dup time))

include hsend

theorem startWith_sends (c : ClientId) : Sends (startWith c send) := by
  refine .silent_bind (fun _ => rfl) fun _ => .silent_bind (fun _ => rfl) fun _ => ?_
  refine .silent_bind (fun _ => rfl) fun _ => .silent_bind (fun _ => rfl) fun _ => ?_
  exact .bind (hsend _ _ _) fun _ => .ite (.silent fun _ => rfl) (.pure _)

theorem retransmit_sends (c : ClientId) (timeout : Nat) : Sends (retransmit c send timeout) := by
  refine .silent_bind (fun _ => rfl) fun _ => .silent_bind (fun _ => rfl) fun _ => ?_
  refine .silent_bind (fun _ => rfl) fun _ => .bind (hsend _ _ _) fun _ => ?_
  exact .ite (.silent fun _ => rfl) (.pure _)

end Transmissions

theorem retrySub_sends : Sends retrySub := by
  have hcount : Sends countSubRetry := .silent_bind (fun _ => rfl) fun _ => logApp_sends rfl
  refine .silent_bind (fun _ => rfl) fun _ => .silent_bind (fun _ => rfl) fun _ => .ite ?_ (.pure _)
  exact .bind hcount fun _ => .silent_bind (fun _ => rfl) fun _ =>
    retransmit_sends sendSubPacket_sends _ _

theorem retryPub_sends : Sends retryPub := by
  have hcount : Sends countPubRetry := .silent_bind (fun _ => rfl) fun _ => logApp_sends rfl
  refine .silent_bind (fun _ => rfl) fun _ => .silent_bind (fun _ => rfl) fun _ => .ite ?_ (.pure _)
  exact .bind hcount fun _ => .silent_bind (fun _ => rfl) fun _ =>
    retransmit_sends sendPubPacket_sends _ _

theorem finishPubLoop_silent : Silent traffic finishPubLoop := by
  have hinflight (returnCode : Nat) : Silent traffic (finishInflight returnCode) :=
    .bind (fun _ => rfl) fun _ => .ite (fun _ => rfl) (.pure _)
  refine .bind (fun _ => rfl) fun _ => .ite (.pure _) (.bind (fun _ => rfl) fun _ => ?_)
  refine .ite (.pure _) (.bind (fun _ => rfl) fun _ => .bind (fun _ => rfl) fun _ => ?_)
  exact .ite (.pure _) (.bind (fun _ => rfl) fun _ => .ite (hinflight _) (.pure _))

theorem startAttachLoop_silent : Silent traffic startAttachLoop :=
  .bind (fun _ => rfl) fun _ => .bind (fun _ => rfl) fun _ => .bind (fun _ => rfl) fun _ =>
    .ite (fun _ => rfl) (.pure _)

theorem doAttachLoop_silent : Silent traffic doAttachLoop := by
  have hpoll (timer : Timer) (fuel : Nat) : Silent traffic (pollAttached timer fuel) := by
    induction fuel with
    | zero => exact .pure _
    | succ fuel ih =>
      refine .bind (fun _ => rfl) fun _ => .ite (.pure _) (.bind (fun _ => rfl) fun attached => ?_)
      split
      · exact .pure _
      · exact ih
  refine .bind (fun _ => rfl) fun _ => .bind (fun _ => rfl) fun _ => .ite (.pure _) ?_
  exact .bind (fun _ => rfl) fun _ => .bind (hpoll _ _) fun _ => .ite (fun _ => rfl) (.pure _)

theorem finishAttachLoop_sends : Sends finishAttachLoop := by
  refine .silent_bind (fun _ => rfl) fun _ => .ite (.pure _) (.silent_bind (fun _ => rfl) fun _ => ?_)
  exact .ite (.bind (postEvent_sends _) fun _ => .pure _) (.silent fun _ => rfl)

theorem handler_passes (c : ClientId) (phase : LoopPhase) : Passes (handler c phase) := by
  cases phase with
  | start =>
    refine Sending.of_settled ?_
    cases c with
    | attach => exact .silent startAttachLoop_silent
    | con => exact startConLoop_sends
    | pub => exact startWith_sends sendPubPacket_sends _
    | sub => exact startWith_sends sendSubPacket_sends _
    | yield => exact .silent fun _ => rfl
    | reg | unsub | dis => exact startRequest_sends _
  | step =>
    cases c with
    | attach => exact Sending.of_settled (.silent doAttachLoop_silent)
    | pub =>
      refine .silent_bind (fun _ => rfl) fun sn => .ite (fun _ => .pure fun _ h => h) fun _ => ?_
      exact .bind (Sending.of_settled retryPub_sends) fun _ => storeAndWait_passes _ _
    | sub => exact .bind (Sending.of_settled retrySub_sends) fun _ => storeAndWait_passes _ _
    | yield =>
      refine .silent_bind (fun _ => rfl) fun _ => .silent_bind (fun _ => rfl) fun _ => ?_
      refine .silent_bind (fun _ => rfl) fun sn => .ite (fun _ => loopWait_passes _ _) fun _ => ?_
      exact .pure fun _ h => h
    | con | reg | unsub | dis => exact storeAndWait_passes _ _
  | stop =>
    refine Sending.of_settled ?_
    cases c with
    | attach => exact finishAttachLoop_sends
    | con => exact finishConLoop_sends
    | pub => exact .silent finishPubLoop_silent
    | reg => exact .silent finishRegLoop_silent
    | sub => exact .silent finishSubLoop_silent
    | unsub => exact .silent finishUnsubLoop_silent
    | yield | dis => exact .silent fun _ => rfl

/-! ## A turn of the controller -/

theorem clearLoop_sends : Sends (clearLoop : M Unit) := registerLoopClient_sends none

theorem callHandler_passes (c : ClientId) (phase : LoopPhase) :
    Passes (callHandler c phase (handler c phase)) := by
  refine .silent_bind (fun _ => rfl) fun _ => .bind (Sending.of_settled (log_sends rfl)) fun _ => ?_
  refine .bind (handler_passes c phase) fun _ => .silent_bind (fun _ => rfl) fun _ => ?_
  exact .bind (Sending.of_settled (log_sends rfl)) fun _ => .pure fun _ h => h

theorem startClient_passes (c : ClientId) : Passes (startClient wiring c) :=
  .bind (callHandler_passes c .start) fun _ => .ite (fun _ => .silent fun _ => rfl) fun _ =>
    .silent fun _ => rfl

theorem preLoopStep_passes (c : ClientId) : Passes (preLoopStep wiring c) :=
  .silent_bind (fun _ => rfl) fun _ => .bind (.onlyIf (fun _ => startClient_passes c) fun _ _ h => h)
    fun _ => .silent fun _ => rfl

theorem postLoopStep_passes (c : ClientId) : Passes (postLoopStep wiring c) := by
  have hstop : Passes (stopClient wiring c) :=
    .bind (callHandler_passes c .stop) fun _ => .ite (fun _ => .silent fun _ => rfl) fun _ =>
      .silent fun _ => rfl
  exact .silent_bind (fun _ => rfl) fun _ => .bind (.onlyIf (fun _ => hstop) fun _ _ h => h)
    fun _ => .silent fun _ => rfl

theorem stepClient_passes (c : ClientId) : Passes (stepClient wiring c) := by
  refine .bind (callHandler_passes c .step) fun _ => .ite (fun _ => .silent fun _ => rfl) fun _ => ?_
  exact .bind (postLoopStep_passes c) fun _ => .ite (fun _ => .silent fun _ => rfl) fun _ =>
    .silent fun _ => rfl

theorem stepActive_passes (c : ClientId) : Passes (stepActive wiring c) := by
  have hstep : Passes (loopStep wiring c) :=
    .silent_bind (fun _ => rfl) fun _ => .bind (.onlyIf (fun _ => stepClient_passes c) fun _ _ h => h)
      fun _ => .silent fun _ => rfl
  refine .bind hstep fun ret => .silent_bind (fun _ => rfl) fun _ => ?_
  refine .silent_bind (fun _ => rfl) fun _ => .ite (fun _ => .silent fun _ => rfl) fun _ => ?_
  exact .pure fun _ h => h

theorem takeClient_passes (c : ClientId) (queue : List ClientId) :
    Passes (takeClient wiring c queue) := by
  have htake : Sends (takeFront wiring c queue) :=
    .silent_bind (fun _ => rfl) fun _ => .bind (log_sends rfl) fun _ => .silent fun _ => rfl
  refine .bind (Sending.of_settled htake) fun _ => .bind (preLoopStep_passes c) fun _ => ?_
  exact .silent_bind (.onlyIf fun _ => rfl) fun _ => .pure fun _ h => h

theorem nbiotLoop_passes : Passes (nbiotLoop wiring) := by
  have hbreak : Sends (breakPending : M Unit) :=
    .silent_bind (fun _ => rfl) fun _ => .ite (.bind clearLoop_sends fun _ => .silent fun _ => rfl)
      (.pure _)
  refine .bind (Sending.of_settled hbreak) fun _ => .silent_bind (fun _ => rfl) fun s => ?_
  extract_lets lc
  split
  · exact stepActive_passes _
  · exact takeClient_passes _ _
  · exact .silent fun _ => rfl

/-! ## The event loop -/

theorem publishFailed_sends : Sends publishFailed := by
  refine .silent_bind (fun _ => rfl) fun _ => .silent_bind (fun _ => rfl) fun _ => ?_
  refine .silent_bind (fun _ => rfl) fun _ => .bind (pubackNotify_sends _) fun _ => ?_
  refine .silent_bind (fun _ => rfl) fun _ => .ite ?_ (.pure _)
  exact .silent_bind (fun _ => rfl) fun _ => postEvent_sends _

theorem loopFailed_sends : Sends loopFailed := by
  have hfailure (id : NbiotLoopId) : Sends (loopFailure id) := by
    cases id with
    | disconnect => exact finishDisconnect_sends
    | publish => exact publishFailed_sends
    | _ => exact .pure _
  exact .silent_bind (fun _ => rfl) fun _ => .bind (hfailure _) fun _ => registerLoopClient_sends none

theorem registerTopic_silent (loopId : NbiotLoopId) : Silent traffic (LibNbiot.registerTopic loopId) := by
  refine .bind (fun _ => rfl) fun _ => .bind (fun _ => rfl) fun _ => .bind (fun _ => rfl) fun _ => ?_
  refine .bind (.onlyIf fun _ => rfl) fun _ => .ite (fun _ => rfl) (.pure _)

theorem loopSucceeded_sends (loopId : NbiotLoopId) : Sends (loopSucceeded loopId) := by
  have hpublished : Sends publishSucceeded :=
    .silent_bind (fun _ => rfl) fun _ => .silent_bind (fun _ => rfl) fun _ => pubackNotify_sends _
  have htopic : Sends (topicSucceeded loopId) := by
    refine .silent_bind (fun _ => rfl) fun _ => .silent_bind (fun _ => rfl) fun _ => .ite ?_ (.pure _)
    exact .silent_bind (registerTopic_silent loopId) fun _ => .ite hpublished (.pure _)
  refine .silent_bind (fun _ => rfl) fun _ => .bind htopic fun _ => ?_
  refine .bind (.onlyIf ?_) fun _ => .silent_bind (fun _ => rfl) fun _ => ?_
  · exact .silent_bind (fun _ => rfl) fun _ => .silent_bind (fun _ => rfl) fun _ => logApp_sends rfl
  · exact .bind (.onlyIf (postEvent_sends _)) fun _ => .ite finishDisconnect_sends (.pure _)

theorem hookedLoop_passes : Passes hookedLoop := by
  refine .bind nbiotLoop_passes fun r => ?_
  refine .bind (Sending.of_settled (.onlyIf loopFailed_sends)) fun _ => ?_
  refine .silent_bind (fun _ => rfl) fun s => .ite (fun _ => ?_) fun _ => .pure fun _ h => h
  exact .bind (Sending.of_settled (loopSucceeded_sends _)) fun _ => .pure fun _ h => h

theorem handleAsleep_sends : Sends handleAsleep := by
  refine .bind (stateIs_sends _) fun _ => .ite (.bind (sendEvent_sends _) fun _ => ?_) (.pure _)
  refine .silent_bind (fun _ => rfl) fun _ => .bind (pmPing_sends _) fun _ => ?_
  exact .bind (yield_sends _) fun _ => .silent fun _ => rfl

theorem dispatchAndPoll_sends : Sends dispatchAndPoll := by
  refine .bind dispatch_sends fun _ => .silent_bind (fun _ => rfl) fun _ => ?_
  refine .silent_bind (fun _ => rfl) fun _ => .ite ?_ (.pure _)
  refine .silent_bind (fun _ => rfl) fun _ => .silent_bind (fun _ => rfl) fun _ => .ite ?_ (.pure _)
  exact .bind (yield_sends _) fun _ => .silent fun _ => rfl

theorem eventLoopBody_passes (mode : EventMode) : Passes (eventLoopBody mode) := by
  refine .bind (Sending.of_settled (.onlyIf handleAsleep_sends)) fun _ => ?_
  refine .bind hookedLoop_passes fun r => .ite (fun _ => ?_) fun _ => .silent fun _ => rfl
  exact .bind (Sending.of_settled dispatchAndPoll_sends) fun _ => .silent fun _ => rfl

theorem eventLoop_passes (mode : EventMode) : Passes (eventLoop mode) := by
  have hrun : Passes (eventLoopRun mode) := by
    refine .silent_bind (fun _ => rfl) fun pool => .ite (fun _ => ?_) fun _ => .pure fun _ h => h
    refine .silent_bind (fun _ => rfl) fun pool => .silent_bind (fun _ => rfl) fun _ => ?_
    refine .ite (fun _ => ?_) fun _ => .pure fun _ h => h
    refine .silent_bind (fun _ => rfl) fun _ => .silent_bind (fun _ => rfl) fun _ => ?_
    refine .silent_bind (fun _ => rfl) fun _ => .silent_bind (fun _ => rfl) fun _ => ?_
    exact .bind (eventLoopBody_passes mode) fun _ => .silent fun _ => rfl
  have hready : Sends eventLoopReady :=
    .silent_bind (fun _ => rfl) fun _ =>
      .ite (.bind getCurrentStateId_sends fun _ => .pure _) (.pure _)
  refine .bind (Sending.of_settled hready) fun _ => .bind (.onlyIf (fun _ => ?_) fun _ _ h => h)
    fun _ => .silent fun _ => rfl
  refine .bind hrun fun _ => .silent_bind (fun _ => rfl) fun _ => .silent_bind (fun _ => rfl) fun _ => ?_
  exact .ite (fun _ => .silent fun _ => rfl) fun _ => .pure fun _ h => h

/-! ## Runs -/

theorem exec_passes (call : ApiCall) : Passes call.exec := by
  have hsends {α : Type} {m : M α} (h : Sends m) : Passes (do let _ ← m : M Unit) :=
    .bind (Sending.of_settled h) fun _ => .pure fun _ h => h
  refine .bind (Sending.of_settled (logApp_sends rfl)) fun _ => ?_
  cases call with
  | connect cleanSession => exact hsends (userConnect_sends cleanSession)
  | publish topic data qos => exact hsends (userPublish_sends topic data qos)
  | subscribe topic mh => exact hsends (userSubscribe_sends topic mh)
  | unsubscribe topic => exact hsends (userUnsubscribe_sends topic)
  | disconnect => exact Sending.of_settled disconnectEvent_sends
  | sleep duration => exact Sending.of_settled (sleep_sends duration)
  | hibernate duration => exact Sending.of_settled (hibernate_sends duration)
  | wakeup => exact Sending.of_settled wakeup_sends
  | poll pollInterval => exact Sending.of_settled (poll_sends pollInterval)
  | eventLoop mode => exact .bind (eventLoop_passes mode) fun _ => .pure fun _ h => h

theorem nbiotConfig_silent (conf : NbiotConf) : Silent traffic (nbiotConfig conf) := by
  have hset {valid : Prop} [Decidable valid] (error : Nat) {set : M Unit} (h : Silent traffic set) :
      Silent traffic (configure valid error set) := .ite (.bind h fun _ => .pure _) (.pure _)
  refine .bind (fun _ => rfl) fun mqtt => .ite ?_ (.pure _)
  refine .bind (.onlyIf fun _ => rfl) fun _ => .bind (hset _ fun _ => rfl) fun _ => ?_
  refine .bind (hset _ fun _ => rfl) fun _ => .bind (hset _ fun _ => rfl) fun _ => ?_
  refine .bind (hset _ fun _ => rfl) fun _ => .bind (hset _ fun _ => rfl) fun _ => ?_
  refine .bind (hset _ fun _ => rfl) fun _ => .bind (hset _ fun _ => rfl) fun _ => ?_
  exact fun _ => rfl

/-- The traffic of a fresh library. -/
def fresh : Traffic where
  sendbuf := List.replicate maxPacketSize 0
  readbuf := List.replicate maxPacketSize 0
  pubbuf := List.replicate maxPacketSize 0
  trace := []

theorem boot_passes (setting : Setting) :
    passings.Run fresh (traffic setting.boot) ∧ Settled setting.boot.trace := by
  have hstart : Sends nbiotStart := by
    refine .silent_bind (fun _ => rfl) fun _ => .silent_bind (fun _ => rfl) fun _ => .ite ?_ (.pure _)
    exact .bind startStateMachine_sends fun _ => .pure _
  have hboot : Sends (do let _ ← nbiotConfig setting.conf
                         let _ ← nbiotStart : M Unit) :=
    .silent_bind (nbiotConfig_silent _) fun _ => .bind hstart fun _ => .pure _
  exact Sending.of_settled hboot setting.construct trivial nofun

/-- Every run of the library is a run of the traffic, and leaves nothing unanswered. -/
theorem after_passes (setting : Setting) (calls : List ApiCall) :
    passings.Run fresh (traffic (setting.after calls)) ∧ Settled (setting.after calls).trace := by
  induction calls using List.reverseRecOn with
  | nil => exact boot_passes setting
  | append_singleton calls call ih =>
    rw [setting.after_snoc]
    obtain ⟨hrun, hsettled⟩ := ih
    obtain ⟨hrun', hsettled'⟩ := exec_passes call _ trivial hsettled
    exact ⟨hrun.trans hrun', hsettled'⟩

/-- What holds of a fresh library and is kept by every step of the traffic holds after
every run. -/
theorem after_holds {J : Traffic → Prop} (hfresh : J fresh)
    (hstep : ∀ {k k'}, Passing k k' → J k → J k') (setting : Setting) (calls : List ApiCall) :
    J (traffic (setting.after calls)) :=
  ((after_passes setting calls).1.keeps trivial (fun _ h => hstep h) hfresh).2

end Traffic

end LibNbiot
