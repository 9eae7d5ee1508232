/-
# What the state machine sends

Requests that are handed to the loop controller, the state machine with its
dispatcher, and the public calls but for the event loop: whatever they do to the
traffic, it is something that is sent.
-/

import LibNbiot.Traffic.Core

namespace LibNbiot

open Logic.Program

namespace Traffic

/-! ## Requests -/

theorem registerLoopClient_sends (c : Option ClientId) :
    Sends (registerLoopClient c : M Unit) := by
  cases c with
  | some c => exact .bind (log_sends rfl) fun _ => .silent fun _ => rfl
  | none => exact .silent_bind (fun _ => rfl) fun _ => .bind (log_sends rfl) fun _ => .silent fun _ => rfl

theorem loopBreak_silent : Silent traffic (loopBreak : M Unit) :=
  .bind (fun _ => rfl) fun _ => .ite (fun _ => rfl) (.pure _)

theorem loopRequest_sends (c : ClientId) (length : Nat) : Sends (loopRequest c length) :=
  .silent_bind (fun _ => rfl) fun _ => .silent_bind (fun _ => rfl) fun _ =>
    .silent_bind (fun _ => rfl) fun _ => registerLoopClient_sends _

theorem loopPublish_sends (id timerLeft : Nat) : Sends (loopPublish id timerLeft) := by
  refine .silent_bind (fun _ => rfl) fun _ => .silent_bind (fun _ => rfl) fun _ => ?_
  refine .silent_bind (fun _ => rfl) fun _ => .silent_bind (fun _ => rfl) fun _ => ?_
  exact .bind (logApp_sends rfl) fun _ => registerLoopClient_sends _

theorem loopSubscribe_sends (id timerLeft : Nat) : Sends (loopSubscribe id timerLeft) := by
  refine .silent_bind (fun _ => rfl) fun _ => .silent_bind (fun _ => rfl) fun _ => ?_
  refine .silent_bind (fun _ => rfl) fun _ => ?_
  exact .bind (logApp_sends rfl) fun _ => registerLoopClient_sends _

theorem yield_sends (timeoutMs : Nat) : Sends (Client.yield timeoutMs) :=
  .bind (.silent_bind (fun _ => rfl) fun _ => registerLoopClient_sends _) fun _ => .pure _

theorem connect_sends (duration cleansession : Nat) (clientId : Bytes) :
    Sends (Client.connect duration cleansession clientId) := by
  refine .silent_bind (fun _ => rfl) fun _ => .ite (.pure _) (.silent_bind (fun _ => rfl) fun _ => ?_)
  refine .bind (serialize_sends rfl rfl) fun _ => ?_
  exact .ite (.bind (loopRequest_sends _ _) fun _ => .pure _) (.pure _)

theorem registerTopic_sends (topicName : TopicId) : Sends (Client.registerTopic topicName) := by
  refine .silent_bind (fun _ => rfl) fun _ => .bind (serialize_sends rfl rfl) fun _ => ?_
  refine .ite (.silent_bind (fun _ => rfl) fun _ => ?_) (.pure _)
  exact .bind (loopRequest_sends _ _) fun _ => .pure _

theorem publish_sends (topicName : TopicId) (payload : Bytes) (retained : Bool) (qos : QoS) :
    Sends (Client.publish topicName payload retained qos) := by
  refine .silent_bind (fun _ => rfl) fun _ => .silent_bind (fun _ => rfl) fun _ => ?_
  refine .silent_bind (fun _ => rfl) fun _ => .ite ?_ (.pure _)
  have hid : Silent traffic (Client.nextPublishId qos) := .ite (fun _ => rfl) (.pure _)
  refine .silent_bind hid fun _ => .silent_bind (fun _ => rfl) fun _ => ?_
  refine .silent_bind (fun _ => rfl) fun _ => .silent_bind (fun _ => rfl) fun _ => ?_
  exact .bind (loopPublish_sends _ _) fun _ => .pure _

theorem subscribe_sends (topicFilter : TopicId) (qos : QoS) :
    Sends (Client.subscribe topicFilter qos) := by
  refine .silent_bind (fun _ => rfl) fun _ => .ite ?_ (.pure _)
  refine .silent_bind (fun _ => rfl) fun _ => .silent_bind (fun _ => rfl) fun _ => ?_
  refine .silent_bind (fun _ => rfl) fun _ => .silent_bind (fun _ => rfl) fun _ => ?_
  refine .silent_bind (fun _ => rfl) fun _ => .silent_bind (fun _ => rfl) fun _ => ?_
  exact .bind (loopSubscribe_sends _ _) fun _ => .pure _

theorem unsubscribe_sends (topicFilter : TopicId) : Sends (Client.unsubscribe topicFilter) := by
  refine .silent_bind (fun _ => rfl) fun _ => .ite ?_ (.pure _)
  refine .silent_bind (fun _ => rfl) fun _ => .bind (serialize_sends rfl rfl) fun _ => ?_
  refine .ite (.silent_bind (fun _ => rfl) fun _ => ?_) (.pure _)
  exact .bind (loopRequest_sends _ _) fun _ => .pure _

theorem disconnect_sends (duration : Nat) : Sends (Client.disconnect duration) := by
  refine .silent_bind (fun _ => rfl) fun _ => .silent_bind (fun _ => rfl) fun _ => ?_
  refine .bind (serialize_sends rfl rfl) fun _ => ?_
  exact .ite (.bind (loopRequest_sends _ _) fun _ => .pure _) (.pure _)

/-! ## Actions -/

theorem getCurrentStateId_sends : Sends getCurrentStateId := by
  refine .silent_bind (fun _ => rfl) fun stm => ?_
  extract_lets done
  exact .ite (.bind (logApp_sends rfl) fun _ => .pure _) (.pure _)

theorem stateIs_sends (st : StateId) : Sends (stateIs st) :=
  .bind getCurrentStateId_sends fun _ => .pure _

theorem isSleeping_sends : Sends isSleeping := by
  refine .bind (stateIs_sends _) fun _ => .ite (.pure _) ?_
  exact .bind (stateIs_sends _) fun _ => .ite (.pure _) (stateIs_sends _)

theorem postEvent_sends (e : StmEvent) : Sends (postEvent e) :=
  .bind (logApp_sends rfl) fun _ => .silent fun _ => rfl

theorem notify_sends (n : Notification) : Sends (notify n) :=
  .silent_bind (fun _ => rfl) fun _ => .ite (logApp_sends rfl) (.pure _)

theorem notifyState_sends (action : NbiotAction) (returnCode : Nat)
    (errorNumber : Option StateId → ErrorNumber) :
    Sends (notifyState action returnCode errorNumber) := by
  refine .silent_bind (fun _ => rfl) fun _ => .ite ?_ (.pure _)
  exact .bind getCurrentStateId_sends fun _ => notify_sends _

theorem networkConnect_sends : Sends networkConnect :=
  .silent_bind (fun _ => rfl) fun _ => .silent_bind (fun _ => rfl) fun _ =>
    .bind (logApp_sends rfl) fun _ => .pure _

theorem networkDisconnect_sends : Sends networkDisconnect :=
  .silent_bind (fun _ => rfl) fun _ => .silent_bind (fun _ => rfl) fun _ =>
    .bind (logApp_sends rfl) fun _ => .pure _

theorem finishDisconnect_sends : Sends finishDisconnect := by
  refine .silent_bind (fun _ => rfl) fun _ => .bind (.onlyIf ?_) fun _ => ?_
  · exact .bind networkDisconnect_sends fun _ => .pure _
  · exact .silent_bind (fun _ => rfl) fun _ => .ite (.silent loopBreak_silent) (.pure _)

theorem doDisconnect_sends : Sends doDisconnect := by
  refine .silent_bind (fun _ => rfl) fun _ => .ite ?_ finishDisconnect_sends
  exact .silent_bind (fun _ => rfl) fun _ => .bind (disconnect_sends _) fun _ => .pure _

theorem mqttDisconnect_sends : Sends mqttDisconnect := by
  refine .silent_bind (fun _ => rfl) fun _ => .ite ?_ (.pure _)
  exact .silent_bind (fun _ => rfl) fun _ => .bind (disconnect_sends _) fun _ => .pure _

theorem mqttConnect_sends (cleanSession : Nat) : Sends (mqttConnect cleanSession) := by
  refine .silent_bind (fun _ => rfl) fun _ => .ite (.pure _) ?_
  exact .silent_bind (fun _ => rfl) fun _ => .bind (connect_sends _ _ _) fun _ => .pure _

theorem doModemAttach_sends : Sends doModemAttach :=
  .silent_bind (fun _ => rfl) fun _ => .silent_bind (fun _ => rfl) fun _ =>
    registerLoopClient_sends _

theorem action_sends (t : Transition) : Sends t.action := by
  cases t with
  | mIsNotAttached =>
    exact .silent_bind (fun _ => rfl) fun _ => .silent_bind (fun _ => rfl) fun _ =>
      doModemAttach_sends
  | mIsAttachedIpConnect =>
    refine .silent_bind (fun _ => rfl) fun _ => .silent_bind (fun _ => rfl) fun _ => .ite ?_ (.pure _)
    exact .bind networkConnect_sends fun _ => .pure _
  | mWaitConnectIsConnected =>
    exact .silent_bind (fun _ => rfl) fun _ => .bind (mqttConnect_sends _) fun _ => .pure _
  | mSleep => exact .silent_bind (fun _ => rfl) fun _ => .ite mqttDisconnect_sends (.pure _)
  | mWakeup =>
    refine .silent_bind (fun _ => rfl) fun _ => .ite ?_ (.pure _)
    exact .bind (mqttConnect_sends _) fun _ => .pure _
  | mAwakeActive => exact .bind (mqttConnect_sends _) fun _ => .pure _
  | _ => exact .silent fun _ => rfl

/-! ## Entry actions -/

theorem initCredentials_silent : Silent traffic initCredentials := by
  refine .bind (fun _ => rfl) fun pool => ?_
  extract_lets jp
  have hjp (y : Unit) : Silent traffic (jp y) :=
    .bind (fun _ => rfl) fun _ => .ite (.pure _) fun _ => rfl
  refine .ite ?_ (hjp ())
  exact .bind (fun _ => rfl) fun _ => .ite (.bind (fun _ => rfl) hjp) (hjp ())

theorem actionInitialEntry_sends (e : StmEvent) : Sends (actionInitialEntry e) := by
  have hreboot (again : Bool) : Sends (rebootModem again) :=
    .ite (.pure _) (.silent_bind (fun _ => rfl) fun _ => .bind (logApp_sends rfl) fun _ => .pure _)
  have hinit (rebooted : Bool) : Sends (initializeModem rebooted) :=
    .ite (.silent_bind (fun _ => rfl) fun _ => .bind (logApp_sends rfl) fun _ => .pure _) (.pure _)
  refine .bind (hreboot _) fun _ => .bind (hinit _) fun _ => ?_
  refine .silent_bind (.ite initCredentials_silent (.pure _)) fun _ => ?_
  refine .bind (.onlyIf (postEvent_sends _)) fun _ => .silent_bind (fun _ => rfl) fun _ => ?_
  exact .bind (notify_sends _) fun _ => .silent fun _ => rfl

theorem actionErrorEntry_sends : Sends actionErrorEntry := by
  have hrecover : Sends recoverFromError := by
    refine .silent_bind (fun _ => rfl) fun _ => .ite ?_ (.silent fun _ => rfl)
    refine .silent_bind (fun _ => rfl) fun _ => .ite ?_ (postEvent_sends _)
    refine .silent_bind (fun _ => rfl) fun _ => .silent_bind (fun _ => rfl) fun _ => ?_
    exact .bind (logApp_sends rfl) fun _ => postEvent_sends _
  exact .bind hrecover fun _ => .silent_bind (fun _ => rfl) fun _ => notify_sends _

theorem restoreSubscriptions_sends : Sends restoreSubscriptions := by
  refine .silent_bind (fun _ => rfl) fun _ => .silent_bind (fun _ => rfl) fun _ => ?_
  refine .silent_bind (.onlyIf (.ite (fun _ => rfl) fun _ => rfl)) fun _ => ?_
  exact .silent_bind (fun _ => rfl) fun _ => logApp_sends rfl

theorem entryAction_sends (e : StmEvent) (st : StateId) : Sends (st.entryAction e) := by
  cases st with
  | initial => exact actionInitialEntry_sends e
  | disconnected =>
    refine .bind doDisconnect_sends fun _ => .silent_bind (fun _ => rfl) fun _ => ?_
    exact .bind (notify_sends _) fun _ => .silent fun _ => rfl
  | error => exact actionErrorEntry_sends
  | connected =>
    exact .silent_bind (fun _ => rfl) fun _ => .bind restoreSubscriptions_sends fun _ => notify_sends _
  | deepSleep =>
    refine .bind doDisconnect_sends fun _ => .silent_bind (fun _ => rfl) fun _ => ?_
    exact .bind (logApp_sends rfl) fun _ => .silent_bind (fun _ => rfl) fun _ => notify_sends _
  | _ => exact .silent fun _ => rfl

theorem enterState_sends (st : StateId) (e : StmEvent) : Sends (enterState st e) := by
  have hset : Sends (setCurrentState st) := .silent_bind (fun _ => rfl) fun _ => logApp_sends rfl
  refine .bind hset fun _ => .silent_bind (fun _ => rfl) fun _ => ?_
  exact .silent_bind (.onlyIf fun _ => rfl) fun _ => entryAction_sends e st

/-! ## Events -/

/-- The induction is on the target: a choice goes on with one of its transitions. -/
theorem trigger_sends (t : Transition) (e : StmEvent) (target : Target) :
    Sends (trigger t e target) := by
  induction target generalizing t with
  | state st =>
    exact .bind (logApp_sends rfl) fun _ => .bind (action_sends t) fun _ => enterState_sends st e
  | choice c t₀ target₀ t₁ target₁ ih₀ ih₁ =>
    have hcondition : Silent traffic c.condition := by cases c <;> exact fun _ => rfl
    refine .bind (logApp_sends rfl) fun _ => .bind (action_sends t) fun _ => ?_
    exact .silent_bind hcondition fun _ => .ite (ih₀ t₀) (ih₁ t₁)

theorem handleEvent_sends (e : StmEvent) : Sends (handleEvent e) := by
  refine .silent_bind (fun _ => rfl) fun stm => ?_
  split
  · split
    · exact trigger_sends _ e _
    · exact .pure _
  · exact .pure _

theorem drainEvents_sends (events : List StmEvent) : Sends (drainEvents events) := by
  induction events with
  | nil => exact .pure _
  | cons e events ih =>
    exact .silent_bind (fun _ => rfl) fun _ => .bind (handleEvent_sends e) fun _ => ih

theorem dispatchTimeout_sends : Sends dispatchTimeout := by
  refine .silent_bind (fun _ => rfl) fun stm => .ite ?_ (logApp_sends rfl)
  refine .silent_bind (fun _ => rfl) fun _ => .bind (logApp_sends rfl) fun _ => .ite ?_ (.pure _)
  refine .silent_bind (fun _ => rfl) fun _ => .silent_bind (fun _ => rfl) fun now => ?_
  exact .silent_bind (.ite (fun _ => rfl) (.pure _)) fun _ => .silent fun _ => rfl

theorem dispatch_sends : Sends dispatch := by
  refine .bind dispatchTimeout_sends fun _ => .silent_bind (fun _ => rfl) fun _ => ?_
  exact .bind (drainEvents_sends _) fun _ => .silent fun _ => rfl

theorem sendEvent_sends (e : StmEvent) : Sends (sendEvent e) :=
  .silent_bind (fun _ => rfl) fun _ => dispatch_sends

theorem startStateMachine_sends : Sends startStateMachine :=
  .bind (enterState_sends _ _) fun _ => .bind (sendEvent_sends _) fun _ => .silent fun _ => rfl

theorem disconnectEvent_sends : Sends LibNbiot.disconnect := by
  refine .bind (stateIs_sends _) fun _ => .bind (.ite (.pure _) isSleeping_sends) fun _ => ?_
  refine .ite (.bind isSleeping_sends fun _ => ?_) (.pure _)
  exact .bind (.onlyIf (sendEvent_sends _)) fun _ => sendEvent_sends _

/-! ## The public calls -/

theorem userConnect_sends (cleanSession : Nat) : Sends (LibNbiot.connect cleanSession) := by
  refine .silent_bind (fun _ => rfl) fun _ => .ite ?_ (.pure _)
  refine .bind (stateIs_sends _) fun _ => .bind (.ite (.pure _) (.map isSleeping_sends)) fun _ => ?_
  refine .ite ?_ ?_
  · refine .silent_bind (fun _ => rfl) fun _ => .bind (sendEvent_sends _) fun _ => ?_
    exact .silent fun _ => rfl
  · refine .bind isSleeping_sends fun _ => .bind (.onlyIf (sendEvent_sends _)) fun _ => ?_
    exact .silent fun _ => rfl

theorem poll_sends (pollInterval : Nat) : Sends (poll pollInterval) := by
  have htime : Silent traffic (pollTime pollInterval) :=
    .bind (fun _ => rfl) fun _ => .bind (fun _ => rfl) fun _ => .ite (.pure _) (.pure _)
  refine .bind (stateIs_sends _) fun _ => .bind (.ite (.pure _) isSleeping_sends) fun _ => ?_
  refine .ite (.bind isSleeping_sends fun _ => ?_) (.pure _)
  refine .bind (.onlyIf (sendEvent_sends _)) fun _ => .silent_bind htime fun _ => ?_
  exact .bind (yield_sends _) fun _ => .silent fun _ => rfl

theorem publishTopicFor_sends (topic : Bytes) : Sends (publishTopicFor topic) := by
  refine .silent_bind (fun _ => rfl) fun _ => .silent_bind (fun _ => rfl) fun registry => ?_
  split
  · refine .silent_bind (fun _ => rfl) fun _ => .silent_bind (fun _ => rfl) fun _ => .ite ?_ ?_
    · refine .silent_bind (fun _ => rfl) fun _ => .silent_bind (fun _ => rfl) fun _ => ?_
      exact .silent_bind (fun _ => rfl) fun _ => .silent_bind (fun _ => rfl) fun _ =>
        registerTopic_sends _
    · exact .silent fun _ => rfl
  · refine .silent_bind (fun _ => rfl) fun _ => .silent_bind (.onlyIf fun _ => rfl) fun _ => ?_
    exact .silent fun _ => rfl

theorem userPublish_sends (topic data : Bytes) (qos : QoS) :
    Sends (LibNbiot.publish topic data qos) := by
  have hnow : Sends (publishNow topic data qos) := by
    refine .silent_bind (fun _ => rfl) fun _ => .bind (publishTopicFor_sends topic) fun _ => ?_
    refine .ite ?_ ?_
    · refine .silent_bind (fun _ => rfl) fun _ => .bind (publish_sends _ _ _ _) fun _ => ?_
      exact .ite (.silent_bind (fun _ => rfl) fun _ => sendEvent_sends _) (poll_sends _)
    · refine .silent_bind (fun _ => rfl) fun _ => .silent_bind (.onlyIf fun _ => rfl) fun _ => ?_
      exact sendEvent_sends _
  refine .silent_bind (fun _ => rfl) fun _ => .ite ?_ (.pure _)
  refine .bind isSleeping_sends fun _ => .bind (.onlyIf (sendEvent_sends _)) fun _ => ?_
  refine .bind (stateIs_sends _) fun _ => .ite (.silent_bind (fun _ => rfl) fun _ => ?_) (.pure _)
  exact .ite (.pure _) (.bind hnow fun _ => .silent fun _ => rfl)

theorem subscribeCurrent_sends (mh : Option MessageHandler) : Sends (subscribeCurrent mh) := by
  refine .silent_bind (fun _ => rfl) fun _ => .silent_bind (fun _ => rfl) fun _ => ?_
  refine .silent_bind (fun _ => rfl) fun _ => .bind (subscribe_sends _ _) fun _ => ?_
  exact .ite (.pure _) (.silent fun _ => rfl)

theorem userSubscribe_sends (topic : Bytes) (mh : Option MessageHandler) :
    Sends (LibNbiot.subscribe topic mh) := by
  have hattach (index : Nat) : Sends (attachHandler index mh) :=
    .silent_bind (fun _ => rfl) fun _ => .silent_bind (fun _ => rfl) fun _ =>
      .silent_bind (fun _ => rfl) fun _ => logApp_sends rfl
  refine .bind (stateIs_sends _) fun _ => .ite (.silent_bind (fun _ => rfl) fun _ => ?_) (.pure _)
  refine .ite (.pure _) (.silent_bind (fun _ => rfl) fun registry => ?_)
  split
  · refine .silent_bind (fun _ => rfl) fun _ => .silent_bind (fun _ => rfl) fun _ => ?_
    exact .ite (.silent_bind (fun _ => rfl) fun _ => subscribeCurrent_sends mh) (.pure _)
  · refine .silent_bind (fun _ => rfl) fun _ => .ite ?_ ?_
    · exact .silent_bind (fun _ => rfl) fun _ => subscribeCurrent_sends mh
    · exact .bind (hattach _) fun _ => .pure _

theorem userUnsubscribe_sends (topic : Bytes) : Sends (LibNbiot.unsubscribe topic) := by
  have hdrop (index : Nat) : Silent traffic (dropTopic index) :=
    .bind (fun _ => rfl) fun _ => .bind (fun _ => rfl) fun _ => .ite (fun _ => rfl) (.pure _)
  refine .bind (stateIs_sends _) fun _ => .ite (.silent_bind (fun _ => rfl) fun registry => ?_) (.pure _)
  split
  · refine .silent_bind (fun _ => rfl) fun _ => .ite ?_ (.pure _)
    refine .silent_bind (fun _ => rfl) fun _ => .bind (unsubscribe_sends _) fun _ => ?_
    exact .ite (.pure _) (.silent_bind (hdrop _) fun _ => .pure _)
  · exact .pure _

theorem setDuration_sends (duration : Nat) : Sends (setDuration duration) :=
  .silent_bind (fun _ => rfl) fun _ => logApp_sends rfl

theorem sleep_sends (duration : Nat) : Sends (sleep duration) := by
  refine .bind (stateIs_sends _) fun _ => .bind (.ite (.pure _) (stateIs_sends _)) fun _ => ?_
  refine .ite (.bind (setDuration_sends _) fun _ => ?_) (.pure _)
  exact .silent_bind (fun _ => rfl) fun _ => sendEvent_sends _

theorem hibernate_sends (duration : Nat) : Sends (hibernate duration) := by
  refine .bind (stateIs_sends _) fun _ => .bind (.ite (.pure _) (stateIs_sends _)) fun _ => ?_
  refine .bind (.ite (.pure _) isSleeping_sends) fun _ => .ite ?_ (.pure _)
  refine .bind isSleeping_sends fun _ => .bind (.onlyIf (sendEvent_sends _)) fun _ => ?_
  refine .bind (setDuration_sends _) fun _ => .bind (stateIs_sends _) fun _ => ?_
  exact .silent_bind (fun _ => rfl) fun _ => sendEvent_sends _

theorem wakeup_sends : Sends wakeup := by
  have hleave : Sends leaveSleep := by
    refine .bind isSleeping_sends fun _ => .ite ?_ ?_
    · refine .bind (stateIs_sends _) fun _ => .bind (.onlyIf (sendEvent_sends _)) fun _ => ?_
      exact sendEvent_sends _
    · exact .bind (stateIs_sends _) fun _ => .ite (sendEvent_sends _) (.pure _)
  have hreconnect : Sends doReconnect :=
    .silent_bind (fun _ => rfl) fun _ => .silent_bind (fun _ => rfl) fun _ =>
      .bind (sendEvent_sends _) fun _ => .silent fun _ => rfl
  refine .bind hleave fun _ => .silent_bind (fun _ => rfl) fun _ => .bind (.onlyIf ?_) fun _ =>
    setDuration_sends _
  exact .bind hreconnect fun _ => .silent fun _ => rfl

end Traffic

end LibNbiot
