/-
# What the loop clients book

Serving a packet and the handlers of the loop clients, as runs of the ledger
machine. Most of what they do is not booked at all; a packet may change the
registry or drive the state machine, and a handler may post an event.
-/

import LibNbiot.Ledger.StateMachine

namespace LibNbiot

open Logic.Program Relation Ledger

/-- A program all of whose steps are booked. -/
abbrev Booked (C : Option MessageHandler → List ApiCall → Bytes → Prop) {α : Type} (m : M α) : Prop :=
  Refines ledger (books C) (fun _ => True) m fun _ _ => True

namespace Booked

variable {C : Option MessageHandler → List ApiCall → Bytes → Prop} {α β : Type}

theorem silent {m : M α} (h : Silent ledger m) : Booked C m := Refines.silent h

theorem pure (a : α) : Booked C (Pure.pure a : M α) := .silent (.pure a)

theorem bind {m : M α} {f : α → M β} (hm : Booked C m) (hf : ∀ a, Booked C (f a)) :
    Booked C (m >>= f) := Refines.bind hm hf

theorem silent_bind {m : M α} {f : α → M β} (hm : Silent ledger m) (hf : ∀ a, Booked C (f a)) :
    Booked C (m >>= f) := Refines.silent_bind hm hf

theorem ite {c : Prop} [Decidable c] {m n : M α} (hm : Booked C m) (hn : Booked C n) :
    Booked C (if c then m else n) := Refines.ite (fun _ => hm) fun _ => hn

theorem onlyIf {c : Prop} [Decidable c] {m : M Unit} (hm : Booked C m) :
    Booked C (Logic.Program.onlyIf c m) := ite hm (pure _)

/-- A program that books a single change. -/
theorem change {m : M α} (h : ∀ s, Change C (ledger s) (ledger (m s).2)) : Booked C m :=
  .single fun s _ => ⟨h s, trivial⟩

theorem queueing {m : M α} (h : Queueing m) : Booked C m := change fun s => .enqueue (h s)

end Booked

/-- Delivering a message changes the count of messages at most. -/
theorem messageDispatcher_registry (r : NbiotTopicRegistry) (id : Nat) :
    ∃ n, (r.messageDispatcher id).2.2 = { r with messageCount := n } := by
  unfold NbiotTopicRegistry.messageDispatcher
  split
  · split
    · exact ⟨_, rfl⟩
    · exact ⟨r.messageCount, rfl⟩
  · exact ⟨r.messageCount, rfl⟩

namespace Ledger

variable {C : Option MessageHandler → List ApiCall → Bytes → Prop}

/-! ## Events -/

theorem stateIs_fst (st : StateId) (s : Sys) :
    (stateIs st s).1 = decide ((ledger s).state = some st) := by
  have hvalue : (getCurrentStateId s).1 = s.rest.stm.currentState := by
    cases hst : s.rest.stm.currentState <;> simp [getCurrentStateId, getStm_eq, hst]
  have hst : (stateIs st s).1 = decide ((getCurrentStateId s).1 = some st) := rfl
  rw [hst, hvalue]
  rfl

theorem stateIs_asks (st : StateId) (s : Sys) :
    ∃ s', stateIs st s = (decide ((ledger s).state = some st), s') ∧ ledger s' = ledger s :=
  ⟨(stateIs st s).2, Prod.ext (stateIs_fst st s) rfl, stateIs_silent st s⟩

/-- Asking for the state tells the state. -/
theorem stateIs_books {P : Ledger → Prop} (st : StateId) :
    Refines ledger (books C) P (stateIs st) fun b k => P k ∧ (b = true → k.state = some st) := by
  intro s _ hs
  rw [stateIs_silent st s, stateIs_fst]
  exact ⟨.refl, hs, of_decide_eq_true⟩

theorem dispatch_booked : Booked C dispatch :=
  .change fun s => .dispatch [] .nothing (dispatch_dispatches s (by simp only [List.append_nil]))

theorem sendEvent_booked {e : StmEvent} (he : e.ordered = true) : Booked C (sendEvent e) :=
  .change fun s => .dispatch [e] (.order e he) (sendEvent_dispatches e s)

theorem postEvent_booked {e : StmEvent}
    (he : e = .attachedEvent ∨ e = .connectedEvent ∨ e = .disconnectEvent) :
    Booked C (postEvent e) := by
  refine .change fun s => ?_
  have hpost : Change C (ledger s) _ := .post e he
  obtain rfl | rfl | rfl := he <;> exact hpost

theorem disconnect_booked : Booked C disconnect := by
  refine .silent_bind (stateIs_silent _) fun awake => ?_
  refine .silent_bind (.ite (.pure _) isSleeping_silent) fun proceed => .ite ?_ (.pure _)
  refine .silent_bind isSleeping_silent fun asleep => ?_
  exact .bind (.onlyIf (sendEvent_booked rfl)) fun _ => sendEvent_booked rfl

/-! ## Serving a packet -/

theorem pubackNotify_booked (topic : NbiotTopic) : Booked C (pubackNotify topic) := by
  refine .silent_bind (notifyState_silent _ _ _) fun _ => .ite ?_ (.pure _)
  refine .silent_bind getRegistry_silent fun registry => ?_
  split
  · exact .change fun s => .forget _
  · exact .pure _

/-- A topic of the gateway is learned from the registry at hand. -/
theorem learn_booked {topic inserted : NbiotTopic} (h : topic.mh = none ∧ topic.regFlag = {})
    {registry : NbiotTopicRegistry} (hlearns : Learns registry topic (registry.insertTopic inserted))
    (rc : Nat) :
    Refines ledger (books C) (fun k => k.registry = registry ∧ topic.topicName ∈ k.heard)
      (do modifyRegistry (·.insertTopic inserted); return rc : M Nat) fun _ _ => True := by
  refine .single fun s hs => ⟨?_, trivial⟩
  refine .learn topic (s.rest.registry.insertTopic inserted) h hs.2 ?_
  rw [hs.1, show s.rest.registry = registry from hs.1]
  exact hlearns

theorem registerNotify_booked {topic : NbiotTopic} (h : topic.mh = none ∧ topic.regFlag = {}) :
    Booked C (registerNotify topic) := by
  refine Refines.bind (R := fun _ k => topic.topicName ∈ k.heard)
    (.single fun s _ => ⟨.hear topic.topicName, List.mem_cons_self⟩) fun _ => ?_
  refine .reads getRegistry_eq fun s hs => ?_
  have hsame : ∀ k, k = ledger s → k.registry = s.rest.registry ∧ topic.topicName ∈ k.heard :=
    fun k hk => hk ▸ ⟨rfl, hs⟩
  split
  · rename_i index hfound
    refine (learn_booked h ?_ _).pre hsame
    cases hmh : (s.rest.registry.topicAt index).mh with
    | none =>
      simp only [Option.isNone_none, if_true]
      exact .fresh
    | some mh =>
      simp only [Option.isNone_some, Bool.false_eq_true, if_false]
      exact .known index hfound (by rw [hmh]; rfl)
  · refine .silent_bind getPool_silent fun pool => .ite (fun _ => ?_) fun _ => ?_
    · exact (learn_booked h .fresh _).pre hsame
    · exact .silent_bind (notifyState_silent _ _ _) fun _ => .pure fun _ _ => trivial

theorem deliverMessage_booked (data : PublishData) : Booked C (deliverMessage data) := by
  refine .reads getRegistry_eq fun s _ => ?_
  have hcall (handler : Option (MessageHandler × Bytes)) :
      Silent ledger (callMessageHandler handler data) := by
    cases handler with
    | none => exact .pure _
    | some h => exact logApp_silent rfl
  obtain ⟨n, hn⟩ := messageDispatcher_registry s.rest.registry data.topic.id
  refine .silent_bind (hcall _) fun _ => .bind (R := fun _ _ => True) (.single fun s' hs' => ?_)
    fun _ => .pure fun _ _ => trivial
  have hregistry : s'.rest.registry = s.rest.registry := congrArg Ledger.registry hs'
  refine ⟨?_, trivial⟩
  have hdeliver := Change.deliver (C := C) (k := ledger s') n
  rw [show (ledger s').registry = s.rest.registry from hregistry, ← hn] at hdeliver
  exact hdeliver

theorem pingRespNotify_booked : Booked C pingRespNotify := by
  refine .silent_bind (stateIs_silent _) fun _ => .ite ?_ (.pure _)
  exact .bind (sendEvent_booked rfl) fun _ => .silent stopYield_silent

theorem disconnectNotify_booked : Booked C disconnectNotify := by
  refine .silent_bind getCurrentStateId_silent fun st => .silent_bind getMqtt_silent fun _ => ?_
  refine .silent_bind (.onlyIf (notify_silent _)) fun _ => .ite disconnect_booked (.pure _)

theorem cyclePuback_booked : Booked C cyclePuback := by
  refine .silent_bind getSn_silent fun _ => .ite ?_ (.pure _)
  refine .silent_bind getSn_silent fun _ => .ite (.pure _) ?_
  exact .bind (pubackNotify_booked _) fun _ => .pure _

theorem cycleRegister_booked (timer : Timer) : Booked C (cycleRegister timer) := by
  refine .silent_bind getSn_silent fun _ => .ite (.pure _) ?_
  refine .bind (registerNotify_booked ⟨rfl, rfl⟩) fun _ => ?_
  exact .silent (.map (answerPacket_silent _ _))

theorem cycleDisconnect_booked : Booked C cycleDisconnect := by
  refine .silent_bind getSn_silent fun _ => .ite (.pure _) ?_
  refine .bind ?_ fun _ => .pure _
  exact .silent_bind (modifySn_silent _) fun _ => disconnectNotify_booked

theorem acknowledge_silent (data : PublishData) (retCode : Nat) (timer : Timer) :
    Silent ledger (acknowledge data retCode timer) :=
  .ite (answerPacket_silent _ _) (.ite (answerPacket_silent _ _) (.pure _))

theorem cyclePublish_booked (timer : Timer) : Booked C (cyclePublish timer) := by
  refine .silent_bind (ask_silent _) fun r => .silent_bind getSn_silent fun _ => .ite (.pure _) ?_
  refine .bind (deliverMessage_booked _) fun _ => .ite (.pure _) ?_
  exact .silent_bind (acknowledge_silent _ _ _) fun _ => .pure _

theorem cyclePingresp_booked : Booked C cyclePingresp := by
  refine .silent_bind getSn_silent fun _ => .ite ?_ ?_
  · exact .silent_bind (modifySn_silent _) fun _ => pingRespNotify_booked
  · exact .silent_bind getSn_silent fun _ => .ite (.silent (modifySn_silent _)) (.pure _)

theorem cycleSwitch_booked (packetType : Nat) (timer : Timer) :
    Booked C (cycleSwitch packetType timer) := by
  refine .ite (.bind cyclePuback_booked fun _ => .pure _) (.ite ?_ (.ite ?_ (.ite ?_ (.ite ?_ ?_))))
  · refine .bind (cycleRegister_booked _) fun rc => ?_
    cases rc <;> exact .pure _
  · exact .bind cycleDisconnect_booked fun _ => .pure _
  · exact cyclePublish_booked _
  · exact .bind cyclePingresp_booked fun _ => .pure _
  · exact .pure _

theorem cycle_booked (timer : Timer) : Booked C (cycle timer) := by
  refine .silent_bind (readPacket_silent _) fun _ => .bind (cycleSwitch_booked _ _) fun r => ?_
  exact .silent_bind (.onlyIf keepalive_silent) fun _ => .pure _

theorem loopWait_booked (breakValue interval : Int) : Booked C (loopWait breakValue interval) :=
  .ite (.pure _) (.silent_bind (startTimer_silent _) fun _ => .bind (cycle_booked _) fun _ => .pure _)

/-! ## The handlers of the loop clients -/

theorem storeAndWait_booked (c : ClientId) (breakValue : MsgType) :
    Booked C (storeAndWait c breakValue) :=
  .silent_bind (clientRemaining_silent _) fun _ => .silent_bind (setValue_silent _ _) fun _ =>
    loopWait_booked _ _

theorem startRequest_silent (c : ClientId) : Silent ledger (startRequest c) := by
  refine .bind (getValue_silent _) fun _ => .bind get_silent fun _ => .bind (startTimer_silent _)
    fun _ => .bind (sendPacket_silent _ _) fun _ => .ite ?_ (.pure _)
  exact .bind (remaining_silent _) fun _ => .bind (startClientTimer_silent _ _) fun _ => .pure _

theorem startConLoop_silent : Silent ledger startConLoop := by
  refine .bind (getValue_silent _) fun _ => .bind get_silent fun _ => .bind (startTimer_silent _)
    fun _ => .bind (sendPacket_silent _ _) fun _ => .ite ?_ (.pure _)
  refine .bind renewLastReceived_silent fun _ => .bind (remaining_silent _) fun _ => ?_
  exact .bind (startClientTimer_silent _ _) fun _ => .pure _

theorem republishInflight_silent : Silent ledger republishInflight := by
  have hrestore : Silent ledger restorePubbuf := fun _ => rfl
  refine .bind getSn_silent fun _ => .bind getSn_silent fun _ => .ite ?_ (.pure _)
  refine .bind hrestore fun _ => .bind (getValue_silent _) fun _ => .bind (startTimer_silent _)
    fun _ => .bind getSn_silent fun _ => .bind ?_ fun _ => .pure _
  exact .ite (.bind (sendPacket_silent _ _) fun _ => .pure _) (.pure _)

theorem finishConLoop_silent : Silent ledger finishConLoop := by
  have haccepted : Silent ledger connackAccepted := .bind getSn_silent fun _ => .pure _
  refine .bind (getValue_silent _) fun _ => .bind (.ite (.pure _) haccepted) fun _ => ?_
  refine .bind republishInflight_silent fun _ => .ite ?_ (.pure _)
  exact .bind (modifySn_silent _) fun _ => .pure _

theorem finishRegLoop_silent : Silent ledger finishRegLoop := by
  refine .bind (getValue_silent _) fun _ => .ite (.pure _) (.bind getSn_silent fun _ => ?_)
  exact .ite (.bind (fun _ => rfl) fun _ => .pure _) (.pure _)

theorem finishUnsubLoop_silent : Silent ledger finishUnsubLoop :=
  .bind (getValue_silent _) fun _ => .ite (.pure _) (.bind getSn_silent fun _ => .pure _)

theorem finishSubLoop_silent : Silent ledger finishSubLoop := by
  refine .bind (getValue_silent _) fun _ => .ite (.pure _) (.bind getSn_silent fun _ => ?_)
  exact .ite (.bind (fun _ => rfl) fun _ => .pure _) (.pure _)

theorem sendSerialized_silent (len timeout : Nat) : Silent ledger (sendSerialized len timeout) :=
  .ite (.bind (startTimer_silent _) fun _ => .bind (sendPacket_silent _ _) fun _ => .pure _) (.pure _)

theorem sendSubPacket_silent (packetId : Int) (dup timeout : Nat) :
    Silent ledger (sendSubPacket packetId dup timeout) := by
  refine .bind ?_ fun _ => sendSerialized_silent _ _
  exact .bind getSn_silent fun _ => .bind getPool_silent fun _ => serialize_silent _

theorem sendPubPacket_silent (packetId : Int) (dup timeout : Nat) :
    Silent ledger (sendPubPacket packetId dup timeout) := by
  refine .bind ?_ fun _ => sendSerialized_silent _ _
  refine .bind getSn_silent fun _ => .bind getPool_silent fun _ => .bind (serialize_silent _) fun _ => ?_
  exact .bind (.onlyIf (modifySn_silent _)) fun _ => .pure _

section Transmissions

variable {send : Int → Nat → Nat → M Bool} (hsend : ∀ id dup time, Silent ledger (send id dup time))

include hsend

theorem startWith_silent (c : ClientId) : Silent ledger (startWith c send) := by
  refine .bind get_silent fun _ => .bind (startTimer_silent _) fun _ => .bind (getValue_silent _)
    fun _ => .bind (remaining_silent _) fun _ => .bind (hsend _ _ _) fun _ => .ite ?_ (.pure _)
  exact .bind (remaining_silent _) fun _ => .bind (startClientTimer_silent _ _) fun _ => .pure _

theorem retransmit_silent (c : ClientId) (timeout : Nat) :
    Silent ledger (retransmit c send timeout) := by
  refine .bind (getValue_silent _) fun _ => .bind (startTimer_silent _) fun _ =>
    .bind (remaining_silent _) fun _ => .bind (hsend _ _ _) fun _ => .ite ?_ (.pure _)
  exact .bind (remaining_silent _) fun _ => startClientTimer_silent _ _

end Transmissions

theorem retrySub_silent : Silent ledger retrySub := by
  refine .bind (clientRemaining_silent _) fun _ => .bind getSn_silent fun _ => .ite ?_ (.pure _)
  exact .bind (fun _ => rfl) fun _ => .bind getSn_silent fun _ =>
    retransmit_silent sendSubPacket_silent _ _

theorem retryPub_silent : Silent ledger retryPub := by
  refine .bind (clientRemaining_silent _) fun _ => .bind getSn_silent fun _ => .ite ?_ (.pure _)
  exact .bind (fun _ => rfl) fun _ => .bind getSn_silent fun _ =>
    retransmit_silent sendPubPacket_silent _ _

theorem finishPubLoop_silent : Silent ledger finishPubLoop := by
  have hinflight (returnCode : Nat) : Silent ledger (finishInflight returnCode) :=
    .bind (modifySn_silent _) fun _ => .ite (.bind (setValue_silent _ _) fun _ => .pure _) (.pure _)
  refine .bind getSn_silent fun _ => .ite (.pure _) (.bind (getValue_silent _) fun _ => ?_)
  refine .ite (.pure _) (.bind getSn_silent fun _ => .bind (setValue_silent _ _) fun _ => ?_)
  exact .ite (.pure _) (.bind getSn_silent fun _ => .ite (hinflight _) (.pure _))

theorem startAttachLoop_silent : Silent ledger startAttachLoop := by
  refine .bind get_silent fun _ => .bind (startTimer_silent _) fun _ => .bind (ask_silent _) fun _ =>
    .ite ?_ (.pure _)
  exact .bind (remaining_silent _) fun _ => .bind (startClientTimer_silent _ _) fun _ =>
    .bind (fun _ => rfl) fun _ => .pure _

theorem pollAttached_silent (timer : Timer) (fuel : Nat) :
    Silent ledger (pollAttached timer fuel) := by
  induction fuel with
  | zero => exact .pure _
  | succ fuel ih =>
    refine .bind (remaining_silent _) fun _ => .ite (.pure _) ?_
    exact .bind modemIsAttached_silent fun _ => .ite (.pure _) ih

theorem doAttachLoop_silent : Silent ledger doAttachLoop := by
  refine .bind (clientRemaining_silent _) fun _ => .bind (setValue_silent _ _) fun _ =>
    .ite (.pure _) (.bind (startTimer_silent _) fun _ => ?_)
  exact .bind (pollAttached_silent _ _) fun _ => .ite (.bind (fun _ => rfl) fun _ => .pure _) (.pure _)

theorem finishAttachLoop_booked : Booked C finishAttachLoop := by
  refine .silent_bind (getValue_silent _) fun _ => .ite (.pure _) ?_
  refine .silent_bind modemIsAttached_silent fun _ => .ite ?_ ?_
  · exact .bind (postEvent_booked (.inl rfl)) fun _ => .pure _
  · exact .silent_bind (fun _ => rfl) fun _ => .pure _

theorem handler_booked (c : ClientId) (phase : LoopPhase) : Booked C (handler c phase) := by
  cases c with
  | attach =>
    cases phase with
    | start => exact .silent startAttachLoop_silent
    | step => exact .silent doAttachLoop_silent
    | stop => exact finishAttachLoop_booked
  | con =>
    cases phase with
    | start => exact .silent startConLoop_silent
    | step => exact storeAndWait_booked _ _
    | stop => exact .silent finishConLoop_silent
  | pub =>
    cases phase with
    | start => exact .silent (startWith_silent sendPubPacket_silent _)
    | step =>
      refine .silent_bind getSn_silent fun _ => .ite (.pure _) ?_
      exact .silent_bind retryPub_silent fun _ => storeAndWait_booked _ _
    | stop => exact .silent finishPubLoop_silent
  | reg =>
    cases phase with
    | start => exact .silent (startRequest_silent _)
    | step => exact storeAndWait_booked _ _
    | stop => exact .silent finishRegLoop_silent
  | sub =>
    cases phase with
    | start => exact .silent (startWith_silent sendSubPacket_silent _)
    | step => exact .silent_bind retrySub_silent fun _ => storeAndWait_booked _ _
    | stop => exact .silent finishSubLoop_silent
  | unsub =>
    cases phase with
    | start => exact .silent (startRequest_silent _)
    | step => exact storeAndWait_booked _ _
    | stop => exact .silent finishUnsubLoop_silent
  | yield =>
    cases phase with
    | start =>
      exact .silent (.bind (getValue_silent _) fun _ => .bind (startClientTimer_silent _ _) fun _ =>
        .bind (modifySn_silent _) fun _ => .pure _)
    | step =>
      refine .silent_bind (clientRemaining_silent _) fun _ => .silent_bind (setValue_silent _ _)
        fun _ => .silent_bind getSn_silent fun _ => .ite (loopWait_booked _ _) (.pure _)
    | stop =>
      exact .silent (.bind (getValue_silent _) fun _ => .bind (modifySn_silent _) fun _ => .pure _)
  | dis =>
    cases phase with
    | start => exact .silent (startRequest_silent _)
    | step => exact storeAndWait_booked _ _
    | stop => exact .silent (.bind (modifySn_silent _) fun _ => .pure _)

end Ledger

end LibNbiot
