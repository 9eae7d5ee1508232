/-
# The state machine refines the session machine

Every event that is handled is one step of a dispatch, ending with the entry
action of the state it leads to, and every dispatch is one step for whoever
sends an event. What the transitions rely on is checked on the table of the
state machine: the socket is opened from two states only, and a DISCONNECT with
a duration comes from the events of sleep and hibernate.
-/

import LibNbiot.Refinement.Client

namespace LibNbiot

open Logic.Program Relation

/-! ## Small operations -/

theorem logApp_refines {e : SysEvent} (he : e.plain = true) (hne : e ≠ .nullDeref) :
    Acts (logApp e) :=
  .single fun _ _ => ⟨.note e he fun h => absurd h hne, trivial⟩

theorem postEvent_refines {e : StmEvent} (he : e.postable = true) : Acts (postEvent e) :=
  .single fun _ _ => ⟨.post e he, trivial⟩

theorem notify_refines {n : Notification} (hn : n.action ≠ .publish) : Acts (notify n) := by
  refine .silent_bind getMqtt_silent fun mqtt => .ite (fun _ => ?_) fun _ => ?_
  · exact logApp_refines (by simpa [SysEvent.plain] using hn) nofun
  · exact .pure fun _ h => h

theorem getCurrentStateId_refines :
    Refines core actMachine (fun _ => True) getCurrentStateId fun st k => k.state = st := by
  refine .reads getStm_run fun s _ => ?_
  extract_lets done
  refine .ite (fun hnone => ?_) fun _ => .pure fun k hk => by rw [hk]; rfl
  have hlog : Refines core actMachine (fun k => k = core s) (logApp .nullDeref)
      fun _ k => k.state = s.rest.stm.currentState :=
    .single fun s' hs' => ⟨.note _ rfl fun _ => hs' ▸ Option.isNone_iff_eq_none.1 hnone,
      by rw [core_logApp, hs']; rfl⟩
  exact .bind hlog fun _ => .pure fun _ hk => hk

theorem loopBreak_refines : Acts loopBreak :=
  .silent_bind get_silent fun _ => .ite
    (fun _ => .single fun _ _ => ⟨.setBreak, trivial⟩) fun _ => .pure fun _ h => h

/-! ## What actions leave alone -/

/-- A transition is under way from a state. -/
def Underway (st : StateId) (k : Core) : Prop := k.state = some st ∧ firing k.trace = true

theorem Act.state {k k' : Core} (h : Act k k') : k'.state = k.state := by cases h <;> rfl

theorem Act.firing {k k' : Core} (h : Act k k') (hk : firing k.trace = true) :
    firing k'.trace = true := by
  cases h with
  | note e h => cases e <;> first | exact hk | rfl
  | _ => exact hk

theorem Action.state {k k' : Core} (h : Action k k') : k'.state = k.state := by
  cases h with
  | act h => exact h.state
  | plug h => cases h <;> rfl

theorem Action.underway {st : StateId} {k k' : Core} (h : Action k k') (hk : Underway st k) :
    Underway st k' := by
  cases h with
  | act h => exact ⟨h.state.trans hk.1, h.firing hk.2⟩
  | plug h => cases h <;> exact hk

/-- A disconnect is on its way, or everything is closed. -/
def Core.Settled (k : Core) : Prop := .dis ∈ k.loop.clientList ∨ k.Closed

theorem Act.queue {c : ClientId} {k k' : Core} (h : Act k k') (hk : c ∈ k.loop.clientList) :
    c ∈ k'.loop.clientList := by
  cases h with
  | enqueue | yield | attach => exact List.mem_append_left _ hk
  | _ => exact hk

theorem Act.closed {k k' : Core} (h : Act k k') (hk : k.Closed) : k'.Closed := by
  cases h with
  | note e h => cases e <;> first | exact hk | cases h
  | _ => exact hk

theorem Act.settled {k k' : Core} (h : Act k k') (hk : k.Settled) : k'.Settled :=
  hk.imp h.queue h.closed

/-! ## Connecting and disconnecting -/

theorem networkDisconnect_core (s : Sys) : ∃ ok, core (networkDisconnect s).2 =
    { core s with socket := (core s).socket && !ok }.emit (.socketClosed ok) :=
  ⟨_, rfl⟩

/-- In a state without a session the socket is closed, if the network does so. -/
theorem finishDisconnect_refines {st : StateId} (hst : st = .disconnected ∨ st = .deepSleep) :
    Refines core actionMachine (fun k => k.state = some st ∧ k.isconnected = false)
      finishDisconnect fun _ k => k.Closed := by
  have hclose : Refines core actionMachine (fun k => k.state = some st ∧ k.isconnected = false)
      (do let _ ← networkDisconnect) fun _ k => k.Closed := by
    intro s _ ⟨hstate, hconn⟩
    obtain ⟨ok, hcore⟩ := networkDisconnect_core s
    have hfrom : (core s).state = some .disconnected ∨ (core s).state = some .deepSleep := by
      rcases hst with rfl | rfl
      · exact .inl hstate
      · exact .inr hstate
    simp only [run_bind, run_pure, hcore]
    refine ⟨.single (.plug (.closeSocket ok hfrom)), hconn, ?_⟩
    cases ok
    · exact .inr rfl
    · exact .inl (Bool.and_false _)
  refine .reads networkIsConnected_run fun s hs => ?_
  refine .bind (R := fun _ k => k.Closed) (.onlyIf (fun _ => hclose.pre fun k hk => ?_) ?_) fun _ => ?_
  · exact hk ▸ hs
  · rintro hsocket k rfl
    exact ⟨hs.2, .inl (Bool.eq_false_of_not_eq_true hsocket)⟩
  · refine .silent_bind get_silent fun _ => .ite (fun _ => ?_) fun _ => .pure fun _ h => h
    exact (loopBreak_refines.keeps Act.closed).mono acts_sub_action

/-- On entering a state without a session, a disconnect is sent or the socket is
closed. -/
theorem doDisconnect_refines {st : StateId} (hst : st = .disconnected ∨ st = .deepSleep) :
    Refines core actionMachine
      (fun k => k.state = some st ∧
        if st = .disconnected then entering k.trace = true else (setInCall k.trace).isSome = true)
      doDisconnect fun _ => Core.Settled := by
  refine .reads getSn_run fun s ⟨hstate, hmay⟩ => .ite (fun hconn => ?_) fun hconn => ?_
  · refine .reads getPool_run fun s' hs' => ?_
    refine .bind ?_ fun _ => .pure fun k hk => .inl hk
    refine ((Client.disconnect_refines _).mono acts_sub_action).pre ?_
    rintro k rfl
    rw [hs']
    refine ⟨(congrArg Core.duration hs').symm, hconn, ?_⟩
    simpa only [hstate, Option.some.injEq] using hmay
  · refine (finishDisconnect_refines hst).conseq ?_ fun _ _ hk => .inr hk
    rintro k rfl
    exact ⟨hstate, Bool.eq_false_of_not_eq_true hconn⟩

theorem mqttDisconnect_refines :
    Refines core actMachine
      (fun k => k.state ≠ some .disconnected ∧ (setInCall k.trace).isSome = true) mqttDisconnect
      fun _ _ => True := by
  refine .reads getSn_run fun s ⟨hstate, hset⟩ => .ite (fun hconn => ?_) fun _ =>
    .pure fun _ _ => trivial
  refine .reads getPool_run fun s' hs' => .bind ?_ fun _ => .pure fun _ hk => hk
  refine (Client.disconnect_refines _).conseq ?_ fun _ _ _ => trivial
  rintro k rfl
  refine ⟨rfl, hs' ▸ ⟨hconn, ?_⟩⟩
  rw [if_neg hstate]
  exact hset

theorem mqttConnect_refines (cleanSession : Nat) : Acts (mqttConnect cleanSession) := by
  refine .silent_bind getSn_silent fun sn => .ite (fun _ => .pure fun _ h => h) fun _ => ?_
  refine .reads getPool_run fun s _ => .bind ?_ fun _ => .pure fun _ h => h
  refine (Client.connect_refines _ _ _).conseq ?_ fun _ _ _ => trivial
  rintro k rfl
  rfl

theorem doModemAttach_refines : Acts doModemAttach := by
  refine .silent_bind (modifyPool_silent fun _ => rfl) fun _ => ?_
  exact .silent_bind (setTime_silent _ _) fun _ => .single fun _ _ => ⟨.attach, trivial⟩

/-! ## Transitions -/

/-- What the action of a transition relies on: the state it leaves and the event
it answers. -/
def Transition.sound (st : StateId) (e : StmEvent) (t : Transition) : Bool :=
  (t ≠ .mIsAttachedIpConnect || st = .disconnected || st = .waitForAttach) &&
    (t ≠ .mSleep || (e = .sleepEvent && st = .connected))

/-- The same for all transitions on the way to a target, and for the entry
action of DeepSleep. -/
def Target.sound (st : StateId) (e : StmEvent) (t : Transition) : Target → Bool
  | .state st' => t.sound st e && (st' ≠ .deepSleep || e = .hibernateEvent)
  | .choice _ t₀ target₀ t₁ target₁ =>
      t.sound st e && target₀.sound st e t₀ && target₁.sound st e t₁

/-- The states a target can lead to. -/
def Target.leaves : Target → List StateId
  | .state st => [st]
  | .choice _ _ target₀ _ target₁ => target₀.leaves ++ target₁.leaves

theorem transitions_sound (st : StateId) :
    ∀ p ∈ st.transitions, p.2.target.sound st p.1 p.2 = true := by
  cases st <;> decide

theorem mem_transitions {st : StateId} {e : StmEvent} {t : Transition}
    (h : st.transitionFor e = some t) : (e, t) ∈ st.transitions := by
  obtain ⟨l₁, l₂, heq, -⟩ := List.lookup_eq_some_iff.1 h
  rw [heq]
  simp

theorem transitionFor_sound {st : StateId} {e : StmEvent} {t : Transition}
    (h : st.transitionFor e = some t) : t.target.sound st e t = true :=
  transitions_sound st (e, t) (mem_transitions h)

theorem actionIsAttachedIpConnect_refines {st : StateId}
    (hst : st = .disconnected ∨ st = .waitForAttach) :
    Refines core actionMachine (fun k => k.state = some st) actionIsAttachedIpConnect
      fun _ _ => True := by
  refine .silent_bind (modifyPool_silent fun _ => rfl) fun _ => .silent_bind getPool_silent fun _ => ?_
  refine .ite (fun _ => ?_) fun _ => .pure fun _ _ => trivial
  refine .bind (R := fun _ _ => True) (.single fun s hs => ?_) fun _ => .pure fun _ h => h
  have hfrom : (core s).state = some .disconnected ∨ (core s).state = some .waitForAttach := by
    rw [hs]
    exact hst.imp (congrArg some) (congrArg some)
  exact ⟨.plug (.openSocket _ _ hfrom), trivial⟩

theorem actionIsNotAttached_refines : Acts actionIsNotAttached :=
  .silent_bind (startTimer_silent _) fun _ => .silent_bind (modifyPool_silent fun _ => rfl) fun _ =>
    doModemAttach_refines

/-- The actions other than the two with a condition only act. -/
theorem action_acts {t : Transition} (hopen : t ≠ .mIsAttachedIpConnect) (hsleep : t ≠ .mSleep) :
    Acts t.action := by
  cases t with
  | mIsAttachedIpConnect => exact absurd rfl hopen
  | mSleep => exact absurd rfl hsleep
  | mIsNotAttached => exact actionIsNotAttached_refines
  | mWaitConnectIsConnected =>
    exact .silent_bind getPool_silent fun _ => Acts.bind (mqttConnect_refines _) fun _ =>
      .pure fun _ h => h
  | mWakeup =>
    refine .silent_bind getPool_silent fun _ => .ite (fun _ => ?_) fun _ => .pure fun _ h => h
    exact Acts.bind (mqttConnect_refines _) fun _ => .pure fun _ h => h
  | mAwakeActive => exact Acts.bind (mqttConnect_refines _) fun _ => .pure fun _ h => h
  | _ => exact .silent fun _ => rfl

theorem action_refines {st : StateId} {e : StmEvent} {t : Transition}
    (hsound : t.sound st e = true) :
    Refines core actionMachine (fun k => k.state = some st ∧ Allowed e k.trace) t.action
      fun _ _ => True := by
  by_cases hopen : t = .mIsAttachedIpConnect
  · subst hopen
    refine (actionIsAttachedIpConnect_refines ?_).pre fun k hk => hk.1
    simpa [Transition.sound] using hsound
  by_cases hsleep : t = .mSleep
  · subst hsleep
    obtain ⟨rfl, rfl⟩ : e = .sleepEvent ∧ st = .connected := by simpa [Transition.sound] using hsound
    have hacts : Refines core actMachine
        (fun k => k.state ≠ some .disconnected ∧ (setInCall k.trace).isSome = true)
        Transition.mSleep.action fun _ _ => True :=
      .silent_bind getPool_silent fun _ => .ite (fun _ => mqttDisconnect_refines) fun _ =>
        .pure fun _ _ => trivial
    exact (hacts.mono acts_sub_action).pre fun k hk => ⟨by simp [hk.1], hk.2.2 (.inl rfl)⟩
  · exact ((action_acts hopen hsleep).mono acts_sub_action).pre fun _ _ => trivial

/-! ## Entry actions -/

theorem rebootModem_refines (reInitialize : Bool) : Acts (rebootModem reInitialize) := by
  refine .ite (.pure fun _ h => h) (.silent_bind (ask_silent _) fun r => ?_)
  exact Acts.bind (logApp_refines rfl nofun) fun _ => .pure fun _ h => h

theorem initializeModem_refines (rebooted : Bool) : Acts (initializeModem rebooted) := by
  refine .ite (.silent_bind (ask_silent _) fun r => ?_) (.pure fun _ h => h)
  exact Acts.bind (logApp_refines rfl nofun) fun _ => .pure fun _ h => h

theorem actionInitialEntry_refines (e : StmEvent) : Acts (actionInitialEntry e) := by
  refine Acts.bind (rebootModem_refines _) fun rebooted => ?_
  refine Acts.bind (initializeModem_refines _) fun ok => ?_
  refine .silent_bind (.ite initCredentials_silent (.pure _)) fun ok => ?_
  refine Acts.bind (.onlyIf (fun _ => postEvent_refines rfl) fun _ _ h => h) fun _ => ?_
  refine .silent_bind (modifyPool_silent fun _ => rfl) fun _ => ?_
  refine Acts.bind (notify_refines ?_) fun _ => .silent (setTimeout_silent _)
  dsimp only
  split <;> decide

theorem recoverFromError_refines : Acts recoverFromError := by
  refine .silent_bind getPool_silent fun _ => .ite (fun _ => ?_) fun _ => ?_
  · refine .silent_bind getPool_silent fun _ => .ite (fun _ => ?_) fun _ => postEvent_refines rfl
    refine .silent_bind (modifyPool_silent fun _ => rfl) fun _ => ?_
    refine .silent_bind (ask_silent _) fun r => ?_
    exact Acts.bind (logApp_refines rfl nofun) fun _ => postEvent_refines rfl
  · exact .silent (setTimeout_silent _)

theorem actionErrorEntry_refines : Acts actionErrorEntry := by
  refine Acts.bind recoverFromError_refines fun _ => .silent_bind getPool_silent fun pool => ?_
  refine notify_refines ?_
  dsimp only
  split <;> decide

/-- What becomes of the topics is decided by the clean session and the flag. -/
theorem restoreSubscriptions_run (s : Sys) :
    core (restoreSubscriptions s).2 =
      (core s).emit (.sessionOpened s.rest.pool.cleanSession s.rest.pool.hasSubscription
        s.rest.registry
        (s.rest.registry.opened s.rest.pool.cleanSession s.rest.pool.hasSubscription)) := by
  simp only [restoreSubscriptions, getPool_run, getRegistry, run_bind, run_get, run_pure,
    NbiotTopicRegistry.opened]
  by_cases hgate : (!s.rest.pool.hasSubscription && s.rest.registry.hasAnyTopic .both) = true
  · by_cases hclean : s.rest.pool.cleanSession = 0
    · simp only [hgate, hclean, ne_eq, not_true_eq_false, if_false, decide_false, Bool.and_false,
        Bool.false_eq_true]
      rfl
    · simp only [hgate, hclean, if_true, ne_eq, not_false_eq_true, decide_true, Bool.and_true]
      rfl
  · simp only [hgate, if_false, Bool.false_and, Bool.false_eq_true]
    rfl

theorem restoreSubscriptions_refines : Acts restoreSubscriptions := by
  refine .single fun s _ => ⟨?_, trivial⟩
  rw [restoreSubscriptions_run]
  exact .note _ (decide_eq_true rfl) nofun

theorem actionConnectedEntry_refines : Acts actionConnectedEntry :=
  .silent_bind (modifyPool_silent fun _ => rfl) fun _ =>
    .bind restoreSubscriptions_refines fun _ => notify_refines nofun

theorem actionDisconnectedEntry_refines :
    Refines core actionMachine (fun k => k.state = some .disconnected ∧ entering k.trace = true)
      actionDisconnectedEntry fun _ => Core.Settled := by
  refine .bind ((doDisconnect_refines (.inl rfl)).pre fun k hk => ⟨hk.1, hk.2⟩) fun _ => ?_
  refine .silent_bind getPool_silent fun pool => ?_
  have hnotify : Acts (notify
      { state := some .disconnected
        action := .disconnect
        returnCode := rcAccepted
        errorNumber := pool.errno }) := notify_refines nofun
  exact .bind ((hnotify.keeps Act.settled).mono acts_sub_action) fun _ =>
    .silent (setErrno_silent _)

theorem actionDeepSleepEntry_refines :
    Refines core actionMachine
      (fun k => k.state = some .deepSleep ∧ (setInCall k.trace).isSome = true) actionDeepSleepEntry
      fun _ _ => True := by
  refine .bind ((doDisconnect_refines (.inr rfl)).pre fun k hk => ⟨hk.1, hk.2⟩) fun _ => ?_
  have hrest : Acts (do
      let _ ← ask .switchModem
      logApp .modemSwitchedOff
      modifyPool fun pool => { pool with initialized := false, hasSubscription := false }
      notify
        { state := some .deepSleep
          action := .hibernate
          returnCode := rcAccepted
          errorNumber := .success }) :=
    .silent_bind (ask_silent _) fun _ => Acts.bind (logApp_refines rfl nofun) fun _ =>
      .silent_bind (modifyPool_silent fun _ => rfl) fun _ => notify_refines nofun
  exact (hrest.mono acts_sub_action).pre fun _ _ => trivial

/-- The entry actions of the states that keep or have a session only act. -/
theorem entryAction_acts {st : StateId} (e : StmEvent) (hdis : st ≠ .disconnected)
    (hdeep : st ≠ .deepSleep) : Acts (st.entryAction e) := by
  cases st with
  | disconnected => exact absurd rfl hdis
  | deepSleep => exact absurd rfl hdeep
  | initial => exact actionInitialEntry_refines e
  | error => exact actionErrorEntry_refines
  | connected => exact actionConnectedEntry_refines
  | connectedAwake => exact .silent (.bind getPool_silent fun _ => setTimeout_silent _)
  | waitForAttach => exact .silent (setTimeout_silent _)
  | waitForConnect => exact .silent (setTimeout_silent _)
  | connectedSleep => exact .pure fun _ h => h
  | disconnectedSleep => exact .pure fun _ h => h

/-- The entry action leaves the Disconnected state settled. -/
theorem entryAction_refines (st : StateId) {e : StmEvent}
    (hdeep : st = .deepSleep → e = .hibernateEvent) :
    Refines core actionMachine
      (fun k => k.state = some st ∧ entering k.trace = true ∧ Allowed e k.trace)
      (st.entryAction e) fun _ k => st = .disconnected → k.Settled := by
  by_cases hdis : st = .disconnected
  · subst hdis
    exact actionDisconnectedEntry_refines.conseq (fun k hk => ⟨hk.1, hk.2.1⟩) fun _ k hk _ => hk
  by_cases hds : st = .deepSleep
  · subst hds
    obtain rfl := hdeep rfl
    exact actionDeepSleepEntry_refines.conseq (fun k hk => ⟨hk.1, hk.2.2.2 (.inr rfl)⟩)
      fun _ _ _ h => absurd h hdis
  · exact ((entryAction_acts e hdis hds).mono acts_sub_action).conseq (fun _ _ => trivial)
      fun _ _ _ h => absurd h hdis

/-! ## Handling an event -/

/-- Being entered, a state stays as it is while its entry action runs. -/
theorem enterState_refines {st : StateId} {e : StmEvent}
    (hdeep : st = .deepSleep → e = .hibernateEvent) :
    Refines core handlingMachine (fun k => firing k.trace = true ∧ Allowed e k.trace)
      (enterState st e) fun _ k => k.state = some st ∧ (k.state = some .disconnected → k.Settled) := by
  have hset : Refines core handlingMachine (fun k => firing k.trace = true ∧ Allowed e k.trace)
      (setCurrentState st)
      fun _ k => k.state = some st ∧ entering k.trace = true ∧ Allowed e k.trace :=
    .single fun s hs => ⟨.move (.enter st hs.1), rfl, rfl, hs.2⟩
  refine .bind hset fun _ => .silent_bind getStm_silent fun stm => ?_
  refine .silent_bind (.onlyIf fun _ => rfl) fun _ => ?_
  have hentry := (entryAction_refines st hdeep).frame (J := fun k => k.state = some st)
    fun _ h hk => h.state.trans hk
  refine (hentry.mono action_sub_handling).conseq (fun k hk => ⟨hk, hk.1⟩) fun _ k hk => ?_
  exact ⟨hk.2, fun h => hk.1 (Option.some.inj (hk.2.symm.trans h))⟩

/-- What a transition starts from: it may be taken, in its source state. -/
def Fires (st : StateId) (t : Transition) (e : StmEvent) (k : Core) : Prop :=
  Move k (k.emit (.fired t e)) ∧ k.state = some st ∧ Allowed e k.trace

/-- A transition leads to one of its leaves. -/
theorem trigger_refines {st : StateId} {e : StmEvent} (target : Target) {t : Transition}
    (hsound : target.sound st e t = true) :
    Refines core handlingMachine (Fires st t e) (trigger t e target)
      fun _ k => (∃ leaf ∈ target.leaves, k.state = some leaf) ∧
        (k.state = some .disconnected → k.Settled) := by
  have hfire (t : Transition) : Refines core handlingMachine (Fires st t e) (logApp (.fired t e))
      fun _ k => k.state = some st ∧ firing k.trace = true ∧ Allowed e k.trace :=
    .single fun s hs => ⟨.move hs.1, hs.2.1, rfl, hs.2.2⟩
  have haction {t : Transition} (ht : t.sound st e = true) :
      Refines core handlingMachine
        (fun k => k.state = some st ∧ firing k.trace = true ∧ Allowed e k.trace) t.action
        fun _ k => Underway st k ∧ Allowed e k.trace := by
    have hframe := (action_refines ht).frame
      (J := fun k => Underway st k ∧ Allowed e k.trace)
      fun _ h hk => ⟨h.underway hk.1, hk.2.of_undisturbed h.undisturbed⟩
    exact (hframe.mono action_sub_handling).conseq
      (fun k hk => ⟨⟨hk.1, hk.2.2⟩, ⟨hk.1, hk.2.1⟩, hk.2.2⟩) fun _ _ hk => hk.2
  induction target generalizing t with
  | state st' =>
    simp only [Target.sound, Bool.and_eq_true] at hsound
    refine .bind (hfire t) fun _ => .bind (haction hsound.1) fun _ => ?_
    have hdeep : st' = .deepSleep → e = .hibernateEvent := by
      rintro rfl
      simpa using hsound.2
    exact (enterState_refines hdeep).conseq (fun k hk => ⟨hk.1.2, hk.2⟩)
      fun _ k hk => ⟨⟨st', List.mem_singleton_self _, hk.1⟩, hk.2⟩
  | choice c t₀ target₀ t₁ target₁ ih₀ ih₁ =>
    simp only [Target.sound, Bool.and_eq_true] at hsound
    refine .bind (hfire t) fun _ => .bind (haction hsound.1.1) fun _ => ?_
    refine .silent_bind (choice_silent c) fun yes => ?_
    have hnext {t : Transition} (k : Core) (hk : Underway st k ∧ Allowed e k.trace) :
        Fires st t e k := ⟨.follow t e hk.1.2, hk.1.1, hk.2⟩
    refine .ite (fun _ => ?_) fun _ => ?_
    · refine (ih₀ hsound.1.2).conseq hnext fun _ k ⟨⟨leaf, hleaf, hk⟩, hsettled⟩ => ?_
      exact ⟨⟨leaf, List.mem_append_left _ hleaf, hk⟩, hsettled⟩
    · refine (ih₁ hsound.2).conseq hnext fun _ k ⟨⟨leaf, hleaf, hk⟩, hsettled⟩ => ?_
      exact ⟨⟨leaf, List.mem_append_right _ hleaf, hk⟩, hsettled⟩

/-- Where an event can lead from a state. -/
def Leads (e : StmEvent) (st st' : Option StateId) : Prop :=
  match st with
  | none => st' = none
  | some s =>
      match s.transitionFor e with
      | some t => ∃ leaf ∈ t.target.leaves, st' = some leaf
      | none => st' = some s

/-- Handling an event is one step of the dispatch, and leaves the remaining
events alone. -/
theorem handleEvent_refines (e : StmEvent) (st : Option StateId) (es : List StmEvent) :
    Refines core dispatchMachine
      (fun k => k.state = st ∧ k.events = es ∧ ∀ e' ∈ e :: es, Allowed e' k.trace)
      (handleEvent e)
      fun _ k => Leads e st k.state ∧ k.events = es ∧ ∀ e' ∈ es, Allowed e' k.trace := by
  refine .reads getStm_run fun s ⟨hstate, hevents, hallowed⟩ => ?_
  have hrest : ∀ e' ∈ es, Allowed e' (core s).trace := fun e' he' =>
    hallowed e' (List.mem_cons_of_mem _ he')
  subst hstate
  cases hcurrent : s.rest.stm.currentState with
  | none =>
    have hst : (core s).state = none := hcurrent
    refine .pure ?_
    rintro k rfl
    exact ⟨by simp [Leads, hst], hevents, hrest⟩
  | some st =>
    have hst : (core s).state = some st := hcurrent
    cases ht : st.transitionFor e with
    | none =>
      simp only [ht]
      refine .pure ?_
      rintro k rfl
      exact ⟨by simp [Leads, ht, hst], hevents, hrest⟩
    | some t =>
      have htrigger := (trigger_refines t.target (transitionFor_sound ht)).frame
        (J := fun k => k.events = es ∧ ∀ e' ∈ es, Allowed e' k.trace) fun _ h hk =>
          ⟨h.undisturbed.events.trans hk.1, fun e' he' => (hk.2 e' he').of_undisturbed h.undisturbed⟩
      have hfires : Fires st t e (core s) :=
        ⟨.fire st t e hst ht (hallowed e List.mem_cons_self), hst, hallowed e List.mem_cons_self⟩
      simp only [ht]
      refine (Refines.atomic (B := dispatchMachine) htrigger id ?_).conseq ?_ ?_
      · intro k k' _ _ _ hrun hpost
        exact .handled ⟨hrun, hpost.1.2⟩
      · rintro k rfl
        exact ⟨hfires, hevents, hrest⟩
      · rintro _ k ⟨⟨hleaf, -⟩, hk⟩
        simpa [Leads, hst, ht] using ⟨hleaf, hk⟩

/-! ## Dispatching -/

/-- Where a sequence of events can lead from a state. -/
def Reaches : List StmEvent → Option StateId → Option StateId → Prop
  | [], st, st' => st' = st
  | e :: es, st, st' => ∃ mid, Leads e st mid ∧ Reaches es mid st'

theorem drainEvents_refines (es : List StmEvent) (st : Option StateId) :
    Refines core dispatchMachine
      (fun k => k.state = st ∧ k.events = es ∧ ∀ e ∈ es, Allowed e k.trace) (drainEvents es)
      fun _ k => Reaches es st k.state ∧ k.events = [] := by
  induction es generalizing st with
  | nil => exact .pure fun k hk => ⟨hk.1, hk.2.1⟩
  | cons e es ih =>
    have hpop : Refines core dispatchMachine
        (fun k => k.state = st ∧ k.events = e :: es ∧ ∀ e' ∈ e :: es, Allowed e' k.trace)
        (modifyStm fun stm => { stm with events := es })
        fun _ k => k.state = st ∧ k.events = es ∧ ∀ e' ∈ e :: es, Allowed e' k.trace :=
      .single fun s hs => ⟨.ready (.queue es), hs.1, rfl, hs.2.2⟩
    refine .bind hpop fun _ => .bind (handleEvent_refines e st es) fun _ => ?_
    refine .intro fun k₀ ⟨hlead, hevents, hallowed⟩ => ?_
    refine (ih k₀.state).conseq ?_ fun _ k hk => ⟨⟨k₀.state, hlead, hk.1⟩, hk.2⟩
    rintro k rfl
    exact ⟨rfl, hevents, hallowed⟩

/-- The events that were there before a dispatch. -/
def Pushable (e : StmEvent) (t : Log) : Prop :=
  e ≠ .timer ∧ (e = .sleepEvent ∨ e = .hibernateEvent → (setInCall t).isSome)

theorem pushable_of_postable {e : StmEvent} (he : e.postable = true) (t : Log) : Pushable e t := by
  cases e <;> first | exact absurd he (by decide) | exact ⟨by decide, by simp⟩

/-- The timer event joins the ready events when the state timer has run out. -/
theorem dispatchTimeout_refines (st : Option StateId) (es : List StmEvent) :
    Refines core dispatchMachine
      (fun k => k.state = st ∧ k.events = es ∧ ∀ e ∈ es, Pushable e k.trace) dispatchTimeout
      fun _ k => k.state = st ∧ (k.events = es ∨ k.events = es ++ [.timer]) ∧
        ∀ e ∈ k.events, Allowed e k.trace := by
  have hallowed {t : Log} (h : ∀ e ∈ es, Pushable e t) : ∀ e ∈ es, Allowed e t :=
    fun e he => ⟨fun htimer => absurd htimer (h e he).1, (h e he).2⟩
  have hlook (left : Option Nat) : Refines core dispatchMachine
      (fun k => k.state = st ∧ k.events = es ∧ ∀ e ∈ es, Pushable e k.trace)
      (logApp (.dispatched left)) fun _ k =>
        k.state = st ∧ k.events = es ∧ (∀ e ∈ es, Pushable e k.trace) ∧
          dispatching k.trace = some left :=
    .single fun s hs => ⟨.ready (.look left), hs.1, hs.2.1, hs.2.2, rfl⟩
  refine .silent_bind getStm_silent fun stm => .ite (fun _ => ?_) fun _ => ?_
  · refine .silent_bind (remaining_silent _) fun left => .bind (hlook (some left)) fun _ => ?_
    refine .ite (fun hleft => ?_) fun _ => .pure fun k hk => ?_
    · subst hleft
      have hpush : Refines core dispatchMachine
          (fun k => k.state = st ∧ k.events = es ∧ (∀ e ∈ es, Pushable e k.trace) ∧
            dispatching k.trace = some (some 0))
          (modifyStm fun stm => { stm with events := stm.events ++ [.timer] })
          fun _ k => k.state = st ∧ (k.events = es ∨ k.events = es ++ [.timer]) ∧
            ∀ e ∈ k.events, Allowed e k.trace := by
        refine .single fun s ⟨hstate, hevents, hpushable, hzero⟩ => ?_
        refine ⟨.ready (.queue ((core s).events ++ [.timer])), hstate, .inr ?_, fun e he => ?_⟩
        · exact congrArg (· ++ [StmEvent.timer]) hevents
        · rcases List.mem_append.1 he with he | he
          · exact hallowed hpushable e (hevents ▸ he)
          · obtain rfl := List.mem_singleton.1 he
            exact ⟨fun _ => hzero, by simp⟩
      refine .bind hpush fun _ => .silent_bind getMillis_silent fun _ => ?_
      exact .silent_bind (.ite getMillis_silent (.pure _)) fun _ => .silent (setTimeout_silent _)
    · exact ⟨hk.1, .inl hk.2.1, by rw [hk.2.1]; exact hallowed hk.2.2.1⟩
  · refine (hlook none).post fun _ k hk => ?_
    exact ⟨hk.1, .inl hk.2.1, by rw [hk.2.1]; exact hallowed hk.2.2.1⟩

theorem dispatch_refines (st : Option StateId) (es : List StmEvent) :
    Refines core dispatchMachine
      (fun k => k.state = st ∧ k.events = es ∧ ∀ e ∈ es, Pushable e k.trace) dispatch
      fun _ k => (∀ e ∈ k.events, e.postable = true) ∧
        (Reaches es st k.state ∨ Reaches (es ++ [.timer]) st k.state) := by
  refine .bind (dispatchTimeout_refines st es) fun _ => .reads getStm_run fun s hs => ?_
  have hdrain := (drainEvents_refines (core s).events st).pre (P := fun k => k = core s) ?_
  · refine .bind hdrain fun _ => .introInv fun k₀ hinv ⟨hreach, hevents⟩ => ?_
    refine .single fun s' hs' => ⟨.ready .swap, fun e he => ?_, ?_⟩
    · rcases List.mem_append.1 he with he | he
      · have hnone : e ∈ (core s').events := he
        simp [hs', hevents] at hnone
      · have hpending : e ∈ (core s').pendingEvents := he
        exact hinv e (hs' ▸ hpending)
    · have hstate : (core s').state = k₀.state := congrArg Core.state hs'
      refine (hs.2.1.imp (fun h => ?_) fun h => ?_)
      · exact hstate ▸ h ▸ hreach
      · exact hstate ▸ h ▸ hreach
  · rintro k rfl
    exact ⟨hs.1, rfl, hs.2.2⟩

/-- A pushed event is handled behind the ready ones, perhaps followed by the
state timeout. -/
def Sent (e : StmEvent) (st st' : Option StateId) : Prop :=
  ∃ es rest, (∀ e' ∈ es, e'.postable = true) ∧ (rest = [] ∨ rest = [.timer]) ∧
    Reaches (es ++ e :: rest) st st'

/-- Sending an event is one step. -/
theorem sendEvent_refines {e : StmEvent} (st : Option StateId) :
    Refines core servingMachine (fun k => k.state = st ∧ Pushable e k.trace) (sendEvent e)
      fun _ k => Sent e st k.state := by
  refine .introInv fun k₀ hinv ⟨hstate, hpushable⟩ => ?_
  have hpush : Refines core dispatchMachine (fun k => k = k₀)
      (modifyStm fun stm => { stm with events := stm.events ++ [e] })
      fun _ k => k.state = st ∧ k.events = k₀.events ++ [e] ∧
        ∀ e' ∈ k₀.events ++ [e], Pushable e' k.trace := by
    refine .single ?_
    rintro s rfl
    refine ⟨.ready (.queue ((core s).events ++ [e])), hstate, rfl, fun e' he' => ?_⟩
    rcases List.mem_append.1 he' with he' | he'
    · exact pushable_of_postable (hinv.1 e' he') _
    · obtain rfl := List.mem_singleton.1 he'
      exact hpushable
  have hsend := hpush.bind fun _ => dispatch_refines st (k₀.events ++ [e])
  refine (Refines.atomic (B := servingMachine) hsend (fun h => h.2) ?_).post ?_
  · intro k k' _ _ _ hrun hpost
    exact .dispatch ⟨hrun, hpost.1⟩
  · rintro _ k ⟨-, hreach⟩
    rcases hreach with hreach | hreach
    · exact ⟨k₀.events, [], hinv.1, .inl rfl, by simpa using hreach⟩
    · exact ⟨k₀.events, [.timer], hinv.1, .inr rfl, by simpa using hreach⟩

/-- The events that any public call may push. -/
def StmEvent.free : StmEvent → Bool
  | .timer | .sleepEvent | .hibernateEvent => false
  | _ => true

theorem pushable_of_free {e : StmEvent} (he : e.free = true) (t : Log) : Pushable e t := by
  cases e <;> first | exact absurd he (by decide) | exact ⟨by decide, by simp⟩

theorem sendEvent_serves {e : StmEvent} (he : e.free = true) :
    Refines core servingMachine (fun _ => True) (sendEvent e) fun _ _ => True :=
  .intro fun k₀ _ => (sendEvent_refines k₀.state).conseq
    (fun _ hk => ⟨congrArg _ hk, pushable_of_free he _⟩) fun _ _ _ => trivial

/-- The dispatch of the event loop is one step as well. -/
theorem dispatch_serves :
    Refines core servingMachine (fun _ => True) dispatch fun _ _ => True := by
  refine .introInv fun k₀ hinv _ => ?_
  have hdispatch := (dispatch_refines k₀.state k₀.events).pre (P := fun k => k = k₀) ?_
  · exact (Refines.atomic (B := servingMachine) hdispatch (fun h => h.2)
      fun _ _ hrun hpost => .dispatch ⟨hrun, hpost.1⟩).post fun _ _ _ => trivial
  · rintro k rfl
    exact ⟨rfl, rfl, fun e he => pushable_of_postable (hinv.1 e he) _⟩

end LibNbiot
