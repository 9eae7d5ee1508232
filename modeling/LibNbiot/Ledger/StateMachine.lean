/-
# What the state machine books

Every action and every entry action books what the ledger machine says, and so
does the handling of an event and a whole dispatch. All of these are exact: they
say where the ledger is afterwards, not only that the machine can get there.
-/

import LibNbiot.Ledger.Steps

namespace LibNbiot

open Logic.Program Relation

namespace Ledger

variable {α β : Type}

/-! ## Reading the state -/

theorem getPool_eq (s : Sys) : getPool s = (s.rest.pool, s) := rfl

theorem getSn_eq (s : Sys) : getSn s = (s.rest.sn, s) := rfl

theorem getStm_eq (s : Sys) : getStm s = (s.rest.stm, s) := rfl

theorem getRegistry_eq (s : Sys) : getRegistry s = (s.rest.registry, s) := rfl

/-! ## Programs that only queue clients -/

theorem Queues.refl (k : Ledger) : k.Queues k := ⟨[], nofun, by rw [List.append_nil]⟩

theorem Queues.trans {k k' k'' : Ledger} (h : k.Queues k') (h' : k'.Queues k'') : k.Queues k'' := by
  obtain ⟨cs, hcs, rfl⟩ := h
  obtain ⟨cs', hcs', rfl⟩ := h'
  refine ⟨cs ++ cs', fun c hc => ?_, by rw [List.append_assoc]⟩
  rcases List.mem_append.1 hc with hc | hc
  · exact hcs c hc
  · exact hcs' c hc

/-- A program relates the ledger before it to the ledger after it. -/
def Books (R : Ledger → Ledger → Prop) (m : M α) : Prop := ∀ s, R (ledger s) (ledger (m s).2)

namespace Books

variable {R : Ledger → Ledger → Prop}

theorem silent_bind {m : M α} {f : α → M β} (hm : Silent ledger m) (hf : ∀ a, Books R (f a)) :
    Books R (m >>= f) := fun s => by
  have h := hf (m s).1 (m s).2
  rw [hm s] at h
  exact h

theorem bind_silent {m : M α} {f : α → M β} (hm : Books R m) (hf : ∀ a, Silent ledger (f a)) :
    Books R (m >>= f) := fun s => by
  have h := hm s
  rw [← hf (m s).1 (m s).2] at h
  exact h

theorem ite {c : Prop} [Decidable c] {m n : M α} (hm : Books R m) (hn : Books R n) :
    Books R (if c then m else n) := by
  split
  · exact hm
  · exact hn

theorem silent {m : M α} (h : Silent ledger m) (hR : ∀ k, R k k) : Books R m := fun s => by
  rw [h s]
  exact hR _

end Books

/-- A program that books nothing but queued clients. -/
abbrev Queueing (m : M α) : Prop := Books Queues m

namespace Queueing

theorem silent {m : M α} (h : Silent ledger m) : Queueing m := Books.silent h .refl

theorem bind {m : M α} {f : α → M β} (hm : Queueing m) (hf : ∀ a, Queueing (f a)) :
    Queueing (m >>= f) := fun s => (hm s).trans (hf _ _)

theorem ite {c : Prop} [Decidable c] {m n : M α} (hm : Queueing m) (hn : Queueing n) :
    Queueing (if c then m else n) := Books.ite hm hn

theorem pure (a : α) : Queueing (Pure.pure a : M α) := .silent (.pure a)

end Queueing

theorem loopRequest_queueing {c : ClientId} (hc : c.aside = true) (length : Nat) :
    Queueing (loopRequest c length) :=
  fun s => ⟨[c], fun d hd => by rw [List.mem_singleton.1 hd]; exact hc, rfl⟩

theorem loopYield_queueing (timeoutMs : Nat) : Queueing (Client.yield timeoutMs) :=
  fun s => ⟨[.yield], fun d hd => by rw [List.mem_singleton.1 hd]; rfl, rfl⟩

theorem connect_queueing (duration cleansession : Nat) (clientId : Bytes) :
    Queueing (Client.connect duration cleansession clientId) := by
  refine .bind (.silent getSn_silent) fun sn => .ite (.pure _) ?_
  refine .bind (.silent (modifySn_silent _)) fun _ => .bind (.silent (serialize_silent _)) fun len => ?_
  exact .ite (.bind (loopRequest_queueing rfl _) fun _ => .pure _) (.pure _)

theorem disconnect_queueing (duration : Nat) : Queueing (Client.disconnect duration) := by
  refine .bind (.silent getSn_silent) fun sn => .bind (.silent (startTimer_silent _)) fun _ => ?_
  refine .bind (.silent (serialize_silent _)) fun len => ?_
  exact .ite (.bind (loopRequest_queueing rfl _) fun _ => .pure _) (.pure _)

theorem mqttDisconnect_queueing : Queueing mqttDisconnect := by
  refine .bind (.silent getSn_silent) fun sn => .ite ?_ (.pure _)
  exact .bind (.silent getPool_silent) fun pool => .bind (disconnect_queueing _) fun _ => .pure _

theorem mqttConnect_queueing (cleanSession : Nat) : Queueing (mqttConnect cleanSession) := by
  refine .bind (.silent getSn_silent) fun sn => .ite (.pure _) ?_
  exact .bind (.silent getPool_silent) fun pool => .bind (connect_queueing _ _ _) fun _ => .pure _

theorem doDisconnect_queueing : Queueing doDisconnect := by
  refine .bind (.silent getSn_silent) fun sn => .ite ?_ (.silent finishDisconnect_silent)
  exact .bind (.silent getPool_silent) fun pool => .bind (disconnect_queueing _) fun _ => .pure _

/-! ## Actions -/

/-- A transition in the log, and its action. -/
def fire (t : Transition) (e : StmEvent) : M Unit := do
  logApp (.fired t e)
  t.action

/-- A program that sets the error number and queues nothing. -/
theorem performs_errno {t : Transition} {m : M Unit}
    (h : ∀ s, ledger (m s).2 =
      { ledger s with
        errno := t.errno (ledger s).errno
        recovery := (ledger s).recovery.fire t }) (s : Sys) :
    t.Performs (ledger s) (ledger (m s).2) := by
  rw [h s]
  exact Queues.refl _

/-- A program that queues clients and leaves the error number alone. -/
theorem performs_queueing {t : Transition} {m : M Unit} (ht : ∀ errno, t.errno errno = errno)
    (hr : ∀ r : Recovery, r.fire t = r) (h : Queueing m) (s : Sys) :
    t.Performs (ledger s) (ledger (m s).2) := by
  rw [Transition.Performs, ht, hr]
  exact h s

/-- The counter is set back before the network is asked. -/
theorem actionIsAttachedIpConnect_attaches (s : Sys) :
    ledger (actionIsAttachedIpConnect s).2 =
      { ledger s with recovery := { (ledger s).recovery with restarts := 0 } } := by
  have hrest : Silent ledger (do
      if !(← getPool).gateway.isEmpty then
        let _ ← networkConnect : M Unit) :=
    .bind getPool_silent fun pool => .ite (.bind networkConnect_silent fun _ => .pure _) (.pure _)
  exact hrest _

theorem actionIsNotAttached_queueing : Queueing actionIsNotAttached := fun s =>
  ⟨[.attach], fun d hd => by rw [List.mem_singleton.1 hd]; rfl, rfl⟩

theorem fire_performs (t : Transition) (e : StmEvent) (s : Sys) :
    t.Performs (ledger s) (ledger (fire t e s).2) := by
  cases t with
  | mIsInitializedDisconnected => exact performs_errno (fun _ => rfl) s
  | mIsInitializedError => exact performs_errno (fun _ => rfl) s
  | mConnect => exact performs_errno (fun _ => rfl) s
  | mIsAttachedError => exact performs_errno (fun _ => rfl) s
  | mIsIpConnectedError => exact performs_errno (fun _ => rfl) s
  | mIsConnectedError => exact performs_errno (fun _ => rfl) s
  | mIsAttachedIpConnect =>
    exact performs_errno (fun s => actionIsAttachedIpConnect_attaches (logApp _ s).2) s
  | mIsNotAttached =>
    exact performs_queueing (fun _ => rfl) (fun _ => rfl)
      (.bind (.silent fun _ => rfl) fun _ => actionIsNotAttached_queueing) s
  | mWaitConnectIsConnected =>
    exact performs_queueing (fun _ => rfl) (fun _ => rfl) (.bind (.silent fun _ => rfl) fun _ =>
      .bind (.silent getPool_silent) fun _ => .bind (mqttConnect_queueing _) fun _ => .pure _) s
  | mSleep =>
    exact performs_queueing (fun _ => rfl) (fun _ => rfl) (.bind (.silent fun _ => rfl) fun _ =>
      .bind (.silent getPool_silent) fun _ => .ite mqttDisconnect_queueing (.pure _)) s
  | mWakeup =>
    exact performs_queueing (fun _ => rfl) (fun _ => rfl) (.bind (.silent fun _ => rfl) fun _ =>
      .bind (.silent getPool_silent) fun _ =>
        .ite (.bind (mqttConnect_queueing _) fun _ => .pure _) (.pure _)) s
  | mAwakeActive =>
    exact performs_queueing (fun _ => rfl) (fun _ => rfl) (.bind (.silent fun _ => rfl) fun _ =>
      .bind (mqttConnect_queueing _) fun _ => .pure _) s
  | _ =>
    exact performs_queueing (fun _ => rfl) (fun _ => rfl) (.bind (.silent fun _ => rfl) fun _ =>
      .pure _) s

/-! ## Entry actions -/

theorem setTimeout_books (ms : Nat) (s : Sys) :
    ∃ timeout, ledger (setTimeout ms s).2 = { ledger s with timeout := timeout } := ⟨_, rfl⟩

theorem initializeModem_silent (rebooted : Bool) : Silent ledger (initializeModem rebooted) :=
  .ite (.bind (ask_silent _) fun _ => .bind (logApp_silent rfl) fun _ => .pure _) (.pure _)

/-- A re-initialization does not look at the credentials. -/
theorem actionInitialEntry_again {e : StmEvent} (he : e = .reInitializeEvent ∨ e = .timer)
    (s : Sys) : ∃ ok timeout, ledger (actionInitialEntry e s).2 =
      { ledger s with
        initialized := ok
        pendingEvents := (ledger s).pendingEvents ++ [.initializeEvent]
        timeout := timeout } := by
  have hagain : (decide (e = .reInitializeEvent) || decide (e = .timer)) = true := by
    rcases he with rfl | rfl <;> rfl
  simp only [actionInitialEntry, hagain, rebootModem, if_true, run_bind, run_pure, Bool.not_true,
    Bool.and_false, Bool.false_eq_true, if_false, run_onlyIf]
  obtain ⟨timeout, htimeout⟩ := setTimeout_books timeoutOneMinute (notify _ _).2
  refine ⟨(initializeModem true s).1, timeout, htimeout.trans ?_⟩
  rw [notify_silent]
  have hsilent := initializeModem_silent true s
  generalize initializeModem true s = r at hsilent ⊢
  rw [← hsilent]
  rfl

/-- Right after the Error state was entered, an initialized library posts how it gets
out of the error, and another one waits. -/
def Recovers (r : Recovery) (k k' : Ledger) : Prop :=
  k.initialized = true ∧ k' =
    { k with pendingEvents := k.pendingEvents ++ [r.way], recovery := r.recover } ∨
  k.initialized = false ∧ ∃ timeout, k' = { k with timeout := timeout }

/-- The way out of an error: a reboot after enough errors. -/
def getOut : M Unit := do
  if restartModemThreshold ≤ (← getPool).modemRestartOnError then
    modifyPool fun pool => { pool with modemRestartOnError := 0 }
    let r ← ask .reboot
    logApp (.rebooted r.ok)
    postEvent .reInitializeEvent
  else
    postEvent .errorDisconnectEvent

theorem recoverFromError_eq : recoverFromError = (do
    if (← getPool).initialized then getOut else setTimeout timeoutOneMinute) := rfl

theorem getOut_recovers {r : Recovery} {s : Sys} (hstate : (ledger s).state = some .error)
    (hr : (ledger s).recovery = r.enter) : ledger (getOut s).2 =
      { ledger s with
        pendingEvents := (ledger s).pendingEvents ++ [r.way]
        recovery := r.recover } := by
  have hview : s.rest.stm.currentState = some .error := hstate
  have hrestarts : s.rest.pool.modemRestartOnError = r.restarts := congrArg Recovery.restarts hr
  have hentries : errorEntries s.trace = r.enter.entries := congrArg Recovery.entries hr
  have htimeouts : attachTimeouts s.trace = r.timeouts := congrArg Recovery.timeouts hr
  have hknown : knownInitialized s.trace = r.known := congrArg Recovery.known hr
  rw [getOut, run_bind, getPool_eq, hrestarts]
  by_cases h : restartModemThreshold ≤ r.restarts
  · have hledger : ledger ((do
        modifyPool fun pool => { pool with modemRestartOnError := 0 }
        let r ← ask .reboot
        logApp (.rebooted r.ok)
        postEvent .reInitializeEvent : M Unit) s).2 =
        { ledger s with
          pendingEvents := (ledger s).pendingEvents ++ [.reInitializeEvent]
          recovery :=
            { restarts := 0
              timeouts := if s.rest.stm.currentState = some .error then 0
                else attachTimeouts s.trace
              known := knownInitialized s.trace
              entries := if s.rest.stm.currentState = some .error then
                (errorEntries s.trace).modify 0 ({ · with rebooted := true })
                else errorEntries s.trace } } := rfl
    simp only [h, if_true]
    rw [hledger, hentries, hknown, if_pos hview, if_pos hview]
    simp [Recovery.way, Recovery.recover, Recovery.exhausted, Recovery.enter, h]
  · have hledger : ledger (postEvent .errorDisconnectEvent s).2 =
        { ledger s with
          pendingEvents := (ledger s).pendingEvents ++ [.errorDisconnectEvent]
          recovery :=
            { restarts := s.rest.pool.modemRestartOnError
              timeouts := attachTimeouts s.trace
              known := knownInitialized s.trace
              entries := if s.rest.stm.currentState = some .error then
                (errorEntries s.trace).modify 0 ({ · with disconnects := true })
                else errorEntries s.trace } } := rfl
    simp only [h, if_false]
    rw [hledger, hentries, hknown, htimeouts, hrestarts, if_pos hview]
    simp [Recovery.way, Recovery.recover, Recovery.exhausted, Recovery.enter, h]

theorem recoverFromError_recovers {r : Recovery} {s : Sys}
    (hstate : (ledger s).state = some .error) (hr : (ledger s).recovery = r.enter) :
    Recovers r (ledger s) (ledger (recoverFromError s).2) := by
  have hinit : (ledger s).initialized = s.rest.pool.initialized := rfl
  rw [recoverFromError_eq, run_bind, getPool_eq]
  by_cases h : s.rest.pool.initialized = true
  · simp only [h, if_true]
    exact .inl ⟨hinit.trans h, getOut_recovers hstate hr⟩
  · simp only [h, Bool.false_eq_true, if_false]
    exact .inr ⟨hinit.trans (Bool.eq_false_of_not_eq_true h), setTimeout_books _ s⟩

/-- The registry is as it was or empty. -/
def Restores (k k' : Ledger) : Prop := ∃ registry,
  (registry = k.registry ∨ registry = k.registry.clearRegistry) ∧
    k' = { k with registry := registry }

theorem restoreSubscriptions_restores : Books Restores restoreSubscriptions := by
  have hsame : ∀ k, Restores k k := fun k => ⟨_, .inl rfl, rfl⟩
  refine .silent_bind getPool_silent fun pool => .silent_bind getRegistry_silent fun before => ?_
  refine .bind_silent ?_ fun _ => .bind getRegistry_silent fun _ => logApp_silent rfl
  refine .ite (.ite ?_ ?_) (.silent (.pure _) hsame)
  · exact fun s => ⟨_, .inr rfl, rfl⟩
  · exact .silent (fun _ => rfl) hsame

theorem actionConnectedEntry_books (s : Sys) :
    ∃ registry, (registry = s.rest.registry ∨ registry = s.rest.registry.clearRegistry) ∧
      ledger (actionConnectedEntry s).2 =
        { ledger s with errno := .success, registry := registry } := by
  simp only [actionConnectedEntry, run_bind]
  obtain ⟨registry, hregistry, h⟩ := restoreSubscriptions_restores
    (modifyPool (fun pool => { pool with errno := .success, waitTimer := Timer.clear }) s).2
  exact ⟨registry, hregistry, (notify_silent _ _).trans h⟩

theorem actionDisconnectedEntry_books (s : Sys) :
    ∃ k', (ledger s).Queues k' ∧
      ledger (actionDisconnectedEntry s).2 = { k' with errno := .success } := by
  refine ⟨_, doDisconnect_queueing s, ?_⟩
  simp only [actionDisconnectedEntry, run_bind, getPool_eq]
  exact congrArg (fun k : Ledger => { k with errno := .success }) (notify_silent _ _)

theorem actionDeepSleepEntry_books (s : Sys) :
    ∃ k', (ledger s).Queues k' ∧
      ledger (actionDeepSleepEntry s).2 =
        { k' with initialized := false, recovery := k'.recovery.setKnown false } := by
  refine ⟨_, doDisconnect_queueing s, ?_⟩
  simp only [actionDeepSleepEntry, run_bind]
  exact notify_silent _ _

end Ledger

open Ledger

/-! ## States and transitions -/

/-- Of the entries only those into the Error state are kept. -/
def StateId.enterRecovery (st : StateId) (r : Recovery) : Recovery :=
  if st = .error then r.enter else r

theorem setCurrentState_books (st : StateId) (s : Sys) : ledger (setCurrentState st s).2 =
    { ledger s with state := some st, recovery := st.enterRecovery (ledger s).recovery } := by
  cases st <;> rfl

theorem enterState_start (st : StateId) (s : Sys) :
    ∃ s₁, ledger s₁ =
        { ledger s with
          state := some st
          timeout := false
          recovery := st.enterRecovery (ledger s).recovery } ∧
      ∀ e, enterState st e s = st.entryAction e s₁ := by
  refine ⟨(do
    setCurrentState st
    onlyIf (← getStm).stateTimeout.valid <|
      modifyStm fun stm => { stm with stateTimeout := Timer.clear } : M Unit) s |>.2, ?_, fun _ => rfl⟩
  have hbooks := setCurrentState_books st s
  simp only [run_bind, run_onlyIf]
  split
  · exact congrArg (fun k : Ledger => { k with timeout := false }) hbooks
  · rename_i hvalid
    have hcleared : (ledger s).timeout = false := Bool.eq_false_of_not_eq_true hvalid
    exact hbooks.trans (congrArg (fun timeout =>
      { ledger s with
        state := some st
        timeout := timeout
        recovery := st.enterRecovery (ledger s).recovery }) hcleared)

theorem enterState_enters {st : StateId} {e : StmEvent} (h : st.Enterable e) (s : Sys) :
    st.Enters e (ledger s) (ledger (enterState st e s).2) := by
  obtain ⟨s₁, hs₁, hentry⟩ := enterState_start st s
  rw [hentry]
  cases st with
  | initial =>
    obtain ⟨ok, timeout, hok⟩ := actionInitialEntry_again (h rfl) s₁
    rw [StateId.entryAction, hok, hs₁]
    exact .initial ok timeout (h rfl)
  | disconnected =>
    obtain ⟨k', ⟨cs, hcs, rfl⟩, hk⟩ := actionDisconnectedEntry_books s₁
    rw [StateId.entryAction, hk, hs₁]
    exact .disconnected { ledger s with queue := (ledger s).queue ++ cs } ⟨cs, hcs, rfl⟩
  | error =>
    have hentry : ledger (StateId.entryAction e .error s₁).2 = ledger (recoverFromError s₁).2 := by
      simp only [StateId.entryAction, actionErrorEntry, run_bind, getPool_eq]
      exact notify_silent _ _
    have hstate : (ledger s₁).state = some .error := congrArg Ledger.state hs₁
    have hrecovery : (ledger s₁).recovery = (ledger s).recovery.enter :=
      congrArg Ledger.recovery hs₁
    have hrecovers := recoverFromError_recovers hstate hrecovery
    rw [hentry]
    rw [hs₁] at hrecovers
    obtain ⟨hinit, hk⟩ | ⟨hinit, timeout, hk⟩ := hrecovers
    · rw [hk]
      exact .recovered hinit
    · rw [hk]
      exact .failed timeout hinit
  | connected =>
    obtain ⟨registry, hregistry, hk⟩ := actionConnectedEntry_books s₁
    have hold : s₁.rest.registry = (ledger s).registry := congrArg Ledger.registry hs₁
    rw [hold] at hregistry
    rw [StateId.entryAction, hk, hs₁]
    exact .connected registry hregistry
  | deepSleep =>
    obtain ⟨k', ⟨cs, hcs, rfl⟩, hk⟩ := actionDeepSleepEntry_books s₁
    rw [StateId.entryAction, hk, hs₁]
    exact .deepSleep { ledger s with queue := (ledger s).queue ++ cs } ⟨cs, hcs, rfl⟩
  | connectedAwake =>
    obtain ⟨timeout, hk⟩ := setTimeout_books (oneSecondMs * s₁.rest.pool.duration) s₁
    have hentry : ledger (StateId.entryAction e .connectedAwake s₁).2 =
      ledger (setTimeout (oneSecondMs * s₁.rest.pool.duration) s₁).2 := rfl
    rw [hentry, hk, hs₁]
    exact .connectedAwake timeout
  | waitForAttach =>
    obtain ⟨timeout, hk⟩ := setTimeout_books timeoutOneMinute s₁
    rw [StateId.entryAction, hk, hs₁]
    exact .waitForAttach timeout
  | waitForConnect =>
    obtain ⟨timeout, hk⟩ := setTimeout_books timeoutOneMinute s₁
    rw [StateId.entryAction, hk, hs₁]
    exact .waitForConnect timeout
  | connectedSleep =>
    have hsame : ledger (StateId.entryAction e .connectedSleep s₁).2 = ledger s₁ := rfl
    rw [hsame, hs₁]
    exact .connectedSleep
  | disconnectedSleep =>
    have hsame : ledger (StateId.entryAction e .disconnectedSleep s₁).2 = ledger s₁ := rfl
    rw [hsame, hs₁]
    exact .disconnectedSleep

theorem trigger_triggers (e : StmEvent) (target : Target) (t : Transition) (h : target.Enterable e)
    (s : Sys) : Triggers e t target (ledger s) (ledger (trigger t e target s).2) := by
  induction target generalizing t s with
  | state st =>
    have htrigger : trigger t e (.state st) s = enterState st e (fire t e s).2 := rfl
    rw [htrigger]
    exact .state (fire_performs t e s) (enterState_enters h _)
  | choice c t₀ target₀ t₁ target₁ ih₀ ih₁ =>
    have htrigger : trigger t e (.choice c t₀ target₀ t₁ target₁) s =
        (do if ← c.condition then trigger t₀ e target₀ else trigger t₁ e target₁ : M Unit)
          (fire t e s).2 := rfl
    have hperforms := fire_performs t e s
    rw [htrigger, run_bind, run_ite]
    generalize (fire t e s).2 = s₁ at hperforms ⊢
    have hsame := choice_silent c s₁
    have hinit : c = .isInitialized → (c.condition s₁).1 = (ledger s₁).initialized := by
      rintro rfl
      rfl
    generalize c.condition s₁ = r at hsame hinit ⊢
    rw [← hsame] at hperforms hinit
    split
    · rename_i hyes
      refine .first hperforms (ih₀ t₀ h.1 _) fun hc => ?_
      rw [← hinit hc]
      exact hyes
    · rename_i hno
      refine .second hperforms (ih₁ t₁ h.2 _) fun hc => ?_
      rw [← hinit hc]
      exact Bool.eq_false_of_not_eq_true hno

theorem transition_enterable {st : StateId} {e : StmEvent} {t : Transition}
    (h : st.transitionFor e = some t) : t.target.Enterable e := by
  cases st <;> cases e <;> first
    | (cases h; done)
    | (cases h
       simp [Transition.target, Choice.target, Target.Enterable, StateId.Enterable])

theorem handleEvent_reacts (e : StmEvent) (s : Sys) :
    Reacts e (ledger s) (ledger (handleEvent e s).2) := by
  simp only [handleEvent, run_bind, getStm_eq]
  cases hst : s.rest.stm.currentState with
  | none => exact .ignored (by simp [Ledger.transitionFor, ledger, hst])
  | some st =>
    simp only
    cases ht : st.transitionFor e with
    | none => exact .ignored (by simp [Ledger.transitionFor, ledger, hst, ht])
    | some t =>
      refine .taken t _ ?_ (trigger_triggers e t.target t (transition_enterable ht) s)
      simp [Ledger.transitionFor, ledger, hst, ht]

/-! ## Dispatching -/

theorem drainEvents_drains (es : List StmEvent) (s : Sys) (h : s.rest.stm.events = es) :
    Drains es (ledger s) (ledger (drainEvents es s).2) := by
  induction es generalizing s with
  | nil =>
    have hdone : ledger s = { ledger s with events := [] } := by
      simp only [ledger, h]
    simp only [drainEvents, run_pure]
    rw [hdone]
    exact .done _
  | cons e es ih =>
    simp only [drainEvents, run_bind]
    have hreacts := handleEvent_reacts e (modifyStm (fun stm => { stm with events := es }) s).2
    exact .handle hreacts (ih _ hreacts.events)

/-- What the state timeout books. -/
def TimesOut (k k' : Ledger) : Prop := ∃ timer timeout,
  (timer = [] ∨ timer = [StmEvent.timer] ∧ k.timeout = true) ∧ (k.timeout = false → timeout = false) ∧
    k' = { k with events := k.events ++ timer, timeout := timeout }

theorem TimesOut.refl (k : Ledger) : TimesOut k k :=
  ⟨[], k.timeout, .inl rfl, id, by rw [List.append_nil]⟩

theorem dispatchTimeout_books (s : Sys) : TimesOut (ledger s) (ledger (dispatchTimeout s).2) := by
  rw [dispatchTimeout, run_bind, getStm_eq]
  by_cases hvalid : s.rest.stm.stateTimeout.valid = true
  · simp only [hvalid, if_true]
    have hbooks : Books (fun k k' => k.timeout = true → TimesOut k k') (do
        let left ← remaining s.rest.stm.stateTimeout
        logApp (.dispatched (some left))
        if left = 0 then
          modifyStm fun stm => { stm with events := stm.events ++ [.timer] }
          let now ← getMillis
          let later ← (if s.rest.stm.stateTimeout.startMs ≠ 0 ∧
            s.rest.stm.stateTimeout.remaining now ≠ 0 then getMillis else pure now)
          setTimeout (s.rest.stm.stateTimeout.expired now later) : M Unit) := by
      refine .silent_bind (remaining_silent _) fun left => .silent_bind (logApp_silent rfl) fun _ => ?_
      refine .ite (fun s₁ htimeout => ?_) (.silent (.pure _) fun k _ => .refl k)
      have hrestart : Books (fun k k' => ∃ timeout, k' = { k with timeout := timeout }) (do
          let now ← getMillis
          let later ← (if s.rest.stm.stateTimeout.startMs ≠ 0 ∧
            s.rest.stm.stateTimeout.remaining now ≠ 0 then getMillis else pure now)
          setTimeout (s.rest.stm.stateTimeout.expired now later) : M Unit) := by
        refine .silent_bind getMillis_silent fun now => ?_
        refine .silent_bind (.ite getMillis_silent (.pure _)) fun later => ?_
        exact setTimeout_books _
      obtain ⟨timeout, h⟩ := hrestart (modifyStm (fun stm =>
        { stm with events := stm.events ++ [.timer] }) s₁).2
      exact ⟨[.timer], timeout, .inr ⟨rfl, htimeout⟩, fun hoff => absurd (htimeout.symm.trans hoff) nofun, h⟩
    exact hbooks s hvalid
  · simp only [hvalid, Bool.false_eq_true, if_false]
    rw [logApp_silent rfl]
    exact .refl _

/-- A dispatch in a state in which some events were pushed. -/
theorem dispatch_dispatches {pushed : List StmEvent} {k : Ledger} (s : Sys)
    (hs : ledger s = { k with events := k.events ++ pushed }) :
    Dispatches pushed k (ledger (dispatch s).2) := by
  obtain ⟨timer, timeout, htimer, htimeout, hbooks⟩ := dispatchTimeout_books s
  simp only [dispatch, run_bind, getStm_eq]
  generalize (dispatchTimeout s).2 = s₁ at hbooks ⊢
  have hdrains := drainEvents_drains s₁.rest.stm.events s₁ rfl
  rw [hs] at hbooks htimer htimeout
  have hevents : s₁.rest.stm.events = k.events ++ pushed ++ timer := congrArg Ledger.events hbooks
  rw [hevents, hbooks] at hdrains
  rw [hevents]
  generalize drainEvents (k.events ++ pushed ++ timer) s₁ = r at hdrains ⊢
  have hdone : r.2.rest.stm.events = [] := hdrains.events
  have hready : ledger (modifyStm (fun stm =>
      { stm with events := stm.events ++ stm.pendingEvents, pendingEvents := [] }) r.2).2 =
        { ledger r.2 with events := (ledger r.2).pendingEvents, pendingEvents := [] } := by
    simp [ledger, modifyStm, hdone]
  rw [hready]
  refine .of timer timeout _ htimer htimeout ?_
  exact hdrains.of_events (k := { k with timeout := timeout })

theorem sendEvent_dispatches (e : StmEvent) (s : Sys) :
    Dispatches [e] (ledger s) (ledger (sendEvent e s).2) :=
  dispatch_dispatches (modifyStm (fun stm => { stm with events := stm.events ++ [e] }) s).2 rfl

end LibNbiot
