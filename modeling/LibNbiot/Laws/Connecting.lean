/-
# The answer of connect

A connect sends the connect event, or wakes a sleeping library up, and answers
with the error number that is set afterwards. After a connect event that answer
is true: an error number is set in the Error state and on the way back to the
initial one, and no other state is left without a connection. A wakeup is not
enough: it takes a library that fell asleep without a connection to the
Disconnected state, and one that is awake for a ping nowhere.
-/

import LibNbiot.Laws.History
import LibNbiot.Ledger.Order

namespace LibNbiot

open Logic.Program Relation Ledger

/-- A connection exists or is being established. -/
def StateId.Established (st : StateId) : Prop :=
  st = .waitForAttach ∨ st = .waitForConnect ∨ st = .connected

/-- A connect that answers with success leaves a connection or is about to. -/
def ReportsConnect (cleanSession : Nat) (s : Sys) : Prop :=
  (connect cleanSession s).1 = .success →
    ∃ st, (connect cleanSession s).2.rest.stm.currentState = some st ∧ st.Established

/-- The sleeping states. -/
def StateId.sleeping (st : StateId) : Bool :=
  st = .connectedSleep || st = .connectedAwake || st = .disconnectedSleep

/-! ## What a connect books -/

/-- The ways of a connect, with its answers. -/
inductive Connects (k : Ledger) : ErrorNumber → Ledger → Prop
  | uninitialized (hinit : k.initialized = false) : Connects k .initializeError k
  | connected (hinit : k.initialized = true) (h : k.state = some .connected) :
      Connects k k.errno k
  | wakes (k' : Ledger) (hinit : k.initialized = true) (h : k.state.any StateId.sleeping = true)
      (hdispatch : Dispatches [.wakeupEvent] k k') : Connects k k'.errno k'
  | connects (k' : Ledger) (hinit : k.initialized = true) (h : k.state ≠ some .connected)
      (h' : k.state.any StateId.sleeping = false) (hdispatch : Dispatches [.connectEvent] k k') :
      Connects k k'.errno k'

theorem isSleeping_fst (s : Sys) :
    (isSleeping s).1 = (ledger s).state.any StateId.sleeping := by
  have hstate (st : StateId) (s' : Sys) (h : ledger s' = ledger s) :
      (stateIs st s').1 = decide ((ledger s).state = some st) := by
    rw [stateIs_fst, h]
  simp only [isSleeping, run_bind, run_ite, run_pure]
  rw [hstate .connectedSleep _ rfl, hstate .connectedAwake _ (stateIs_silent _ _),
    apply_ite Prod.fst, apply_ite Prod.fst,
    hstate .disconnectedSleep _ ((stateIs_silent _ _).trans (stateIs_silent _ _))]
  cases (ledger s).state with
  | none => rfl
  | some st => cases st <;> rfl

theorem connect_connects (cleanSession : Nat) (s : Sys) :
    Connects (ledger s) (connect cleanSession s).1 (ledger (connect cleanSession s).2) := by
  have hinit : (ledger s).initialized = s.rest.pool.initialized := rfl
  rw [connect, run_bind, getPool_eq]
  by_cases h : s.rest.pool.initialized = true
  · rw [← hinit] at h
    have hstate := stateIs_fst .connected s
    have hsame := stateIs_silent .connected s
    simp only [← hinit, h, if_true, isConnected, run_bind]
    generalize stateIs .connected s = r at hstate hsame ⊢
    have hsleeping := isSleeping_fst r.2
    have hsame' := isSleeping_silent r.2
    by_cases hconnected : (ledger s).state = some .connected
    · have hr : r.1 = true := hstate.trans (decide_eq_true hconnected)
      simp only [hr, if_true, run_pure, Bool.false_eq_true, if_false, run_bind]
      generalize isSleeping r.2 = r' at hsleeping hsame' ⊢
      rw [hsame, hconnected] at hsleeping
      have hawake : r'.1 = false := hsleeping
      simp only [hawake, run_onlyIf, Bool.false_eq_true, if_false]
      have hledger : ledger r'.2 = ledger s := hsame'.trans hsame
      rw [← hledger] at h hconnected ⊢
      exact .connected h hconnected
    · have hr : r.1 = false := hstate.trans (decide_eq_false hconnected)
      simp only [hr, Bool.false_eq_true, if_false, run_map]
      generalize hasks : isSleeping r.2 = r' at hsleeping hsame' ⊢
      rw [hsame] at hsleeping
      have hledger : ledger r'.2 = ledger s := hsame'.trans hsame
      by_cases hsleeps : r'.1 = true
      · simp only [hsleeps, Bool.not_true, Bool.false_eq_true, if_false, run_bind]
        have hagain := isSleeping_fst r'.2
        have hsame'' := isSleeping_silent r'.2
        generalize isSleeping r'.2 = r'' at hagain hsame'' ⊢
        rw [hledger, ← hsleeping, hsleeps] at hagain
        simp only [hagain, run_onlyIf, if_true]
        have hdispatches := sendEvent_dispatches .wakeupEvent r''.2
        rw [hsame'', hledger] at hdispatches
        exact .wakes _ h (hsleeping.symm.trans hsleeps) hdispatches
      · have hsleeps : r'.1 = false := Bool.eq_false_of_not_eq_true hsleeps
        simp only [hsleeps, Bool.not_false, if_true, run_bind]
        have hdispatches := sendEvent_dispatches .connectEvent (modifyPool (fun pool =>
          { pool with cleanSession := cleanSession }) r'.2).2
        have hset : ledger (modifyPool (fun pool =>
          { pool with cleanSession := cleanSession }) r'.2).2 = ledger r'.2 := rfl
        rw [hset, hledger] at hdispatches
        exact .connects _ h hconnected (hsleeping.symm.trans hsleeps) hdispatches
  · simp only [h, Bool.false_eq_true, if_false]
    exact .uninitialized (hinit.trans (Bool.eq_false_of_not_eq_true h))

/-! ## The connect event -/

/-- Without an error number there is a connection, or there will be. -/
def Ledger.Answered (k : Ledger) : Prop :=
  k.errno = .success → ∃ st, k.state = some st ∧ st.Established

/-- Before the connect event: the library is where it can connect, or an error
number is set and stays set. -/
inductive Ledger.Hopeful (timer es : List StmEvent) (k : Ledger) : Prop
  | disconnected (h : k.state = some .disconnected)
  | attaching (h : k.state = some .waitForAttach) (hes : Settled es)
  | connecting (h : k.state = some .waitForConnect)
  | connected (h : k.state = some .connected)
  | error (h : k.state = some .error) (herrno : k.errno ≠ .success)
      (hes : timer = [] ∨ Settled es)
  | initial (h : k.state = some .initial) (hinit : k.initialized = true)
      (hes : .initializeEvent ∈ es)
  | restarted (h : k.state = some .initial) (herrno : k.errno ≠ .success) (htimer : timer = [])

/-- A dispatch of the connect event: the ready events, the event, the timer. -/
inductive Connecting (timer : List StmEvent) : List StmEvent → Ledger → Prop
  | ready (es : List StmEvent) {k : Ledger} (hes : ∀ e ∈ es, e.posted = true)
      (hk : k.Hopeful timer es) : Connecting timer (es ++ .connectEvent :: timer) k
  | sent {k : Ledger} (hk : k.Answered) (h : k.state = some .initial → timer = []) :
      Connecting timer timer k
  | done {k : Ledger} (hk : k.Answered) : Connecting timer [] k

theorem Ledger.Answered.of_state {k : Ledger} {st : StateId} (h : k.state = some st)
    (hst : st.Established) : k.Answered := fun _ => ⟨st, h, hst⟩

theorem Ledger.Answered.of_errno {k : Ledger} (h : k.errno ≠ .success) : k.Answered :=
  fun hsuccess => absurd hsuccess h

theorem Ledger.Hopeful.step {timer es : List StmEvent} {e : StmEvent} {k k' : Ledger}
    (hk : k.Hopeful timer (e :: es)) (he : e.posted = true) {rest : List StmEvent}
    (hreacts : Reacts e { k with events := rest } k') : k'.Hopeful timer es := by
  obtain ⟨hnone, rfl⟩ | ⟨st, st', errno, recovery, queue, hst, hmoves, henter⟩ := hreacts.moves
  · cases hk with
    | disconnected h => exact .disconnected h
    | attaching h hes => exact .attaching h hes.tail
    | connecting h => exact .connecting h
    | connected h => exact .connected h
    | error h herrno hes => exact .error h herrno (hes.imp_right Settled.tail)
    | initial h hinit hes =>
      obtain rfl | hes := List.mem_cons.1 hes
      · have hwaits : k.state.bind (·.transitionFor .initializeEvent) = none := hnone
        rw [h] at hwaits
        cases hwaits
      · exact .initial h hinit hes
    | restarted h herrno htimer => exact .restarted h herrno htimer
  · have hst : k.state = some st := hst
    cases hk with
    | disconnected h =>
      cases hst.symm.trans h
      cases hmoves <;> cases he
    | attaching h hes =>
      cases hst.symm.trans h
      cases hmoves with
      | attached =>
        cases henter
        exact .connecting rfl
      | cutOff => cases henter <;> exact .error rfl nofun (.inr hes.tail)
      | unattached => cases he
    | connecting h =>
      cases hst.symm.trans h
      cases hmoves with
      | connected =>
        cases henter
        exact .connected rfl
      | unconnected => cases he
    | connected h =>
      cases hst.symm.trans h
      cases hmoves with
      | disconnect =>
        cases henter
        exact .disconnected rfl
      | sleep => cases he
      | hibernate => cases he
    | error h herrno hes =>
      cases hst.symm.trans h
      cases hmoves with
      | recover =>
        cases henter
        exact .disconnected rfl
      | restart hrestart =>
        cases henter
        refine .restarted rfl herrno (hes.resolve_right fun hsettled => ?_)
        obtain rfl | rfl := hrestart
        · exact Bool.false_ne_true (hsettled _ List.mem_cons_self).symm
        · cases he
    | initial h hinit hes =>
      cases hst.symm.trans h
      cases hmoves with
      | initialized =>
        cases henter
        exact .disconnected rfl
      | uninitialized _ hno => exact absurd (hinit.symm.trans hno) nofun
    | restarted h herrno htimer =>
      cases hst.symm.trans h
      cases hmoves with
      | initialized =>
        cases henter
        exact .disconnected rfl
      | uninitialized => cases henter <;> exact .error rfl nofun (.inl htimer)

theorem Ledger.Hopeful.connect {timer : List StmEvent} {k k' : Ledger}
    (hk : k.Hopeful timer []) (hreacts : Reacts .connectEvent { k with events := timer } k') :
    k'.Answered ∧ (k'.state = some .initial → timer = []) := by
  obtain ⟨hnone, rfl⟩ | ⟨st, st', errno, recovery, queue, hst, hmoves, henter⟩ := hreacts.moves
  · cases hk with
    | disconnected h =>
      have hwaits : k.state.bind (·.transitionFor .connectEvent) = none := hnone
      rw [h] at hwaits
      cases hwaits
    | attaching h hes => exact ⟨.of_state h (.inl rfl), fun h' => absurd (h.symm.trans h') nofun⟩
    | connecting h => exact ⟨.of_state h (.inr (.inl rfl)), fun h' => absurd (h.symm.trans h') nofun⟩
    | connected h => exact ⟨.of_state h (.inr (.inr rfl)), fun h' => absurd (h.symm.trans h') nofun⟩
    | error h herrno hes => exact ⟨.of_errno herrno, fun h' => absurd (h.symm.trans h') nofun⟩
    | initial h hinit hes => cases hes
    | restarted h herrno htimer => exact ⟨.of_errno herrno, fun _ => htimer⟩
  · cases hmoves with
    | connect =>
      cases henter
      exact ⟨.of_state rfl (.inr (.inl rfl)), nofun⟩
    | attach =>
      cases henter
      exact ⟨.of_state rfl (.inl rfl), nofun⟩
    | unreachable => cases henter <;> exact ⟨.of_errno nofun, nofun⟩
    | initialized he => exact absurd he nofun
    | uninitialized he => exact absurd he nofun
    | restart he => exact absurd he nofun
    | asleep he => exact absurd he nofun

theorem Ledger.Answered.timer {k k' : Ledger} (hk : k.Answered) (hstate : k.state ≠ some .initial)
    (hreacts : Reacts .timer { k with events := [] } k') : k'.Answered := by
  obtain ⟨-, rfl⟩ | ⟨st, st', errno, recovery, queue, hst, hmoves, henter⟩ := hreacts.moves
  · exact hk
  · have hst : k.state = some st := hst
    -- A state without a connection has an error number, which it keeps.
    have herrno (hno : ¬st.Established) : k.errno ≠ .success := by
      intro hsuccess
      obtain ⟨st₁, hst₁, hestablished⟩ := hk hsuccess
      cases hst.symm.trans hst₁
      exact hno hestablished
    cases hmoves with
    | initialized => exact absurd hst hstate
    | uninitialized => exact absurd hst hstate
    | restart =>
      cases henter
      exact .of_errno (herrno (by simp [StateId.Established]))
    | asleep =>
      cases henter
      exact .of_errno (herrno (by simp [StateId.Established]))
    | unattached => cases henter <;> exact .of_errno nofun
    | unconnected => cases henter <;> exact .of_errno nofun

/-- Handling an event takes the dispatch of the connect event on. -/
theorem Connecting.step {timer : List StmEvent} (htimer : timer = [] ∨ timer = [.timer])
    {e : StmEvent} {es : List StmEvent} {k k' : Ledger} (hk : Connecting timer (e :: es) k)
    (hreacts : Reacts e { k with events := es } k') : Connecting timer es k' := by
  generalize hlist : e :: es = l at hk
  cases hk with
  | ready ready hes hk =>
    cases ready with
    | nil =>
      obtain ⟨rfl, rfl⟩ := List.cons.inj hlist
      obtain ⟨hanswered, hinitial⟩ := hk.connect hreacts
      exact .sent hanswered hinitial
    | cons e' ready =>
      obtain ⟨rfl, rfl⟩ := List.cons.inj hlist
      exact .ready ready (fun e'' he'' => hes e'' (List.mem_cons_of_mem _ he''))
        (hk.step (hes e List.mem_cons_self) hreacts)
  | sent hk hinitial =>
    obtain rfl | rfl := htimer
    · cases hlist
    · obtain ⟨rfl, rfl⟩ := List.cons.inj hlist
      exact .done (hk.timer (fun h => nomatch hinitial h) hreacts)
  | done hk => cases hlist

/-- After a dispatch of the connect event the error number answers the call. -/
theorem Dispatches.answered {k k' : Ledger} (h : Dispatches [.connectEvent] k k') (hk : k.Ordered)
    (hinit : k.initialized = true) (hno : k.state.any StateId.sleeping = false) : k'.Answered := by
  obtain ⟨timer, timeout, k', htimer, htimeout, h⟩ := h
  have hhopeful : Ledger.Hopeful timer k.events { k with timeout := timeout } := by
    obtain hstate | ⟨st, hstate⟩ := Option.eq_none_or_eq_some k.state
    · exact absurd (hinit.symm.trans (hk.sound.unstarted hstate)) nofun
    · cases st with
      | initial => exact .initial hstate hinit (hk.initial hstate)
      | disconnected => exact .disconnected hstate
      | error =>
        refine .error hstate (hk.sound.error hstate) (.inl (htimer.resolve_right fun ht => ?_))
        exact absurd ((hk.sound.untimed hstate hinit).symm.trans ht.2) nofun
      | connected => exact .connected hstate
      | deepSleep => exact absurd (hinit.symm.trans (hk.sound.off hstate)) nofun
      | waitForAttach => exact .attaching hstate (hk.attaching hstate)
      | waitForConnect => exact .connecting hstate
      | _ =>
        rw [hstate] at hno
        cases hno
  have hconnecting : Connecting timer (k.events ++ [.connectEvent] ++ timer)
      { k with timeout := timeout } := by
    rw [List.append_assoc]
    exact .ready k.events hk.events hhopeful
  obtain ⟨k₁, hk₁, rfl⟩ := h.keeps (Connecting.step (htimer.imp_right And.left)) hconnecting
  have hanswered : k₁.Answered := by
    generalize hnil : ([] : List StmEvent) = l at hk₁
    cases hk₁ with
    | ready es hes hk => exact absurd hnil (by simp)
    | sent hk h => exact hk
    | done hk => exact hk
  exact hanswered

/-! ## The wakeup event -/

/-- Where a wakeup event takes a library that sleeps in a state. -/
def Ledger.Woken (errno : ErrorNumber) (k : Ledger) : StateId → Prop
  | .connectedSleep => k.state = some .connected
  | .connectedAwake =>
      (k.state = some .connectedAwake ∨ k.state = some .connectedSleep) ∧ k.errno = errno
  | .disconnectedSleep => k.state = some .disconnected ∧ k.errno = .success
  | _ => False

/-- A dispatch of the wakeup event: the ready events, the event, the timer. -/
inductive Waking (st : StateId) (errno : ErrorNumber) (timer : List StmEvent) :
    List StmEvent → Ledger → Prop
  | ready (es : List StmEvent) {k : Ledger} (hes : ∀ e ∈ es, e.posted = true)
      (hstate : k.state = some st) (herrno : k.errno = errno) :
      Waking st errno timer (es ++ .wakeupEvent :: timer) k
  | sent {k : Ledger} (hk : k.Woken errno st) : Waking st errno timer timer k
  | done {k : Ledger} (hk : k.Woken errno st) : Waking st errno timer [] k

/-- A sleeping library ignores what was posted. -/
theorem StateId.transitionFor_sleeping {st : StateId} {e : StmEvent} (h : st.sleeping = true)
    (he : e.posted = true) : st.transitionFor e = none := by
  cases st <;> first
    | (cases h; done)
    | (cases e <;> first | rfl | cases he)

theorem Reacts.of_none {e : StmEvent} {k k' : Ledger} (h : Reacts e k k')
    (hnone : k.transitionFor e = none) : k' = k := by
  cases h with
  | ignored h => rfl
  | taken t k' h htrigger => exact nomatch hnone.symm.trans h

theorem Ledger.Woken.of_wakeup {st : StateId} {es : List StmEvent} {k k' : Ledger}
    (hstate : k.state = some st) (hsleeping : st.sleeping = true)
    (hreacts : Reacts .wakeupEvent { k with events := es } k') : k'.Woken k.errno st := by
  obtain ⟨hnone, rfl⟩ | ⟨st₁, st', errno, recovery, queue, hst, hmoves, henter⟩ := hreacts.moves
  · have hwaits : k.state.bind (·.transitionFor .wakeupEvent) = none := hnone
    rw [hstate] at hwaits
    cases st with
    | connectedAwake => exact ⟨.inl hstate, rfl⟩
    | connectedSleep => cases hwaits
    | disconnectedSleep => cases hwaits
    | _ => cases hsleeping
  · have hst : k.state = some st₁ := hst
    cases hst.symm.trans hstate
    cases hmoves with
    | wakeup =>
      cases henter
      rfl
    | disWakeup =>
      cases henter
      exact ⟨rfl, rfl⟩
    | asleep he => exact absurd he nofun
    | _ => cases hsleeping

theorem Ledger.Woken.timer {st : StateId} {errno : ErrorNumber} {es : List StmEvent}
    {k k' : Ledger} (hk : k.Woken errno st) (hreacts : Reacts .timer { k with events := es } k') :
    k'.Woken errno st := by
  obtain ⟨-, rfl⟩ | ⟨st₁, st', errno', recovery, queue, hst, hmoves, henter⟩ := hreacts.moves
  · cases st <;> exact hk
  · have hst : k.state = some st₁ := hst
    cases st with
    | connectedSleep =>
      cases hst.symm.trans hk
      cases hmoves
    | disconnectedSleep =>
      cases hst.symm.trans hk.1
      cases hmoves
    | connectedAwake =>
      obtain ⟨hawake | hasleep, herrno⟩ := hk
      · cases hst.symm.trans hawake
        cases hmoves
        cases henter
        exact ⟨.inr rfl, herrno⟩
      · cases hst.symm.trans hasleep
        cases hmoves
    | _ => exact hk.elim

theorem Waking.step {st : StateId} {errno : ErrorNumber} {timer : List StmEvent}
    (htimer : timer = [] ∨ timer = [.timer]) (hsleeping : st.sleeping = true) {e : StmEvent}
    {es : List StmEvent} {k k' : Ledger} (hk : Waking st errno timer (e :: es) k)
    (hreacts : Reacts e { k with events := es } k') : Waking st errno timer es k' := by
  generalize hlist : e :: es = l at hk
  cases hk with
  | ready ready hes hstate herrno =>
    cases ready with
    | nil =>
      obtain ⟨rfl, rfl⟩ := List.cons.inj hlist
      subst herrno
      exact .sent (.of_wakeup hstate hsleeping hreacts)
    | cons e' ready =>
      obtain ⟨rfl, rfl⟩ := List.cons.inj hlist
      obtain rfl := hreacts.of_none (by
        simp [Ledger.transitionFor, hstate,
          StateId.transitionFor_sleeping hsleeping (hes e List.mem_cons_self)])
      exact .ready ready (fun e'' he'' => hes e'' (List.mem_cons_of_mem _ he'')) hstate herrno
  | sent hk =>
    obtain rfl | rfl := htimer
    · cases hlist
    · obtain ⟨rfl, rfl⟩ := List.cons.inj hlist
      exact .done (hk.timer hreacts)
  | done hk => cases hlist

theorem Dispatches.woken {st : StateId} {k k' : Ledger} (h : Dispatches [.wakeupEvent] k k')
    (hk : k.Ordered) (hstate : k.state = some st) (hsleeping : st.sleeping = true) :
    k'.Woken k.errno st := by
  obtain ⟨timer, timeout, k', htimer, htimeout, h⟩ := h
  have hwaking : Waking st k.errno timer (k.events ++ [.wakeupEvent] ++ timer)
      { k with timeout := timeout } := by
    rw [List.append_assoc]
    exact .ready k.events hk.events hstate rfl
  obtain ⟨k₁, hk₁, rfl⟩ := h.keeps (Waking.step (htimer.imp_right And.left) hsleeping) hwaking
  have hwoken : k₁.Woken k.errno st := by
    generalize hnil : ([] : List StmEvent) = l at hk₁
    cases hk₁ with
    | ready es hes hstate herrno => exact absurd hnil (by simp)
    | sent hk => exact hk
    | done hk => exact hk
  cases st <;> exact hwoken

/-! ## The law -/

/-- **A connect reports failure truthfully** unless it wakes an initialized
library that sleeps without a connection, or that is awake for a ping with no
error number set. -/
theorem reportsConnect_after_iff (setting : Setting) (calls : List ApiCall)
    (cleanSession : Nat) :
    ReportsConnect cleanSession (setting.after calls) ↔
      ¬((setting.after calls).rest.pool.initialized = true ∧
        ((setting.after calls).rest.stm.currentState = some .disconnectedSleep ∨
          (setting.after calls).rest.stm.currentState = some .connectedAwake ∧
            (setting.after calls).rest.pool.errno = .success)) := by
  have hordered := ordered_after setting calls
  have hconnects := connect_connects cleanSession (setting.after calls)
  unfold ReportsConnect
  generalize connect cleanSession (setting.after calls) = r at hconnects ⊢
  generalize setting.after calls = s at hordered hconnects ⊢
  change (r.1 = .success → ∃ st, (ledger r.2).state = some st ∧ st.Established) ↔
    ¬((ledger s).initialized = true ∧ ((ledger s).state = some .disconnectedSleep ∨
      (ledger s).state = some .connectedAwake ∧ (ledger s).errno = .success))
  generalize ledger s = k at hordered hconnects ⊢
  generalize r.1 = errno at hconnects ⊢
  generalize ledger r.2 = k' at hconnects ⊢
  cases hconnects with
  | uninitialized hinit => simp [hinit]
  | connected hinit h =>
    simp [h, StateId.Established]
  | connects k' hinit h h' hdispatch =>
    have hanswered := hdispatch.answered hordered hinit h'
    refine iff_of_true hanswered ?_
    rintro ⟨-, hstate | ⟨hstate, -⟩⟩
    · rw [hstate] at h'
      cases h'
    · rw [hstate] at h'
      cases h'
  | wakes k' hinit h hdispatch =>
    obtain ⟨st, hst, hsleeping⟩ := (Option.any_eq_true _ _).1 h
    have hwoken := hdispatch.woken hordered hst hsleeping
    cases st with
    | connectedSleep =>
      have hconnected : k'.state = some .connected := hwoken
      simp [hst, hconnected, StateId.Established]
    | disconnectedSleep =>
      obtain ⟨hstate, herrno⟩ := hwoken
      simp [hst, hstate, herrno, hinit, StateId.Established]
    | connectedAwake =>
      obtain ⟨hstate | hstate, herrno⟩ := hwoken
      · simp [hst, hstate, herrno, hinit, StateId.Established]
      · simp [hst, hstate, herrno, hinit, StateId.Established]
    | _ => cases hsleeping

/-- A library that fell asleep without a connection answers with success. -/
theorem not_reportsConnect_after_sleep :
    ¬ReportsConnect 0 ((Setting.script [] 0).after [.sleep 10]) := by
  intro h
  have hsuccess : (connect 0 ((Setting.script [] 0).after [.sleep 10])).1 = .success := by
    decide +kernel
  have hstate : (connect 0 ((Setting.script [] 0).after [.sleep 10])).2.rest.stm.currentState =
      some .disconnected := by
    decide +kernel
  obtain ⟨st, hst, hestablished⟩ := h hsuccess
  cases hstate.symm.trans hst
  simp [StateId.Established] at hestablished

end LibNbiot
