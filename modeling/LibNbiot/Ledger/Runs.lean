/-
# What a run of the library books

The two calls that select a topic, and the runs of the library from its start.
Whatever holds of the ledger after the start and is kept by every change holds
of every state that the library reaches.
-/

import LibNbiot.Ledger.Calls
import Mathlib.Data.List.GetD
import Mathlib.Data.List.Induction
import Mathlib.Data.List.TakeWhile

namespace LibNbiot

open Logic.Program Relation Ledger

variable {C : Option MessageHandler → List ApiCall → Bytes → Prop}

/-! ## What the state machine leaves alone -/

/-- The topics and the calls are as they were, and the controller is at its
client. -/
structure Ledger.Untouched (k k' : Ledger) : Prop where
  currentTopic : k'.currentTopic = k.currentTopic
  calls : k'.calls = k.calls
  loopId : k'.loopId = k.loopId
  authLogin : k'.authLogin = k.authLogin
  authPasswd : k'.authPasswd = k.authPasswd
  authentication : k'.authentication = k.authentication
  maxTopics : k'.maxTopics = k.maxTopics
  heard : k'.heard = k.heard
  asked : k'.asked = k.asked
  installed : k'.installed = k.installed

theorem Ledger.Untouched.refl (k : Ledger) : k.Untouched k := ⟨rfl, rfl, rfl, rfl, rfl, rfl, rfl, rfl, rfl, rfl⟩

theorem Ledger.Untouched.trans {k k' k'' : Ledger} (h : k.Untouched k') (h' : k'.Untouched k'') :
    k.Untouched k'' :=
  ⟨h'.currentTopic.trans h.currentTopic, h'.calls.trans h.calls, h'.loopId.trans h.loopId,
    h'.authLogin.trans h.authLogin, h'.authPasswd.trans h.authPasswd,
    h'.authentication.trans h.authentication, h'.maxTopics.trans h.maxTopics,
    h'.heard.trans h.heard, h'.asked.trans h.asked, h'.installed.trans h.installed⟩

theorem Ledger.Queues.untouched {k k' : Ledger} (h : k.Queues k') : k.Untouched k' := by
  obtain ⟨cs, -, rfl⟩ := h
  exact ⟨rfl, rfl, rfl, rfl, rfl, rfl, rfl, rfl, rfl, rfl⟩

theorem Transition.Performs.untouched {t : Transition} {k k' : Ledger} (h : t.Performs k k') :
    k.Untouched k' := by
  obtain ⟨cs, -, rfl⟩ := h
  exact ⟨rfl, rfl, rfl, rfl, rfl, rfl, rfl, rfl, rfl, rfl⟩

theorem StateId.Enters.untouched {e : StmEvent} {st : StateId} {k k' : Ledger}
    (h : st.Enters e k k') : k.Untouched k' := by
  cases h with
  | disconnected k' h => exact h.untouched.trans ⟨rfl, rfl, rfl, rfl, rfl, rfl, rfl, rfl, rfl, rfl⟩
  | deepSleep k' h => exact h.untouched.trans ⟨rfl, rfl, rfl, rfl, rfl, rfl, rfl, rfl, rfl, rfl⟩
  | _ => exact ⟨rfl, rfl, rfl, rfl, rfl, rfl, rfl, rfl, rfl, rfl⟩

theorem Triggers.untouched {e : StmEvent} {t : Transition} {target : Target} {k k' : Ledger}
    (h : Triggers e t target k k') : k.Untouched k' := by
  induction h with
  | state h henter => exact h.untouched.trans henter.untouched
  | first h hgo hc ih => exact h.untouched.trans ih
  | second h hgo hc ih => exact h.untouched.trans ih

theorem Reacts.untouched {e : StmEvent} {k k' : Ledger} (h : Reacts e k k') : k.Untouched k' := by
  cases h with
  | ignored h => exact .refl k
  | taken t k' h htrigger => exact htrigger.untouched

theorem Drains.untouched {es : List StmEvent} {k k' : Ledger} (h : Drains es k k') :
    k.Untouched k' := by
  induction h with
  | done k => exact ⟨rfl, rfl, rfl, rfl, rfl, rfl, rfl, rfl, rfl, rfl⟩
  | @handle e es k k₁ k' h hrest ih =>
    have hready : k.Untouched { k with events := es } := ⟨rfl, rfl, rfl, rfl, rfl, rfl, rfl, rfl, rfl, rfl⟩
    exact hready.trans (h.untouched.trans ih)

theorem Dispatches.untouched {pushed : List StmEvent} {k k' : Ledger} (h : Dispatches pushed k k') :
    k.Untouched k' := by
  obtain ⟨timer, timeout, k', htimer, htimeout, h⟩ := h
  have htimed : k.Untouched { k with timeout := timeout } := ⟨rfl, rfl, rfl, rfl, rfl, rfl, rfl, rfl, rfl, rfl⟩
  exact htimed.trans (h.untouched.trans ⟨rfl, rfl, rfl, rfl, rfl, rfl, rfl, rfl, rfl, rfl⟩)

/-! ## Selecting a topic -/

/-- Before a new topic is registered for a publish, the handler that the current
topic still holds meets the condition. -/
structure Ledger.Publishes (C : Option MessageHandler → List ApiCall → Bytes → Prop)
    (topic data : Bytes) (qos : QoS) (k : Ledger) : Prop where
  mem : .publish topic data qos ∈ k.calls
  cond : k.registry.findTopic topic = none → k.registry.topicCount < k.maxTopics →
    C k.currentTopic.mh k.calls topic

/-- A controller that is not busy has nothing to do. -/
theorem free_of_idle {s : Sys} (h : ¬s.loop.isBusy = true) : (ledger s).Free := by
  simp only [NbiotLoop.isBusy, Bool.or_eq_true, decide_eq_true_eq, bne_iff_ne, not_or,
    not_lt, Nat.le_zero, List.length_eq_zero_iff, ne_eq, not_not] at h
  exact h

theorem cString_cString (b : Bytes) : cString (cString b) = cString b := List.takeWhile_idem

theorem hasName_ofName (name : Bytes) : (NbiotTopic.ofName name).hasName name = true := by
  simp [NbiotTopic.hasName, NbiotTopic.ofName, cString_cString]

/-- A topic that is found has the name. -/
theorem hasName_of_findTopic {r : NbiotTopicRegistry} {name : Bytes} {index : Nat}
    (h : r.findTopic name = some index) : (r.topicAt index).hasName name = true := by
  unfold NbiotTopicRegistry.findTopic at h
  split at h
  · cases h
  · obtain ⟨hlt, hname, -⟩ := List.findIdx?_eq_some_iff_getElem.1 h
    rw [NbiotTopicRegistry.topicAt, List.getD_eq_getElem _ _ hlt]
    exact hname

theorem Selects.hasName {k : Ledger} {name : Bytes} {topic : NbiotTopic} (h : Selects k name topic) :
    topic.hasName name = true := by
  cases h with
  | fresh => exact hasName_ofName name
  | known index h => exact hasName_of_findTopic h

/-- Turning to a topic while the controller has nothing to do. -/
theorem select_books {name : Bytes} {k₀ : Ledger} {f : NbiotTopic → NbiotTopic} {topic : NbiotTopic}
    (hf : ∀ t, f t = t.assign topic) (hsel : Selects k₀ name topic) (hfree : k₀.Free) :
    Refines ledger (books C) (fun k => k = k₀)
      (modifyPool fun pool => { pool with currentTopic := f pool.currentTopic })
      fun _ k => k = { k₀ with currentTopic := k₀.currentTopic.assign topic } := by
  refine .single fun s hs => ?_
  have hselect : Change C k₀ { k₀ with currentTopic := k₀.currentTopic.assign topic } :=
    .select name topic hfree hsel
  have hledger : ledger (modifyPool (fun pool =>
      { pool with currentTopic := f pool.currentTopic }) s).2 =
      { ledger s with currentTopic := (ledger s).currentTopic.assign topic } := by
    rw [← hf]
    rfl
  rw [hledger, hs]
  exact ⟨hselect, rfl⟩

/-! ## Publishing -/

theorem findIdx?_modify {α : Type} {p : α → Bool} {f : α → α} (h : ∀ a, p (f a) = p a)
    (l : List α) (i : Nat) : (l.modify i f).findIdx? p = l.findIdx? p := by
  induction l generalizing i with
  | nil => cases i <;> rfl
  | cons a l ih =>
    cases i with
    | zero => simp [List.findIdx?_cons, h]
    | succ i => simp [List.findIdx?_cons, ih]

theorem findTopic_setTopicFlag (r : NbiotTopicRegistry) (index : Nat) (flag : RegistrationFlag)
    (name : Bytes) : (r.setTopicFlag index flag).findTopic name = r.findTopic name := by
  have hname : ∀ t : NbiotTopic, (t.setReg flag).hasName name = t.hasName name := by
    intro t
    cases flag <;> rfl
  simp only [NbiotTopicRegistry.findTopic, NbiotTopicRegistry.setTopicFlag]
  rw [findIdx?_modify (α := NbiotTopic) (p := (·.hasName name)) hname]

/-- The current topic is the new one of a publish, which may be registered. -/
structure Ledger.Registers (C : Option MessageHandler → List ApiCall → Bytes → Prop)
    (topic data : Bytes) (qos : QoS) (k : Ledger) : Prop where
  free : k.Free
  mem : .publish topic data qos ∈ k.calls
  isNew : ∃ mh, k.currentTopic = { NbiotTopic.ofName topic with mh := mh }
  cond : C k.currentTopic.mh k.calls topic

theorem registerTopic_books {topic data : Bytes} {qos : QoS} (topicName : TopicId) :
    Refines ledger (books C) (Ledger.Registers C topic data qos)
      (Client.registerTopic topicName) fun _ _ => True := by
  refine .silent_bind getNext_silent fun msgid => .silent_bind (serialize_silent _) fun len => ?_
  refine .ite (fun _ => .silent_bind (fun _ => rfl) fun _ => ?_) fun _ => .pure fun _ _ => trivial
  refine .bind (R := fun _ _ => True) (.single fun s hs => ⟨?_, trivial⟩) fun _ =>
    .pure fun _ _ => trivial
  have hregister := Change.register (C := C) topic data qos hs.free hs.isNew hs.mem hs.cond
  have hqueue : ledger (loopRegister len s).2 =
      { ledger s with queue := (ledger s).queue ++ [.reg] } := rfl
  rw [hqueue, hs.free.1]
  exact hregister

/-- A new topic takes the handler that the current topic holds. -/
theorem assign_ofName (self : NbiotTopic) (name : Bytes) :
    self.assign (.ofName name) = { NbiotTopic.ofName name with mh := self.mh } := by
  cases hmh : self.mh <;> simp [NbiotTopic.assign, NbiotTopic.ofName, hmh]

theorem publishTopicFor_books (topic data : Bytes) (qos : QoS) :
    Refines ledger (books C) (fun k => k.Free ∧ k.Publishes C topic data qos)
      (publishTopicFor topic) fun _ _ => True := by
  refine .silent_bind (fun _ => rfl) fun _ => .reads getRegistry_eq fun s hs => ?_
  split
  · rename_i hunknown
    refine .reads getRegistry_eq fun s₁ hs₁ => .reads getPool_eq fun s₂ hs₂ => ?_
    have hledger : ledger s₂ = ledger s := hs₂.trans hs₁
    refine .ite (fun hroom => ?_) fun _ => ?_
    · have hcond := hs.2.cond hunknown (by
        rw [← hledger]
        exact (congrArg (fun k => k.registry.topicCount) hs₂).trans_lt hroom)
      rw [hledger]
      refine .bind (select_books (fun _ => rfl) .fresh hs.1) fun _ => ?_
      refine .silent_bind topicNameAt_silent fun ttn => .silent_bind (fun _ => rfl) fun _ => ?_
      refine .silent_bind getPool_silent fun _ => 
        Refines.pre (S := Ledger.Registers C topic data qos) (registerTopic_books _) ?_
      rintro k rfl
      refine ⟨hs.1, hs.2.mem, ⟨_, assign_ofName _ _⟩, ?_⟩
      rw [assign_ofName]
      exact hcond
    · exact (Booked.bind (.change fun _ => .fail .maxTopicsExceeded nofun) fun _ => .pure _).pre
        fun _ _ => trivial
  · rename_i index hfound
    refine .silent_bind getRegistry_silent fun registry => ?_
    refine .bind (R := fun _ k => k.Free ∧ k.registry.findTopic topic = some index)
      (.onlyIf (fun _ => ?_) ?_) fun _ => ?_
    · refine .single fun s' hs' => ⟨.flag index, ?_, ?_⟩
      · have hfree : (ledger s').Free := by
          rw [hs']
          exact hs.1
        exact hfree
      · have hregistry : s'.rest.registry = s.rest.registry := congrArg Ledger.registry hs'
        exact (findTopic_setTopicFlag _ _ _ _).trans (hregistry ▸ hfound)
    · rintro - k rfl
      exact ⟨hs.1, hfound⟩
    · refine .reads getRegistry_eq fun s' hs' => ?_
      refine .bind (select_books (fun _ => rfl) (.known index hs'.2) hs'.1) fun _ => ?_
      exact .silent_bind (fun _ => rfl) fun _ => .pure fun _ _ => trivial

theorem clientPublish_booked (topicName : TopicId) (payload : Bytes) (retained : Bool) (qos : QoS) :
    Booked C (Client.publish topicName payload retained qos) := by
  have hnext : Silent ledger (Client.nextPublishId qos) := .ite getNext_silent (.pure _)
  refine .silent_bind getSn_silent fun _ => .silent_bind (startTimer_silent _) fun _ => ?_
  refine .silent_bind getSn_silent fun _ => .ite ?_ (.pure _)
  refine .silent_bind hnext fun _ => .silent_bind (fun _ => rfl) fun _ => ?_
  refine .silent_bind (modifySn_silent _) fun _ => .silent_bind (remaining_silent _) fun _ => ?_
  exact .bind (.change fun _ => .publish) fun _ => .pure _

/-- Wake a sleeping library up. -/
def wake : M Unit := do
  onlyIf (← isSleeping) (sendEvent .wakeupEvent)

/-- The part of `publish` in a library that is awake. -/
def publishAwake (topic data : Bytes) (qos : QoS) : M ErrorNumber := do
  if ← isConnected then
    if (← get).loop.isBusy then
      return .loopCtrlBusyError
    else
      publishNow topic data qos
      return (← getPool).errno
  else
    return .connectionError

theorem publish_eq (topic data : Bytes) (qos : QoS) :
    publish topic data qos = (do
      if (← getPool).initialized then
        wake
        publishAwake topic data qos
      else
        return .initializeError) := rfl

theorem wake_cases (s : Sys) : ledger (wake s).2 = ledger s ∨
    Dispatches [.wakeupEvent] (ledger s) (ledger (wake s).2) := by
  rw [wake, run_bind, run_onlyIf]
  have hsame := isSleeping_silent s
  generalize isSleeping s = r at hsame ⊢
  split
  · refine .inr ?_
    rw [← hsame]
    exact sendEvent_dispatches .wakeupEvent r.2
  · exact .inl hsame

theorem wake_untouched (s : Sys) : (ledger s).Untouched (ledger (wake s).2) := by
  obtain h | h := wake_cases s
  · rw [h]
    exact .refl _
  · exact h.untouched

theorem wake_booked : Booked C wake :=
  .silent_bind isSleeping_silent fun _ => .onlyIf (sendEvent_booked rfl)

/-- A publish of a new topic may be accepted: the library is connected and free,
and there is room for the topic. Then the condition holds. -/
def Ledger.Admits (C : Option MessageHandler → List ApiCall → Bytes → Prop) (topic : Bytes)
    (k : Ledger) : Prop :=
  k.state = some .connected → k.Free → k.registry.findTopic topic = none →
    k.registry.topicCount < k.maxTopics → C k.currentTopic.mh k.calls topic

theorem publishAwake_books (topic data : Bytes) (qos : QoS) :
    Refines ledger (books C) (fun k => .publish topic data qos ∈ k.calls ∧ k.Admits C topic)
      (publishAwake topic data qos) fun _ _ => True := by
  refine .bind (stateIs_books .connected) fun connected => .ite (fun hconnected => ?_) fun _ =>
    .pure fun _ _ => trivial
  refine .reads (g := id) (fun _ => rfl) fun s hs => .ite (fun _ => .pure fun _ _ => trivial)
    fun hbusy => ?_
  have hdisconnect : Booked C (sendEvent .disconnectEvent) := sendEvent_booked rfl
  have hfail : Booked C (do setErrno .connectionError; sendEvent .disconnectEvent : M Unit) :=
    .bind (.change fun _ => .fail .connectionError nofun) fun _ => hdisconnect
  have hstate := hs.2 hconnected
  have hfree : (ledger s).Free := free_of_idle hbusy
  have hnow : Refines ledger (books C) (fun k => k = ledger s) (publishNow topic data qos)
      fun _ _ => True := by
    refine .bind (R := fun _ k => k.Free ∧ k.Publishes C topic data qos)
      (.single fun s' hs' => ?_) fun _ => .bind (publishTopicFor_books topic data qos) fun rc =>
        .ite (fun _ => ?_) fun _ => ?_
    · rw [← hs'] at hstate hfree
      have hadmits := hs.1
      rw [← hs'] at hadmits
      exact ⟨.succeed hstate, hfree, hadmits.1, hadmits.2 hstate hfree⟩
    · refine .silent_bind getPool_silent fun _ => .bind (clientPublish_booked _ _ _ _) fun rc => ?_
      exact Booked.ite hfail (poll_booked 0)
    · refine Booked.silent_bind getPool_silent fun _ => ?_
      exact .bind (.onlyIf (.change fun _ => .fail .connectionError nofun)) fun _ => hdisconnect
  exact .bind hnow fun _ => .silent_bind getPool_silent fun _ => .pure fun _ _ => trivial

/-- A publish that finds its topic as the condition wants it. -/
theorem publish_books {topic data : Bytes} {qos : QoS} {s : Sys}
    (hmem : .publish topic data qos ∈ (ledger s).calls)
    (hadmits : s.rest.pool.initialized = true → (ledger (wake s).2).Admits C topic) :
    (books C).Run (ledger s) (ledger (publish topic data qos s).2) := by
  rw [publish_eq, run_bind, getPool_eq]
  by_cases hinit : s.rest.pool.initialized = true
  · simp only [hinit, if_true, run_bind]
    obtain ⟨hrun, -⟩ := wake_booked (C := C) s trivial trivial
    rw [← (wake_untouched s).calls] at hmem
    exact hrun.trans (publishAwake_books topic data qos _ trivial ⟨hmem, hadmits hinit⟩).1
  · simp only [hinit, Bool.false_eq_true, if_false]
    exact .refl

/-! ## Subscribing -/

/-- The current topic is the one of a subscribe. -/
structure Ledger.Subscribes (topic : Bytes) (mh : Option MessageHandler) (k : Ledger) : Prop where
  free : k.Free
  name : k.currentTopic.hasName topic = true
  call : subscribeCall k.calls = some (topic, mh)

theorem subscribeCurrent_books (topic : Bytes) (mh : Option MessageHandler) :
    Refines ledger (books C) (Ledger.Subscribes topic mh) (subscribeCurrent mh)
      fun _ _ => True := by
  refine .silent_bind topicNameAt_silent fun ttn => .silent_bind (fun _ => rfl) fun _ => ?_
  refine .silent_bind getPool_silent fun pool => ?_
  intro s _ hs
  have hchange := Change.subscribe (C := C) topic mh hs.free hs.name hs.call
  refine ⟨?_, trivial⟩
  cases hconn : s.rest.sn.isconnected with
  | false =>
    simp only [Client.subscribe, run_bind, getSn_eq, hconn, Bool.false_eq_true, if_false, run_pure]
    exact .refl
  | true =>
    simp only [Client.subscribe, run_bind, getSn_eq, hconn, if_true, run_pure]
    have hqueue : ∀ s' id time, ledger s' = ledger s →
        ledger (modifyPool (fun pool => { pool with currentTopic := { pool.currentTopic with mh := mh } })
          (loopSubscribe id time s').2).2 =
        { ledger s with
          currentTopic := { (ledger s).currentTopic with mh := mh }
          queue := (ledger s).queue ++ [.sub]
          asked := subscribeCall (ledger s).calls } := by
      intro s' id time hs'
      rw [← hs']
      rfl
    simp only [ne_eq, not_true_eq_false, if_false, run_bind, run_pure]
    dsimp only at hqueue
    rw [hqueue, hs.free.1, hs.call]
    · exact .single hchange
    · rfl

theorem subscribeTopic_books {topic : Bytes} (mh : Option MessageHandler) {k₀ : Ledger}
    {selected : NbiotTopic} (hsel : Selects k₀ topic selected) (hfree : k₀.Free)
    (hmem : subscribeCall k₀.calls = some (topic, mh)) :
    Refines ledger (books C) (fun k => k = k₀) (do
      modifyPool fun pool => { pool with currentTopic := pool.currentTopic.assign selected }
      subscribeCurrent mh) fun _ _ => True := by
  refine .bind (select_books (fun _ => rfl) hsel hfree) fun _ =>
    (subscribeCurrent_books topic mh).pre ?_
  rintro k rfl
  exact ⟨hfree, hsel.hasName, hmem⟩

theorem subscribe_books (topic : Bytes) (mh : Option MessageHandler) :
    Refines ledger (books C) (fun k => subscribeCall k.calls = some (topic, mh))
      (subscribe topic mh) fun _ _ => True := by
  refine .bind (stateIs_books .connected) fun connected => .ite (fun _ => ?_) fun _ =>
    .pure fun _ _ => trivial
  refine .reads (g := id) (fun _ => rfl) fun s hs => .ite (fun _ => .pure fun _ _ => trivial)
    fun hbusy => ?_
  have hsel : (ledger s).Free ∧ subscribeCall (ledger s).calls = some (topic, mh) := ⟨free_of_idle hbusy, hs.1⟩
  refine .reads getRegistry_eq fun s' hs' => ?_
  rw [← show ledger s' = ledger s from hs'] at hsel
  split
  · refine .silent_bind getRegistry_silent fun _ => .silent_bind getPool_silent fun _ => ?_
    exact .ite (fun _ => subscribeTopic_books mh .fresh hsel.1 hsel.2) fun _ =>
      .pure fun _ _ => trivial
  · rename_i index hfound
    refine .reads getRegistry_eq fun s'' hs'' => ?_
    have hfound' : (ledger s'').registry.findTopic topic = some index := by
      rw [hs'']
      exact hfound
    rw [← hs''] at hsel
    refine .ite (fun _ => subscribeTopic_books mh (.known index hfound') hsel.1 hsel.2) fun _ => ?_
    refine .bind (R := fun _ _ => True) (.single fun s₁ hs₁ => ⟨?_, trivial⟩) fun _ =>
      .pure fun _ _ => trivial
    rw [← hs₁] at hsel hfound'
    exact .attach topic mh index hfound' hsel.2

/-! ## All calls -/

/-- The call on record: what is done before the call itself. -/
def onRecord (call : ApiCall) (s : Sys) : Sys := (logApp (.api call) s).2

/-- A publish is made in a state in which it may have its topic registered. -/
def ApiCall.Admits (C : Option MessageHandler → List ApiCall → Bytes → Prop) (call : ApiCall)
    (s : Sys) : Prop :=
  ∀ topic data qos, call = .publish topic data qos → s.rest.pool.initialized = true →
    (ledger (wake (onRecord call s)).2).Admits C topic

theorem exec_books {call : ApiCall} {s : Sys} (h : call.Admits C s) :
    (books C).Run (ledger s) (ledger (call.exec s).2) := by
  have hrecord : (books C).Run (ledger s) (ledger (onRecord call s)) := .single (.api call)
  refine hrecord.trans ?_
  have hmem : call ∈ (ledger (onRecord call s)).calls := List.mem_cons_self
  have booked {m : M Unit} (h : Booked C m) :
      (books C).Run (ledger (onRecord call s)) (ledger (m (onRecord call s)).2) :=
    (h _ trivial trivial).1
  have unit {α : Type} {m : M α} (h : Booked C m) : Booked C (do let _ ← m : M Unit) :=
    .bind h fun _ => .pure _
  cases call with
  | connect cleanSession => exact booked (unit (connect_booked cleanSession))
  | publish topic data qos => exact publish_books hmem (h topic data qos rfl)
  | subscribe topic mh => exact (subscribe_books topic mh _ trivial rfl).1
  | unsubscribe topic => exact booked (unit (unsubscribe_booked topic))
  | disconnect => exact booked disconnect_booked
  | sleep duration => exact booked (sleep_booked duration)
  | hibernate duration => exact booked (hibernate_booked duration)
  | wakeup => exact booked wakeup_booked
  | poll pollInterval => exact booked (poll_booked pollInterval)
  | eventLoop mode => exact booked (unit (eventLoop_booked mode))

/-! ## The start -/

/-- The ledger of a fresh library with what its configuration sets. -/
def Ledger.fresh (authLogin authPasswd : Bytes) (maxTopics : Nat) : Ledger where
  state := none
  events := []
  pendingEvents := []
  timeout := false
  errno := .notStartedError
  initialized := false
  authLogin := authLogin
  authPasswd := authPasswd
  authentication := []
  currentTopic := {}
  registry := {}
  maxTopics := maxTopics
  queue := []
  loopId := .unknown
  calls := []
  heard := []
  asked := none
  installed := []
  recovery := { restarts := 0, timeouts := 0, known := false, entries := [] }

/-- The ledger, what the configuration sets aside. -/
def ledgerBelow (s : Sys) : Ledger :=
  { ledger s with authLogin := [], authPasswd := [], maxTopics := 0 }

theorem configure_below {valid : Prop} [Decidable valid] (error : Nat) {set : M Unit}
    (h : Silent ledgerBelow set) : Silent ledgerBelow (configure valid error set) :=
  .ite (.bind h fun _ => .pure _) (.pure _)

theorem nbiotConfig_below (conf : NbiotConf) : Silent ledgerBelow (nbiotConfig conf) := by
  refine .bind (fun _ => rfl) fun mqtt => .ite ?_ (.pure _)
  refine .bind (.onlyIf fun _ => rfl) fun _ => .bind (configure_below _ fun _ => rfl) fun _ => ?_
  refine .bind (configure_below _ fun _ => rfl) fun _ => ?_
  refine .bind (configure_below _ fun _ => rfl) fun _ => ?_
  refine .bind (configure_below _ fun _ => rfl) fun _ => ?_
  refine .bind (configure_below _ fun _ => rfl) fun _ => ?_
  refine .bind (configure_below _ fun _ => rfl) fun _ => ?_
  refine .bind (configure_below _ fun _ => rfl) fun _ => ?_
  exact .bind (fun _ => rfl) fun _ => .bind (fun _ => rfl) fun _ => .pure _

theorem config_ledger (setting : Setting) : ∃ authLogin authPasswd maxTopics,
    ledger (nbiotConfig setting.conf setting.construct).2 =
      .fresh authLogin authPasswd maxTopics := by
  have h := nbiotConfig_below setting.conf setting.construct
  generalize nbiotConfig setting.conf setting.construct = r at h ⊢
  refine ⟨(ledger r.2).authLogin, (ledger r.2).authPasswd, (ledger r.2).maxTopics, ?_⟩
  have hledger : ledger r.2 = { ledgerBelow r.2 with
      authLogin := (ledger r.2).authLogin
      authPasswd := (ledger r.2).authPasswd
      maxTopics := (ledger r.2).maxTopics } := rfl
  rw [hledger, h]
  rfl

/-- The first initialization: it builds the credentials when it succeeds. -/
inductive Initializes (k : Ledger) : Ledger → Prop
  | failed (timeout : Bool) : Initializes k { k with initialized := false, timeout := timeout }
  | succeeded (authLogin : Bytes) (timeout : Bool) (h : authLogin ≠ []) :
      Initializes k
        { k with
          initialized := true
          authLogin := authLogin
          authentication := authLogin ++ k.authPasswd
          timeout := timeout }

/-- What starting the library books. -/
inductive Boots (k : Ledger) : Ledger → Prop
  | stays : Boots k k
  | starts (k₁ k' : Ledger) (h : Initializes { k with state := some .initial, timeout := false } k₁)
      (hdispatch : Dispatches [.initializeEvent] k₁ k') : Boots k k'

/-- Credentials are built from a login, or nothing is booked. -/
def Credits (k : Ledger) (built : Bool) (k' : Ledger) : Prop :=
  built = false ∧ k' = k ∨ built = true ∧ ∃ authLogin, authLogin ≠ [] ∧
    k' = { k with authLogin := authLogin, authentication := authLogin ++ k.authPasswd }

/-- The client id, once the login has been asked for. -/
def buildAuthentication : M Bool := do
  if (← getPool).authLogin.isEmpty then
    return false
  else
    modifyPool fun pool => { pool with authentication := pool.authLogin ++ pool.authPasswd }
    return true

theorem initCredentials_eq : initCredentials = (do
    if (← getPool).authLogin.isEmpty then
      let r ← ask .getImsi
      if r.ok then
        modifyPool fun pool => { pool with authLogin := r.data }
        buildAuthentication
      else buildAuthentication
    else buildAuthentication) := rfl

theorem buildAuthentication_credits {k : Ledger} {s : Sys}
    (hlogin : ledger s = { k with authLogin := s.rest.pool.authLogin })
    (hempty : s.rest.pool.authLogin = [] → ledger s = k) :
    Credits k (buildAuthentication s).1 (ledger (buildAuthentication s).2) := by
  rw [buildAuthentication, run_bind, getPool_eq]
  by_cases h : s.rest.pool.authLogin.isEmpty = true
  · have hnone : s.rest.pool.authLogin = [] := List.isEmpty_iff.1 h
    simp only [h, if_true, run_pure]
    exact .inl ⟨rfl, hempty hnone⟩
  · simp only [h, Bool.false_eq_true, if_false, run_bind, run_pure]
    refine .inr ⟨rfl, s.rest.pool.authLogin, fun h' => h (List.isEmpty_iff.2 h'), ?_⟩
    have hbuilt : ledger (modifyPool (fun pool =>
        { pool with authentication := pool.authLogin ++ pool.authPasswd }) s).2 =
        { ledger s with authentication := (ledger s).authLogin ++ (ledger s).authPasswd } := rfl
    refine hbuilt.trans ?_
    rw [hlogin]

theorem initCredentials_credits (s : Sys) :
    Credits (ledger s) (initCredentials s).1 (ledger (initCredentials s).2) := by
  rw [initCredentials_eq, run_bind, getPool_eq]
  by_cases h : s.rest.pool.authLogin.isEmpty = true
  · have hnone : s.rest.pool.authLogin = [] := List.isEmpty_iff.1 h
    simp only [h, if_true, run_bind]
    by_cases hok : (ask .getImsi s).1.ok = true
    · simp only [hok, if_true, run_bind]
      refine buildAuthentication_credits rfl fun hdata => ?_
      have hdata' : (ask .getImsi s).1.data = [] := hdata
      simp only [modifyPool, run_modify, ledger, hdata']
      rw [← hnone]
      rfl
    · simp only [hok, Bool.false_eq_true, if_false]
      exact buildAuthentication_credits rfl fun _ => rfl
  · simp only [h, Bool.false_eq_true, if_false]
    exact buildAuthentication_credits rfl fun _ => rfl

/-- The end of the first entry into the initial state. -/
def announce (ok : Bool) : M Unit := do
  onlyIf (false = true) (postEvent .initializeEvent)
  modifyPool fun pool => { pool with initialized := ok }
  notify
    { state := some .initial
      action := .initializeAction
      returnCode := rcAccepted
      errorNumber := if ok then .success else .initializeError }
  setTimeout timeoutOneMinute

theorem announce_books (ok : Bool) (s : Sys) : ∃ timeout,
    ledger (announce ok s).2 = { ledger s with initialized := ok, timeout := timeout } := by
  simp only [announce, run_bind]
  obtain ⟨timeout, h⟩ := setTimeout_books timeoutOneMinute (notify _ _).2
  exact ⟨timeout, h.trans (congrArg (fun k : Ledger => { k with timeout := timeout })
    (notify_silent _ _))⟩

/-- A reboot is kept on the books in the Error state only. -/
theorem rebootModem_silent (s : Sys) (h : (ledger s).state = some .initial) :
    ledger (rebootModem false s).2 = ledger s := by
  have hview : s.rest.stm.currentState = some .initial := h
  have hno : ¬(some StateId.initial = some .error) := nofun
  have hledger : ledger (rebootModem false s).2 =
      { ledger s with
        recovery :=
          { (ledger s).recovery with
            timeouts := if s.rest.stm.currentState = some .error then 0
              else attachTimeouts s.trace
            entries := if s.rest.stm.currentState = some .error then
              (errorEntries s.trace).modify 0 ({ · with rebooted := true })
              else errorEntries s.trace } } := rfl
  rw [hledger, hview, if_neg hno, if_neg hno]
  rfl

theorem actionInitialEntry_first (s : Sys) (h : (ledger s).state = some .initial) :
    Initializes (ledger s) (ledger (actionInitialEntry .invalid s).2) := by
  have hmodem : ledger ((do initializeModem (← rebootModem false) : M Bool) s).2 = ledger s :=
    (initializeModem_silent _ _).trans (rebootModem_silent s h)
  have heq : actionInitialEntry .invalid = (do
      let ok ← (do initializeModem (← rebootModem false) : M Bool)
      let ok ← (if ok && !false then initCredentials else pure ok)
      announce ok) := rfl
  rw [heq, run_bind, run_bind]
  generalize (do initializeModem (← rebootModem false) : M Bool) s = r at hmodem ⊢
  rw [← hmodem]
  cases hok : r.1 with
  | false =>
    obtain ⟨timeout, h⟩ := announce_books false r.2
    exact h ▸ .failed timeout
  | true =>
    obtain ⟨hbuilt, hledger⟩ | ⟨hbuilt, authLogin, hne, hledger⟩ := initCredentials_credits r.2
    · simp only [Bool.not_false, Bool.and_self, if_true, hbuilt]
      obtain ⟨timeout, h⟩ := announce_books false (initCredentials r.2).2
      rw [h, hledger]
      exact .failed timeout
    · simp only [Bool.not_false, Bool.and_self, if_true, hbuilt]
      obtain ⟨timeout, h⟩ := announce_books true (initCredentials r.2).2
      rw [h, hledger]
      exact .succeeded authLogin timeout hne

/-- The first entry into the initial state. -/
def firstEntry : M Unit := enterState .initial .invalid

theorem firstEntry_initializes (s : Sys) :
    Initializes { ledger s with state := some .initial, timeout := false }
      (ledger (firstEntry s).2) := by
  obtain ⟨s₁, hs₁, hentry⟩ := enterState_start .initial s
  have hfirst := actionInitialEntry_first s₁ (congrArg Ledger.state hs₁)
  rw [hs₁] at hfirst
  rw [firstEntry, hentry]
  exact hfirst

theorem startStateMachine_dispatches (s : Sys) :
    Dispatches [.initializeEvent] (ledger (firstEntry s).2) (ledger (startStateMachine s).2) := by
  have hunlock (s : Sys) :
      ledger (modifyPool (fun pool => { pool with eventLoopLock := false }) s).2 = ledger s := rfl
  rw [startStateMachine, run_bind, run_bind, hunlock]
  exact sendEvent_dispatches .initializeEvent (firstEntry s).2

theorem nbiotStart_cases (s : Sys) : ledger (nbiotStart s).2 = ledger s ∨
    Dispatches [.initializeEvent] (ledger (firstEntry s).2) (ledger (nbiotStart s).2) := by
  rw [nbiotStart, run_bind, run_bind]
  by_cases h : (getMqtt s).1.configError = 0 ∧ (getStm (getMqtt s).2).1.currentState.isNone
  · simp only [h, and_self, if_true, run_bind, run_pure]
    exact .inr (startStateMachine_dispatches s)
  · simp only [h, if_false]
    exact .inl rfl

theorem nbiotStart_boots (s : Sys) : Boots (ledger s) (ledger (nbiotStart s).2) := by
  obtain h | h := nbiotStart_cases s
  · rw [h]
    exact .stays
  · exact .starts _ _ (firstEntry_initializes s) h

/-! ## Runs -/

/-- The start of the library, booked. -/
theorem boot_boots (setting : Setting) : ∃ authLogin authPasswd maxTopics,
    Boots (.fresh authLogin authPasswd maxTopics) (ledger setting.boot) := by
  obtain ⟨authLogin, authPasswd, maxTopics, h⟩ := config_ledger setting
  refine ⟨authLogin, authPasswd, maxTopics, ?_⟩
  rw [← h]
  exact nbiotStart_boots _

/-- Every publish of a run is made in a state in which it may have its topic
registered. -/
def Setting.Admits (C : Option MessageHandler → List ApiCall → Bytes → Prop) (setting : Setting)
    (calls : List ApiCall) : Prop :=
  ∀ before call, before ++ [call] <+: calls → call.Admits C (setting.after before)

/-- A run of the library is a run of the ledger machine from its start. -/
theorem after_books (setting : Setting) (calls : List ApiCall) (h : setting.Admits C calls) :
    (books C).Run (ledger setting.boot) (ledger (setting.after calls)) := by
  induction calls using List.reverseRecOn with
  | nil => exact .refl
  | append_singleton calls call ih =>
    rw [setting.after_snoc]
    have hbefore := ih fun before c hc => h before c (hc.trans (List.prefix_append _ _))
    have hadmits := h calls call List.prefix_rfl
    exact hbefore.trans (exec_books hadmits)

/-- What holds after the start and is kept by every change holds in every run. -/
theorem after_keeps {J : Ledger → Prop} (hboot : ∀ l p n k, Boots (.fresh l p n) k → J k)
    (hchange : ∀ {k k'}, Change C k k' → J k → J k') (setting : Setting) (calls : List ApiCall)
    (h : setting.Admits C calls) : J (ledger (setting.after calls)) := by
  obtain ⟨l, p, n, hb⟩ := boot_boots setting
  exact ((after_books setting calls h).keeps trivial (fun _ => hchange) (hboot l p n _ hb)).2

/-- The run machine without a condition. -/
theorem after_keeps_all {J : Ledger → Prop} (hboot : ∀ l p n k, Boots (.fresh l p n) k → J k)
    (hchange : ∀ {k k'}, Change (fun _ _ _ => True) k k' → J k → J k') (setting : Setting)
    (calls : List ApiCall) : J (ledger (setting.after calls)) :=
  after_keeps hboot hchange setting calls fun _ _ _ _ _ _ _ _ _ _ _ _ => trivial

end LibNbiot
