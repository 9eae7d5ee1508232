/-
# What the library books

The changes of the ledger, as an abstract machine. An event that the state
machine handles is followed through the transition it takes, its choices and the
entry action at its end. A dispatch handles the events that are ready, one after
the other, and readies those that were posted. The rest are the changes of the
topic registry and of the topic that a publish or subscribe is about, and the
comings and goings of the loop clients.

The machine has a parameter: what is assumed of the handler of the current topic
and of the calls so far whenever a publish has a new topic registered.
-/

import LibNbiot.Ledger.Core

namespace LibNbiot

open Logic.Program Relation

/-- The clients that do not serve the current topic. -/
def ClientId.aside (c : ClientId) : Bool := c ≠ .reg ∧ c ≠ .sub ∧ c ≠ .pub

/-! ## Handling an event -/

/-- The error number after the action of a transition. -/
def Transition.errno : Transition → ErrorNumber → ErrorNumber
  | .mIsInitializedError, _ => .initializeError
  | .mConnect, _ => .success
  | .mIsAttachedError, _ => .gprsNotConnected
  | .mIsIpConnectedError, _ => .ipNotConnected
  | .mIsConnectedError, _ => .connectionError
  | _, errno => errno

namespace Recovery

variable (r : Recovery)

/-- An attach that went well. -/
def attach : Recovery := { r with restarts := 0, timeouts := 0 }

/-- An attach timeout, counted in sixteen bits. -/
def timeOut : Recovery :=
  { r with restarts := (r.restarts + 1) % 65536, timeouts := r.timeouts + 1 }

/-- The choice behind the Initial state, or a modem that is switched off. -/
def setKnown (known : Bool) : Recovery := { r with known := known }

/-- What a transition and its action change. -/
def fire : Transition → Recovery
  | .mIsInitializedDisconnected => r.setKnown true
  | .mIsInitializedError => r.setKnown false
  | .mIsAttachedError => r.timeOut
  | .mIsAttachedIpConnect => r.attach
  | _ => r

/-- The Error state is entered. -/
def enter : Recovery := { r with entries := ⟨r.known, r.timeouts, false, false⟩ :: r.entries }

/-- Are there enough errors for a reboot? -/
def exhausted : Bool := restartModemThreshold ≤ r.restarts

/-- How an initialized library gets out of the error. -/
def way : StmEvent := if r.exhausted then .reInitializeEvent else .errorDisconnectEvent

/-- The Error state is entered by an initialized library. -/
def recover : Recovery :=
  { r with
    restarts := if r.exhausted then 0 else r.restarts
    timeouts := if r.exhausted then 0 else r.timeouts
    entries := ⟨r.known, r.timeouts, r.exhausted, !r.exhausted⟩ :: r.entries }

end Recovery

/-- Clients are appended to the queue, but none for the current topic. -/
structure Ledger.Queues (k k' : Ledger) : Prop where
  queue : ∃ cs, (∀ c ∈ cs, c.aside = true) ∧ k' = { k with queue := k.queue ++ cs }

/-- What the action of a transition books. -/
def Transition.Performs (t : Transition) (k k' : Ledger) : Prop :=
  { k with errno := t.errno k.errno, recovery := k.recovery.fire t }.Queues k'

/-- The events by which the state machine gets out of an error. -/
def StmEvent.recovers (e : StmEvent) : Bool := e = .reInitializeEvent || e = .errorDisconnectEvent

/-- What entering a state books. The state timeout is cleared and may be set
again; the Error state of an initialized library has none. -/
inductive StateId.Enters (e : StmEvent) (k : Ledger) : StateId → Ledger → Prop
  | initial (ok timeout : Bool) (he : e = .reInitializeEvent ∨ e = .timer) :
      Enters e k .initial
        { k with
          state := some .initial
          initialized := ok
          pendingEvents := k.pendingEvents ++ [.initializeEvent]
          timeout := timeout }
  | disconnected (k' : Ledger) (h : k.Queues k') :
      Enters e k .disconnected
        { k' with state := some .disconnected, errno := .success, timeout := false }
  | recovered (hinit : k.initialized = true) :
      Enters e k .error
        { k with
          state := some .error
          pendingEvents := k.pendingEvents ++ [k.recovery.way]
          timeout := false
          recovery := k.recovery.recover }
  | failed (timeout : Bool) (hinit : k.initialized = false) :
      Enters e k .error
        { k with state := some .error, timeout := timeout, recovery := k.recovery.enter }
  | connected (registry : NbiotTopicRegistry)
      (h : registry = k.registry ∨ registry = k.registry.clearRegistry) :
      Enters e k .connected
        { k with
          state := some .connected
          errno := .success
          registry := registry
          timeout := false }
  | deepSleep (k' : Ledger) (h : k.Queues k') :
      Enters e k .deepSleep
        { k' with
          state := some .deepSleep
          initialized := false
          timeout := false
          recovery := k'.recovery.setKnown false }
  | connectedAwake (timeout : Bool) :
      Enters e k .connectedAwake { k with state := some .connectedAwake, timeout := timeout }
  | waitForAttach (timeout : Bool) :
      Enters e k .waitForAttach { k with state := some .waitForAttach, timeout := timeout }
  | waitForConnect (timeout : Bool) :
      Enters e k .waitForConnect { k with state := some .waitForConnect, timeout := timeout }
  | connectedSleep :
      Enters e k .connectedSleep { k with state := some .connectedSleep, timeout := false }
  | disconnectedSleep :
      Enters e k .disconnectedSleep { k with state := some .disconnectedSleep, timeout := false }

/-- The initial state is entered again for a re-initialization or by a timeout. -/
def StateId.Enterable (st : StateId) (e : StmEvent) : Prop :=
  st = .initial → e = .reInitializeEvent ∨ e = .timer

/-- The states that a target leads to. -/
def Target.Enterable (e : StmEvent) : Target → Prop
  | .state st => st.Enterable e
  | .choice _ _ target₀ _ target₁ => target₀.Enterable e ∧ target₁.Enterable e

/-- What a transition books, with the choices it goes through. -/
inductive Triggers (e : StmEvent) : Transition → Target → Ledger → Ledger → Prop
  | state {t : Transition} {st : StateId} {k k₁ k' : Ledger} (h : t.Performs k k₁)
      (henter : st.Enters e k₁ k') : Triggers e t (.state st) k k'
  | first {t t₀ t₁ : Transition} {c : Choice} {target₀ target₁ : Target} {k k₁ k' : Ledger}
      (h : t.Performs k k₁) (hgo : Triggers e t₀ target₀ k₁ k')
      (hc : c = .isInitialized → k₁.initialized = true) :
      Triggers e t (.choice c t₀ target₀ t₁ target₁) k k'
  | second {t t₀ t₁ : Transition} {c : Choice} {target₀ target₁ : Target} {k k₁ k' : Ledger}
      (h : t.Performs k k₁) (hgo : Triggers e t₁ target₁ k₁ k')
      (hc : c = .isInitialized → k₁.initialized = false) :
      Triggers e t (.choice c t₀ target₀ t₁ target₁) k k'

/-- The transition that the current state has for an event. -/
def Ledger.transitionFor (k : Ledger) (e : StmEvent) : Option Transition :=
  k.state.bind (·.transitionFor e)

/-- What handling an event books. -/
inductive Reacts (e : StmEvent) (k : Ledger) : Ledger → Prop
  | ignored (h : k.transitionFor e = none) : Reacts e k k
  | taken (t : Transition) (k' : Ledger) (h : k.transitionFor e = some t)
      (htrigger : Triggers e t t.target k k') : Reacts e k k'

theorem Ledger.Queues.events {k k' : Ledger} (h : k.Queues k') : k'.events = k.events := by
  obtain ⟨cs, -, rfl⟩ := h
  rfl

theorem StateId.Enters.events {e : StmEvent} {st : StateId} {k k' : Ledger}
    (h : st.Enters e k k') : k'.events = k.events := by
  cases h with
  | disconnected k' h => exact h.events
  | deepSleep k' h => exact h.events
  | _ => rfl

theorem Transition.Performs.events {t : Transition} {k k' : Ledger} (h : t.Performs k k') :
    k'.events = k.events := by
  have hqueues : { k with errno := t.errno k.errno, recovery := k.recovery.fire t }.Queues k' := h
  exact hqueues.events

theorem Triggers.events {e : StmEvent} {t : Transition} {target : Target} {k k' : Ledger}
    (h : Triggers e t target k k') : k'.events = k.events := by
  induction h with
  | state h henter => exact henter.events.trans h.events
  | first h hgo hc ih => exact ih.trans h.events
  | second h hgo hc ih => exact ih.trans h.events

theorem Reacts.events {e : StmEvent} {k k' : Ledger} (h : Reacts e k k') : k'.events = k.events := by
  cases h with
  | ignored h => rfl
  | taken t k' h htrigger => exact htrigger.events

/-- The events that are ready are handled, one after the other. -/
inductive Drains : List StmEvent → Ledger → Ledger → Prop
  | done (k : Ledger) : Drains [] k { k with events := [] }
  | handle {e : StmEvent} {es : List StmEvent} {k k₁ k' : Ledger}
      (h : Reacts e { k with events := es } k₁) (hrest : Drains es k₁ k') : Drains (e :: es) k k'

/-- The events that are ready are those that are handed in. -/
theorem Drains.of_events {es es' : List StmEvent} {k k' : Ledger}
    (h : Drains es { k with events := es' } k') : Drains es k k' := by
  generalize hk : { k with events := es' } = k₀ at h
  cases h with
  | done =>
    subst hk
    exact .done k
  | handle h hrest =>
    subst hk
    exact .handle h hrest

theorem Drains.events {es : List StmEvent} {k k' : Ledger} (h : Drains es k k') :
    k'.events = [] := by
  induction h with
  | done k => rfl
  | handle h hrest ih => exact ih

/-- A dispatch after some events were pushed: a state timeout that has run out adds
the timer event and is started again, and posted events get ready at the end. -/
inductive Dispatches (pushed : List StmEvent) (k : Ledger) : Ledger → Prop
  | of (timer : List StmEvent) (timeout : Bool) (k' : Ledger)
      (htimer : timer = [] ∨ timer = [.timer] ∧ k.timeout = true)
      (htimeout : k.timeout = false → timeout = false)
      (h : Drains (k.events ++ pushed ++ timer) { k with timeout := timeout } k') :
      Dispatches pushed k { k' with events := k'.pendingEvents, pendingEvents := [] }

/-- The events that a public call or a client sends by itself. -/
def StmEvent.ordered : StmEvent → Bool
  | .invalid | .timer | .initializeEvent | .reInitializeEvent | .errorDisconnectEvent => false
  | _ => true

/-- What is pushed before a dispatch: the event of a call, and a re-initialization
only for a modem that is switched off. -/
inductive Ledger.Pushes (k : Ledger) : List StmEvent → Prop
  | nothing : Pushes k []
  | order (e : StmEvent) (h : e.ordered = true) : Pushes k [e]
  | reInitialize (h : k.state = some .deepSleep) : Pushes k [.reInitializeEvent]

/-! ## The registry and the current topic -/

/-- The end of the loop of the current topic, when it went well. -/
def Ledger.settle (k : Ledger) : Ledger :=
  let topic := registeredTopic k.loopId k.registry k.currentTopic
  { k with
    currentTopic := topic
    registry :=
      match k.loopId with
      | .register => k.registry.insertTopic topic
      | .subscribe => (k.registry.insertTopic topic).updateWildcardMessageHandler topic
      | _ => k.registry }

/-- The registry after a subscribe loop that went well, with the topic it leaves. -/
def NbiotTopicRegistry.subscribed (r : NbiotTopicRegistry) (topic : NbiotTopic) :
    NbiotTopicRegistry :=
  if topic.valid then (r.insertTopic topic).updateWildcardMessageHandler topic else r

/-- A topic of the gateway comes into the registry. -/
inductive Learns (registry : NbiotTopicRegistry) (topic : NbiotTopic) : NbiotTopicRegistry → Prop
  | fresh : Learns registry topic
      (registry.insertTopic (registry.attachWildcardMessageHandler topic))
  | known (index : Nat) (h : registry.findTopic topic.topicName = some index)
      (hmh : (registry.topicAt index).mh.isSome) : Learns registry topic (registry.insertTopic topic)

/-- The loop controller has nothing to do. -/
def Ledger.Free (k : Ledger) : Prop := k.queue = [] ∧ k.loopId = .unknown

/-- A topic that a call selects: a new one of this name, or a registered one. -/
inductive Selects (k : Ledger) (name : Bytes) : NbiotTopic → Prop
  | fresh : Selects k name (.ofName name)
  | known (index : Nat) (h : k.registry.findTopic name = some index) :
      Selects k name (k.registry.topicAt index)

/-- Changes of the registry that leave the loop controller alone. -/
inductive Change (C : Option MessageHandler → List ApiCall → Bytes → Prop) : Ledger → Ledger → Prop
  | enqueue {k k' : Ledger} (h : k.Queues k') : Change C k k'
  | take {k : Ledger} (c : ClientId) (queue : List ClientId) (h : k.queue = c :: queue) :
      Change C k { k with queue := queue, loopId := c.loopId }
  | clear {k : Ledger} : Change C k { k with queue := [], loopId := .unknown }
  | unhook {k : Ledger} : Change C k { k with loopId := .unknown }
  | post {k : Ledger} (e : StmEvent)
      (h : e = .attachedEvent ∨ e = .connectedEvent ∨ e = .disconnectEvent) :
      Change C k { k with pendingEvents := k.pendingEvents ++ [e] }
  | dispatch {k k' : Ledger} (pushed : List StmEvent) (hpushed : k.Pushes pushed)
      (h : Dispatches pushed k k') : Change C k k'
  | api {k : Ledger} (call : ApiCall) : Change C k { k with calls := call :: k.calls }
  | hear {k : Ledger} (name : Bytes) : Change C k { k with heard := name :: k.heard }
  | fail {k : Ledger} (errno : ErrorNumber) (h : errno ≠ .success) :
      Change C k { k with errno := errno }
  | succeed {k : Ledger} (h : k.state = some .connected) : Change C k { k with errno := .success }
  | deliver {k : Ledger} (n : Nat) :
      Change C k { k with registry := { k.registry with messageCount := n } }
  | learn {k : Ledger} (topic : NbiotTopic) (registry : NbiotTopicRegistry)
      (htopic : topic.mh = none ∧ topic.regFlag = {}) (hheard : topic.topicName ∈ k.heard)
      (h : Learns k.registry topic registry) :
      Change C k { k with registry := registry }
  | forget {k : Ledger} (index : Nat) :
      Change C k { k with registry := k.registry.removeTopic index }
  | flag {k : Ledger} (index : Nat) :
      Change C k { k with registry := k.registry.setTopicFlag index .pub }
  | mark {k : Ledger} (id returnCode : Nat) :
      Change C k
        { k with currentTopic := { k.currentTopic with id := id, returnCode := returnCode } }
  | settle {k : Ledger} : Change C k k.settle
  /-- A subscribe loop has gone well, and the registry is what it makes of it. -/
  | install {k : Ledger} (before : NbiotTopicRegistry) (hloop : k.loopId = .subscribe)
      (h : k.registry = before.subscribed k.currentTopic) :
      Change C k
        { k with
          installed := ⟨k.asked, true, k.currentTopic, before, k.registry⟩ :: k.installed }
  /-- A publish or subscribe turns to another topic. -/
  | select {k : Ledger} (name : Bytes) (topic : NbiotTopic) (hfree : k.Free)
      (h : Selects k name topic) :
      Change C k { k with currentTopic := k.currentTopic.assign topic }
  | register {k : Ledger} (name data : Bytes) (qos : QoS) (hfree : k.Free)
      (htopic : ∃ mh, k.currentTopic = { NbiotTopic.ofName name with mh := mh })
      (hcall : .publish name data qos ∈ k.calls) (hC : C k.currentTopic.mh k.calls name) :
      Change C k { k with queue := [.reg] }
  | publish {k : Ledger} : Change C k { k with queue := k.queue ++ [.pub] }
  | subscribe {k : Ledger} (name : Bytes) (mh : Option MessageHandler) (hfree : k.Free)
      (hname : k.currentTopic.hasName name = true)
      (hcall : subscribeCall k.calls = some (name, mh)) :
      Change C k
        { k with
          currentTopic := { k.currentTopic with mh := mh }
          queue := [.sub]
          asked := some (name, mh) }
  | attach {k : Ledger} (name : Bytes) (mh : Option MessageHandler) (index : Nat)
      (h : k.registry.findTopic name = some index)
      (hcall : subscribeCall k.calls = some (name, mh)) :
      Change C k
        { k with
          registry := k.registry.attachMessageHandler index mh
          installed :=
            ⟨subscribeCall k.calls, false, k.registry.topicAt index, k.registry,
              k.registry.attachMessageHandler index mh⟩ :: k.installed }

theorem mem_of_subscribeCall {calls : List ApiCall} {name : Bytes} {mh : Option MessageHandler}
    (h : subscribeCall calls = some (name, mh)) : .subscribe name mh ∈ calls := by
  unfold subscribeCall at h
  split at h
  · cases h
    exact List.mem_cons_self
  · cases h

/-- The machine of the ledger. -/
def books (C : Option MessageHandler → List ApiCall → Bytes → Prop) : Machine Ledger where
  Step := Change C
  Inv _ := True
  keeps _ _ := trivial

end LibNbiot
