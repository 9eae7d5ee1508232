/-
# The answer of publish

A publish that cannot be handed over sets an error number and sends the
disconnect event; the library is in the Disconnected state at once, whose entry
action resets the error number, and the publish answers with success. So once a
publish finds the library connected and the controller free it always answers
with success, and the answer is true exactly if the MQTT-SN client is connected
and the topic is known, or there is room for it and its REGISTER can be built.
-/

import LibNbiot.Laws.History
import LibNbiot.Ledger.Order
import LibNbiot.Ledger.Topics

namespace LibNbiot

open Logic.Program Relation Ledger

/-- The loop clients that a publish of a topic needs. -/
def NbiotTopicRegistry.clientsFor (r : NbiotTopicRegistry) (topic : Bytes) : List ClientId :=
  if (r.findTopic topic).isNone then [.reg, .pub] else [.pub]

/-- A publish that answers with success has appended its clients to the queue,
once a sleeping library has been woken up. -/
def ReportsPublish (topic data : Bytes) (qos : QoS) (s : Sys) : Prop :=
  (publish topic data qos s).1 = .success →
    ∃ rest, (publish topic data qos s).2.loop.clientList =
      (wake s).2.loop.clientList ++ (wake s).2.rest.registry.clientsFor topic ++ rest

/-- The REGISTER of a topic fits into a packet. -/
def registerFits (topic : Bytes) : Bool := (Packet.register 0 0 (cString topic)).serialize.isSome

/-- A publish can be handed over: by a connected client, and with a known topic or
one that can be registered. -/
def CanHandOver (topic : Bytes) (s : Sys) : Prop :=
  s.rest.sn.isconnected = true ∧
    ((s.rest.registry.findTopic topic).isSome = true ∨
      s.rest.registry.topicCount < s.rest.pool.maxTopics ∧ registerFits topic = true)

/-- A publish goes ahead: the library is initialized, connected and free once it
is awake. -/
def GoesAhead (s : Sys) : Prop :=
  s.rest.pool.initialized = true ∧ (wake s).2.rest.stm.currentState = some .connected ∧
    (wake s).2.loop.isBusy = false

/-! ## The disconnect event -/

/-- The events of a dispatch that disconnects: the library is disconnected, or the
event is yet to come. -/
def Ledger.Disconnecting (es : List StmEvent) (k : Ledger) : Prop :=
  (∀ e ∈ es, e.posted = true ∨ e = .timer) ∧
    (k.state = some .disconnected ∧ k.errno = .success ∨
      k.state = some .connected ∧ .disconnectEvent ∈ es)

theorem Ledger.Disconnecting.step {e : StmEvent} {es : List StmEvent} {k k' : Ledger}
    (hk : k.Disconnecting (e :: es)) (hreacts : Reacts e { k with events := es } k') :
    k'.Disconnecting es := by
  obtain ⟨hes, hstate⟩ := hk
  refine ⟨fun e' he' => hes e' (List.mem_cons_of_mem _ he'), ?_⟩
  have he := hes e List.mem_cons_self
  obtain ⟨hnone, rfl⟩ | ⟨st, st', errno, recovery, queue, hst, hmoves, henter⟩ := hreacts.moves
  · refine hstate.imp_right fun ⟨hconnected, hmem⟩ => ⟨hconnected, ?_⟩
    obtain rfl | hmem := List.mem_cons.1 hmem
    · have hwaits : k.state.bind (·.transitionFor .disconnectEvent) = none := hnone
      rw [hconnected] at hwaits
      cases hwaits
    · exact hmem
  · have hst : k.state = some st := hst
    obtain ⟨hdisconnected, -⟩ | ⟨hconnected, -⟩ := hstate
    · cases hst.symm.trans hdisconnected
      cases hmoves <;> simp [StmEvent.posted] at he
    · cases hst.symm.trans hconnected
      cases hmoves with
      | disconnect =>
        cases henter
        exact .inl ⟨rfl, rfl⟩
      | sleep => simp [StmEvent.posted] at he
      | hibernate => simp [StmEvent.posted] at he

/-- A connected library that sends the disconnect event forgets its error number. -/
theorem Dispatches.disconnected {k k' : Ledger} (h : Dispatches [.disconnectEvent] k k')
    (hevents : ∀ e ∈ k.events, e.posted = true) (hstate : k.state = some .connected) :
    k'.errno = .success := by
  obtain ⟨timer, timeout, k', htimer, -, h⟩ := h
  have hdisconnecting : Ledger.Disconnecting (k.events ++ [.disconnectEvent] ++ timer)
      { k with timeout := timeout } := by
    refine ⟨fun e he => ?_, .inr ⟨hstate, by simp⟩⟩
    obtain he | he := List.mem_append.1 he
    · obtain he | he := List.mem_append.1 he
      · exact .inl (hevents e he)
      · rw [List.mem_singleton.1 he]
        exact .inl rfl
    · obtain rfl | ⟨rfl, -⟩ := htimer
      · cases he
      · exact .inr (List.mem_singleton.1 he)
  obtain ⟨k₁, ⟨-, hk₁⟩, rfl⟩ := h.keeps (D := fun es k => k.Disconnecting es)
    (fun hk hreacts => Ledger.Disconnecting.step hk hreacts) hdisconnecting
  obtain ⟨-, herrno⟩ | ⟨-, hmem⟩ := hk₁
  · exact herrno
  · cases hmem

/-! ## Handing over -/

theorem registerFits_iff (topic : Bytes) (msgId : Nat) :
    (Packet.register 0 msgId (cString topic)).serialize.isSome = registerFits topic := by
  simp only [registerFits, Packet.serialize, framed]
  split <;> rfl

/-- What a step of a publish leaves: the error number, the MQTT-SN client and the
state machine, and the queue with some clients appended. -/
structure Appends (s s' : Sys) (cs : List ClientId) : Prop where
  errno : s'.rest.pool.errno = s.rest.pool.errno
  isconnected : s'.rest.sn.isconnected = s.rest.sn.isconnected
  stm : s'.rest.stm = s.rest.stm
  queue : s'.loop.clientList = s.loop.clientList ++ cs

theorem Appends.trans {s s' s'' : Sys} {cs cs' : List ClientId} (h : Appends s s' cs)
    (h' : Appends s' s'' cs') : Appends s s'' (cs ++ cs') :=
  ⟨h'.errno.trans h.errno, h'.isconnected.trans h.isconnected, h'.stm.trans h.stm, by
    rw [h'.queue, h.queue, List.append_assoc]⟩

/-- A step that leaves the queue alone. -/
theorem Appends.of_eq {s s' : Sys} (herrno : s'.rest.pool.errno = s.rest.pool.errno)
    (hconn : s'.rest.sn.isconnected = s.rest.sn.isconnected)
    (hstm : s'.rest.stm = s.rest.stm) (hloop : s'.loop = s.loop) : Appends s s' [] :=
  ⟨herrno, hconn, hstm, by rw [hloop, List.append_nil]⟩

theorem serialize_register (topic : Bytes) (msgId : Nat) (s : Sys) :
    if registerFits topic = true then
      0 < (serialize (.register 0 msgId (cString topic)) s).1 ∧
        Appends s (serialize (.register 0 msgId (cString topic)) s).2 []
    else serialize (.register 0 msgId (cString topic)) s = (0, s) := by
  rw [← registerFits_iff topic msgId]
  cases hb : (Packet.register 0 msgId (cString topic)).serialize with
  | none => simp [serialize, hb]
  | some b =>
    have hlength : 0 < b.length := by
      simp only [Packet.serialize, framed] at hb
      split at hb
      · cases hb
      · cases hb
        rw [List.length_append, List.length_cons]
        omega
    simp only [serialize, hb]
    exact ⟨hlength, ⟨rfl, rfl, rfl, (List.append_nil _).symm⟩⟩

theorem registerTopic_spec {topic : Bytes} {topicName : TopicId}
    (hname : topicName.name = cString topic) (s : Sys) :
    if registerFits topic = true then
      (Client.registerTopic topicName s).1 = mqttSuccess ∧
        Appends s (Client.registerTopic topicName s).2 [.reg]
    else
      (Client.registerTopic topicName s).1 = mqttFailure ∧
        Appends s (Client.registerTopic topicName s).2 [] := by
  have hnext : Appends s (getNext s).2 [] := .of_eq rfl rfl rfl rfl
  rw [Client.registerTopic, run_bind, run_bind, hname, cString_cString]
  have hserialize := serialize_register topic (getNext s).1 (getNext s).2
  by_cases hfits : registerFits topic = true
  · rw [if_pos hfits] at hserialize ⊢
    obtain ⟨hlength, hserialized⟩ := hserialize
    generalize serialize (.register 0 (getNext s).1 (cString topic)) (getNext s).2 = r
      at hlength hserialized ⊢
    simp only [hlength, if_true, run_bind, run_pure]
    exact ⟨trivial, hnext.trans (hserialized.trans ⟨rfl, rfl, rfl, rfl⟩)⟩
  · rw [if_neg hfits] at hserialize ⊢
    rw [hserialize]
    exact ⟨rfl, hnext⟩

/-- What selecting the topic of a publish comes to: a known topic, one that is
registered, or one for which there is no room or no REGISTER. -/
inductive TopicSelected (topic : Bytes) (s : Sys) : Int → Sys → Prop
  | known {s' : Sys} (h : (s.rest.registry.findTopic topic).isSome = true)
      (happends : Appends s s' []) : TopicSelected topic s mqttSuccess s'
  | registered {s' : Sys} (h : s.rest.registry.findTopic topic = none)
      (hroom : s.rest.registry.topicCount < s.rest.pool.maxTopics)
      (hfits : registerFits topic = true) (happends : Appends s s' [.reg]) :
      TopicSelected topic s mqttSuccess s'
  | refused {s' : Sys} (h : s.rest.registry.findTopic topic = none)
      (hno : ¬(s.rest.registry.topicCount < s.rest.pool.maxTopics ∧ registerFits topic = true))
      (hstm : s'.rest.stm = s.rest.stm) (hqueue : s'.loop.clientList = s.loop.clientList) :
      TopicSelected topic s mqttFailure s'

/-- The topic id for a REGISTER names the current topic. -/
theorem toSNTopic_name {t : NbiotTopic} (h : t.type = .normal) (topicid : TopicId) (address : Nat) :
    (t.toSNTopic topicid (.topicName address)).name = t.topicName := by
  simp [NbiotTopic.toSNTopic, h]

theorem publishTopicFor_selected (topic : Bytes) (s : Sys) :
    TopicSelected topic s (publishTopicFor topic s).1 (publishTopicFor topic s).2 := by
  rw [publishTopicFor, run_bind, run_bind, getRegistry_eq]
  have hreset : Appends s (modifyPool (fun pool =>
      { pool with topicid := { type := .normal, id := 65535 } }) s).2 [] := .of_eq rfl rfl rfl rfl
  have hsame : (modifyPool (fun pool =>
      { pool with topicid := { type := .normal, id := 65535 } }) s).2.rest.registry =
        s.rest.registry := rfl
  have hmax : (modifyPool (fun pool =>
      { pool with topicid := { type := .normal, id := 65535 } }) s).2.rest.pool.maxTopics =
        s.rest.pool.maxTopics := rfl
  generalize (modifyPool (fun pool =>
    { pool with topicid := { type := .normal, id := 65535 } }) s).2 = s₀ at hreset hsame hmax ⊢
  rw [hsame]
  cases hfound : s.rest.registry.findTopic topic with
  | some index =>
    refine .known (by rw [hfound]; rfl) (hreset.trans ?_)
    have hflag (c : Prop) [Decidable c] (s : Sys) :
        Appends s (onlyIf c (modifyRegistry (·.setTopicFlag index .pub)) s).2 [] := by
      rw [run_onlyIf]
      split <;> exact .of_eq rfl rfl rfl rfl
    exact (hflag _ _).trans (.of_eq rfl rfl rfl rfl)
  | none =>
    simp only [run_bind, getRegistry_eq, getPool_eq, hsame, hmax]
    by_cases hroom : s.rest.registry.topicCount < s.rest.pool.maxTopics
    · simp only [hroom, if_true, run_bind]
      have hselect : Appends s₀ (modifyPool (fun pool =>
          { pool with currentTopic := pool.currentTopic.assign (NbiotTopic.ofName topic) }) s₀).2
            [] := .of_eq rfl rfl rfl rfl
      have htopic : (modifyPool (fun pool =>
          { pool with currentTopic := pool.currentTopic.assign (NbiotTopic.ofName topic) })
            s₀).2.rest.pool.currentTopic = s₀.rest.pool.currentTopic.assign (.ofName topic) := rfl
      generalize (modifyPool (fun pool =>
          { pool with currentTopic := pool.currentTopic.assign (NbiotTopic.ofName topic) }) s₀).2 =
        s₁ at hselect htopic ⊢
      have hid : Appends s₁ (modifyPool (fun pool =>
          { pool with topicid := pool.currentTopic.toSNTopic pool.topicid (topicNameAt s₁).1 }) (topicNameAt s₁).2).2 [] :=
        .of_eq rfl rfl rfl rfl
      have hname : (modifyPool (fun pool =>
          { pool with topicid := pool.currentTopic.toSNTopic pool.topicid (topicNameAt s₁).1 })
            (topicNameAt s₁).2).2.rest.pool.topicid.name = cString topic := by
        have hpool : (topicNameAt s₁).2.rest.pool = s₁.rest.pool := rfl
        have hassigned : s₁.rest.pool.currentTopic.type = .normal ∧
            s₁.rest.pool.currentTopic.topicName = cString topic := by
          rw [htopic, assign_ofName]
          exact ⟨rfl, rfl⟩
        simp only [modifyPool, run_modify, hpool]
        exact (toSNTopic_name hassigned.1 _ _).trans hassigned.2
      generalize (modifyPool (fun pool =>
          { pool with topicid := pool.currentTopic.toSNTopic pool.topicid (topicNameAt s₁).1 }) (topicNameAt s₁).2).2 = s₂
        at hid hname ⊢
      rw [getPool_eq]
      have hbefore := hreset.trans (hselect.trans hid)
      have hregister := registerTopic_spec hname s₂
      by_cases hfits : registerFits topic = true
      · rw [if_pos hfits] at hregister
        rw [hregister.1]
        exact .registered hfound hroom hfits (hbefore.trans hregister.2)
      · rw [if_neg hfits] at hregister
        rw [hregister.1]
        have happends := hbefore.trans hregister.2
        exact .refused hfound (fun h => hfits h.2) happends.stm
          (happends.queue.trans (List.append_nil _))
    · simp only [hroom, if_false, run_bind, run_pure]
      exact .refused hfound (fun h => hroom h.1) hreset.stm (hreset.queue.trans (List.append_nil _))

/-- Only a connected client hands a publish over. -/
theorem clientPublish_spec (topicName : TopicId) (payload : Bytes) (qos : QoS) (s : Sys) :
    if s.rest.sn.isconnected = true then
      (Client.publish topicName payload false qos s).1 = mqttSuccess ∧
        Appends s (Client.publish topicName payload false qos s).2 [.pub]
    else
      (Client.publish topicName payload false qos s).1 = mqttFailure ∧
        Appends s (Client.publish topicName payload false qos s).2 [] := by
  rw [Client.publish, run_bind, run_bind, run_bind, getSn_eq, getSn_eq]
  have htimer : Appends s (startTimer s.rest.sn.commandTimeoutMs s).2 [] := .of_eq rfl rfl rfl rfl
  have hsn : (startTimer s.rest.sn.commandTimeoutMs s).2.rest.sn = s.rest.sn := rfl
  dsimp only
  generalize startTimer s.rest.sn.commandTimeoutMs s = r at htimer hsn ⊢
  rw [hsn]
  by_cases hconn : s.rest.sn.isconnected = true
  · simp only [hconn, if_true, run_bind]
    have hid : Appends r.2 (Client.nextPublishId qos r.2).2 [] := by
      rw [Client.nextPublishId]
      split <;> exact .of_eq rfl rfl rfl rfl
    generalize Client.nextPublishId qos r.2 = r₁ at hid ⊢
    exact ⟨rfl, htimer.trans (hid.trans ⟨rfl, rfl, rfl, rfl⟩)⟩
  · simp only [hconn, Bool.false_eq_true, if_false, run_pure]
    exact ⟨trivial, htimer⟩

/-! ## The law -/

/-- Asking for the state of a started library changes nothing. -/
theorem stateIs_run {s : Sys} {st : StateId} (h : s.rest.stm.currentState = some st)
    (st' : StateId) : stateIs st' s = (decide (some st = some st'), s) := by
  simp [stateIs, getCurrentStateId, getStm_eq, h]

theorem poll_connected {s : Sys} (h : s.rest.stm.currentState = some .connected) (n : Nat) :
    (poll n s).2.rest.pool.errno = s.rest.pool.errno ∧
      ∃ rest, (poll n s).2.loop.clientList = s.loop.clientList ++ rest := by
  have htime : Appends s (pollTime n s).2 [] := by
    simp only [pollTime, run_bind]
    split <;> exact .of_eq rfl rfl rfl rfl
  have hpoll : poll n s = (do let _ ← Client.yield (← pollTime n); restartAutoPoll) s := by
    simp [poll, isConnected, isSleeping, stateIs_run h]
  rw [hpoll, run_bind, run_bind]
  generalize pollTime n s = r at htime ⊢
  refine ⟨htime.errno, [.yield], ?_⟩
  have hqueue : ((do let _ ← Client.yield r.1; restartAutoPoll : M Unit) r.2).2.loop.clientList =
    r.2.loop.clientList ++ [.yield] := rfl
  refine hqueue.trans ?_
  rw [htime.queue, List.append_nil]

/-- After a failure the library is disconnected, without an error number, and no
publish client has come to the queue. -/
theorem sendEvent_disconnected {s : Sys} (hevents : ∀ e ∈ s.rest.stm.events, e.posted = true)
    (hstate : s.rest.stm.currentState = some .connected) :
    (sendEvent .disconnectEvent s).2.rest.pool.errno = .success ∧
      (.pub ∈ (sendEvent .disconnectEvent s).2.loop.clientList → .pub ∈ s.loop.clientList) := by
  have hdispatches := sendEvent_dispatches .disconnectEvent s
  refine ⟨hdispatches.disconnected hevents hstate, fun hmem => ?_⟩
  obtain ⟨-, cs, hcs, hqueue⟩ := hdispatches.spares
  have hqueue : (sendEvent .disconnectEvent s).2.loop.clientList = s.loop.clientList ++ cs := hqueue
  rw [hqueue] at hmem
  exact (List.mem_append.1 hmem).resolve_right fun hmem => nomatch hcs .pub hmem

/-- Handing the publish over, once its topic is selected. -/
def handOver (data : Bytes) (qos : QoS) : M Unit := do
  let rc ← Client.publish (← getPool).topicid data false qos
  if rc < 0 then
    setErrno .connectionError
    sendEvent .disconnectEvent
  else
    poll 0

theorem handOver_spec (data : Bytes) (qos : QoS) {s : Sys}
    (hevents : ∀ e ∈ s.rest.stm.events, e.posted = true)
    (hstate : s.rest.stm.currentState = some .connected) (herrno : s.rest.pool.errno = .success)
    (hpub : .pub ∉ s.loop.clientList) :
    (handOver data qos s).2.rest.pool.errno = .success ∧
      if s.rest.sn.isconnected = true then
        ∃ rest, (handOver data qos s).2.loop.clientList = s.loop.clientList ++ [.pub] ++ rest
      else .pub ∉ (handOver data qos s).2.loop.clientList := by
  rw [handOver, run_bind, run_bind, getPool_eq]
  have hpublish := clientPublish_spec s.rest.pool.topicid data qos s
  dsimp only
  generalize Client.publish s.rest.pool.topicid data false qos s = r at hpublish ⊢
  by_cases hconn : s.rest.sn.isconnected = true
  · rw [if_pos hconn] at hpublish ⊢
    obtain ⟨hrc, happends⟩ := hpublish
    have hno : ¬r.1 < 0 := by rw [hrc]; decide
    simp only [hno, if_false]
    have hconnected : r.2.rest.stm.currentState = some .connected := by
      rw [happends.stm]
      exact hstate
    obtain ⟨hpoll, rest, hqueue⟩ := poll_connected hconnected 0
    exact ⟨hpoll.trans (happends.errno.trans herrno), rest, by rw [hqueue, happends.queue]⟩
  · rw [if_neg hconn] at hpublish ⊢
    obtain ⟨hrc, happends⟩ := hpublish
    have hfailed : r.1 < 0 := by rw [hrc]; decide
    simp only [hfailed, if_true, run_bind]
    have hset : (setErrno .connectionError r.2).2.rest.stm = s.rest.stm ∧
        (setErrno .connectionError r.2).2.loop.clientList = s.loop.clientList :=
      ⟨happends.stm, happends.queue.trans (List.append_nil _)⟩
    generalize (setErrno .connectionError r.2).2 = s₁ at hset ⊢
    rw [← hset.1] at hevents hstate
    rw [← hset.2] at hpub
    obtain ⟨hsuccess, hno⟩ := sendEvent_disconnected hevents hstate
    exact ⟨hsuccess, fun h => hpub (hno h)⟩

/-- Giving a publish up. -/
def giveUp : M Unit := do
  onlyIf ((← getPool).errno = .success) (setErrno .connectionError)
  sendEvent .disconnectEvent

theorem giveUp_spec {s : Sys} (hevents : ∀ e ∈ s.rest.stm.events, e.posted = true)
    (hstate : s.rest.stm.currentState = some .connected) (hpub : .pub ∉ s.loop.clientList) :
    (giveUp s).2.rest.pool.errno = .success ∧ .pub ∉ (giveUp s).2.loop.clientList := by
  rw [giveUp, run_bind, run_bind, getPool_eq, run_onlyIf]
  have hset : (if s.rest.pool.errno = .success then setErrno .connectionError s
      else ((), s)).2.rest.stm = s.rest.stm ∧ (if s.rest.pool.errno = .success then
        setErrno .connectionError s else ((), s)).2.loop = s.loop := by
    split <;> exact ⟨rfl, rfl⟩
  generalize (if s.rest.pool.errno = .success then setErrno .connectionError s
    else ((), s)).2 = s₁ at hset ⊢
  rw [← hset.1] at hevents hstate
  rw [← hset.2] at hpub
  obtain ⟨hsuccess, hno⟩ := sendEvent_disconnected hevents hstate
  exact ⟨hsuccess, fun h => hpub (hno h)⟩

theorem publishNow_eq (topic data : Bytes) (qos : QoS) :
    publishNow topic data qos = (do
      setErrno .success
      if (← publishTopicFor topic) = mqttSuccess then handOver data qos else giveUp) := rfl

/-- Once the topic is selected, with some clients before the publish one. -/
theorem handOver_answers {topic : Bytes} (data : Bytes) (qos : QoS) {s s₁ : Sys}
    {cs : List ClientId} (happends : Appends s s₁ cs)
    (hevents : ∀ e ∈ s.rest.stm.events, e.posted = true)
    (hstate : s.rest.stm.currentState = some .connected) (hfree : s.loop.clientList = [])
    (herrno : s.rest.pool.errno = .success) (hno : .pub ∉ cs)
    (hclients : s.rest.registry.clientsFor topic = cs ++ [.pub])
    (hcan : s.rest.sn.isconnected = true → CanHandOver topic s) :
    (handOver data qos s₁).2.rest.pool.errno = .success ∧
      ((∃ rest, (handOver data qos s₁).2.loop.clientList =
        s.rest.registry.clientsFor topic ++ rest) ↔ CanHandOver topic s) := by
  rw [← happends.stm] at hevents hstate
  have hqueue : s₁.loop.clientList = cs := by rw [happends.queue, hfree, List.nil_append]
  obtain ⟨hsuccess, hspec⟩ := handOver_spec data qos hevents hstate
    (happends.errno.trans herrno) (by rwa [hqueue])
  rw [happends.isconnected, hqueue] at hspec
  refine ⟨hsuccess, ?_⟩
  rw [hclients]
  by_cases hconn : s.rest.sn.isconnected = true
  · rw [if_pos hconn] at hspec
    exact iff_of_true hspec (hcan hconn)
  · rw [if_neg hconn] at hspec
    apply iff_of_false _ fun h => hconn h.1
    rintro ⟨rest, hrest⟩
    apply hspec
    rw [hrest]
    simp

/-- Once a publish goes ahead it answers with success, and hands its clients over
exactly if it can. -/
theorem publishNow_answers (topic data : Bytes) (qos : QoS) {s : Sys}
    (hevents : ∀ e ∈ s.rest.stm.events, e.posted = true)
    (hstate : s.rest.stm.currentState = some .connected) (hfree : s.loop.clientList = []) :
    (publishNow topic data qos s).2.rest.pool.errno = .success ∧
      ((∃ rest, (publishNow topic data qos s).2.loop.clientList =
        s.rest.registry.clientsFor topic ++ rest) ↔ CanHandOver topic s) := by
  rw [publishNow_eq, run_bind, run_bind]
  have hselected := publishTopicFor_selected topic (setErrno .success s).2
  have hpub {cs rest : List ClientId} (h : cs = s.rest.registry.clientsFor topic ++ rest) :
      .pub ∈ cs := by
    rw [h, NbiotTopicRegistry.clientsFor]
    split <;> simp
  have hcan : CanHandOver topic (setErrno .success s).2 ↔ CanHandOver topic s := Iff.rfl
  have hclear : (setErrno .success s).2.loop = s.loop ∧ (setErrno .success s).2.rest.stm = s.rest.stm ∧
      (setErrno .success s).2.rest.registry = s.rest.registry ∧
      (setErrno .success s).2.rest.pool.errno = .success := ⟨rfl, rfl, rfl, rfl⟩
  generalize (setErrno .success s).2 = s₀ at hselected hcan hclear ⊢
  obtain ⟨hloop, hstm, hregistry, herrno⟩ := hclear
  rw [← hcan]
  rw [← hstm] at hevents hstate
  rw [← hregistry] at hpub ⊢
  rw [← hloop] at hfree
  generalize publishTopicFor topic s₀ = r at hselected ⊢
  obtain ⟨rc, s₁⟩ := r
  dsimp only at hselected ⊢
  cases hselected with
  | known h happends =>
    apply handOver_answers data qos happends hevents hstate hfree herrno List.not_mem_nil
    · rw [NbiotTopicRegistry.clientsFor, if_neg (by simpa [Option.isSome_iff_ne_none] using h),
        List.nil_append]
    · exact fun hconn => ⟨hconn, .inl h⟩
  | registered h hroom hfits happends =>
    apply handOver_answers data qos happends hevents hstate hfree herrno (by simp)
    · rw [NbiotTopicRegistry.clientsFor, if_pos (by rw [h]; rfl)]
      rfl
    · exact fun hconn => ⟨hconn, .inr ⟨hroom, hfits⟩⟩
  | refused h hno hstm' hqueue =>
    rw [← hstm'] at hevents hstate
    have hspec := giveUp_spec hevents hstate (by rw [hqueue, hfree]; simp)
    have hfailed : ¬mqttFailure = mqttSuccess := by decide
    simp only [hfailed, if_false]
    refine ⟨hspec.1, iff_of_false (fun ⟨rest, hrest⟩ => hspec.2 (hpub hrest)) ?_⟩
    rintro ⟨-, hknown | hcan⟩
    · rw [h] at hknown
      cases hknown
    · exact hno hcan

/-- **A publish reports failure truthfully** exactly if it does not go ahead or can
be handed over. -/
theorem reportsPublish_after_iff (setting : Setting) (calls : List ApiCall) (topic data : Bytes)
    (qos : QoS) :
    ReportsPublish topic data qos (setting.after calls) ↔
      (GoesAhead (setting.after calls) → CanHandOver topic (wake (setting.after calls)).2) := by
  have hordered := ordered_after setting calls
  generalize setting.after calls = s at hordered ⊢
  unfold ReportsPublish GoesAhead
  rw [publish_eq, run_bind, getPool_eq]
  by_cases hinit : s.rest.pool.initialized = true
  · have hawake : (ledger (wake s).2).Ordered := by
      obtain h | h := wake_cases s
      · rw [h]
        exact hordered
      · exact Change.ordered (C := fun _ _ _ => True) (.dispatch _ (.order _ rfl) h) hordered
    simp only [hinit, if_true, run_bind, true_and]
    generalize (wake s).2 = s₁ at hawake ⊢
    by_cases hstate : s₁.rest.stm.currentState = some .connected
    · have hconnected : isConnected s₁ = (true, s₁) := by
        rw [isConnected, stateIs_run hstate]
        rfl
      have hrun : publishAwake topic data qos s₁ = (if s₁.loop.isBusy = true then
          pure .loopCtrlBusyError
        else do
          publishNow topic data qos
          return (← getPool).errno : M ErrorNumber) s₁ := by
        rw [publishAwake, run_bind, hconnected]
        rfl
      rw [hrun]
      by_cases hbusy : s₁.loop.isBusy = true
      · rw [if_pos hbusy]
        simp [hbusy]
      · rw [if_neg hbusy, run_bind, run_bind, getPool_eq]
        have hfree : s₁.loop.clientList = [] := (free_of_idle hbusy).1
        obtain ⟨hsuccess, hiff⟩ := publishNow_answers topic data qos hawake.events hstate hfree
        simp only [run_pure, hsuccess, hfree, List.nil_append, forall_true_left, hstate, hbusy,
          and_self]
        exact hiff
    · have hvalue : (isConnected s₁).1 = false :=
        (stateIs_fst .connected s₁).trans (decide_eq_false hstate)
      rw [publishAwake, run_bind]
      generalize isConnected s₁ = r at hvalue ⊢
      simp [hvalue, hstate]
  · simp [hinit]

/-- A topic name that does not fit into a REGISTER. -/
def longName : Bytes := List.replicate 200 97

/-- The publish of a topic with a long name answers with success. -/
theorem not_reportsPublish_longName :
    ¬ReportsPublish longName [1] .qos1 ((Setting.script [[3], [5, 0]] 100).after (connecting 1)) := by
  intro h
  have hsuccess : (publish longName [1] .qos1
      ((Setting.script [[3], [5, 0]] 100).after (connecting 1))).1 = .success := by
    decide +kernel
  have hqueue : .pub ∉ (publish longName [1] .qos1
      ((Setting.script [[3], [5, 0]] 100).after (connecting 1))).2.loop.clientList := by
    decide +kernel
  obtain ⟨rest, hrest⟩ := h hsuccess
  rw [hrest, NbiotTopicRegistry.clientsFor] at hqueue
  split at hqueue <;> simp at hqueue

end LibNbiot
