/-
# The state, the session and the socket

Three things say whether the library is connected: the state of the state
machine, the session flag of the client and the socket. They are changed at
different times, and the completion of a disconnect loop changes the last two in
whatever state it falls. For each of the states that promise something about the
others, this module states the situations in which the promise is broken, and
shows that it is kept in every run without them.
-/

import LibNbiot.Laws.History

namespace LibNbiot

open Logic.Program Relation

/-! ## Sleeping with an open socket -/

/-- The state before an entry. -/
def lastState : Log → Option StateId
  | [] => none
  | e :: _ => e.view.state

/-- The client went to sleep from the Connected state with an open socket, and
has not left the sleeping states since. -/
def openSleep : Log → Bool
  | [] => false
  | e :: t =>
      match e.event with
      | .app (.entered .connectedSleep) | .app (.entered .connectedAwake) =>
          if lastState t = some .connected then e.view.socket else openSleep t
      | .app (.entered _) => false
      | _ => openSleep t

/-- The client sleeps in the session it had when it was connected. -/
def Core.Sleeping (k : Core) : Prop :=
  k.state = some .connectedSleep ∨ k.state = some .connectedAwake

instance (k : Core) : Decidable k.Sleeping := by
  unfold Core.Sleeping
  infer_instance

/-- A client that went to sleep with an open socket still has it. -/
def SleepsOpen (k : Core) : Prop := k.Sleeping → openSleep k.trace = true → k.socket = true

instance (k : Core) : Decidable (SleepsOpen k) := by
  unfold SleepsOpen
  infer_instance

/-- No disconnect loop ends while the client sleeps. -/
def EndsAwake : EntryLaw
  | .answered .dis .stop _ _, v, _ => v.state ≠ some .connectedSleep ∧ v.state ≠ some .connectedAwake
  | _, _, _ => True

instance (e : LoopEvent ClientId SysEvent) (v : View) (t : Log) : Decidable (EndsAwake e v t) := by
  induction e using LoopEvent.casesOn with
  | answered c phase answer v =>
    induction c using ClientId.casesOn with
    | dis =>
      induction phase using LoopPhase.casesOn with
      | stop => exact inferInstanceAs (Decidable (_ ∧ _))
      | _ => exact .isTrue trivial
    | _ => exact .isTrue trivial
  | _ => exact .isTrue trivial

/-- What keeps the socket of a sleeping client. -/
def SocketKept (k : Core) : Prop := openSleep k.trace = true → k.Sleeping ∧ k.socket = true

namespace SocketKept

variable {k k' : Core}

theorem act (hk : SocketKept k) (h : Act k k') : SocketKept k' := by
  cases h with
  | note e h =>
    cases e <;> first
      | exact absurd h Bool.false_ne_true
      | exact hk
  | _ => exact hk

/-- A plug is pulled or put in only while awake. -/
theorem plug (hk : SocketKept k) (h : Plug k k') : SocketKept k' := by
  intro hopen
  cases h with
  | openSocket ok socket h =>
    obtain ⟨hsleep | hsleep, -⟩ := hk hopen <;> rcases h with h | h <;> simp [hsleep] at h
  | closeSocket ok h =>
    obtain ⟨hsleep | hsleep, -⟩ := hk hopen <;> rcases h with h | h <;> simp [hsleep] at h

theorem enter (hk : SocketKept k) (st : StateId) : SocketKept (k.enter st) := by
  intro hopen
  have entered (hopen : (if lastState k.trace = some .connected then k.socket
      else openSleep k.trace) = true) : k.socket = true := by
    split at hopen
    · exact hopen
    · exact (hk hopen).2
  cases st with
  | connectedSleep => exact ⟨.inl rfl, entered hopen⟩
  | connectedAwake => exact ⟨.inr rfl, entered hopen⟩
  | _ => cases hopen

theorem move (hk : SocketKept k) (h : Move k k') : SocketKept k' := by
  cases h with
  | enter st h => exact hk.enter st
  | _ => exact hk

theorem hand (hk : SocketKept k) (h : Hand k k') : SocketKept k' := by
  cases h with
  | countRetry c v w t hc hlog hleft =>
    simp only [Core.retry]
    split <;> exact hk
  | _ => exact hk

theorem turn (hk : SocketKept k) (h : Turn k k') : SocketKept k' := by
  cases h with
  | answer c phase v a h hactive hdis ha =>
    cases ha with
    | published v a k' h => cases h <;> exact hk
    | _ => exact hk
  | wrap c phase a hanswered hdis h => cases h <;> exact hk
  | _ => exact hk

theorem ending (h : Ending k k') (hC : Throughout EndsAwake k'.trace) (hk : SocketKept k) :
    SocketKept k' := by
  cases h with
  | closeSocket ok v w t hlog hstate =>
    intro hopen
    have hC : Throughout EndsAwake k.trace := hC.2
    rw [hlog] at hC
    obtain ⟨⟨hsleep, hawake⟩, -⟩ := hC
    rw [hstate] at hsleep hawake
    exact ((hk hopen).1.elim hsleep hawake).elim
  | wrap hanswered h => cases h <;> exact hk
  | _ => exact hk

theorem basic (h : Basic k k') (hC : Throughout EndsAwake k'.trace) (hk : SocketKept k) :
    SocketKept k' := by
  cases h with
  | act h => exact hk.act h
  | plug h => exact hk.plug h
  | move h => exact hk.move h
  | ready h => cases h <;> exact hk
  | lost => exact hk
  | hand h => exact hk.hand h
  | turn h => exact hk.turn h
  | ending h => exact ending h hC hk
  | call h =>
    cases h with
    | boot h => exact hk.enter .initial
    | _ => exact hk

end SocketKept

/-- **A sleeping client keeps its socket** in every run in which no disconnect
loop ends while it sleeps. -/
theorem sleepsOpen_after (setting : Setting) (calls : List ApiCall)
    (h : Obeys EndsAwake (setting.after calls).trace) : SleepsOpen (core (setting.after calls)) :=
  fun _ hopen => (holds_under_basic (I := SocketKept) (fun _ => nofun) setting calls
    SocketKept.basic h hopen).2

/-- A sleep without a duration sends no DISCONNECT. -/
theorem sleepsOpen_after_sleep :
    SleepsOpen (core ((Setting.script [[3], [5, 0]] 100).after (connecting 1 ++ [.sleep 0]))) :=
  sleepsOpen_after _ _ (by decide +kernel)

/-- When the gateway has answered the DISCONNECT of a sleeping client, its socket
is closed. -/
theorem not_sleepsOpen_after_disconnect :
    ¬SleepsOpen (core ((Setting.script [[3], [5, 0], [2], [24]] 100).after
      (connecting 1 ++ [.sleep 60, .eventLoop .active, .eventLoop .active]))) := by
  decide +kernel

/-! ## What leaves the connection alone -/

/-- The state, the session, the socket and the active client are as they were,
and no client has left the queue. -/
structure Alike (k k' : Core) : Prop where
  state : k'.state = k.state
  socket : k'.socket = k.socket
  isconnected : k'.isconnected = k.isconnected
  active : k'.loop.loopClient = k.loop.loopClient
  queue : k.loop.clientList ⊆ k'.loop.clientList

theorem Act.alike {k k' : Core} (h : Act k k') : Alike k k' := by
  cases h <;> first
    | exact ⟨rfl, rfl, rfl, rfl, List.Subset.refl _⟩
    | exact ⟨rfl, rfl, rfl, rfl, List.subset_append_left _ _⟩

theorem Ready.alike {k k' : Core} (h : Ready k k') : Alike k k' := by
  cases h <;> exact ⟨rfl, rfl, rfl, rfl, List.Subset.refl _⟩

theorem Hand.alike {k k' : Core} (h : Hand k k') : Alike k k' := by
  cases h with
  | countRetry c v w t hc hlog hleft =>
    simp only [Core.retry]
    split <;> exact ⟨rfl, rfl, rfl, rfl, List.Subset.refl _⟩
  | _ => exact ⟨rfl, rfl, rfl, rfl, List.Subset.refl _⟩

/-- Has a loop of the client just come to its end, or failed to start? -/
def JustEnded (c : ClientId) (t : Log) : Bool :=
  match t with
  | ⟨.answered d phase a _, _⟩ :: _ => c = d && (phase = .stop || (phase = .start && !a))
  | _ => false

/-- Only the controller's own steps bring a loop to its end. -/
theorem Quiet.just_ended {k k' : Core} (h : Quiet k k') (c : ClientId) :
    JustEnded c k'.trace = true → k'.trace = k.trace := by
  intro hended
  cases h with
  | act h => cases h <;> first | rfl | cases hended
  | plug h => cases h <;> cases hended
  | move h => cases h <;> cases hended
  | ready h => cases h <;> first | rfl | cases hended

theorem Hand.just_ended {k k' : Core} (h : Hand k k') (c : ClientId) :
    JustEnded c k'.trace = true → k'.trace = k.trace := by
  intro hended
  cases h with
  | countRetry d v w t hd hlog hleft =>
    simp only [Core.retry] at hended ⊢
    split at hended <;> cases hended
  | _ => first | rfl | cases hended

theorem Call.just_ended {k k' : Core} (h : Call k k') (c : ClientId) :
    JustEnded c k'.trace = true → k'.trace = k.trace := by
  intro hended
  cases h <;> cases hended

/-! ## The Connected state -/

/-- Nothing is queued, active or waiting in the dispatcher. -/
def Core.Quiescent (k : Core) : Prop :=
  k.loop.clientList = [] ∧ k.loop.loopClient = none ∧ k.events = [] ∧ k.pendingEvents = []

instance (k : Core) : Decidable k.Quiescent := by
  unfold Core.Quiescent
  infer_instance

/-- At rest the Connected state has a session and a socket. -/
def ConnectedMeans (k : Core) : Prop :=
  k.Quiescent → k.state = some .connected → k.isconnected = true ∧ k.socket = true

instance (k : Core) : Decidable (ConnectedMeans k) := by
  unfold ConnectedMeans
  infer_instance

/-- The Connected state is entered with a socket, and in a session or with a
connect request under way; in that state no disconnect loop ends, and without a
session no connect request fails or is dropped. -/
def ConnectionKept : EntryLaw
  | .app (.entered .connected), v, _ =>
      v.socket = true ∧ (v.isconnected = true ∨ .con ∈ v.queue ∨ v.active = some .con)
  | .answered .dis .stop _ _, v, _ => v.state ≠ some .connected
  | .answered .con phase a _, v, _ =>
      a = false → phase ≠ .step → v.state = some .connected → v.isconnected = true
  | .cleared active queue, v, _ =>
      v.state = some .connected →
        v.isconnected = true ∨ (active ≠ some .con ∧ .con ∉ queue)
  | _, _, _ => True

instance (e : LoopEvent ClientId SysEvent) (v : View) (t : Log) :
    Decidable (ConnectionKept e v t) := by
  induction e using LoopEvent.casesOn with
  | app e =>
    induction e using SysEvent.casesOn with
    | entered st =>
      induction st using StateId.casesOn with
      | connected => exact inferInstanceAs (Decidable (_ ∧ _))
      | _ => exact .isTrue trivial
    | _ => exact .isTrue trivial
  | answered c phase answer v =>
    induction c using ClientId.casesOn with
    | dis =>
      induction phase using LoopPhase.casesOn with
      | stop => exact inferInstanceAs (Decidable (_ ≠ _))
      | _ => exact .isTrue trivial
    | con => exact inferInstanceAs (Decidable (_ → _ → _ → _))
    | _ => exact .isTrue trivial
  | cleared active queue => exact inferInstanceAs (Decidable (_ → _))
  | _ => exact .isTrue trivial

/-- A session, or a connect request that is under way to one. -/
def Core.Connecting (k : Core) : Prop :=
  k.isconnected = true ∨ .con ∈ k.loop.clientList ∨ k.loop.loopClient = some .con

/-- What keeps the Connected state connected. A connect loop that has just come to
its end leaves a session behind. -/
structure Linked (k : Core) : Prop where
  link : k.state = some .connected → k.socket = true ∧ k.Connecting
  ended : k.state = some .connected → JustEnded .con k.trace = true → k.isconnected = true

namespace Linked

variable {k k' : Core}

theorem of_alike (hk : Linked k) (h : Alike k k')
    (hended : JustEnded .con k'.trace = true → k'.trace = k.trace) : Linked k' := by
  refine ⟨fun hst => ?_, fun hst hend => ?_⟩
  · obtain ⟨hsocket, hlink⟩ := hk.link (h.state ▸ hst)
    refine ⟨h.socket.trans hsocket, hlink.imp (h.isconnected.trans ·) ?_⟩
    exact Or.imp (fun hq => h.queue hq) (h.active.trans ·)
  · rw [h.isconnected]
    exact hk.ended (h.state ▸ hst) (hended hend ▸ hend)

/-- Outside of the Connected state there is nothing to keep. -/
theorem of_state (h : k.state ≠ some .connected) : Linked k :=
  ⟨fun hst => absurd hst h, fun hst => absurd hst h⟩

theorem quiet (h : Quiet k k') (hC : Throughout ConnectionKept k'.trace) (hk : Linked k) :
    Linked k' := by
  have hended := h.just_ended .con
  cases h with
  | act h => exact hk.of_alike h.alike hended
  | ready h => exact hk.of_alike h.alike hended
  | plug h =>
    refine .of_state ?_
    cases h with
    | openSocket ok socket h => rcases h with h | h <;> exact fun hst => nomatch h.symm.trans hst
    | closeSocket ok h => rcases h with h | h <;> exact fun hst => nomatch h.symm.trans hst
  | move h =>
    cases h with
    | enter st h =>
      refine ⟨fun hst => ?_, fun _ => nofun⟩
      obtain rfl : st = .connected := Option.some.inj hst
      exact hC.1
    | _ => exact hk.of_alike ⟨rfl, rfl, rfl, rfl, List.Subset.refl _⟩ hended

theorem wrap {c : ClientId} {phase : LoopPhase} {a : Bool} (hanswered : Answered c phase a k)
    (h : Wrap c phase a k k') (hk : Linked k) : Linked k' := by
  cases h with
  | result r h => exact hk.of_alike ⟨rfl, rfl, rfl, rfl, List.Subset.refl _⟩ fun _ => rfl
  | value => exact hk.of_alike ⟨rfl, rfl, rfl, rfl, List.Subset.refl _⟩ fun _ => rfl
  | letGo id hactive h =>
    refine ⟨fun hst => ?_, hk.ended⟩
    obtain ⟨hsocket, hlink⟩ := hk.link hst
    refine ⟨hsocket, ?_⟩
    rcases hlink with hconn | hqueue | hcon
    · exact .inl hconn
    · exact .inr (.inl hqueue)
    · obtain rfl : c = .con := Option.some.inj (hactive.symm.trans hcon)
      refine .inl (hk.ended hst ?_)
      obtain ⟨v, w, t, hlog⟩ := hanswered
      rw [hlog]
      rcases h with rfl | ⟨rfl, rfl⟩ <;> rfl

theorem answer {c : ClientId} {phase : LoopPhase} {v : Int} {a : Bool}
    (hdis : c = .dis → phase ≠ .stop) (ha : Answer k c phase v a k')
    (hC : Throughout ConnectionKept (k'.log (.answered c phase a (k'.value c))).trace)
    (hk : Linked k) : Linked (k'.log (.answered c phase a (k'.value c))) := by
  have kept : k'.state = k.state ∧ k'.socket = k.socket ∧ k'.loop = k.loop ∧
      (k.isconnected = true → k'.isconnected = true) := by
    cases ha with
    | published v a k' h => cases h <;> exact ⟨rfl, rfl, rfl, id⟩
    | connected v => exact ⟨rfl, rfl, rfl, fun _ => rfl⟩
    | disconnected v => exact absurd rfl (hdis rfl)
    | _ => exact ⟨rfl, rfl, rfl, id⟩
  obtain ⟨hstate, hsocket, hloop, hconn⟩ := kept
  refine ⟨fun hst => ?_, fun hst hended => ?_⟩
  · obtain ⟨hopen, hlink⟩ := hk.link (hstate ▸ hst)
    refine ⟨hsocket.trans hopen, hlink.imp hconn ?_⟩
    change _ → .con ∈ k'.loop.clientList ∨ k'.loop.loopClient = some .con
    rw [hloop]
    exact id
  · obtain ⟨rfl, hphase⟩ : .con = c ∧ (phase = .stop ∨ (phase = .start ∧ a = false)) := by
      simpa [JustEnded, Core.log] using hended
    cases a with
    | false =>
      refine hC.1 rfl (fun hstep => ?_) hst
      obtain rfl | ⟨rfl, -⟩ := hphase <;> cases hstep
    | true =>
      obtain rfl : phase = .stop := by simpa using hphase
      cases ha
      rfl

theorem turn (h : Turn k k') (hC : Throughout ConnectionKept k'.trace) (hk : Linked k) :
    Linked k' := by
  have called (e : LoopEvent ClientId SysEvent) (he : JustEnded .con (k.log e).trace = false) :
      Linked (k.log e) :=
    hk.of_alike ⟨rfl, rfl, rfl, rfl, List.Subset.refl _⟩ fun h => by simp [he] at h
  cases h with
  | clear h =>
    refine ⟨fun hst => ?_, fun _ => nofun⟩
    obtain ⟨hsocket, hlink⟩ := hk.link hst
    refine ⟨hsocket, .inl (hlink.elim id fun hcon => ?_)⟩
    exact (hC.1 hst).resolve_right fun ⟨hactive, hqueue⟩ => hcon.elim hqueue hactive
  | take c queue h hactive hqueue =>
    refine ⟨fun hst => ?_, fun _ => nofun⟩
    obtain ⟨hsocket, hlink⟩ := hk.link hst
    refine ⟨hsocket, ?_⟩
    rcases hlink with hconn | hcon | hcon
    · exact .inl hconn
    · rw [hqueue] at hcon
      rcases List.mem_cons.1 hcon with rfl | hcon
      · exact .inr (.inr rfl)
      · exact .inr (.inl hcon)
    · simp [hactive] at hcon
  | answer c phase v a h hactive hdis ha => exact answer hdis ha hC hk
  | wrap c phase a hanswered hdis h => exact wrap hanswered h hk
  | callStart c r v t hactive hlog hr => exact called _ rfl
  | callStep c h hactive hr => exact called _ rfl
  | callStop c v t hactive hlog => exact called _ rfl
  | resetBreak => exact hk.of_alike ⟨rfl, rfl, rfl, rfl, List.Subset.refl _⟩ fun _ => rfl
  | idle hactive => exact hk.of_alike ⟨rfl, rfl, rfl, rfl, List.Subset.refl _⟩ fun _ => rfl

theorem ending (h : Ending k k') (hC : Throughout ConnectionKept k'.trace) (hk : Linked k) :
    Linked k' := by
  cases h with
  | answer v h hactive => exact .of_state hC.1
  | wrap hanswered h => exact wrap hanswered h hk
  | closeSocket ok v w t hlog hstate =>
    have hC : Throughout ConnectionKept k.trace := hC.2
    rw [hlog] at hC
    refine .of_state fun hst => hC.1 ?_
    rw [hstate]
    exact hst
  | setBreak => exact hk.of_alike ⟨rfl, rfl, rfl, rfl, List.Subset.refl _⟩ fun _ => rfl

theorem call (h : Call k k') (hk : Linked k) : Linked k' := by
  have hended := h.just_ended .con
  cases h with
  | boot h => exact .of_state nofun
  | publish id q hactive hqueue =>
    exact hk.of_alike ⟨rfl, rfl, rfl, rfl, List.subset_append_left _ _⟩ hended
  | subscribe id q hactive hqueue hsub =>
    exact hk.of_alike ⟨rfl, rfl, rfl, rfl, List.subset_append_left _ _⟩ hended
  | _ => exact hk.of_alike ⟨rfl, rfl, rfl, rfl, List.Subset.refl _⟩ hended

theorem step (h : Step k k') (hC : Throughout ConnectionKept k'.trace) (hk : Linked k) :
    Linked k' :=
  keeps_step quiet (fun h _ _ => .of_state h.left)
    (fun h _ hk => hk.of_alike h.alike (h.just_ended .con)) turn
    (fun h hC hk => keeps_run (fun h => .single (.ending h)) ending h.run hC hk)
    (fun h _ hk => call h hk) h hC hk

end Linked

/-- **The Connected state means connected** in every run that keeps the connection
while it is in that state. -/
theorem connectedMeans_after (setting : Setting) (calls : List ApiCall)
    (h : Obeys ConnectionKept (setting.after calls).trace) :
    ConnectedMeans (core (setting.after calls)) := by
  intro hrest hst
  have hlinked := holds_under (I := Linked) (fun _ => .of_state nofun) setting calls
    (fun h _ hC hk => hk.step h hC) h
  obtain ⟨hsocket, hconn | hqueue | hactive⟩ := hlinked.link hst
  · exact ⟨hconn, hsocket⟩
  · simp [hrest.1] at hqueue
  · simp [hrest.2.1] at hactive

/-- A connection that is just left alone. -/
theorem connectedMeans_after_connect :
    ConnectedMeans (core ((Setting.script [[3], [5, 0]] 100).after (connecting 1))) :=
  connectedMeans_after _ _ (by decide +kernel)

/-- After a sleep whose DISCONNECT was answered, waking up enters the Connected
state without a socket, and the CONNECT cannot be sent. -/
theorem not_connectedMeans_after_wakeup :
    ¬ConnectedMeans (core ((Setting.script [[3], [5, 0], [2], [24]] 100).after
      (connecting 1 ++
        [.sleep 60, .eventLoop .active, .eventLoop .active, .wakeup, .eventLoop .active]))) := by
  decide +kernel

/-! ## The Disconnected state -/

/-- At rest the Disconnected state has neither a session nor a socket. -/
def DisconnectedMeans (k : Core) : Prop :=
  k.Quiescent → k.state = some .disconnected → k.isconnected = false ∧ k.socket = false

instance (k : Core) : Decidable (DisconnectedMeans k) := by
  unfold DisconnectedMeans
  infer_instance

/-- Closing the socket never fails. -/
def NetworkCloses : EntryLaw
  | .app (.socketClosed ok), _, _ => ok = true
  | _, _, _ => True

instance (e : LoopEvent ClientId SysEvent) (v : View) (t : Log) :
    Decidable (NetworkCloses e v t) := by
  induction e using LoopEvent.casesOn with
  | app e =>
    induction e using SysEvent.casesOn with
    | socketClosed ok => exact inferInstanceAs (Decidable (_ = _))
    | _ => exact .isTrue trivial
  | _ => exact .isTrue trivial

/-- In the Disconnected state, unless all is closed, no disconnect request is
dropped or fails to start, and no connect loop ends well without a disconnect
request behind it. -/
def DisconnectKept : EntryLaw
  | .cleared active queue, v, _ =>
      v.state = some .disconnected →
        (v.isconnected = false ∧ v.socket = false) ∨ (active ≠ some .dis ∧ .dis ∉ queue)
  | .answered .dis .start false _, v, _ =>
      v.state = some .disconnected → v.isconnected = false ∧ v.socket = false
  | .answered .con .stop true _, v, _ => v.state = some .disconnected → .dis ∈ v.queue
  | _, _, _ => True

instance (e : LoopEvent ClientId SysEvent) (v : View) (t : Log) :
    Decidable (DisconnectKept e v t) := by
  induction e using LoopEvent.casesOn with
  | cleared active queue => exact inferInstanceAs (Decidable (_ → _))
  | answered c phase answer v =>
    induction c using ClientId.casesOn with
    | dis =>
      induction phase using LoopPhase.casesOn with
      | start =>
        induction answer using Bool.casesOn with
        | false => exact inferInstanceAs (Decidable (_ → _))
        | true => exact .isTrue trivial
      | _ => exact .isTrue trivial
    | con =>
      induction phase using LoopPhase.casesOn with
      | stop =>
        induction answer using Bool.casesOn with
        | true => exact inferInstanceAs (Decidable (_ → _))
        | false => exact .isTrue trivial
      | _ => exact .isTrue trivial
    | _ => exact .isTrue trivial
  | _ => exact .isTrue trivial

theorem closeFailed_of_suffix {t t' : Log} (hs : t <:+ t') (h : closeFailed t = true) :
    closeFailed t' = true := by
  obtain ⟨new, rfl⟩ := hs
  induction new with
  | nil => exact h
  | cons e new ih =>
    simp only [List.cons_append, closeFailed]
    split
    · rfl
    · exact ih

theorem closeFailed_eq_false {t : Log} (h : Throughout NetworkCloses t) : closeFailed t = false := by
  induction t with
  | nil => rfl
  | cons e t ih =>
    obtain ⟨hnew, hold⟩ := h
    unfold closeFailed
    split
    · rename_i heq
      rw [heq] at hnew
      cases hnew
    · exact ih hold

theorem Core.Closed.of_alike {k k' : Core} (hk : k.Closed) (h : Alike k k')
    (hs : k.trace <:+ k'.trace) : k'.Closed :=
  ⟨h.isconnected.trans hk.1, hk.2.imp (h.socket.trans ·) (closeFailed_of_suffix hs)⟩

/-- What keeps the Disconnected state disconnected: a disconnect request is under
way, or all is closed. -/
def Released (k : Core) : Prop :=
  k.state = some .disconnected → .dis ∈ k.loop.clientList ∨
    (k.loop.loopClient = some .dis ∧ JustEnded .dis k.trace = false) ∨ k.Closed

namespace Released

variable {k k' : Core}

theorem of_alike (hk : Released k) (h : Alike k k') (hs : k.trace <:+ k'.trace)
    (hended : JustEnded .dis k'.trace = true → k'.trace = k.trace) : Released k' := by
  intro hst
  rcases hk (h.state ▸ hst) with hqueue | ⟨hactive, hgoes⟩ | hclosed
  · exact .inl (h.queue hqueue)
  · refine .inr (.inl ⟨h.active.trans hactive, Bool.eq_false_iff.2 fun hend => ?_⟩)
    rw [← hended hend, hend] at hgoes
    cases hgoes
  · exact .inr (.inr (hclosed.of_alike h hs))

theorem dispatching (h : Dispatching k k') (hk : Released k) : Released k' := by
  cases h with
  | handled h => exact fun hst => (h.disconnected hst).imp id .inr
  | ready h =>
    have hquiet : Quiet k k' := .ready h
    exact hk.of_alike h.alike hquiet.basic.suffix (hquiet.just_ended .dis)

theorem serving (h : Serving k k') (hk : Released k) : Released k' := by
  cases h with
  | act h =>
    have hquiet : Quiet k k' := .act h
    exact hk.of_alike h.alike hquiet.basic.suffix (hquiet.just_ended .dis)
  | dispatch h =>
    obtain ⟨hrun, -⟩ := h
    induction hrun with
    | refl => exact hk
    | tail _ h ih => exact dispatching h ih

theorem serve (h : Serve k k') (hk : Released k) : Released k' := by
  cases h with
  | serving h => exact serving h hk
  | gone h =>
    obtain ⟨hrun, -⟩ := h
    have lost : Released { k with isconnected := false } := fun hst =>
      (hk hst).imp_right (Or.imp_right fun hclosed => ⟨rfl, hclosed.2⟩)
    induction hrun with
    | refl => exact lost
    | tail _ h ih => exact serving h ih

theorem answer {c : ClientId} {phase : LoopPhase} {v : Int} {a : Bool}
    (hdis : c = .dis → phase ≠ .stop) (ha : Answer k c phase v a k')
    (hC : Throughout DisconnectKept (k'.log (.answered c phase a (k'.value c))).trace)
    (hk : Released k) : Released (k'.log (.answered c phase a (k'.value c))) := by
  have kept : k'.state = k.state ∧ k'.socket = k.socket ∧ k'.loop = k.loop ∧
      (k'.isconnected = k.isconnected ∨ (c = .con ∧ phase = .stop ∧ a = true)) := by
    cases ha with
    | published v a k' h => cases h <;> exact ⟨rfl, rfl, rfl, .inl rfl⟩
    | connected v => exact ⟨rfl, rfl, rfl, .inr ⟨rfl, rfl, rfl⟩⟩
    | disconnected v => exact absurd rfl (hdis rfl)
    | _ => exact ⟨rfl, rfl, rfl, .inl rfl⟩
  obtain ⟨hstate, hsocket, hloop, hconn | ⟨rfl, rfl, rfl⟩⟩ := kept
  · intro hst
    have hclosed (h : k.Closed) : (k'.log (.answered c phase a (k'.value c))).Closed := by
      refine ⟨hconn.trans h.1, h.2.imp (hsocket.trans ·) fun hfailed => ?_⟩
      rw [← ha.trace] at hfailed
      exact hfailed
    rcases hk (hstate ▸ hst) with hqueue | ⟨hactive, hgoes⟩ | h
    · exact .inl ((congrArg NbiotLoop.clientList hloop).symm ▸ hqueue)
    · by_cases hended : c = .dis ∧ phase = .start ∧ a = false
      · obtain ⟨rfl, rfl, rfl⟩ := hended
        exact .inr (.inr ⟨(hC.1 hst).1, .inl (hC.1 hst).2⟩)
      · refine .inr (.inl ⟨(congrArg NbiotLoop.loopClient hloop).trans hactive, ?_⟩)
        by_contra hend
        obtain ⟨rfl, hphase⟩ : .dis = c ∧ (phase = .stop ∨ (phase = .start ∧ a = false)) := by
          simpa [JustEnded, Core.log, -Classical.not_imp, Classical.or_iff_not_imp_left] using hend
        exact hphase.elim (hdis rfl) fun h => hended ⟨rfl, h⟩
    · exact .inr (.inr (hclosed h))
  · exact fun hst => .inl (hC.1 hst)

theorem wrap {c : ClientId} {phase : LoopPhase} {a : Bool} (hanswered : Answered c phase a k)
    (h : Wrap c phase a k k') (hk : Released k) : Released k' := by
  cases h with
  | result r h =>
    exact hk.of_alike ⟨rfl, rfl, rfl, rfl, List.Subset.refl _⟩ List.suffix_rfl fun _ => rfl
  | value => exact hk.of_alike ⟨rfl, rfl, rfl, rfl, List.Subset.refl _⟩ List.suffix_rfl fun _ => rfl
  | letGo id hactive h =>
    intro hst
    rcases hk hst with hqueue | ⟨hdis, hgoes⟩ | hclosed
    · exact .inl hqueue
    · obtain rfl : c = .dis := Option.some.inj (hactive.symm.trans hdis)
      obtain ⟨v, w, t, hlog⟩ := hanswered
      rw [hlog] at hgoes
      rcases h with rfl | ⟨rfl, rfl⟩ <;> cases hgoes
    · exact .inr (.inr hclosed)

theorem turn (h : Turn k k') (hC : Throughout DisconnectKept k'.trace) (hk : Released k) :
    Released k' := by
  have called (e : LoopEvent ClientId SysEvent) (he : JustEnded .dis (k.log e).trace = false) :
      Released (k.log e) :=
    hk.of_alike ⟨rfl, rfl, rfl, rfl, List.Subset.refl _⟩ (List.suffix_cons _ _)
      fun h => by simp [he] at h
  cases h with
  | clear h =>
    intro hst
    refine .inr (.inr ?_)
    rcases hC.1 hst with hclosed | ⟨hactive, hqueue⟩
    · exact ⟨hclosed.1, .inl hclosed.2⟩
    · rcases hk hst with h | h | h
      · exact absurd h hqueue
      · exact absurd h.1 hactive
      · exact h
  | take c queue h hactive hqueue =>
    intro hst
    rcases hk hst with hdis | hdis | hclosed
    · rw [hqueue] at hdis
      rcases List.mem_cons.1 hdis with rfl | hdis
      · exact .inr (.inl ⟨rfl, rfl⟩)
      · exact .inl hdis
    · simp [hactive] at hdis
    · exact .inr (.inr hclosed)
  | answer c phase v a h hactive hdis ha => exact answer hdis ha hC hk
  | wrap c phase a hanswered hdis h => exact wrap hanswered h hk
  | callStart c r v t hactive hlog hr => exact called _ rfl
  | callStep c h hactive hr => exact called _ rfl
  | callStop c v t hactive hlog => exact called _ rfl
  | resetBreak =>
    exact hk.of_alike ⟨rfl, rfl, rfl, rfl, List.Subset.refl _⟩ List.suffix_rfl fun _ => rfl
  | idle hactive =>
    exact hk.of_alike ⟨rfl, rfl, rfl, rfl, List.Subset.refl _⟩ List.suffix_rfl fun _ => rfl

theorem call (h : Call k k') (hk : Released k) : Released k' := by
  have hended := h.just_ended .dis
  have hs : k.trace <:+ k'.trace := Basic.suffix (.call h)
  cases h with
  | boot h => exact fun hst => nomatch hst
  | publish id q hactive hqueue =>
    exact hk.of_alike ⟨rfl, rfl, rfl, rfl, List.subset_append_left _ _⟩ hs hended
  | subscribe id q hactive hqueue hsub =>
    exact hk.of_alike ⟨rfl, rfl, rfl, rfl, List.subset_append_left _ _⟩ hs hended
  | _ => exact hk.of_alike ⟨rfl, rfl, rfl, rfl, List.Subset.refl _⟩ hs hended

theorem step (h : Step k k') (hC : Throughout DisconnectKept k'.trace) (hk : Released k) :
    Released k' := by
  cases h with
  | handler h =>
    cases h with
    | serve h => exact serve h hk
    | hand h => exact hk.of_alike h.alike (Basic.suffix (.hand h)) (h.just_ended .dis)
  | turn h => exact turn h hC hk
  | ended h => exact fun _ => .inr (.inr h.closed)
  | call h => exact call h hk

end Released

/-- **The Disconnected state means disconnected**, the network closing its socket
when told to, in every run that keeps the disconnect requests of that state. -/
theorem disconnectedMeans_after (setting : Setting) (calls : List ApiCall)
    (hnet : Obeys NetworkCloses (setting.after calls).trace)
    (h : Obeys DisconnectKept (setting.after calls).trace) :
    DisconnectedMeans (core (setting.after calls)) := by
  intro hrest hst
  have hreleased := holds_under (I := Released) (fun _ => nofun) setting calls
    (fun h _ hC hk => Released.step h hC hk) h
  rcases hreleased hst with hqueue | ⟨hactive, -⟩ | ⟨hconn, hsocket⟩
  · simp [hrest.1] at hqueue
  · simp [hrest.2.1] at hactive
  · have hfailed : closeFailed (core (setting.after calls)).trace = false :=
      closeFailed_eq_false hnet.throughout
    exact ⟨hconn, hsocket.resolve_right fun h => by simp [hfailed] at h⟩

/-- A disconnect that the gateway answers. -/
theorem disconnectedMeans_after_disconnect :
    DisconnectedMeans (core ((Setting.script [[3], [5, 0], [2], [24]] 100).after
      (connecting 1 ++ [.disconnect, .eventLoop .active, .eventLoop .active]))) :=
  disconnectedMeans_after _ _ (by decide +kernel) (by decide +kernel)

/-- A DISCONNECT that cannot be sent leaves the session and the socket open. -/
theorem not_disconnectedMeans_after_send_failure :
    ¬(Obeys NetworkCloses ((Setting.script [[3], [5, 0]] 100 0 fun d n => d = .write && n = 1).after
          (connecting 1 ++ [.disconnect, .eventLoop .active])).trace →
        DisconnectedMeans (core ((Setting.script [[3], [5, 0]] 100 0
          fun d n => d = .write && n = 1).after
            (connecting 1 ++ [.disconnect, .eventLoop .active])))) := by
  decide +kernel

end LibNbiot
