/-
# Machines for the parts of the session

The step relations of the session as machines, one inside the other, with the
invariant about the events of the dispatcher that lets a whole `dispatch` be a
single step: between two of them only posted events are waiting. With each
machine comes what its steps leave alone.
-/

import LibNbiot.Session.Steps

namespace LibNbiot

open Logic.Program Relation

/-! ## Events between dispatches -/

/-- Only posted events wait to be made ready. -/
def Core.PendingOk (k : Core) : Prop := ∀ e ∈ k.pendingEvents, e.postable = true

/-- Only posted events are ready or wait to be made ready. -/
def Core.Steady (k : Core) : Prop := (∀ e ∈ k.events, e.postable = true) ∧ k.PendingOk

/-! ## What a packet handler leaves alone -/

/-- The loop controller and the running handler are as they were. -/
structure Unmoved (k k' : Core) : Prop where
  active : k'.loop.loopClient = k.loop.loopClient
  loopId : k'.loop.loopId = k.loop.loopId
  result : k'.result = k.result
  running : running k'.trace = running k.trace
  maxRetry : k'.maxRetry = k.maxRetry

/-- So are the packet that was read and the buffer it is in. -/
structure Unread (k k' : Core) : Prop extends Unmoved k k' where
  readbuf : k'.readbuf = k.readbuf
  received : lastReceived k'.trace = lastReceived k.trace

namespace Unmoved

variable {k k' k'' : Core}

theorem refl (k : Core) : Unmoved k k := ⟨rfl, rfl, rfl, rfl, rfl⟩

theorem trans (h : Unmoved k k') (h' : Unmoved k' k'') : Unmoved k k'' :=
  ⟨h'.active.trans h.active, h'.loopId.trans h.loopId, h'.result.trans h.result,
    h'.running.trans h.running, h'.maxRetry.trans h.maxRetry⟩

end Unmoved

namespace Unread

variable {k k' k'' : Core}

theorem refl (k : Core) : Unread k k := ⟨.refl k, rfl, rfl⟩

theorem trans (h : Unread k k') (h' : Unread k' k'') : Unread k k'' :=
  ⟨h.toUnmoved.trans h'.toUnmoved, h'.readbuf.trans h.readbuf, h'.received.trans h.received⟩

theorem of_run {R : Core → Core → Prop} (h : ∀ {k k'}, R k k' → Unread k k')
    (hrun : ReflTransGen R k k') : Unread k k' := by
  induction hrun with
  | refl => exact .refl k
  | tail _ hstep ih => exact ih.trans (h hstep)

end Unread

theorem unread_emit {k : Core} {e : SysEvent} (h : lastReceived (⟨.app e, k.view⟩ :: k.trace) =
    lastReceived k.trace) : Unread k (k.emit e) :=
  ⟨⟨rfl, rfl, rfl, rfl, rfl⟩, rfl, h⟩

theorem Act.unread {k k' : Core} (h : Act k k') : Unread k k' := by
  cases h with
  | note e h =>
    refine unread_emit ?_
    cases e <;> first | rfl | cases h
  | _ => exact ⟨⟨rfl, rfl, rfl, rfl, rfl⟩, rfl, rfl⟩

theorem Move.unread {k k' : Core} (h : Move k k') : Unread k k' := by
  cases h <;> exact ⟨⟨rfl, rfl, rfl, rfl, rfl⟩, rfl, rfl⟩

theorem Ready.unread {k k' : Core} (h : Ready k k') : Unread k k' := by
  cases h <;> exact ⟨⟨rfl, rfl, rfl, rfl, rfl⟩, rfl, rfl⟩

theorem Plug.unread {k k' : Core} (h : Plug k k') : Unread k k' := by
  cases h <;> exact ⟨⟨rfl, rfl, rfl, rfl, rfl⟩, rfl, rfl⟩

theorem Action.unread {k k' : Core} (h : Action k k') : Unread k k' := by
  cases h with
  | act h => exact h.unread
  | plug h => exact h.unread

theorem Handling.unread {k k' : Core} (h : Handling k k') : Unread k k' := by
  cases h with
  | action h => exact h.unread
  | move h => exact h.unread

theorem Dispatching.unread {k k' : Core} (h : Dispatching k k') : Unread k k' := by
  cases h with
  | handled h => exact .of_run Handling.unread h.run
  | ready h => exact h.unread

theorem Serving.unread {k k' : Core} (h : Serving k k') : Unread k k' := by
  cases h with
  | act h => exact h.unread
  | dispatch h => exact .of_run Dispatching.unread h.run

theorem Serve.unread {k k' : Core} (h : Serve k k') : Unread k k' := by
  cases h with
  | serving h => exact h.unread
  | gone h =>
    have lost : Unread k { k with isconnected := false } := ⟨⟨rfl, rfl, rfl, rfl, rfl⟩, rfl, rfl⟩
    exact lost.trans (.of_run Serving.unread h.run)

theorem Hand.unmoved {k k' : Core} (h : Hand k k') : Unmoved k k' := by
  cases h with
  | countRetry c v w t hc hlog hleft =>
    simp only [Core.retry]
    split <;> exact ⟨rfl, rfl, rfl, rfl, rfl⟩
  | _ => exact ⟨rfl, rfl, rfl, rfl, rfl⟩

theorem Handler.unmoved {k k' : Core} (h : Handler k k') : Unmoved k k' := by
  cases h with
  | serve h => exact h.unread.toUnmoved
  | hand h => exact h.unmoved

theorem Act.endedPublish {k k' : Core} (h : Act k k') :
    endedPublish k'.trace = endedPublish k.trace := by
  cases h <;> rfl

/-! ## What the handling of an event leaves alone -/

/-- The dispatcher and the call in progress are as they were. -/
structure Undisturbed (k k' : Core) : Prop where
  events : k'.events = k.events
  dispatching : dispatching k'.trace = dispatching k.trace
  setInCall : setInCall k'.trace = setInCall k.trace
  duration : k'.duration = k.duration

theorem Undisturbed.refl (k : Core) : Undisturbed k k := ⟨rfl, rfl, rfl, rfl⟩

theorem Undisturbed.trans {k k' k'' : Core} (h : Undisturbed k k') (h' : Undisturbed k' k'') :
    Undisturbed k k'' :=
  ⟨h'.events.trans h.events, h'.dispatching.trans h.dispatching, h'.setInCall.trans h.setInCall,
    h'.duration.trans h.duration⟩

theorem Act.undisturbed {k k' : Core} (h : Act k k') : Undisturbed k k' := by
  cases h with
  | note e h => cases e <;> first | exact ⟨rfl, rfl, rfl, rfl⟩ | cases h
  | _ => exact ⟨rfl, rfl, rfl, rfl⟩

theorem Action.undisturbed {k k' : Core} (h : Action k k') : Undisturbed k k' := by
  cases h with
  | act h => exact h.undisturbed
  | plug h => cases h <;> exact ⟨rfl, rfl, rfl, rfl⟩

theorem Handling.undisturbed {k k' : Core} (h : Handling k k') : Undisturbed k k' := by
  cases h with
  | action h => exact h.undisturbed
  | move h => cases h <;> exact ⟨rfl, rfl, rfl, rfl⟩

theorem Allowed.of_undisturbed {e : StmEvent} {k k' : Core} (h : Allowed e k.trace)
    (hk : Undisturbed k k') : Allowed e k'.trace := by
  rw [Allowed, hk.dispatching, hk.setInCall]
  exact h

/-! ## The machines -/

theorem Act.pendingOk {k k' : Core} (hk : k.PendingOk) (h : Act k k') : k'.PendingOk := by
  cases h with
  | post e h =>
    intro e' he'
    rcases List.mem_append.1 he' with he' | he'
    · exact hk e' he'
    · rw [List.mem_singleton.1 he']
      exact h
  | _ => exact hk

theorem Action.pendingOk {k k' : Core} (hk : k.PendingOk) (h : Action k k') : k'.PendingOk := by
  cases h with
  | act h => exact h.pendingOk hk
  | plug h => cases h <;> exact hk

theorem Handling.pendingOk {k k' : Core} (hk : k.PendingOk) (h : Handling k k') :
    k'.PendingOk := by
  cases h with
  | action h => exact h.pendingOk hk
  | move h => cases h <;> exact hk

/-- What is done at any time. -/
def actMachine : Machine Core where
  Step := Act
  Inv := Core.PendingOk
  keeps := fun hk h => h.pendingOk hk

/-- What an action of the state machine does. -/
def actionMachine : Machine Core where
  Step := Action
  Inv := Core.PendingOk
  keeps := fun hk h => h.pendingOk hk

/-- What is done while an event is handled. -/
def handlingMachine : Machine Core where
  Step := Handling
  Inv := Core.PendingOk
  keeps := fun hk h => h.pendingOk hk

theorem Dispatching.pendingOk {k k' : Core} (hk : k.PendingOk) (h : Dispatching k k') :
    k'.PendingOk := by
  cases h with
  | handled h => exact Machine.Run.inv (A := handlingMachine) h.run hk
  | ready h =>
    cases h with
    | look left => exact hk
    | queue es => exact hk
    | swap => intro e he; cases he

/-- What is done in a dispatch. -/
def dispatchMachine : Machine Core where
  Step := Dispatching
  Inv := Core.PendingOk
  keeps := fun hk h => h.pendingOk hk

theorem Act.steady {k k' : Core} (hk : k.Steady) (h : Act k k') : k'.Steady :=
  ⟨by rw [h.undisturbed.events]; exact hk.1, h.pendingOk hk.2⟩

theorem Serving.steady {k k' : Core} (hk : k.Steady) (h : Serving k k') : k'.Steady := by
  cases h with
  | act h => exact h.steady hk
  | dispatch h => exact ⟨h.events, Machine.Run.inv (A := dispatchMachine) h.run hk.2⟩

/-- What is done for a packet, the end of the session aside. -/
def servingMachine : Machine Core where
  Step := Serving
  Inv := Core.Steady
  keeps := fun hk h => h.steady hk

theorem Serve.steady {k k' : Core} (hk : k.Steady) (h : Serve k k') : k'.Steady := by
  cases h with
  | serving h => exact h.steady hk
  | gone h => exact Machine.Run.inv (A := servingMachine) h.run hk

/-- What is done for a packet. -/
def serveMachine : Machine Core where
  Step := Serve
  Inv := Core.Steady
  keeps := fun hk h => h.steady hk

theorem Hand.steady {k k' : Core} (hk : k.Steady) (h : Hand k k') : k'.Steady := by
  cases h with
  | countRetry c v w t hc hlog hleft =>
    simp only [Core.retry]
    split <;> exact hk
  | _ => exact hk

theorem Handler.steady {k k' : Core} (hk : k.Steady) (h : Handler k k') : k'.Steady := by
  cases h with
  | serve h => exact h.steady hk
  | hand h => exact h.steady hk

/-- What a handler of a loop client does. -/
def handlerMachine : Machine Core where
  Step := Handler
  Inv := Core.Steady
  keeps := fun hk h => h.steady hk

theorem Answer.steady {k k' : Core} {c : ClientId} {phase : LoopPhase} {v : Int} {a : Bool}
    (hk : k.Steady) (h : Answer k c phase v a k') : k'.Steady := by
  cases h with
  | published v a k' h => cases h <;> exact hk
  | _ => exact hk

theorem Wrap.steady {k k' : Core} {c : ClientId} {phase : LoopPhase} {a : Bool} (hk : k.Steady)
    (h : Wrap c phase a k k') : k'.Steady := by
  cases h <;> exact hk

theorem Turn.steady {k k' : Core} (hk : k.Steady) (h : Turn k k') : k'.Steady := by
  cases h with
  | answer c phase v a h hactive hdis ha =>
    have hk' := ha.steady hk
    exact hk'
  | wrap c phase a hanswered hdis h => exact h.steady hk
  | _ => exact hk

theorem Ending.steady {k k' : Core} (hk : k.Steady) (h : Ending k k') : k'.Steady := by
  cases h with
  | wrap hanswered h => exact h.steady hk
  | _ => exact hk

/-- The end of a disconnect loop. -/
def endingMachine : Machine Core where
  Step := Ending
  Inv := Core.Steady
  keeps := fun hk h => h.steady hk

theorem Call.steady {k k' : Core} (hk : k.Steady) (h : Call k k') : k'.Steady := by
  cases h <;> exact hk

theorem Step.steady {k k' : Core} (hk : k.Steady) (h : Step k k') : k'.Steady := by
  cases h with
  | handler h => exact h.steady hk
  | turn h => exact h.steady hk
  | ended h => exact Machine.Run.inv (A := endingMachine) h.run hk
  | call h => exact h.steady hk

/-- The session. -/
def session : Machine Core where
  Step := Step
  Inv := Core.Steady
  keeps := fun hk h => h.steady hk

/-- What a public call does outside of the loop controller. -/
inductive Outside : Core → Core → Prop
  | serving {k k' : Core} (h : Serving k k') : Outside k k'
  | call {k k' : Core} (h : Call k k') : Outside k k'

def outside : Machine Core where
  Step := Outside
  Inv := Core.Steady
  keeps := fun hk h => by
    cases h with
    | serving h => exact h.steady hk
    | call h => exact h.steady hk

/-! ## One machine in another -/

theorem acts_sub_action : actMachine.Sub actionMachine := ⟨id, fun _ h => .single (.act h)⟩

theorem action_sub_handling : actionMachine.Sub handlingMachine :=
  ⟨id, fun _ h => .single (.action h)⟩

theorem acts_sub_serving : actMachine.Sub servingMachine :=
  ⟨And.right, fun _ h => .single (.act h)⟩

theorem serving_sub_serve : servingMachine.Sub serveMachine :=
  ⟨id, fun _ h => .single (.serving h)⟩

theorem serve_sub_handlers : serveMachine.Sub handlerMachine :=
  ⟨id, fun _ h => .single (.serve h)⟩

theorem handlers_sub_session : handlerMachine.Sub session :=
  ⟨id, fun _ h => .single (.handler h)⟩

theorem serving_sub_outside : servingMachine.Sub outside :=
  ⟨id, fun _ h => .single (.serving h)⟩

theorem outside_sub_session : outside.Sub session := by
  refine ⟨id, fun _ h => .single ?_⟩
  cases h with
  | serving h => exact .handler (.serve (.serving h))
  | call h => exact .call h

theorem acts_sub_serve : actMachine.Sub serveMachine := acts_sub_serving.trans serving_sub_serve

theorem acts_sub_handlers : actMachine.Sub handlerMachine :=
  acts_sub_serve.trans serve_sub_handlers

theorem acts_sub_session : actMachine.Sub session := acts_sub_handlers.trans handlers_sub_session

theorem acts_sub_outside : actMachine.Sub outside := acts_sub_serving.trans serving_sub_outside

/-! ## Between the turns of the loop controller -/

/-- No handler is running, and the active client is pending. -/
structure Core.Idle (k : Core) : Prop where
  running : running k.trace = none
  active : ∀ c, k.loop.loopClient = some c → k.result c = .pending ∧ k.loop.loopId = c.loopId

theorem Core.Idle.of_unmoved {k k' : Core} (h : k.Idle) (hk : Unmoved k k') : k'.Idle :=
  ⟨by rw [hk.running]; exact h.running,
    fun c hc => by rw [hk.result, hk.loopId]; exact h.active c (by rw [← hk.active]; exact hc)⟩

theorem Call.unmoved {k k' : Core} (h : Call k k') : Unmoved k k' := by
  cases h <;> exact ⟨rfl, rfl, rfl, rfl, rfl⟩

theorem Outside.unmoved {k k' : Core} (h : Outside k k') : Unmoved k k' := by
  cases h with
  | serving h => exact h.unread.toUnmoved
  | call h => exact h.unmoved

/-! ## The elementary steps -/

theorem Quiet.basic {k k' : Core} (h : Quiet k k') : Basic k k' := by
  cases h with
  | act h => exact .act h
  | plug h => exact .plug h
  | move h => exact .move h
  | ready h => exact .ready h

theorem Handling.quiet {k k' : Core} (h : Handling k k') : Quiet k k' := by
  cases h with
  | action h =>
    cases h with
    | act h => exact .act h
    | plug h => exact .plug h
  | move h => exact .move h

/-- Runs of runs are runs. -/
private theorem run_of_steps {R S : Core → Core → Prop}
    (h : ∀ {k k'}, R k k' → ReflTransGen S k k') {k k' : Core} (hrun : ReflTransGen R k k') :
    ReflTransGen S k k' := by
  induction hrun with
  | refl => exact .refl
  | tail _ hstep ih => exact ih.trans (h hstep)

theorem Dispatching.quiet {k k' : Core} (h : Dispatching k k') : ReflTransGen Quiet k k' := by
  cases h with
  | handled h => exact run_of_steps (fun h => .single h.quiet) h.run
  | ready h => exact .single (.ready h)

theorem Serving.quiet {k k' : Core} (h : Serving k k') : ReflTransGen Quiet k k' := by
  cases h with
  | act h => exact .single (.act h)
  | dispatch h => exact run_of_steps Dispatching.quiet h.run

theorem Serving.basic {k k' : Core} (h : Serving k k') : ReflTransGen Basic k k' :=
  run_of_steps (fun h => .single h.basic) h.quiet

theorem Step.basic {k k' : Core} (h : Step k k') : ReflTransGen Basic k k' := by
  cases h with
  | handler h =>
    cases h with
    | serve h =>
      cases h with
      | serving h => exact h.basic
      | gone h => exact .head .lost (run_of_steps Serving.basic h.run)
    | hand h => exact .single (.hand h)
  | turn h => exact .single (.turn h)
  | ended h => exact run_of_steps (fun h => .single (.ending h)) h.run
  | call h => exact .single (.call h)

/-- A run of the session is a run of elementary steps. -/
theorem session_basic {k k' : Core} (h : session.Run k k') : ReflTransGen Basic k k' :=
  run_of_steps Step.basic h

end LibNbiot
