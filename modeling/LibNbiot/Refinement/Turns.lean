/-
# The turns of the loop controller refine the session machine

A turn takes a client from the queue and starts it, or steps the active one and
stops it when its step handler is done. All of it is a run of the session, but
for the end of a disconnect loop: there the turn runs the session up to the
answer of the stop handler, and what it does from then on are the first steps of
an end that the event loop completes.
-/

import LibNbiot.Refinement.Handlers

namespace LibNbiot

open Logic.Program Relation

/-! ## Calling a handler -/

/-- What a call of a handler leaves alone. -/
structure Held (k k' : Core) : Prop where
  active : k'.loop.loopClient = k.loop.loopClient
  loopId : k'.loop.loopId = k.loop.loopId
  result : k'.result = k.result

theorem Answer.held {k k' : Core} {c : ClientId} {phase : LoopPhase} {v : Int} {a : Bool}
    (h : Answer k c phase v a k') : Held k k' := by
  cases h with
  | published v a k' h => cases h <;> exact ⟨rfl, rfl, rfl⟩
  | _ => exact ⟨rfl, rfl, rfl⟩

theorem Unmoved.held {k k' : Core} (h : Unmoved k k') : Held k k' := ⟨h.active, h.loopId, h.result⟩

theorem Held.trans {k k' k'' : Core} (h : Held k k') (h' : Held k' k'') : Held k k'' :=
  ⟨h'.active.trans h.active, h'.loopId.trans h.loopId, h'.result.trans h.result⟩

theorem Held.log {k k' : Core} (h : Held k k') (e : LoopEvent ClientId SysEvent) :
    Held k (k'.log e) :=
  ⟨h.active, h.loopId, h.result⟩

/-- The active client may have this handler called. -/
def Callable (c : ClientId) (phase : LoopPhase) (k : Core) : Prop :=
  k.loop.loopClient = some c ∧ Turn k (k.log (.called c phase (k.value c)))

/-- A handler runs the machine and then answers. -/
theorem callHandler_runs (c : ClientId) (phase : LoopPhase) (s : Sys) (hinv : (core s).Steady)
    (hcall : Callable c phase (core s)) :
    ∃ k k' v, session.Run (core s) k ∧ running k.trace = some (c, phase, v) ∧ Held (core s) k ∧
      Answer k c phase v (callHandler c phase (handler c phase) s).1 k' ∧
      core (callHandler c phase (handler c phase) s).2 =
        k'.log (.answered c phase (callHandler c phase (handler c phase) s).1 (k'.value c)) := by
  generalize hs₁ : (log (.called c phase ((core s).value c)) s).2 = s₁
  have hcore : core s₁ = (core s).log (.called c phase ((core s).value c)) := by
    rw [← hs₁, core_log]
  have hcalled : Called c phase ((core s).value c) (core s₁) := by
    rw [hcore]
    exact ⟨⟨_, _, rfl⟩, rfl⟩
  have hsteady : (core s₁).Steady := by
    rw [hcore]
    exact hinv
  obtain ⟨k, hrun, hanswer⟩ := handler_answers c phase _ s₁ hsteady hcalled
  have hunmoved := (Machine.Run.keeps (J := Unmoved (core s₁)) hrun hsteady
    (fun _ hstep hk => hk.trans hstep.unmoved) (.refl _)).2
  have hfirst : session.Run (core s) (core s₁) := .single (.turn (hcore ▸ hcall.2))
  refine ⟨k, core (handler c phase s₁).2, (core s).value c, ?_, ?_, ?_, ?_, ?_⟩
  · exact hfirst.trans (handlers_sub_session.run hsteady hrun)
  · rw [hunmoved.running, hcore]
    rfl
  · have hlog : Held (core s) (core s₁) := by
      rw [hcore]
      exact ⟨rfl, rfl, rfl⟩
    exact hlog.trans hunmoved.held
  · rw [← hs₁] at hanswer ⊢
    exact hanswer
  · rw [← hs₁]
    rfl

/-- After a call: the answer is the last thing in the log. -/
def Returned (c : ClientId) (phase : LoopPhase) (a : Bool) (k₀ k : Core) : Prop :=
  (∃ w t, k.trace = ⟨.answered c phase a (k.value c), w⟩ :: t ∧ w.state = k.state) ∧ Held k₀ k

theorem Returned.answered {c : ClientId} {phase : LoopPhase} {a : Bool} {k₀ k : Core}
    (h : Returned c phase a k₀ k) : Answered c phase a k := by
  obtain ⟨⟨w, t, hlog, -⟩, -⟩ := h
  exact ⟨_, w, t, hlog⟩

theorem callHandler_refines (c : ClientId) (phase : LoopPhase) (hdis : c = .dis → phase ≠ .stop)
    (k₀ : Core) :
    Refines core session (fun k => k = k₀ ∧ Callable c phase k₀)
      (callHandler c phase (handler c phase)) fun a k => Returned c phase a k₀ k := by
  rintro s hinv ⟨rfl, hcall⟩
  obtain ⟨k, k', v, hrun, hrunning, hheld, hanswer, hcore⟩ := callHandler_runs c phase s hinv hcall
  rw [hcore]
  have hactive : k.loop.loopClient = some c := hheld.active.trans hcall.1
  refine ⟨hrun.tail (.turn (.answer c phase v _ hrunning hactive hdis hanswer)), ?_⟩
  exact ⟨⟨_, _, rfl, rfl⟩, (hheld.trans hanswer.held).log _⟩

/-- The stop handler of a disconnect loop always ends it well. -/
theorem stopDisconnect_runs (s : Sys) (hinv : (core s).Steady)
    (hcall : Callable .dis .stop (core s)) :
    (callHandler .dis .stop (handler .dis .stop) s).1 = true ∧
      (∃ k, session.Run (core s) k ∧
        Ending k (core (callHandler .dis .stop (handler .dis .stop) s).2)) ∧
      Returned .dis .stop true (core s) (core (callHandler .dis .stop (handler .dis .stop) s).2) ∧
      (core (callHandler .dis .stop (handler .dis .stop) s).2).isconnected = false := by
  obtain ⟨k, k', v, hrun, hrunning, hheld, hanswer, hcore⟩ :=
    callHandler_runs .dis .stop s hinv hcall
  have hactive : k.loop.loopClient = some .dis := hheld.active.trans hcall.1
  generalize (callHandler .dis .stop (handler .dis .stop) s).1 = a at hanswer hcore ⊢
  rw [hcore]
  have hheld' := hheld.trans hanswer.held
  cases hanswer with
  | disconnected =>
    exact ⟨rfl, ⟨k, hrun, .answer v hrunning hactive⟩, ⟨⟨_, _, rfl, rfl⟩, hheld'.log _⟩, rfl⟩

/-! ## The parts of a turn -/

/-- The controller keeps a copy of the client's value. -/
def leaveValue (c : ClientId) : M Unit := do
  let value ← getValue c
  modifyLoop fun lc => { lc with loopValue := value }

/-- A turn after the step handler wants to go on. -/
def goOn (c : ClientId) : M NbiotResult := do
  setResult c .pending
  leaveValue c
  return .pending

/-- A turn after the stop handler has answered. -/
def endTurn (c : ClientId) (a : Bool) : M NbiotResult := do
  setResult c (if a then .success else .fail)
  setResult c (if a then .idle else .fail)
  leaveValue c
  modifyLoop fun lc => { lc with loopClient := none }
  return if a then .idle else .fail

section Turn

variable {w : LoopWiring ClientId Sys} {c : ClientId} {step stop : M Bool}

/-- A pending client is stopped by its stop handler. -/
theorem postLoopStep_eq (hstop : w.handler c .stop = some stop) (s : Sys)
    (hpending : (s.client c).result = .pending) :
    postLoopStep w c s =
      (callHandler c .stop stop >>= fun ended => do
        setResult c (if ended then .success else .fail)
        getResult c) s := by
  change getResult c (onlyIf ((s.client c).result = .pending) (stopClient w c) s).2 = _
  rw [run_onlyIf, if_pos hpending]
  simp only [stopClient, hstop, run_bind]
  cases (callHandler c .stop stop s).1 <;> rfl

/-- The turn of the active client calls the step handler and, when that is done,
the stop handler. -/
theorem stepActive_eq (hstep : w.handler c .step = some step)
    (hstop : w.handler c .stop = some stop) (s : Sys) (hpending : (s.client c).result = .pending)
    (hkept : ((callHandler c .step step s).2.client c).result = .pending) :
    stepActive w c s =
      if (callHandler c .step step s).1 then goOn c (callHandler c .step step s).2
      else (callHandler c .stop stop >>= endTurn c) (callHandler c .step step s).2 := by
  have hloop : loopStep w c s = getResult c (stepClient w c s).2 := by
    change getResult c (onlyIf ((s.client c).result = .pending) (stepClient w c) s).2 = _
    rw [run_onlyIf, if_pos hpending]
  simp only [stepActive, run_bind, hloop, stepClient, hstep]
  generalize callHandler c .step step s = r at hkept ⊢
  obtain ⟨goesOn, s₁⟩ := r
  cases goesOn with
  | true => simp [goOn, leaveValue]
  | false =>
    simp only [Bool.false_eq_true, if_false, run_bind, postLoopStep_eq hstop s₁ hkept]
    generalize callHandler c .stop stop s₁ = r
    obtain ⟨ended, s₂⟩ := r
    cases ended <;> simp [endTurn, leaveValue]

end Turn

/-! ## What is recorded after an answer -/

/-- A machine whose steps include the bookkeeping after this answer. -/
def Records (A : Machine Core) (c : ClientId) (phase : LoopPhase) (a : Bool) : Prop :=
  ∀ ⦃k k'⦄, Answered c phase a k → Wrap c phase a k k' → A.Step k k'

theorem session_records {c : ClientId} {phase : LoopPhase} (hdis : c = .dis → phase ≠ .stop)
    (a : Bool) : Records session c phase a :=
  fun _ _ hanswered h => .turn (.wrap c phase a hanswered hdis h)

theorem ending_records : Records endingMachine .dis .stop true := fun _ _ => .wrap

section Records

variable {A : Machine Core} {c : ClientId} {phase : LoopPhase} {a : Bool} {P : Core → Prop}

theorem setResult_refines (hA : Records A c phase a) {r : NbiotResult}
    (hr : r = .pending ↔ a = true ∧ phase ≠ .stop) (k₀ : Core) (hk₀ : Answered c phase a k₀) :
    Refines core A (fun k => k = k₀) (setResult c r) fun _ k => k = k₀.setResult c r := by
  refine .single ?_
  rintro s rfl
  rw [core_setResult]
  exact ⟨hA hk₀ (.result r hr), rfl⟩

theorem leaveValue_refines (hA : Records A c phase a) (k₀ : Core) (hk₀ : Answered c phase a k₀) :
    Refines core A (fun k => k = k₀) (leaveValue c)
      fun _ k => k = { k₀ with loop := { k₀.loop with loopValue := k₀.value c } } := by
  refine .single ?_
  rintro s rfl
  exact ⟨hA hk₀ .value, rfl⟩

theorem letGo_refines (hA : Records A c phase a) (h : phase = .stop ∨ phase = .start ∧ a = false)
    {f : NbiotLoop ClientId → NbiotLoop ClientId}
    (hf : ∀ lc, f lc = { lc with loopClient := none, loopId := (f lc).loopId }) (k₀ : Core)
    (hk₀ : Answered c phase a k₀) (hactive : k₀.loop.loopClient = some c) :
    Refines core A (fun k => k = k₀) (modifyLoop f)
      fun _ k => k = { k₀ with loop := f k₀.loop } := by
  refine .single ?_
  rintro s rfl
  have hloop : core (modifyLoop f s).2 = { core s with loop := f (core s).loop } := rfl
  refine ⟨?_, hloop⟩
  rw [hloop, hf]
  exact hA hk₀ (.letGo _ hactive h)

end Records

theorem goOn_refines (c : ClientId) (k₀ : Core) (hk₀ : Answered c .step true k₀) :
    Refines core session (fun k => k = k₀) (goOn c) fun r k =>
      r = .pending ∧ k = { k₀.setResult c .pending with
        loop := { k₀.loop with loopValue := k₀.value c } } := by
  have hrecords : Records session c .step true := session_records (by simp) true
  refine .bind (setResult_refines hrecords (by simp) k₀ hk₀) fun _ => ?_
  exact .bind (leaveValue_refines hrecords _ hk₀) fun _ => .pure fun k hk => ⟨rfl, hk⟩

/-- A client that has ended: its value is left, and it is active no more. -/
def Core.endTurn (k : Core) (c : ClientId) (a : Bool) : Core :=
  { k.setResult c (if a then .idle else .fail) with
    loop := { k.loop with loopClient := none, loopValue := k.value c } }

theorem endTurn_refines {A : Machine Core} {c : ClientId} {a : Bool}
    (hA : Records A c .stop a) (k₀ : Core) (hk₀ : Answered c .stop a k₀)
    (hactive : k₀.loop.loopClient = some c) :
    Refines core A (fun k => k = k₀) (endTurn c a) fun r k =>
      r = (if a then .idle else .fail) ∧ k = k₀.endTurn c a := by
  refine .bind (setResult_refines hA (by cases a <;> simp) k₀ hk₀) fun _ => ?_
  refine .bind (setResult_refines hA (by cases a <;> simp) _ hk₀) fun _ => ?_
  refine .bind (leaveValue_refines hA _ hk₀) fun _ => ?_
  refine .bind (letGo_refines hA (.inl rfl) (fun _ => rfl) _ hk₀ hactive) fun _ => ?_
  refine .pure fun k hk => ⟨rfl, ?_⟩
  simp [hk, Core.endTurn, Core.setResult]

/-! ## A whole turn -/

/-- The client that has just ended, with its id and value left behind. -/
def Done (c : ClientId) (a : Bool) (k : Core) : Prop :=
  (∃ w t, k.trace = ⟨.answered c .stop a k.loop.loopValue, w⟩ :: t ∧ w.state = k.state) ∧
    k.loop.loopId = c.loopId

/-- What a turn leaves behind: a pending client, or none and perhaps the id of
the one that has ended. -/
structure Turned (r : NbiotResult) (k : Core) : Prop where
  idle : k.Idle
  result : r ≠ .success
  ended : r ≠ .pending → k.loop.loopClient = none ∧
    (k.loop.loopId = .unknown ∨ ∃ c ≠ .dis, Done c (decide (r = .idle)) k)

theorem Answered.not_running {c : ClientId} {phase : LoopPhase} {a : Bool} {k : Core}
    (h : Answered c phase a k) : running k.trace = none := by
  obtain ⟨v, w, t, hlog⟩ := h
  rw [hlog]
  rfl

theorem goOn_turned {c : ClientId} {k₀ k : Core} (hk₀ : k₀.loop.loopId = c.loopId)
    (h : Returned c .step true k₀ k) (hactive : k₀.loop.loopClient = some c) :
    Turned .pending
      { k.setResult c .pending with loop := { k.loop with loopValue := k.value c } } := by
  refine ⟨⟨h.answered.not_running, fun d hd => ?_⟩, nofun, fun hr => absurd rfl hr⟩
  obtain rfl : c = d := Option.some.inj ((h.2.active.trans hactive).symm.trans hd)
  exact ⟨Function.update_self .., h.2.loopId.trans hk₀⟩

theorem endTurn_idle {c : ClientId} {a : Bool} {k₀ k : Core} (h : Returned c .stop a k₀ k) :
    (k.endTurn c a).Idle :=
  ⟨h.answered.not_running, fun _ hd => nomatch hd⟩

theorem endTurn_done {c : ClientId} {a : Bool} {k₀ k : Core} (hk₀ : k₀.loop.loopId = c.loopId)
    (h : Returned c .stop a k₀ k) : Done c a (k.endTurn c a) :=
  ⟨h.1, h.2.loopId.trans hk₀⟩

theorem core_getResult (c : ClientId) (s : Sys) : getResult c s = ((core s).result c, s) := rfl

/-- A client was just taken from the queue. -/
def Taken (c : ClientId) (k : Core) : Prop :=
  (∃ w t, k.trace = ⟨.taken c (k.result c), w⟩ :: t) ∧ k.loop.loopClient = some c ∧
    k.loop.loopId = c.loopId ∧ running k.trace = none

theorem takeFront_refines (c : ClientId) (queue : List ClientId) :
    Refines core session
      (fun k => running k.trace = none ∧ k.loop.loopClient = none ∧ k.loop.clientList = c :: queue)
      (takeFront wiring c queue) fun _ => Taken c := by
  refine .single fun s hs => ?_
  have hcore : core (takeFront wiring c queue s).2 = (core s).take c queue := rfl
  rw [hcore]
  exact ⟨.turn (.take c queue hs.1 hs.2.1 hs.2.2), ⟨_, _, rfl⟩, rfl, rfl, hs.1⟩

/-- After the start handler: the client is pending, or it was not started. -/
structure Started (c : ClientId) (r : NbiotResult) (k : Core) : Prop where
  active : k.loop.loopClient = some c
  loopId : k.loop.loopId = c.loopId
  running : running k.trace = none
  result : k.result c = r
  failed : r ≠ .pending → r = .fail ∧ Answered c .start false k

theorem startClient_refines (c : ClientId) (k₀ : Core) (hk₀ : Taken c k₀)
    (hpending : k₀.result c ≠ .pending) :
    Refines core session (fun k => k = k₀) (startClient wiring c)
      fun _ k => Started c (k.result c) k := by
  obtain ⟨⟨w, t, hlog⟩, hactive, hid, hrun⟩ := hk₀
  have hcall : Callable c .start k₀ := ⟨hactive, .callStart c _ w t hactive hlog hpending hrun⟩
  have hrecords (a : Bool) : Records session c .start a := session_records (by simp) a
  refine .bind ((callHandler_refines c .start (by simp) k₀).pre fun k hk => ⟨hk, hcall⟩) fun a => ?_
  refine .intro fun k₁ hk₁ => ?_
  have started (r : NbiotResult) (hr : r ≠ .pending → r = .fail ∧ a = false) :
      Started c ((k₁.setResult c r).result c) (k₁.setResult c r) := by
    refine ⟨hk₁.2.active.trans hactive, hk₁.2.loopId.trans hid, hk₁.answered.not_running, rfl, ?_⟩
    rw [show (k₁.setResult c r).result c = r from Function.update_self ..]
    refine fun hne => ⟨(hr hne).1, ?_⟩
    have hanswered : Answered c .start a (k₁.setResult c r) := hk₁.answered
    rwa [(hr hne).2] at hanswered
  refine .ite (fun ha => ?_) fun ha => ?_
  · refine (setResult_refines (hrecords a) (by simp [ha]) k₁ hk₁.answered).post ?_
    rintro _ _ rfl
    exact started .pending (absurd rfl)
  · refine (setResult_refines (hrecords a) (by simp [ha]) k₁ hk₁.answered).post ?_
    rintro _ _ rfl
    exact started .fail fun _ => ⟨rfl, by simpa using ha⟩

theorem preLoopStep_refines (c : ClientId) :
    Refines core session (Taken c) (preLoopStep wiring c) fun r => Started c r := by
  refine .reads (core_getResult c) fun s hs => ?_
  refine .bind (R := fun _ k => Started c (k.result c) k) (.onlyIf (fun hpending => ?_) ?_) fun _ => ?_
  · exact startClient_refines c _ hs hpending
  · rintro hpending k rfl
    exact ⟨hs.2.1, hs.2.2.1, hs.2.2.2, rfl, fun hne => absurd hne hpending⟩
  · exact fun s' _ hs' => ⟨.refl, hs'⟩

theorem takeClient_refines (c : ClientId) (queue : List ClientId) :
    Refines core session
      (fun k => running k.trace = none ∧ k.loop.loopClient = none ∧ k.loop.clientList = c :: queue)
      (takeClient wiring c queue) Turned := by
  refine .bind (takeFront_refines c queue) fun _ => .bind (preLoopStep_refines c) fun r => ?_
  refine .intro fun k₀ hk₀ => .bind (R := fun _ => Turned r) (.onlyIf (fun hr => ?_) ?_) fun _ =>
    .pure fun _ h => h
  · obtain ⟨rfl, hanswered⟩ := hk₀.failed hr
    refine (letGo_refines (session_records (by simp) false) (.inr ⟨rfl, rfl⟩) (fun _ => rfl) k₀
      hanswered hk₀.active).post ?_
    rintro _ _ rfl
    exact ⟨⟨hk₀.running, nofun⟩, nofun, fun _ => ⟨rfl, .inl rfl⟩⟩
  · rintro hr _ rfl
    obtain rfl : r = .pending := not_not.1 hr
    refine ⟨⟨hk₀.running, fun d hd => ?_⟩, nofun, absurd rfl⟩
    obtain rfl : c = d := Option.some.inj (hk₀.active.symm.trans hd)
    exact ⟨hk₀.result, hk₀.loopId⟩

/-- The turn of the active client, up to the end of its step handler. -/
theorem stepHandler_refines (c : ClientId) (k₀ : Core) (hidle : k₀.Idle)
    (hactive : k₀.loop.loopClient = some c) :
    Refines core session (fun k => k = k₀) (callHandler c .step (handler c .step))
      fun a k => Returned c .step a k₀ k :=
  (callHandler_refines c .step (by simp) k₀).pre fun _ hk =>
    ⟨hk, hactive, .callStep c hidle.running hactive (hidle.active c hactive).1⟩

/-- A client whose step handler is done may be stopped. -/
theorem Returned.callable {c : ClientId} {k₀ k : Core} (h : Returned c .step false k₀ k)
    (hactive : k₀.loop.loopClient = some c) : Callable c .stop k := by
  obtain ⟨⟨w, t, hlog, -⟩, hheld⟩ := h
  exact ⟨hheld.active.trans hactive, .callStop c w t (hheld.active.trans hactive) hlog⟩

/-- The end of a disconnect loop, as the turn leaves it. -/
structure Disconnected (k : Core) : Prop where
  active : k.loop.loopClient = none
  isconnected : k.isconnected = false
  done : Done .dis true k

/-- A turn runs the session, or into the end of a disconnect loop. -/
def TurnOf (k₀ : Core) (r : NbiotResult) (k : Core) : Prop :=
  session.Run k₀ k ∧ Turned r k ∨
    r = .idle ∧ Disconnected k ∧ ∃ k₁, session.Run k₀ k₁ ∧ endingMachine.Run k₁ k

/-- The end of a client that is stopped, unless it is a disconnect loop. -/
theorem stopTurn_refines {c : ClientId} (hdis : c ≠ .dis) (k₀ : Core) (hcall : Callable c .stop k₀)
    (hid : k₀.loop.loopId = c.loopId) :
    Refines core session (fun k => k = k₀) (callHandler c .stop (handler c .stop) >>= endTurn c)
      Turned := by
  refine .bind ((callHandler_refines c .stop (absurd · hdis) k₀).pre fun k hk => ⟨hk, hcall⟩)
    fun a => .intro fun k₁ hk₁ => ?_
  refine (endTurn_refines (session_records (absurd · hdis) a) k₁ hk₁.answered
    (hk₁.2.active.trans hcall.1)).post ?_
  rintro r k ⟨rfl, rfl⟩
  have hdone : decide ((if a then NbiotResult.idle else .fail) = .idle) = a := by cases a <;> rfl
  refine ⟨endTurn_idle hk₁, by cases a <;> simp, fun _ => ⟨rfl, .inr ⟨c, hdis, ?_⟩⟩⟩
  rw [hdone]
  exact endTurn_done hid hk₁

theorem stopDisconnectTurn_runs (s : Sys) (hinv : (core s).Steady)
    (hcall : Callable .dis .stop (core s)) (hid : (core s).loop.loopId = .disconnect) :
    ((callHandler .dis .stop (handler .dis .stop) >>= endTurn .dis) s).1 = .idle ∧
      Disconnected (core ((callHandler .dis .stop (handler .dis .stop) >>= endTurn .dis) s).2) ∧
      ∃ k₁, session.Run (core s) k₁ ∧ endingMachine.Run k₁
        (core ((callHandler .dis .stop (handler .dis .stop) >>= endTurn .dis) s).2) := by
  obtain ⟨hanswer, ⟨k₁, hrun, hend⟩, hk, hconn⟩ := stopDisconnect_runs s hinv hcall
  have hsteady : (core (callHandler .dis .stop (handler .dis .stop) s).2).Steady :=
    hend.steady (hrun.inv hinv)
  obtain ⟨hrun', hr, hcore⟩ := endTurn_refines ending_records _ hk.answered
    (hk.2.active.trans hcall.1) _ hsteady rfl
  rw [run_bind, hanswer, hr, hcore]
  refine ⟨rfl, ⟨rfl, hconn, endTurn_done hid hk⟩, k₁, hrun, ?_⟩
  exact .head hend (hcore ▸ hrun')

theorem stepActive_runs (c : ClientId) (s : Sys) (hinv : (core s).Steady)
    (hidle : (core s).Idle) (hactive : s.loop.loopClient = some c) :
    TurnOf (core s) (stepActive wiring c s).1 (core (stepActive wiring c s).2) := by
  obtain ⟨hpending, hid⟩ := hidle.active c hactive
  obtain ⟨hrun, hstep⟩ := stepHandler_refines c _ hidle hactive s hinv rfl
  have hkept : ((callHandler c .step (handler c .step) s).2.client c).result = .pending :=
    (congrFun hstep.2.result c).trans hpending
  rw [stepActive_eq (w := wiring) (c := c) rfl rfl s hpending hkept]
  generalize callHandler c .step (handler c .step) s = r at hrun hstep
  obtain ⟨goesOn, s₁⟩ := r
  have hid₁ : (core s₁).loop.loopId = c.loopId := hstep.2.loopId.trans hid
  cases goesOn with
  | true =>
    obtain ⟨hrun', hr, hk⟩ := goOn_refines c _ hstep.answered s₁ (hrun.inv hinv) rfl
    refine .inl ⟨hrun.trans hrun', ?_⟩
    rw [if_pos rfl, hr, hk]
    exact goOn_turned hid hstep hactive
  | false =>
    rw [if_neg (by simp)]
    by_cases hdis : c = .dis
    · subst hdis
      obtain ⟨hr, hend, k₁, hrun', hending⟩ := stopDisconnectTurn_runs s₁ (hrun.inv hinv)
        (hstep.callable hactive) hid₁
      exact .inr ⟨hr, hend, k₁, hrun.trans hrun', hending⟩
    · obtain ⟨hrun', hturned⟩ := stopTurn_refines hdis _ (hstep.callable hactive) hid₁ s₁
        (hrun.inv hinv) rfl
      exact .inl ⟨hrun.trans hrun', hturned⟩

theorem clearLoop_refines :
    Refines core session (fun k => running k.trace = none) (clearLoop : M Unit)
      fun _ k => running k.trace = none ∧ k.loop.loopClient = none ∧ k.loop.clientList = [] ∧
        k.loop.loopId = .unknown := by
  refine .single fun s hs => ?_
  have hcore : core ((clearLoop : M Unit) s).2 = (core s).clear := rfl
  rw [hcore]
  exact ⟨.turn (.clear hs), hs, rfl, rfl, rfl⟩

theorem idle_of_inactive {k : Core} (hrunning : running k.trace = none)
    (hactive : k.loop.loopClient = none) : k.Idle :=
  ⟨hrunning, fun c hc => by simp [hactive] at hc⟩

theorem breakPending_refines :
    Refines core session Core.Idle (breakPending : M Unit) fun _ => Core.Idle := by
  refine .silent_bind get_silent fun s => .ite (fun _ => ?_) fun _ => .pure fun _ h => h
  refine .bind (clearLoop_refines.pre fun k hk => hk.running) fun _ => ?_
  refine .single fun s hs => ⟨.turn .resetBreak, ?_⟩
  exact idle_of_inactive hs.1 hs.2.1

theorem idleTurn_refines :
    Refines core session (fun k => k.Idle ∧ k.loop.loopClient = none)
      (do
        modifyLoop fun lc => { lc with loopValue := 0, loopId := .unknown }
        return .idle : M NbiotResult) Turned := by
  refine .bind (R := fun _ => Turned .idle) (.single fun s ⟨hidle, hactive⟩ => ?_) fun _ =>
    .pure fun _ h => h
  refine ⟨.turn (.idle hactive), idle_of_inactive hidle.running hactive, nofun, fun _ => ?_⟩
  exact ⟨hactive, .inl rfl⟩

/-- A turn of the controller. -/
theorem nbiotLoop_runs (s : Sys) (hinv : (core s).Steady) (hidle : (core s).Idle) :
    TurnOf (core s) (nbiotLoop wiring s).1 (core (nbiotLoop wiring s).2) := by
  obtain ⟨hrun, hidle₁⟩ := breakPending_refines s hinv hidle
  have hinv₁ := hrun.inv hinv
  rw [nbiotLoop, run_bind]
  generalize ((breakPending : M Unit) s).2 = s₁ at hrun hinv₁ hidle₁ ⊢
  have turn : TurnOf (core s₁) (loopTurn wiring s₁).1 (core (loopTurn wiring s₁).2) := by
    simp only [loopTurn, run_bind, run_get]
    cases hactive : s₁.loop.loopClient with
    | some c => exact stepActive_runs c s₁ hinv₁ hidle₁ hactive
    | none =>
      cases hqueue : s₁.loop.clientList with
      | cons c queue =>
        exact .inl (takeClient_refines c queue s₁ hinv₁ ⟨hidle₁.running, hactive, hqueue⟩)
      | nil => exact .inl (idleTurn_refines s₁ hinv₁ ⟨hidle₁, hactive⟩)
  refine turn.imp (fun h => ⟨hrun.trans h.1, h.2⟩) ?_
  rintro ⟨hr, hend, k₁, hrun₁, hending⟩
  exact ⟨hr, hend, k₁, hrun.trans hrun₁, hending⟩

end LibNbiot
