/-
# The order of the events

An event takes the state machine from one state to another as its table says.
What holds between two dispatches about the state, the error number and the
events that are ready follows from the table: an initial library is about to be
initialized, a library in error is about to recover or waits for its timeout, and
no event by which it recovers is left when it is in any other state.
-/

import LibNbiot.Ledger.Runs

namespace LibNbiot

open Logic.Program Relation

variable {C : Option MessageHandler → List ApiCall → Bytes → Prop}

/-! ## The table of the state machine -/

/-- The states that an event leads to and the error numbers on the way. -/
inductive Moves (initialized : Bool) (errno : ErrorNumber) :
    StateId → StmEvent → StateId → ErrorNumber → Prop
  | initialized {e : StmEvent} (he : e = .initializeEvent ∨ e = .timer) :
      Moves initialized errno .initial e .disconnected errno
  | uninitialized {e : StmEvent} (he : e = .initializeEvent ∨ e = .timer)
      (h : initialized = false) : Moves initialized errno .initial e .error .initializeError
  | connect : Moves initialized errno .disconnected .connectEvent .waitForConnect .success
  | attach : Moves initialized errno .disconnected .connectEvent .waitForAttach .success
  | unreachable : Moves initialized errno .disconnected .connectEvent .error .ipNotConnected
  | disSleep : Moves initialized errno .disconnected .sleepEvent .disconnectedSleep errno
  | disHibernate : Moves initialized errno .disconnected .hibernateEvent .deepSleep errno
  | recover : Moves initialized errno .error .errorDisconnectEvent .disconnected errno
  | restart {e : StmEvent} (he : e = .reInitializeEvent ∨ e = .timer) :
      Moves initialized errno .error e .initial errno
  | sleep : Moves initialized errno .connected .sleepEvent .connectedSleep errno
  | hibernate : Moves initialized errno .connected .hibernateEvent .deepSleep errno
  | disconnect : Moves initialized errno .connected .disconnectEvent .disconnected errno
  | wakeup : Moves initialized errno .connectedSleep .wakeupEvent .connected errno
  | awake : Moves initialized errno .connectedSleep .connectedAwakeEvent .connectedAwake errno
  | asleep {e : StmEvent} (he : e = .awakeSleepEvent ∨ e = .timer) :
      Moves initialized errno .connectedAwake e .connectedSleep errno
  | active : Moves initialized errno .connectedAwake .awakeActiveEvent .connected errno
  | reInitialize : Moves initialized errno .deepSleep .reInitializeEvent .initial errno
  | disWakeup : Moves initialized errno .disconnectedSleep .wakeupEvent .disconnected errno
  | attached : Moves initialized errno .waitForAttach .attachedEvent .waitForConnect errno
  | cutOff : Moves initialized errno .waitForAttach .attachedEvent .error .ipNotConnected
  | unattached : Moves initialized errno .waitForAttach .timer .error .gprsNotConnected
  | connected : Moves initialized errno .waitForConnect .connectedEvent .connected errno
  | unconnected : Moves initialized errno .waitForConnect .timer .error .connectionError

/-- The states that a transition can end with, and the error number and the recovery
there. -/
def Target.outcomes (initialized : Bool) :
    Target → Transition → ErrorNumber → Recovery → List (StateId × ErrorNumber × Recovery)
  | .state st, t, errno, r => [(st, t.errno errno, r.fire t)]
  | .choice c t₀ target₀ t₁ target₁, t, errno, r =>
      (if c = .isInitialized ∧ initialized = false then []
        else target₀.outcomes initialized t₀ (t.errno errno) (r.fire t)) ++
        if c = .isInitialized ∧ initialized = true then []
        else target₁.outcomes initialized t₁ (t.errno errno) (r.fire t)

theorem Triggers.enters {e : StmEvent} {t : Transition} {target : Target} {k k' : Ledger}
    (h : Triggers e t target k k') :
    ∃ o ∈ target.outcomes k.initialized t k.errno k.recovery, ∃ queue,
      o.1.Enters e { k with errno := o.2.1, recovery := o.2.2, queue := queue } k' := by
  induction h with
  | state h henter =>
    obtain ⟨cs, -, rfl⟩ := h
    exact ⟨_, List.mem_singleton.2 rfl, _, henter⟩
  | @first t t₀ t₁ c target₀ target₁ k k₁ k' h hgo hc ih =>
    obtain ⟨cs, -, rfl⟩ := h
    obtain ⟨o, ho, queue, henter⟩ := ih
    refine ⟨o, List.mem_append_left _ ?_, queue, henter⟩
    have hyes : ¬(c = .isInitialized ∧ k.initialized = false) := fun hno =>
      Bool.false_ne_true (hno.2.symm.trans (hc hno.1))
    rw [if_neg hyes]
    exact ho
  | @second t t₀ t₁ c target₀ target₁ k k₁ k' h hgo hc ih =>
    obtain ⟨cs, -, rfl⟩ := h
    obtain ⟨o, ho, queue, henter⟩ := ih
    refine ⟨o, List.mem_append_right _ ?_, queue, henter⟩
    have hno : ¬(c = .isInitialized ∧ k.initialized = true) := fun hyes =>
      Bool.false_ne_true ((hc hyes.1).symm.trans hyes.2)
    rw [if_neg hno]
    exact ho

theorem StateId.moves {initialized : Bool} {errno errno' : ErrorNumber} {r r' : Recovery}
    {st st' : StateId} {e : StmEvent} {t : Transition} (h : st.transitionFor e = some t)
    (ho : (st', errno', r') ∈ t.target.outcomes initialized t errno r) :
    Moves initialized errno st e st' errno' := by
  cases st <;> cases e <;> first
    | (cases h; done)
    | (cases h
       simp [Transition.target, Choice.target, Target.outcomes, Transition.errno] at ho
       grind [Moves])

/-- Handling an event does nothing or ends with an outcome of a transition. -/
theorem Reacts.outcome {e : StmEvent} {k k' : Ledger} (h : Reacts e k k') :
    k.transitionFor e = none ∧ k' = k ∨
      ∃ st st' t errno recovery queue, k.state = some st ∧ st.transitionFor e = some t ∧
        (st', errno, recovery) ∈ t.target.outcomes k.initialized t k.errno k.recovery ∧
          st'.Enters e { k with errno := errno, recovery := recovery, queue := queue } k' := by
  cases h with
  | ignored h => exact .inl ⟨h, rfl⟩
  | taken t k' h htrigger =>
    obtain ⟨st, hst, ht⟩ := Option.bind_eq_some_iff.1 h
    obtain ⟨⟨st', errno, recovery⟩, ho, queue, henter⟩ := htrigger.enters
    exact .inr ⟨st, st', t, errno, recovery, queue, hst, ht, ho, henter⟩

/-- Handling an event does nothing or moves as the table says. -/
theorem Reacts.moves {e : StmEvent} {k k' : Ledger} (h : Reacts e k k') :
    k.transitionFor e = none ∧ k' = k ∨
      ∃ st st' errno recovery queue, k.state = some st ∧
        Moves k.initialized k.errno st e st' errno ∧
          st'.Enters e { k with errno := errno, recovery := recovery, queue := queue } k' := by
  obtain hnone | ⟨st, st', t, errno, recovery, queue, hst, ht, ho, henter⟩ := h.outcome
  · exact .inl hnone
  · exact .inr ⟨st, st', errno, recovery, queue, hst, StateId.moves ht ho, henter⟩

/-- What handling one event keeps is kept by a whole drain. -/
theorem Drains.keeps {D : List StmEvent → Ledger → Prop} {es : List StmEvent} {k k' : Ledger}
    (hstep : ∀ {e es k k'}, D (e :: es) k → Reacts e { k with events := es } k' → D es k')
    (h : Drains es k k') (hk : D es k) : ∃ k₁, D [] k₁ ∧ k' = { k₁ with events := [] } := by
  induction h with
  | done k => exact ⟨k, hk, rfl⟩
  | handle h hrest ih => exact ih (hstep hk h)

/-! ## Events between two dispatches -/

/-- The events that are posted, and so are ready between two dispatches. -/
def StmEvent.posted : StmEvent → Bool
  | .attachedEvent | .connectedEvent | .disconnectEvent => true
  | .initializeEvent | .reInitializeEvent | .errorDisconnectEvent => true
  | _ => false

/-- No event by which the state machine recovers from an error. -/
def Settled (es : List StmEvent) : Prop := ∀ e ∈ es, e.recovers = false

/-- The events that are handled in one dispatch: the timer is the last one, and
no recovering event follows one that is not posted. -/
inductive Sequenced : List StmEvent → Prop
  | nil : Sequenced []
  | posted {e : StmEvent} {es : List StmEvent} (he : e.posted = true) (h : Sequenced es) :
      Sequenced (e :: es)
  | pushed {e : StmEvent} {es : List StmEvent} (he : e ≠ .timer) (hes : Settled es)
      (h : Sequenced es) : Sequenced (e :: es)
  | timer : Sequenced [.timer]

theorem Sequenced.tail {e : StmEvent} {es : List StmEvent} (h : Sequenced (e :: es)) :
    Sequenced es := by
  cases h with
  | posted he h => exact h
  | pushed he hes h => exact h
  | timer => exact .nil

theorem Sequenced.settled {e : StmEvent} {es : List StmEvent} (h : Sequenced (e :: es))
    (he : e.posted = false) : Settled es := by
  cases h with
  | posted he' h => exact absurd (he.symm.trans he') Bool.false_ne_true
  | pushed he' hes h => exact hes
  | timer => exact nofun

theorem Sequenced.last {es : List StmEvent} (h : Sequenced (.timer :: es)) : es = [] := by
  cases h with
  | posted he h => cases he
  | pushed he hes h => exact absurd rfl he
  | timer => rfl

/-- What is known of the state, whatever the events are. -/
structure Ledger.Sound (k : Ledger) : Prop where
  unstarted : k.state = none → k.initialized = false
  off : k.state = some .deepSleep → k.initialized = false
  error : k.state = some .error → k.errno ≠ .success
  untimed : k.state = some .error → k.initialized = true → k.timeout = false

/-- What holds between two dispatches. -/
structure Ledger.Ordered (k : Ledger) : Prop where
  sound : k.Sound
  initial : k.state = some .initial → .initializeEvent ∈ k.events
  attaching : k.state = some .waitForAttach → Settled k.events
  events : ∀ e ∈ k.events, e.posted = true
  pendingEvents : ∀ e ∈ k.pendingEvents,
    e = .attachedEvent ∨ e = .connectedEvent ∨ e = .disconnectEvent

/-- What holds in the course of a dispatch that has yet to handle some events. -/
structure Ledger.Orderly (es : List StmEvent) (k : Ledger) : Prop where
  sound : k.Sound
  sequenced : Sequenced es
  initial : k.state = some .initial → .initializeEvent ∈ es ∨ .initializeEvent ∈ k.pendingEvents
  attaching : k.state = some .waitForAttach → Settled es
  recovering : ¬Settled k.pendingEvents →
    Settled es ∧ (k.state = some .error ∨ k.state = some .initial ∧ es = [])
  posted : ∀ e ∈ k.pendingEvents, e.posted = true

theorem Settled.append {es es' : List StmEvent} (h : Settled es) (h' : Settled es') :
    Settled (es ++ es') := fun e he => (List.mem_append.1 he).elim (h e) (h' e)

theorem Settled.tail {e : StmEvent} {es : List StmEvent} (h : Settled (e :: es)) : Settled es :=
  fun e' he' => h e' (List.mem_cons_of_mem _ he')

theorem StmEvent.recovers_posted {e : StmEvent} (h : e.recovers = true) : e.posted = true := by
  cases e <;> first | rfl | cases h

theorem Recovery.way_recovers (r : Recovery) : r.way.recovers = true := by
  rw [Recovery.way]
  split <;> rfl

/-! ## One event -/

namespace Moves

variable {initialized : Bool} {errno errno' : ErrorNumber} {st st' : StateId} {e : StmEvent}

theorem errno_error (h : Moves initialized errno st e .error errno') : errno' ≠ .success := by
  cases h <;> nofun

theorem of_error (h : Moves initialized errno .error e st' errno') :
    st' = .disconnected ∧ e = .errorDisconnectEvent ∨
      st' = .initial ∧ (e = .reInitializeEvent ∨ e = .timer) := by
  cases h with
  | recover => exact .inl ⟨rfl, rfl⟩
  | restart he => exact .inr ⟨rfl, he⟩

theorem to_error (h : Moves initialized errno st e .error errno') :
    initialized = false ∨ st = .waitForAttach ∨ e.posted = false := by
  cases h with
  | uninitialized he h => exact .inl h
  | cutOff => exact .inr (.inl rfl)
  | unattached => exact .inr (.inl rfl)
  | unreachable => exact .inr (.inr rfl)
  | unconnected => exact .inr (.inr rfl)

theorem to_attach (h : Moves initialized errno st e .waitForAttach errno') : e = .connectEvent := by
  cases h
  rfl

/-- Only an event by which it recovers, or the timer, takes the Error state on. -/
theorem recovers (h : Moves initialized errno .error e st' errno') (he : e ≠ .timer) :
    e.recovers = true := by
  obtain ⟨-, rfl⟩ | ⟨-, rfl | rfl⟩ := h.of_error
  · rfl
  · rfl
  · exact absurd rfl he

end Moves

/-- The state after an event is sound. -/
theorem Reacts.sound {e : StmEvent} {k k' : Ledger} (h : Reacts e k k') (hk : k.Sound) :
    k'.Sound := by
  obtain ⟨-, rfl⟩ | ⟨st, st', errno, recovery, queue, hst, hmoves, henter⟩ := h.moves
  · exact hk
  · cases henter with
    | recovered hinit => exact ⟨nofun, nofun, fun _ => hmoves.errno_error, fun _ _ => rfl⟩
    | failed timeout hinit =>
      exact ⟨nofun, nofun, fun _ => hmoves.errno_error, fun _ h => absurd (hinit.symm.trans h) nofun⟩
    | disconnected k' h => exact ⟨nofun, nofun, nofun, nofun⟩
    | deepSleep k' h => exact ⟨nofun, fun _ => rfl, nofun, nofun⟩
    | _ => exact ⟨nofun, nofun, nofun, nofun⟩

namespace Ledger.Orderly

variable {e : StmEvent} {es : List StmEvent} {k k' : Ledger}

/-- In a state that has left the error behind nothing recovers any more. -/
theorem settled_of_moves {st st' : StateId} {errno : ErrorNumber} (hk : k.Orderly (e :: es))
    (hst : k.state = some st) (hmoves : Moves k.initialized k.errno st e st' errno)
    (hst' : st' ≠ .initial) : Settled k.pendingEvents := by
  by_contra hpending
  obtain ⟨hsettled, herror | ⟨-, hnil⟩⟩ := hk.recovering hpending
  · cases hst.symm.trans herror
    obtain ⟨-, rfl⟩ | ⟨h, -⟩ := hmoves.of_error
    · exact Bool.false_ne_true ((hsettled _ (List.mem_cons_self ..)).symm)
    · exact hst' h
  · cases hnil

/-- Entering a state other than the initial and the error one keeps the order. -/
theorem of_settled {st : StateId} (hk : k.Orderly (e :: es)) (hsettled : Settled k.pendingEvents)
    (hsound : k'.Sound) (hstate : k'.state = some st) (hst : st ≠ .initial)
    (hattaching : st = .waitForAttach → Settled es)
    (hpending : k'.pendingEvents = k.pendingEvents) : k'.Orderly es where
  sound := hsound
  sequenced := hk.sequenced.tail
  initial h := absurd (Option.some.inj (hstate.symm.trans h)) hst
  attaching h := hattaching (Option.some.inj (hstate.symm.trans h))
  recovering h := absurd (hpending ▸ hsettled) h
  posted := hpending ▸ hk.posted

theorem step (hk : k.Orderly (e :: es)) (h : Reacts e { k with events := es } k') :
    k'.Orderly es := by
  have hsound : k'.Sound := h.sound ⟨hk.sound.1, hk.sound.2, hk.sound.3, hk.sound.4⟩
  obtain ⟨hnone, rfl⟩ | ⟨st, st', errno, recovery, queue, hst, hmoves, henter⟩ := h.moves
  · refine ⟨hsound, hk.sequenced.tail, fun hinit => ?_, fun h => (hk.attaching h).tail,
      fun hpending => ?_, hk.posted⟩
    · have hwaits : k.state.bind (·.transitionFor e) = none := hnone
      obtain hmem | hmem := hk.initial hinit
      · obtain rfl | hmem := List.mem_cons.1 hmem
        · rw [show k.state = some .initial from hinit] at hwaits
          cases hwaits
        · exact .inl hmem
      · exact .inr hmem
    · obtain ⟨hsettled, herror | ⟨-, hnil⟩⟩ := hk.recovering hpending
      · exact ⟨hsettled.tail, .inl herror⟩
      · cases hnil
  · have hst : k.state = some st := hst
    have hmoves : Moves k.initialized k.errno st e st' errno := hmoves
    cases henter with
    | initial ok timeout he =>
      refine ⟨hsound, hk.sequenced.tail, fun _ => .inr (List.mem_append_right _ List.mem_cons_self),
        nofun, fun hpending => ?_, ?_⟩
      · have hpending' : ¬Settled k.pendingEvents := fun h => hpending (h.append (by simp [Settled, StmEvent.recovers]))
        obtain ⟨hsettled, -⟩ := hk.recovering hpending'
        obtain rfl | rfl := he
        · exact absurd (hsettled _ (List.mem_cons_self ..)) nofun
        · have hnil := hk.sequenced.last
          exact ⟨hsettled.tail, .inr ⟨rfl, hnil⟩⟩
      · intro e' he'
        obtain he' | he' := List.mem_append.1 he'
        · exact hk.posted e' he'
        · rw [List.mem_singleton.1 he']
          rfl
    | recovered hinit =>
      have hsettled : Settled es := by
        obtain h | rfl | hposted := hmoves.to_error
        · exact absurd (h.symm.trans hinit) nofun
        · exact (hk.attaching hst).tail
        · exact hk.sequenced.settled hposted
      refine ⟨hsound, hk.sequenced.tail, nofun, nofun, fun _ => ⟨hsettled, .inl rfl⟩, ?_⟩
      intro e' he'
      obtain he' | he' := List.mem_append.1 he'
      · exact hk.posted e' he'
      · rw [List.mem_singleton.1 he']
        exact StmEvent.recovers_posted (Recovery.way_recovers _)
    | disconnected k₁ hqueues =>
      obtain ⟨cs, -, rfl⟩ := hqueues
      exact of_settled hk (hk.settled_of_moves hst hmoves nofun) hsound rfl nofun nofun rfl
    | deepSleep k₁ hqueues =>
      obtain ⟨cs, -, rfl⟩ := hqueues
      exact of_settled hk (hk.settled_of_moves hst hmoves nofun) hsound rfl nofun nofun rfl
    | waitForAttach timeout =>
      obtain rfl := hmoves.to_attach
      exact of_settled hk (hk.settled_of_moves hst hmoves nofun) hsound rfl nofun
        (fun _ => hk.sequenced.settled rfl) rfl
    | _ =>
      exact of_settled hk (hk.settled_of_moves hst hmoves nofun) hsound rfl nofun nofun rfl

end Ledger.Orderly

/-! ## Dispatches -/

theorem Sequenced.of_posted {es es' : List StmEvent} (h : ∀ e ∈ es, e.posted = true)
    (h' : Sequenced es') : Sequenced (es ++ es') := by
  induction es with
  | nil => exact h'
  | cons e es ih =>
    exact .posted (h e List.mem_cons_self) (ih fun e' he' => h e' (List.mem_cons_of_mem _ he'))

/-- The events that clients and packets post between two dispatches. -/
def Ledger.Posting (k : Ledger) : Prop :=
  ∀ e ∈ k.pendingEvents, e = .attachedEvent ∨ e = .connectedEvent ∨ e = .disconnectEvent

theorem Ledger.Posting.settled {k : Ledger} (h : k.Posting) : Settled k.pendingEvents := by
  intro e he
  obtain rfl | rfl | rfl := h e he <;> rfl

theorem Ledger.Posting.posted {k : Ledger} (h : k.Posting) :
    ∀ e ∈ k.pendingEvents, e.posted = true := by
  intro e he
  obtain rfl | rfl | rfl := h e he <;> rfl

theorem Dispatches.ordered {pushed : List StmEvent} {k k' : Ledger} (h : Dispatches pushed k k')
    (hsound : k.Sound) (hposting : k.Posting) (hevents : ∀ e ∈ k.events, e.posted = true)
    (hpushed : ∀ timer : List StmEvent, timer = [] ∨ timer = [.timer] → Sequenced (pushed ++ timer))
    (hinitial : k.state = some .initial → .initializeEvent ∈ k.events ++ pushed)
    (hattaching : k.state = some .waitForAttach → Settled (k.events ++ pushed)) : k'.Ordered := by
  obtain ⟨timer, timeout, k', htimer, htimeout, h⟩ := h
  have htimer : timer = [] ∨ timer = [.timer] := htimer.imp_right And.left
  have hsettled : Settled timer := by
    obtain rfl | rfl := htimer
    · exact nofun
    · exact fun e he => by rw [List.mem_singleton.1 he]; rfl
  have horderly : Ledger.Orderly (k.events ++ pushed ++ timer) { k with timeout := timeout } := by
    refine ⟨⟨hsound.unstarted, hsound.off, hsound.error, fun herror hinit =>
      htimeout (hsound.untimed herror hinit)⟩, ?_, fun h => ?_, fun h => ?_,
      absurd hposting.settled, hposting.posted⟩
    · rw [List.append_assoc]
      exact .of_posted hevents (hpushed timer htimer)
    · exact .inl (List.mem_append_left _ (hinitial h))
    · exact (hattaching h).append hsettled
  obtain ⟨k₁, hk₁, rfl⟩ := h.keeps (D := fun es k => k.Orderly es)
    (fun hk hreacts => Ledger.Orderly.step hk hreacts) horderly
  refine ⟨⟨hk₁.sound.1, hk₁.sound.2, hk₁.sound.3, hk₁.sound.4⟩, fun h => ?_, fun h => ?_,
    hk₁.posted, nofun⟩
  · exact (hk₁.initial h).resolve_left nofun
  · by_contra hpending
    have hstate : k₁.state = some .waitForAttach := h
    obtain ⟨-, herror | ⟨hinit, -⟩⟩ := hk₁.recovering hpending
    · cases hstate.symm.trans herror
    · cases hstate.symm.trans hinit

theorem Ledger.Pushes.settled {k : Ledger} {pushed : List StmEvent} (h : k.Pushes pushed)
    (hk : k.state = some .waitForAttach) : Settled pushed := by
  cases h with
  | nothing => exact nofun
  | order e h =>
    intro e' he'
    rw [List.mem_singleton.1 he']
    cases e <;> first | rfl | cases h
  | reInitialize h => cases hk.symm.trans h

theorem Ledger.Pushes.sequenced {k : Ledger} {pushed : List StmEvent} (h : k.Pushes pushed)
    {timer : List StmEvent} (htimer : timer = [] ∨ timer = [.timer]) :
    Sequenced (pushed ++ timer) := by
  have hlast : Sequenced timer ∧ Settled timer := by
    obtain rfl | rfl := htimer
    · exact ⟨.nil, nofun⟩
    · exact ⟨.timer, fun e he => by rw [List.mem_singleton.1 he]; rfl⟩
  cases h with
  | nothing => exact hlast.1
  | order e h =>
    refine .pushed ?_ hlast.2 hlast.1
    rintro rfl
    cases h
  | reInitialize h => exact .posted rfl hlast.1

/-- Every change keeps the order. -/
theorem Change.ordered {k k' : Ledger} (h : Change C k k') (hk : k.Ordered) : k'.Ordered := by
  obtain ⟨⟨hunstarted, hoff, herror, huntimed⟩, hinitial, hattaching, hevents, hpending⟩ := hk
  cases h with
  | enqueue h =>
    obtain ⟨cs, -, rfl⟩ := h
    exact ⟨⟨hunstarted, hoff, herror, huntimed⟩, hinitial, hattaching, hevents, hpending⟩
  | post e h =>
    refine ⟨⟨hunstarted, hoff, herror, huntimed⟩, hinitial, hattaching, hevents, fun e' he' => ?_⟩
    obtain he' | he' := List.mem_append.1 he'
    · exact hpending e' he'
    · rw [List.mem_singleton.1 he']
      exact h
  | fail errno h =>
    exact ⟨⟨hunstarted, hoff, fun _ => h, huntimed⟩, hinitial, hattaching, hevents, hpending⟩
  | succeed h =>
    refine ⟨⟨hunstarted, hoff, fun h' => ?_, huntimed⟩, hinitial, hattaching, hevents, hpending⟩
    cases h.symm.trans h'
  | dispatch pushed hpushed h =>
    refine h.ordered ⟨hunstarted, hoff, herror, huntimed⟩ hpending hevents
      (fun timer htimer => hpushed.sequenced htimer) (fun h => ?_) fun h => ?_
    · exact List.mem_append_left _ (hinitial h)
    · exact (hattaching h).append (hpushed.settled h)
  | _ => exact ⟨⟨hunstarted, hoff, herror, huntimed⟩, hinitial, hattaching, hevents, hpending⟩

theorem Boots.ordered {authLogin authPasswd : Bytes} {maxTopics : Nat} {k : Ledger}
    (h : Boots (.fresh authLogin authPasswd maxTopics) k) : k.Ordered := by
  cases h with
  | stays => exact ⟨⟨fun _ => rfl, nofun, nofun, nofun⟩, nofun, nofun, nofun, nofun⟩
  | starts k₁ k' h hdispatch =>
    have hstate : k₁.state = some .initial ∧ k₁.events = [] ∧ k₁.pendingEvents = [] := by
      cases h <;> exact ⟨rfl, rfl, rfl⟩
    obtain ⟨hstate, hevents, hpending⟩ := hstate
    refine hdispatch.ordered ⟨?_, ?_, ?_, ?_⟩ ?_ ?_ ?_ ?_ ?_
    · simp [hstate]
    · simp [hstate]
    · simp [hstate]
    · simp [hstate]
    · simp [Ledger.Posting, hpending]
    · simp [hevents]
    · rintro timer (rfl | rfl)
      · exact .posted rfl .nil
      · exact .posted rfl .timer
    · simp [hevents]
    · simp [hstate]

/-- Every state of a run is in order. -/
theorem ordered_after (setting : Setting) (calls : List ApiCall) :
    (ledger (setting.after calls)).Ordered :=
  after_keeps_all (fun _ _ _ _ h => h.ordered) (fun h hk => h.ordered hk) setting calls

end LibNbiot
