/-
# The phases of the library

Three events come from the entry actions alone: the Initial state asks for the
choice behind it, and the Error state for a disconnect or a re-initialization.
Which of them are on their way, and in what order, depends on the state. So no
disconnect from an earlier error is left when an initialization has failed, and
every state behind the Initial and the Error one is reached by an initialized
library only.
-/

import LibNbiot.Ledger.Order

namespace LibNbiot

open Logic.Program Relation

variable {C : Option MessageHandler → List ApiCall → Bytes → Prop}

/-! ## The events of the entry actions -/

/-- The events that only the entry actions post. -/
def StmEvent.internal (e : StmEvent) : Bool := e = .initializeEvent || e.recovers

/-- The events of the entry actions among some events. -/
def internals (es : List StmEvent) : List StmEvent := es.filter (·.internal)

@[simp] theorem internals_nil : internals [] = [] := rfl

@[simp] theorem internals_append (es es' : List StmEvent) :
    internals (es ++ es') = internals es ++ internals es' := List.filter_append ..

theorem internals_cons_of_internal {e : StmEvent} (he : e.internal = true) (es : List StmEvent) :
    internals (e :: es) = e :: internals es := List.filter_cons_of_pos he

theorem internals_cons_of_not {e : StmEvent} (he : e.internal = false) (es : List StmEvent) :
    internals (e :: es) = internals es :=
  List.filter_cons_of_neg (Bool.eq_false_iff.1 he)

theorem internals_eq_nil {es : List StmEvent} (h : ∀ e ∈ es, e.internal = false) :
    internals es = [] :=
  List.filter_eq_nil_iff.2 fun e he => Bool.eq_false_iff.1 (h e he)

theorem StmEvent.recovers_internal {e : StmEvent} (h : e.recovers = true) : e.internal = true := by
  rw [StmEvent.internal, h, Bool.or_true]

/-- An event that may stand before another one in a dispatch. -/
structure StmEvent.Before (a b : StmEvent) : Prop where
  timer : a ≠ .timer
  internal : a.posted = false → b.internal = false

theorem StmEvent.Before.last {es : List StmEvent} (h : ∀ b ∈ es, StmEvent.timer.Before b) :
    es = [] :=
  List.eq_nil_iff_forall_not_mem.2 fun b hb => (h b hb).timer rfl

/-! ## Where an event goes -/

/-- The states that only an initialized library gets to. -/
def StateId.started : StateId → Bool
  | .initial | .error | .deepSleep => false
  | _ => true

/-- Where an event goes from a state, and what it does to the recovery. -/
inductive Goes (initialized : Bool) (r : Recovery) : StateId → StmEvent → StateId → Recovery → Prop
  | initialized {e : StmEvent} (he : e = .initializeEvent ∨ e = .timer) (h : initialized = true) :
      Goes initialized r .initial e .disconnected (r.setKnown true)
  | uninitialized {e : StmEvent} (he : e = .initializeEvent ∨ e = .timer)
      (h : initialized = false) : Goes initialized r .initial e .error (r.setKnown false)
  | recover : Goes initialized r .error .errorDisconnectEvent .disconnected r
  | restart {e : StmEvent} (he : e = .reInitializeEvent ∨ e = .timer) :
      Goes initialized r .error e .initial r
  | reInitialize : Goes initialized r .deepSleep .reInitializeEvent .initial r
  | timeOut : Goes initialized r .waitForAttach .timer .error r.timeOut
  | moves {st st' : StateId} {e : StmEvent} {r' : Recovery} (hst : st.started = true)
      (hst' : st' ≠ .initial) (he : e.internal = false)
      (hposted : st = .disconnected → e.posted = false) (hr : r' = r ∨ r' = r.attach) :
      Goes initialized r st e st' r'

theorem StateId.goes {initialized : Bool} {errno errno' : ErrorNumber} {r r' : Recovery}
    {st st' : StateId} {e : StmEvent} {t : Transition} (h : st.transitionFor e = some t)
    (ho : (st', errno', r') ∈ t.target.outcomes initialized t errno r) :
    Goes initialized r st e st' r' := by
  cases st <;> cases e <;> first
    | (cases h; done)
    | (cases h
       simp [Transition.target, Choice.target, Target.outcomes, Recovery.fire] at ho
       grind [Goes, StateId.started, StmEvent.internal, StmEvent.recovers, StmEvent.posted])

/-- Whether the library is initialized in the state that is entered, and which events
of the entry actions are posted then. -/
inductive StateId.Lands (initialized : Bool) (p : List StmEvent) :
    StateId → Bool → List StmEvent → Prop
  | initial (ok : Bool) : Lands initialized p .initial ok (p ++ [.initializeEvent])
  | recovered (e : StmEvent) (he : e.recovers = true) (h : initialized = true) :
      Lands initialized p .error initialized (p ++ [e])
  | failed (h : initialized = false) : Lands initialized p .error initialized p
  | off : Lands initialized p .deepSleep false p
  | started {st : StateId} (h : st.started = true) : Lands initialized p st initialized p

theorem StateId.Enters.lands {e : StmEvent} {st : StateId} {k k' : Ledger} (h : st.Enters e k k') :
    k'.state = some st ∧ st.Lands k.initialized (internals k.pendingEvents) k'.initialized
      (internals k'.pendingEvents) := by
  cases h with
  | initial ok timeout he =>
    refine ⟨rfl, ?_⟩
    rw [internals_append]
    exact .initial ok
  | recovered hinit =>
    have hway := k.recovery.way_recovers
    refine ⟨rfl, ?_⟩
    rw [internals_append, internals_cons_of_internal (StmEvent.recovers_internal hway)]
    exact .recovered _ hway hinit
  | failed timeout hinit => exact ⟨rfl, .failed hinit⟩
  | disconnected k' h =>
    obtain ⟨cs, -, rfl⟩ := h
    exact ⟨rfl, .started rfl⟩
  | deepSleep k' h =>
    obtain ⟨cs, -, rfl⟩ := h
    exact ⟨rfl, .off⟩
  | _ => exact ⟨rfl, .started rfl⟩

/-- Handling an event does nothing or goes to a state and enters it. -/
theorem Reacts.goes {e : StmEvent} {k k' : Ledger} (h : Reacts e k k') :
    k.transitionFor e = none ∧ k' = k ∨
      ∃ st st' errno recovery queue, k.state = some st ∧
        Goes k.initialized k.recovery st e st' recovery ∧
          st'.Enters e { k with errno := errno, recovery := recovery, queue := queue } k' := by
  obtain hnone | ⟨st, st', t, errno, recovery, queue, hst, ht, ho, henter⟩ := h.outcome
  · exact .inl hnone
  · exact .inr ⟨st, st', errno, recovery, queue, hst, StateId.goes ht ho, henter⟩

/-! ## Phases -/

/-- What is on its way in a state: the events that are to be handled, and of those
that are posted only the ones of the entry actions. -/
inductive Phase (initialized : Bool) : Option StateId → List StmEvent → List StmEvent → Prop
  | calm {st : Option StateId} {es : List StmEvent} (hst : st ≠ some .initial)
      (h : st.any StateId.started = true → initialized = true) (hes : internals es = []) :
      Phase initialized st es []
  /-- The state machine is in error, and one event gets it out. -/
  | failed {e : StmEvent} {es p : List StmEvent} (h : initialized = true) (he : e.recovers = true)
      (hes : internals es ++ p = [e]) : Phase initialized (some .error) es p
  /-- The Initial state was entered in this dispatch. -/
  | entered {es l p : List StmEvent} (hl : ∀ e ∈ l, e.recovers = true) (hidle : l = [] ∨ es = [])
      (hes : internals es = []) (hp : p = l ++ [.initializeEvent]) :
      Phase initialized (some .initial) es p
  | starting {es l : List StmEvent} (hl : ∀ e ∈ l, e.recovers = true)
      (hes : internals es = l ++ [.initializeEvent]) : Phase initialized (some .initial) es []
  /-- The timeout of the Initial state was faster than the event. -/
  | late {st : StateId} {es p : List StmEvent}
      (hst : st = .disconnected ∧ initialized = true ∨ st = .error ∧ initialized = false)
      (h : es = [] ∧ p = [.initializeEvent] ∨ internals es = [.initializeEvent] ∧ p = []) :
      Phase initialized (some st) es p
  | off {es : List StmEvent} (hes : internals es = [.reInitializeEvent]) :
      Phase initialized (some .deepSleep) es []

namespace Phase

variable {initialized initialized' : Bool} {st st' : StateId} {e : StmEvent}
  {es p p' : List StmEvent} {r r' : Recovery}

theorem started (h : Phase initialized (some st) es p) (hst : st.started = true) :
    initialized = true := by
  cases h with
  | calm hst' h hes => exact h hst
  | late h =>
    obtain ⟨-, hinit⟩ | ⟨rfl, -⟩ := h
    · exact hinit
    · cases hst
  | _ => cases hst

/-- Another event changes nothing about those of the entry actions. -/
theorem tail {st : Option StateId} (h : Phase initialized st (e :: es) p)
    (he : e.internal = false) : Phase initialized st es p := by
  cases h with
  | calm hst h hes => exact .calm hst h ((internals_cons_of_not he es).symm.trans hes)
  | failed h hrecovers hes =>
    rw [internals_cons_of_not he] at hes
    exact .failed h hrecovers hes
  | entered hl hidle hes hp =>
    exact .entered hl (.inl (hidle.resolve_right nofun))
      ((internals_cons_of_not he es).symm.trans hes) hp
  | starting hl hes => exact .starting hl ((internals_cons_of_not he es).symm.trans hes)
  | late hst h =>
    obtain ⟨hnil, -⟩ | ⟨hes, hp⟩ := h
    · cases hnil
    · exact .late hst (.inr ⟨(internals_cons_of_not he es).symm.trans hes, hp⟩)
  | off hes => exact .off ((internals_cons_of_not he es).symm.trans hes)

/-- The states in which an event of the entry actions is the last one of them. -/
inductive Last (initialized : Bool) : StmEvent → Option StateId → Prop
  | failed {e : StmEvent} (h : initialized = true) (he : e.recovers = true) :
      Last initialized e (some .error)
  | starting : Last initialized .initializeEvent (some .initial)
  | late {st : StateId}
      (hst : st = .disconnected ∧ initialized = true ∨ st = .error ∧ initialized = false) :
      Last initialized .initializeEvent (some st)
  | off : Last initialized .reInitializeEvent (some .deepSleep)

/-- An event of the entry actions comes too late in the Initial state, or is the last
of them. -/
theorem head {st : Option StateId} (h : Phase initialized st (e :: es) p)
    (he : e.internal = true) :
    st = some .initial ∧ e.recovers = true ∧ Phase initialized st es p ∨
      internals es = [] ∧ p = [] ∧ Last initialized e st := by
  have hcons := internals_cons_of_internal he es
  cases h with
  | calm hst h hes => cases hcons.symm.trans hes
  | failed h hrecovers hes =>
    rw [hcons] at hes
    obtain ⟨rfl, hnil⟩ := List.cons.inj hes
    obtain ⟨hes, hp⟩ := List.append_eq_nil_iff.1 hnil
    exact .inr ⟨hes, hp, .failed h hrecovers⟩
  | entered hl hidle hes hp => cases hcons.symm.trans hes
  | @starting _ l hl hes =>
    rw [hcons] at hes
    cases l with
    | nil =>
      obtain ⟨rfl, hrest⟩ := List.cons.inj hes
      exact .inr ⟨hrest, rfl, .starting⟩
    | cons e' l =>
      obtain ⟨rfl, hrest⟩ := List.cons.inj hes
      exact .inl ⟨rfl, hl _ List.mem_cons_self,
        .starting (fun e he => hl e (List.mem_cons_of_mem _ he)) hrest⟩
  | late hst h =>
    obtain ⟨hnil, -⟩ | ⟨hes, hp⟩ := h
    · cases hnil
    · obtain ⟨rfl, hrest⟩ := List.cons.inj (hcons.symm.trans hes)
      exact .inr ⟨hrest, hp, .late hst⟩
  | off hes =>
    obtain ⟨rfl, hrest⟩ := List.cons.inj (hcons.symm.trans hes)
    exact .inr ⟨hrest, rfl, .off⟩

/-- An event that nobody waits for is of no use. -/
theorem skip {st : Option StateId} (h : Phase initialized st (e :: es) p)
    (hnone : st.bind (·.transitionFor e) = none) : Phase initialized st es p := by
  cases he : e.internal with
  | false => exact h.tail he
  | true =>
    obtain ⟨-, -, hrest⟩ | ⟨hes, rfl, hlast⟩ := h.head he
    · exact hrest
    · cases hlast with
      | failed h hrecovers => cases e <;> first | (cases hrecovers; done) | cases hnone
      | starting => cases hnone
      | late hst =>
        obtain ⟨rfl, hinit⟩ | ⟨rfl, -⟩ := hst
        · exact .calm nofun (fun _ => hinit) hes
        · exact .calm nofun nofun hes
      | off => cases hnone

/-- The Initial state is left by its event, or by a timeout that was faster. -/
theorem of_initial (h : Phase initialized (some .initial) (e :: es) p)
    (hbefore : ∀ b ∈ es, e.Before b) (he : e = .initializeEvent ∨ e = .timer)
    (hst : st = .disconnected ∧ initialized = true ∨ st = .error ∧ initialized = false) :
    Phase initialized (some st) es p := by
  obtain rfl | rfl := he
  · obtain ⟨-, hrecovers, -⟩ | ⟨hes, rfl, -⟩ := h.head rfl
    · cases hrecovers
    · obtain ⟨rfl, hinit⟩ | ⟨rfl, -⟩ := hst
      · exact .calm nofun (fun _ => hinit) hes
      · exact .calm nofun nofun hes
  · obtain rfl := StmEvent.Before.last hbefore
    cases h with
    | calm hst h hes => exact absurd rfl hst
    | @entered _ l _ hl hidle hes hp =>
      have hnil : l = [] := hidle.resolve_right nofun
      subst hnil
      exact .late hst (.inl ⟨rfl, hp⟩)
    | @starting _ l hl hes => cases l <;> cases hes
    | late h _ => obtain ⟨h, -⟩ | ⟨h, -⟩ := h <;> cases h

/-- In error, the Initial state is entered for its event or by a timeout. -/
theorem of_error (h : Phase initialized (some .error) (e :: es) p)
    (hbefore : ∀ b ∈ es, e.Before b) (he : e = .reInitializeEvent ∨ e = .timer) :
    Phase initialized' (some .initial) es (p ++ [.initializeEvent]) := by
  obtain rfl | rfl := he
  · obtain ⟨h, -⟩ | ⟨hes, rfl, -⟩ := h.head rfl
    · cases h
    · exact .entered (l := []) nofun (.inl rfl) hes rfl
  · obtain rfl := StmEvent.Before.last hbefore
    cases h with
    | calm hst h hes => exact .entered (l := []) nofun (.inl rfl) rfl rfl
    | failed h he hes =>
      have hp : p = [_] := hes
      refine .entered (l := p) ?_ (.inr rfl) rfl rfl
      intro e' he'
      rw [hp, List.mem_singleton] at he'
      exact he' ▸ he
    | late hst h =>
      obtain ⟨hnil, -⟩ | ⟨hes, -⟩ := h
      · cases hnil
      · cases hes

/-- A started library has handled all events of the entry actions. -/
theorem of_started (h : Phase initialized (some st) (e :: es) p) (hst : st.started = true)
    (hbefore : ∀ b ∈ es, e.Before b) (he : e.internal = false)
    (hposted : st = .disconnected → e.posted = false) :
    initialized = true ∧ internals es = [] ∧ p = [] := by
  have hinit := h.started hst
  have hcons := internals_cons_of_not he es
  cases h with
  | calm hst' h hes => exact ⟨hinit, hcons.symm.trans hes, rfl⟩
  | late hst' h =>
    obtain ⟨rfl, -⟩ | ⟨rfl, -⟩ := hst'
    · obtain ⟨hnil, -⟩ | ⟨hes, -⟩ := h
      · cases hnil
      · have hnone := internals_eq_nil fun b hb => (hbefore b hb).internal (hposted rfl)
        rw [hcons, hnone] at hes
        cases hes
    · cases hst
  | _ => cases hst

/-- From a calm library any state but the Initial one is entered in order. -/
theorem land {p₀ : List StmEvent} (hlands : st'.Lands initialized p₀ initialized' p')
    (hst' : st' ≠ .initial) (hinit : initialized = true) (hes : internals es = [])
    (hp : p₀ = []) : Phase initialized' (some st') es p' := by
  subst hp
  cases hlands with
  | initial ok => exact absurd rfl hst'
  | recovered e he h => exact .failed h he (by rw [hes, List.nil_append, List.nil_append])
  | failed h => exact absurd (h.symm.trans hinit) nofun
  | off => exact .calm nofun nofun hes
  | started h => exact .calm (fun h' => hst' (Option.some.inj h')) (fun _ => hinit) hes

theorem go (h : Phase initialized (some st) (e :: es) p) (hbefore : ∀ b ∈ es, e.Before b)
    (hgoes : Goes initialized r st e st' r') (hlands : st'.Lands initialized p initialized' p') :
    Phase initialized' (some st') es p' := by
  cases hgoes with
  | initialized he hinit =>
    cases hlands
    exact h.of_initial hbefore he (.inl ⟨rfl, hinit⟩)
  | uninitialized he hinit =>
    cases hlands with
    | recovered e he h => exact absurd (hinit.symm.trans h) nofun
    | failed => exact h.of_initial hbefore he (.inr ⟨rfl, hinit⟩)
    | started h => cases h
  | recover =>
    obtain ⟨h, -⟩ | ⟨hes, hp, hlast⟩ := h.head rfl
    · cases h
    · cases hlast with
      | failed hinit => exact land hlands nofun hinit hes hp
  | restart he =>
    cases hlands with
    | initial ok => exact h.of_error hbefore he
    | started h => cases h
  | reInitialize =>
    obtain ⟨h, -⟩ | ⟨hes, rfl, -⟩ := h.head rfl
    · cases h
    · cases hlands with
      | initial ok => exact .entered (l := []) nofun (.inl rfl) hes rfl
      | started h => cases h
  | timeOut =>
    obtain ⟨hinit, hes, hp⟩ := h.of_started rfl hbefore rfl nofun
    exact land hlands nofun hinit hes hp
  | moves hst hst' he hposted hr =>
    obtain ⟨hinit, hes, hp⟩ := h.of_started hst hbefore he hposted
    exact land hlands hst' hinit hes hp

/-- Of the events only those of the entry actions matter. -/
theorem congr {st : Option StateId} {es' : List StmEvent} (h : Phase initialized st es [])
    (hes' : internals es' = internals es) : Phase initialized st es' [] := by
  cases h with
  | calm hst h hes => exact .calm hst h (hes'.trans hes)
  | failed h he hes => exact .failed h he (hes' ▸ hes)
  | entered hl hidle hes hp => exact absurd hp.symm (List.append_ne_nil_of_right_ne_nil _ nofun)
  | starting hl hes => exact .starting hl (hes'.trans hes)
  | late hst h =>
    obtain ⟨-, hp⟩ | ⟨hes, -⟩ := h
    · cases hp
    · exact .late hst (.inr ⟨hes'.trans hes, rfl⟩)
  | off hes => exact .off (hes'.trans hes)

/-- At the end of a dispatch the posted events get ready. -/
theorem turn {st : Option StateId} {ready : List StmEvent} (h : Phase initialized st ready p)
    (hready : ready = []) (hp : internals es = p) :
    Phase initialized st es [] ∧ (st = some .deepSleep → internals es = []) := by
  cases h with
  | calm hst h hes => exact ⟨.calm hst h hp, fun _ => hp⟩
  | failed h he hes =>
    subst hready
    refine ⟨.failed h he ?_, nofun⟩
    rw [List.append_nil, hp]
    exact hes
  | entered hl hidle hes hp' => exact ⟨.starting hl (hp.trans hp'), nofun⟩
  | @starting _ l hl hes =>
    subst hready
    cases l <;> cases hes
  | late hst h =>
    subst hready
    obtain ⟨-, hp'⟩ | ⟨hes, -⟩ := h
    · refine ⟨.late hst (.inr ⟨hp.trans hp', rfl⟩), ?_⟩
      obtain ⟨rfl, -⟩ | ⟨rfl, -⟩ := hst <;> nofun
    · cases hes
  | off hes =>
    subst hready
    cases hes

end Phase

/-! ## Dispatches -/

/-- The phase in the course of a dispatch that has yet to handle some events. -/
structure Ledger.InPhase (es : List StmEvent) (k : Ledger) : Prop where
  phase : Phase k.initialized k.state es (internals k.pendingEvents)
  before : es.Pairwise StmEvent.Before

theorem Ledger.InPhase.step {e : StmEvent} {es : List StmEvent} {k k' : Ledger}
    (hk : k.InPhase (e :: es)) (h : Reacts e { k with events := es } k') : k'.InPhase es := by
  obtain ⟨hphase, hbefore⟩ := hk
  obtain ⟨hhead, htail⟩ := List.pairwise_cons.1 hbefore
  refine ⟨?_, htail⟩
  obtain ⟨hnone, rfl⟩ | ⟨st, st', errno, recovery, queue, hst, hgoes, henter⟩ := h.goes
  · exact hphase.skip hnone
  · have hst : k.state = some st := hst
    obtain ⟨hst', hlands⟩ := henter.lands
    rw [hst] at hphase
    rw [hst']
    exact hphase.go hhead hgoes hlands

/-- The phase between two dispatches. -/
structure Ledger.Phased (k : Ledger) : Prop where
  phase : Phase k.initialized k.state k.events []
  asleep : k.state = some .deepSleep → internals k.events = []

/-- Posted events come first and the timer last. -/
theorem StmEvent.pairwise_before {es pushed timer : List StmEvent} (hes : ∀ e ∈ es, e.posted = true)
    (hpushed : pushed = [] ∨ ∃ e, e ≠ .timer ∧ pushed = [e])
    (htimer : timer = [] ∨ timer = [.timer]) :
    (es ++ pushed ++ timer).Pairwise StmEvent.Before := by
  have hposted {a : StmEvent} (ha : a.posted = true) (b : StmEvent) : a.Before b :=
    ⟨fun htimer => absurd (htimer ▸ ha) nofun, fun hno => absurd (ha.symm.trans hno) nofun⟩
  have hlast {a b : StmEvent} (ha : a ≠ .timer) (hb : b ∈ timer) : a.Before b := by
    obtain rfl | rfl := htimer
    · cases hb
    · rw [List.mem_singleton.1 hb]
      exact ⟨ha, fun _ => rfl⟩
  have htimes : timer.Pairwise StmEvent.Before := by
    obtain rfl | rfl := htimer
    · exact .nil
    · exact List.pairwise_singleton ..
  have hpushes : (pushed ++ timer).Pairwise StmEvent.Before := by
    obtain rfl | ⟨e, he, rfl⟩ := hpushed
    · exact htimes
    · exact List.pairwise_cons.2 ⟨fun b hb => hlast he hb, htimes⟩
  rw [List.append_assoc, List.pairwise_append]
  refine ⟨?_, hpushes, fun a ha b hb => hposted (hes a ha) b⟩
  exact List.pairwise_of_forall_mem_list fun a ha b _ => hposted (hes a ha) b

/-- What is known before a dispatch of some pushed events. -/
structure Ledger.Ready (pushed : List StmEvent) (k : Ledger) : Prop where
  posting : k.Posting
  events : ∀ e ∈ k.events, e.posted = true
  single : pushed = [] ∨ ∃ e, e ≠ .timer ∧ pushed = [e]
  phase : Phase k.initialized k.state (k.events ++ pushed) []

theorem Ledger.Ready.inPhase {pushed timer : List StmEvent} {k : Ledger} (h : k.Ready pushed)
    (htimer : timer = [] ∨ timer = [.timer]) (timeout : Bool) :
    Ledger.InPhase (k.events ++ pushed ++ timer) { k with timeout := timeout } := by
  have hpending : internals k.pendingEvents = [] := by
    refine internals_eq_nil fun e he => ?_
    obtain rfl | rfl | rfl := h.posting e he <;> rfl
  have hinternals : internals (k.events ++ pushed ++ timer) = internals (k.events ++ pushed) := by
    obtain rfl | rfl := htimer
    · rw [List.append_nil]
    · rw [internals_append]
      exact List.append_nil _
  refine ⟨?_, StmEvent.pairwise_before h.events h.single htimer⟩
  rw [hpending]
  exact h.phase.congr hinternals

theorem Dispatches.phased {pushed : List StmEvent} {k k' : Ledger} (h : Dispatches pushed k k')
    (hready : k.Ready pushed) : k'.Phased := by
  obtain ⟨timer, timeout, k', htimer, htimeout, h⟩ := h
  obtain ⟨k₁, hk₁, rfl⟩ := h.keeps (D := fun es k => k.InPhase es)
    (fun hk hreacts => Ledger.InPhase.step hk hreacts)
    (hready.inPhase (htimer.imp_right And.left) timeout)
  obtain ⟨hphase, hasleep⟩ := hk₁.phase.turn rfl rfl
  exact ⟨hphase, hasleep⟩

theorem Ledger.Pushes.ready {pushed : List StmEvent} {k : Ledger} (h : k.Pushes pushed)
    (hordered : k.Ordered) (hk : k.Phased) : k.Ready pushed := by
  cases h with
  | nothing =>
    refine ⟨hordered.pendingEvents, hordered.events, .inl rfl, ?_⟩
    rw [List.append_nil]
    exact hk.phase
  | order e he =>
    have hno : e.internal = false ∧ e ≠ .timer := by
      cases e <;> first | (cases he; done) | exact ⟨rfl, nofun⟩
    refine ⟨hordered.pendingEvents, hordered.events, .inr ⟨e, hno.2, rfl⟩, hk.phase.congr ?_⟩
    rw [internals_append, internals_cons_of_not hno.1, internals_nil, List.append_nil]
  | reInitialize hstate =>
    refine ⟨hordered.pendingEvents, hordered.events, .inr ⟨.reInitializeEvent, nofun, rfl⟩, ?_⟩
    rw [hstate]
    refine .off ?_
    rw [internals_append, hk.asleep hstate]
    rfl

/-- Every change keeps the phase. -/
theorem Change.phased {k k' : Ledger} (h : Change C k k') (hordered : k.Ordered) (hk : k.Phased) :
    k'.Phased := by
  cases h with
  | enqueue h =>
    obtain ⟨cs, -, rfl⟩ := h
    exact ⟨hk.phase, hk.asleep⟩
  | dispatch pushed hpushed h => exact h.phased (hpushed.ready hordered hk)
  | _ => exact ⟨hk.phase, hk.asleep⟩

/-- The first dispatch is that of the initialization. -/
theorem Initializes.ready {authLogin authPasswd : Bytes} {maxTopics : Nat} {k : Ledger}
    (h : Initializes
      { Ledger.fresh authLogin authPasswd maxTopics with state := some .initial, timeout := false }
      k) : k.Ready [.initializeEvent] := by
  have hstart : Phase k.initialized (some .initial) ([] ++ [.initializeEvent]) [] :=
    .starting (l := []) nofun rfl
  cases h with
  | failed timeout => exact ⟨nofun, nofun, .inr ⟨.initializeEvent, nofun, rfl⟩, hstart⟩
  | succeeded login timeout hlogin => exact ⟨nofun, nofun, .inr ⟨.initializeEvent, nofun, rfl⟩, hstart⟩

theorem Boots.phased {authLogin authPasswd : Bytes} {maxTopics : Nat} {k : Ledger}
    (h : Boots (.fresh authLogin authPasswd maxTopics) k) : k.Phased := by
  cases h with
  | stays => exact ⟨.calm nofun nofun rfl, nofun⟩
  | starts k₁ k' h hdispatch => exact hdispatch.phased h.ready

/-- Every state of a run is in order and in a phase. -/
theorem phased_after (setting : Setting) (calls : List ApiCall) :
    (ledger (setting.after calls)).Ordered ∧ (ledger (setting.after calls)).Phased :=
  after_keeps_all (J := fun k => k.Ordered ∧ k.Phased) (fun _ _ _ _ h => ⟨h.ordered, h.phased⟩)
    (fun h hk => ⟨h.ordered hk.1, h.phased hk.1 hk.2⟩) setting calls

/-- In every state behind the Initial and the Error one the library is initialized. -/
theorem initialized_of_started (setting : Setting) (calls : List ApiCall) {st : StateId}
    (hstate : (setting.after calls).rest.stm.currentState = some st) (hst : st.started = true) :
    (setting.after calls).rest.pool.initialized = true := by
  have hphase := (phased_after setting calls).2.phase
  rw [show (ledger (setting.after calls)).state = some st from hstate] at hphase
  exact hphase.started hst

end LibNbiot
