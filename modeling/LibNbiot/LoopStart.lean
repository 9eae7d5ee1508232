/-
# Starting before stepping

Loop clients whose handlers answer whatever they like, driven by an arbitrary
sequence of controller calls. The question is whether a client that is taken
from the queue is started before it is stepped or stopped.

It is, unless the client was discarded while it was pending: clearing the
controller drops the active client but leaves the client's own flag at pending,
and `preLoopStep` does not start a pending client. The condition is exact.
-/

import LibNbiot.Loop
import LibNbiot.Logic.Splitting
import Mathlib.Data.List.Infix

namespace LibNbiot

open Logic.Program

namespace LoopStart

/-! ## Scripted clients -/

/-- The answers handed out to the handlers, in the order in which they are
called, each with the value the handler leaves behind. -/
structure Script where
  reply : Nat → Bool × Int
  asked : Nat := 0

/-- The log entries of scripted clients show nothing but the event. -/
instance {ι : Type} : Observed ι Script Unit where
  view _ _ := ()

variable {ι : Type} [DecidableEq ι]

/-- Loop clients with scripted handlers, and their controller. -/
abbrev World (ι : Type) := LoopWorld ι Empty Unit Script

/-- A handler that answers from the script. -/
def scripted (c : ι) : StateM (World ι) Bool := do
  let script := (← get).rest
  let (answer, value) := script.reply script.asked
  modify fun s => { s with rest := { script with asked := script.asked + 1 } }
  setValue c value
  return answer

variable (loopId : ι → NbiotLoopId)

/-- Every client has all three handlers attached. -/
def wiring : LoopWiring ι (World ι) where
  loopId := loopId
  handler c _ := some (scripted c)

@[simp]
theorem wiring_handler (c : ι) (phase : LoopPhase) :
    (wiring loopId).handler c phase = some (scripted c) := rfl

/-- The calls an application of the controller can make. -/
inductive Op (ι : Type) where
  | registerLoopClient (c : ι)
  | registerNull
  | loopBreak
  | nbiotLoop
  deriving DecidableEq, Repr

def exec : Op ι → World ι → World ι
  | .registerLoopClient c, s => (registerLoopClient (some c) s).2
  | .registerNull, s => (registerLoopClient none s).2
  | .loopBreak, s => (LibNbiot.loopBreak s).2
  | .nbiotLoop, s => (LibNbiot.nbiotLoop (wiring loopId) s).2

/-- A run from freshly constructed clients and controller. -/
def run (reply : Nat → Bool × Int) (ops : List (Op ι)) : World ι :=
  ops.foldl (fun s op => exec loopId op s) { rest := { reply } }

theorem run_append_singleton (reply : Nat → Bool × Int) (ops : List (Op ι)) (op : Op ι) :
    run loopId reply (ops ++ [op]) = exec loopId op (run loopId reply ops) := by
  simp [run]

/-! ## The law and its exception -/

abbrev Log (ι : Type) := List (Entry ι Empty Unit)

/-- Has the start handler answered true since the client was last taken? -/
def started (c : ι) : Log ι → Bool
  | [] => false
  | ⟨.answered c' .start answer _, _⟩ :: t => if c' = c then answer else started c t
  | ⟨.taken c' _, _⟩ :: t => if c' = c then false else started c t
  | _ :: t => started c t

/-- Was the client dropped by a clear while it was active, and not brought to
an end since? -/
def discarded (c : ι) : Log ι → Bool
  | [] => false
  | ⟨.cleared active _, _⟩ :: t => if active = some c then true else discarded c t
  | ⟨.answered c' .start _ _, _⟩ :: t => if c' = c then false else discarded c t
  | ⟨.answered c' .stop _ _, _⟩ :: t => if c' = c then false else discarded c t
  | _ :: t => discarded c t

/-- Is this the call of the client's start handler? -/
def isStart (c : ι) (e : Entry ι Empty Unit) : Bool :=
  match e.event with
  | .called c' .start _ => c' = c
  | _ => false

/-- A call that goes from one log to the other runs the start handler of each
client it takes exactly once. -/
def StartsTaken (before after : Log ι) : Prop :=
  ∀ new, after = new ++ before → ∀ c r, ⟨.taken c r, ()⟩ ∈ new → new.countP (isStart c) = 1

/-- Step and stop handlers run only in an activation whose start handler has
answered true. -/
def StepsStarted (trace : Log ι) : Prop :=
  ∀ t c p v, ⟨.called c p v, ()⟩ :: t <:+ trace → p ≠ .start → started c t = true

/-- **Start before step**, along a whole run. -/
def StartBeforeStep (reply : Nat → Bool × Int) (ops : List (Op ι)) : Prop :=
  (∀ pre post, ops = pre ++ .nbiotLoop :: post →
    StartsTaken (run loopId reply pre).trace (run loopId reply (pre ++ [.nbiotLoop])).trace) ∧
  StepsStarted (run loopId reply ops).trace

/-- No client is taken after having been discarded while it was pending. -/
def NoDiscardedTaken (trace : Log ι) : Prop :=
  ∀ t c r, ⟨.taken c r, ()⟩ :: t <:+ trace → discarded c t = false

/-! ## What one turn does -/

/-- The result flags after one client's flag was set. -/
def Flagged (s s' : World ι) (c : ι) (r : NbiotResult) : Prop :=
  ∀ d, (s'.client d).result = if d = c then r else (s.client d).result

/-- The possible outcomes of a turn of the controller. -/
inductive Turn (s s' : World ι) : Prop where
  /-- A deferred break leaves nothing to take in the same turn. -/
  | broken (after : s'.loop.loopClient = none) (same : s'.client = s.client)
      (trace : s'.trace = ⟨.cleared s.loop.loopClient s.loop.clientList, ()⟩ :: s.trace)
  | idle (before : s.loop.loopClient = none) (after : s'.loop.loopClient = none)
      (same : s'.client = s.client) (trace : s'.trace = s.trace)
  /-- A client that is still pending is taken without being started. -/
  | resumed (c : ι) (before : s.loop.loopClient = none)
      (flag : (s.client c).result = .pending) (after : s'.loop.loopClient = some c)
      (same : s'.client = s.client)
      (trace : s'.trace = ⟨.taken c .pending, ()⟩ :: s.trace)
  | started (c : ι) (answer : Bool) (r : NbiotResult) (v v' : Int)
      (before : s.loop.loopClient = none) (flag : (s.client c).result = r) (fresh : r ≠ .pending)
      (after : s'.loop.loopClient = if answer then some c else none)
      (flagged : Flagged s s' c (if answer then .pending else .fail))
      (trace : s'.trace =
        ⟨.answered c .start answer v', ()⟩ :: ⟨.called c .start v, ()⟩ :: ⟨.taken c r, ()⟩ ::
          s.trace)
  | stepped (c : ι) (v v' : Int) (before : s.loop.loopClient = some c)
      (after : s'.loop.loopClient = some c) (flagged : Flagged s s' c .pending)
      (trace : s'.trace =
        ⟨.answered c .step true v', ()⟩ :: ⟨.called c .step v, ()⟩ :: s.trace)
  | stopped (c : ι) (answer : Bool) (r : NbiotResult) (v₁ v₂ v₃ : Int)
      (before : s.loop.loopClient = some c) (after : s'.loop.loopClient = none)
      (ended : r ≠ .pending) (flagged : Flagged s s' c r)
      (trace : s'.trace =
        ⟨.answered c .stop answer v₃, ()⟩ :: ⟨.called c .stop v₂, ()⟩ ::
          ⟨.answered c .step false v₂, ()⟩ :: ⟨.called c .step v₁, ()⟩ :: s.trace)
  /-- An active client that is not pending leaves without a handler call. -/
  | lapsed (c : ι) (before : s.loop.loopClient = some c)
      (flag : (s.client c).result ≠ .pending) (after : s'.loop.loopClient = none)
      (same : s'.client = s.client) (trace : s'.trace = s.trace)

/-- What a handler leaves: the controller as it was, the client's flag, and its calls
in the log. -/
structure Handled (s s' : World ι) (c : ι) (r : NbiotResult) (calls : Log ι) : Prop where
  loop : s'.loop = s.loop
  flagged : Flagged s s' c r
  trace : s'.trace = calls ++ s.trace

/-- The two log entries of one handler call. -/
def callLog (c : ι) (phase : LoopPhase) (answer : Bool) (v v' : Int) : Log ι :=
  [⟨.answered c phase answer v', ()⟩, ⟨.called c phase v, ()⟩]

/-- Another flag is set over the one that is there. -/
theorem Handled.setResult {s s' : World ι} {c : ι} {r : NbiotResult} {calls : Log ι}
    (h : Handled s s' c r calls) (r' : NbiotResult) :
    Handled s (LibNbiot.setResult c r' s').2 c r' calls := by
  refine ⟨h.loop, fun d => ?_, h.trace⟩
  have hd := h.flagged d
  by_cases hdc : d = c <;> simp_all

theorem Handled.trans {s s' s'' : World ι} {c : ι} {r r' : NbiotResult} {calls calls' : Log ι}
    (h : Handled s s' c r calls) (h' : Handled s' s'' c r' calls') :
    Handled s s'' c r' (calls' ++ calls) := by
  refine ⟨h'.loop.trans h.loop, fun d => ?_, ?_⟩
  · have hd := h.flagged d
    have hd' := h'.flagged d
    by_cases hdc : d = c <;> simp_all
  · rw [h'.trace, h.trace, List.append_assoc]

/-- A handler call answers from the script, and leaves the flag. -/
theorem callHandler_handled (c : ι) (phase : LoopPhase) (s : World ι) :
    ∃ v', Handled s (callHandler c phase (scripted c) s).2 c (s.client c).result
        (callLog c phase (callHandler c phase (scripted c) s).1 (s.client c).loopCtrl v') ∧
      ((callHandler c phase (scripted c) s).2.client c).loopCtrl = v' := by
  refine ⟨_, ⟨rfl, fun d => ?_, rfl⟩, rfl⟩
  by_cases hd : d = c <;> simp [callHandler, scripted, hd]

theorem startClient_handled (c : ι) (s : World ι) :
    ∃ answer v', Handled s (startClient (wiring loopId) c s).2 c
      (if answer then .pending else .fail) (callLog c .start answer (s.client c).loopCtrl v') := by
  obtain ⟨v', h, -⟩ := callHandler_handled c .start s
  refine ⟨(callHandler c .start (scripted c) s).1, v', ?_⟩
  simp only [startClient, wiring_handler, run_bind]
  generalize callHandler c .start (scripted c) s = called at h ⊢
  cases hanswer : called.1 with
  | true => simpa [hanswer] using h.setResult .pending
  | false => simpa [hanswer] using h.setResult .fail

theorem stopClient_handled (c : ι) (s : World ι) :
    ∃ answer v', Handled s (stopClient (wiring loopId) c s).2 c
      (if answer then .success else .fail) (callLog c .stop answer (s.client c).loopCtrl v') := by
  obtain ⟨v', h, -⟩ := callHandler_handled c .stop s
  refine ⟨(callHandler c .stop (scripted c) s).1, v', ?_⟩
  simp only [stopClient, wiring_handler, run_bind]
  generalize callHandler c .stop (scripted c) s = called at h ⊢
  cases hanswer : called.1 with
  | true => simpa [hanswer] using h.setResult .success
  | false => simpa [hanswer] using h.setResult .fail

/-- A pending client goes on, or it is stopped in the same turn. -/
theorem stepClient_handled {c : ι} {s : World ι} (hpending : (s.client c).result = .pending) :
    (∃ v', Handled s (stepClient (wiring loopId) c s).2 c .pending
      (callLog c .step true (s.client c).loopCtrl v')) ∨
    ∃ answer r v₂ v₃, r ≠ .pending ∧ Handled s (stepClient (wiring loopId) c s).2 c r
      (callLog c .stop answer v₂ v₃ ++ callLog c .step false (s.client c).loopCtrl v₂) := by
  obtain ⟨v', h, hv'⟩ := callHandler_handled c .step s
  simp only [stepClient, wiring_handler, run_bind]
  generalize callHandler c .step (scripted c) s = called at h hv' ⊢
  cases hanswer : called.1 with
  | true =>
    left
    refine ⟨v', ?_⟩
    simpa [hanswer] using h.setResult .pending
  | false =>
    right
    have hflag : (called.2.client c).result = .pending := by
      rw [h.flagged c, if_pos rfl, hpending]
    obtain ⟨answer, v₃, hstop⟩ := stopClient_handled loopId c called.2
    rw [hv'] at hstop
    have hboth := h.trans hstop
    rw [hanswer] at hboth
    by_cases hsuccess : ((stopClient (wiring loopId) c called.2).2.client c).result = .success
    · refine ⟨answer, .idle, v', v₃, by decide, ?_⟩
      simpa [postLoopStep, hflag, hsuccess] using hboth.setResult .idle
    · refine ⟨answer, .fail, v', v₃, by decide, ?_⟩
      simpa [postLoopStep, hflag, hsuccess] using hboth.setResult .fail

theorem stepActive_turn {c : ι} {s : World ι} (hactive : s.loop.loopClient = some c) :
    Turn s (stepActive (wiring loopId) c s).2 := by
  by_cases hflag : (s.client c).result = .pending
  · rcases stepClient_handled loopId hflag with ⟨v', h⟩ | ⟨answer, r, v₂, v₃, hended, h⟩
    · have hpending := (h.flagged c).trans (if_pos rfl)
      apply Turn.stepped c (s.client c).loopCtrl v' hactive
      · simp [stepActive, loopStep, hactive, hflag, hpending, h.loop]
      · intro d
        simpa [stepActive, loopStep, hflag, hpending] using h.flagged d
      · simpa [stepActive, loopStep, hflag, hpending, callLog] using h.trace
    · have hover : ((stepClient (wiring loopId) c s).2.client c).result ≠ .pending := by
        rwa [h.flagged c, if_pos rfl]
      apply Turn.stopped c answer r (s.client c).loopCtrl v₂ v₃ hactive ?_ hended
      · intro d
        simpa [stepActive, loopStep, hflag, hover] using h.flagged d
      · simpa [stepActive, loopStep, hflag, hover, callLog] using h.trace
      · simp [stepActive, loopStep, hflag, hover]
  · apply Turn.lapsed c hactive hflag <;> simp [stepActive, loopStep, hflag]

theorem takeClient_turn {c : ι} {s : World ι} (queue : List ι)
    (hnone : s.loop.loopClient = none) : Turn s (takeClient (wiring loopId) c queue s).2 := by
  by_cases hflag : (s.client c).result = .pending
  · apply Turn.resumed c hnone hflag <;> simp [takeClient, takeFront, preLoopStep, hflag]
  · obtain ⟨answer, v', h⟩ := startClient_handled loopId c (takeFront (wiring loopId) c queue s).2
    have hresult := (h.flagged c).trans (if_pos rfl)
    have hloop := h.loop
    apply Turn.started c answer _ (s.client c).loopCtrl v' hnone rfl hflag
    · cases answer <;> simp_all [takeClient, takeFront, preLoopStep]
    · intro d
      have hd := h.flagged d
      cases answer <;> simp_all [takeClient, takeFront, preLoopStep]
    · have htrace := h.trace
      cases answer <;> simp_all [takeClient, takeFront, preLoopStep, callLog]

private theorem loopTurn_cases (s : World ι) : Turn s (loopTurn (wiring loopId) s).2 := by
  cases hactive : s.loop.loopClient with
  | some c => simpa [loopTurn, hactive] using stepActive_turn loopId hactive
  | none =>
    cases hqueue : s.loop.clientList with
    | nil => apply Turn.idle hactive <;> simp [loopTurn, hactive, hqueue]
    | cons c queue => simpa [loopTurn, hactive, hqueue] using takeClient_turn loopId queue hactive

theorem nbiotLoop_cases (s : World ι) : Turn s (nbiotLoop (wiring loopId) s).2 := by
  by_cases hbreak : s.loop.breakFlag
  · refine .broken ?_ ?_ ?_ <;> simp [nbiotLoop, breakPending, clearLoop, loopTurn, hbreak]
  · have hnone : breakPending s = ((), s) := by simp [breakPending, hbreak]
    simpa [nbiotLoop, hnone] using loopTurn_cases loopId s

/-! ## The flag tells whether a client was discarded -/

/-- A client is flagged pending exactly while it is active or discarded. -/
def FlagsTruthful (s : World ι) : Prop :=
  ∀ c, (s.client c).result = .pending ↔
    s.loop.loopClient = some c ∨ discarded c s.trace = true

theorem flagsTruthful_clear {s : World ι} (h : FlagsTruthful s) :
    FlagsTruthful (clearLoop s).2 := by
  intro c
  have hc := h c
  by_cases hactive : s.loop.loopClient = some c <;>
    simp_all [clearLoop, discarded]

theorem flagsTruthful_turn {s s' : World ι} (h : FlagsTruthful s) (turn : Turn s s') :
    FlagsTruthful s' := by
  intro d
  have hd := h d
  cases turn with
  | broken after same trace =>
    by_cases hactive : s.loop.loopClient = some d <;> simp_all [discarded]
  | idle before after same trace => simp_all
  | resumed c before flag after same trace =>
    have hc := h c
    by_cases hcd : c = d <;> simp_all [discarded]
  | started c answer r v v' before flag fresh after flagged trace =>
    have hf := flagged d
    rcases eq_or_ne c d with rfl | hcd
    · cases answer <;> simp_all [discarded]
    · have hdc := hcd.symm
      cases answer <;> simp_all [discarded]
  | stepped c v v' before after flagged trace =>
    have hf := flagged d
    rcases eq_or_ne c d with rfl | hcd
    · simp_all [discarded]
    · have hdc := hcd.symm
      simp_all [discarded]
  | stopped c answer r v₁ v₂ v₃ before after ended flagged trace =>
    have hf := flagged d
    rcases eq_or_ne c d with rfl | hcd
    · simp_all [discarded]
    · have hdc := hcd.symm
      simp_all [discarded]
  | lapsed c before flag after same trace => exact absurd ((h c).2 (.inl before)) flag

theorem flagsTruthful_exec {s : World ι} (h : FlagsTruthful s) (op : Op ι) :
    FlagsTruthful (exec loopId op s) := by
  cases op with
  | registerLoopClient c => simpa [exec, registerLoopClient, FlagsTruthful, discarded] using h
  | registerNull => exact flagsTruthful_clear h
  | loopBreak =>
    intro c
    have hc := h c
    by_cases hq : 0 < s.loop.clientList.length <;> simp_all [exec, LibNbiot.loopBreak]
  | nbiotLoop =>
    exact flagsTruthful_turn h (nbiotLoop_cases loopId s)

theorem flagsTruthful_run (reply : Nat → Bool × Int) (ops : List (Op ι)) :
    FlagsTruthful (run loopId reply ops) := by
  induction ops using List.reverseRecOn with
  | nil => intro c; simp [run, discarded]
  | append_singleton ops op ih =>
    rw [run_append_singleton]
    exact flagsTruthful_exec loopId ih op

/-! ## The law, call by call -/

theorem stepsStarted_cons {e : LoopEvent ι Empty} {u : Unit} {t : Log ι} :
    StepsStarted (⟨e, u⟩ :: t) ↔
      (∀ c p v, e = .called c p v → p ≠ .start → started c t = true) ∧ StepsStarted t := by
  constructor
  · intro h
    exact ⟨fun c p v he hp => h t c p v (by rw [he]) hp,
      fun t' c p v hs hp => h t' c p v (hs.trans (List.suffix_cons _ _)) hp⟩
  · rintro ⟨hnew, hold⟩ t' c p v hs hp
    rcases List.suffix_cons_iff.1 hs with heq | hs
    · simp only [List.cons.injEq, Entry.mk.injEq, and_true] at heq
      obtain ⟨he, rfl⟩ := heq
      exact hnew c p v he.symm hp
    · exact hold t' c p v hs hp

theorem noDiscardedTaken_cons {e : LoopEvent ι Empty} {u : Unit} {t : Log ι} :
    NoDiscardedTaken (⟨e, u⟩ :: t) ↔
      (∀ c r, e = .taken c r → discarded c t = false) ∧ NoDiscardedTaken t := by
  constructor
  · intro h
    exact ⟨fun c r he => h t c r (by rw [he]),
      fun t' c r hs => h t' c r (hs.trans (List.suffix_cons _ _))⟩
  · rintro ⟨hnew, hold⟩ t' c r hs
    rcases List.suffix_cons_iff.1 hs with heq | hs
    · simp only [List.cons.injEq, Entry.mk.injEq, and_true] at heq
      obtain ⟨he, rfl⟩ := heq
      exact hnew c r he.symm
    · exact hold t' c r hs

theorem startsTaken_iff {before after : Log ι} (new : Log ι) (h : after = new ++ before) :
    StartsTaken before after ↔
      ∀ c r, ⟨.taken c r, ()⟩ ∈ new → new.countP (isStart c) = 1 := by
  subst h
  constructor
  · exact fun h => h new rfl
  · intro h new' heq
    rw [← List.append_cancel_right heq]
    exact h

/-- The active client's start handler has answered true. -/
def ActiveStarted (s : World ι) : Prop :=
  ∀ c, s.loop.loopClient = some c → started c s.trace = true

/-- A turn obeys the law exactly when the client it takes had not been
discarded. -/
theorem turn_lawful_iff {s s' : World ι} (flags : FlagsTruthful s) (active : ActiveStarted s)
    (steps : StepsStarted s.trace) (takes : NoDiscardedTaken s.trace) (turn : Turn s s') :
    StartsTaken s.trace s'.trace ∧ StepsStarted s'.trace ↔ NoDiscardedTaken s'.trace := by
  cases turn with
  | broken after same trace =>
    rw [startsTaken_iff [_] trace, trace, stepsStarted_cons, noDiscardedTaken_cons]
    simp [steps, takes]
  | idle before after same trace =>
    rw [startsTaken_iff [] trace, trace]
    simp [steps, takes]
  | resumed c before flag after same trace =>
    have hdiscarded : discarded c s.trace = true := by
      simpa [before] using (flags c).1 flag
    rw [startsTaken_iff [_] trace, trace, noDiscardedTaken_cons]
    simp [isStart, hdiscarded]
  | started c answer r v v' before flag fresh after flagged trace =>
    have hkept : discarded c s.trace = false := by
      by_contra hdiscarded
      exact fresh (flag ▸ (flags c).2 (.inr (by simpa using hdiscarded)))
    rw [startsTaken_iff [_, _, _] trace, trace]
    simp only [stepsStarted_cons, noDiscardedTaken_cons]
    simp [isStart, hkept, steps, takes]
  | stepped c v v' before after flagged trace =>
    rw [startsTaken_iff [_, _] trace, trace]
    simp only [stepsStarted_cons, noDiscardedTaken_cons]
    simp [active c before, steps, takes]
  | stopped c answer r v₁ v₂ v₃ before after ended flagged trace =>
    have hstarted := active c before
    rw [startsTaken_iff [_, _, _, _] trace, trace]
    simp only [stepsStarted_cons, noDiscardedTaken_cons]
    simp [started, hstarted, steps, takes]
  | lapsed c before flag after same trace =>
    rw [startsTaken_iff [] trace, trace]
    simp [steps, takes]

/-- In a turn that resumes no discarded client, the active client stays a
started one. -/
theorem activeStarted_turn {s s' : World ι} (flags : FlagsTruthful s) (active : ActiveStarted s)
    (turn : Turn s s') (takes : NoDiscardedTaken s'.trace) : ActiveStarted s' := by
  intro d hd
  cases turn with
  | broken after same trace => simp [after] at hd
  | idle before after same trace => simp [after] at hd
  | resumed c before flag after same trace =>
    have hdiscarded : discarded c s.trace = true := by
      simpa [before] using (flags c).1 flag
    rw [trace, noDiscardedTaken_cons] at takes
    simp [takes.1 c _ rfl] at hdiscarded
  | started c answer r v v' before flag fresh after flagged trace =>
    cases answer with
    | true => simp_all [started]
    | false => simp [after] at hd
  | stepped c v v' before after flagged trace =>
    have hold := active d (by rw [before, ← after, hd])
    simpa [trace, started] using hold
  | stopped c answer r v₁ v₂ v₃ before after ended flagged trace => simp [after] at hd
  | lapsed c before flag after same trace => simp [after] at hd

/-- The calls other than `nbiotLoop` run no handler and take no client. -/
theorem quiet_exec (s : World ι) {op : Op ι} (hop : op ≠ .nbiotLoop) :
    (StepsStarted (exec loopId op s).trace ↔ StepsStarted s.trace) ∧
    (NoDiscardedTaken (exec loopId op s).trace ↔ NoDiscardedTaken s.trace) ∧
    (ActiveStarted s → ActiveStarted (exec loopId op s)) := by
  cases op with
  | nbiotLoop => exact absurd rfl hop
  | registerLoopClient c =>
    simp [exec, registerLoopClient, stepsStarted_cons, noDiscardedTaken_cons, ActiveStarted,
      started]
  | registerNull =>
    simp [exec, registerLoopClient, clearLoop, stepsStarted_cons, noDiscardedTaken_cons,
      ActiveStarted]
  | loopBreak =>
    by_cases hq : 0 < s.loop.clientList.length <;>
      simp [exec, LibNbiot.loopBreak, hq, ActiveStarted]

/-- The log only grows. -/
theorem trace_suffix_exec (s : World ι) (op : Op ι) :
    s.trace <:+ (exec loopId op s).trace := by
  cases op with
  | registerLoopClient c => exact List.suffix_cons _ _
  | registerNull => exact List.suffix_cons _ _
  | loopBreak =>
    by_cases hq : 0 < s.loop.clientList.length <;> simp [exec, LibNbiot.loopBreak, hq]
  | nbiotLoop =>
    cases nbiotLoop_cases loopId s with
    | broken after same trace => exact ⟨[_], trace.symm⟩
    | idle before after same trace => exact ⟨[], trace.symm⟩
    | resumed c before flag after same trace => exact ⟨[_], trace.symm⟩
    | started c answer r v v' before flag fresh after flagged trace => exact ⟨[_, _, _], trace.symm⟩
    | stepped c v v' before after flagged trace => exact ⟨[_, _], trace.symm⟩
    | stopped c answer r v₁ v₂ v₃ before after ended flagged trace =>
      exact ⟨[_, _, _, _], trace.symm⟩
    | lapsed c before flag after same trace => exact ⟨[], trace.symm⟩

theorem NoDiscardedTaken.of_suffix {t t' : Log ι} (h : NoDiscardedTaken t') (hs : t <:+ t') :
    NoDiscardedTaken t :=
  fun u c r hu => h u c r (hu.trans hs)

theorem StepsStarted.of_suffix {t t' : Log ι} (h : StepsStarted t') (hs : t <:+ t') :
    StepsStarted t :=
  fun u c p v hu => h u c p v (hu.trans hs)

theorem activeStarted_run (reply : Nat → Bool × Int) (ops : List (Op ι))
    (takes : NoDiscardedTaken (run loopId reply ops).trace) :
    ActiveStarted (run loopId reply ops) := by
  induction ops using List.reverseRecOn with
  | nil => intro c hc; simp [run] at hc
  | append_singleton ops op ih =>
    rw [run_append_singleton] at takes ⊢
    have hold := ih (takes.of_suffix (trace_suffix_exec loopId _ op))
    by_cases hop : op = .nbiotLoop
    · subst hop
      exact activeStarted_turn (flagsTruthful_run loopId reply ops) hold
        (nbiotLoop_cases loopId _) takes
    · exact (quiet_exec loopId _ hop).2.2 hold

/-- The law of a run, by its last call. -/
theorem startBeforeStep_snoc {reply : Nat → Bool × Int} {ops : List (Op ι)} {op : Op ι} :
    StartBeforeStep loopId reply (ops ++ [op]) ↔
      StartBeforeStep loopId reply ops ∧
      (op = .nbiotLoop → StartsTaken (run loopId reply ops).trace
        (run loopId reply (ops ++ [op])).trace) ∧
      StepsStarted (run loopId reply (ops ++ [op])).trace := by
  have hlast : (op = .nbiotLoop → StartsTaken (run loopId reply ops).trace
      (run loopId reply (ops ++ [.nbiotLoop])).trace) ↔
        (op = .nbiotLoop → StartsTaken (run loopId reply ops).trace
          (run loopId reply (ops ++ [op])).trace) :=
    forall_congr' fun hop => by rw [hop]
  unfold StartBeforeStep
  rw [Logic.forall_split_at_concat, hlast]
  constructor
  · rintro ⟨⟨hold, hnow⟩, hsteps⟩
    refine ⟨⟨hold, ?_⟩, hnow, hsteps⟩
    rw [run_append_singleton] at hsteps
    exact hsteps.of_suffix (trace_suffix_exec loopId _ op)
  · rintro ⟨⟨hold, -⟩, hnow, hsteps⟩
    exact ⟨⟨hold, hnow⟩, hsteps⟩

/-- **Start before step**: a run obeys the law exactly when no client is taken
from the queue after it was discarded while pending. -/
theorem startBeforeStep_iff (reply : Nat → Bool × Int) (ops : List (Op ι)) :
    StartBeforeStep loopId reply ops ↔ NoDiscardedTaken (run loopId reply ops).trace := by
  induction ops using List.reverseRecOn with
  | nil => simp [StartBeforeStep, run, StepsStarted, NoDiscardedTaken]
  | append_singleton ops op ih =>
    rw [startBeforeStep_snoc, ih, run_append_singleton]
    by_cases hop : op = .nbiotLoop
    · subst hop
      have turn := nbiotLoop_cases loopId (run loopId reply ops)
      constructor
      · rintro ⟨takes, hstarts, hsteps⟩
        exact (turn_lawful_iff (flagsTruthful_run loopId reply ops)
          (activeStarted_run loopId reply ops takes) (ih.2 takes).2 takes turn).1
            ⟨hstarts rfl, hsteps⟩
      · intro htakes
        have takes := htakes.of_suffix (trace_suffix_exec loopId _ .nbiotLoop)
        have lawful := (turn_lawful_iff (flagsTruthful_run loopId reply ops)
          (activeStarted_run loopId reply ops takes) (ih.2 takes).2 takes turn).2 htakes
        exact ⟨takes, fun _ => lawful.1, lawful.2⟩
    · obtain ⟨hsteps, htakes, -⟩ := quiet_exec loopId (run loopId reply ops) hop
      rw [hsteps, htakes]
      exact ⟨fun h => h.1, fun takes => ⟨takes, fun h => absurd h hop, (ih.2 takes).2⟩⟩

/-- A client that is registered, started, discarded and registered again is
taken without its start handler being run. -/
theorem not_startBeforeStep_discarded :
    ¬ StartBeforeStep (fun _ : Unit => .yield) (fun _ => (true, 7))
      [.registerLoopClient (), .nbiotLoop, .registerNull, .registerLoopClient (), .nbiotLoop] := by
  rintro ⟨starts, -⟩
  have hcount := starts [.registerLoopClient (), .nbiotLoop, .registerNull, .registerLoopClient ()]
    [] rfl [⟨.taken () .pending, ()⟩] rfl () .pending (by simp)
  revert hcount
  decide

end LoopStart

end LibNbiot
