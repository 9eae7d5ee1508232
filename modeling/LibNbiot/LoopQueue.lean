/-
# The loop controller as a queue with one server

The controller knows its clients through an interface only. Here the clients
answer whatever they like, and while one of its steps is running a client may
register further clients and ask for a break. The loop clients of the library are
an instance.

The log is read as the history of a queue: a registration is an arrival, and a
client departs when it is taken or when the controller is cleared. Every entry
shows the controller as it was at that moment, so that what is said about the log
holds inside the handlers too.
-/

import LibNbiot.Loop
import LibNbiot.Logic.QueueHistory
import Mathlib.Data.List.Induction

namespace LibNbiot

open Logic Logic.Program Relation

/-! ## Clients behind the interface -/

/-- `iLoopControlled`: what the controller asks of a client. -/
structure LoopControlled (ι σ : Type) where
  getLoopId : ι → NbiotLoopId
  preLoopStep : ι → StateM σ NbiotResult
  loopStep : ι → StateM σ NbiotResult
  getResult : ι → StateM σ NbiotResult
  getValue : ι → StateM σ Int

namespace LoopControlled

variable {ι ε ν ρ : Type} [Observed ι ρ ν] (m : LoopControlled ι (LoopWorld ι ε ν ρ))

/-- The turn of a hooked client. -/
def stepActive (c : ι) : StateM (LoopWorld ι ε ν ρ) NbiotResult := do
  let ret ← m.loopStep c
  let value ← m.getValue c
  modifyLoop fun lc => { lc with loopValue := value }
  if ret ≠ .pending then
    let ret ← m.getResult c
    modifyLoop fun lc => { lc with loopClient := none }
    return ret
  else
    return ret

/-- Take the front client of the queue and start it. -/
def takeClient (c : ι) (queue : List ι) : StateM (LoopWorld ι ε ν ρ) NbiotResult := do
  takeFront ⟨m.getLoopId, fun _ _ => none⟩ c queue
  let ret ← m.preLoopStep c
  onlyIf (ret ≠ .pending) <|
    modifyLoop fun lc => { lc with loopClient := none, loopId := .unknown }
  return ret

def loopTurn : StateM (LoopWorld ι ε ν ρ) NbiotResult := do
  let lc := (← get).loop
  match lc.loopClient, lc.clientList with
  | some c, _ => m.stepActive c
  | none, c :: queue => m.takeClient c queue
  | none, [] =>
      modifyLoop fun lc => { lc with loopValue := 0, loopId := .unknown }
      return .idle

/-- `NbiotLoop::nbiotLoop()`, whatever the clients are. -/
def nbiotLoop : StateM (LoopWorld ι ε ν ρ) NbiotResult := do
  breakPending
  m.loopTurn

/-- The loop clients of the library. -/
def ofWiring [DecidableEq ι] (w : LoopWiring ι (LoopWorld ι ε ν ρ)) :
    LoopControlled ι (LoopWorld ι ε ν ρ) where
  getLoopId := w.loopId
  preLoopStep := LibNbiot.preLoopStep w
  loopStep := LibNbiot.loopStep w
  getResult := LibNbiot.getResult
  getValue := LibNbiot.getValue

/-- The controller does with the library's clients what it does with any. -/
theorem nbiotLoop_ofWiring [DecidableEq ι] (w : LoopWiring ι (LoopWorld ι ε ν ρ)) :
    (ofWiring w).nbiotLoop = LibNbiot.nbiotLoop w := rfl

end LoopControlled

namespace LoopQueue

/-! ## Clients that call back -/

variable {ι : Type}

/-- A call of the controller from inside a running step. -/
inductive Inner (ι : Type) where
  | registerLoopClient (c : ι)
  | loopBreak
  deriving DecidableEq, Repr

/-- What a client does when it is asked: its calls, its answer, and its value. -/
structure Reply (ι : Type) where
  inner : List (Inner ι) := []
  answer : NbiotResult
  value : Int := 0
  deriving DecidableEq, Repr

/-- The replies, in the order in which the clients are asked. -/
structure Script (ι : Type) where
  reply : Nat → Reply ι
  asked : Nat := 0

/-- What happens beside the controller's own events. -/
inductive Event (ι : Type) where
  /-- `loopBreak()` was called. -/
  | broke
  /-- `registerLoopClient(nullptr)` was called. -/
  | nulled
  /-- The client was asked to start or to make a step. -/
  | asked (c : ι)
  /-- The client gave its answer. -/
  | answered (c : ι) (answer : NbiotResult)
  deriving DecidableEq, Repr

/-- An entry shows the controller. -/
instance : Observed ι (Script ι) (NbiotLoop ι) where
  view lc _ := lc

abbrev World (ι : Type) := LoopWorld ι (Event ι) (NbiotLoop ι) (Script ι)

abbrev Log (ι : Type) := List (Entry ι (Event ι) (NbiotLoop ι))

def breakNow : StateM (World ι) Unit := do
  log (.app .broke)
  loopBreak

def Inner.perform : Inner ι → StateM (World ι) Unit
  | .registerLoopClient c => LibNbiot.registerLoopClient (some c)
  | .loopBreak => breakNow

def performAll : List (Inner ι) → StateM (World ι) Unit
  | [] => return
  | i :: is => do
      i.perform
      performAll is

def nextReply : StateM (World ι) (Reply ι) := do
  let script := (← get).rest
  modify fun s => { s with rest := { script with asked := script.asked + 1 } }
  return script.reply script.asked

/-- What a client does in a step. -/
def respond (c : ι) : StateM (World ι) NbiotResult := do
  let reply ← nextReply
  performAll reply.inner
  log (.app (.answered c reply.answer))
  return reply.answer

/-- A step of a client. -/
def ask (c : ι) : StateM (World ι) NbiotResult := do
  log (.app (.asked c))
  respond c

/-- Clients that answer from the script whenever they are asked. -/
def clients (loopId : ι → NbiotLoopId) : LoopControlled ι (World ι) where
  getLoopId := loopId
  preLoopStep := ask
  loopStep := ask
  getResult _ := do return (← nextReply).answer
  getValue _ := do return (← nextReply).value

/-- The calls from outside. -/
inductive Op (ι : Type) where
  | registerLoopClient (c : ι)
  | registerNull
  | loopBreak
  | nbiotLoop
  deriving DecidableEq, Repr

def registerNull : StateM (World ι) Unit := do
  log (.app .nulled)
  LibNbiot.registerLoopClient none

variable (loopId : ι → NbiotLoopId)

def exec (s : World ι) : Op ι → World ι
  | .registerLoopClient c => (LibNbiot.registerLoopClient (some c) s).2
  | .registerNull => (registerNull s).2
  | .loopBreak => (breakNow s).2
  | .nbiotLoop => ((clients loopId).nbiotLoop s).2

/-- A run from a freshly constructed controller. -/
def run (reply : Nat → Reply ι) (ops : List (Op ι)) : World ι :=
  ops.foldl (exec loopId) { rest := { reply } }

theorem run_snoc (reply : Nat → Reply ι) (ops : List (Op ι)) (op : Op ι) :
    run loopId reply (ops ++ [op]) = exec loopId (run loopId reply ops) op := by
  simp [run]

/-! ## The log as a history -/

/-- What an entry says about the queue. -/
def queued (e : Entry ι (Event ι) (NbiotLoop ι)) : Option (QueueEvent ι) :=
  match e.event with
  | .registered c => some (.arrive c)
  | .taken c _ => some (.take c)
  | .cleared _ queue => some (.drop queue)
  | _ => none

/-- The client that was taken and has neither said that it is done nor been
cleared. -/
def active : Log ι → Option ι
  | [] => none
  | ⟨.taken c _, _⟩ :: _ => some c
  | ⟨.cleared _ _, _⟩ :: _ => none
  | ⟨.app (.answered _ answer), _⟩ :: t => if answer = .pending then active t else none
  | _ :: t => active t

/-- The controller agrees with the history: its queue holds the clients that were
registered and neither taken nor cleared, its active client is the one of the
history, and its id is the id of that client. -/
structure Tracked (lc : NbiotLoop ι) (t : Log ι) : Prop where
  queue : QueueHistory.Holds queued lc.clientList t
  active : lc.loopClient = active t
  id : ∀ c, lc.loopClient = some c → lc.loopId = loopId c

/-- A client is taken from the front of the queue when none is active, only the
active one is asked, and a clear drops what is there. -/
def Permitted (lc : NbiotLoop ι) : LoopEvent ι (Event ι) → Prop
  | .taken c _ => lc.loopClient = none ∧ lc.clientList.head? = some c
  | .cleared client queue => client = lc.loopClient ∧ queue = lc.clientList
  | .app (.asked c) => lc.loopClient = some c
  | _ => True

/-- A client that is queued or active keeps the controller busy. -/
structure Accounted (lc : NbiotLoop ι) (t : Log ι) : Prop extends Tracked loopId lc t where
  busy : lc.clientList ≠ [] ∨ lc.loopClient ≠ none → lc.isBusy = true

/-- **One server**: the controller agrees with the history at the end of the log
and at every entry of it. Each registration stands in the history once, and once
in what departed followed by what is queued. -/
structure OneServer (s : World ι) : Prop where
  now : Accounted loopId s.loop s.trace
  entries : ∀ e t, e :: t <:+ s.trace → Accounted loopId e.view t ∧ Permitted e.view e.event

/-! ## What a call can do -/

/-- The controller and the log. -/
structure Track (ι : Type) where
  loop : NbiotLoop ι
  trace : Log ι

def track (s : World ι) : Track ι := ⟨s.loop, s.trace⟩

/-- Something is logged. -/
def Track.log (k : Track ι) (e : LoopEvent ι (Event ι)) : Track ι :=
  ⟨k.loop, ⟨e, k.loop⟩ :: k.trace⟩

/-- The controller is cleared. -/
def Track.clear (k : Track ι) : Track ι where
  loop := { k.loop with clientList := [], loopClient := none, loopValue := 0, loopId := .unknown }
  trace := ⟨.cleared k.loop.loopClient k.loop.clientList, k.loop⟩ :: k.trace

/-- The front client is taken and asked to start. -/
def Track.take (k : Track ι) (c : ι) (queue : List ι) (result : NbiotResult) : Track ι :=
  Track.log ⟨{ k.loop with clientList := queue, loopClient := some c, loopId := loopId c },
    (k.log (.taken c result)).trace⟩ (.app (.asked c))

/-- What the calls consist of, a break that is due excepted. -/
inductive Move : Track ι → Track ι → Prop
  | register (k : Track ι) (c : ι) :
      Move k ⟨{ k.loop with clientList := k.loop.clientList ++ [c] },
        (k.log (.registered c)).trace⟩
  | setBreak (k : Track ι) (h : k.loop.clientList ≠ []) :
      Move k ⟨{ k.loop with breakFlag := true }, (k.log (.app .broke)).trace⟩
  /-- The break flag is not set in advance. -/
  | ignoreBreak (k : Track ι) (h : k.loop.clientList = []) : Move k (k.log (.app .broke))
  | null (k : Track ι) : Move k (k.log (.app .nulled)).clear
  | take (k : Track ι) (c : ι) (queue : List ι) (result : NbiotResult)
      (hflag : k.loop.breakFlag = false) (hnone : k.loop.loopClient = none)
      (hqueue : k.loop.clientList = c :: queue) : Move k (k.take loopId c queue result)
  /-- The active client is asked to make a step. -/
  | ask (k : Track ι) (c : ι) (h : k.loop.loopClient = some c) : Move k (k.log (.app (.asked c)))
  | stay (k : Track ι) (c : ι) (value : Int) (h : k.loop.loopClient = some c) :
      Move k ⟨{ k.loop with loopValue := value }, (k.log (.app (.answered c .pending))).trace⟩
  | leave (k : Track ι) (c : ι) (answer : NbiotResult) (value : Int) (id : NbiotLoopId)
      (h : k.loop.loopClient = some c) (hanswer : answer ≠ .pending) :
      Move k ⟨{ k.loop with loopClient := none, loopValue := value, loopId := id },
        (k.log (.app (.answered c answer))).trace⟩
  | idle (k : Track ι) (hnone : k.loop.loopClient = none) (hqueue : k.loop.clientList = []) :
      Move k ⟨{ k.loop with loopValue := 0, loopId := .unknown }, k.trace⟩

variable {loopId} {s : World ι} {c : ι}

abbrev Moves (loopId : ι → NbiotLoopId) : Track ι → Track ι → Prop :=
  Relation.ReflTransGen (Move loopId)

theorem register_moves (c : ι) (s : World ι) :
    Moves loopId (track s) (track (registerLoopClient (some c) s).2) :=
  .single (.register (track s) c)

theorem breakNow_moves (s : World ι) : Moves loopId (track s) (track (breakNow s).2) := by
  by_cases hqueue : s.loop.clientList = []
  · have hsame : track (breakNow s).2 = (track s).log (.app .broke) := by
      simp [breakNow, loopBreak, hqueue, track, Track.log, Observed.view]
    rw [hsame]
    exact .single (.ignoreBreak (track s) hqueue)
  · have hset : track (breakNow s).2 =
        ⟨{ s.loop with breakFlag := true }, ((track s).log (.app .broke)).trace⟩ := by
      have hpos : 0 < s.loop.clientList.length := List.length_pos_of_ne_nil hqueue
      simp [breakNow, loopBreak, hpos, track, Track.log, Observed.view]
    rw [hset]
    exact .single (.setBreak (track s) hqueue)

variable (loopId) in
/-- What is called from inside a step leaves the active client alone. -/
theorem perform_moves (i : Inner ι) (s : World ι) :
    Moves loopId (track s) (track (i.perform s).2) ∧
      (i.perform s).2.loop.loopClient = s.loop.loopClient := by
  cases i with
  | registerLoopClient c => exact ⟨register_moves c s, rfl⟩
  | loopBreak =>
    refine ⟨breakNow_moves s, ?_⟩
    by_cases hqueue : 0 < s.loop.clientList.length <;>
      simp [Inner.perform, breakNow, loopBreak, hqueue]

variable (loopId) in
theorem performAll_moves (is : List (Inner ι)) (s : World ι) :
    Moves loopId (track s) (track (performAll is s).2) ∧
      (performAll is s).2.loop.loopClient = s.loop.loopClient := by
  induction is generalizing s with
  | nil => exact ⟨.refl, rfl⟩
  | cons i is ih =>
    obtain ⟨hfirst, hsame⟩ := perform_moves loopId i s
    obtain ⟨hrest, hsame'⟩ := ih (i.perform s).2
    exact ⟨hfirst.trans hrest, hsame'.trans hsame⟩

variable (loopId) in
/-- A step of the active client ends with its answer, and the client is active
until then. -/
theorem respond_moves (hc : s.loop.loopClient = some c) :
    ∃ k, Moves loopId (track s) k ∧ k.loop.loopClient = some c ∧
      track (respond c s).2 = k.log (.app (.answered c (respond c s).1)) := by
  obtain ⟨reply, s₁, hstart, htrack, hclient⟩ : ∃ reply s₁,
      nextReply s = (reply, s₁) ∧ track s₁ = track s ∧ s₁.loop.loopClient = some c :=
    ⟨_, _, rfl, rfl, hc⟩
  obtain ⟨hcalls, hsame⟩ := performAll_moves loopId reply.inner s₁
  rw [htrack] at hcalls
  refine ⟨_, hcalls, hsame.trans hclient, ?_⟩
  simp only [respond, run_bind, hstart]
  rfl

theorem stepActive_moves (hc : s.loop.loopClient = some c) :
    Moves loopId (track s) (track ((clients loopId).stepActive c s).2) := by
  obtain ⟨s₁, hs₁, htrack, hclient⟩ : ∃ s₁, (log (.app (.asked c)) s).2 = s₁ ∧
      track s₁ = (track s).log (.app (.asked c)) ∧ s₁.loop.loopClient = some c :=
    ⟨_, rfl, rfl, hc⟩
  have hask : ask c s = respond c s₁ := by rw [← hs₁]; rfl
  obtain ⟨k, hmoves, hk, hanswer⟩ := respond_moves loopId hclient
  rw [htrack] at hmoves
  refine .trans (.head (.ask (track s) c hc) hmoves) (.single ?_)
  obtain ⟨hloop, htrace⟩ := Track.mk.inj hanswer
  let script := (respond c s₁).2.rest
  by_cases hr : (respond c s₁).1 = .pending
  · have hstay : track ((clients loopId).stepActive c s).2 = ⟨{ (respond c s₁).2.loop with
        loopValue := (script.reply script.asked).value }, (respond c s₁).2.trace⟩ := by
      simp [LoopControlled.stepActive, clients, nextReply, hask, hr, track, script]
    rw [hstay, hloop, htrace, hr]
    exact .stay k c _ hk
  · have hleave : track ((clients loopId).stepActive c s).2 = ⟨{ (respond c s₁).2.loop with
        loopClient := none, loopValue := (script.reply script.asked).value },
        (respond c s₁).2.trace⟩ := by
      simp [LoopControlled.stepActive, clients, nextReply, hask, hr, track, script]
    rw [hleave, hloop, htrace]
    exact .leave k c _ _ k.loop.loopId hk hr

variable (loopId) in
theorem takeClient_moves {queue : List ι} (hflag : s.loop.breakFlag = false)
    (hnone : s.loop.loopClient = none) (hqueue : s.loop.clientList = c :: queue) :
    Move loopId (track s) ((track s).take loopId c queue (s.client c).result) ∧
      Moves loopId ((track s).take loopId c queue (s.client c).result)
        (track ((clients loopId).takeClient c queue s).2) := by
  refine ⟨.take (track s) c queue _ hflag hnone hqueue, ?_⟩
  obtain ⟨s₁, hs₁, htrack, hclient⟩ : ∃ s₁,
      (log (.app (.asked c)) (takeFront ⟨loopId, fun _ _ => none⟩ c queue s).2).2 = s₁ ∧
        track s₁ = (track s).take loopId c queue (s.client c).result ∧ s₁.loop.loopClient = some c :=
    ⟨_, rfl, rfl, rfl⟩
  have hask : ask c (takeFront ⟨loopId, fun _ _ => none⟩ c queue s).2 = respond c s₁ := by
    rw [← hs₁]
    rfl
  obtain ⟨k, hmoves, hk, hanswer⟩ := respond_moves loopId hclient
  rw [htrack] at hmoves
  refine hmoves.trans (.single ?_)
  obtain ⟨hloop, htrace⟩ := Track.mk.inj hanswer
  by_cases hr : (respond c s₁).1 = .pending
  · have hstay : track ((clients loopId).takeClient c queue s).2 =
        ⟨(respond c s₁).2.loop, (respond c s₁).2.trace⟩ := by
      simp [LoopControlled.takeClient, clients, hask, hr, track]
    rw [hstay, hloop, htrace, hr]
    exact .stay k c k.loop.loopValue hk
  · have hleave : track ((clients loopId).takeClient c queue s).2 =
        ⟨{ (respond c s₁).2.loop with loopClient := none, loopId := .unknown },
          (respond c s₁).2.trace⟩ := by
      simp [LoopControlled.takeClient, clients, hask, hr, track]
    rw [hleave, hloop, htrace]
    exact .leave k c _ k.loop.loopValue .unknown hk hr

theorem loopTurn_moves (hflag : s.loop.breakFlag = false) :
    Moves loopId (track s) (track ((clients loopId).loopTurn s).2) := by
  cases hclient : s.loop.loopClient with
  | some c =>
    have hturn : (clients loopId).loopTurn s = (clients loopId).stepActive c s := by
      simp [LoopControlled.loopTurn, hclient]
    rw [hturn]
    exact stepActive_moves hclient
  | none =>
    cases hqueue : s.loop.clientList with
    | nil =>
      have hturn : track ((clients loopId).loopTurn s).2 =
          ⟨{ s.loop with loopValue := 0, loopId := .unknown }, s.trace⟩ := by
        simp [LoopControlled.loopTurn, hclient, hqueue, track]
      rw [hturn]
      exact .single (.idle (track s) hclient hqueue)
    | cons c queue =>
      have hturn : (clients loopId).loopTurn s = (clients loopId).takeClient c queue s := by
        simp [LoopControlled.loopTurn, hclient, hqueue]
      rw [hturn]
      have htake := takeClient_moves loopId hflag hclient hqueue
      exact .head htake.1 htake.2

/-- The controller when a break is due. -/
def Track.serveBreak (k : Track ι) : Track ι :=
  ⟨{ k.clear.loop with breakFlag := false }, k.clear.trace⟩

/-- The controller at the start of its turn. -/
def Track.ready (k : Track ι) : Track ι := if k.loop.breakFlag then k.serveBreak else k

theorem breakPending_track (s : World ι) : track (breakPending s).2 = (track s).ready := by
  by_cases hbreak : s.loop.breakFlag = true
  · have hready : (track s).ready = (track s).serveBreak := if_pos hbreak
    rw [hready]
    simp [breakPending, clearLoop, hbreak, track, Track.serveBreak, Track.clear, Observed.view]
  · have hready : (track s).ready = track s := if_neg hbreak
    rw [hready]
    simp [breakPending, hbreak]

theorem ready_breakFlag (k : Track ι) : k.ready.loop.breakFlag = false := by
  unfold Track.ready
  split
  · rfl
  · rename_i hbreak
    exact Bool.eq_false_of_not_eq_true hbreak

/-- A turn of the controller serves a break that is due before all else. -/
def Op.start : Op ι → Track ι → Track ι
  | .nbiotLoop, k => k.ready
  | _, k => k

variable (loopId) in
theorem exec_moves (s : World ι) (op : Op ι) :
    Moves loopId (op.start (track s)) (track (exec loopId s op)) := by
  cases op with
  | registerLoopClient c => exact register_moves c s
  | registerNull => exact .single (.null (track s))
  | loopBreak => exact breakNow_moves s
  | nbiotLoop =>
    rw [Op.start, ← breakPending_track]
    apply loopTurn_moves
    have hready := ready_breakFlag (track s)
    rw [← breakPending_track] at hready
    exact hready

/-! ## The moves keep the account -/

variable {k k' : Track ι}

/-- What every entry of the log says. -/
def Entered (loopId : ι → NbiotLoopId) (t : Log ι) : Prop :=
  ∀ e u, e :: u <:+ t → Tracked loopId e.view u ∧ Permitted e.view e.event

/-- The history is kept, now and at every entry. -/
structure Served (loopId : ι → NbiotLoopId) (k : Track ι) : Prop where
  now : Tracked loopId k.loop k.trace
  entries : Entered loopId k.trace

theorem Served.fresh (reply : Nat → Reply ι) : Served loopId (track { rest := { reply } }) :=
  ⟨⟨rfl, rfl, nofun⟩, fun _ _ h => absurd (List.suffix_nil.1 h) (List.cons_ne_nil _ _)⟩

namespace Served

/-- An entry is added that shows the controller. -/
theorem entered (h : Served loopId k) {e : LoopEvent ι (Event ι)} (he : Permitted k.loop e) :
    Entered loopId (⟨e, k.loop⟩ :: k.trace) := by
  intro e' u hsuffix
  obtain heq | hsuffix := List.suffix_cons_iff.1 hsuffix
  · obtain ⟨rfl, rfl⟩ := List.cons.inj heq
    exact ⟨h.now, he⟩
  · exact h.entries e' u hsuffix

/-- Something is logged that changes neither the queue nor the active client. -/
theorem log (h : Served loopId k) {e : Event ι} (he : Permitted k.loop (.app e))
    (hactive : active (k.log (.app e)).trace = active k.trace) :
    Served loopId (k.log (.app e)) :=
  ⟨⟨h.now.queue.other rfl, h.now.active.trans hactive.symm, h.now.id⟩, h.entered he⟩

theorem clear (h : Served loopId k) : Served loopId k.clear :=
  ⟨⟨h.now.queue.drop rfl, rfl, nofun⟩, h.entered ⟨rfl, rfl⟩⟩

theorem ready (h : Served loopId k) : Served loopId k.ready := by
  unfold Track.ready
  split
  · exact ⟨⟨h.clear.now.queue, rfl, nofun⟩, h.clear.entries⟩
  · exact h

theorem move (h : Served loopId k) (hmove : Move loopId k k') : Served loopId k' := by
  cases hmove with
  | register c =>
    exact ⟨⟨h.now.queue.arrive rfl, h.now.active, h.now.id⟩, h.entered trivial⟩
  | setBreak hqueue =>
    exact ⟨⟨h.now.queue.other rfl, h.now.active, h.now.id⟩, h.entered trivial⟩
  | ignoreBreak hqueue => exact h.log trivial rfl
  | null => exact (h.log (e := .nulled) trivial rfl).clear
  | take c queue result hflag hnone hqueue =>
    have hholds := h.now.queue
    rw [hqueue] at hholds
    have htaken : Served loopId ⟨{ k.loop with
        clientList := queue, loopClient := some c, loopId := loopId c },
        (k.log (.taken c result)).trace⟩ :=
      ⟨⟨hholds.take rfl, rfl, fun d hd => by rw [Option.some.inj hd]⟩,
        h.entered ⟨hnone, congrArg List.head? hqueue⟩⟩
    exact htaken.log rfl rfl
  | ask c hc => exact h.log hc rfl
  | stay c value hc =>
    exact ⟨⟨h.now.queue.other rfl, h.now.active, h.now.id⟩, h.entered trivial⟩
  | leave c answer value id hc hanswer =>
    refine ⟨⟨h.now.queue.other rfl, ?_, nofun⟩, h.entered trivial⟩
    exact (if_neg hanswer).symm
  | idle hnone hqueue =>
    exact ⟨⟨h.now.queue, h.now.active, fun c hc => nomatch hnone.symm.trans hc⟩, h.entries⟩

theorem moves (h : Served loopId k) (hmoves : Moves loopId k k') : Served loopId k' := by
  induction hmoves with
  | refl => exact h
  | tail _ hmove ih => exact ih.move hmove

theorem exec (h : Served loopId (track s)) (op : Op ι) :
    Served loopId (track (LoopQueue.exec loopId s op)) := by
  refine Served.moves ?_ (exec_moves _ s op)
  cases op with
  | nbiotLoop => exact h.ready
  | _ => exact h

end Served

theorem served_run (loopId : ι → NbiotLoopId) (reply : Nat → Reply ι) (ops : List (Op ι)) :
    Served loopId (track (run loopId reply ops)) := by
  induction ops using List.reverseRecOn with
  | nil => exact .fresh reply
  | append_singleton ops op ih =>
    rw [run_snoc]
    exact ih.exec op

theorem Tracked.accounted {lc : NbiotLoop ι} {t : Log ι} (hid : ∀ c, loopId c ≠ .unknown)
    (h : Tracked loopId lc t) : Accounted loopId lc t := by
  refine ⟨h, fun hthere => ?_⟩
  rw [NbiotLoop.isBusy, Bool.or_eq_true, decide_eq_true_eq, bne_iff_ne]
  obtain hqueue | hactive := hthere
  · exact .inl (List.length_pos_of_ne_nil hqueue)
  · obtain ⟨c, hc⟩ := Option.ne_none_iff_exists'.1 hactive
    rw [h.id c hc]
    exact .inr (hid c)

/-- **The loop controller is a queue with one server.** -/
theorem oneServer_run (hid : ∀ c, loopId c ≠ .unknown) (reply : Nat → Reply ι)
    (ops : List (Op ι)) : OneServer loopId (run loopId reply ops) :=
  have h := served_run loopId reply ops
  ⟨h.now.accounted hid, fun e t he => ⟨(h.entries e t he).1.accounted hid, (h.entries e t he).2⟩⟩

/-- Clients that register another one and ask for a break whenever they run. -/
theorem oneServer_run_breaking :
    OneServer (fun _ : Nat => .yield) (run (fun _ => .yield)
      (fun _ => ⟨[.registerLoopClient 1, .loopBreak], .pending, 0⟩)
      [.registerLoopClient 0, .nbiotLoop, .registerLoopClient 2, .nbiotLoop]) :=
  oneServer_run (fun _ => by decide) _ _

end LoopQueue

end LibNbiot
