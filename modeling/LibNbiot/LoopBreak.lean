/-
# What a break cuts

A break is only noted when it is asked for and served at the start of the next
turn of the controller. It should cut what was there when it was asked for: a
client that is registered later is taken in its turn, unless it is cleared by a
null registration or by a break that found it in the queue.

The clear that serves the break drops the whole queue, so the rule holds exactly
when no client has joined the queue since the break.
-/

import LibNbiot.LoopQueue
import LibNbiot.Logic.Splitting

namespace LibNbiot

open Logic Logic.Program Relation

namespace LoopQueue

variable {ι : Type}

/-! ## The rule -/

/-- The number of clients that were registered since the controller was last
cleared or asked for a break. -/
def joined : Log ι → Nat
  | [] => 0
  | ⟨.registered _, _⟩ :: t => joined t + 1
  | ⟨.cleared _ _, _⟩ :: _ => 0
  | ⟨.app .broke, _⟩ :: _ => 0
  | _ :: t => joined t

/-- The log when a break was last asked for. -/
def lastBreak : Log ι → Option (Log ι)
  | [] => none
  | ⟨.app .broke, _⟩ :: t => some t
  | _ :: t => lastBreak t

/-- The controller is just being cleared by a null registration. -/
def nulled : Log ι → Bool
  | ⟨.app .nulled, _⟩ :: _ => true
  | _ => false

/-- What is cut now was there when the last break was asked for. -/
def FoundThere (client : Option ι) (t : Log ι) : Prop :=
  ∃ b, lastBreak t = some b ∧
    (∀ n, QueueHistory.Waiting queued t n → QueueHistory.Waiting queued b n) ∧
    (∀ c, client = some c → active b = some c)

/-- A clear is a null registration's, or it cuts what was there. -/
def CutRight : LoopEvent ι (Event ι) → Log ι → Prop
  | .cleared client _, t => nulled t = true ∨ FoundThere client t
  | _, _ => True

def CutsRight (trace : Log ι) : Prop := ∀ e t, e :: t <:+ trace → CutRight e.event t

/-- A registration still waits, or its client was taken and asked to start, or it
was cleared. -/
def Settled (trace : Log ι) (n : Nat) : Prop :=
  QueueHistory.Waiting queued trace n ∨
    (∃ c result v v' t, ⟨.app (.asked c), v'⟩ :: ⟨.taken c result, v⟩ :: t <:+ trace ∧
      (QueueHistory.departures queued t).length = n ∧
      (QueueHistory.arrivals queued trace)[n]? = some c) ∨
    ∃ client queue v t, ⟨.cleared client queue, v⟩ :: t <:+ trace ∧
      QueueHistory.Waiting queued t n

variable (loopId : ι → NbiotLoopId)

/-- A controller that has no active client and no break due takes the client in
front. -/
def TakesFront (reply : Nat → Reply ι) (ops : List (Op ι)) : Prop :=
  ∀ pre post c queue, ops = pre ++ .nbiotLoop :: post →
    (run loopId reply pre).loop.breakFlag = false →
    (run loopId reply pre).loop.loopClient = none →
    (run loopId reply pre).loop.clientList = c :: queue →
    ∃ result v v', ⟨.app (.asked c), v'⟩ :: ⟨.taken c result, v⟩ :: (run loopId reply pre).trace <:+
      (run loopId reply (pre ++ [.nbiotLoop])).trace

/-- **A break only cuts what was there**, along a whole run. -/
structure BreaksCut (reply : Nat → Reply ι) (ops : List (Op ι)) : Prop where
  cuts : CutsRight (run loopId reply ops).trace
  settled : ∀ n < (QueueHistory.arrivals queued (run loopId reply ops).trace).length,
    Settled (run loopId reply ops).trace n
  takes : TakesFront loopId reply ops

/-- No client has joined the queue since the break when a break is served. -/
def NoneJoined (reply : Nat → Reply ι) (ops : List (Op ι)) : Prop :=
  ∀ pre post, ops = pre ++ .nbiotLoop :: post → (run loopId reply pre).loop.breakFlag = true →
    joined (run loopId reply pre).trace = 0

/-! ## What is known while a break is due -/

variable {loopId} {k k' : Track ι}

theorem arrivals_registered (c : ι) (v : NbiotLoop ι) (t : Log ι) :
    (QueueHistory.arrivals queued (⟨.registered c, v⟩ :: t)).length =
      (QueueHistory.arrivals queued t).length + 1 := by
  simp [QueueHistory.arrivals, queued]

/-- A client that joined after the break was not registered when it was asked
for. -/
theorem joined_le {t b : Log ι} (h : lastBreak t = some b) :
    (QueueHistory.arrivals queued b).length + joined t ≤
      (QueueHistory.arrivals queued t).length := by
  induction t with
  | nil => cases h
  | cons e t ih =>
    obtain ⟨e, v⟩ := e
    cases e with
    | registered c =>
      have hcount := ih h
      rw [arrivals_registered]
      exact Nat.succ_le_succ hcount
    | cleared client queue => exact le_trans (Nat.le_add_right _ _) (ih h)
    | app e =>
      cases e with
      | broke =>
        cases h
        exact le_rfl
      | _ => exact ih h
    | _ => exact ih h

/-- A break is due: what is there now and did not join since was there when the
break was asked for. -/
structure Due (t : Log ι) : Prop where
  found : ∃ b, lastBreak t = some b ∧
    (∀ n, QueueHistory.Waiting queued t n → n + joined t < (QueueHistory.arrivals queued t).length →
      QueueHistory.Waiting queued b n) ∧
    (∀ c, active t = some c → active b = some c)
  waiting : (QueueHistory.departures queued t).length + joined t ≤
    (QueueHistory.arrivals queued t).length

theorem Served.departures_le (h : Served loopId k) :
    (QueueHistory.departures queued k.trace).length ≤
      (QueueHistory.arrivals queued k.trace).length := by
  rw [h.now.queue.length]
  exact Nat.le_add_right _ _

namespace Due

/-- A break has just been asked for. -/
theorem broke (h : Served loopId k) : Due (k.log (.app .broke)).trace :=
  ⟨⟨k.trace, rfl, fun _ hn _ => hn, fun _ hc => hc⟩, h.departures_le⟩

theorem register {t : Log ι} (h : Due t) (c : ι) (v : NbiotLoop ι) :
    Due (⟨.registered c, v⟩ :: t) := by
  obtain ⟨⟨b, hb, hqueue, hactive⟩, hwaiting⟩ := h
  have hlength := arrivals_registered c v t
  have hjoined : joined (⟨.registered c, v⟩ :: t) = joined t + 1 := rfl
  refine ⟨⟨b, hb, fun n hn hold => ?_, hactive⟩, ?_⟩
  · rw [hlength, hjoined] at hold
    have hold : n + joined t < (QueueHistory.arrivals queued t).length := by omega
    exact hqueue n ⟨hn.1, lt_of_le_of_lt (Nat.le_add_right _ _) hold⟩ hold
  · rw [hlength, hjoined]
    exact Nat.succ_le_succ hwaiting

/-- After a clear there is nothing left to cut. -/
theorem null (h : Due k.trace) (hs : Served loopId (k.log (.app .nulled)).clear) :
    Due (k.log (.app .nulled)).clear.trace := by
  obtain ⟨⟨b, hb, -, -⟩, -⟩ := h
  exact ⟨⟨b, hb, fun n hn => absurd hn hs.now.queue.not_waiting_of_nil, nofun⟩, hs.departures_le⟩

/-- Something is logged that is neither a registration nor a break. -/
theorem other {t : Log ι} (h : Due t) {e : Entry ι (Event ι) (NbiotLoop ι)}
    (he : queued e = none) (hbreak : lastBreak (e :: t) = lastBreak t)
    (hjoined : joined (e :: t) = joined t)
    (hactive : ∀ c, active (e :: t) = some c → active t = some c) : Due (e :: t) := by
  obtain ⟨⟨b, hb, hqueue, hb'⟩, hwaiting⟩ := h
  refine ⟨⟨b, hbreak.trans hb, fun n hn hold => ?_, fun c hc => hb' c (hactive c hc)⟩, ?_⟩
  · rw [hjoined, QueueHistory.arrivals_of_none he] at hold
    exact hqueue n ((QueueHistory.waiting_of_none he).1 hn) hold
  · rw [hjoined, QueueHistory.arrivals_of_none he, QueueHistory.departures_of_none he]
    exact hwaiting

theorem move (hs : Served loopId k) (h : k.loop.breakFlag = true → Due k.trace)
    (hmove : Move loopId k k') : k'.loop.breakFlag = true → Due k'.trace := by
  intro hflag'
  have hs' := hs.move hmove
  cases hmove with
  | register c => exact (h hflag').register c _
  | setBreak hqueue => exact broke hs
  | ignoreBreak hqueue => exact broke hs
  | null => exact (h hflag').null hs'
  | take c queue result hflag hnone hqueue => exact nomatch hflag.symm.trans hflag'
  | ask c hc => exact (h hflag').other rfl rfl rfl fun _ hactive => hactive
  | stay c value hc => exact (h hflag').other rfl rfl rfl fun _ hactive => hactive
  | leave c answer value id hc hanswer =>
    refine (h hflag').other rfl rfl rfl fun d hactive => ?_
    rw [active, if_neg hanswer] at hactive
    cases hactive
  | idle hnone hqueue => exact h hflag'

end Due

/-! ## What the moves do to the log -/

theorem Move.suffix (h : Move loopId k k') : k.trace <:+ k'.trace := by
  cases h with
  | null => exact ⟨[_, _], rfl⟩
  | take c queue result hflag hnone hqueue => exact ⟨[_, _], rfl⟩
  | idle hnone hqueue => exact List.suffix_refl _
  | _ => exact List.suffix_cons _ _

theorem suffix_of_moves (h : Moves loopId k k') : k.trace <:+ k'.trace := by
  induction h with
  | refl => exact List.suffix_refl _
  | tail _ hmove ih => exact ih.trans hmove.suffix

theorem cutsRight_cons {e : Entry ι (Event ι) (NbiotLoop ι)} {t : Log ι} :
    CutsRight (e :: t) ↔ CutRight e.event t ∧ CutsRight t := by
  constructor
  · intro h
    exact ⟨h e t (List.suffix_refl _), fun e' u hu => h e' u (hu.trans (List.suffix_cons _ _))⟩
  · rintro ⟨hnew, hold⟩ e' u hu
    obtain heq | hu := List.suffix_cons_iff.1 hu
    · obtain ⟨rfl, rfl⟩ := List.cons.inj heq
      exact hnew
    · exact hold e' u hu

/-- Only a break that is served can cut what was not there. -/
theorem Move.cutsRight (h : Move loopId k k') : CutsRight k'.trace ↔ CutsRight k.trace := by
  have hquiet {e : Entry ι (Event ι) (NbiotLoop ι)} {t : Log ι} (he : CutRight e.event t) :
      CutsRight (e :: t) ↔ CutsRight t := cutsRight_cons.trans (and_iff_right he)
  cases h with
  | null =>
    refine (hquiet ?_).trans (hquiet ?_)
    · exact Or.inl rfl
    · exact trivial
  | take c queue result hflag hnone hqueue => refine (hquiet ?_).trans (hquiet ?_) <;> exact trivial
  | idle hnone hqueue => exact Iff.rfl
  | _ =>
    refine hquiet ?_
    exact trivial

theorem cutsRight_moves (h : Moves loopId k k') : CutsRight k'.trace ↔ CutsRight k.trace := by
  induction h with
  | refl => exact Iff.rfl
  | tail _ hmove ih => exact hmove.cutsRight.trans ih

/-- Every client that was taken was asked to start next. -/
def TakenAsked (trace : Log ι) : Prop :=
  ∀ c result v t, ⟨.taken c result, v⟩ :: t <:+ trace →
    ∃ v', ⟨.app (.asked c), v'⟩ :: ⟨.taken c result, v⟩ :: t <:+ trace

theorem TakenAsked.cons {e : Entry ι (Event ι) (NbiotLoop ι)} {t : Log ι} (h : TakenAsked t)
    (he : ∀ c result, e.event ≠ .taken c result) : TakenAsked (e :: t) := by
  intro c result v u hu
  obtain heq | hu := List.suffix_cons_iff.1 hu
  · obtain ⟨rfl, rfl⟩ := List.cons.inj heq
    exact absurd rfl (he c result)
  · obtain ⟨v', hasked⟩ := h c result v u hu
    exact ⟨v', hasked.trans (List.suffix_cons _ _)⟩

theorem TakenAsked.move (h : TakenAsked k.trace) (hmove : Move loopId k k') :
    TakenAsked k'.trace := by
  cases hmove with
  | null => refine TakenAsked.cons (TakenAsked.cons h ?_) ?_ <;> nofun
  | take c queue result hflag hnone hqueue =>
    intro d result' v u hu
    obtain heq | hu := List.suffix_cons_iff.1 hu
    · cases (List.cons.inj heq).1
    · obtain heq | hu := List.suffix_cons_iff.1 hu
      · obtain ⟨hentry, rfl⟩ := List.cons.inj heq
        cases hentry
        exact ⟨_, List.suffix_refl _⟩
      · obtain ⟨v', hasked⟩ := h d result' v u hu
        exact ⟨v', hasked.trans ⟨[_, _], rfl⟩⟩
  | idle hnone hqueue => exact h
  | _ => exact h.cons nofun

/-- The state between two calls. -/
structure Between (loopId : ι → NbiotLoopId) (k : Track ι) : Prop where
  served : Served loopId k
  due : k.loop.breakFlag = true → Due k.trace
  asked : TakenAsked k.trace
  quiet : nulled k.trace = false

namespace Between

theorem fresh (reply : Nat → Reply ι) : Between loopId (track { rest := { reply } }) :=
  ⟨.fresh reply, nofun, fun _ _ _ _ h => absurd (List.suffix_nil.1 h) (List.cons_ne_nil _ _), rfl⟩

theorem move (h : Between loopId k) (hmove : Move loopId k k') : Between loopId k' := by
  refine ⟨h.served.move hmove, Due.move h.served h.due hmove, h.asked.move hmove, ?_⟩
  cases hmove with
  | idle hnone hqueue => exact h.quiet
  | _ => rfl

theorem moves (h : Between loopId k) (hmoves : Moves loopId k k') : Between loopId k' := by
  induction hmoves with
  | refl => exact h
  | tail _ hmove ih => exact ih.move hmove

theorem ready (h : Between loopId k) : Between loopId k.ready := by
  refine ⟨h.served.ready, fun hflag => ?_, ?_, ?_⟩
  · exact nomatch (ready_breakFlag k).symm.trans hflag
  · unfold Track.ready
    split
    · exact h.asked.cons nofun
    · exact h.asked
  · unfold Track.ready
    split
    · rfl
    · exact h.quiet

/-- Serving a break cuts what was there exactly when nobody has joined since. -/
theorem ready_cutsRight (h : Between loopId k) :
    CutsRight k.ready.trace ↔
      CutsRight k.trace ∧ (k.loop.breakFlag = true → joined k.trace = 0) := by
  unfold Track.ready
  split
  · rename_i hflag
    obtain ⟨⟨b, hb, hqueue, hactive⟩, hwaiting⟩ := h.due hflag
    rw [Track.serveBreak, Track.clear, cutsRight_cons, and_comm]
    refine and_congr_right fun _ => ⟨fun hcut _ => ?_, fun hnone => .inr ?_⟩
    · -- the last one in the queue has joined after the break, if anybody has
      obtain hnull | ⟨b', hb', hfound, -⟩ := hcut
      · cases h.quiet.symm.trans hnull
      · cases hb.symm.trans hb'
        by_contra hjoined
        have hcount := joined_le hb
        have hlast : QueueHistory.Waiting queued k.trace
            ((QueueHistory.arrivals queued k.trace).length - 1) := ⟨by omega, by omega⟩
        have hthere := (hfound _ hlast).2
        omega
    · refine ⟨b, hb, fun n hn => hqueue n hn ?_, fun c hc => hactive c ?_⟩
      · rw [hnone hflag]
        exact hn.2
      · rw [← h.served.now.active]
        exact hc
  · rename_i hflag
    exact (and_iff_left fun h => absurd h hflag).symm

theorem exec {s : World ι} (h : Between loopId (track s)) (op : Op ι) :
    Between loopId (track (LoopQueue.exec loopId s op)) := by
  refine moves ?_ (exec_moves _ s op)
  cases op with
  | nbiotLoop => exact h.ready
  | _ => exact h

variable (loopId) in
theorem run (reply : Nat → Reply ι) (ops : List (Op ι)) :
    Between loopId (track (LoopQueue.run loopId reply ops)) := by
  induction ops using List.reverseRecOn with
  | nil => exact .fresh reply
  | append_singleton ops op ih =>
    rw [run_snoc]
    exact ih.exec op

end Between

/-! ## The rule along a run -/

/-- Nothing is lost: a registration waits, was taken, or was cleared. -/
theorem Between.settled (h : Between loopId k) {n : Nat}
    (hn : n < (QueueHistory.arrivals queued k.trace).length) : Settled k.trace n := by
  obtain hwaiting | ⟨⟨e, v⟩, t, hsuffix, hdeparted⟩ := QueueHistory.waiting_or_departed hn
  · exact .inl hwaiting
  · obtain ⟨hnow, hpermitted⟩ := h.served.entries _ t hsuffix
    have hlength := hnow.queue.length
    obtain ⟨hfirst, c, hc⟩ | ⟨hle, queue, hqueue, hlt⟩ := hdeparted
    · cases e with
      | taken c' result =>
        obtain rfl : c' = c := by
          cases hc
          rfl
        obtain ⟨v', hasked⟩ := h.asked c' result v t hsuffix
        refine .inr (.inl ⟨c', result, v, v', t, hasked, hfirst, ?_⟩)
        obtain ⟨queue, hcons⟩ := List.head?_eq_some_iff.1 hpermitted.2
        have harrivals := hnow.queue
        rw [hcons] at harrivals
        obtain ⟨rest, hrest⟩ :=
          QueueHistory.arrivals_prefix queued ((List.suffix_cons _ _).trans hsuffix)
        rw [← hrest, harrivals, ← hfirst]
        simp
      | _ => cases hc
    · cases e with
      | cleared client queue' =>
        obtain rfl : queue' = queue := by
          cases hqueue
          rfl
        have hthere : queue' = v.clientList := hpermitted.2
        refine .inr (.inr ⟨client, queue', v, t, hsuffix, hle, ?_⟩)
        rw [hlength, ← hthere]
        exact hlt
      | _ => cases hqueue

theorem takesFront (reply : Nat → Reply ι) (ops : List (Op ι)) : TakesFront loopId reply ops := by
  intro pre post c queue _ hflag hnone hqueue
  have hready : track (breakPending (run loopId reply pre)).2 = track (run loopId reply pre) := by
    rw [breakPending_track]
    exact if_neg (by rw [track, hflag]; decide)
  obtain ⟨hloop, htrace⟩ := Track.mk.inj hready
  rw [← hloop] at hflag hnone hqueue
  have hturn : (clients loopId).loopTurn (breakPending (run loopId reply pre)).2 =
      (clients loopId).takeClient c queue (breakPending (run loopId reply pre)).2 := by
    simp [LoopControlled.loopTurn, hnone, hqueue]
  have hmoves := suffix_of_moves (takeClient_moves loopId hflag hnone hqueue).2
  rw [← hturn] at hmoves
  rw [run_snoc]
  rw [← htrace]
  exact ⟨_, _, _, hmoves⟩

theorem cutsRight_snoc (reply : Nat → Reply ι) (ops : List (Op ι)) (op : Op ι) :
    CutsRight (run loopId reply (ops ++ [op])).trace ↔
      CutsRight (run loopId reply ops).trace ∧
        (op = .nbiotLoop → (run loopId reply ops).loop.breakFlag = true →
          joined (run loopId reply ops).trace = 0) := by
  have hbetween := Between.run loopId reply ops
  rw [run_snoc]
  refine (cutsRight_moves (exec_moves loopId (run loopId reply ops) op)).trans ?_
  cases op with
  | nbiotLoop => exact hbetween.ready_cutsRight.trans (and_congr_right fun _ => by simp [track])
  | _ =>
    refine (and_iff_left fun hop => ?_).symm
    cases hop

theorem noneJoined_snoc (reply : Nat → Reply ι) (ops : List (Op ι)) (op : Op ι) :
    NoneJoined loopId reply (ops ++ [op]) ↔
      NoneJoined loopId reply ops ∧
        (op = .nbiotLoop → (run loopId reply ops).loop.breakFlag = true →
          joined (run loopId reply ops).trace = 0) := by
  unfold NoneJoined
  exact forall_split_at_concat

variable (loopId)

/-- **A break only cuts what was there** exactly when no client has joined the
queue since the break whenever a break is served. -/
theorem breaksCut_iff (reply : Nat → Reply ι) (ops : List (Op ι)) :
    BreaksCut loopId reply ops ↔ NoneJoined loopId reply ops := by
  have hcuts : CutsRight (run loopId reply ops).trace ↔ NoneJoined loopId reply ops := by
    induction ops using List.reverseRecOn with
    | nil =>
      refine iff_of_true (fun _ _ h => ?_) fun pre post h => ?_
      · exact absurd (List.suffix_nil.1 h) (List.cons_ne_nil _ _)
      · simp at h
    | append_singleton ops op ih => rw [cutsRight_snoc, noneJoined_snoc, ih]
  exact ⟨fun h => hcuts.1 h.cuts, fun h =>
    ⟨hcuts.2 h, fun _ => (Between.run _ reply ops).settled, takesFront reply ops⟩⟩

/-- A client that is registered after a break is cut by it. -/
theorem not_breaksCut_registered :
    ¬ BreaksCut (fun _ : Nat => .yield) (fun _ => ⟨[], .pending, 0⟩)
      [.registerLoopClient 0, .loopBreak, .registerLoopClient 1, .nbiotLoop] := by
  intro h
  obtain hnull | ⟨b, hb, hfound, -⟩ := h.cuts _ _ (List.suffix_refl _)
  · cases hnull
  · cases hb
    exact absurd (hfound 1 ⟨by decide, by decide⟩).2 (by decide)

end LoopQueue

end LibNbiot
