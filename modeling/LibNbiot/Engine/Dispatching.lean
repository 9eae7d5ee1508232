/-
# The dispatcher over the objects

The loops of `EventDispatcher::dispatch` look at their queues again before each turn.
Handling an event readies no further one, and so the first loop ends with the events
that were ready before it: each is handled once, in the order of the queue, and none
of them gets lost between the objects.
-/

import LibNbiot.Engine.Setup
import LibNbiot.Ledger.StateMachine

namespace LibNbiot

open Logic.Program

namespace Engine

namespace NbiotStm

/-- `m_eventId++`, which goes on with 1 behind the last positive number. -/
def nextEventId (eventId : Int) : Int :=
  if eventId + 1 ≤ 0 ∨ 2 ^ 31 ≤ eventId + 1 then 1 else eventId + 1

/-- The loop over `m_events`: the events with what became of them, and `m_eventId`. An event in
the queue is pending and has no id yet. -/
def drainLoop : Nat → Int → M (Option (List Event × Int))
  | 0, _ => return none
  | fuel + 1, eventId => do
      match (← getStm).events with
      | [] => return some ([], eventId)
      | e :: events =>
          modifyStm fun stm => { stm with events := events }
          let eventId := nextEventId eventId
          match ← handleEvent machine objects fuel { eventType := typeOf e, eventId } with
          | some ev =>
              let rest ← drainLoop fuel eventId
              return rest.map fun (evs, eventId) => (ev :: evs, eventId)
          | none => return none

/-- The loop over `m_pendingEvents`. -/
def readyLoop : Nat → M (Option Unit)
  | 0 => return none
  | fuel + 1 => do
      match (← getStm).pendingEvents with
      | [] => return some ()
      | e :: events =>
          modifyStm fun stm => { stm with events := stm.events ++ [e], pendingEvents := events }
          readyLoop fuel

/-- `dispatch()`. -/
def dispatch (fuel : Nat) (eventId : Int) : M (Option (List Event × Int)) := do
  dispatchTimeout
  match ← drainLoop fuel eventId with
  | some handled =>
      let ready ← readyLoop fuel
      return ready.map fun _ => handled
  | none => return none

/-! ## Each event once -/

/-- What becomes of the events of a queue. -/
structure Dispatched (queue : List StmEvent) (evs : List Event) : Prop where
  /-- They are the events of the queue, in its order. -/
  inOrder : evs.map (·.eventType) = queue.map typeOf
  /-- Each gets where it should, or nobody waits for it. -/
  settled : ∀ ev ∈ evs, ev.eventState = .handled ∨ ev.eventState = .ignored
  numbered : ∀ ev ∈ evs, 0 < ev.eventId

theorem nextEventId_pos (eventId : Int) : 0 < nextEventId eventId := by
  unfold nextEventId
  split <;> omega

theorem getStm_eq (s : Sys) : getStm s = (s.rest.stm, s) := rfl

theorem events_handleEvent (e : StmEvent) (s : Sys) :
    (LibNbiot.handleEvent e s).2.rest.stm.events = s.rest.stm.events :=
  (handleEvent_reacts e s).events

theorem Dispatched.cons {queue : List StmEvent} {evs : List Event} (h : Dispatched queue evs)
    (e : StmEvent) (eventId : Int) (s : Sys) :
    Dispatched (e :: queue) (outcome e (nextEventId eventId) s :: evs) where
  inOrder := congrArg (typeOf e :: ·) h.inOrder
  settled := by
    refine List.forall_mem_cons.2 ⟨?_, h.settled⟩
    rw [outcome]
    split
    · exact .inl rfl
    · exact .inr rfl
  numbered := List.forall_mem_cons.2 ⟨nextEventId_pos eventId, h.numbered⟩

theorem drainLoop_eq (queue : List StmEvent) (eventId : Int) {s : Sys}
    (h : s.rest.stm.events = queue) :
    ∃ evs eventId', Dispatched queue evs ∧ ∀ fuel ≥ queue.length + 7,
      drainLoop fuel eventId s = (some (evs, eventId'), (drainEvents queue s).2) := by
  induction queue generalizing eventId s with
  | nil =>
    refine ⟨[], eventId, ⟨rfl, nofun, nofun⟩, fun fuel hfuel => ?_⟩
    obtain ⟨fuel, rfl⟩ := Nat.exists_eq_add_of_le' hfuel
    rw [List.length_nil, Nat.zero_add, drainLoop, run_bind, getStm_eq, h]
    rfl
  | cons e queue ih =>
    let s₁ := (modifyStm (fun stm => { stm with events := queue }) s).2
    have hevents : (LibNbiot.handleEvent e s₁).2.rest.stm.events = queue := events_handleEvent e s₁
    obtain ⟨evs, eventId', hdispatched, hloop⟩ := ih (nextEventId eventId) hevents
    refine ⟨_, eventId', hdispatched.cons e eventId s₁, fun fuel hfuel => ?_⟩
    rw [List.length_cons] at hfuel
    obtain ⟨fuel, rfl⟩ := Nat.exists_eq_add_of_le' (Nat.le_trans (Nat.le_add_left 1 _) hfuel)
    rw [drainLoop, run_bind, getStm_eq, h]
    simp only [run_bind]
    rw [handleEvent_objects (by omega) e (nextEventId eventId) s₁]
    simp only [run_bind, hloop fuel (by omega)]
    rfl

theorem readyLoop_eq (pending : List StmEvent) {fuel : Nat} (hfuel : pending.length + 1 ≤ fuel)
    {s : Sys} (h : s.rest.stm.pendingEvents = pending) :
    readyLoop fuel s = (some (), (modifyStm (fun stm =>
      { stm with events := stm.events ++ stm.pendingEvents, pendingEvents := [] }) s).2) := by
  induction pending generalizing fuel s with
  | nil =>
    obtain ⟨fuel, rfl⟩ := Nat.exists_eq_add_of_le' hfuel
    have hnone : (modifyStm (fun stm =>
        { stm with events := stm.events ++ stm.pendingEvents, pendingEvents := [] }) s).2 = s := by
      simp only [modifyStm, run_modify, h, List.append_nil]
      rw [← h]
    rw [hnone, List.length_nil, Nat.zero_add, readyLoop, run_bind, getStm_eq, h]
    rfl
  | cons e pending ih =>
    obtain ⟨fuel, rfl⟩ := Nat.exists_eq_add_of_le' (Nat.le_trans (Nat.le_add_left 1 _) hfuel)
    rw [List.length_cons] at hfuel
    rw [readyLoop, run_bind, getStm_eq, h]
    simp only [run_bind]
    rw [ih (by omega) rfl]
    simp [modifyStm, h]

/-- **The dispatcher does what the model says**, in every state of the system: its loops end, and
the events that are ready, the timer event among them, are handled in their order and once. -/
theorem dispatch_objects (eventId : Int) (s : Sys) :
    ∃ n evs eventId', Dispatched (dispatchTimeout s).2.rest.stm.events evs ∧
      ∀ fuel ≥ n, dispatch fuel eventId s = (some (evs, eventId'), (LibNbiot.dispatch s).2) := by
  let s₁ := (dispatchTimeout s).2
  let s₂ := (drainEvents s₁.rest.stm.events s₁).2
  obtain ⟨evs, eventId', hdispatched, hdrain⟩ :=
    drainLoop_eq s₁.rest.stm.events eventId (s := s₁) rfl
  refine ⟨s₁.rest.stm.events.length + 7 + s₂.rest.stm.pendingEvents.length, evs, eventId',
    hdispatched, fun fuel hfuel => ?_⟩
  rw [dispatch, run_bind, run_bind, hdrain fuel (by omega)]
  simp only [run_bind]
  have hready : s₂.rest.stm.pendingEvents.length + 1 ≤ fuel := by omega
  rw [readyLoop_eq _ hready rfl]
  rfl

end NbiotStm

end Engine

end LibNbiot
