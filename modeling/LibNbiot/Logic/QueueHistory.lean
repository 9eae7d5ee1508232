/-
# Histories of a queue

What happened to a queue, read off a log that lists the latest entry first and
may hold other entries as well. Items arrive at the end of the queue; they depart
from its front, when they are taken or when the whole queue is dropped. If every
departure finds in front what it says, the items that arrived are the items that
departed followed by those still waiting. An arrival is named by its number, so
that an item which arrives twice is told apart from itself.
-/

import Mathlib.Data.List.Basic

namespace Logic

universe u v

/-- What an entry of the log does to the queue. -/
inductive QueueEvent (α : Type u) where
  | arrive (a : α)
  | take (a : α)
  | drop (as : List α)

namespace QueueHistory

variable {α : Type u} {ε : Type v} (event : ε → Option (QueueEvent α))

/-- The items that arrived, in their order. -/
def arrivals : List ε → List α
  | [] => []
  | e :: t =>
      match event e with
      | some (.arrive a) => arrivals t ++ [a]
      | _ => arrivals t

/-- The items that were taken or dropped, in their order. -/
def departures : List ε → List α
  | [] => []
  | e :: t =>
      match event e with
      | some (.take a) => departures t ++ [a]
      | some (.drop as) => departures t ++ as
      | _ => departures t

/-- The arrival of number `n` is still in the queue. -/
def Waiting (t : List ε) (n : Nat) : Prop :=
  (departures event t).length ≤ n ∧ n < (arrivals event t).length

/-- The queue holds what arrived and did not depart. -/
def Holds (queue : List α) (t : List ε) : Prop :=
  arrivals event t = departures event t ++ queue

variable {event} {e : ε} {t t' : List ε} {queue : List α} {a : α} {n : Nat}

theorem arrivals_arrive (h : event e = some (.arrive a)) :
    arrivals event (e :: t) = arrivals event t ++ [a] := by rw [arrivals, h]

theorem departures_take (h : event e = some (.take a)) :
    departures event (e :: t) = departures event t ++ [a] := by rw [departures, h]

theorem departures_drop {as : List α} (h : event e = some (.drop as)) :
    departures event (e :: t) = departures event t ++ as := by rw [departures, h]

theorem arrivals_of_none (h : event e = none) : arrivals event (e :: t) = arrivals event t := by
  rw [arrivals, h]

theorem departures_of_none (h : event e = none) :
    departures event (e :: t) = departures event t := by rw [departures, h]

variable (event) in
theorem arrivals_prefix (h : t <:+ t') : arrivals event t <+: arrivals event t' := by
  obtain ⟨new, rfl⟩ := h
  induction new with
  | nil => exact List.prefix_rfl
  | cons e new ih =>
    rw [List.cons_append, arrivals]
    split
    · exact ih.trans (List.prefix_append _ _)
    · exact ih

namespace Holds

theorem nil : Holds event [] [] := rfl

theorem other (h : Holds event queue t) (he : event e = none) : Holds event queue (e :: t) := by
  rw [Holds, arrivals_of_none he, departures_of_none he]
  exact h

theorem arrive (h : Holds event queue t) (he : event e = some (.arrive a)) :
    Holds event (queue ++ [a]) (e :: t) := by
  have hdepartures : departures event (e :: t) = departures event t := by rw [departures, he]
  rw [Holds, arrivals_arrive he, hdepartures, h, List.append_assoc]

theorem take (h : Holds event (a :: queue) t) (he : event e = some (.take a)) :
    Holds event queue (e :: t) := by
  have harrivals : arrivals event (e :: t) = arrivals event t := by rw [arrivals, he]
  rw [Holds, departures_take he, harrivals, h, List.append_assoc]
  rfl

theorem drop (h : Holds event queue t) (he : event e = some (.drop queue)) :
    Holds event [] (e :: t) := by
  have harrivals : arrivals event (e :: t) = arrivals event t := by rw [arrivals, he]
  rw [Holds, departures_drop he, harrivals, h, List.append_nil]

theorem length (h : Holds event queue t) :
    (arrivals event t).length = (departures event t).length + queue.length := by
  rw [h, List.length_append]

theorem not_waiting_of_nil (h : Holds event [] t) : ¬Waiting event t n := by
  have hlength := h.length
  rw [List.length_nil, Nat.add_zero] at hlength
  exact fun hn => absurd hn.2 (by have := hn.1; omega)

end Holds

theorem waiting_of_none (he : event e = none) : Waiting event (e :: t) n ↔ Waiting event t n := by
  rw [Waiting, Waiting, arrivals_of_none he, departures_of_none he]

/-- An arrival waits unless it departed by one of the entries. -/
theorem waiting_or_departed (hn : n < (arrivals event t).length) :
    Waiting event t n ∨ ∃ e u, e :: u <:+ t ∧
      ((departures event u).length = n ∧ (∃ a, event e = some (.take a)) ∨
        (departures event u).length ≤ n ∧
          ∃ as, event e = some (.drop as) ∧ n < (departures event u).length + as.length) := by
  by_cases hwaiting : (departures event t).length ≤ n
  · exact .inl ⟨hwaiting, hn⟩
  · right
    clear hn
    induction t with
    | nil => exact absurd (Nat.zero_le n) hwaiting
    | cons e t ih =>
      by_cases hbefore : (departures event t).length ≤ n
      · refine ⟨e, t, List.suffix_refl _, ?_⟩
        rw [departures] at hwaiting
        split at hwaiting
        · rename_i a he
          rw [List.length_append, List.length_singleton] at hwaiting
          exact .inl ⟨by omega, a, he⟩
        · rename_i as he
          rw [List.length_append] at hwaiting
          exact .inr ⟨hbefore, as, he, by omega⟩
        · exact absurd hbefore hwaiting
      · obtain ⟨e', u, hsuffix, hdeparted⟩ := ih hbefore
        exact ⟨e', u, hsuffix.trans (List.suffix_cons _ _), hdeparted⟩

end QueueHistory

end Logic
