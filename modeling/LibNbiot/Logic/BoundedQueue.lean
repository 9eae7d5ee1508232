/-
# Bounded FIFO queues

A queue of at most so many items. It takes a block of items at its end and gives
a block from its front, each of them whole or not at all. Whatever order the two
come in, the items that were given, with those still waiting behind them, are the
items that were taken, in their order.
-/

import Mathlib.Data.Nat.ModEq
import Mathlib.Data.List.Basic

namespace Logic

/-- At most `capacity` items, first in first out. -/
structure BoundedQueue (α : Type*) (capacity : Nat) where
  items : List α
  length_le : items.length ≤ capacity

namespace BoundedQueue

variable {α : Type*} {capacity : Nat}

/-- What is asked of a queue: to take a block or to give one. -/
inductive Op (α : Type*) where
  | put (xs : List α)
  | get (n : Nat)

/-- The number of items that an operation moves. -/
def Op.length : Op α → Nat
  | .put xs => xs.length
  | .get n => n

/-- A queue of so many items would be overfilled or underrun. -/
def Op.Exceeds (capacity length : Nat) : Op α → Prop
  | .put xs => capacity < length + xs.length
  | .get n => length < n

/-- The answer: was it done, and what was given. -/
structure Answer (α : Type*) where
  done : Bool
  given : List α
  deriving DecidableEq

@[ext]
theorem ext {q q' : BoundedQueue α capacity} (h : q.items = q'.items) : q = q' := by
  cases q
  cases q'
  cases h
  rfl

def empty : BoundedQueue α capacity := ⟨[], Nat.zero_le _⟩

/-- A block is taken if it fits. -/
def put (q : BoundedQueue α capacity) (xs : List α) : Answer α × BoundedQueue α capacity :=
  if h : q.items.length + xs.length ≤ capacity then
    (⟨true, []⟩, ⟨q.items ++ xs, by rw [List.length_append]; exact h⟩)
  else (⟨false, []⟩, q)

/-- A block is given if there is that much. -/
def get (q : BoundedQueue α capacity) (n : Nat) : Answer α × BoundedQueue α capacity :=
  if n ≤ q.items.length then
    (⟨true, q.items.take n⟩,
      ⟨q.items.drop n, by rw [List.length_drop]; exact le_trans (Nat.sub_le _ _) q.length_le⟩)
  else (⟨false, []⟩, q)

def exec (q : BoundedQueue α capacity) : Op α → Answer α × BoundedQueue α capacity
  | .put xs => q.put xs
  | .get n => q.get n

/-- The answers to a sequence of operations, and the queue behind it. -/
def run (q : BoundedQueue α capacity) : List (Op α) → List (Answer α) × BoundedQueue α capacity
  | [] => ([], q)
  | op :: ops => ((q.exec op).1 :: ((q.exec op).2.run ops).1, ((q.exec op).2.run ops).2)

/-- The items of the blocks that were taken, by the operations and their answers. -/
def taken : List (Op α) → List (Answer α) → List α
  | .put xs :: ops, a :: as => (if a.done then xs else []) ++ taken ops as
  | .get _ :: ops, _ :: as => taken ops as
  | _, _ => []

/-- The items that were given. -/
def given (as : List (Answer α)) : List α := as.flatMap Answer.given

variable (q : BoundedQueue α capacity)

/-- An operation is refused exactly if it would overfill or underrun the queue. -/
theorem exec_refused (op : Op α) :
    (q.exec op).1.done = false ↔ op.Exceeds capacity q.items.length := by
  cases op with
  | put xs =>
    simp only [exec, put, Op.Exceeds]
    split <;> simp <;> omega
  | get n =>
    simp only [exec, get, Op.Exceeds]
    split <;> simp <;> omega

/-- One operation neither loses nor doubles nor reorders an item. -/
theorem exec_conserves (op : Op α) :
    q.items ++ taken [op] [(q.exec op).1] = (q.exec op).1.given ++ (q.exec op).2.items := by
  cases op with
  | put xs =>
    simp only [exec, put]
    split <;> simp [taken]
  | get n =>
    simp only [exec, get]
    split <;> simp [taken]

/-- **First in, first out**: what was in the queue and what was taken is what was
given and what is left. -/
theorem run_conserves (ops : List (Op α)) :
    q.items ++ taken ops (q.run ops).1 = given (q.run ops).1 ++ (q.run ops).2.items := by
  induction ops generalizing q with
  | nil => simp [run, taken, given]
  | cons op ops ih =>
    have hstep := q.exec_conserves op
    have hrest := ih (q.exec op).2
    have htaken : taken (op :: ops) (q.run (op :: ops)).1 =
        taken [op] [(q.exec op).1] ++ taken ops ((q.exec op).2.run ops).1 := by
      cases op <;> simp [run, taken]
    calc q.items ++ taken (op :: ops) (q.run (op :: ops)).1
        = (q.items ++ taken [op] [(q.exec op).1]) ++ taken ops ((q.exec op).2.run ops).1 := by
          rw [htaken, List.append_assoc]
      _ = (q.exec op).1.given ++ ((q.exec op).2.items ++ taken ops ((q.exec op).2.run ops).1) := by
          rw [hstep, List.append_assoc]
      _ = given (q.run (op :: ops)).1 ++ (q.run (op :: ops)).2.items := by
          rw [hrest]
          simp [run, given]

/-! ### Blocks and single items -/

/-- The same operation, one item at a time. -/
def Op.singles : Op α → List (Op α)
  | .put xs => xs.map fun x => .put [x]
  | .get n => List.replicate n (.get 1)

theorem Op.length_of_mem_singles {op op' : Op α} (h : op' ∈ op.singles) : op'.length = 1 := by
  cases op with
  | put xs =>
    obtain ⟨x, -, rfl⟩ := List.mem_map.1 h
    rfl
  | get n =>
    obtain rfl := List.eq_of_mem_replicate h
    rfl

theorem run_singles_put (xs : List α) (h : q.items.length + xs.length ≤ capacity) :
    (q.run (Op.put xs).singles).2.items = q.items ++ xs ∧
      given (q.run (Op.put xs).singles).1 = [] := by
  induction xs generalizing q with
  | nil => exact ⟨(List.append_nil _).symm, rfl⟩
  | cons x xs ih =>
    rw [List.length_cons] at h
    have hone : q.exec (.put [x]) =
        (⟨true, []⟩, ⟨q.items ++ [x], by rw [List.length_append, List.length_singleton]; omega⟩) :=
      dif_pos (by rw [List.length_singleton]; omega)
    obtain ⟨hitems, hgiven⟩ := ih (q.exec (.put [x])).2 (by
      rw [hone, List.length_append, List.length_singleton]
      omega)
    constructor
    · refine hitems.trans ?_
      rw [hone, List.append_assoc, List.singleton_append]
    · change (q.exec (.put [x])).1.given ++
        given ((q.exec (.put [x])).2.run (Op.put xs).singles).1 = []
      rw [hgiven, hone, List.append_nil]

theorem run_singles_get (n : Nat) (h : n ≤ q.items.length) :
    (q.run (Op.get n).singles).2.items = q.items.drop n ∧
      given (q.run (Op.get n).singles).1 = q.items.take n := by
  induction n generalizing q with
  | zero => exact ⟨rfl, rfl⟩
  | succ n ih =>
    have hone : (q.exec (.get 1)).1.given = q.items.take 1 ∧
        (q.exec (.get 1)).2.items = q.items.drop 1 := by
      simp only [exec, get, if_pos (show 1 ≤ q.items.length by omega), and_self]
    obtain ⟨hitems, hgiven⟩ := ih (q.exec (.get 1)).2 (by
      rw [hone.2, List.length_drop]
      omega)
    constructor
    · refine hitems.trans ?_
      rw [hone.2, List.drop_drop, Nat.add_comm]
    · change (q.exec (.get 1)).1.given ++ given ((q.exec (.get 1)).2.run (Op.get n).singles).1 = _
      rw [hgiven, hone.1, hone.2, ← List.take_add, Nat.add_comm]

/-- An operation that is done moves what its single items move one by one. -/
theorem run_singles (op : Op α) (h : (q.exec op).1.done = true) :
    (q.run op.singles).2 = (q.exec op).2 ∧ given (q.run op.singles).1 = (q.exec op).1.given := by
  have hfits : ¬op.Exceeds capacity q.items.length := by
    rw [← exec_refused, h]
    exact Bool.noConfusion
  cases op with
  | put xs =>
    have hroom : q.items.length + xs.length ≤ capacity := not_lt.1 hfits
    obtain ⟨hitems, hgiven⟩ := q.run_singles_put xs hroom
    simp only [exec, put, dif_pos hroom]
    exact ⟨ext hitems, hgiven⟩
  | get n =>
    have hthere : n ≤ q.items.length := not_lt.1 hfits
    obtain ⟨hitems, hgiven⟩ := q.run_singles_get n hthere
    simp only [exec, get, if_pos hthere]
    exact ⟨ext hitems, hgiven⟩

end BoundedQueue

/-! ## Windows of a cycle -/

section Window

variable {m a i j : Nat}

/-- Within one round no place of a cycle comes twice. -/
theorem window_inj (hi : i < m) (hj : j < m) (h : (a + i) % m = (a + j) % m) : i = j := by
  have hmod : i % m = j % m := Nat.ModEq.add_left_cancel' a h
  rwa [Nat.mod_eq_of_lt hi, Nat.mod_eq_of_lt hj] at hmod

/-- A round ends where it began. -/
theorem window_eq_start (ha : a < m) (hpos : 0 < i) (hi : i ≤ m) :
    (a + i) % m = a ↔ i = m := by
  constructor
  · intro h
    by_contra hne
    have hlt : i < m := lt_of_le_of_ne hi hne
    have hzero : (a + i) % m = (a + 0) % m := by rw [h, Nat.add_zero, Nat.mod_eq_of_lt ha]
    exact hpos.ne' (window_inj hlt (hpos.trans_le hi) hzero)
  · rintro rfl
    rw [Nat.add_mod_right, Nat.mod_eq_of_lt ha]

end Window

end Logic
