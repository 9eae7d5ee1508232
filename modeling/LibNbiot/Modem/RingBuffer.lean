/-
# The ring buffer is a bounded queue

A ring buffer represents a queue when its tail is where the queue begins, its
head is where it ends, and the places between, around the end of the array, hold
the items of the queue in their order. The flag tells whether the queue is full.
A copy that stays within the array keeps this, and every operation is one such
copy or two.
-/

import LibNbiot.Modem.CircularBuffer
import LibNbiot.Logic.BoundedQueue

namespace LibNbiot

open Logic

namespace CircularBuffer

variable {α : Type} {maxSize : Nat}

/-- The buffer holds the items of a queue. -/
structure Represents (b : CircularBuffer α maxSize) (items : List α) : Prop where
  buffer_length : b.buffer.length = maxSize
  tail_lt : b.tail < maxSize
  length_le : items.length ≤ maxSize
  head_eq : b.head = (b.tail + items.length) % maxSize
  full_eq : b.full = decide (items.length = maxSize)
  cells : ∀ i < items.length, b.buffer[(b.tail + i) % maxSize]? = items[i]?

namespace Represents

variable {b : CircularBuffer α maxSize} {items : List α}

theorem head_lt (h : b.Represents items) : b.head < maxSize := by
  rw [h.head_eq]
  exact Nat.mod_lt _ (h.tail_lt.trans_le' (Nat.zero_le _))

/-- A window that does not reach the end of the array is a stretch of it. -/
theorem window_eq (h : b.Represents items) {n : Nat} (hn : n ≤ maxSize) :
    (b.tail + n) % maxSize = if b.tail + n < maxSize then b.tail + n else b.tail + n - maxSize := by
  split
  · rename_i hlt
    exact Nat.mod_eq_of_lt hlt
  · have hlt := h.tail_lt
    rw [Nat.mod_eq_sub_mod (by omega), Nat.mod_eq_of_lt (by omega)]

/-! ### What the buffer says of itself -/

theorem size_eq (h : b.Represents items) : b.size = items.length := by
  have hhead := h.head_eq.trans (h.window_eq h.length_le)
  have htail := h.tail_lt
  have hlen := h.length_le
  by_cases hfull : items.length = maxSize
  · simp [size, h.full_eq, hfull]
  · simp only [size, h.full_eq, hfull, decide_false, Bool.false_eq_true, if_false, hhead]
    split <;> split <;> omega

theorem capacity_eq (h : b.Represents items) : b.capacity = maxSize - items.length := by
  rw [capacity, h.size_eq]

theorem empty_eq (h : b.Represents items) : b.empty = decide (items = []) := by
  have hhead := h.head_eq.trans (h.window_eq h.length_le)
  have htail := h.tail_lt
  have hlen := h.length_le
  have hnil : items = [] ↔ items.length = 0 := List.length_eq_zero_iff.symm
  simp only [empty, h.full_eq, hnil, hhead]
  by_cases hfull : items.length = maxSize
  · simp only [hfull, decide_true, Bool.not_true, Bool.false_and]
    exact (decide_eq_false (by omega)).symm
  · simp only [hfull, decide_false, Bool.not_false, Bool.true_and, decide_eq_decide]
    split <;> omega

/-! ### Copies that stay within the array -/

theorem memcpyTo_length {array data : List α} {offset : Nat}
    (h : offset + data.length ≤ array.length) : (memcpyTo array offset data).length = array.length := by
  simp only [memcpyTo, List.length_append, List.length_take, List.length_drop]
  omega

theorem memcpyTo_inside {array data : List α} {offset j : Nat}
    (h : offset + data.length ≤ array.length) (hj : j < data.length) :
    (memcpyTo array offset data)[offset + j]? = data[j]? := by
  have htake : (array.take offset).length = offset := by
    rw [List.length_take]
    omega
  rw [memcpyTo, List.append_assoc, List.getElem?_append_right (by omega), htake,
    Nat.add_sub_cancel_left, List.getElem?_append_left hj]

theorem memcpyTo_outside {array data : List α} {offset j : Nat}
    (h : offset + data.length ≤ array.length) (hj : j < offset ∨ offset + data.length ≤ j) :
    (memcpyTo array offset data)[j]? = array[j]? := by
  have htake : (array.take offset).length = offset := by
    rw [List.length_take]
    omega
  rw [memcpyTo]
  rcases hj with hj | hj
  · rw [List.append_assoc, List.getElem?_append_left (by omega), List.getElem?_take, if_pos hj]
  · rw [List.getElem?_append_right (by rw [List.length_append, htake]; exact hj), List.length_append,
      htake, List.getElem?_drop]
    congr 1
    omega

/-- Storing a block that fits, in front of the end of the array. -/
theorem store (h : b.Represents items) {data : List α}
    (hroom : items.length + data.length ≤ maxSize) (hend : b.head + data.length ≤ maxSize)
    (hpos : 0 < items.length + data.length) : (b.store data).Represents (items ++ data) := by
  have harray : b.head + data.length ≤ b.buffer.length := by
    rw [h.buffer_length]
    exact hend
  have htail : (b.store data).tail = b.tail := by
    by_cases hfull : b.full = true
    · have hnone : data.length = 0 := by
        have := of_decide_eq_true (h.full_eq.symm.trans hfull)
        omega
      simp only [CircularBuffer.store, advance, hfull, if_true, hnone, Nat.add_zero]
      exact Nat.mod_eq_of_lt h.tail_lt
    · simp [CircularBuffer.store, advance, hfull]
  have hhead : (b.store data).head = (b.tail + (items ++ data).length) % maxSize := by
    simp only [CircularBuffer.store, advance, h.head_eq, Nat.mod_add_mod, List.length_append,
      Nat.add_assoc]
  have hfull : (b.store data).full = decide ((b.store data).head = (b.store data).tail) := rfl
  refine ⟨?_, ?_, ?_, ?_, ?_, fun i hi => ?_⟩
  · exact (memcpyTo_length harray).trans h.buffer_length
  · rw [htail]
    exact h.tail_lt
  · rw [List.length_append]
    exact hroom
  · rw [htail]
    exact hhead
  · rw [hfull, hhead, htail, decide_eq_decide]
    refine window_eq_start h.tail_lt ?_ ?_ <;> rw [List.length_append]
    · exact hpos
    · exact hroom
  · rw [htail]
    rw [List.length_append] at hi
    change (memcpyTo b.buffer b.head data)[(b.tail + i) % maxSize]? = _
    -- The place of an item is the head's from the end of the old items on.
    have hplace : ∀ j < data.length, (b.tail + (items.length + j)) % maxSize = b.head + j := by
      intro j hj
      rw [← Nat.add_assoc, ← Nat.mod_add_mod, ← h.head_eq]
      exact Nat.mod_eq_of_lt (by omega)
    rcases Nat.lt_or_ge i items.length with hold | hnew
    · rw [List.getElem?_append_left hold, ← h.cells i hold]
      refine memcpyTo_outside harray ?_
      by_contra hinside
      obtain ⟨j, hj, hplaced⟩ : ∃ j < data.length, (b.tail + i) % maxSize = b.head + j :=
        ⟨(b.tail + i) % maxSize - b.head, by omega, by omega⟩
      have hsame := window_inj (by omega) (by omega) (hplaced.trans (hplace j hj).symm)
      omega
    · obtain ⟨j, rfl⟩ := Nat.exists_eq_add_of_le hnew
      rw [hplace j (by omega), List.getElem?_append_right (by omega), Nat.add_sub_cancel_left]
      exact memcpyTo_inside harray (by omega)

/-- Loading a block that is there, from in front of the end of the array. -/
theorem load (h : b.Represents items) {n : Nat} (hn : n ≤ items.length)
    (hend : b.tail + n ≤ maxSize) (hpos : 0 < n ∨ items.length < maxSize) :
    (b.load n).1 = items.take n ∧ (b.load n).2.Represents (items.drop n) := by
  have hlen := h.length_le
  constructor
  · refine List.ext_getElem? fun i => ?_
    simp only [CircularBuffer.load, memcpyFrom, List.getElem?_take, List.getElem?_drop]
    split
    · rename_i hi
      rw [← h.cells i (by omega), Nat.mod_eq_of_lt (by omega)]
    · rfl
  · have hmax : 0 < maxSize := h.tail_lt.trans_le' (Nat.zero_le _)
    refine ⟨h.buffer_length, Nat.mod_lt _ hmax, ?_, ?_, ?_, fun i hi => ?_⟩
    · rw [List.length_drop]
      omega
    · rw [List.length_drop]
      simp only [CircularBuffer.load, retreat, Nat.mod_add_mod]
      rw [h.head_eq]
      congr 1
      omega
    · rw [List.length_drop]
      exact (decide_eq_false (by omega)).symm
    · rw [List.length_drop] at hi
      simp only [CircularBuffer.load, retreat, Nat.mod_add_mod, List.getElem?_drop]
      rw [Nat.add_assoc]
      exact h.cells (n + i) (by omega)

/-! ### The operations -/

theorem room_iff (h : b.Represents items) (n : Nat) :
    n ≤ b.capacity ↔ items.length + n ≤ maxSize := by
  have hlen := h.length_le
  rw [h.capacity_eq]
  omega

theorem put (h : b.Represents items) (data : List α)
    (hpos : 0 < items.length + data.length) :
    if items.length + data.length ≤ maxSize then
      (b.put data).1 = true ∧ (b.put data).2.Represents (items ++ data)
    else b.put data = (false, b) := by
  have hhead := h.head_lt
  rw [CircularBuffer.put]
  simp only [h.room_iff]
  split
  · rename_i hroom
    by_cases hend : data.length < maxSize - b.head
    · simp only [hend, if_true]
      exact ⟨trivial, h.store hroom (by omega) (by omega)⟩
    · simp only [hend, if_false]
      generalize hl : maxSize - b.head = l
      have hfirst : (data.take l).length = l := by
        rw [List.length_take]
        omega
      have hstored : (b.store (data.take l)).Represents (items ++ data.take l) :=
        h.store (by omega) (by omega) (by omega)
      have hzero : (b.store (data.take l)).head = 0 := by
        simp only [CircularBuffer.store, advance, hfirst]
        rw [show b.head + l = maxSize by omega, Nat.mod_self]
      have hboth : ((b.store (data.take l)).store (data.drop l)).Represents
          (items ++ data.take l ++ data.drop l) := by
        refine hstored.store ?_ ?_ ?_
        · rw [List.length_append, List.length_drop, hfirst]
          omega
        · rw [hzero, List.length_drop]
          omega
        · rw [List.length_append]
          omega
      rw [List.append_assoc, List.take_append_drop] at hboth
      exact ⟨trivial, hboth⟩
  · rfl

theorem get (h : b.Represents items) {n : Nat} (hpos : 0 < n) :
    if n ≤ items.length then
      (b.get n).1 = some (items.take n) ∧ (b.get n).2.Represents (items.drop n)
    else b.get n = (none, b) := by
  have htail := h.tail_lt
  have hlen := h.length_le
  rw [CircularBuffer.get]
  simp only [h.size_eq]
  split
  · rename_i hthere
    by_cases hend : n < maxSize - b.tail
    · simp only [hend, if_true]
      obtain ⟨hgiven, hrest⟩ := h.load hthere (by omega) (.inl hpos)
      exact ⟨congrArg some hgiven, hrest⟩
    · simp only [hend, if_false]
      generalize hl : maxSize - b.tail = l
      obtain ⟨hgiven, hrest⟩ := h.load (n := l) (by omega) (by omega) (.inl (by omega))
      have hzero : (b.load l).2.tail = 0 := by
        simp only [CircularBuffer.load, retreat]
        rw [show b.tail + l = maxSize by omega, Nat.mod_self]
      have hdropped : (items.drop l).length = items.length - l := List.length_drop
      obtain ⟨hgiven', hrest'⟩ := hrest.load (n := n - l) (by omega) (by omega) (.inr (by omega))
      rw [List.drop_drop, show l + (n - l) = n by omega] at hrest'
      refine ⟨?_, hrest'⟩
      rw [hgiven, hgiven', ← List.take_add, show l + (n - l) = n by omega]
  · rfl

theorem putByte (h : b.Represents items) (x : α) :
    if items.length + 1 ≤ maxSize then
      (b.putByte x).1 = true ∧ (b.putByte x).2.Represents (items ++ [x])
    else b.putByte x = (false, b) := by
  have hhead := h.head_lt
  have hlen := h.length_le
  rw [CircularBuffer.putByte]
  simp only [h.full_eq]
  split
  · rename_i hroom
    rw [if_pos (by simp; omega)]
    exact ⟨rfl, h.store hroom hhead (by simp)⟩
  · rw [if_neg (by simp; omega)]

theorem getByte (h : b.Represents items) :
    if 1 ≤ items.length then
      b.getByte.1 = some (items.take 1) ∧ b.getByte.2.Represents (items.drop 1)
    else b.getByte = (none, b) := by
  have htail := h.tail_lt
  rw [CircularBuffer.getByte]
  simp only [h.empty_eq]
  split
  · rename_i hthere
    have hne : items ≠ [] := List.ne_nil_of_length_pos hthere
    obtain ⟨hgiven, hrest⟩ := h.load hthere (by omega) (.inl Nat.one_pos)
    rw [if_pos (by simpa using hne)]
    exact ⟨congrArg some hgiven, hrest⟩
  · rename_i hnone
    have hnil : items = [] := List.length_eq_zero_iff.1 (by omega)
    rw [if_neg (by simpa using hnil)]

end Represents

/-- A buffer that was just reset represents the empty queue. -/
theorem reset_represents {b : CircularBuffer α maxSize} (hb : b.buffer.length = maxSize)
    (hmax : 0 < maxSize) : b.reset.Represents [] where
  buffer_length := hb
  tail_lt := hmax
  length_le := Nat.zero_le _
  head_eq := (Nat.zero_mod _).symm
  full_eq := (decide_eq_false (by simpa using hmax.ne)).symm
  cells _ hi := absurd hi (Nat.not_lt_zero _)

/-! ## Sequences of operations -/

/-- The calls of the ring buffer, and the queue's operation of each. -/
inductive Call (α : Type) where
  | putByte (x : α)
  | getByte
  | put (data : List α)
  | get (len : Nat)

def Call.op : Call α → BoundedQueue.Op α
  | .putByte x => .put [x]
  | .getByte => .get 1
  | .put data => .put data
  | .get len => .get len

/-- What a call answers, and the buffer behind it. -/
def exec (b : CircularBuffer α maxSize) : Call α →
    BoundedQueue.Answer α × CircularBuffer α maxSize
  | .putByte x => (⟨(b.putByte x).1, []⟩, (b.putByte x).2)
  | .getByte => (⟨b.getByte.1.isSome, b.getByte.1.getD []⟩, b.getByte.2)
  | .put data => (⟨(b.put data).1, []⟩, (b.put data).2)
  | .get len => (⟨(b.get len).1.isSome, (b.get len).1.getD []⟩, (b.get len).2)

def run (b : CircularBuffer α maxSize) : List (Call α) →
    List (BoundedQueue.Answer α) × CircularBuffer α maxSize
  | [] => ([], b)
  | call :: calls => ((b.exec call).1 :: ((b.exec call).2.run calls).1, ((b.exec call).2.run calls).2)

/-- A call does to the queue what its operation does, and a refused call does
nothing to the buffer. -/
theorem exec_refines {b : CircularBuffer α maxSize} {q : BoundedQueue α maxSize}
    (h : b.Represents q.items) (call : Call α) (hpos : 0 < call.op.length) :
    (b.exec call).1 = (q.exec call.op).1 ∧ (b.exec call).2.Represents (q.exec call.op).2.items ∧
      ((b.exec call).1.done = false → (b.exec call).2 = b) := by
  cases call with
  | putByte x =>
    have hput := h.putByte x
    simp only [exec, Call.op, BoundedQueue.exec, BoundedQueue.put, List.length_singleton]
    split
    · rename_i hroom
      rw [if_pos hroom] at hput
      refine ⟨by rw [hput.1], hput.2, fun hno => ?_⟩
      cases hput.1.symm.trans hno
    · rename_i hroom
      rw [if_neg hroom] at hput
      rw [hput]
      exact ⟨rfl, h, fun _ => rfl⟩
  | getByte =>
    have hget := h.getByte
    simp only [exec, Call.op, BoundedQueue.exec, BoundedQueue.get]
    split
    · rename_i hthere
      rw [if_pos hthere] at hget
      rw [hget.1]
      refine ⟨rfl, hget.2, fun hno => ?_⟩
      cases hno
    · rename_i hthere
      rw [if_neg hthere] at hget
      rw [hget]
      exact ⟨rfl, h, fun _ => rfl⟩
  | put data =>
    have hput := h.put data (Nat.add_pos_right q.items.length hpos)
    simp only [exec, Call.op, BoundedQueue.exec, BoundedQueue.put]
    split
    · rename_i hroom
      rw [if_pos hroom] at hput
      refine ⟨by rw [hput.1], hput.2, fun hno => ?_⟩
      cases hput.1.symm.trans hno
    · rename_i hroom
      rw [if_neg hroom] at hput
      rw [hput]
      exact ⟨rfl, h, fun _ => rfl⟩
  | get len =>
    have hget := h.get (n := len) hpos
    simp only [exec, Call.op, BoundedQueue.exec, BoundedQueue.get]
    split
    · rename_i hthere
      rw [if_pos hthere] at hget
      rw [hget.1]
      refine ⟨rfl, hget.2, fun hno => ?_⟩
      cases hno
    · rename_i hthere
      rw [if_neg hthere] at hget
      rw [hget]
      exact ⟨rfl, h, fun _ => rfl⟩

/-- A sequence of calls does to the queue what its operations do. -/
theorem run_refines {b : CircularBuffer α maxSize} {q : BoundedQueue α maxSize}
    (h : b.Represents q.items) (calls : List (Call α)) (hpos : ∀ call ∈ calls, 0 < call.op.length) :
    (b.run calls).1 = (q.run (calls.map Call.op)).1 ∧
      (b.run calls).2.Represents (q.run (calls.map Call.op)).2.items := by
  induction calls generalizing b q with
  | nil => exact ⟨rfl, h⟩
  | cons call calls ih =>
    obtain ⟨hanswer, hafter, -⟩ := exec_refines h call (hpos call List.mem_cons_self)
    obtain ⟨hanswers, hrest⟩ := ih hafter fun call hcall => hpos call (List.mem_cons_of_mem _ hcall)
    simp only [run, List.map_cons, BoundedQueue.run]
    exact ⟨by rw [hanswer, hanswers], hrest⟩

/-- The buffer and the queue after the same calls from the start. -/
structure Agrees (b : CircularBuffer α maxSize) (calls : List (Call α)) : Prop where
  answers : (b.reset.run calls).1 =
    ((BoundedQueue.empty : BoundedQueue α maxSize).run (calls.map Call.op)).1
  size : (b.reset.run calls).2.size =
    ((BoundedQueue.empty : BoundedQueue α maxSize).run (calls.map Call.op)).2.items.length
  capacity : (b.reset.run calls).2.capacity + (b.reset.run calls).2.size = maxSize
  empty : (b.reset.run calls).2.empty = true ↔ (b.reset.run calls).2.size = 0
  full : (b.reset.run calls).2.full = true ↔ (b.reset.run calls).2.size = maxSize
  /-- What came out and what is in the buffer is what went in, in that order. -/
  fifo : ∃ items, (b.reset.run calls).2.Represents items ∧
    BoundedQueue.taken (calls.map Call.op) (b.reset.run calls).1 =
      BoundedQueue.given (b.reset.run calls).1 ++ items
  /-- The next call is refused exactly if it would overfill or underrun the queue,
  and changes nothing then. -/
  refused : ∀ call : Call α, 0 < call.op.length →
    (((b.reset.run calls).2.exec call).1.done = false ↔
      call.op.Exceeds maxSize (b.reset.run calls).2.size) ∧
    (((b.reset.run calls).2.exec call).1.done = false →
      ((b.reset.run calls).2.exec call).2 = (b.reset.run calls).2)

/-- **The ring buffer is a bounded FIFO queue**, whatever sequence of calls with
positive lengths it sees. -/
theorem agrees_with_queue (b : CircularBuffer α maxSize) (hb : b.buffer.length = maxSize)
    (hmax : 0 < maxSize) (calls : List (Call α)) (hpos : ∀ call ∈ calls, 0 < call.op.length) :
    b.Agrees calls := by
  obtain ⟨hanswers, hafter⟩ :=
    run_refines (q := .empty) (reset_represents hb hmax) calls hpos
  have hfifo := (BoundedQueue.empty : BoundedQueue α maxSize).run_conserves (calls.map Call.op)
  rw [← hanswers] at hfifo
  generalize hq : (BoundedQueue.empty : BoundedQueue α maxSize).run (calls.map Call.op) = r
    at hanswers hafter hfifo
  have hlen := hafter.length_le
  have hsize := hafter.size_eq
  refine ⟨by rw [hq]; exact hanswers, by rw [hq]; exact hsize, ?_, ?_, ?_, ?_, fun call hcall => ?_⟩
  · rw [hafter.capacity_eq, hsize]
    omega
  · rw [hafter.empty_eq, hsize, decide_eq_true_iff, List.length_eq_zero_iff]
  · rw [hafter.full_eq, hsize, decide_eq_true_iff]
  · exact ⟨_, hafter, hfifo⟩
  · obtain ⟨hanswer, -, hsame⟩ := exec_refines hafter call hcall
    refine ⟨?_, hsame⟩
    rw [hanswer, r.2.exec_refused, hsize]

/-- A block around the end of a buffer of three. -/
theorem agrees_with_queue_around :
    (⟨[0, 0, 0], 0, 0, false⟩ : CircularBuffer Nat 3).Agrees
      [.put [1, 2], .getByte, .put [3, 4], .get 3] :=
  agrees_with_queue _ rfl (by decide) _ (by decide)

end CircularBuffer

end LibNbiot
