/-
# Blocks and single bytes in the ring buffer

A block of bytes moves as its bytes do one by one, as long as there is something
to move. A block of no bytes still recomputes the flag from the two indices: put
into an empty buffer it makes the buffer full, and got from a full buffer it makes
the buffer empty. Even then the buffer represents some queue, so that every state
that any calls can reach is covered.
-/

import LibNbiot.Modem.RingBuffer

namespace LibNbiot

open Logic

namespace CircularBuffer

variable {α : Type} {maxSize : Nat} {b : CircularBuffer α maxSize} {items : List α}

/-! ## Blocks of no bytes -/

theorem memcpyTo_nil (array : List α) (offset : Nat) : memcpyTo array offset [] = array := by
  rw [memcpyTo, List.append_nil, List.length_nil, Nat.add_zero, List.take_append_drop]

namespace Represents

/-- Nothing is put: the indices stay, and the flag is what they say. -/
theorem put_nil (h : b.Represents items) :
    b.put [] = (true, { b with full := decide (b.head = b.tail) }) := by
  have hhead := h.head_lt
  have hlen : ([] : List α).length ≤ b.capacity := Nat.zero_le _
  have hin : ([] : List α).length < maxSize - b.head := by
    rw [List.length_nil]
    omega
  rw [CircularBuffer.put, if_pos hlen, if_pos hin, CircularBuffer.store, memcpyTo_nil,
    List.length_nil, advance]
  simp only [Nat.add_zero, Nat.mod_eq_of_lt hhead, Nat.mod_eq_of_lt h.tail_lt, ite_self]

/-- Nothing is got: the indices stay, and the buffer counts as not full. -/
theorem get_zero (h : b.Represents items) : b.get 0 = (some [], { b with full := false }) := by
  have htail := h.tail_lt
  rw [CircularBuffer.get, if_pos (Nat.zero_le _), if_pos (by omega), CircularBuffer.load, retreat,
    memcpyFrom, List.take_zero, Nat.add_zero, Nat.mod_eq_of_lt htail]

theorem head_eq_tail_iff (h : b.Represents items) (hne : items ≠ []) :
    b.head = b.tail ↔ items.length = maxSize := by
  rw [h.head_eq]
  exact window_eq_start h.tail_lt (List.length_pos_of_ne_nil hne) h.length_le

theorem put_nil_of_ne (h : b.Represents items) (hne : items ≠ []) : b.put [] = (true, b) := by
  have hfull : decide (b.head = b.tail) = b.full := by
    rw [h.full_eq, decide_eq_decide]
    exact h.head_eq_tail_iff hne
  rw [h.put_nil, hfull]

theorem get_zero_of_room (h : b.Represents items) (hroom : b.full = false) :
    b.get 0 = (some [], b) := by
  rw [h.get_zero, ← hroom]

/-- An empty buffer that is taken for full holds whatever is in its array. -/
theorem filled (h : b.Represents []) :
    ({ b with full := true } : CircularBuffer α maxSize).Represents
      (b.buffer.drop b.tail ++ b.buffer.take b.tail) := by
  have htail := h.tail_lt
  have hbuf := h.buffer_length
  have hlen : (b.buffer.drop b.tail ++ b.buffer.take b.tail).length = maxSize := by
    rw [List.length_append, List.length_drop, List.length_take]
    omega
  refine ⟨hbuf, htail, hlen.le, ?_, ?_, fun i hi => ?_⟩
  · rw [hlen, Nat.add_mod_right]
    exact h.head_eq
  · exact (decide_eq_true hlen).symm
  · rw [hlen] at hi
    change b.buffer[(b.tail + i) % maxSize]? = _
    rcases Nat.lt_or_ge (b.tail + i) maxSize with hin | hover
    · rw [Nat.mod_eq_of_lt hin, List.getElem?_append_left (by rw [List.length_drop]; omega),
        List.getElem?_drop]
    · rw [Nat.mod_eq_sub_mod hover, Nat.mod_eq_of_lt (by omega),
        List.getElem?_append_right (by rw [List.length_drop]; omega), List.length_drop,
        List.getElem?_take, if_pos (by omega)]
      congr 1
      omega

/-- A full buffer that is taken for empty. -/
theorem emptied (h : b.Represents items) (hfull : b.full = true) :
    ({ b with full := false } : CircularBuffer α maxSize).Represents [] := by
  have hlen : items.length = maxSize := of_decide_eq_true (h.full_eq.symm.trans hfull)
  have hmax : 0 < maxSize := h.tail_lt.trans_le' (Nat.zero_le _)
  refine ⟨h.buffer_length, h.tail_lt, Nat.zero_le _, ?_, ?_, fun i hi => ?_⟩
  · rw [h.head_eq, hlen, Nat.add_mod_right]
    rfl
  · exact (decide_eq_false hmax.ne).symm
  · exact absurd hi (Nat.not_lt_zero _)

end Represents

/-! ## Every state that can be reached -/

theorem exec_of_length_zero {call : Call α} (h : ¬0 < call.op.length) :
    call = .put [] ∨ call = .get 0 := by
  cases call with
  | putByte x => exact absurd Nat.one_pos h
  | getByte => exact absurd Nat.one_pos h
  | put data =>
    left
    rw [List.length_eq_zero_iff.1 (Nat.eq_zero_of_not_pos h)]
  | get len =>
    right
    rw [show len = 0 from Nat.eq_zero_of_not_pos h]

/-- After any call a buffer that represents a queue represents one. -/
theorem exec_represents (h : b.Represents items) (call : Call α) :
    ∃ items', (b.exec call).2.Represents items' := by
  by_cases hpos : 0 < call.op.length
  · obtain ⟨-, hafter, -⟩ := exec_refines (q := ⟨items, h.length_le⟩) h call hpos
    exact ⟨_, hafter⟩
  · rcases exec_of_length_zero hpos with rfl | rfl
    · by_cases hnil : items = []
      · subst hnil
        have hempty : b.head = b.tail := by
          rw [h.head_eq, List.length_nil, Nat.add_zero, Nat.mod_eq_of_lt h.tail_lt]
        have hfilled : (b.exec (.put [])).2 = { b with full := true } := by
          rw [exec, h.put_nil, hempty, decide_eq_true rfl]
        exact ⟨_, hfilled ▸ h.filled⟩
      · rw [exec, h.put_nil_of_ne hnil]
        exact ⟨items, h⟩
    · by_cases hfull : b.full = true
      · rw [exec, h.get_zero]
        exact ⟨[], h.emptied hfull⟩
      · rw [exec, h.get_zero_of_room (Bool.eq_false_iff.2 hfull)]
        exact ⟨items, h⟩

theorem run_represents (h : b.Represents items) (calls : List (Call α)) :
    ∃ items', (b.run calls).2.Represents items' := by
  induction calls generalizing b items with
  | nil => exact ⟨items, h⟩
  | cons call calls ih =>
    obtain ⟨items', hafter⟩ := exec_represents h call
    exact ih hafter

/-! ## Blocks and single bytes -/

/-- The same call, one byte at a time. -/
def Call.singles : Call α → List (Call α)
  | .put data => data.map .putByte
  | .get len => List.replicate len .getByte
  | call => [call]

/-- A block of no bytes where the indices do not tell empty from full. -/
def Call.Idle (b : CircularBuffer α maxSize) : Call α → Prop
  | .put data => data = [] ∧ b.empty = true
  | .get len => len = 0 ∧ b.full = true
  | _ => False

/-- Two buffers hold the same queue and say the same of themselves. -/
structure SameQueue (b b' : CircularBuffer α maxSize) : Prop where
  content : ∀ items, b.Represents items ↔ b'.Represents items
  size : b.size = b'.size
  empty : b.empty = b'.empty
  full : b.full = b'.full

/-- A call leaves what its single bytes leave, and yields the same bytes. -/
structure BlockAgrees (b : CircularBuffer α maxSize) (call : Call α) : Prop where
  queue : SameQueue (b.exec call).2 (b.run call.singles).2
  yields : (b.exec call).1.given = BoundedQueue.given (b.run call.singles).1

theorem map_op_singles (call : Call α) : call.singles.map Call.op = call.op.singles := by
  cases call with
  | putByte x => rfl
  | getByte => rfl
  | put data => exact List.map_map
  | get len => exact List.map_replicate

theorem Represents.unique {items' : List α} (h : b.Represents items) (h' : b.Represents items') :
    items = items' := by
  have hlen : items.length = items'.length := by rw [← h.size_eq, h'.size_eq]
  refine List.ext_getElem? fun i => ?_
  rcases Nat.lt_or_ge i items.length with hi | hi
  · rw [← h.cells i hi, h'.cells i (hlen ▸ hi)]
  · rw [List.getElem?_eq_none hi, List.getElem?_eq_none (hlen ▸ hi)]

/-- The queue that a buffer holds determines what it says of itself. -/
theorem Represents.sameQueue {b' : CircularBuffer α maxSize} (h : b.Represents items)
    (h' : b'.Represents items) : SameQueue b b' where
  content items' := ⟨fun h₁ => h.unique h₁ ▸ h', fun h₁ => h'.unique h₁ ▸ h⟩
  size := by rw [h.size_eq, h'.size_eq]
  empty := by rw [h.empty_eq, h'.empty_eq]
  full := by rw [h.full_eq, h'.full_eq]

/-- A call that moves something does what the queue does, in a block or not. -/
theorem blockAgrees_of_pos (h : b.Represents items) {call : Call α} (hpos : 0 < call.op.length)
    (hdone : (b.exec call).1.done = true) : BlockAgrees b call := by
  have hq : b.Represents (⟨items, h.length_le⟩ : BoundedQueue α maxSize).items := h
  generalize (⟨items, h.length_le⟩ : BoundedQueue α maxSize) = q at hq
  obtain ⟨hanswer, hblock, -⟩ := exec_refines hq call hpos
  have hsingles : ∀ single ∈ call.singles, 0 < single.op.length := by
    intro single hmem
    have hop : single.op ∈ call.op.singles := by
      rw [← map_op_singles]
      exact List.mem_map_of_mem hmem
    rw [BoundedQueue.Op.length_of_mem_singles hop]
    exact Nat.one_pos
  obtain ⟨hanswers, hafter⟩ := run_refines hq call.singles hsingles
  rw [map_op_singles] at hanswers hafter
  obtain ⟨hqueue, hgiven⟩ := q.run_singles call.op (hanswer ▸ hdone)
  rw [hqueue] at hafter
  exact ⟨hblock.sameQueue hafter, by rw [hanswers, hgiven, hanswer]⟩

theorem blockAgrees_put_nil_iff (h : b.Represents items) :
    BlockAgrees b (.put []) ↔ ¬b.empty = true := by
  by_cases hnil : items = []
  · subst hnil
    have hsame : b.head = b.tail := by
      rw [h.head_eq, List.length_nil, Nat.add_zero, Nat.mod_eq_of_lt h.tail_lt]
    refine iff_of_false (fun hagrees => ?_) (fun hempty => hempty ?_)
    · have hfull := hagrees.queue.full
      rw [exec, h.put_nil, hsame, decide_eq_true rfl] at hfull
      have hmax : 0 < maxSize := h.tail_lt.trans_le' (Nat.zero_le _)
      have hroom : b.full = false := h.full_eq.trans (decide_eq_false hmax.ne)
      exact Bool.noConfusion (hroom.symm.trans hfull.symm)
    · rw [h.empty_eq, decide_eq_true rfl]
  · have hsame : b.exec (.put []) = (⟨true, []⟩, b) := by rw [exec, h.put_nil_of_ne hnil]
    refine iff_of_true ⟨?_, ?_⟩ ?_
    · rw [hsame]
      exact h.sameQueue h
    · rw [hsame]
      rfl
    · rw [h.empty_eq, decide_eq_true_iff]
      exact hnil

theorem blockAgrees_get_zero_iff (h : b.Represents items) :
    BlockAgrees b (.get 0) ↔ ¬b.full = true := by
  by_cases hfull : b.full = true
  · refine iff_of_false (fun hagrees => ?_) (fun hroom => hroom hfull)
    have hafter := hagrees.queue.full
    rw [exec, h.get_zero] at hafter
    exact Bool.noConfusion (hafter.trans hfull)
  · have hsame : b.exec (.get 0) = (⟨true, []⟩, b) := by
      rw [exec, h.get_zero_of_room (Bool.eq_false_iff.2 hfull)]
      rfl
    refine iff_of_true ⟨?_, ?_⟩ hfull
    · rw [hsame]
      exact h.sameQueue h
    · rw [hsame]
      rfl

theorem blockAgrees_iff_of_represents (h : b.Represents items) {call : Call α}
    (hdone : (b.exec call).1.done = true) : BlockAgrees b call ↔ ¬call.Idle b := by
  by_cases hpos : 0 < call.op.length
  · refine iff_of_true (blockAgrees_of_pos h hpos hdone) fun hidle => ?_
    cases call with
    | putByte x => exact hidle
    | getByte => exact hidle
    | put data => exact hpos.ne' (List.length_eq_zero_iff.2 hidle.1)
    | get len => exact hpos.ne' hidle.1
  · rcases exec_of_length_zero hpos with rfl | rfl
    · rw [blockAgrees_put_nil_iff h, Call.Idle, eq_self, true_and]
    · rw [blockAgrees_get_zero_iff h, Call.Idle, eq_self, true_and]

/-- **Blocks agree with single bytes** in every state that any calls can reach, except
for a block of no bytes that is put into an empty buffer or got from a full one. -/
theorem blockAgrees_iff (b : CircularBuffer α maxSize) (hb : b.buffer.length = maxSize)
    (hmax : 0 < maxSize) (calls : List (Call α)) (call : Call α)
    (hdone : ((b.reset.run calls).2.exec call).1.done = true) :
    BlockAgrees (b.reset.run calls).2 call ↔ ¬call.Idle (b.reset.run calls).2 := by
  obtain ⟨items, hafter⟩ := run_represents (reset_represents hb hmax) calls
  exact blockAgrees_iff_of_represents hafter hdone

/-- A block around the end of a buffer of three. -/
theorem blockAgrees_around :
    BlockAgrees ((⟨[0, 0, 0], 0, 0, false⟩ : CircularBuffer Nat 3).reset.run [.put [1, 2], .getByte]).2
        (.put [3, 4]) ↔
      ¬(Call.put [3, 4]).Idle
        ((⟨[0, 0, 0], 0, 0, false⟩ : CircularBuffer Nat 3).reset.run [.put [1, 2], .getByte]).2 :=
  blockAgrees_iff _ rfl (by decide) _ _ (by decide)

/-- Nothing put into a new buffer fills it. -/
theorem not_blockAgrees_put_nil : ¬ ∀ b : CircularBuffer Nat 3, b.buffer.length = 3 →
    ∀ calls call, ((b.reset.run calls).2.exec call).1.done = true →
      BlockAgrees (b.reset.run calls).2 call := fun h =>
  absurd (h ⟨[0, 0, 0], 0, 0, false⟩ rfl [] (.put []) (by decide)).queue.size (by decide)

end CircularBuffer

end LibNbiot
