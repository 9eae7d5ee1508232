/-
# Blocks of memory

A block is a stretch of cells that an allocator has given, never more than a fixed
limit. It is read and written by offset, and an access that leaves it has no
result. The lemmas say what a write leaves in front of it, in its place and behind
it, and what a block keeps of the one it replaces.
-/

import Mathlib.Data.List.Basic

namespace Logic

/-- At most `limit` cells. -/
structure Block (α : Type*) (limit : Nat) where
  cells : List α
  fits : cells.length ≤ limit

namespace Block

variable {α : Type*} {limit : Nat}

def size (b : Block α limit) : Nat := b.cells.length

/-- Some cells from an offset on, if they are all inside. -/
def read (b : Block α limit) (offset len : Nat) : Option (List α) :=
  if offset + len ≤ b.size then some ((b.cells.drop offset).take len) else none

/-- The cells with others from an offset on. -/
def overwritten (b : Block α limit) (offset : Nat) (data : List α) : List α :=
  b.cells.take offset ++ data ++ b.cells.drop (offset + data.length)

theorem length_overwritten {b : Block α limit} {offset : Nat} {data : List α}
    (h : offset + data.length ≤ b.size) : (b.overwritten offset data).length = b.size := by
  simp only [overwritten, List.length_append, List.length_take, List.length_drop]
  unfold size at *
  omega

/-- Write some cells from an offset on, if they are all inside. -/
def write (b : Block α limit) (offset : Nat) (data : List α) : Option (Block α limit) :=
  if h : offset + data.length ≤ b.size then
    some ⟨b.overwritten offset data, Nat.le_trans (Nat.le_of_eq (length_overwritten h)) b.fits⟩
  else none

variable {b b' : Block α limit} {offset len : Nat} {data : List α}

theorem read_eq_some (h : offset + len ≤ b.size) :
    b.read offset len = some ((b.cells.drop offset).take len) := if_pos h

/-- A write that stays inside has a result. -/
theorem exists_write (b : Block α limit) (offset : Nat) (data : List α)
    (h : offset + data.length ≤ b.size) : ∃ b', b.write offset data = some b' :=
  ⟨_, dif_pos h⟩

theorem write_inside (h : b.write offset data = some b') :
    offset + data.length ≤ b.size ∧ b'.cells = b.overwritten offset data := by
  unfold write at h
  split at h
  · exact ⟨‹_›, congrArg cells (Option.some.inj h).symm⟩
  · cases h

theorem size_write (h : b.write offset data = some b') : b'.size = b.size := by
  obtain ⟨hin, hcells⟩ := write_inside h
  rw [size, hcells, length_overwritten hin]

/-- What was written, behind what was in front of it. -/
theorem take_write (h : b.write offset data = some b') :
    b'.cells.take (offset + data.length) = b.cells.take offset ++ data := by
  obtain ⟨hin, hcells⟩ := write_inside h
  have hfront : (b.cells.take offset ++ data).length = offset + data.length := by
    rw [List.length_append, List.length_take]
    unfold size at hin
    omega
  rw [hcells, overwritten, ← hfront, List.take_left]

theorem take_write_front (h : b.write offset data = some b') {n : Nat} (hn : n ≤ offset) :
    b'.cells.take n = b.cells.take n := by
  have hfront := congrArg (List.take n) (take_write h)
  obtain ⟨hin, -⟩ := write_inside h
  rw [List.take_take, Nat.min_eq_left (by omega)] at hfront
  rw [hfront, List.take_append_of_le_length, List.take_take, Nat.min_eq_left hn]
  rw [List.length_take]
  unfold size at hin
  omega

/-- A single cell that was written. -/
theorem getElem?_write {x : α} (h : b.write offset [x] = some b') : b'.cells[offset]? = some x := by
  obtain ⟨hin, hcells⟩ := write_inside h
  rw [List.length_singleton] at hin
  have hfront : (b.cells.take offset).length = offset := by
    rw [List.length_take]
    unfold size at hin
    omega
  rw [hcells, overwritten, List.append_assoc, List.getElem?_append_right (Nat.le_of_eq hfront),
    hfront, Nat.sub_self]
  rfl

/-- Cells that are written with a last one behind them. -/
theorem exists_write_end (b : Block α limit) (offset : Nat) (data : List α) (x : α)
    (h : offset + data.length + 1 ≤ b.size) :
    ∃ b₁ b₂, b.write offset data = some b₁ ∧ b₁.write (offset + data.length) [x] = some b₂ ∧
      b₂.size = b.size ∧ b₂.cells.take (offset + data.length) = b.cells.take offset ++ data ∧
      b₂.cells[offset + data.length]? = some x := by
  obtain ⟨b₁, h₁⟩ := exists_write b offset data (by omega)
  have hsize := size_write h₁
  obtain ⟨b₂, h₂⟩ := exists_write b₁ (offset + data.length) [x] (by
    rw [List.length_singleton, hsize]
    exact h)
  refine ⟨b₁, b₂, h₁, h₂, (size_write h₂).trans hsize, ?_, getElem?_write h₂⟩
  rw [take_write_front h₂ (Nat.le_refl _), take_write h₁]

end Block

/-! ## Allocators -/

/-- What gives blocks: a request is served with a block of its size, or refused. -/
structure Allocator (α : Type*) (limit : Nat) where
  serve : Nat → Option (Block α limit)
  size_eq : ∀ n b, serve n = some b → b.size = n

namespace Allocator

variable {α : Type*} {limit : Nat}

theorem le_limit {heap : Allocator α limit} {n : Nat} {b : Block α limit}
    (h : heap.serve n = some b) : n ≤ limit := heap.size_eq n b h ▸ b.fits

/-- The cells that a block of a size keeps of another, in front of its own. -/
def moved (old : Option (Block α limit)) (new : Block α limit) : Block α limit :=
  let kept := ((old.map Block.cells).getD []).take new.size
  ⟨kept ++ new.cells.drop kept.length, by
    have hfits := new.fits
    have hkept : kept.length ≤ new.size := List.length_take_le _ _
    rw [List.length_append, List.length_drop]
    unfold Block.size at hkept
    omega⟩

/-- A block in the place of another one, or of none. -/
def reallocate (heap : Allocator α limit) (old : Option (Block α limit)) (n : Nat) :
    Option (Block α limit) :=
  (heap.serve n).map (moved old)

variable {heap : Allocator α limit} {old : Option (Block α limit)} {n : Nat} {b : Block α limit}

theorem size_reallocate (h : heap.reallocate old n = some b) : b.size = n := by
  obtain ⟨new, hnew, rfl⟩ := Option.map_eq_some_iff.1 h
  have hsize := heap.size_eq n new hnew
  have hkept : (((old.map Block.cells).getD []).take new.size).length ≤ new.size :=
    List.length_take_le _ _
  rw [Block.size, moved, List.length_append, List.length_drop]
  unfold Block.size at *
  omega

/-- As much as fits is kept. -/
theorem take_reallocate (h : heap.reallocate old n = some b) {k : Nat} (hk : k ≤ n)
    (hold : k ≤ ((old.map Block.cells).getD []).length) :
    b.cells.take k = ((old.map Block.cells).getD []).take k := by
  obtain ⟨new, hnew, rfl⟩ := Option.map_eq_some_iff.1 h
  have hsize := heap.size_eq n new hnew
  rw [moved, List.take_append_of_le_length, List.take_take, Nat.min_eq_left (by omega)]
  rw [List.length_take]
  omega

end Allocator

end Logic
