/-
# Copies of a string

`copy(dest, len)` of `nbiot::string` writes at most `len` bytes of the string to the
destination and a zero behind them. The zero is not counted by `len`, so a string
of that length or longer is copied to one byte more.
-/

import LibNbiot.Modem.Strings

namespace LibNbiot

/-- A byte that is written to an offset of some memory. -/
structure Store where
  offset : Nat
  value : UInt8
  deriving DecidableEq, Repr

/-- The loop of `copy` over what is left of the string, and the zero behind it. -/
def copyLoop (len : Nat) : Nat → Bytes → List Store × Nat
  | i, [] => ([⟨i, 0⟩], i)
  | i, c :: rest =>
      if i < len then
        let (stores, count) := copyLoop len (i + 1) rest
        (⟨i, c⟩ :: stores, count)
      else ([⟨i, 0⟩], i)

/-- `copy(dest, len)`: what is written to the destination, and the number of bytes. -/
def copy (s : Bytes) (len : Nat) : List Store × Nat :=
  if 0 < len then copyLoop len 0 s else ([], 0)

/-- The end of a read: what has been obtained is copied to the buffer of the caller, if
anything was counted. -/
def copyOut (rc : Int) (data : Bytes) : List Store × Nat :=
  if 0 < rc then copy data rc.toNat else ([], 0)

/-- Nothing is written behind the first bytes of the destination. -/
def Inside (bound : Nat) (stores : List Store) : Prop := ∀ st ∈ stores, st.offset < bound

instance (bound : Nat) (stores : List Store) : Decidable (Inside bound stores) :=
  inferInstanceAs (Decidable (∀ st ∈ stores, st.offset < bound))

/-- An array after some stores. -/
def stored {n : Nat} (dest : Vector UInt8 n) (stores : List Store) : Vector UInt8 n :=
  stores.foldl (fun dest st => dest.setIfInBounds st.offset st.value) dest

/-! ## How far a copy goes -/

theorem copyLoop_inside_iff {len i bound : Nat} {s : Bytes} (hi : i ≤ len) :
    Inside bound (copyLoop len i s).1 ↔ i + min (len - i) s.length < bound := by
  induction s generalizing i with
  | nil => simp [copyLoop, Inside]
  | cons c s ih =>
    rw [copyLoop, List.length_cons]
    split
    · rename_i hlt
      have hrest := ih (i := i + 1) hlt
      have hcons : Inside bound (⟨i, c⟩ :: (copyLoop len (i + 1) s).1) ↔
          i < bound ∧ Inside bound (copyLoop len (i + 1) s).1 := List.forall_mem_cons
      rw [hcons, hrest]
      omega
    · have hend : min (len - i) (s.length + 1) = 0 := by omega
      rw [hend]
      simp [Inside]

/-- The zero is the last that is written. -/
theorem copy_inside_iff (s : Bytes) (len bound : Nat) :
    Inside bound (copy s len).1 ↔ len = 0 ∨ min len s.length < bound := by
  rw [copy]
  split
  · rename_i hpos
    rw [copyLoop_inside_iff (Nat.zero_le len), Nat.zero_add, Nat.sub_zero]
    exact (or_iff_right (Nat.pos_iff_ne_zero.1 hpos)).symm
  · rename_i hpos
    have hzero : len = 0 := by omega
    simp [Inside, hzero]

/-- So much can be handed over to a buffer of some length. -/
theorem copyOut_inside_iff (rc : Int) (data : Bytes) (bound : Nat) :
    Inside bound (copyOut rc data).1 ↔ rc ≤ 0 ∨ min rc.toNat data.length < bound := by
  rw [copyOut]
  split
  · rename_i hpos
    rw [copy_inside_iff]
    have hsome : ¬rc.toNat = 0 := by omega
    have hcount : ¬rc ≤ 0 := by omega
    rw [or_iff_right hsome, or_iff_right hcount]
  · rename_i hnone
    have hzero : rc ≤ 0 := by omega
    simp [Inside, hzero]

/-- A string can be handed over to a buffer that is longer. -/
theorem copyOut_length_inside_iff (data : Bytes) {bound : Nat} (hbound : 1 ≤ bound) :
    Inside bound (copyOut data.length data).1 ↔ data.length < bound := by
  rw [copyOut_inside_iff, Int.toNat_natCast, Nat.min_self]
  omega

theorem copyLoop_count {len i : Nat} {s : Bytes} (hi : i ≤ len) :
    (copyLoop len i s).2 = i + min (len - i) s.length := by
  induction s generalizing i with
  | nil => simp [copyLoop]
  | cons c s ih =>
    rw [copyLoop, List.length_cons]
    split
    · rename_i hlt
      have hrest := ih (i := i + 1) hlt
      dsimp only
      omega
    · dsimp only
      omega

/-- As many bytes are handed over as are counted and there. -/
theorem copyOut_count (rc : Int) (data : Bytes) :
    (copyOut rc data).2 = min rc.toNat data.length := by
  rw [copyOut]
  split
  · rename_i hpos
    have hlen : 0 < rc.toNat := by omega
    rw [copy, if_pos hlen, copyLoop_count (Nat.zero_le _), Nat.sub_zero, Nat.zero_add]
  · rename_i hnone
    have hzero : rc.toNat = 0 := by omega
    rw [hzero, Nat.zero_min]

/-! ## What is found in the destination -/

theorem foldl_set_copyLoop {len i : Nat} {s dest : Bytes} (hi : i ≤ len)
    (hroom : i + min (len - i) s.length < dest.length) :
    (copyLoop len i s).1.foldl (fun dest st => dest.set st.offset st.value) dest =
      dest.take i ++ s.take (len - i) ++ 0 :: dest.drop (i + min (len - i) s.length + 1) := by
  have hset {dest : Bytes} {i : Nat} (hi : i < dest.length) (c : UInt8) :
      dest.set i c = dest.take i ++ c :: dest.drop (i + 1) := by
    rw [List.set_eq_take_append_cons_drop, if_pos hi]
  induction s generalizing i dest with
  | nil =>
    have hlt : i < dest.length := by omega
    simp [copyLoop, hset hlt]
  | cons c s ih =>
    rw [List.length_cons] at hroom ⊢
    rw [copyLoop]
    split
    · rename_i hlt
      have hinside : i < dest.length := by omega
      have hnext := @ih (i + 1) (dest.set i c) hlt (by rw [List.length_set]; omega)
      have hfront : (dest.set i c).take (i + 1) = dest.take i ++ [c] := by
        rw [hset hinside, List.take_append, List.length_take]
        have hone : i + 1 - min i dest.length = 1 := by omega
        rw [hone, List.take_take]
        simp
      have hbehind : i + 1 + min (len - (i + 1)) s.length + 1 =
          i + min (len - i) (s.length + 1) + 1 := by omega
      have hmore : len - i = len - (i + 1) + 1 := by omega
      rw [hfront, hbehind, List.drop_set_of_lt (by omega)] at hnext
      rw [List.foldl_cons, hnext, hmore, List.take_succ_cons]
      simp
    · have hend : len - i = 0 := by omega
      have hlt : i < dest.length := by omega
      simp [hend, hset hlt]

/-- The string in an array that has room for it and the zero. -/
theorem cString_stored {n : Nat} (dest : Vector UInt8 n) {s : Bytes} {len : Nat}
    (hs : ∀ c ∈ s, c ≠ 0) (hlen : 0 < len) (hroom : len < n) :
    cString (stored dest (copy s len).1).toList = s.take len := by
  have hfold (stores : List Store) : (stored dest stores).toList =
      stores.foldl (fun dest st => dest.set st.offset st.value) dest.toList := by
    unfold stored
    induction stores generalizing dest with
    | nil => rfl
    | cons st stores ih =>
      rw [List.foldl_cons, List.foldl_cons, ih, Vector.toList_setIfInBounds]
  have hsize : 0 + min (len - 0) s.length < dest.toList.length := by
    rw [Vector.length_toList]
    omega
  have hwhole : ∀ c ∈ s.take len, decide (c ≠ 0) = true :=
    fun c hc => decide_eq_true (hs c (List.mem_of_mem_take hc))
  rw [hfold, copy, if_pos hlen, foldl_set_copyLoop (Nat.zero_le _) hsize, List.take_zero,
    List.nil_append, Nat.sub_zero, cString, List.takeWhile_append_of_pos hwhole]
  simp

end LibNbiot
