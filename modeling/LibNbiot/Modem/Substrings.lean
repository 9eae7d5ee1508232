/-
# Parts of a string

`substr` cuts the length to what is there if the sum of position and length is
beyond the end. The sum wraps around, and a length that is not cut goes to the
constructor, for which `npos` means a C string: the rest of a string is then what
stands in front of its next zero. A larger length than the machine has memory for
ends in a null object.
-/

import LibNbiot.Modem.StringMemory
import LibNbiot.Modem.NbiotString

namespace LibNbiot

open Logic

/-- The memory for a copy of the string is there. -/
def Heap.Serves (heap : Heap) (s : StringObject) : Prop := ∀ n ≤ s.sz + 1, (heap.serve n).isSome

namespace StringObject

/-- `substr(pos, len)`. -/
def substr (heap : Heap) (s : StringObject) (pos len : Nat) : Option Left :=
  if s.sz ≤ pos then new heap
  else
    let len := if s.sz < sizeT (pos + len) then s.sz - pos else len
    dup heap {} (s.memory.map (List.drop pos)) len

/-- What `substr` makes of a text; `none` where it asks for more than a machine has. -/
def substrText (text : Bytes) (pos len : Nat) : Option Bytes :=
  if text.length ≤ pos then some []
  else if pos + len < sizeMod then some ((text.drop pos).take len)
  else if len = npos then some (cString (text.drop pos))
  else none

variable {heap : Heap} {s : StringObject} {pos len : Nat}

theorem cString_append_zero (text rest : Bytes) : cString (text ++ 0 :: rest) = cString text := by
  induction text with
  | nil => rfl
  | cons c text ih =>
    unfold cString at ih ⊢
    rw [List.cons_append, List.takeWhile_cons, List.takeWhile_cons, ih]

/-- The memory from a position on is the text from there on, a zero, and more. -/
theorem WellFormed.exists_drop (h : s.WellFormed) (hpos : pos < s.sz) :
    ∃ memory rest, s.memory = some memory ∧ memory.length ≤ maxObject ∧
      memory.drop pos = s.bytes.drop pos ++ 0 :: rest := by
  cases hdata : s.data with
  | none =>
    rw [(h.null hdata).1] at hpos
    exact absurd hpos (Nat.not_lt_zero _)
  | some block =>
    have hlt := h.sz_lt block hdata
    have hle := h.memSize_le block hdata
    have hzero := h.zero block hdata
    have hbytes := bytes_of_data hdata
    unfold Block.size at hle
    have hsplit : block.cells = s.bytes ++ 0 :: block.cells.drop (s.sz + 1) := by
      have hin : s.sz < block.cells.length := by omega
      rw [List.getElem?_eq_getElem hin, Option.some.injEq] at hzero
      rw [hbytes, ← hzero, ← List.drop_eq_getElem_cons hin, List.take_append_drop]
    refine ⟨block.cells, block.cells.drop (s.sz + 1), by rw [memory, hdata]; rfl, block.fits, ?_⟩
    have hlen := h.length_bytes
    calc block.cells.drop pos = (s.bytes ++ 0 :: block.cells.drop (s.sz + 1)).drop pos := by
          rw [← hsplit]
      _ = s.bytes.drop pos ++ 0 :: block.cells.drop (s.sz + 1) :=
          List.drop_append_of_le_length (by omega)

theorem new_served (h : (heap.serve 1).isSome) :
    ∃ object, new heap = some ⟨object, true⟩ ∧ object.WellFormed ∧ object.bytes = [] := by
  obtain ⟨left, hnew, hwell, hbytes⟩ := new_leaves heap
  obtain ⟨block, hblock⟩ := Option.isSome_iff_exists.1 h
  have hserved : left.served = true := by
    unfold new at hnew
    rw [hblock] at hnew
    obtain ⟨b, -, hleft⟩ := Option.bind_eq_some_iff.1 hnew
    rw [← Option.some.inj hleft]
  obtain ⟨object, served⟩ := left
  subst hserved
  exact ⟨object, hnew, hwell, hbytes rfl⟩

/-- A part that ends inside the string, or is cut to end with it. -/
theorem substr_cut (h : s.WellFormed) (hserves : heap.Serves s) (hpos : pos < s.sz)
    (hsum : pos + len < sizeMod) :
    ∃ object, s.substr heap pos len = some ⟨object, true⟩ ∧ object.WellFormed ∧
      object.bytes = (s.bytes.drop pos).take len := by
  obtain ⟨memory, rest, hmemory, hbound, hdrop⟩ := h.exists_drop hpos
  have hlen := h.length_bytes
  have hsmall := h.sz_lt_npos
  have hrest : (s.bytes.drop pos).length = s.sz - pos := by rw [List.length_drop, hlen]
  have hcut : (if s.sz < sizeT (pos + len) then s.sz - pos else len) = min len (s.sz - pos) := by
    rw [sizeT_of_lt hsum]
    split <;> omega
  have hnpos : min len (s.sz - pos) ≠ npos := by omega
  have hmem : (memory.drop pos).length ≤ maxObject :=
    (List.drop_sublist pos memory).length_le.trans hbound
  have hroom : min len (s.sz - pos) ≤ (memory.drop pos).length := by
    rw [hdrop, List.length_append, hrest]
    omega
  let t : Text (min len (s.sz - pos)) := ⟨memory.drop pos, hmem, by rw [if_neg hnpos]; exact hroom⟩
  have htext : t.bytes = (s.bytes.drop pos).take len := by
    rw [Text.bytes, if_neg hnpos]
    change (memory.drop pos).take _ = _
    rw [hdrop, List.take_append_of_le_length (by omega), ← List.take_take, ← hrest,
      List.take_length]
  have htextlen : t.bytes.length ≤ s.sz := by
    rw [htext, List.length_take]
    omega
  obtain ⟨object, hdup, hwell, hbytes⟩ :=
    dup_served heap {} t (hserves _ (by omega))
  refine ⟨object, ?_, hwell, hbytes.trans htext⟩
  rw [substr, if_neg (by omega)]
  simp only [hcut, hmemory, Option.map_some]
  exact hdup

/-- A length of `npos` that is not cut. -/
theorem substr_rest (pos : Nat) (h : s.WellFormed) (hserves : heap.Serves s) (hpos : pos < s.sz)
    (hsum : sizeMod ≤ pos + npos) :
    ∃ object, s.substr heap pos npos = some ⟨object, true⟩ ∧ object.WellFormed ∧
      object.bytes = cString (s.bytes.drop pos) := by
  obtain ⟨memory, rest, hmemory, hbound, hdrop⟩ := h.exists_drop hpos
  have hlen := h.length_bytes
  have hsmall := h.sz_lt_npos
  have hkept : (if s.sz < sizeT (pos + npos) then s.sz - pos else npos) = npos := by
    rw [if_neg]
    unfold sizeT npos sizeMod at *
    omega
  have hmem : (memory.drop pos).length ≤ maxObject :=
    (List.drop_sublist pos memory).length_le.trans hbound
  let t : Text npos := ⟨memory.drop pos, hmem, by
    rw [if_pos rfl, hdrop]
    exact List.mem_append_right _ List.mem_cons_self⟩
  have htext : t.bytes = cString (s.bytes.drop pos) := by
    rw [Text.bytes, if_pos rfl]
    change cString (memory.drop pos) = _
    rw [hdrop, cString_append_zero]
  have htextlen : t.bytes.length ≤ s.sz := by
    rw [htext, ← hlen]
    refine (List.takeWhile_prefix _).length_le.trans ?_
    exact (List.drop_sublist pos s.bytes).length_le
  obtain ⟨object, hdup, hwell, hbytes⟩ :=
    dup_served heap {} t (hserves _ (by omega))
  refine ⟨object, ?_, hwell, hbytes.trans htext⟩
  rw [substr, if_neg (by omega)]
  simp only [hkept, hmemory, Option.map_some]
  exact hdup

/-- Any other length that is not cut is beyond all memory. -/
theorem substr_refused (h : s.WellFormed) (hpos : pos < s.sz) (hsum : sizeMod ≤ pos + len)
    (hlen : len < npos) : s.substr heap pos len = some ⟨{}, false⟩ := by
  have hsmall := h.sz_lt_maxObject
  unfold maxObject at hsmall
  have hkept : (if s.sz < sizeT (pos + len) then s.sz - pos else len) = len := by
    rw [if_neg]
    unfold npos at hlen
    unfold sizeT sizeMod at *
    omega
  have hone : sizeT (len + 1) = len + 1 := by
    unfold npos at hlen
    exact sizeT_of_lt (by omega)
  have hnone : heap.serve (sizeT (len + 1)) = none := by
    rw [hone]
    cases hserve : heap.serve (len + 1) with
    | none => rfl
    | some block =>
      have hlimit := Allocator.le_limit hserve
      unfold maxObject at hlimit
      unfold sizeMod at hsum
      omega
  rw [substr, if_neg (by omega)]
  simp only [hkept]
  exact dup_refused wellFormed_null (if_neg (by omega)) hnone

/-- What the object that `substr` leaves says, for all positions and lengths. -/
theorem substr_bytes (pos : Nat) (h : s.WellFormed) (hserves : heap.Serves s) (hlen : len ≤ npos) :
    ∃ left, s.substr heap pos len = some left ∧ left.object.WellFormed ∧
      left.object.bytes = (substrText s.bytes pos len).getD [] := by
  unfold substrText
  rw [h.length_bytes]
  by_cases hpos : s.sz ≤ pos
  · rw [if_pos hpos, substr, if_pos hpos]
    obtain ⟨object, hnew, hwell, hbytes⟩ := new_served (hserves 1 (by omega))
    exact ⟨_, hnew, hwell, hbytes⟩
  · rw [if_neg hpos]
    by_cases hsum : pos + len < sizeMod
    · rw [if_pos hsum]
      obtain ⟨object, hsub, hwell, hbytes⟩ := substr_cut h hserves (by omega) hsum
      exact ⟨_, hsub, hwell, hbytes⟩
    · rw [if_neg hsum]
      by_cases hall : len = npos
      · subst hall
        rw [if_pos rfl]
        obtain ⟨object, hsub, hwell, hbytes⟩ := substr_rest pos h hserves (by omega) (not_lt.1 hsum)
        exact ⟨_, hsub, hwell, hbytes⟩
      · rw [if_neg hall]
        exact ⟨_, substr_refused h (by omega) (not_lt.1 hsum) (by omega), wellFormed_null, rfl⟩

/-! ## Parts as they are meant -/

/-- The sum of position and length does not wrap around, or it is the rest of the
string that is asked for and there is no zero in it. -/
def Reaches (text : Bytes) (pos len : Nat) : Prop :=
  text.length ≤ pos ∨ pos + len < sizeMod ∨ len = npos ∧ ∀ c ∈ text.drop pos, c ≠ 0

theorem substrText_iff {text : Bytes} (hfits : text.length < npos) :
    (substrText text pos len).getD [] = (text.drop pos).take len ↔ Reaches text pos len := by
  unfold substrText Reaches
  by_cases hpos : text.length ≤ pos
  · rw [if_pos hpos, List.drop_eq_nil_of_le hpos, List.take_nil]
    exact iff_of_true rfl (.inl hpos)
  · rw [if_neg hpos]
    by_cases hsum : pos + len < sizeMod
    · rw [if_pos hsum]
      exact iff_of_true rfl (.inr (.inl hsum))
    · rw [if_neg hsum]
      by_cases hall : len = npos
      · subst hall
        have hwhole : (text.drop pos).take npos = text.drop pos := by
          refine List.take_of_length_le ?_
          rw [List.length_drop]
          omega
        rw [if_pos rfl, hwhole, Option.getD_some, cString, List.takeWhile_eq_self_iff]
        simp only [decide_eq_true_eq, hpos, hsum, true_and, false_or]
      · rw [if_neg hall]
        have hne : (text.drop pos).take len ≠ [] := by
          refine List.ne_nil_of_length_pos ?_
          rw [List.length_take, List.length_drop]
          unfold npos at hfits
          omega
        refine iff_of_false (fun h => hne h.symm) ?_
        simp only [hpos, hsum, hall, false_and, or_self, not_false_eq_true]

/-- **`substr` is take and drop** just when its sum does not wrap around, or what it
leaves to the constructor is the rest of the string without a zero in it. -/
theorem substr_iff (heap : Heap) (s : StringObject) (h : s.WellFormed) (hserves : heap.Serves s)
    (pos len : Nat) (hlen : len ≤ npos) :
    (∃ left, s.substr heap pos len = some left ∧
      left.object.bytes = (s.bytes.drop pos).take len) ↔ Reaches s.bytes pos len := by
  have hfits : s.bytes.length < npos := h.length_bytes.symm ▸ h.sz_lt_npos
  obtain ⟨left, hsub, -, hbytes⟩ := substr_bytes pos h hserves hlen
  rw [← substrText_iff hfits, ← hbytes]
  constructor
  · rintro ⟨left', hsub', hbytes'⟩
    rw [hsub] at hsub'
    rw [Option.some.inj hsub', hbytes']
  · intro heq
    exact ⟨left, hsub, heq⟩

/-- A machine that has a block for every object that is not too large. -/
def amplHeap : Heap where
  serve n :=
    if h : n ≤ maxObject then some ⟨List.replicate n 0, by rwa [List.length_replicate]⟩
    else none
  size_eq n b h := by
    split at h
    · rw [← Option.some.inj h]
      exact List.length_replicate
    · cases h

theorem amplHeap_serves {s : StringObject} (h : s.WellFormed) : amplHeap.Serves s := by
  intro n hn
  have hsmall := h.sz_lt_maxObject
  simp only [amplHeap]
  rw [dif_pos (by omega)]
  rfl

/-- A string of three bytes with a zero in its middle. -/
def zeroInside : StringObject where
  data := some ⟨[97, 0, 98, 0], by decide⟩
  sz := 3
  memSize := 4

theorem zeroInside_wellFormed : zeroInside.WellFormed :=
  wellFormed_block (by decide) (by decide) (by decide)

/-- The last byte of the string. -/
theorem substr_last : (∃ left, zeroInside.substr amplHeap 2 1 = some left ∧
    left.object.bytes = (zeroInside.bytes.drop 2).take 1) ↔ Reaches zeroInside.bytes 2 1 :=
  substr_iff amplHeap zeroInside zeroInside_wellFormed (amplHeap_serves zeroInside_wellFormed) 2 1
    (by decide)

/-- What is left of the string from its zero on is lost. -/
theorem not_substr_zeroInside : ¬ ∀ (heap : Heap) (s : StringObject), s.WellFormed →
    heap.Serves s → ∀ pos len, len ≤ npos → ∃ left, s.substr heap pos len = some left ∧
      left.object.bytes = (s.bytes.drop pos).take len := by
  intro h
  have hwhole := h amplHeap zeroInside zeroInside_wellFormed (amplHeap_serves zeroInside_wellFormed)
    1 npos le_rfl
  obtain ⟨left, hsub, hbytes⟩ := hwhole
  obtain ⟨object, hrest, -, hcut⟩ := substr_rest 1 zeroInside_wellFormed
    (amplHeap_serves zeroInside_wellFormed) (by decide) (by decide)
  rw [hsub] at hrest
  rw [Option.some.inj hrest, hcut] at hbytes
  exact absurd (congrArg List.length hbytes) (by decide)

end StringObject

/-- The strings of the parsers have the same parts. -/
theorem NbiotString.substr_eq_substrText (s : NbiotString) {pos len : Nat} (hpos : pos < sizeMod)
    (hlen : len ≤ npos) : s.substr pos len = StringObject.substrText s.data pos len := by
  have hfits := s.size_lt_npos
  have hsize : s.data.length = s.size := rfl
  unfold NbiotString.substr StringObject.substrText
  rw [hsize]
  by_cases hend : s.size ≤ pos
  · rw [if_pos hend, if_pos hend]
  · rw [if_neg hend, if_neg hend]
    by_cases hsum : pos + len < sizeMod
    · rw [if_pos hsum, Nat.mod_eq_of_lt hsum]
      by_cases hcut : s.size < pos + len
      · have hwhole : (s.data.drop pos).take len = (s.data.drop pos).take (s.size - pos) := by
          rw [List.take_of_length_le, List.take_of_length_le]
          · rw [List.length_drop, NbiotString.size]
          · rw [List.length_drop]
            unfold NbiotString.size at hcut
            omega
        simp only [if_pos hcut]
        rw [construct, if_neg (by omega), if_pos (by omega), hwhole]
      · simp only [if_neg hcut]
        rw [construct, if_neg (by omega), if_pos (by omega)]
    · have hkept : ¬s.size < (pos + len) % sizeMod := by
        simp only [npos, sizeMod] at *
        omega
      rw [if_neg hsum]
      simp only [if_neg hkept]
      unfold construct
      split
      · rfl
      · refine if_neg ?_
        unfold npos at hfits
        omega

end LibNbiot
