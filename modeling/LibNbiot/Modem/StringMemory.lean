/-
# The memory of a string

A `nbiot::string` owns a block of memory, knows how many of its bytes are the
text, and how many it may use. Its functions follow three ways of keeping the two
counts: a copy starts over with a block that fits, a byte at the end always asks
for a new block, and a text at the end asks for one only if the present block is
too short; a byte that is taken from the front leaves the block as it is. An access
outside a block has no result, and a request for memory may be refused.
-/

import LibNbiot.Modem.Strings
import LibNbiot.Logic.Block

namespace LibNbiot

open Logic

/-- No object is larger than `PTRDIFF_MAX`. -/
def maxObject : Nat := 2 ^ 63 - 1

/-- A sum of type `size_t`. -/
def sizeT (n : Nat) : Nat := n % sizeMod

/-- What `malloc` and `realloc` give. -/
abbrev Heap := Allocator UInt8 maxObject

/-- `nbiot::string`: a null pointer is `none`. -/
structure StringObject where
  data : Option (Block UInt8 maxObject) := none
  sz : Nat := 0
  memSize : Nat := 0

/-- What an operation leaves, and whether the memory it asked for was there. -/
structure Left where
  object : StringObject
  served : Bool

/-- `strlen` of the memory behind a pointer. -/
def strlen (memory : Bytes) : Option Nat :=
  if 0 ∈ memory then some (cString memory).length else none

/-- The first bytes of the memory behind a pointer. -/
def readMemory (memory : Bytes) (len : Nat) : Option Bytes :=
  if len ≤ memory.length then some (memory.take len) else none

/-- The length of an argument: `npos` stands for that of a C string. -/
def lengthOf (str : Option Bytes) (len : Nat) : Option Nat :=
  if len = npos then
    match str with
    | some memory => strlen memory
    | none => some 0
  else some len

namespace StringObject

/-- `string()`. -/
def new (heap : Heap) : Option Left := do
  match heap.serve 1 with
  | some block =>
      let block ← block.write 0 [0]
      return ⟨{ data := some block, sz := 0, memSize := 1 }, true⟩
  | none => return ⟨{}, false⟩

def clear (s : StringObject) : StringObject := if s.data.isSome then {} else s

/-- `dup(str, len)`, on a string that does not own the memory behind `str`. -/
def dup (heap : Heap) (s : StringObject) (str : Option Bytes) (len : Nat) : Option Left := do
  let s := s.clear
  let len ← lengthOf str len
  match heap.serve (sizeT (len + 1)) with
  | some block =>
      match str with
      | some memory =>
          let bytes ← readMemory memory len
          let block ← block.write 0 bytes
          let block ← block.write len [0]
          return ⟨{ data := some block, sz := len, memSize := sizeT (len + 1) }, true⟩
      | none =>
          let block ← block.write 0 (List.replicate (sizeT (len + 1)) 0)
          return ⟨{ data := some block, sz := 0, memSize := sizeT (len + 1) }, true⟩
  | none => return ⟨{ s with data := none }, false⟩

/-- `push_back(c)`. -/
def pushBack (heap : Heap) (s : StringObject) (c : UInt8) : Option Left := do
  let newSize := sizeT (sizeT (s.sz + 1) + 1)
  match heap.reallocate s.data newSize with
  | some tmp =>
      let tmp ← tmp.write s.sz [c]
      let tmp ← tmp.write (sizeT (s.sz + 1)) [0]
      return ⟨{ data := some tmp, sz := sizeT (s.sz + 1), memSize := newSize }, true⟩
  | none => return ⟨s, false⟩

/-- `take_front()`. -/
def takeFront (s : StringObject) : Option (UInt8 × StringObject) := do
  if 0 < s.sz then
    let block ← s.data
    let ret ← block.cells[0]?
    let sz := s.sz - 1
    if sz = 0 then return (ret, { s with sz := sz }.clear)
    else
      let rest ← block.read 1 sz
      let block ← block.write 0 rest
      let block ← block.write sz [0]
      return (ret, { s with data := some block, sz := sz })
  else return (0, s)

/-- What `append` does with the memory it has got. -/
def fill (s : StringObject) (tmp : Block UInt8 maxObject) (str : Option Bytes) (len memIncr : Nat) :
    Option StringObject := do
  match str with
  | some memory =>
      let bytes ← readMemory memory len
      let tmp ← tmp.write s.sz bytes
      let tmp ← tmp.write (sizeT (s.sz + len)) [0]
      return { data := some tmp, sz := sizeT (s.sz + len), memSize := sizeT (s.memSize + memIncr) }
  | none =>
      let tmp ← tmp.write s.sz (List.replicate len 0)
      return { s with data := some tmp, memSize := sizeT (s.memSize + memIncr) }

/-- `append(str, len)`. -/
def append (heap : Heap) (s : StringObject) (str : Option Bytes) (len : Nat) : Option Left := do
  let len ← lengthOf str len
  if len = 0 then return ⟨s, true⟩
  else
    let needed := sizeT (s.sz + len + 1)
    if s.memSize < needed then
      match heap.reallocate s.data needed with
      | some tmp => return ⟨← s.fill tmp str len (needed - s.memSize), true⟩
      | none => return ⟨s, false⟩
    else
      match s.data with
      | some tmp => return ⟨← s.fill tmp str len 0, true⟩
      | none => return ⟨s, true⟩

/-- The memory behind the pointer of a string. -/
def memory (s : StringObject) : Option Bytes := s.data.map Block.cells

/-- `append(const string&)`. -/
def appendString (heap : Heap) (s other : StringObject) : Option Left :=
  s.append heap other.memory other.sz

/-- `operator = (const string&)`. -/
def assign (heap : Heap) (s other : StringObject) : Option Left :=
  s.dup heap other.memory other.sz

/-- `operator = (const char*)`. -/
def assignCStr (heap : Heap) (s : StringObject) (str : Option Bytes) : Option Left :=
  s.dup heap str npos

/-! ## What a string means -/

/-- `data[0..sz)`. -/
def bytes (s : StringObject) : Bytes := (s.memory.getD []).take s.sz

theorem bytes_of_data {s : StringObject} {block : Block UInt8 maxObject}
    (h : s.data = some block) : s.bytes = block.cells.take s.sz := by
  rw [bytes, memory, h]
  rfl

theorem bytes_of_null {s : StringObject} (h : s.data = none) : s.bytes = [] := by
  rw [bytes, memory, h]
  exact List.take_nil

/-- The counts and the memory of a string fit together. -/
structure WellFormed (s : StringObject) : Prop where
  null : s.data = none → s.sz = 0 ∧ s.memSize = 0
  sz_lt : ∀ block, s.data = some block → s.sz < s.memSize
  memSize_le : ∀ block, s.data = some block → s.memSize ≤ block.size
  zero : ∀ block, s.data = some block → block.cells[s.sz]? = some 0

namespace WellFormed

variable {s : StringObject}

theorem length_bytes (h : s.WellFormed) : s.bytes.length = s.sz := by
  cases hdata : s.data with
  | none =>
    rw [bytes_of_null hdata, (h.null hdata).1]
    rfl
  | some block =>
    have hlt := h.sz_lt block hdata
    have hle := h.memSize_le block hdata
    rw [bytes_of_data hdata, List.length_take]
    unfold Block.size at hle
    omega

theorem sz_lt_maxObject (h : s.WellFormed) : s.sz < maxObject := by
  cases hdata : s.data with
  | none =>
    rw [(h.null hdata).1]
    decide
  | some block =>
    exact ((h.sz_lt block hdata).trans_le (h.memSize_le block hdata)).trans_le block.fits

theorem sz_lt_npos (h : s.WellFormed) : s.sz < npos := h.sz_lt_maxObject.trans (by decide)

theorem memSize_le_maxObject (h : s.WellFormed) : s.memSize ≤ maxObject := by
  cases hdata : s.data with
  | none =>
    rw [(h.null hdata).2]
    exact Nat.zero_le _
  | some block => exact (h.memSize_le block hdata).trans block.fits

end WellFormed

theorem wellFormed_null : WellFormed {} where
  null _ := ⟨rfl, rfl⟩
  sz_lt _ h := nomatch h
  memSize_le _ h := nomatch h
  zero _ h := nomatch h

theorem wellFormed_block {block : Block UInt8 maxObject} {n mem : Nat} (hlt : n < mem)
    (hle : mem ≤ block.size) (hzero : block.cells[n]? = some 0) :
    WellFormed { data := some block, sz := n, memSize := mem } where
  null h := nomatch h
  sz_lt _ _ := hlt
  memSize_le _ h := Option.some.inj h ▸ hle
  zero _ h := Option.some.inj h ▸ hzero

theorem clear_eq {s : StringObject} (h : s.WellFormed) : s.clear = {} := by
  unfold clear
  split
  · rfl
  · rename_i hnull
    have hdata : s.data = none := by simpa using hnull
    obtain ⟨hsz, hmem⟩ := h.null hdata
    cases s
    simp only at hdata hsz hmem
    rw [hdata, hsz, hmem]

/-- The operation has a result, and it is a string whose counts fit; it is the given
text if the memory was there. -/
def Leaves (result : Option Left) (text : Bytes) : Prop :=
  ∃ left, result = some left ∧ left.object.WellFormed ∧
    (left.served = true → left.object.bytes = text)

end StringObject

/-! ## Arguments -/

/-- The memory behind a pointer that is not null, for an argument of the given
length: a C string has its zero in it, a buffer is as long. -/
structure Text (len : Nat) where
  memory : Bytes
  bounded : memory.length ≤ maxObject
  readable : if len = npos then 0 ∈ memory else len ≤ memory.length

namespace Text

variable {len : Nat}

def bytes (t : Text len) : Bytes := if len = npos then cString t.memory else t.memory.take len

theorem bytes_prefix (t : Text len) : t.bytes <+: t.memory := by
  unfold bytes
  split
  · exact List.takeWhile_prefix _
  · exact List.take_prefix _ _

theorem length_le (t : Text len) : t.bytes.length ≤ maxObject :=
  t.bytes_prefix.length_le.trans t.bounded

theorem lengthOf_eq (t : Text len) : lengthOf (some t.memory) len = some t.bytes.length := by
  have hreadable := t.readable
  unfold lengthOf bytes
  split
  · rename_i hnpos
    rw [if_pos hnpos] at hreadable
    exact if_pos hreadable
  · rename_i hlen
    rw [if_neg hlen] at hreadable
    rw [List.length_take, Nat.min_eq_left hreadable]

theorem readMemory_eq (t : Text len) : readMemory t.memory t.bytes.length = some t.bytes := by
  rw [readMemory, if_pos t.bytes_prefix.length_le, ← List.prefix_iff_eq_take.1 t.bytes_prefix]

end Text

theorem sizeT_of_lt {n : Nat} (h : n < sizeMod) : sizeT n = n := Nat.mod_eq_of_lt h

/-- The sizes of two objects, and a byte more. -/
theorem sizeT_of_le {n : Nat} (h : n ≤ maxObject + maxObject + 1) : sizeT n = n :=
  sizeT_of_lt (Nat.lt_of_le_of_lt h (by decide))

namespace StringObject

variable {heap : Heap} {s : StringObject} {len : Nat}

/-! ## The operations -/

theorem new_leaves (heap : Heap) : Leaves (new heap) [] := by
  unfold new
  cases hserve : heap.serve 1 with
  | none => exact ⟨_, rfl, wellFormed_null, fun h => Bool.noConfusion h⟩
  | some block =>
    have hsize := heap.size_eq 1 block hserve
    obtain ⟨b, hwrite⟩ := Block.exists_write block 0 [0] (by rw [hsize]; exact Nat.le_refl 1)
    have hb := (Block.size_write hwrite).trans hsize
    refine ⟨⟨{ data := some b, sz := 0, memSize := 1 }, true⟩, ?_, ?_, fun _ => rfl⟩
    · simp only [hwrite, Option.bind_eq_bind, Option.bind_some, Option.pure_def]
    · exact wellFormed_block Nat.one_pos (Nat.le_of_eq hb.symm) (Block.getElem?_write hwrite)

/-- A text is copied to a block that was served. -/
theorem dup_served (heap : Heap) (s : StringObject) (t : Text len)
    (hserve : (heap.serve (t.bytes.length + 1)).isSome) :
    ∃ object, s.dup heap (some t.memory) len = some ⟨object, true⟩ ∧ object.WellFormed ∧
      object.bytes = t.bytes := by
  obtain ⟨block, hblock⟩ := Option.isSome_iff_exists.1 hserve
  have hsize := heap.size_eq _ block hblock
  have hlen := t.length_le
  have hsum : sizeT (t.bytes.length + 1) = t.bytes.length + 1 := sizeT_of_le (by omega)
  obtain ⟨b₁, b₂, h₁, h₂, hb, htake, hzero⟩ :=
    Block.exists_write_end block 0 t.bytes 0 (by omega)
  rw [Nat.zero_add] at h₂ htake hzero
  refine ⟨{ data := some b₂, sz := t.bytes.length, memSize := t.bytes.length + 1 }, ?_, ?_, ?_⟩
  · unfold dup
    simp only [t.lengthOf_eq, Option.bind_eq_bind, Option.bind_some, hsum, hblock,
      t.readMemory_eq, h₁, h₂, Option.pure_def]
  · exact wellFormed_block (Nat.lt_succ_self _) (by omega) hzero
  · exact htake

/-- A string whose memory was refused is a null object. -/
theorem dup_refused (h : s.WellFormed) {str : Option Bytes} {n : Nat}
    (hlength : lengthOf str len = some n) (hserve : heap.serve (sizeT (n + 1)) = none) :
    s.dup heap str len = some ⟨{}, false⟩ := by
  unfold dup
  simp only [hlength, Option.bind_eq_bind, Option.bind_some, hserve, clear_eq h, Option.pure_def]

theorem dup_leaves (h : s.WellFormed) (t : Text len) :
    Leaves (s.dup heap (some t.memory) len) t.bytes := by
  cases hserve : heap.serve (t.bytes.length + 1) with
  | none =>
    have hlen := t.length_le
    have hsum : sizeT (t.bytes.length + 1) = t.bytes.length + 1 := sizeT_of_le (by omega)
    exact ⟨_, dup_refused h t.lengthOf_eq (by rw [hsum]; exact hserve), wellFormed_null,
      fun h => Bool.noConfusion h⟩
  | some block =>
    obtain ⟨object, hdup, hwell, hbytes⟩ := dup_served heap s t (by rw [hserve]; rfl)
    exact ⟨⟨object, true⟩, hdup, hwell, fun _ => hbytes⟩

theorem dup_null_leaves (h : s.WellFormed) (hlen : len ≤ npos) :
    Leaves (s.dup heap none len) [] := by
  have hlength : ∃ n, lengthOf none len = some n ∧ n < npos := by
    unfold lengthOf
    split
    · exact ⟨0, rfl, by decide⟩
    · exact ⟨len, rfl, by omega⟩
  obtain ⟨n, hn, hlt⟩ := hlength
  have hsum : sizeT (n + 1) = n + 1 := by
    unfold npos at hlt
    exact sizeT_of_lt (by omega)
  unfold dup
  simp only [hn, Option.bind_eq_bind, Option.bind_some, hsum, clear_eq h]
  cases hserve : heap.serve (n + 1) with
  | none => exact ⟨_, rfl, wellFormed_null, fun h => Bool.noConfusion h⟩
  | some block =>
    have hsize := heap.size_eq _ block hserve
    have hrep : (List.replicate (n + 1) (0 : UInt8)).length = n + 1 := List.length_replicate
    obtain ⟨b, hwrite⟩ := Block.exists_write block 0 (List.replicate (n + 1) 0) (by omega)
    have hb := (Block.size_write hwrite).trans hsize
    have htake := Block.take_write hwrite
    rw [Nat.zero_add, hrep, List.take_zero, List.nil_append] at htake
    have hzero : b.cells[0]? = some 0 := by
      have hfirst : (b.cells.take (n + 1))[0]? = b.cells[0]? := by
        rw [List.getElem?_take, if_pos (Nat.succ_pos n)]
      rw [← hfirst, htake]
      rfl
    refine ⟨⟨{ data := some b, sz := 0, memSize := n + 1 }, true⟩, ?_, ?_, fun _ => rfl⟩
    · simp only [hwrite, Option.bind_some, Option.pure_def]
    · exact wellFormed_block (Nat.succ_pos n) (Nat.le_of_eq hb.symm) hzero

/-- The memory of another string, as an argument of the length of its text. -/
theorem WellFormed.exists_text (h : s.WellFormed) {block : Block UInt8 maxObject}
    (hdata : s.data = some block) :
    ∃ t : Text s.sz, t.memory = block.cells ∧ t.bytes = s.bytes := by
  have hnpos : s.sz ≠ npos := h.sz_lt_npos.ne
  have hle : s.sz ≤ block.cells.length :=
    ((h.sz_lt block hdata).le.trans (h.memSize_le block hdata))
  refine ⟨⟨block.cells, block.fits, by rw [if_neg hnpos]; exact hle⟩, rfl, ?_⟩
  rw [Text.bytes, if_neg hnpos, bytes_of_data hdata]

theorem assign_leaves (h : s.WellFormed) {other : StringObject} (hother : other.WellFormed) :
    Leaves (s.assign heap other) other.bytes := by
  unfold assign
  cases hdata : other.data with
  | none =>
    rw [memory, hdata, bytes_of_null hdata, (hother.null hdata).1]
    exact dup_null_leaves h (Nat.zero_le _)
  | some block =>
    obtain ⟨t, hmemory, hbytes⟩ := hother.exists_text hdata
    rw [memory, hdata, Option.map_some, ← hmemory, ← hbytes]
    exact dup_leaves h t

/-- The text of a string is at the beginning of its block, which is long enough to
be moved. -/
theorem WellFormed.take_reallocate (h : s.WellFormed) {n : Nat} {b : Block UInt8 maxObject}
    (hserve : heap.reallocate s.data n = some b) (hn : s.sz ≤ n) : b.cells.take s.sz = s.bytes := by
  refine Allocator.take_reallocate hserve hn ?_
  have hlen := h.length_bytes
  unfold bytes at hlen
  rw [List.length_take] at hlen
  unfold memory at hlen
  omega

theorem pushBack_leaves (h : s.WellFormed) (c : UInt8) :
    Leaves (s.pushBack heap c) (s.bytes ++ [c]) := by
  have hlt := h.sz_lt_maxObject
  have hone : sizeT (s.sz + 1) = s.sz + 1 := sizeT_of_le (by omega)
  have htwo : sizeT (s.sz + 1 + 1) = s.sz + 1 + 1 := sizeT_of_le (by omega)
  unfold pushBack
  simp only [hone, htwo]
  cases hserve : heap.reallocate s.data (s.sz + 1 + 1) with
  | none => exact ⟨_, rfl, h, fun h => Bool.noConfusion h⟩
  | some tmp =>
    have hsize := Allocator.size_reallocate hserve
    have hkept := h.take_reallocate hserve (by omega)
    obtain ⟨b₁, b₂, h₁, h₂, hb, htake, hzero⟩ :=
      Block.exists_write_end tmp s.sz [c] 0 (by rw [List.length_singleton]; omega)
    rw [List.length_singleton] at h₂ htake hzero
    refine ⟨⟨{ data := some b₂, sz := s.sz + 1, memSize := s.sz + 1 + 1 }, true⟩,
      ?_, ?_, fun _ => ?_⟩
    · simp only [h₁, h₂, Option.bind_eq_bind, Option.bind_some, Option.pure_def]
    · exact wellFormed_block (Nat.lt_succ_self _) (by omega) hzero
    · exact htake.trans (by rw [hkept])

/-- A text is put behind the present one in a block that has room for both. -/
theorem fill_leaves (t : Text len) {tmp : Block UInt8 maxObject} (incr : Nat)
    (hkept : tmp.cells.take s.sz = s.bytes) (hroom : s.sz + t.bytes.length + 1 ≤ s.memSize + incr)
    (hsize : s.memSize + incr ≤ tmp.size) :
    ∃ object, s.fill tmp (some t.memory) t.bytes.length incr = some object ∧ object.WellFormed ∧
      object.bytes = s.bytes ++ t.bytes := by
  have hfits := tmp.fits
  unfold Block.size at hsize
  have hsum : sizeT (s.sz + t.bytes.length) = s.sz + t.bytes.length := sizeT_of_le (by omega)
  have hmem : sizeT (s.memSize + incr) = s.memSize + incr := sizeT_of_le (by omega)
  obtain ⟨b₁, b₂, h₁, h₂, hb, htake, hzero⟩ :=
    Block.exists_write_end tmp s.sz t.bytes 0 (by unfold Block.size; omega)
  refine ⟨{ data := some b₂, sz := s.sz + t.bytes.length, memSize := s.memSize + incr }, ?_, ?_, ?_⟩
  · unfold fill
    simp only [t.readMemory_eq, hsum, hmem, h₁, h₂, Option.bind_eq_bind, Option.bind_some,
      Option.pure_def]
  · exact wellFormed_block hroom (by rw [hb]; exact hsize) hzero
  · exact htake.trans (by rw [hkept])

theorem append_leaves (h : s.WellFormed) (t : Text len) :
    Leaves (s.append heap (some t.memory) len) (s.bytes ++ t.bytes) := by
  have hlt := h.sz_lt_maxObject
  have hmem := h.memSize_le_maxObject
  have hlen := t.length_le
  have hneeded : sizeT (s.sz + t.bytes.length + 1) = s.sz + t.bytes.length + 1 :=
    sizeT_of_le (by omega)
  unfold append
  simp only [t.lengthOf_eq, Option.bind_eq_bind, Option.bind_some, hneeded]
  by_cases hnil : t.bytes.length = 0
  · rw [if_pos hnil, List.length_eq_zero_iff.1 hnil, List.append_nil]
    exact ⟨_, rfl, h, fun _ => rfl⟩
  · rw [if_neg hnil]
    by_cases hshort : s.memSize < s.sz + t.bytes.length + 1
    · rw [if_pos hshort]
      cases hserve : heap.reallocate s.data (s.sz + t.bytes.length + 1) with
      | none => exact ⟨_, rfl, h, fun h => Bool.noConfusion h⟩
      | some tmp =>
        have hsize := Allocator.size_reallocate hserve
        obtain ⟨object, hfill, hwell, hbytes⟩ := fill_leaves t
          (s.sz + t.bytes.length + 1 - s.memSize)
          (h.take_reallocate hserve (by omega)) (by omega) (by omega)
        refine ⟨⟨object, true⟩, ?_, hwell, fun _ => hbytes⟩
        simp only [hfill, Option.bind_some, Option.pure_def]
    · rw [if_neg hshort]
      cases hdata : s.data with
      | none =>
        have hzero := (h.null hdata).2
        omega
      | some tmp =>
        have hle := h.memSize_le tmp hdata
        obtain ⟨object, hfill, hwell, hbytes⟩ :=
          fill_leaves t 0 (bytes_of_data hdata).symm (by omega) hle
        refine ⟨⟨object, true⟩, ?_, hwell, fun _ => hbytes⟩
        simp only [hfill, Option.bind_some, Option.pure_def]

theorem appendString_leaves (h : s.WellFormed) {other : StringObject} (hother : other.WellFormed) :
    Leaves (s.appendString heap other) (s.bytes ++ other.bytes) := by
  unfold appendString
  cases hdata : other.data with
  | none =>
    rw [bytes_of_null hdata, List.append_nil, memory, hdata, (hother.null hdata).1]
    exact ⟨⟨s, true⟩, rfl, h, fun _ => rfl⟩
  | some block =>
    obtain ⟨t, hmemory, hbytes⟩ := hother.exists_text hdata
    rw [memory, hdata, Option.map_some, ← hmemory, ← hbytes]
    exact append_leaves h t

/-- A byte is taken from the front: the rest moves up, in the same block. -/
theorem takeFront_leaves (h : s.WellFormed) :
    ∃ object, s.takeFront = some (s.bytes.headD 0, object) ∧ object.WellFormed ∧
      object.bytes = s.bytes.tail := by
  have hlen := h.length_bytes
  unfold takeFront
  by_cases hpos : 0 < s.sz
  · rw [if_pos hpos]
    cases hdata : s.data with
    | none => exact absurd (h.null hdata).1 hpos.ne'
    | some block =>
      have hlt := h.sz_lt block hdata
      have hle := h.memSize_le block hdata
      obtain ⟨c, rest, hcells⟩ : ∃ c rest, block.cells = c :: rest := by
        cases hcells : block.cells with
        | nil => simp [Block.size, hcells] at hle; omega
        | cons c rest => exact ⟨c, rest, rfl⟩
      obtain ⟨n, hn⟩ : ∃ n, s.sz = n + 1 := ⟨s.sz - 1, by omega⟩
      have htext : s.bytes = c :: rest.take n := by
        rw [bytes_of_data hdata, hcells, hn, List.take_succ_cons]
      have hfirst : block.cells[0]? = some c := by rw [hcells]; rfl
      simp only [hfirst, hn, Nat.add_sub_cancel, Option.bind_eq_bind, Option.bind_some]
      by_cases hone : n = 0
      · refine ⟨{}, ?_, wellFormed_null, ?_⟩
        · rw [if_pos hone, htext]
          simp [clear]
        · rw [htext, hone]
          rfl
      · have hread : block.read 1 n = some (rest.take n) := by
          rw [Block.read_eq_some (by omega), hcells]
          rfl
        have hrest : (rest.take n).length = n := by
          rw [htext, List.length_cons] at hlen
          omega
        obtain ⟨b₁, b₂, h₁, h₂, hb, htake, hzero⟩ :=
          Block.exists_write_end block 0 (rest.take n) 0 (by omega)
        rw [Nat.zero_add, hrest] at h₂ htake hzero
        refine ⟨{ data := some b₂, sz := n, memSize := s.memSize }, ?_, ?_, ?_⟩
        · rw [if_neg hone, htext]
          simp only [hread, h₁, h₂, Option.bind_some, Option.pure_def, List.headD_cons]
        · exact wellFormed_block (by omega) (by omega) hzero
        · rw [htext]
          exact htake
  · have hnil : s.bytes = [] := List.length_eq_zero_iff.1 (by omega)
    rw [if_neg hpos, hnil]
    exact ⟨s, rfl, h, hnil⟩

end StringObject

/-! ## Sequences of operations -/

/-- An operation on some string variables. A copy is always one of another variable,
and a pointer one into other memory. -/
inductive StringCall where
  | construct (i : Nat)
  | constructCopy (i j : Nat) (other : i ≠ j)
  | constructFrom (i len : Nat) (text : Text len)
  | constructNull (i len : Nat) (inRange : len ≤ npos)
  | assign (i j : Nat) (other : i ≠ j)
  | assignCStr (i : Nat) (text : Text npos)
  | assignNull (i : Nat)
  | pushBack (i : Nat) (c : UInt8)
  | appendString (i j : Nat) (other : i ≠ j)
  | append (i len : Nat) (text : Text len)
  | takeFront (i : Nat)
  | clear (i : Nat)

/-- The variables, and whether all the memory that was asked for was there. -/
structure StringVars where
  vars : Nat → StringObject := fun _ => {}
  served : Bool := true

namespace StringVars

/-- What an operation on a variable leaves. -/
def put (st : StringVars) (i : Nat) (left : Left) : StringVars :=
  { vars := Function.update st.vars i left.object, served := st.served && left.served }

/-- One operation; there is no result if it leaves its memory. A construction begins
with a null object. -/
def exec (st : StringVars) (heap : Heap) : StringCall → Option StringVars
  | .construct i => (StringObject.new heap).map (st.put i)
  | .constructCopy i j _ => (StringObject.assign heap {} (st.vars j)).map (st.put i)
  | .constructFrom i len text =>
      (StringObject.dup heap {} (some text.memory) len).map (st.put i)
  | .constructNull i len _ => (StringObject.dup heap {} none len).map (st.put i)
  | .assign i j _ => ((st.vars i).assign heap (st.vars j)).map (st.put i)
  | .assignCStr i text => ((st.vars i).assignCStr heap (some text.memory)).map (st.put i)
  | .assignNull i => ((st.vars i).assignCStr heap none).map (st.put i)
  | .pushBack i c => ((st.vars i).pushBack heap c).map (st.put i)
  | .appendString i j _ => ((st.vars i).appendString heap (st.vars j)).map (st.put i)
  | .append i len text => ((st.vars i).append heap (some text.memory) len).map (st.put i)
  | .takeFront i => (st.vars i).takeFront.map fun taken => st.put i ⟨taken.2, true⟩
  | .clear i => some (st.put i ⟨(st.vars i).clear, true⟩)

/-- A sequence of operations, each with what the heap answers to it. -/
def run (st : StringVars) : List (Heap × StringCall) → Option StringVars
  | [] => some st
  | (heap, call) :: calls => do (← st.exec heap call).run calls

end StringVars

/-- The same operation on lists of bytes. -/
def StringCall.onLists (lists : Nat → Bytes) : StringCall → Nat → Bytes
  | .construct i => Function.update lists i []
  | .constructCopy i j _ => Function.update lists i (lists j)
  | .constructFrom i _ text => Function.update lists i text.bytes
  | .constructNull i _ _ => Function.update lists i []
  | .assign i j _ => Function.update lists i (lists j)
  | .assignCStr i text => Function.update lists i text.bytes
  | .assignNull i => Function.update lists i []
  | .pushBack i c => Function.update lists i (lists i ++ [c])
  | .appendString i j _ => Function.update lists i (lists i ++ lists j)
  | .append i _ text => Function.update lists i (lists i ++ text.bytes)
  | .takeFront i => Function.update lists i (lists i).tail
  | .clear i => Function.update lists i []

/-- The lists after a sequence of operations. -/
def listsAfter (lists : Nat → Bytes) (calls : List (Heap × StringCall)) : Nat → Bytes :=
  calls.foldl (fun lists step => step.2.onLists lists) lists

namespace StringVars

open StringObject

/-- All strings fit, and they are the lists as long as no memory was refused. -/
structure Holds (st : StringVars) (lists : Nat → Bytes) : Prop where
  wellFormed : ∀ i, (st.vars i).WellFormed
  bytes : st.served = true → ∀ i, (st.vars i).bytes = lists i

variable {st : StringVars} {lists : Nat → Bytes}

/-- An operation that leaves a text leaves the other variables alone. -/
theorem Holds.put (h : st.Holds lists) {result : Option Left} {text text' : Bytes}
    (hleaves : Leaves result text) (i : Nat) (htext : st.served = true → text = text') :
    ∃ st', result.map (st.put i) = some st' ∧ st'.Holds (Function.update lists i text') := by
  obtain ⟨left, rfl, hwell, hbytes⟩ := hleaves
  refine ⟨st.put i left, rfl, fun j => ?_, fun hserved j => ?_⟩
  · by_cases hj : j = i
    · subst hj
      simpa [StringVars.put] using hwell
    · simpa [StringVars.put, hj] using h.wellFormed j
  · obtain ⟨hbefore, hnow⟩ := Bool.and_eq_true_iff.1 hserved
    by_cases hj : j = i
    · subst hj
      simpa [StringVars.put] using (hbytes hnow).trans (htext hbefore)
    · simpa [StringVars.put, hj] using h.bytes hbefore j

theorem Holds.exec (h : st.Holds lists) (heap : Heap) (call : StringCall) :
    ∃ st', st.exec heap call = some st' ∧ st'.Holds (call.onLists lists) := by
  cases call with
  | construct i => exact h.put (new_leaves heap) i fun _ => rfl
  | constructCopy i j _ =>
    exact h.put (assign_leaves wellFormed_null (h.wellFormed j)) i fun hs => h.bytes hs j
  | constructFrom i len text => exact h.put (dup_leaves wellFormed_null text) i fun _ => rfl
  | constructNull i len hlen => exact h.put (dup_null_leaves wellFormed_null hlen) i fun _ => rfl
  | assign i j _ =>
    exact h.put (assign_leaves (h.wellFormed i) (h.wellFormed j)) i fun hs => h.bytes hs j
  | assignCStr i text => exact h.put (dup_leaves (h.wellFormed i) text) i fun _ => rfl
  | assignNull i =>
    exact h.put (dup_null_leaves (h.wellFormed i) le_rfl) i fun _ => rfl
  | pushBack i c =>
    exact h.put (pushBack_leaves (h.wellFormed i) c) i fun hs => by rw [h.bytes hs i]
  | appendString i j _ =>
    exact h.put (appendString_leaves (h.wellFormed i) (h.wellFormed j)) i fun hs => by
      rw [h.bytes hs i, h.bytes hs j]
  | append i len text =>
    exact h.put (append_leaves (h.wellFormed i) text) i fun hs => by rw [h.bytes hs i]
  | takeFront i =>
    obtain ⟨object, htake, hwell, hbytes⟩ := takeFront_leaves (h.wellFormed i)
    obtain ⟨st', hst', hholds⟩ := h.put ⟨⟨object, true⟩, rfl, hwell, fun _ => hbytes⟩ i fun hs => by
      rw [h.bytes hs i]
    refine ⟨st', ?_, hholds⟩
    rw [StringVars.exec, htake]
    exact hst'
  | clear i =>
    refine h.put ⟨⟨(st.vars i).clear, true⟩, rfl, ?_, fun _ => ?_⟩ i fun _ => rfl
    · rw [clear_eq (h.wellFormed i)]
      exact wellFormed_null
    · rw [clear_eq (h.wellFormed i)]
      rfl

theorem Holds.run (h : st.Holds lists) (calls : List (Heap × StringCall)) :
    ∃ st', st.run calls = some st' ∧ st'.Holds (listsAfter lists calls) := by
  induction calls generalizing st lists with
  | nil => exact ⟨st, rfl, h⟩
  | cons step calls ih =>
    obtain ⟨st₁, hexec, hholds⟩ := h.exec step.1 step.2
    obtain ⟨st', hrun, hend⟩ := ih hholds
    refine ⟨st', ?_, hend⟩
    rw [StringVars.run, hexec]
    exact hrun

/-- **Strings keep their representation**: no sequence of operations leaves its
memory, every string fits its block, and as long as the memory was there, the strings
are what the operations make of lists. -/
theorem holds_after (calls : List (Heap × StringCall)) :
    ∃ st, ({} : StringVars).run calls = some st ∧ st.Holds (listsAfter (fun _ => []) calls) :=
  Holds.run ⟨fun _ => wellFormed_null, fun _ _ => rfl⟩ calls

end StringVars

end LibNbiot
