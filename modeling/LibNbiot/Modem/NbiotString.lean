/-
# The string class, position by position

`nbiot::string` keeps its bytes in an array with a zero behind them, and its
functions go over the array with positions of type `size_t`. Here they are as they
compute, wrap-around included; what the modem classes use of them in the form of
lists is shown to be the same. The two loops of `strip` meet their end only where
something is left: a string of nothing but the character is read on in front of
its first position.
-/

import LibNbiot.Modem.Strings
import Mathlib.Data.List.DropRight

namespace LibNbiot

/-- The bytes of a string object: with the zero behind them they fit a `size_t`. -/
structure NbiotString where
  data : Bytes
  fits : data.length < npos

/-- How a loop over an array ends, if it does within the steps it is given. -/
inductive Outcome (α : Type) where
  | returned (value : α)
  /-- Something was read that is no position of the array. -/
  | outside (position : Nat)
  | running
  deriving DecidableEq, Repr

namespace NbiotString

def size (s : NbiotString) : Nat := s.data.length

/-- `string(const char*, size_t)` at a position; `none` where it reads behind the
zero of the array. -/
def construct (s : NbiotString) (pos len : Nat) : Option Bytes :=
  if len = npos then some (cString (s.data.drop pos))
  else if pos + len ≤ s.size then some ((s.data.drop pos).take len)
  else none

/-- `substr(pos, len)`. -/
def substr (s : NbiotString) (pos len : Nat) : Option Bytes :=
  if s.size ≤ pos then some []
  else
    let len := if s.size < (pos + len) % sizeMod then s.size - pos else len
    s.construct pos len

/-! ## Stripping -/

/-- The first loop of `strip`, over what is left of the string. -/
def stripLeading (c : UInt8) : Bytes → Nat × Nat → Nat × Nat
  | [], st => st
  | d :: rest, (pos, len) => if c = d then stripLeading c rest (pos + 1, decrement len) else (pos, len)

/-- The second loop of `strip`, at most so many steps of it. Its condition `i >= 0`
holds of every `size_t`. -/
def stripTrailing (s : NbiotString) (c : UInt8) : Nat → Nat → Nat → Outcome Nat
  | 0, _, _ => .running
  | steps + 1, i, len =>
      match s.data[i]? with
      | none => .outside i
      | some d =>
          if c = d then s.stripTrailing c steps (decrement i) (decrement len) else .returned len

/-- `strip(c)`, with at most so many steps of its second loop. -/
def strip (s : NbiotString) (c : UInt8) (steps : Nat) : Outcome Bytes :=
  let (pos, len) := stripLeading c s.data (0, s.size)
  let len := if 0 < s.size then s.stripTrailing c steps (decrement s.size) len else .returned len
  match len with
  | .returned len =>
      match s.substr pos len with
      | some bytes => .returned bytes
      | none => .outside s.size
  | .outside i => .outside i
  | .running => .running

/-! ## Splitting and joining -/

/-- The variables of `split`. -/
structure Splitting where
  ret : List Bytes := []
  lastPos : Nat := 0

/-- The run before position `i`, if it is not empty, is a piece. -/
def takeRun (s : NbiotString) (i : Nat) (st : Splitting) : Option Splitting :=
  if st.lastPos < i then do
    let piece ← s.substr st.lastPos (i - st.lastPos)
    return { ret := st.ret ++ [piece], lastPos := i }
  else some st

/-- What both overloads do at a separator at position `i`. -/
def cut (s : NbiotString) (keepSeparator : Bool) (i : Nat) (st : Splitting) : Option Splitting := do
  let st ← s.takeRun i st
  if keepSeparator then
    let separator ← s.substr st.lastPos 1
    return { ret := st.ret ++ [separator], lastPos := st.lastPos + 1 }
  else return { st with lastPos := st.lastPos + 1 }

/-- The inner loop of `split(const char*)`, left at the first match. -/
def cutAtAny (s : NbiotString) (keepSeparator : Bool) (i : Nat) (c : UInt8) :
    Bytes → Splitting → Option Splitting
  | [], st => some st
  | d :: sep, st => if c = d then s.cut keepSeparator i st else s.cutAtAny keepSeparator i c sep st

/-- The loop over the positions from `i` on, whose characters are given. -/
def splitPositions (body : Nat → UInt8 → Splitting → Option Splitting) :
    Nat → Bytes → Splitting → Option Splitting
  | _, [], st => some st
  | i, c :: rest, st => do
      let st ← body i c st
      splitPositions body (i + 1) rest st

/-- What is left behind the last separator. -/
def splitTail (s : NbiotString) (st : Splitting) : Option (List Bytes) :=
  if 0 < st.lastPos ∧ st.lastPos < s.size then do
    let piece ← s.substr st.lastPos npos
    return st.ret ++ [piece]
  else return st.ret

/-- An empty list gets the whole string. -/
def splitEnd (s : NbiotString) (ret : List Bytes) : Option (List Bytes) :=
  if ret = [] then do
    let piece ← s.substr 0 npos
    return [piece]
  else return ret

/-- `split(char sep, bool keepSeparator)`. -/
def splitChar (s : NbiotString) (sep : UInt8) (keepSeparator : Bool) : Option (List Bytes) := do
  let st ← splitPositions
    (fun i c st => if c = sep then s.cut keepSeparator i st else some st) 0 s.data {}
  let ret ← s.splitTail st
  s.splitEnd ret

/-- The loops of `split(const char*)`, left out without a separator. -/
def splitAtAny (s : NbiotString) (sep : Option Bytes) (keepSeparator : Bool) :
    Option (List Bytes) :=
  match sep.map cString with
  | some (d :: sep) => do
      let st ← splitPositions
        (fun i c st => s.cutAtAny keepSeparator i c (d :: sep) st) 0 s.data {}
      s.splitTail st
  | _ => some []

/-- `split(const char* sep, bool keepSeparator)`; a null pointer is `none`. -/
def splitAny (s : NbiotString) (sep : Option Bytes) (keepSeparator : Bool) :
    Option (List Bytes) := do
  let ret ← s.splitAtAny sep keepSeparator
  s.splitEnd ret

/-- `join(list, pos, len)`; an item behind the end of a list is empty. -/
def join (list : List Bytes) (pos len : Nat) : Bytes :=
  let len := if npos = len then list.length else len
  (List.range' pos (len - pos)).foldl (fun ret i => ret ++ list.getD i []) []

/-! ## Pieces of a string -/

variable {s : NbiotString}

theorem size_lt_npos (s : NbiotString) : s.size < npos := s.fits

/-- A part of the string. -/
theorem substr_inside {pos len : Nat} (h : pos + len ≤ s.size) :
    s.substr pos len = some ((s.data.drop pos).take len) := by
  have hfits := s.size_lt_npos
  unfold substr
  split
  · rename_i hpos
    have hnone : s.data.drop pos = [] := List.drop_eq_nil_of_le hpos
    rw [hnone, List.take_nil]
  · have hmod : (pos + len) % sizeMod = pos + len := Nat.mod_eq_of_lt (by
      simp only [npos] at hfits
      omega)
    have hlen : ¬len = npos := by omega
    rw [hmod, if_neg (by omega)]
    unfold construct
    rw [if_neg hlen, if_pos h]

/-- The rest of the string up to a zero: the position and `npos` wrap around. -/
theorem substr_npos {pos : Nat} (hpos : 0 < pos) (h : pos < s.size) :
    s.substr pos npos = some (cString (s.data.drop pos)) := by
  have hfits := s.size_lt_npos
  have hmod : (pos + npos) % sizeMod = pos - 1 := by
    simp only [npos, sizeMod] at *
    omega
  unfold substr
  rw [if_neg (by omega)]
  dsimp only
  rw [hmod, if_neg (by omega), construct, if_pos rfl]

theorem substr_all (s : NbiotString) : s.substr 0 npos = some s.data := by
  have hfits := s.size_lt_npos
  unfold substr
  split
  · rename_i hpos
    rw [List.eq_nil_of_length_eq_zero (Nat.le_zero.1 hpos)]
  · have hmod : (0 + npos) % sizeMod = npos := by decide
    rw [hmod, if_pos hfits, Nat.sub_zero, construct, if_neg (by omega), if_pos (by omega)]
    simp [size]

/-! ## What is stripped -/

/-- A string without its leading and its trailing run of a character. -/
def stripped (s : Bytes) (c : UInt8) : Bytes := (s.dropWhile (· = c)).rdropWhile (· = c)

theorem stripLeading_eq (c : UInt8) {l : Bytes} {pos len : Nat} (h : l.length ≤ len) :
    stripLeading c l (pos, len) =
      (pos + (l.takeWhile (· = c)).length, len - (l.takeWhile (· = c)).length) := by
  induction l generalizing pos len with
  | nil => rfl
  | cons d l ih =>
    rw [List.length_cons] at h
    rw [stripLeading]
    by_cases hd : c = d
    · have hlen : decrement len = len - 1 := if_neg (by omega)
      have hrun : (d :: l).takeWhile (· = c) = d :: l.takeWhile (· = c) := by simp [hd]
      rw [if_pos hd, hlen, ih (by omega), hrun, List.length_cons]
      exact Prod.ext (by omega) (by omega)
    · have hrun : (d :: l).takeWhile (· = c) = [] := by simp [Ne.symm hd]
      rw [if_neg hd, hrun]
      rfl

/-- The second loop goes down to the last character that is another one. -/
theorem stripTrailing_stops {c d : UInt8} {front run : Bytes} (hs : s.data = front ++ d :: run)
    (hd : d ≠ c) (hrun : ∀ d' ∈ run, d' = c) {k len : Nat} (hk : k ≤ run.length) (hlen : k ≤ len) :
    s.stripTrailing c (k + 1) (front.length + k) len = .returned (len - k) := by
  induction k generalizing len with
  | zero =>
    have hread : s.data[front.length + 0]? = some d := by simp [hs]
    rw [stripTrailing]
    simp only [hread, if_neg hd.symm, Nat.sub_zero]
  | succ k ih =>
    have hread : s.data[front.length + (k + 1)]? = some c := by
      rw [hs, List.getElem?_append_right (Nat.le_add_right _ _), Nat.add_sub_cancel_left,
        List.getElem?_cons_succ, List.getElem?_eq_getElem hk]
      exact congrArg some (hrun _ (List.getElem_mem hk))
    have hi : decrement (front.length + (k + 1)) = front.length + k := if_neg (by omega)
    have hl : decrement len = len - 1 := if_neg (by omega)
    rw [stripTrailing]
    simp only [hread, if_true, hi, hl]
    rw [ih (by omega) (by omega)]
    congr 1
    omega

/-- Where nothing stops it, the second loop goes on in front of the string. -/
theorem stripTrailing_runs_off {c : UInt8} (steps : Nat) {i : Nat} (len : Nat)
    (h : (∀ j ≤ i, s.data[j]? = some c) ∨ s.data[i]? = none) (l : Nat) :
    s.stripTrailing c steps i len ≠ .returned l := by
  induction steps generalizing i len with
  | zero => nofun
  | succ steps ih =>
    rw [stripTrailing]
    rcases h with h | h
    · simp only [h i le_rfl, if_true]
      apply ih
      by_cases hi : i = 0
      · -- the position wraps around
        have hbehind : decrement i = npos := if_pos hi
        have hfits := s.size_lt_npos
        right
        rw [hbehind, List.getElem?_eq_none_iff]
        exact hfits.le
      · have hdown : decrement i = i - 1 := if_neg hi
        left
        intro j hj
        exact h j (by omega)
    · simp only [h]
      nofun

/-- A string with another character in it is a run, what is left, and a run. -/
theorem stripped_between {l : Bytes} {c : UInt8} (h : ∃ d ∈ l, d ≠ c) :
    l = l.takeWhile (· = c) ++ stripped l c ++ (l.dropWhile (· = c)).rtakeWhile (· = c) ∧
      ∃ init d, stripped l c = init ++ [d] ∧ d ≠ c := by
  constructor
  · rw [stripped, List.append_assoc, List.rdropWhile_append_rtakeWhile,
      List.takeWhile_append_dropWhile]
  · have hleft : l.dropWhile (· = c) ≠ [] := by
      obtain ⟨d, hd, hne⟩ := h
      intro hnil
      rw [List.dropWhile_eq_nil_iff] at hnil
      exact hne (of_decide_eq_true (hnil d hd))
    have hsome : stripped l c ≠ [] := by
      intro hnil
      rw [stripped, List.rdropWhile_eq_nil_iff] at hnil
      have hhead := List.head_dropWhile_not (fun d => decide (d = c)) hleft
      rw [hnil _ (List.head_mem hleft)] at hhead
      cases hhead
    have hlast := List.rdropWhile_last_not (fun d => decide (d = c)) _ hsome
    rw [decide_eq_true_iff] at hlast
    exact ⟨(stripped l c).dropLast, (stripped l c).getLast hsome,
      (List.dropLast_append_getLast hsome).symm, hlast⟩

/-- What is left is returned after as many steps as there are characters to strip,
and one. -/
theorem strip_returns {c : UInt8} (h : ∃ d ∈ s.data, d ≠ c) :
    s.strip c (((s.data.dropWhile (· = c)).rtakeWhile (· = c)).length + 1) =
      .returned (stripped s.data c) := by
  obtain ⟨hdata, init, d, hinit, hd⟩ := stripped_between h
  let leading := s.data.takeWhile (· = c)
  let trailing := (s.data.dropWhile (· = c)).rtakeWhile (· = c)
  have hlength : s.size = leading.length + (init.length + 1) + trailing.length := by
    have hsum := congrArg List.length hdata
    rw [List.length_append, List.length_append, hinit, List.length_append] at hsum
    exact hsum
  have hfirst : stripLeading c s.data (0, s.size) = (leading.length, s.size - leading.length) := by
    exact (stripLeading_eq c le_rfl).trans (Prod.ext (Nat.zero_add _) rfl)
  have hsplit : s.data = (leading ++ init) ++ d :: trailing := by
    rw [hinit] at hdata
    simpa using hdata
  have hrun : ∀ d' ∈ trailing, d' = c := by
    intro d' hd'
    have hsame := List.mem_rtakeWhile_imp (p := fun d => decide (d = c)) hd'
    exact of_decide_eq_true hsame
  have hlast : decrement s.size = (leading ++ init).length + trailing.length := by
    rw [decrement, if_neg (by omega), List.length_append]
    omega
  have hsecond : s.stripTrailing c (trailing.length + 1) (decrement s.size)
      (s.size - leading.length) = .returned (init.length + 1) := by
    rw [hlast, stripTrailing_stops hsplit hd hrun le_rfl (by omega)]
    congr 1
    omega
  have hpart : s.substr leading.length (init.length + 1) = some (stripped s.data c) := by
    have hwhole : s.data = leading ++ (stripped s.data c ++ trailing) := by
      rw [← List.append_assoc]
      exact hdata
    rw [substr_inside (by omega), hwhole, List.drop_left, ← hwhole]
    have hcount : init.length + 1 = (stripped s.data c).length := by
      rw [hinit, List.length_append, List.length_singleton]
    rw [hcount, List.take_left]
  unfold strip
  simp only [hfirst]
  rw [if_pos (by omega), hsecond]
  simp only [hpart]

/-- The lists of the modem classes are stripped to the same. -/
theorem strip_of_other {l : Bytes} {c : UInt8} (h : ∃ d ∈ l, d ≠ c) :
    LibNbiot.strip l c = some (stripped l c) := by
  obtain ⟨hl, init, d, hinit, hd⟩ := stripped_between h
  let leading := l.takeWhile (· = c)
  let trailing := (l.dropWhile (· = c)).rtakeWhile (· = c)
  have hrun : ∀ d' ∈ trailing.reverse, decide (d' = c) = true := by
    intro d' hd'
    exact List.mem_rtakeWhile_imp (p := fun d => decide (d = c)) (List.mem_reverse.1 hd')
  have hback : l.reverse.takeWhile (· = c) = trailing.reverse := by
    have hreverse : l.reverse = trailing.reverse ++ d :: (init.reverse ++ leading.reverse) := by
      conv_lhs => rw [hl, hinit]
      simp [leading, trailing]
    rw [hreverse, List.takeWhile_append_of_pos hrun, List.takeWhile_cons_of_neg (by simpa using hd),
      List.append_nil]
  have hcount : l.length - leading.length - trailing.length = (stripped l c).length := by
    have hsum := congrArg List.length hl
    rw [List.length_append, List.length_append] at hsum
    have hsum : l.length = leading.length + (stripped l c).length + trailing.length := hsum
    omega
  have hwhole : l = leading ++ (stripped l c ++ trailing) := by
    rw [← List.append_assoc]
    exact hl
  have hsome : ¬l = [] := by
    rintro rfl
    obtain ⟨_, hmem, -⟩ := h
    cases hmem
  have hnot : ¬l.all (· = c) = true := by
    intro hall
    obtain ⟨d', hmem, hne⟩ := h
    exact hne (of_decide_eq_true (List.all_eq_true.1 hall d' hmem))
  have hpart : LibNbiot.substr l leading.length (some (stripped l c).length) = stripped l c := by
    have hdrop : l.drop leading.length = stripped l c ++ trailing := by
      conv_lhs => rw [hwhole]
      rw [List.drop_left]
    rw [LibNbiot.substr, hdrop, List.take_left]
  rw [LibNbiot.strip, if_neg hsome, if_neg hnot, hback]
  dsimp only
  rw [List.length_reverse, hcount, hpart]

/-- `strip` comes to an end, with the string without the two runs; it has read
nothing but the string then. -/
def Strips (s : NbiotString) (c : UInt8) : Prop :=
  ∃ steps, s.strip c steps = .returned (stripped s.data c)

theorem strips_of_nil (hs : s.data = []) (c : UInt8) : s.Strips c := by
  have hsize : s.size = 0 := by rw [size, hs, List.length_nil]
  refine ⟨0, ?_⟩
  unfold strip
  simp only [hs, hsize, stripLeading, substr, stripped]
  rfl

theorem not_strips_of_all {c : UInt8} (hs : s.data ≠ []) (hall : ∀ d ∈ s.data, d = c) :
    ¬s.Strips c := by
  rintro ⟨steps, hstrip⟩
  have hpos : 0 < s.size := List.length_pos_iff.2 hs
  have hread : ∀ j ≤ decrement s.size, s.data[j]? = some c := by
    intro j hj
    have hj' : j < s.data.length := by
      rw [decrement, if_neg (by omega)] at hj
      simp only [size] at hj hpos
      omega
    rw [List.getElem?_eq_getElem hj']
    exact congrArg some (hall _ (List.getElem_mem hj'))
  unfold strip at hstrip
  dsimp only at hstrip
  rw [if_pos hpos] at hstrip
  split at hstrip
  · rename_i hloop
    exact stripTrailing_runs_off _ _ (.inl hread) _ hloop
  · cases hstrip
  · cases hstrip

/-- The modem classes know nothing of a string exactly where the loops know no end. -/
theorem strip_eq (s : NbiotString) (c : UInt8) :
    (LibNbiot.strip s.data c = some (stripped s.data c) ∧ s.Strips c) ∨
      (LibNbiot.strip s.data c = none ∧ ¬s.Strips c) := by
  by_cases hnil : s.data = []
  · left
    exact ⟨by simp [hnil, LibNbiot.strip, stripped], strips_of_nil hnil c⟩
  · by_cases hother : ∃ d ∈ s.data, d ≠ c
    · exact .inl ⟨strip_of_other hother, _, strip_returns hother⟩
    · right
      push Not at hother
      constructor
      · rw [LibNbiot.strip, if_neg hnil, if_pos]
        exact List.all_eq_true.2 fun d hd => decide_eq_true (hother d hd)
      · exact not_strips_of_all hnil hother

/-- **Stripping ends** with what it should leave exactly for the strings that are
empty or have another character in them. -/
theorem strips_iff (s : NbiotString) (c : UInt8) :
    s.Strips c ↔ s.data = [] ∨ ∃ d ∈ s.data, d ≠ c := by
  constructor
  · intro h
    by_contra hno
    push Not at hno
    exact not_strips_of_all hno.1 hno.2 h
  · rintro (hnil | hother)
    · exact strips_of_nil hnil c
    · exact ⟨_, strip_returns hother⟩

/-- A single quote is stripped of itself for ever, or until the memory in front of
the string is somebody else's. -/
theorem not_strips_quote : ¬Strips ⟨[34], by decide⟩ 34 :=
  not_strips_of_all (by decide) (by simp)

end NbiotString

end LibNbiot
