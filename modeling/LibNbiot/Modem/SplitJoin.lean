/-
# Splitting and joining

The two overloads of `split` go over the positions of a string and remember the
last one that is not in a piece yet. They cut at every separator; joined again the
pieces are the string, as long as there is no zero in it, at which the last piece
would end.
-/

import LibNbiot.Modem.NbiotString
import LibNbiot.Logic.Splitting

namespace LibNbiot

open Logic

/-! ## The pieces of a list -/

theorem piece_eq (run : Bytes) : piece run = if run = [] then [] else [run] := by
  cases run <;> rfl

theorem splitLoop_cuts {isSep : UInt8 → Bool} (keepSeparator : Bool) {run : Bytes}
    (hrun : Free isSep run) (l : Bytes) :
    (splitLoop isSep keepSeparator run l).1 ++ piece (splitLoop isSep keepSeparator run l).2 =
      (cuts isSep run l).filter fun p => keepSeparator || !isCut isSep p := by
  have hkept {run : Bytes} (hrun : Free isSep run) :
      (piece run).filter (fun p => keepSeparator || !isCut isSep p) = piece run := by
    cases keepSeparator
    · simpa using filter_piece hrun
    · simp
  induction l generalizing run with
  | nil => rw [splitLoop, cuts, hkept hrun, List.nil_append]
  | cons c l ih =>
    rw [splitLoop, cuts]
    split
    · rename_i hc
      have hseparator : [[c]].filter (fun p => keepSeparator || !isCut isSep p) =
          if keepSeparator then [[c]] else [] := by
        cases keepSeparator <;> simp [isCut, hc]
      have hrest := ih free_nil
      have hcons : ([c] :: cuts isSep [] l).filter (fun p => keepSeparator || !isCut isSep p) =
          (if keepSeparator then [[c]] else []) ++
            (cuts isSep [] l).filter (fun p => keepSeparator || !isCut isSep p) := by
        rw [← hseparator, ← List.filter_append]
        rfl
      rw [List.filter_append, hkept hrun, hcons, ← hrest, piece_eq run]
      simp only [List.append_assoc]
    · rename_i hc
      exact ih (hrun.snoc (by simpa using hc))

/-- A string with a separator in it: the pieces that are asked for, if there are any. -/
theorem splitBy_cuts {isSep : UInt8 → Bool} (keepSeparator : Bool) {l : Bytes}
    (h : ¬Free isSep l) (hsome : keepSeparator = true ∨ ∃ c ∈ l, isSep c = false) :
    splitBy isSep keepSeparator l =
      (cuts isSep [] l).filter fun p => keepSeparator || !isCut isSep p := by
  have hpieces := splitLoop_cuts keepSeparator (free_nil : Free isSep []) l
  have hany : l.any isSep = true := by
    by_contra hno
    refine h fun c hc => ?_
    by_contra hsep
    exact hno (List.any_eq_true.2 ⟨c, hc, by simpa using hsep⟩)
  -- some piece is left: the one that a separator or another character is in
  have hleft : ∃ c ∈ l, keepSeparator = true ∨ isSep c = false := by
    rcases hsome with hkeep | ⟨c, hc, hfree⟩
    · obtain ⟨c, hc, -⟩ := List.any_eq_true.1 hany
      exact ⟨c, hc, .inl hkeep⟩
    · exact ⟨c, hc, .inr hfree⟩
  have hne : ((cuts isSep [] l).filter fun p => keepSeparator || !isCut isSep p) ≠ [] := by
    obtain ⟨c, hc, hkept⟩ := hleft
    rw [← List.nil_append l, ← flatten_cuts isSep [] l] at hc
    obtain ⟨p, hp, hcp⟩ := List.mem_flatten.1 hc
    apply List.ne_nil_of_mem (a := p)
    rw [List.mem_filter]
    refine ⟨hp, ?_⟩
    rcases hkept with hkeep | hfree
    · simp [hkeep]
    · rcases mem_cuts free_nil hp with ⟨d, hd, rfl⟩ | ⟨-, hrun⟩
      · rw [List.mem_singleton.1 hcp, hd] at hfree
        cases hfree
      · simp [hrun.isCut_eq]
  have hlast : ∀ (pieces : List Bytes) (last : Bytes), pieces ++ piece last =
      if l.any isSep ∧ last ≠ [] then pieces ++ [last] else pieces := by
    intro pieces last
    by_cases hnil : last = []
    · simp [hnil, piece_nil]
    · rw [piece_of_ne_nil hnil, if_pos ⟨hany, hnil⟩]
  rw [hlast] at hpieces
  unfold splitBy
  dsimp only
  rw [hpieces, if_neg hne]

/-- With the separators kept, all that is cut is a piece. -/
theorem splitBy_keep {isSep : UInt8 → Bool} {l : Bytes} (h : ¬Free isSep l) :
    splitBy isSep true l = cuts isSep [] l := by
  simpa using splitBy_cuts true h (.inl rfl)

/-- Fields that are put together are found again, the empty ones left out. -/
theorem splitChar_intercalate {sep : UInt8} {first second : Bytes} {fields : List Bytes}
    (hfirst : first ≠ []) (hfields : ∀ f ∈ first :: second :: fields, ∀ c ∈ f, c ≠ sep) :
    splitChar ([sep].intercalate (first :: second :: fields)) sep =
      (first :: second :: fields).filter (fun f => !f.isEmpty) := by
  have hfree : ∀ f ∈ first :: second :: fields, Free (fun c => decide (c = sep)) f :=
    fun f hf c hc => decide_eq_false (hfields f hf c hc)
  have hjoined : [sep].intercalate (first :: second :: fields) =
      first ++ sep :: [sep].intercalate (second :: fields) := by
    rw [List.intercalate_cons_cons, List.append_assoc]
    rfl
  have hcut : ¬Free (fun c => decide (c = sep))
      ([sep].intercalate (first :: second :: fields)) := by
    intro h
    have hmem : sep ∈ [sep].intercalate (first :: second :: fields) := by
      rw [hjoined]
      exact List.mem_append_right _ List.mem_cons_self
    simpa using h sep hmem
  have hother : ∃ c ∈ [sep].intercalate (first :: second :: fields), decide (c = sep) = false := by
    obtain ⟨c, hc⟩ := List.exists_mem_of_ne_nil first hfirst
    refine ⟨c, ?_, hfree first List.mem_cons_self c hc⟩
    rw [hjoined]
    exact List.mem_append_left _ hc
  rw [splitChar, splitBy_cuts false hcut (.inr hother),
    ← filter_cuts_intercalate sep (decide_eq_true rfl) hfree]
  simp only [Bool.false_or]

/-- A string without a separator is one piece. -/
theorem splitBy_free {isSep : UInt8 → Bool} (keepSeparator : Bool) {l : Bytes}
    (h : Free isSep l) : splitBy isSep keepSeparator l = [l] := by
  have hloop {run l : Bytes} (h : Free isSep l) :
      splitLoop isSep keepSeparator run l = ([], run ++ l) := by
    induction l generalizing run with
    | nil => rw [splitLoop, List.append_nil]
    | cons c l ih =>
      have hc : ¬isSep c = true := by simp [h c List.mem_cons_self]
      rw [splitLoop, if_neg hc, ih fun d hd => h d (List.mem_cons_of_mem _ hd), List.append_assoc]
      rfl
  have hany : ¬(l.any isSep = true) := by
    intro hany
    obtain ⟨c, hc, hsep⟩ := List.any_eq_true.1 hany
    rw [h c hc] at hsep
    cases hsep
  unfold splitBy
  rw [hloop h]
  simp [hany]

namespace NbiotString

variable {s : NbiotString}

/-! ## The loops over the positions -/

/-- A separator at a position behind the last piece. -/
theorem cut_eq {keepSeparator : Bool} {front rest : Bytes} {c : UInt8}
    (hs : s.data = front ++ c :: rest) {st : Splitting} (hpos : st.lastPos ≤ front.length) :
    s.cut keepSeparator front.length st =
      some ⟨st.ret ++ piece (front.drop st.lastPos) ++ if keepSeparator then [[c]] else [],
        front.length + 1⟩ := by
  have hsize : s.size = front.length + 1 + rest.length := by
    rw [size, hs, List.length_append, List.length_cons]
    omega
  have hrun : s.takeRun front.length st =
      some ⟨st.ret ++ piece (front.drop st.lastPos), front.length⟩ := by
    unfold takeRun
    split
    · rename_i hlt
      have hpart : s.substr st.lastPos (front.length - st.lastPos) =
          some (front.drop st.lastPos) := by
        rw [substr_inside (by omega), hs, List.drop_append_of_le_length hpos,
          List.take_left' (by rw [List.length_drop])]
      have hne : front.drop st.lastPos ≠ [] := by
        rw [Ne, List.drop_eq_nil_iff]
        omega
      rw [hpart, piece_of_ne_nil hne]
      rfl
    · rename_i hlt
      have hnil : front.drop st.lastPos = [] := List.drop_eq_nil_of_le (by omega)
      rw [hnil, piece_nil, List.append_nil, Nat.le_antisymm (Nat.le_of_not_lt hlt) hpos]
  have hseparator : s.substr front.length 1 = some [c] := by
    rw [substr_inside (by omega), hs, List.drop_left]
    rfl
  unfold cut
  rw [hrun]
  cases keepSeparator
  · simp
  · simp [hseparator]

/-- The inner loop asks whether the character is one of the separators. -/
theorem cutAtAny_eq (keepSeparator : Bool) (i : Nat) (c : UInt8) (sep : Bytes) (st : Splitting) :
    s.cutAtAny keepSeparator i c sep st =
      if sep.contains c then s.cut keepSeparator i st else some st := by
  induction sep with
  | nil => rfl
  | cons d sep ih =>
    rw [cutAtAny]
    split
    · rename_i h
      simp [h]
    · rename_i h
      rw [ih]
      simp [h]

/-- The loop finds the pieces of the list, and what is behind the last separator is
behind the last position. -/
theorem splitPositions_eq {isSep : UInt8 → Bool} {keepSeparator : Bool}
    {body : Nat → UInt8 → Splitting → Option Splitting}
    (hbody : ∀ i c st, body i c st = if isSep c then s.cut keepSeparator i st else some st)
    {front rest : Bytes} (hs : s.data = front ++ rest) (st : Splitting)
    (hpos : st.lastPos ≤ front.length) :
    ∃ st', splitPositions body front.length rest st = some st' ∧
      st'.ret = st.ret ++ (splitLoop isSep keepSeparator (front.drop st.lastPos) rest).1 ∧
      s.data.drop st'.lastPos = (splitLoop isSep keepSeparator (front.drop st.lastPos) rest).2 ∧
      (0 < st'.lastPos ↔ 0 < st.lastPos ∨ rest.any isSep = true) := by
  induction rest generalizing front st with
  | nil =>
    rw [List.append_nil] at hs
    refine ⟨st, rfl, ?_, ?_, by simp⟩
    · rw [splitLoop, List.append_nil]
    · rw [splitLoop, hs]
  | cons c rest ih =>
    have hs' : s.data = (front ++ [c]) ++ rest := by rw [hs, List.append_assoc]; rfl
    have hlength : (front ++ [c]).length = front.length + 1 := by simp
    rw [splitPositions, hbody]
    by_cases hc : isSep c = true
    · rw [if_pos hc, cut_eq hs hpos]
      obtain ⟨st', hloop, hret, hrest, hfirst⟩ := ih hs'
        (⟨st.ret ++ piece (front.drop st.lastPos) ++ if keepSeparator then [[c]] else [],
          front.length + 1⟩) (by rw [hlength])
      have hnone : (front ++ [c]).drop (front.length + 1) = [] :=
        List.drop_eq_nil_of_le (by rw [hlength])
      rw [hlength] at hloop
      rw [hnone] at hret hrest
      refine ⟨st', hloop, ?_, ?_, by simpa [hc] using hfirst⟩
      · rw [hret, splitLoop, if_pos hc]
        simp only [piece_eq, List.append_assoc]
      · rw [hrest, splitLoop, if_pos hc]
    · rw [if_neg hc]
      obtain ⟨st', hloop, hret, hrest, hfirst⟩ := ih hs' st (by rw [hlength]; omega)
      rw [hlength] at hloop
      rw [List.drop_append_of_le_length hpos] at hret hrest
      refine ⟨st', hloop, ?_, ?_, by simpa [hc] using hfirst⟩
      · rw [hret, splitLoop, if_neg hc]
      · rw [hrest, splitLoop, if_neg hc]

/-- A string without a zero in it. -/
def NoZero (s : NbiotString) : Prop := ∀ c ∈ s.data, c ≠ 0

theorem splitTail_eq (hzero : s.NoZero) (st : Splitting) :
    s.splitTail st =
      some (if 0 < st.lastPos ∧ s.data.drop st.lastPos ≠ [] then
        st.ret ++ [s.data.drop st.lastPos] else st.ret) := by
  have hrest : s.data.drop st.lastPos ≠ [] ↔ st.lastPos < s.size := by
    rw [Ne, List.drop_eq_nil_iff, Nat.not_le]
    rfl
  have hwhole : cString (s.data.drop st.lastPos) = s.data.drop st.lastPos := by
    rw [cString, List.takeWhile_eq_self_iff]
    intro c hc
    exact decide_eq_true (hzero c (List.mem_of_mem_drop hc))
  rw [splitTail]
  split
  · rename_i h
    rw [if_pos ⟨h.1, hrest.2 h.2⟩, substr_npos h.1 h.2, hwhole]
    rfl
  · rename_i h
    rw [if_neg fun hboth => h ⟨hboth.1, hrest.1 hboth.2⟩]
    rfl

theorem splitEnd_eq (ret : List Bytes) :
    s.splitEnd ret = some (if ret = [] then [s.data] else ret) := by
  rw [splitEnd, substr_all]
  split <;> rfl

/-- Either overload cuts the string as a list is cut. -/
theorem splitPositions_splitBy (hzero : s.NoZero) {isSep : UInt8 → Bool} {keepSeparator : Bool}
    {body : Nat → UInt8 → Splitting → Option Splitting}
    (hbody : ∀ i c st, body i c st = if isSep c then s.cut keepSeparator i st else some st) :
    (do
      let st ← splitPositions body 0 s.data {}
      let ret ← s.splitTail st
      s.splitEnd ret) = some (splitBy isSep keepSeparator s.data) := by
  obtain ⟨st, hloop, hret, hlast, hfirst⟩ :=
    splitPositions_eq hbody (List.nil_append s.data).symm {} le_rfl
  rw [List.length_nil] at hloop
  rw [List.drop_nil] at hret hlast
  have hret : st.ret = (splitLoop isSep keepSeparator [] s.data).1 := hret
  have hany : 0 < st.lastPos ↔ s.data.any isSep = true :=
    hfirst.trans (or_iff_right (Nat.lt_irrefl 0))
  rw [hloop]
  simp only [Option.bind_eq_bind, Option.bind_some, splitTail_eq hzero, splitEnd_eq, hlast, hret, hany]
  rfl

theorem splitChar_eq (hzero : s.NoZero) (sep : UInt8) (keepSeparator : Bool) :
    s.splitChar sep keepSeparator = some (splitBy (· = sep) keepSeparator s.data) := by
  apply splitPositions_splitBy hzero
  intro i c st
  simp

/-- The separators of a set; a null pointer has none. -/
def separates (sep : Option Bytes) (c : UInt8) : Bool := ((sep.map cString).getD []).contains c

theorem splitAny_eq (hzero : s.NoZero) (sep : Option Bytes) (keepSeparator : Bool) :
    s.splitAny sep keepSeparator = some (splitBy (separates sep) keepSeparator s.data) := by
  -- without separators the loops are left out
  have hnone : (sep.map cString).getD [] = [] →
      s.splitEnd [] = some (splitBy (separates sep) keepSeparator s.data) := by
    intro hnil
    have hfree : Free (separates sep) s.data := by
      intro c _
      rw [separates, hnil]
      rfl
    rw [splitBy_free keepSeparator hfree, splitEnd_eq]
    rfl
  unfold splitAny splitAtAny
  cases hsep : sep.map cString with
  | none => exact hnone (by rw [hsep]; rfl)
  | some seps =>
    cases seps with
    | nil => exact hnone (by rw [hsep]; rfl)
    | cons d seps =>
      have hbody (i : Nat) (c : UInt8) (st : Splitting) :
          s.cutAtAny keepSeparator i c (d :: seps) st =
            if separates sep c then s.cut keepSeparator i st else some st := by
        rw [cutAtAny_eq, separates, hsep]
        rfl
      have hall := splitPositions_splitBy hzero hbody
      rw [← hall]
      simp only [Option.bind_eq_bind, Option.bind_assoc]

/-! ## Joining -/

theorem join_loop (front rest : List Bytes) (ret : Bytes) :
    (List.range' front.length rest.length).foldl
      (fun ret i => ret ++ (front ++ rest).getD i []) ret = ret ++ rest.flatten := by
  induction rest generalizing front ret with
  | nil => simp
  | cons item rest ih =>
    have hitem : (front ++ item :: rest).getD front.length [] = item := by
      rw [List.getD_eq_getElem?_getD, List.getElem?_append_right le_rfl, Nat.sub_self]
      rfl
    have hnext := ih (front ++ [item]) (ret ++ item)
    rw [List.length_append, List.length_singleton, List.append_assoc, List.singleton_append] at hnext
    rw [List.length_cons, List.range'_succ, List.foldl_cons, hitem, hnext, List.flatten_cons,
      List.append_assoc]

/-- All items of a list. -/
theorem join_all (list : List Bytes) : join list 0 npos = list.flatten :=
  join_loop [] list []

/-- One separator is a set of one. -/
theorem splitChar_eq_splitAny (hzero : s.NoZero) (c : UInt8) (keepSeparator : Bool) :
    s.splitChar c keepSeparator = s.splitAny (some [c]) keepSeparator := by
  rw [splitChar_eq hzero, splitAny_eq hzero]
  by_cases hc : c = 0
  · -- the set ends at the zero, which is not in the string
    have hchar : Free (fun d => decide (d = c)) s.data := fun d hd => by
      simp [hc, hzero d hd]
    have hany : Free (separates (some [c])) s.data := fun d _ => by
      simp [separates, cString, hc]
    rw [splitBy_free keepSeparator hchar, splitBy_free keepSeparator hany]
  · have hsame : (fun d => decide (d = c)) = separates (some [c]) := by
      funext d
      simp [separates, cString, hc]
    rw [hsame]

/-- **Split and join fit together**: the pieces that keep the separators are the
string again, each is a separator or a run without one, one separator is a set of
one, and the pieces without the separators are those that are none. -/
theorem split_join (s : NbiotString) (hzero : s.NoZero) (sep : Option Bytes) :
    ∃ pieces, s.splitAny sep true = some pieces ∧
      join pieces 0 npos = s.data ∧
      (pieces = [s.data] ∧ Free (separates sep) s.data ∨
        ∀ p ∈ pieces, (∃ c, separates sep c = true ∧ p = [c]) ∨
          (p ≠ [] ∧ Free (separates sep) p)) ∧
      (∀ c keepSeparator, s.splitChar c keepSeparator = s.splitAny (some [c]) keepSeparator) ∧
      ((∃ c ∈ s.data, separates sep c = false) →
        s.splitAny sep false = some (pieces.filter fun p => !isCut (separates sep) p)) := by
  refine ⟨_, splitAny_eq hzero sep true, ?_, ?_, splitChar_eq_splitAny hzero, ?_⟩
  · rw [join_all]
    by_cases hfree : Free (separates sep) s.data
    · rw [splitBy_free true hfree, List.flatten_singleton]
    · rw [splitBy_keep hfree, flatten_cuts, List.nil_append]
  · by_cases hfree : Free (separates sep) s.data
    · exact .inl ⟨splitBy_free true hfree, hfree⟩
    · right
      rw [splitBy_keep hfree]
      intro p hp
      exact mem_cuts free_nil hp
  · intro hother
    rw [splitAny_eq hzero]
    by_cases hfree : Free (separates sep) s.data
    · rw [splitBy_free false hfree, splitBy_free true hfree, List.filter_cons_of_pos]
      · rfl
      · rw [hfree.isCut_eq]
        rfl
    · rw [splitBy_cuts false hfree (.inr hother), splitBy_keep hfree]
      simp only [Bool.false_or]

/-- Separators at the start, in a row and at the end. -/
theorem split_join_commas :
    ∃ pieces, splitAny ⟨[44, 97, 44, 44, 98, 44], by decide⟩ (some [44]) true = some pieces ∧
      join pieces 0 npos = [44, 97, 44, 44, 98, 44] ∧
      (pieces = [[44, 97, 44, 44, 98, 44]] ∧
          Free (separates (some [44])) [44, 97, 44, 44, 98, 44] ∨
        ∀ p ∈ pieces, (∃ c, separates (some [44]) c = true ∧ p = [c]) ∨
          (p ≠ [] ∧ Free (separates (some [44])) p)) ∧
      (∀ c keepSeparator, splitChar ⟨[44, 97, 44, 44, 98, 44], by decide⟩ c keepSeparator =
        splitAny ⟨[44, 97, 44, 44, 98, 44], by decide⟩ (some [c]) keepSeparator) ∧
      ((∃ c ∈ [44, 97, 44, 44, 98, 44], separates (some [44]) c = false) →
        splitAny ⟨[44, 97, 44, 44, 98, 44], by decide⟩ (some [44]) false =
          some (pieces.filter fun p => !isCut (separates (some [44])) p)) :=
  split_join ⟨[44, 97, 44, 44, 98, 44], by decide⟩ (by simp [NoZero]) (some [44])

end NbiotString

end LibNbiot
