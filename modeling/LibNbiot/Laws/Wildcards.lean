/-
# Topic filters

The matcher of topic filters walks over the bytes of the filter and of the name.
A topic has levels, and this is what it decides about them: a filter of literal
levels, with a `+` for any one level and a `#` for all the levels at the end,
neither of which may begin with an empty one.
-/

import LibNbiot.Topic
import LibNbiot.Logic.Splitting

namespace LibNbiot

open Logic

/-- The levels of a topic filter or name. -/
def topicLevels (topic : Bytes) : List Bytes := topic.splitOn slash

/-- A wildcard is a whole level, and `#` the last one. -/
structure WellFormedFilter (filter : Bytes) : Prop where
  plus : ∀ level ∈ topicLevels filter, LibNbiot.plus ∈ level → level = [LibNbiot.plus]
  hash : ∀ level ∈ topicLevels filter, LibNbiot.hash ∈ level → level = [LibNbiot.hash]
  last : ∀ level ∈ (topicLevels filter).dropLast, LibNbiot.hash ∉ level

/-- A filter matches a name level by level. -/
def matchLevels : List Bytes → List Bytes → Bool
  | [], levels => levels.isEmpty
  | _ :: _, [] => false
  | f :: filter, level :: levels =>
      if f = [hash] then !level.isEmpty
      else (if f = [plus] then !level.isEmpty else f = level) && matchLevels filter levels

/-! ## The matcher on one level -/

namespace NbiotTopic

/-- Literal bytes of a filter are bytes of the name. -/
theorem matchFilter_literal {level filter name : Bytes} (hslash : slash ∉ level)
    (hplus : plus ∉ level) (hhash : hash ∉ level) :
    matchFilter (level ++ filter) name = true ↔
      ∃ rest, name = level ++ rest ∧ matchFilter filter rest = true := by
  induction level generalizing name with
  | nil => simp
  | cons f level ih =>
    simp only [List.mem_cons, not_or] at hslash hplus hhash
    cases name with
    | nil => simp [matchFilter]
    | cons c name =>
      rw [List.cons_append, matchFilter]
      by_cases hsep : c = slash ∧ f ≠ slash
      · rw [if_pos hsep]
        refine iff_of_false Bool.false_ne_true ?_
        rintro ⟨rest, hname, -⟩
        exact hsep.2 ((List.cons.inj hname).1.symm.trans hsep.1)
      · rw [if_neg hsep]
        by_cases hsame : f = c
        · subst hsame
          simp [Ne.symm hplus.1, Ne.symm hhash.1, ih hslash.2 hplus.2 hhash.2]
        · rw [if_pos ⟨Ne.symm hplus.1, Ne.symm hhash.1, hsame⟩]
          refine iff_of_false Bool.false_ne_true ?_
          rintro ⟨rest, hname, -⟩
          exact hsame (List.cons.inj hname).1.symm

/-- What is left after a level: nothing, or a separator and more. -/
def Rest (rest : Bytes) : Prop := rest = [] ∨ ∃ more, rest = slash :: more

/-- The levels of what is left. -/
def restLevels : Bytes → List Bytes
  | [] => []
  | _ :: more => topicLevels more

theorem topicLevels_append {level rest : Bytes} (hlevel : slash ∉ level) (hrest : Rest rest) :
    topicLevels (level ++ rest) = level :: restLevels rest := by
  obtain rfl | ⟨more, rfl⟩ := hrest
  · rw [List.append_nil]
    exact List.splitOn_eq_singleton hlevel
  · exact List.splitOn_append_cons_self_of_not_mem hlevel more

/-- A level and what is left are told by the first separator. -/
theorem level_inj {level level' rest rest' : Bytes} (hlevel : slash ∉ level)
    (hlevel' : slash ∉ level') (hrest : Rest rest) (hrest' : Rest rest')
    (h : level ++ rest = level' ++ rest') : level = level' ∧ rest = rest' := by
  have hlevels := congrArg topicLevels h
  rw [topicLevels_append hlevel hrest, topicLevels_append hlevel' hrest'] at hlevels
  obtain ⟨rfl, -⟩ := List.cons.inj hlevels
  exact ⟨rfl, List.append_cancel_left h⟩

/-- A `+` takes a level that is not empty. -/
theorem matchFilter_plus {filter level rest : Bytes} (hlevel : slash ∉ level) (hrest : Rest rest) :
    matchFilter (plus :: filter) (level ++ rest) = true ↔
      level ≠ [] ∧ matchFilter filter rest = true := by
  cases level with
  | nil =>
    obtain rfl | ⟨more, rfl⟩ := hrest <;> simp [matchFilter, plus, slash]
  | cons c level =>
    have hc : c ≠ slash := fun h => hlevel (h ▸ List.mem_cons_self)
    have hskip : (level ++ rest).dropWhile (· ≠ slash) = rest := by
      have hall : ∀ b ∈ level, (b ≠ slash) := fun b hb h => hlevel (h ▸ List.mem_cons_of_mem _ hb)
      rw [List.dropWhile_append_of_pos (by simpa using hall)]
      obtain rfl | ⟨more, rfl⟩ := hrest <;> simp
    rw [List.cons_append, matchFilter, hskip]
    simp [hc]

/-- A `#` at the end takes all levels, unless the first one is empty. -/
theorem matchFilter_hash {level rest : Bytes} (hlevel : slash ∉ level) (hrest : Rest rest) :
    matchFilter [hash] (level ++ rest) = true ↔ level ≠ [] := by
  cases level with
  | nil =>
    obtain rfl | ⟨more, rfl⟩ := hrest <;> simp [matchFilter, hash, slash]
  | cons c level =>
    have hc : c ≠ slash := fun h => hlevel (h ▸ List.mem_cons_self)
    simp [matchFilter, hc, hash, plus]

theorem matchFilter_slash {filter rest : Bytes} :
    matchFilter (slash :: filter) rest = true ↔
      ∃ more, rest = slash :: more ∧ matchFilter filter more = true := by
  have hplus : slash ≠ plus := by decide
  have hhash : slash ≠ hash := by decide
  cases rest with
  | nil => simp [matchFilter]
  | cons c rest =>
    by_cases hc : slash = c
    · simp [matchFilter, ← hc, hplus, hhash]
    · simp [matchFilter, hc, Ne.symm hc, hplus, hhash]

/-! ## The matcher on all levels -/

theorem exists_rest (topic : Bytes) :
    ∃ level rest, slash ∉ level ∧ Rest rest ∧ topic = level ++ rest := by
  obtain h | ⟨level, more, hlevel, rfl⟩ := split_cases slash topic
  · exact ⟨topic, [], h, .inl rfl, (List.append_nil _).symm⟩
  · exact ⟨level, slash :: more, hlevel, .inr ⟨more, rfl⟩, rfl⟩

/-- What a filter matches starts with a separator if the filter does, and is empty
if the filter is. -/
theorem rest_of_matchFilter {filter name : Bytes} (hfilter : Rest filter)
    (h : matchFilter filter name = true) : Rest name := by
  obtain rfl | ⟨more, rfl⟩ := hfilter
  · exact .inl (by simpa [matchFilter] using h)
  · obtain ⟨more', rfl, -⟩ := matchFilter_slash.1 h
    exact .inr ⟨more', rfl⟩

/-- The first level is matched, and what is left. -/
theorem matchFilter_level {f filter level rest : Bytes} (hf : slash ∉ f) (hfilter : Rest filter)
    (hlevel : slash ∉ level) (hrest : Rest rest)
    (hwf : f = [plus] ∨ f = [hash] ∧ filter = [] ∨ plus ∉ f ∧ hash ∉ f)
    (ih : matchFilter filter rest = matchLevels (restLevels filter) (restLevels rest)) :
    matchFilter (f ++ filter) (level ++ rest) =
      matchLevels (f :: restLevels filter) (level :: restLevels rest) := by
  have hdistinct : plus ≠ hash := by decide
  apply Bool.eq_iff_iff.2
  obtain rfl | ⟨rfl, rfl⟩ | ⟨hplus, hhash⟩ := hwf
  · rw [List.singleton_append, matchFilter_plus hlevel hrest, ih]
    simp [matchLevels, hdistinct]
  · rw [List.append_nil, matchFilter_hash hlevel hrest]
    simp [matchLevels]
  · have hne : f ≠ [hash] ∧ f ≠ [plus] :=
      ⟨fun h => hhash (h ▸ List.mem_singleton.2 rfl), fun h => hplus (h ▸ List.mem_singleton.2 rfl)⟩
    have hliteral : matchFilter (f ++ filter) (level ++ rest) = true ↔
        f = level ∧ matchFilter filter rest = true := by
      rw [matchFilter_literal hf hplus hhash]
      constructor
      · rintro ⟨rest', hname, hmatch⟩
        obtain ⟨rfl, rfl⟩ := level_inj hlevel hf hrest (rest_of_matchFilter hfilter hmatch) hname
        exact ⟨rfl, hmatch⟩
      · rintro ⟨rfl, hmatch⟩
        exact ⟨rest, rfl, hmatch⟩
    rw [hliteral, ih]
    simp [matchLevels, hne.1, hne.2]

end NbiotTopic

/-- The first level of a longer filter is no `#`, and the rest is well formed too. -/
theorem WellFormedFilter.cut {f filter : Bytes} (hf : slash ∉ f)
    (hwf : WellFormedFilter (f ++ slash :: filter)) :
    (f = [LibNbiot.plus] ∨ LibNbiot.plus ∉ f ∧ LibNbiot.hash ∉ f) ∧ WellFormedFilter filter := by
  obtain ⟨hplus, hhash, hlast⟩ := hwf
  have hlevels : topicLevels (f ++ slash :: filter) = f :: topicLevels filter :=
    List.splitOn_append_cons_self_of_not_mem hf filter
  have hne : topicLevels filter ≠ [] := List.splitOn_ne_nil slash filter
  rw [hlevels] at hplus hhash hlast
  rw [List.dropLast_cons_of_ne_nil hne] at hlast
  refine ⟨?_, fun level h => hplus level (.tail _ h), fun level h => hhash level (.tail _ h),
    fun level h => hlast level (.tail _ h)⟩
  by_cases h : LibNbiot.plus ∈ f
  · exact .inl (hplus f (.head _) h)
  · exact .inr ⟨h, hlast f (.head _)⟩

namespace NbiotTopic

theorem matchFilter_eq {filter name : Bytes} (hwf : WellFormedFilter filter) :
    matchFilter filter name = matchLevels (topicLevels filter) (topicLevels name) := by
  induction filter using split_induction (a := slash) generalizing name with
  | last f hf =>
    obtain ⟨level, rest, hlevel, hrest, rfl⟩ := exists_rest name
    have hone : topicLevels f = [f] := List.splitOn_eq_singleton hf
    have hkind : f = [plus] ∨ f = [hash] ∧ ([] : Bytes) = [] ∨ plus ∉ f ∧ hash ∉ f := by
      have hmem : f ∈ topicLevels f := hone ▸ List.mem_singleton.2 rfl
      have hplus := hwf.plus f hmem
      have hhash := hwf.hash f hmem
      tauto
    have hempty : matchFilter [] rest = matchLevels (restLevels []) (restLevels rest) := by
      obtain rfl | ⟨more, rfl⟩ := hrest
      · rfl
      · simp [matchFilter, matchLevels, restLevels, topicLevels]
    have hmatch := matchFilter_level hf (.inl rfl) hlevel hrest hkind hempty
    rw [List.append_nil] at hmatch
    rw [hmatch, topicLevels_append hlevel hrest, hone]
    rfl
  | cut f filter hf ih =>
    obtain ⟨level, rest, hlevel, hrest, rfl⟩ := exists_rest name
    obtain ⟨hkind, hwf⟩ := hwf.cut hf
    have hmore : matchFilter (slash :: filter) rest =
        matchLevels (restLevels (slash :: filter)) (restLevels rest) := by
      obtain rfl | ⟨more, rfl⟩ := hrest
      · -- the filter has a level more than the name
        obtain ⟨f', levels, hlevels⟩ := List.exists_cons_of_ne_nil (List.splitOn_ne_nil slash filter)
        have hlevels : topicLevels filter = f' :: levels := hlevels
        rw [restLevels, restLevels, hlevels]
        rfl
      · have hslash : matchFilter (slash :: filter) (slash :: more) = matchFilter filter more := by
          apply Bool.eq_iff_iff.2
          simp [matchFilter_slash]
        rw [hslash]
        exact ih hwf
    rw [matchFilter_level hf (.inr ⟨filter, rfl⟩) hlevel hrest
      (hkind.imp_right .inr) hmore, topicLevels_append hlevel hrest,
      topicLevels_append hf (.inr ⟨filter, rfl⟩)]

/-- **Wildcard matching is level-wise**: for every well-formed filter and every
name the matcher answers as the levels do. -/
theorem isTopicMatched_eq (t topic : NbiotTopic) (hwf : WellFormedFilter (cString t.topicName)) :
    t.isTopicMatched topic =
      matchLevels (topicLevels (cString t.topicName)) (topicLevels topic.topicName) :=
  matchFilter_eq hwf

/-- The filter `a/#` matches `a/b/c`. -/
theorem isTopicMatched_eq_hash :
    (ofName [97, slash, LibNbiot.hash]).isTopicMatched (ofName [97, slash, 98, slash, 99]) =
      matchLevels [[97], [LibNbiot.hash]] [[97], [98], [99]] :=
  isTopicMatched_eq (ofName [97, slash, LibNbiot.hash]) (ofName [97, slash, 98, slash, 99])
    ⟨by decide, by decide, by decide⟩

end NbiotTopic

end LibNbiot
