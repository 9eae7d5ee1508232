/-
# Removing a topic

Removing a wildcard topic removes the entries that it matches as well. They go
one by one, from the end, and the topic itself goes last, from the place where it
was at first. That place is still its own only if none of the entries before it
has gone.
-/

import LibNbiot.Laws.Registry

namespace LibNbiot

/-- An entry goes along with a wildcard topic that matches it. -/
def NbiotTopic.takesAlong (topic t : NbiotTopic) : Bool :=
  topic.isWildcardTopic && topic.isTopicMatched t

namespace NbiotTopicRegistry

variable {r : NbiotTopicRegistry} {before after : List NbiotTopic} {topic : NbiotTopic}

/-- After the removal the entry at the place is gone, every other one that does not
go along with it is there in the old order, and nothing is new. -/
structure RemovesRight (r : NbiotTopicRegistry) (index : Nat) (r' : NbiotTopicRegistry) : Prop where
  gone : r.topicAt index ∉ r'.registry
  kept : ((r.registry.eraseIdx index).filter (!(r.topicAt index).takesAlong ·)).Sublist r'.registry
  nothingNew : r'.registry.Sublist (r.registry.eraseIdx index)

/-! ## The backward loop -/

/-- Below the place of the topic every entry that it matches goes. -/
theorem removeMatched_before {index : Nat} (h : before.length ≤ index) (rest : List NbiotTopic) :
    removeMatched topic index before.length (before ++ rest) =
      before.filter (!topic.isTopicMatched ·) ++ rest := by
  induction before using List.reverseRecOn generalizing rest with
  | nil => rfl
  | append_singleton before t ih =>
    have hlt : before.length < index := by
      rw [List.length_append, List.length_singleton] at h
      omega
    have hlast : (before ++ [t] ++ rest).getD before.length {} = t := by simp
    rw [List.length_append, List.length_singleton, removeMatched, hlast]
    by_cases hmatched : topic.isTopicMatched t = true
    · rw [if_pos ⟨by omega, hmatched⟩, List.append_assoc, List.eraseIdx_append_of_length_le le_rfl,
        Nat.sub_self]
      rw [show ([t] ++ rest).eraseIdx 0 = rest from rfl, ih (by omega)]
      simp [hmatched]
    · rw [if_neg fun h => hmatched h.2, List.append_assoc, ih (by omega)]
      simp [hmatched]

/-- The loop leaves the topic itself and the entries that it does not match. -/
theorem removeMatched_all (rest : List NbiotTopic) :
    removeMatched topic before.length (before.length + 1 + after.length)
        (before ++ topic :: (after ++ rest)) =
      before.filter (!topic.isTopicMatched ·) ++
        topic :: (after.filter (!topic.isTopicMatched ·) ++ rest) := by
  induction after using List.reverseRecOn generalizing rest with
  | nil =>
    rw [List.length_nil, Nat.add_zero, removeMatched, if_neg fun h => h.1 rfl,
      removeMatched_before le_rfl]
    rfl
  | append_singleton after t ih =>
    have hlen : before.length + 1 + (after ++ [t]).length = before.length + 1 + after.length + 1 := by
      simp [Nat.add_assoc]
    have hsplit : before ++ topic :: (after ++ [t] ++ rest) =
        (before ++ topic :: after) ++ t :: rest := by
      simp
    have hplace : (before ++ topic :: after).length = before.length + 1 + after.length := by
      rw [List.length_append, List.length_cons]
      omega
    have hlast : ((before ++ topic :: after) ++ t :: rest).getD (before.length + 1 + after.length) {} =
        t := by
      simp [← hplace]
    rw [hlen, removeMatched, hsplit, hlast]
    by_cases hmatched : topic.isTopicMatched t = true
    · rw [if_pos ⟨by omega, hmatched⟩, List.eraseIdx_append_of_length_le (by omega), hplace,
        Nat.sub_self, List.eraseIdx_zero, List.tail_cons]
      have hrest := ih rest
      rw [← List.cons_append, ← List.append_assoc] at hrest
      rw [hrest]
      simp [hmatched]
    · rw [if_neg fun h => hmatched h.2]
      have hrest := ih (t :: rest)
      rw [← List.cons_append, ← List.append_assoc] at hrest
      rw [hrest]
      simp [hmatched]

/-- What a removal leaves: of the entries that stay and the topic, the one at the
old place of the topic goes. -/
theorem removeTopic_split (h : r.registry = before ++ topic :: after) :
    (r.removeTopic before.length).registry =
      (before.filter (!topic.takesAlong ·) ++ topic :: after.filter (!topic.takesAlong ·)).eraseIdx
        before.length := by
  have hat : r.topicAt before.length = topic := by simp [topicAt, h]
  have hlen : (before ++ topic :: after).length = before.length + 1 + after.length := by
    rw [List.length_append, List.length_cons]
    omega
  rw [removeTopic, hat]
  by_cases hwild : topic.isWildcardTopic = true
  · have hall := @removeMatched_all before after topic []
    rw [List.append_nil, List.append_nil] at hall
    simp only [hwild, if_true, h, hlen, hall, NbiotTopic.takesAlong, Bool.true_and]
  · simp [hwild, h, NbiotTopic.takesAlong]

/-- Where no entry before the topic goes along, the topic is the one that goes. -/
theorem removeTopic_right (h : r.registry = before ++ topic :: after)
    (hbefore : ∀ t ∈ before, topic.takesAlong t = false) :
    (r.removeTopic before.length).registry = before ++ after.filter (!topic.takesAlong ·) := by
  have hstay : before.filter (!topic.takesAlong ·) = before :=
    List.filter_eq_self.2 fun t ht => by simp [hbefore t ht]
  rw [removeTopic_split h, hstay, List.eraseIdx_append_of_length_le le_rfl, Nat.sub_self]
  rfl

/-- Where an entry before the topic goes along, the topic stays. -/
theorem mem_removeTopic (h : r.registry = before ++ topic :: after) {t : NbiotTopic}
    (ht : t ∈ before) (htakes : topic.takesAlong t = true) :
    topic ∈ (r.removeTopic before.length).registry := by
  have hshort : (before.filter (!topic.takesAlong ·)).length < before.length :=
    List.length_filter_lt_length_iff_exists.2 ⟨t, ht, by simp [htakes]⟩
  have hle : (before.filter (!topic.takesAlong ·) ++ [topic]).length ≤ before.length := by
    rw [List.length_append, List.length_singleton]
    omega
  rw [removeTopic_split h, ← List.singleton_append, ← List.append_assoc,
    List.eraseIdx_append_of_length_le hle]
  exact List.mem_append_left _ (List.mem_append_right _ (List.mem_singleton.2 rfl))

/-! ## The law -/

theorem removesRight_iff (hr : r.WellNamed) (h : r.registry = before ++ topic :: after) :
    RemovesRight r before.length (r.removeTopic before.length) ↔
      ∀ t ∈ before, topic.takesAlong t = false := by
  have hat : r.topicAt before.length = topic := by simp [topicAt, h]
  have hothers : r.registry.eraseIdx before.length = before ++ after := by
    rw [h, List.eraseIdx_append_of_length_le le_rfl, Nat.sub_self]
    rfl
  constructor
  · intro hright t ht
    apply Bool.eq_false_of_not_eq_true
    intro htakes
    apply hright.gone
    rw [hat]
    exact mem_removeTopic h ht htakes
  · intro hbefore
    have hstay : before.filter (!topic.takesAlong ·) = before :=
      List.filter_eq_self.2 fun t ht => by simp [hbefore t ht]
    have hleft := removeTopic_right h hbefore
    refine ⟨?_, ?_, ?_⟩
    · -- the names of the other entries are different
      rw [hat, hleft]
      have hnames := hr.keyed.pairwise
      rw [h, List.pairwise_append, List.pairwise_cons] at hnames
      obtain ⟨-, ⟨hafter, -⟩, hbefore'⟩ := hnames
      intro hmem
      obtain hmem | hmem := List.mem_append.1 hmem
      · exact hbefore' topic hmem topic List.mem_cons_self rfl
      · exact hafter topic (List.mem_of_mem_filter hmem) rfl
    · rw [hat, hothers, hleft, List.filter_append, hstay]
    · rw [hothers, hleft]
      exact (List.filter_sublist).append_left before

/-- **Removing a topic removes the right entries** exactly if it is no wildcard
topic that matches an entry before it: else the topic stays. -/
theorem removesRight_after_iff (calls : List RegistryCall) (index : Nat)
    (hindex : index < (run {} calls).topicCount) :
    RemovesRight (run {} calls) index ((run {} calls).removeTopic index) ↔
      (((run {} calls).topicAt index).isWildcardTopic = true →
        ∀ t ∈ (run {} calls).registry.take index,
          ((run {} calls).topicAt index).isTopicMatched t = false) := by
  have hr := WellNamed.fresh.run calls
  generalize run {} calls = r at hr hindex ⊢
  have hindex : index < r.registry.length := hindex
  have hat : r.topicAt index = r.registry[index] := List.getD_eq_getElem _ _ hindex
  have hsplit : r.registry = r.registry.take index ++ r.topicAt index :: r.registry.drop (index + 1) := by
    rw [hat, ← List.drop_eq_getElem_cons hindex, List.take_append_drop]
  have hlen : (r.registry.take index).length = index := List.length_take_of_le hindex.le
  have hright := removesRight_iff hr hsplit
  rw [hlen] at hright
  rw [hright]
  constructor
  · intro h hwild t ht
    simpa [NbiotTopic.takesAlong, hwild] using h t ht
  · intro h t ht
    by_cases hwild : (r.topicAt index).isWildcardTopic = true
    · rw [NbiotTopic.takesAlong, h hwild t ht, Bool.and_false]
    · simp [NbiotTopic.takesAlong, hwild]

/-- A wildcard topic in front of an entry that it matches. -/
theorem removesRight_after_wildcard_first :
    RemovesRight (run {} [.insertTopic (.ofName [97, slash, plus]), .insertTopic (.ofName [97, slash, 98])])
      0 ((run {} [.insertTopic (.ofName [97, slash, plus]),
        .insertTopic (.ofName [97, slash, 98])]).removeTopic 0) :=
  (removesRight_after_iff [.insertTopic (.ofName [97, slash, plus]),
    .insertTopic (.ofName [97, slash, 98])] 0 (by decide)).2 (by decide)

/-- Behind an entry that it matches, the wildcard topic stays. -/
theorem not_removesRight_after_wildcard_last :
    1 < (run {} [.insertTopic (.ofName [97, slash, 98]),
      .insertTopic (.ofName [97, slash, plus])]).topicCount ∧
    ¬RemovesRight (run {} [.insertTopic (.ofName [97, slash, 98]),
        .insertTopic (.ofName [97, slash, plus])])
      1 ((run {} [.insertTopic (.ofName [97, slash, 98]),
        .insertTopic (.ofName [97, slash, plus])]).removeTopic 1) := by
  refine ⟨by decide, fun h => h.gone ?_⟩
  decide

end NbiotTopicRegistry

end LibNbiot
