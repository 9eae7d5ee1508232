/-
# Unsubscribing a topic

An unsubscribe that is requested takes the topic out of the registry at once, and
with a wildcard topic the entries that it matches. Those go even if they were
subscribed by themselves. The other subscriptions stay.
-/

import LibNbiot.Laws.Removing
import LibNbiot.Laws.History
import Mathlib.Data.List.Find

namespace LibNbiot

open Logic.Program Ledger

namespace NbiotTopicRegistry

variable {r : NbiotTopicRegistry} {name name' : Bytes}

theorem hasTopic_eq (r : NbiotTopicRegistry) (name : Bytes) (flag : RegistrationFlag) :
    r.hasTopic name flag =
      (cString name ≠ [] && (r.registry.find? (·.hasName name)).any (·.isReg flag)) := by
  unfold hasTopic
  cases hfound : r.findTopic name with
  | some index =>
    have hname : cString name ≠ [] := by
      intro hempty
      rw [findTopic, if_pos hempty] at hfound
      cases hfound
    simp [find?_of_findTopic hfound, hname]
  | none =>
    unfold findTopic at hfound
    split at hfound
    · rename_i hempty
      simp [hempty]
    · have hno := List.findIdx?_eq_none_iff.1 hfound
      have hnone : r.registry.find? (·.hasName name) = none :=
        List.find?_eq_none.2 fun t ht => by simp [hno t ht]
      simp [hnone]

/-- The entry of a name splits the registry. -/
theorem split_of_findTopic {index : Nat} (h : r.findTopic name = some index) :
    ∃ topic after, r.registry = r.registry.take index ++ topic :: after ∧
      (r.registry.take index).length = index ∧ topic.hasName name = true := by
  have hname := List.find?_some (find?_of_findTopic h)
  unfold findTopic at h
  split at h
  · cases h
  · obtain ⟨hlt, -, -⟩ := List.findIdx?_eq_some_iff_getElem.1 h
    refine ⟨r.topicAt index, r.registry.drop (index + 1), ?_, List.length_take_of_le hlt.le, hname⟩
    rw [topicAt, List.getD_eq_getElem _ _ hlt, ← List.drop_eq_getElem_cons hlt,
      List.take_append_drop]

theorem takesAlong_of_hasName {topic t : NbiotTopic} (h : topic.hasName name = true) :
    topic.takesAlong t = (NbiotTopic.ofName name).takesAlong t := by
  have hname : topic.hasName (NbiotTopic.ofName name).topicName = true := by
    rw [NbiotTopic.hasName_iff, NbiotTopic.ofName, cString_cString]
    exact (NbiotTopic.hasName_iff _ _).1 h
  rw [NbiotTopic.takesAlong, NbiotTopic.takesAlong, NbiotTopic.isWildcardTopic_of_hasName hname,
    NbiotTopic.isTopicMatched_of_hasName hname]

/-- The entries of another name, after a topic was removed from its place. -/
theorem find?_removeTopic {index : Nat} (h : r.findTopic name = some index)
    (hfirst : ∀ t ∈ r.registry.take index, (NbiotTopic.ofName name).takesAlong t = false)
    (hother : cString name' ≠ cString name) :
    (r.removeTopic index).registry.find? (·.hasName name') =
      r.registry.find? fun t =>
        t.hasName name' && !(NbiotTopic.ofName name).takesAlong t := by
  obtain ⟨topic, after, hsplit, hlen, hname⟩ := split_of_findTopic h
  generalize r.registry.take index = before at hsplit hlen hfirst
  have htakes (t : NbiotTopic) := takesAlong_of_hasName (t := t) hname
  have hright := removeTopic_right hsplit fun t ht => (htakes t).trans (hfirst t ht)
  have hno : topic.hasName name' = false := by
    apply Bool.eq_false_of_not_eq_true
    intro hname'
    exact hother (((NbiotTopic.hasName_iff _ _).1 hname').symm.trans
      ((NbiotTopic.hasName_iff _ _).1 hname))
  have hstay : before.filter (!(NbiotTopic.ofName name).takesAlong ·) = before :=
    List.filter_eq_self.2 fun t ht => by simp [hfirst t ht]
  simp only [hlen, htakes] at hright
  rw [hright, ← hstay, ← List.filter_append, List.find?_filter, hsplit]
  simp [hno, Bool.and_comm]

/-- The flags of another name stay if its entries stay, and are gone if they go. -/
theorem hasTopic_removeTopic {index : Nat} (h : r.findTopic name = some index)
    (hfirst : ∀ t ∈ r.registry.take index, (NbiotTopic.ofName name).takesAlong t = false)
    (hother : cString name' ≠ cString name) (flag : RegistrationFlag) :
    ((∀ t ∈ r.registry, t.hasName name' = true → (NbiotTopic.ofName name).takesAlong t = false) →
        (r.removeTopic index).hasTopic name' flag = r.hasTopic name' flag) ∧
      ((∀ t ∈ r.registry, t.hasName name' = true → (NbiotTopic.ofName name).takesAlong t = true) →
        (r.removeTopic index).hasTopic name' flag = false) := by
  rw [hasTopic_eq, hasTopic_eq, find?_removeTopic h hfirst hother]
  constructor
  · intro hstay
    have hsame : r.registry.find? (fun t => t.hasName name' && !(NbiotTopic.ofName name).takesAlong t) =
        r.registry.find? (·.hasName name') := by
      refine List.find?_congr fun t ht => ?_
      by_cases hname : t.hasName name' = true
      · simp [hstay t ht hname]
      · simp [hname]
    rw [hsame]
  · intro hgo
    have hnone : r.registry.find?
        (fun t => t.hasName name' && !(NbiotTopic.ofName name).takesAlong t) = none := by
      refine List.find?_eq_none.2 fun t ht htrue => ?_
      rw [Bool.and_eq_true, Bool.not_eq_true'] at htrue
      exact Bool.false_ne_true (htrue.2.symm.trans (hgo t ht htrue.1))
    simp [hnone]

end NbiotTopicRegistry

/-! ## The law -/

/-- An unsubscribe that succeeds removes the entry of the topic. -/
theorem unsubscribe_removes {topic : Bytes} {s : Sys} (h : (unsubscribe topic s).1 = .success) :
    ∃ index, s.rest.registry.findTopic topic = some index ∧
      (unsubscribe topic s).2.rest.registry = s.rest.registry.removeTopic index := by
  obtain ⟨s₁, h₁, hsame₁⟩ := stateIs_asks .connected s
  have hregistry₁ : s₁.rest.registry = s.rest.registry := congrArg Ledger.registry hsame₁
  rw [unsubscribe, isConnected, run_bind, h₁] at h ⊢
  dsimp only at h ⊢
  split at h
  · rename_i hconnected
    rw [if_pos hconnected]
    rw [run_bind, getRegistry_eq, hregistry₁] at h ⊢
    cases hfound : s.rest.registry.findTopic topic with
    | none =>
      simp only [hfound, run_pure] at h
      cases h
    | some index =>
      refine ⟨index, rfl, ?_⟩
      simp only [hfound, run_bind, getRegistry_eq, hregistry₁] at h ⊢
      split at h
      · rename_i hsub
        rw [if_pos hsub]
        have hqueues := unsubscribe_queueing
          ((s.rest.registry.topicAt index).toSNTopic {} (topicNameAt s₁).1) (topicNameAt s₁).2
        rw [Ledger.topicNameAt_silent s₁, hsame₁] at hqueues
        rw [run_bind, run_bind] at h ⊢
        generalize Client.unsubscribe
          ((s.rest.registry.topicAt index).toSNTopic {} (topicNameAt s₁).1) (topicNameAt s₁).2 = r
          at h hqueues ⊢
        obtain ⟨cs, -, hqueued⟩ := hqueues
        have hregistry : r.2.rest.registry = s.rest.registry := congrArg Ledger.registry hqueued
        rw [← hregistry]
        split at h
        · cases h
        · rename_i hrc
          rw [if_neg hrc, run_bind, dropTopic, run_bind]
          show ((if _ then _ else _ : M Unit) _).2.rest.registry = _
          split <;> rfl
      · cases h
  · cases h

/-- **Unsubscribing one topic leaves other subscriptions alone**, those excepted
whose entries go along with a wildcard topic, provided that no entry before the
topic goes along. -/
theorem unsubscribe_spares (topic : Bytes) (s : Sys) (hsuccess : (unsubscribe topic s).1 = .success)
    (hfirst : ∀ index, s.rest.registry.findTopic topic = some index →
      ∀ t ∈ s.rest.registry.registry.take index, (NbiotTopic.ofName topic).takesAlong t = false)
    (name : Bytes) (hname : cString name ≠ cString topic) :
    ((∀ t ∈ s.rest.registry.registry, t.hasName name = true →
          (NbiotTopic.ofName topic).takesAlong t = false) →
        (unsubscribe topic s).2.rest.registry.hasTopic name .sub =
          s.rest.registry.hasTopic name .sub) ∧
      ((∀ t ∈ s.rest.registry.registry, t.hasName name = true →
          (NbiotTopic.ofName topic).takesAlong t = true) →
        (unsubscribe topic s).2.rest.registry.hasTopic name .sub = false) := by
  obtain ⟨index, hfound, hremoves⟩ := unsubscribe_removes hsuccess
  rw [hremoves]
  exact NbiotTopicRegistry.hasTopic_removeTopic hfound (hfirst index hfound) hname .sub

/-- A library that has subscribed a wildcard topic and then a topic it matches. -/
def subscribedTwice : Sys :=
  (Setting.script [[3], [5, 0], [8], [19, 0, 0, 9, 0, 1, 0], [8], [19, 0, 0, 10, 0, 2, 0]] 100).after
    (connecting 1 ++ .subscribe [97, slash, plus] (some 7) :: List.replicate 4 (.eventLoop .active) ++
      .subscribe [97, slash, 98] (some 8) :: List.replicate 4 (.eventLoop .active))

/-- The wildcard topic stays when the other one is unsubscribed. -/
theorem unsubscribe_spares_wildcard :
    (unsubscribe [97, slash, 98] subscribedTwice).1 = .success ∧
      (unsubscribe [97, slash, 98] subscribedTwice).2.rest.registry.hasTopic [97, slash, plus] .sub =
        subscribedTwice.rest.registry.hasTopic [97, slash, plus] .sub := by
  have hsuccess : (unsubscribe [97, slash, 98] subscribedTwice).1 = .success := by decide +kernel
  have hplain (t : NbiotTopic) : (NbiotTopic.ofName [97, slash, 98]).takesAlong t = false := rfl
  refine ⟨hsuccess, ?_⟩
  exact (unsubscribe_spares [97, slash, 98] subscribedTwice hsuccess (fun _ _ t _ => hplain t)
    [97, slash, plus] (by decide)).1 fun t _ _ => hplain t

/-- A topic that was subscribed by itself goes with the wildcard topic. -/
theorem not_unsubscribe_spares :
    (unsubscribe [97, slash, plus] subscribedTwice).1 = .success ∧
      ¬∀ name, cString name ≠ cString [97, slash, plus] →
        (unsubscribe [97, slash, plus] subscribedTwice).2.rest.registry.hasTopic name .sub =
          subscribedTwice.rest.registry.hasTopic name .sub := by
  have hsuccess : (unsubscribe [97, slash, plus] subscribedTwice).1 = .success := by decide +kernel
  have hbefore : subscribedTwice.rest.registry.hasTopic [97, slash, 98] .sub = true := by
    decide +kernel
  have hafter : (unsubscribe [97, slash, plus] subscribedTwice).2.rest.registry.hasTopic
      [97, slash, 98] .sub = false := by
    decide +kernel
  refine ⟨hsuccess, fun h => ?_⟩
  have hsame := h [97, slash, 98] (by decide)
  rw [hbefore, hafter] at hsame
  cases hsame

end LibNbiot
