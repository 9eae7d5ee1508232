/-
# The handler of a subscribe

A subscribe ends with its loop, when the topic of the loop is inserted into the
registry, or at once, when the topic is subscribed already and only its handler
is attached. An insertion assigns to the entry of that name, if there is one, and
an assignment keeps the handler that the entry holds. So the handler of the
subscribe is installed if the entry held none or the same, the topic has a name
and is valid with the id of the SUBACK, and no entry before it answers to that
id.
-/

import LibNbiot.Laws.History
import LibNbiot.Ledger.Topics

namespace LibNbiot

open Logic.Program Relation

/-! ## The law -/

/-- The entry of a name holds exactly a handler, and a message for the id of the
entry goes to that handler. -/
def NbiotTopicRegistry.Installs (r : NbiotTopicRegistry) (name : Bytes)
    (mh : Option MessageHandler) : Prop :=
  ∃ index ∈ r.findTopic name, (r.topicAt index).mh = mh ∧
    (r.messageDispatcher (r.topicAt index).id).2.1.map Prod.fst = mh

instance (r : NbiotTopicRegistry) (name : Bytes) (mh : Option MessageHandler) :
    Decidable (r.Installs name mh) := by
  unfold NbiotTopicRegistry.Installs
  infer_instance

namespace Installation

/-- The subscribe has installed its handler. -/
def Installed (i : Installation) : Prop := ∃ call ∈ i.call, i.after.Installs call.1 call.2

/-- The topic of the subscribe has a name and is valid, no entry before the one of
its name answers to its id, and behind a loop that entry holds no other handler. -/
def Installable (i : Installation) : Prop :=
  ∀ call ∈ i.call, cString call.1 ≠ [] ∧ i.topic.valid = true ∧
    (∀ t ∈ i.before.registry.takeWhile (!·.hasName call.1), t.valid = true → t.id ≠ i.topic.id) ∧
      (i.looped = true → ∀ t ∈ i.before.registry.find? (·.hasName call.1),
        t.mh = none ∨ t.mh = call.2)

instance (i : Installation) : Decidable i.Installed := by
  unfold Installed
  infer_instance

instance (i : Installation) : Decidable i.Installable := by
  unfold Installable
  infer_instance

/-- What the library does at the end of a subscribe. -/
inductive Made : Installation → Prop
  | looped (name : Bytes) (topic : NbiotTopic) (before : NbiotTopicRegistry)
      (hname : topic.hasName name = true) :
      Made ⟨some (name, topic.mh), true, topic, before, before.subscribed topic⟩
  | attached (name : Bytes) (mh : Option MessageHandler) (index : Nat)
      (before : NbiotTopicRegistry) (h : before.findTopic name = some index) :
      Made ⟨some (name, mh), false, before.topicAt index, before,
        before.attachMessageHandler index mh⟩

end Installation

/-! ## Registries with an entry of the name -/

theorem NbiotTopic.hasName_congr {name name' : Bytes} (h : cString name = cString name')
    (t : NbiotTopic) : t.hasName name = t.hasName name' := by
  rw [hasName, hasName, h]

/-- Only the handlers of other names change. -/
def Spared (name : Bytes) (f : NbiotTopic → NbiotTopic) : Prop :=
  ∀ t, f t = t ∨ t.hasName name = false ∧ ∃ mh, f t = { t with mh := mh }

theorem Spared.same {name : Bytes} {f : NbiotTopic → NbiotTopic} (hf : Spared name f)
    {t : NbiotTopic} (h : t.hasName name = true) : f t = t :=
  (hf t).resolve_right fun hother => Bool.false_ne_true (hother.1.symm.trans h)

theorem Spared.alike {name : Bytes} {f : NbiotTopic → NbiotTopic} (hf : Spared name f)
    (t : NbiotTopic) :
    (f t).hasName name = t.hasName name ∧ (f t).valid = t.valid ∧ (f t).id = t.id := by
  obtain h | ⟨-, mh, h⟩ := hf t
  · rw [h]
    exact ⟨rfl, rfl, rfl⟩
  · rw [h]
    exact ⟨rfl, rfl, rfl⟩

theorem Spared.congr {name name' : Bytes} {f : NbiotTopic → NbiotTopic} (hf : Spared name f)
    (h : cString name = cString name') : Spared name' f := fun t =>
  (hf t).imp_right fun ht => ⟨(NbiotTopic.hasName_congr h t).symm.trans ht.1, ht.2⟩

theorem spared_id (name : Bytes) : Spared name id := fun _ => .inl rfl

namespace NbiotTopicRegistry

variable {r : NbiotTopicRegistry} {name : Bytes} {pre post : List NbiotTopic} {t : NbiotTopic}

/-- The first entry of a name, and what stands before and behind it. -/
theorem split_at (l : List NbiotTopic) (name : Bytes) :
    (∀ t ∈ l, t.hasName name = false) ∨
      ∃ t post, l = l.takeWhile (!·.hasName name) ++ t :: post ∧ t.hasName name = true ∧
        l.find? (·.hasName name) = some t := by
  induction l with
  | nil => exact .inl nofun
  | cons u l ih =>
    by_cases hu : u.hasName name = true
    · exact .inr ⟨u, l, by simp [hu], hu, by simp [hu]⟩
    · have hno : u.hasName name = false := Bool.eq_false_of_not_eq_true hu
      obtain h | ⟨t, post, hl, ht, hfind⟩ := ih
      · exact .inl fun t ht => by
          obtain rfl | ht := List.mem_cons.1 ht
          · exact hno
          · exact h t ht
      · refine .inr ⟨t, post, ?_, ht, by simp [hno, hfind]⟩
        simp only [List.takeWhile_cons, hno, Bool.not_false, if_true, List.cons_append,
          List.cons.injEq, true_and]
        exact hl

theorem findIdx?_split (hpre : ∀ u ∈ pre, u.hasName name = false) (ht : t.hasName name = true) :
    (pre ++ t :: post).findIdx? (·.hasName name) = some pre.length := by
  have hnone : pre.findIdx? (·.hasName name) = none := List.findIdx?_eq_none_iff.2 hpre
  simp [List.findIdx?_append, hnone, List.findIdx?_cons, ht]

theorem getD_split : (pre ++ t :: post).getD pre.length {} = t := by simp [List.getD]

theorem modify_split {f : NbiotTopic → NbiotTopic} :
    (pre ++ t :: post).modify pre.length f = pre ++ f t :: post := by
  rw [List.modify_eq_take_cons_drop (by simp)]
  simp

/-- The first entry of the name holds the handler, and no earlier one answers to
its id. -/
theorem installs_of_split {f : NbiotTopic → NbiotTopic} (hf : Spared name f)
    (hr : r.registry = (pre ++ t :: post).map f) (hname : cString name ≠ [])
    (hpre : ∀ u ∈ pre, u.hasName name = false) (ht : t.hasName name = true)
    (hvalid : t.valid = true) (hids : ∀ u ∈ pre, u.valid = true → u.id ≠ t.id) :
    r.Installs name t.mh := by
  rw [List.map_append, List.map_cons, hf.same ht] at hr
  have hpre' : ∀ u ∈ pre.map f, u.hasName name = false := fun u hu => by
    obtain ⟨v, hv, rfl⟩ := List.mem_map.1 hu
    rw [(hf.alike v).1]
    exact hpre v hv
  have hfind : (pre.map f).find? (fun u => u.valid && decide (u.id = t.id)) = none := by
    refine List.find?_eq_none.2 fun u hu => ?_
    obtain ⟨v, hv, rfl⟩ := List.mem_map.1 hu
    rw [(hf.alike v).2.1, (hf.alike v).2.2]
    intro h
    simp only [Bool.and_eq_true, decide_eq_true_eq] at h
    exact hids v hv h.1 h.2
  have hentry : r.topicAt (pre.map f).length = t := by
    rw [topicAt, hr]
    exact getD_split
  refine ⟨(pre.map f).length, ?_, by rw [hentry], ?_⟩
  · rw [findTopic, if_neg hname, hr]
    exact findIdx?_split hpre' ht
  · have hserves : r.registry.find? (fun u => u.valid && decide (u.id = t.id)) = some t := by
      rw [hr, List.find?_append, hfind]
      simp [hvalid]
    rw [hentry, messageDispatcher, hserves]
    cases hmh : t.mh <;> simp [hmh]

/-! ## What the end of a subscribe does to the entries -/

/-- Handing on the handler of a wildcard spares the wildcard's own name. -/
theorem updateMatched_spared (registry : List NbiotTopic) (wildcard : NbiotTopic)
    (mh : Option MessageHandler) :
    ∃ f, Spared wildcard.topicName f ∧ updateMatched registry wildcard mh = registry.map f := by
  refine ⟨_, fun t => ?_, rfl⟩
  split
  · rename_i h
    simp only [Bool.and_eq_true, Bool.not_eq_true'] at h
    exact .inr ⟨h.1.1, mh, rfl⟩
  · exact .inl rfl

theorem updateWildcard_spared (r : NbiotTopicRegistry) (topic : NbiotTopic) :
    ∃ f, Spared topic.topicName f ∧
      (r.updateWildcardMessageHandler topic).registry = r.registry.map f := by
  unfold updateWildcardMessageHandler
  split
  · split
    · rename_i index hindex
      obtain ⟨hlt, hname, -⟩ := List.findIdx?_eq_some_iff_getElem.1 hindex
      have hentry : cString (r.topicAt index).topicName = cString topic.topicName := by
        rw [topicAt, List.getD_eq_getElem _ _ hlt]
        exact of_decide_eq_true hname
      obtain ⟨f, hf, h⟩ := updateMatched_spared r.registry (r.topicAt index) topic.mh
      exact ⟨f, hf.congr hentry, h⟩
    · exact ⟨id, spared_id _, (List.map_id _).symm⟩
  · exact ⟨id, spared_id _, (List.map_id _).symm⟩

theorem insertTopic_appends {topic : NbiotTopic} (hname : topic.topicName ≠ [])
    (h : ∀ t ∈ r.registry, t.hasName topic.topicName = false) :
    (r.insertTopic topic).registry = r.registry ++ [topic] := by
  have hnone : r.registry.findIdx? (·.hasName topic.topicName) = none :=
    List.findIdx?_eq_none_iff.2 h
  rw [insertTopic, if_neg (by simpa using hname), hnone]

theorem insertTopic_assigns {topic : NbiotTopic} (hname : topic.topicName ≠ [])
    (hr : r.registry = pre ++ t :: post) (hpre : ∀ u ∈ pre, u.hasName topic.topicName = false)
    (ht : t.hasName topic.topicName = true) :
    (r.insertTopic topic).registry = pre ++ t.assign topic :: post := by
  rw [insertTopic, if_neg (by simpa using hname), hr, findIdx?_split hpre ht]
  exact modify_split

/-- The entry that a loop leaves holds the handler of its topic. -/
theorem installs_subscribed {topic : NbiotTopic} (hname : cString name ≠ [])
    (htopic : topic.hasName name = true) (hvalid : topic.valid = true)
    (hids : ∀ u ∈ r.registry.takeWhile (!·.hasName name), u.valid = true → u.id ≠ topic.id)
    (hmh : ∀ u ∈ r.registry.find? (·.hasName name), u.mh = none ∨ u.mh = topic.mh) :
    (r.subscribed topic).Installs name topic.mh := by
  have hsame : cString topic.topicName = cString name := of_decide_eq_true htopic
  have hproper : topic.topicName ≠ [] := fun hnil => hname (by rw [← hsame, hnil]; rfl)
  rw [subscribed, if_pos hvalid]
  obtain ⟨f, hf, hr⟩ := updateWildcard_spared (r.insertTopic topic) topic
  have hf' : Spared name f := hf.congr hsame
  obtain hnone | ⟨old, post, hsplit, hold, hfind⟩ := split_at r.registry name
  · have hnone' : ∀ t ∈ r.registry, t.hasName topic.topicName = false := fun t ht => by
      rw [NbiotTopic.hasName_congr hsame]
      exact hnone t ht
    have hall : r.registry.takeWhile (!·.hasName name) = r.registry :=
      List.takeWhile_eq_self_iff.2 fun t ht => by rw [hnone t ht]; rfl
    rw [hall] at hids
    rw [insertTopic_appends hproper hnone'] at hr
    exact installs_of_split hf' hr hname hnone htopic hvalid hids
  · have hpre : ∀ u ∈ r.registry.takeWhile (!·.hasName name), u.hasName name = false := fun u hu => by
      simpa using List.mem_takeWhile_imp hu
    have hpre' : ∀ u ∈ r.registry.takeWhile (!·.hasName name),
        u.hasName topic.topicName = false := fun u hu => by
      rw [NbiotTopic.hasName_congr hsame]
      exact hpre u hu
    have hold' : old.hasName topic.topicName = true := by
      rw [NbiotTopic.hasName_congr hsame]
      exact hold
    have hassigned : (old.assign topic).mh = topic.mh := by
      obtain hno | hsame := hmh old hfind
      · simp [NbiotTopic.assign, hno]
      · rw [NbiotTopic.assign, hsame, ite_self]
    rw [insertTopic_assigns hproper hsplit hpre' hold'] at hr
    rw [← hassigned]
    exact installs_of_split hf' hr hname hpre htopic hvalid hids

/-- An entry that a handler is attached to holds that handler. -/
theorem installs_attached {index : Nat} {mh : Option MessageHandler} (hname : cString name ≠ [])
    (hindex : r.findTopic name = some index) (hvalid : (r.topicAt index).valid = true)
    (hids : ∀ u ∈ r.registry.takeWhile (!·.hasName name),
      u.valid = true → u.id ≠ (r.topicAt index).id) :
    (r.attachMessageHandler index mh).Installs name mh := by
  rw [findTopic, if_neg hname] at hindex
  obtain hnone | ⟨old, post, hsplit, hold, -⟩ := split_at r.registry name
  · rw [List.findIdx?_eq_none_iff.2 hnone] at hindex
    cases hindex
  · have hpre : ∀ u ∈ r.registry.takeWhile (!·.hasName name), u.hasName name = false := fun u hu => by
      simpa using List.mem_takeWhile_imp hu
    generalize r.registry.takeWhile (!·.hasName name) = pre at hsplit hpre hids
    rw [hsplit, findIdx?_split hpre hold] at hindex
    obtain rfl : pre.length = index := Option.some.inj hindex
    have hentry : r.topicAt pre.length = old := by
      rw [topicAt, hsplit]
      exact getD_split
    have hlt : pre.length < r.registry.length := by
      rw [hsplit]
      simp
    have hself : cString (r.topicAt pre.length).topicName = cString name := by
      rw [hentry]
      exact of_decide_eq_true hold
    have hattached : ∃ f, Spared name f ∧ (r.attachMessageHandler pre.length mh).registry =
        (pre ++ { old with mh := mh } :: post).map f := by
      rw [attachMessageHandler, if_pos hlt, hsplit, modify_split]
      dsimp only
      split
      · obtain ⟨f, hf, h⟩ := updateMatched_spared (pre ++ { old with mh := mh } :: post)
          (r.topicAt pre.length) mh
        exact ⟨f, hf.congr hself, h⟩
      · exact ⟨id, spared_id _, (List.map_id _).symm⟩
    obtain ⟨f, hf, hr⟩ := hattached
    rw [hentry] at hvalid hids
    exact installs_of_split hf hr hname hpre hold hvalid hids

end NbiotTopicRegistry

theorem Installation.Made.installed {i : Installation} (h : i.Made) (hi : i.Installable) :
    i.Installed := by
  cases h with
  | looped name topic before htopic =>
    obtain ⟨hname, hvalid, hids, hmh⟩ := hi _ rfl
    exact ⟨_, rfl, before.installs_subscribed hname htopic hvalid hids (hmh rfl)⟩
  | attached name mh index before hindex =>
    obtain ⟨hname, hvalid, hids, -⟩ := hi _ rfl
    exact ⟨_, rfl, before.installs_attached hname hindex hvalid hids⟩

/-! ## Every end of a subscribe is one of these -/

/-- The current topic is the one of the subscribe that waits for its loop. -/
structure Ledger.Installing (k : Ledger) : Prop where
  asked : k.Subscribing → ∃ name, k.asked = some (name, k.currentTopic.mh) ∧
    k.currentTopic.hasName name = true
  exclusive : k.Registering → ¬k.Subscribing
  made : ∀ i ∈ k.installed, i.Made

namespace Ledger.Installing

variable {k k' : Ledger}

theorem of_idles (h : k.Installing) (hidles : k.Idles k')
    (hname : k'.currentTopic.topicName = k.currentTopic.topicName)
    (hmh : k'.currentTopic.mh = k.currentTopic.mh) (hasked : k'.asked = k.asked)
    (hmade : ∀ i ∈ k'.installed, i.Made) : k'.Installing := by
  refine ⟨fun hsub => ?_, fun hreg hsub => ?_, hmade⟩
  · obtain ⟨name, hcall, htopic⟩ := h.asked (hidles.subscribing hsub)
    refine ⟨name, by rw [hasked, hmh]; exact hcall, ?_⟩
    rw [NbiotTopic.hasName, hname]
    exact htopic
  · exact h.exclusive (hidles.registering hreg) (hidles.subscribing hsub)

theorem untouched (h : k.Installing) (hidles : k.Idles k') (huntouched : k.Untouched k') :
    k'.Installing :=
  h.of_idles hidles (by rw [huntouched.currentTopic]) (by rw [huntouched.currentTopic])
    huntouched.asked (huntouched.installed ▸ h.made)

theorem settle (h : k.Installing) : k.settle.Installing := by
  have hidles : k.Idles k.settle := ⟨id, id⟩
  have hmade : ∀ i ∈ k.settle.installed, i.Made := h.made
  cases hloop : k.loopId with
  | register =>
    have hno : ¬k.Subscribing := h.exclusive (.inl hloop)
    exact ⟨fun hsub => absurd (hidles.subscribing hsub) hno, fun _ hsub =>
      hno (hidles.subscribing hsub), hmade⟩
  | _ =>
    refine h.of_idles hidles ?_ ?_ rfl hmade <;> simp only [Ledger.settle, registeredTopic, hloop] <;> rfl

end Ledger.Installing

theorem Change.installing {C : Option MessageHandler → List ApiCall → Bytes → Prop}
    {k k' : Ledger} (h : Change C k k') (hk : k.Installing) : k'.Installing := by
  have keep {k' : Ledger} (hidles : k.Idles k') (hasked : k'.asked = k.asked)
      (htopic : k'.currentTopic = k.currentTopic) (hinst : k'.installed = k.installed) :
      k'.Installing :=
    hk.of_idles hidles (by rw [htopic]) (by rw [htopic]) hasked (hinst ▸ hk.made)
  cases h with
  | enqueue h => exact hk.untouched (Ledger.Spares.of_queues h |>.idles h.untouched.loopId) h.untouched
  | dispatch pushed hpushed h => exact hk.untouched (h.spares.idles h.untouched.loopId) h.untouched
  | take c queue h => exact keep (Ledger.idles_take h) rfl rfl rfl
  | clear => exact keep k.idles_clear rfl rfl rfl
  | unhook => exact keep k.idles_unhook rfl rfl rfl
  | publish => exact keep k.idles_publish rfl rfl rfl
  | settle => exact hk.settle
  | install before hloop h =>
    obtain ⟨name, hcall, hname⟩ := hk.asked (.inl hloop)
    refine hk.of_idles ⟨id, id⟩ rfl rfl rfl fun i hi => ?_
    obtain rfl | hi := List.mem_cons.1 hi
    · rw [hcall, h]
      exact .looped name _ before hname
    · exact hk.made i hi
  | attach name mh index h hcall =>
    refine hk.of_idles ⟨id, id⟩ rfl rfl rfl fun i hi => ?_
    obtain rfl | hi := List.mem_cons.1 hi
    · rw [hcall]
      exact .attached name mh index k.registry h
    · exact hk.made i hi
  | mark id' returnCode => exact hk.of_idles ⟨id, id⟩ rfl rfl rfl hk.made
  | select name topic hfree h =>
    exact ⟨fun h => absurd h hfree.not_subscribing, fun h => absurd h hfree.not_registering, hk.made⟩
  | register name data qos hfree htopic hcall hC =>
    have hnot : ¬Ledger.Subscribing { k with queue := [.reg] } :=
      Ledger.not_subscribing_of_reg hfree.2 rfl
    exact ⟨fun h => absurd h hnot, fun _ => hnot, hk.made⟩
  | subscribe name mh hfree hname hcall =>
    exact ⟨fun _ => ⟨name, rfl, hname⟩,
      fun h => absurd h (Ledger.not_registering_of_sub hfree.2 rfl), hk.made⟩
  | _ => exact keep ⟨id, id⟩ rfl rfl rfl

theorem Boots.installing {authLogin authPasswd : Bytes} {maxTopics : Nat} {k : Ledger}
    (h : Boots (.fresh authLogin authPasswd maxTopics) k) : k.Installing := by
  have hfresh : (Ledger.fresh authLogin authPasswd maxTopics).Installing := by
    refine ⟨?_, ?_, fun _ hi => absurd hi List.not_mem_nil⟩ <;> rintro (h | h) <;> cases h
  cases h with
  | stays => exact hfresh
  | starts k₁ k' h hdispatch =>
    refine Ledger.Installing.untouched ?_ (hdispatch.spares.idles hdispatch.untouched.loopId)
      hdispatch.untouched
    cases h <;>
      exact hfresh.of_idles ⟨id, id⟩ rfl rfl rfl fun _ hi => absurd hi List.not_mem_nil

theorem installations_made (setting : Setting) (calls : List ApiCall) :
    ∀ i ∈ installations (setting.after calls).trace, i.Made :=
  (after_keeps_all (J := Ledger.Installing) (fun _ _ _ _ h => h.installing)
    (fun h hk => h.installing hk) setting calls).made

/-- **Subscribing installs the handler** at every end of a subscribe in every run,
given a topic with a name that is valid, an id that no entry before it answers to,
and an entry that held no other handler. -/
theorem installed_after (setting : Setting) (calls : List ApiCall) (i : Installation)
    (hi : i ∈ installations (setting.after calls).trace) (h : i.Installable) : i.Installed :=
  (installations_made setting calls i hi).installed h

/-- A new topic is subscribed. -/
theorem installed_after_subscribe : Installation.Installed
    { call := some ([97], some 7)
      looped := true
      topic := { id := 5, topicName := [97], mh := some 7, regFlag := { sub := true } }
      before := {}
      after :=
        { registry := [{ id := 5, topicName := [97], mh := some 7, regFlag := { sub := true } }] } } :=
  installed_after (Setting.script [[3], [5, 0], [8], [19, 0, 0, 5, 0, 1, 0]] 100)
    (connecting 1 ++ .subscribe [97] (some 7) :: List.replicate 3 (.eventLoop .active)) _
    (by decide +kernel) (by decide +kernel)

/-- A topic of the gateway has taken over the handler of a wildcard when it is
subscribed with a handler of its own. -/
theorem not_installed_after_wildcard : ¬∀ i ∈ installations
    ((Setting.script [[3], [5, 0], [7], [10, 0, 9, 0, 1, 97], [8], [19, 0, 0, 5, 0, 1, 0], [8],
        [19, 0, 0, 9, 0, 2, 0]] 100).after
      (connecting 1 ++ .subscribe [hash] (some 7) :: List.replicate 5 (.eventLoop .active) ++
        .subscribe [97] (some 8) :: List.replicate 4 (.eventLoop .active))).trace,
    i.Installed := by
  decide +kernel

end LibNbiot
