/-
# The coverage by wildcards

A plain entry that some wildcard entry matches has a handler, in every run in
which no name with a wildcard is published or named by the gateway and every
handler that is subscribed is there. The handlers travel both ways: a topic that
becomes an entry takes the handler of the first wildcard entry that matches it,
and a wildcard that is subscribed hands its handler to the plain entries it
matches. All wildcard entries hold a handler, so the first match is as good as
any. An entry that goes only leaves less to cover.
-/

import LibNbiot.Laws.History
import LibNbiot.Ledger.Topics

namespace LibNbiot

open Logic.Program Relation

variable {C : Option MessageHandler → List ApiCall → Bytes → Prop}

/-- A message for a plain topic that is matched by a wildcard with a handler does
not go without one. -/
structure WildcardsCover (r : NbiotTopicRegistry) : Prop where
  handled : ∀ t ∈ r.registry, t.isWildcardTopic = false → ∀ w ∈ r.registry,
    w.isWildcardTopic = true → w.hasHandler = true → w.isTopicMatched t = true →
      t.hasHandler = true
  called : ∀ id t, r.registry.find? (fun t => t.valid && t.id = id) = some t →
    t.isWildcardTopic = false → ∀ w ∈ r.registry, w.isWildcardTopic = true →
      w.hasHandler = true → w.isTopicMatched t = true → (r.messageDispatcher id).2.1.isSome

/-- A publish of a name without wildcards, a subscribe with a handler, or any
other call. -/
def ApiCall.plain : ApiCall → Bool
  | .publish topic _ _ => !isWildcardName topic
  | .subscribe _ mh => mh.isSome
  | _ => true

/-- What was called and what the gateway named. -/
structure Ledger.Plain (k : Ledger) : Prop where
  calls : ∀ call ∈ k.calls, call.plain = true
  heard : ∀ name ∈ k.heard, isWildcardName name = false

/-! ## Entries -/

/-- The wildcard entries hold handlers and cover the plain ones. -/
structure Guarded (registry : List NbiotTopic) : Prop where
  armed : ∀ w ∈ registry, w.isWildcardTopic = true → w.mh ≠ none
  covered : ∀ t ∈ registry, t.isWildcardTopic = false → t.mh = none → ∀ w ∈ registry,
    w.isWildcardTopic = true → w.isTopicMatched t = false

namespace Guarded

variable {registry registry' : List NbiotTopic} {r : NbiotTopicRegistry} {topic : NbiotTopic}

theorem cover (h : Guarded r.registry) : WildcardsCover r := by
  have hhandled : ∀ t ∈ r.registry, t.isWildcardTopic = false → ∀ w ∈ r.registry,
      w.isWildcardTopic = true → w.isTopicMatched t = true → t.hasHandler = true := by
    intro t ht hplain w hw hwild hmatched
    rw [NbiotTopic.hasHandler, Option.isSome_iff_ne_none]
    intro hmh
    exact nomatch (h.covered t ht hplain hmh w hw hwild).symm.trans hmatched
  refine ⟨fun t ht hplain w hw hwild _ => hhandled t ht hplain w hw hwild, ?_⟩
  intro id t hfound hplain w hw hwild _ hmatched
  have hsome := hhandled t (List.mem_of_find?_eq_some hfound) hplain w hw hwild hmatched
  obtain ⟨mh, hmh⟩ := Option.isSome_iff_exists.1 hsome
  simp [NbiotTopicRegistry.messageDispatcher, hfound, hmh]

/-- Entries that come from old ones by name, and do not lose a handler. -/
theorem of_alike (h : Guarded registry) (halike : ∀ t ∈ registry', ∃ old ∈ registry,
    t.topicName = old.topicName ∧ (t.mh = none → old.mh = none)) : Guarded registry' := by
  have hwild {t old : NbiotTopic} (hname : t.topicName = old.topicName) :
      t.isWildcardTopic = old.isWildcardTopic := by
    rw [NbiotTopic.isWildcardTopic_eq, NbiotTopic.isWildcardTopic_eq, hname]
  refine ⟨fun w hw hw' hmh => ?_, fun t ht hplain hmh w hw hw' => ?_⟩
  · obtain ⟨old, hold, hname, hnone⟩ := halike w hw
    exact h.armed old hold ((hwild hname).symm.trans hw') (hnone hmh)
  · obtain ⟨old, hold, hname, hnone⟩ := halike t ht
    obtain ⟨w', hold', hname', -⟩ := halike w hw
    have hno := h.covered old hold ((hwild hname).symm.trans hplain) (hnone hmh) w' hold'
      ((hwild hname').symm.trans hw')
    rw [NbiotTopic.isTopicMatched, hname, hname']
    exact hno

theorem of_sublist (h : Guarded registry) (hsub : registry'.Sublist registry) :
    Guarded registry' :=
  h.of_alike fun t ht => ⟨t, hsub.subset ht, rfl, id⟩

/-- A plain topic is inserted that no wildcard entry matches, unless it ends up
with a handler. -/
theorem insert_plain (h : Guarded r.registry) (hplain : topic.isWildcardTopic = false)
    (hnone : ∀ t, NbiotTopicRegistry.Inserts r topic t → t.mh = none → ∀ w ∈ r.registry,
      w.isWildcardTopic = true → w.isTopicMatched topic = false) :
    Guarded (r.insertTopic topic).registry := by
  have hentry : ∀ t ∈ (r.insertTopic topic).registry, t ∈ r.registry ∨
      t.isWildcardTopic = false ∧ t.topicName = topic.topicName ∧ (t.mh = none →
        ∀ w ∈ r.registry, w.isWildcardTopic = true → w.isTopicMatched topic = false) := by
    intro t ht
    obtain ht | ht := NbiotTopicRegistry.mem_insertTopic ht
    · exact .inl ht
    · refine .inr ⟨?_, ht.topicName, hnone t ht⟩
      rw [NbiotTopic.isWildcardTopic_eq, ht.topicName, ← NbiotTopic.isWildcardTopic_eq]
      exact hplain
  refine ⟨fun w hw hwild => ?_, fun t ht htplain hmh w hw hwild => ?_⟩
  · obtain hw | ⟨hno, -⟩ := hentry w hw
    · exact h.armed w hw hwild
    · exact nomatch hno.symm.trans hwild
  · obtain hw | ⟨hno, -⟩ := hentry w hw
    · obtain ht | ⟨-, hname, hnone⟩ := hentry t ht
      · exact h.covered t ht htplain hmh w hw hwild
      · rw [NbiotTopic.isTopicMatched, hname]
        exact hnone hmh w hw hwild
    · exact nomatch hno.symm.trans hwild

/-- A topic that has taken the handler of the first matching wildcard entry. -/
theorem insert_attached (h : Guarded r.registry) (hplain : topic.isWildcardTopic = false)
    {topic' : NbiotTopic} (hname : topic'.topicName = topic.topicName)
    (hmh : topic'.mh = (r.attachWildcardMessageHandler topic).mh) :
    Guarded (r.insertTopic topic').registry := by
  have hplain' : topic'.isWildcardTopic = false := by
    rw [NbiotTopic.isWildcardTopic_eq, hname, ← NbiotTopic.isWildcardTopic_eq]
    exact hplain
  refine h.insert_plain hplain' fun t ht hnone => ?_
  have htopic : topic'.mh = none := by
    cases ht with
    | appended => exact hnone
    | assigned old =>
      cases hold : old.mh with
      | none => simpa [NbiotTopic.assign, hold] using hnone
      | some mh => simp [NbiotTopic.assign, hold] at hnone
  obtain ⟨w, hw, hwild, -, hattached⟩ | ⟨hno, -⟩ := r.attachWildcard_cases topic
  · rw [hmh, hattached] at htopic
    exact absurd htopic (h.armed w hw hwild)
  · intro w hw hwild
    rw [NbiotTopic.isTopicMatched, hname]
    exact hno w hw hwild

/-- A subscribed topic with a handler; a wildcard hands it on. -/
theorem subscribe (h : Guarded r.registry) (hmh : topic.mh ≠ none) :
    Guarded ((r.insertTopic topic).updateWildcardMessageHandler topic).registry := by
  have hassigned : ∀ old : NbiotTopic, (old.assign topic).mh ≠ none := by
    intro old
    cases hold : old.mh <;> simp [NbiotTopic.assign, hold, hmh]
  by_cases hname : topic.topicName = []
  · have hplain : topic.isWildcardTopic = false := by
      simp [NbiotTopic.isWildcardTopic, hname]
    have hsame : (r.insertTopic topic).updateWildcardMessageHandler topic = r := by
      simp [NbiotTopicRegistry.insertTopic, NbiotTopicRegistry.updateWildcardMessageHandler, hname,
        hplain]
    rw [hsame]
    exact h
  have hentry := r.exists_hasName_insertTopic topic hname
  -- An entry without a handler is an old one, which the new wildcard does not match.
  have hold : ∀ t ∈ ((r.insertTopic topic).updateWildcardMessageHandler topic).registry,
      (∃ old ∈ r.registry, t.topicName = old.topicName ∧ (t.mh = none → old.mh = none)) ∧
        (t.mh = none → t.isWildcardTopic = false → topic.isWildcardTopic = true →
          topic.isTopicMatched t = false) ∨
      t.topicName = topic.topicName ∧ t.mh ≠ none := by
    intro t ht
    obtain ⟨new, hnew, htname, hhandler⟩ :=
      NbiotTopicRegistry.mem_updateWildcardMessageHandler ht hentry
    have hkeeps : t.mh = none → new.mh = none := by
      intro hnone
      obtain ⟨hsame, -⟩ | ⟨hgiven, -⟩ := hhandler
      · exact hsame.symm.trans hnone
      · exact absurd (hgiven.symm.trans hnone) hmh
    obtain hnew' | hnew' := NbiotTopicRegistry.mem_insertTopic hnew
    · refine .inl ⟨⟨new, hnew', htname, hkeeps⟩, fun hnone htplain hwild => ?_⟩
      rw [NbiotTopic.isWildcardTopic_eq, htname, ← NbiotTopic.isWildcardTopic_eq] at htplain
      rw [NbiotTopic.isTopicMatched, htname]
      obtain ⟨-, hno⟩ | ⟨hgiven, -⟩ := hhandler
      · exact hno hwild htplain
      · exact absurd (hgiven.symm.trans hnone) hmh
    · refine .inr ⟨htname.trans hnew'.topicName, fun hnone => ?_⟩
      cases hnew' with
      | appended => exact hmh (hkeeps hnone)
      | assigned old => exact hassigned old (hkeeps hnone)
  have hwild {t old : NbiotTopic} (hname : t.topicName = old.topicName) :
      t.isWildcardTopic = old.isWildcardTopic := by
    rw [NbiotTopic.isWildcardTopic_eq, NbiotTopic.isWildcardTopic_eq, hname]
  refine ⟨fun w hw hw' hnone => ?_, fun t ht hplain hnone w hw hw' => ?_⟩
  · obtain ⟨⟨old, hold, hname, hkeeps⟩, -⟩ | ⟨-, hsome⟩ := hold w hw
    · exact h.armed old hold ((hwild hname).symm.trans hw') (hkeeps hnone)
    · exact hsome hnone
  · obtain ⟨⟨old, hmem, htname, hkeeps⟩, hnot⟩ | ⟨-, hsome⟩ := hold t ht
    · obtain ⟨⟨w', hmem', hwname, -⟩, -⟩ | ⟨hwname, -⟩ := hold w hw
      · have hno := h.covered old hmem ((hwild htname).symm.trans hplain) (hkeeps hnone) w' hmem'
          ((hwild hwname).symm.trans hw')
        rw [NbiotTopic.isTopicMatched, htname, hwname]
        exact hno
      · have hno := hnot hnone hplain ((hwild hwname).symm.trans hw')
        rw [NbiotTopic.isTopicMatched, hwname]
        exact hno
    · exact absurd hnone hsome

end Guarded

/-! ## States -/

/-- The entries are guarded, and so they are when the current topic becomes one. -/
structure Ledger.Covering (k : Ledger) : Prop where
  guarded : Guarded k.registry.registry
  registering : k.Registering → k.currentTopic.isWildcardTopic = false
  subscribing : k.Subscribing → k.currentTopic.mh ≠ none

namespace Ledger.Covering

variable {k k' : Ledger}

/-- The current topic keeps its name and handler, and no client for it is new. -/
theorem of_idles (h : k.Covering) (hguarded : Guarded k'.registry.registry) (hidles : k.Idles k')
    (hname : k'.currentTopic.topicName = k.currentTopic.topicName)
    (hmh : k'.currentTopic.mh = k.currentTopic.mh) : k'.Covering := by
  refine ⟨hguarded, fun hreg => ?_, fun hsub => ?_⟩
  · rw [NbiotTopic.isWildcardTopic_eq, hname, ← NbiotTopic.isWildcardTopic_eq]
    exact h.registering (hidles.registering hreg)
  · rw [hmh]
    exact h.subscribing (hidles.subscribing hsub)

/-- Nothing but the registry changes. -/
theorem of_registry (h : k.Covering) {registry : NbiotTopicRegistry}
    (hguarded : Guarded registry.registry) : { k with registry := registry }.Covering :=
  h.of_idles hguarded ⟨id, id⟩ rfl rfl

theorem spares (h : k.Covering) (hspares : k.Spares k') (hloop : k'.loopId = k.loopId)
    (htopic : k'.currentTopic = k.currentTopic) : k'.Covering := by
  refine h.of_idles ?_ (hspares.idles hloop) (by rw [htopic]) (by rw [htopic])
  obtain hsame | hnil := hspares.registry
  · rw [hsame]
    exact h.guarded
  · rw [hnil]
    exact ⟨nofun, nofun⟩

theorem settle (h : k.Covering) : k.settle.Covering := by
  have hset (t : NbiotTopic) (flag : RegistrationFlag) :
      (t.setReg flag).topicName = t.topicName ∧ (t.setReg flag).mh = t.mh := by
    cases flag <;> exact ⟨rfl, rfl⟩
  cases hloop : k.loopId with
  | register =>
    have hplain := h.registering (.inl hloop)
    have htopic := k.registry.topicName_attachWildcard k.currentTopic
    have hname := (hset (k.registry.attachWildcardMessageHandler k.currentTopic) .pub).1.trans htopic
    refine ⟨?_, fun _ => ?_, ?_⟩
    · simp only [Ledger.settle, registeredTopic, hloop]
      exact h.guarded.insert_attached hplain hname (hset _ _).2
    · simp only [Ledger.settle, registeredTopic, hloop]
      rw [NbiotTopic.isWildcardTopic_eq, hname, ← NbiotTopic.isWildcardTopic_eq]
      exact hplain
    · intro hsub
      have hloop' : k.settle.loopId = .register := hloop
      obtain hsub | hsub := hsub
      · cases hloop'.symm.trans hsub
      · have hmh := h.subscribing (.inr hsub)
        simp only [Ledger.settle, registeredTopic, hloop]
        rw [(hset _ _).2]
        obtain ⟨w, hw, hwild, -, hattached⟩ | ⟨-, hattached⟩ :=
          k.registry.attachWildcard_cases k.currentTopic
        · rw [hattached]
          exact h.guarded.armed w hw hwild
        · rw [hattached]
          exact hmh
  | subscribe =>
    have hmh := h.subscribing (.inl hloop)
    have hsub : (k.currentTopic.setReg .sub).mh ≠ none := by
      rw [(hset _ _).2]
      exact hmh
    refine ⟨?_, fun hreg => ?_, fun _ => ?_⟩
    · simp only [Ledger.settle, registeredTopic, hloop]
      exact h.guarded.subscribe hsub
    · have hplain := h.registering (hreg.imp_left fun h' => h')
      simp only [Ledger.settle, registeredTopic, hloop]
      rw [NbiotTopic.isWildcardTopic_eq, (hset _ _).1, ← NbiotTopic.isWildcardTopic_eq]
      exact hplain
    · simp only [Ledger.settle, registeredTopic, hloop]
      exact hsub
  | _ =>
    have hsame : k.settle = k := by
      simp only [Ledger.settle, registeredTopic, hloop]
      rw [← hloop]
    rw [hsame]
    exact h

theorem learn (h : k.Covering) {topic : NbiotTopic} {registry : NbiotTopicRegistry}
    (hname : isWildcardName topic.topicName = false)
    (hlearns : Learns k.registry topic registry) : { k with registry := registry }.Covering := by
  have hplain : topic.isWildcardTopic = false := (NbiotTopic.isWildcardTopic_eq _).trans hname
  refine h.of_registry ?_
  cases hlearns with
  | fresh =>
    exact h.guarded.insert_attached hplain (k.registry.topicName_attachWildcard topic) rfl
  | known index hfound hsome =>
    refine h.guarded.insert_plain hplain fun t ht hnone => ?_
    -- The entry of that name has a handler, which it keeps.
    have hfind := NbiotTopicRegistry.find?_of_findTopic hfound
    cases ht with
    | appended h => exact nomatch h.symm.trans hfind
    | assigned old h =>
      obtain rfl : old = k.registry.topicAt index := Option.some.inj (h.symm.trans hfind)
      obtain ⟨mh, hold⟩ := Option.isSome_iff_exists.1 hsome
      simp [NbiotTopic.assign, hold] at hnone

end Ledger.Covering

/-! ## Runs -/

theorem Change.plain {k k' : Ledger} (h : Change C k k') (hk : k'.Plain) : k.Plain := by
  cases h with
  | enqueue h =>
    have huntouched := h.untouched
    exact ⟨huntouched.calls ▸ hk.calls, huntouched.heard ▸ hk.heard⟩
  | dispatch pushed hpushed h =>
    have huntouched := h.untouched
    exact ⟨huntouched.calls ▸ hk.calls, huntouched.heard ▸ hk.heard⟩
  | api call => exact ⟨fun c hc => hk.calls c (List.mem_cons_of_mem _ hc), hk.heard⟩
  | hear name => exact ⟨hk.calls, fun n hn => hk.heard n (List.mem_cons_of_mem _ hn)⟩
  | _ => exact ⟨hk.calls, hk.heard⟩

/-- Every change of a plain run keeps the coverage. -/
theorem Change.covering {k k' : Ledger} (h : Change C k k') (hplain : k'.Plain) (hk : k.Covering) :
    k'.Covering := by
  have hplain₀ := h.plain hplain
  cases h with
  | enqueue h => exact hk.spares (.of_queues h) h.untouched.loopId h.untouched.currentTopic
  | dispatch pushed hpushed h => exact hk.spares h.spares h.untouched.loopId h.untouched.currentTopic
  | take c queue h => exact hk.of_idles hk.guarded (Ledger.idles_take h) rfl rfl
  | clear => exact hk.of_idles hk.guarded k.idles_clear rfl rfl
  | unhook => exact hk.of_idles hk.guarded k.idles_unhook rfl rfl
  | publish => exact hk.of_idles hk.guarded k.idles_publish rfl rfl
  | settle => exact hk.settle
  | learn topic registry htopic hheard h =>
    exact hk.learn (hplain₀.heard _ hheard) h
  | deliver n => exact hk.of_registry hk.guarded
  | forget index =>
    exact hk.of_registry (hk.guarded.of_sublist (NbiotTopicRegistry.removeTopic_sublist _ _))
  | flag index =>
    refine hk.of_registry (hk.guarded.of_alike fun t ht => ?_)
    obtain ⟨old, hold, hname, hmh⟩ := NbiotTopicRegistry.mem_setTopicFlag ht
    exact ⟨old, hold, hname, fun h => hmh.symm.trans h⟩
  | attach name mh index h hcall =>
    have hcall := mem_of_subscribeCall hcall
    refine hk.of_idles (hk.guarded.of_alike fun t ht => ?_) ⟨id, id⟩ rfl rfl
    obtain ⟨mh, rfl⟩ := Option.isSome_iff_exists.1 (hplain₀.calls _ hcall)
    obtain ⟨old, hold, hname, hsame | ⟨hgiven, -⟩⟩ := NbiotTopicRegistry.mem_attachMessageHandler ht
    · exact ⟨old, hold, hname, fun h => hsame.symm.trans h⟩
    · exact ⟨old, hold, hname, fun h => nomatch hgiven.symm.trans h⟩
  | select name topic hfree h =>
    exact ⟨hk.guarded, fun h => absurd h hfree.not_registering, fun h => absurd h hfree.not_subscribing⟩
  | register name data qos hfree htopic hcall hC =>
    refine ⟨hk.guarded, fun _ => ?_, fun h => absurd h (Ledger.not_subscribing_of_reg hfree.2 rfl)⟩
    obtain ⟨mh, htopic⟩ := htopic
    have hname : (!isWildcardName name) = true := hplain₀.calls _ hcall
    have hwild : k.currentTopic.isWildcardTopic = isWildcardName name := by
      rw [← NbiotTopic.isWildcardTopic_ofName, NbiotTopic.isWildcardTopic_eq,
        NbiotTopic.isWildcardTopic_eq, htopic]
    simpa [hwild] using hname
  | subscribe name mh hfree hname hcall =>
    have hcall := mem_of_subscribeCall hcall
    exact ⟨hk.guarded, fun h => absurd h (Ledger.not_registering_of_sub hfree.2 rfl),
      fun _ => Option.isSome_iff_ne_none.1 (hplain₀.calls _ hcall)⟩
  | _ => exact hk.of_idles hk.guarded ⟨id, id⟩ rfl rfl

theorem Boots.covering {authLogin authPasswd : Bytes} {maxTopics : Nat} {k : Ledger}
    (h : Boots (.fresh authLogin authPasswd maxTopics) k) : k.Covering := by
  have hfresh : (Ledger.fresh authLogin authPasswd maxTopics).Covering := by
    refine ⟨⟨nofun, nofun⟩, ?_, ?_⟩ <;> rintro (h | h) <;> cases h
  cases h with
  | stays => exact hfresh
  | starts k₁ k' h hdispatch =>
    refine Ledger.Covering.spares ?_ hdispatch.spares hdispatch.untouched.loopId
      hdispatch.untouched.currentTopic
    cases h <;> exact hfresh.of_idles ⟨nofun, nofun⟩ ⟨id, id⟩ rfl rfl

/-- **Wildcards cover the plain topics** in every state of every run in which only
plain names are published or named by the gateway, and every subscribe has a
handler. -/
theorem wildcardsCover_after (setting : Setting) (calls : List ApiCall)
    (hcalls : ∀ call ∈ apiCalls (setting.after calls).trace, call.plain = true)
    (hheard : ∀ name ∈ namedTopics (setting.after calls).trace, isWildcardName name = false) :
    WildcardsCover (setting.after calls).rest.registry := by
  have hcovering := after_keeps_all (J := fun k => k.Plain → k.Covering)
    (fun _ _ _ _ h _ => h.covering) (fun h hk hplain => h.covering hplain (hk (h.plain hplain)))
    setting calls ⟨hcalls, hheard⟩
  exact hcovering.guarded.cover

/-- The gateway names a topic between a SUBSCRIBE of a wildcard and its SUBACK. -/
def namedInBetween : Setting :=
  .script [[3], [5, 0], [7], [10, 0, 9, 0, 1, 97], [8], [19, 0, 0, 5, 0, 1, 0]] 100

theorem wildcardsCover_after_namedInBetween :
    WildcardsCover (namedInBetween.after (connecting 1 ++
      .subscribe [hash] (some 7) :: List.replicate 3 (.eventLoop .active))).rest.registry :=
  wildcardsCover_after _ _ (by decide +kernel) (by decide +kernel)

end LibNbiot
