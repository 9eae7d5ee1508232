/-
# The isolation of the handlers

The current topic is one object for all publishes and subscribes. An assignment
to it keeps the handler that it already holds, so a topic that is published for
the first time takes over the handler of an earlier subscribe, and its REGACK
brings that handler into the registry. Apart from this a handler is only at
entries that it was subscribed for, by their name or by a wildcard that matches
it, provided that no wildcard itself is published or named by the gateway: an
entry of such a name would pass on a handler that it only inherited.
-/

import LibNbiot.Laws.History
import LibNbiot.Ledger.Topics

namespace LibNbiot

open Logic.Program Relation

variable {C : Option MessageHandler → List ApiCall → Bytes → Prop}

/-- The handlers in the registry were subscribed for the name of their entry, or
for a wildcard that matches it. -/
def HandlersIsolated (s : Sys) : Prop :=
  ∀ t ∈ s.rest.registry.registry, ∀ h, t.mh = some h →
    ∃ name, .subscribe name (some h) ∈ apiCalls s.trace ∧
      ((NbiotTopic.ofName name).hasName t.topicName = true ∨
        (NbiotTopic.ofName name).isWildcardTopic = true ∧
          (NbiotTopic.ofName name).isTopicMatched t = true)

/-- A handler was subscribed for a name, or for a wildcard that matches it if it
is a plain one. -/
def SubscribedFor (calls : List ApiCall) (h : MessageHandler) (topicName : Bytes) : Prop :=
  ∃ name, .subscribe name (some h) ∈ calls ∧
    (cString name = cString topicName ∨
      isWildcardName topicName = false ∧ isWildcardName name = true ∧
        NbiotTopic.matchFilter (cString name) (cString topicName) = true)

/-- The current topic holds no handler but one that was subscribed for the name
of the new topic. -/
def HoldsOwn (mh : Option MessageHandler) (calls : List ApiCall) (name : Bytes) : Prop :=
  ∀ h, mh = some h → SubscribedFor calls h name

/-- The names of the gateway are C strings, and a wildcard that is published or
named by the gateway is matched by no other wildcard that is subscribed. -/
structure WildcardsApart (calls : List ApiCall) (heard : List Bytes) : Prop where
  proper : ∀ name ∈ heard, cString name = name
  apart : ∀ topicName, (topicName ∈ heard ∨ ∃ data qos, .publish topicName data qos ∈ calls) →
    isWildcardName topicName = true → ∀ name h, .subscribe name (some h) ∈ calls →
      isWildcardName name = true →
        NbiotTopic.matchFilter (cString name) (cString topicName) = true →
          cString name = cString topicName

/-! ## Entries -/

section Entries

variable {calls calls' : List ApiCall} {h : MessageHandler} {topicName : Bytes}

theorem SubscribedFor.mono (hsub : calls ⊆ calls') (hh : SubscribedFor calls h topicName) :
    SubscribedFor calls' h topicName := by
  obtain ⟨name, hmem, hname⟩ := hh
  exact ⟨name, hsub hmem, hname⟩

theorem SubscribedFor.of_cString {topicName' : Bytes} (hh : SubscribedFor calls h topicName)
    (hname : cString topicName' = cString topicName) : SubscribedFor calls h topicName' := by
  obtain ⟨name, hmem, hname'⟩ := hh
  refine ⟨name, hmem, ?_⟩
  rw [isWildcardName, hname, ← isWildcardName]
  exact hname'

/-- The handler of a wildcard was subscribed for that very name. -/
theorem SubscribedFor.own (hh : SubscribedFor calls h topicName)
    (hwild : isWildcardName topicName = true) :
    ∃ name, .subscribe name (some h) ∈ calls ∧ cString name = cString topicName := by
  obtain ⟨name, hmem, hname | ⟨hplain, -⟩⟩ := hh
  · exact ⟨name, hmem, hname⟩
  · exact nomatch hplain.symm.trans hwild

/-- An entry with a proper name and a handler that was subscribed for it. -/
structure Isolated (calls : List ApiCall) (t : NbiotTopic) : Prop where
  proper : cString t.topicName = t.topicName
  own : HoldsOwn t.mh calls t.topicName

theorem Isolated.mono {t : NbiotTopic} (hsub : calls ⊆ calls') (ht : Isolated calls t) :
    Isolated calls' t := ⟨ht.proper, fun h hh => (ht.own h hh).mono hsub⟩

theorem Isolated.of_alike {t t' : NbiotTopic} (ht : Isolated calls t)
    (hname : t'.topicName = t.topicName) (hmh : t'.mh = t.mh) : Isolated calls t' := by
  refine ⟨?_, ?_⟩
  · rw [hname]
    exact ht.proper
  · rw [hname, hmh]
    exact ht.own

/-- A wildcard entry hands its handler to a plain topic that it matches. -/
theorem SubscribedFor.handed {w t : NbiotTopic} (hw : SubscribedFor calls h w.topicName)
    (hwild : w.isWildcardTopic = true) (hplain : t.isWildcardTopic = false)
    (ht : cString t.topicName = t.topicName) (hmatched : w.isTopicMatched t = true) :
    SubscribedFor calls h t.topicName := by
  rw [NbiotTopic.isWildcardTopic_eq] at hwild hplain
  obtain ⟨name, hmem, hname⟩ := hw.own hwild
  refine ⟨name, hmem, .inr ⟨hplain, ?_, ?_⟩⟩
  · rw [isWildcardName, hname, ← isWildcardName]
    exact hwild
  · rw [hname, ht]
    exact hmatched

/-- A topic that takes the handler of a matching wildcard entry. -/
theorem Isolated.attached {r : NbiotTopicRegistry} {topic : NbiotTopic} {heard : List Bytes}
    (hentries : ∀ t ∈ r.registry, Isolated calls t) (htopic : Isolated calls topic)
    (hcalls : topic.topicName ∈ heard ∨ ∃ name data qos, .publish name data qos ∈ calls ∧
      topic.topicName = cString name)
    (hapart : WildcardsApart calls heard) :
    Isolated calls (r.attachWildcardMessageHandler topic) := by
  refine ⟨?_, ?_⟩
  · rw [r.topicName_attachWildcard]
    exact htopic.proper
  · obtain ⟨w, hw, hwild, hmatched, hattached⟩ | ⟨-, hattached⟩ := r.attachWildcard_cases topic
    · rw [hattached]
      intro h hh
      have hown := (hentries w hw).own h hh
      cases hplain : topic.isWildcardTopic with
      | false => exact hown.handed hwild hplain htopic.proper hmatched
      | true =>
        -- The name of another wildcard: it is matched by none but its own.
        rw [NbiotTopic.isWildcardTopic_eq] at hwild hplain
        obtain ⟨name, hmem, hname⟩ := hown.own hwild
        refine ⟨name, hmem, .inl ?_⟩
        have hmatches : NbiotTopic.matchFilter (cString name) topic.topicName = true := by
          rw [hname]
          exact hmatched
        have hnamewild : isWildcardName name = true := by
          rw [isWildcardName, hname, ← isWildcardName]
          exact hwild
        obtain hheard | ⟨topicName, data, qos, hpublish, htopicName⟩ := hcalls
        · refine hapart.apart _ (.inl hheard) hplain name h hmem hnamewild ?_
          rw [htopic.proper]
          exact hmatches
        · have hcString : cString topic.topicName = cString topicName := by
            rw [htopicName, cString_cString]
          rw [hcString]
          refine hapart.apart _ (.inr ⟨data, qos, hpublish⟩) ?_ name h hmem hnamewild ?_
          · rw [isWildcardName, ← hcString, ← isWildcardName]
            exact hplain
          · rw [← htopicName]
            exact hmatches
    · rw [hattached]
      exact htopic.own

/-- An insertion of an isolated topic. -/
theorem Isolated.inserted {r : NbiotTopicRegistry} {topic t : NbiotTopic}
    (hentries : ∀ t ∈ r.registry, Isolated calls t) (htopic : Isolated calls topic)
    (ht : t ∈ (r.insertTopic topic).registry) : Isolated calls t := by
  obtain ht | ht := NbiotTopicRegistry.mem_insertTopic ht
  · exact hentries t ht
  · cases ht with
    | appended => exact htopic
    | assigned old hold =>
      refine ⟨htopic.proper, fun h hh => ?_⟩
      have hfound := List.find?_some (p := (NbiotTopic.hasName · topic.topicName)) hold
      have hname : cString old.topicName = cString topic.topicName := of_decide_eq_true hfound
      cases hmh : old.mh with
      | none => exact htopic.own h (by simpa [NbiotTopic.assign, hmh] using hh)
      | some mh =>
        have hown := (hentries old (List.mem_of_find?_eq_some hold)).own h
          (by simpa [NbiotTopic.assign, hmh] using hh)
        exact hown.of_cString hname.symm

/-- A subscribed topic is inserted, and a wildcard hands its handler on. -/
theorem Isolated.subscribed {r : NbiotTopicRegistry} {topic t : NbiotTopic}
    (hentries : ∀ t ∈ r.registry, Isolated calls t) (htopic : Isolated calls topic)
    (ht : t ∈ ((r.insertTopic topic).updateWildcardMessageHandler topic).registry) :
    Isolated calls t := by
  by_cases hname : topic.topicName = []
  · have hsame : (r.insertTopic topic).updateWildcardMessageHandler topic = r := by
      simp [NbiotTopicRegistry.insertTopic, NbiotTopicRegistry.updateWildcardMessageHandler, hname,
        NbiotTopic.isWildcardTopic]
    rw [hsame] at ht
    exact hentries t ht
  · obtain ⟨new, hnew, htname, hhandler⟩ := NbiotTopicRegistry.mem_updateWildcardMessageHandler ht
      (r.exists_hasName_insertTopic topic hname)
    have hisolated := Isolated.inserted hentries htopic hnew
    obtain ⟨hmh, -⟩ | ⟨hmh, hwild, hplain, hmatched⟩ := hhandler
    · exact hisolated.of_alike htname hmh
    · refine ⟨?_, fun h hh => ?_⟩
      · rw [htname]
        exact hisolated.proper
      · rw [htname]
        exact (htopic.own h (hmh.symm.trans hh)).handed hwild hplain hisolated.proper hmatched

end Entries

/-! ## States -/

/-- The entries are isolated, and so they are when the current topic becomes one. -/
structure Ledger.Isolating (k : Ledger) : Prop where
  entries : ∀ t ∈ k.registry.registry, Isolated k.calls t
  proper : cString k.currentTopic.topicName = k.currentTopic.topicName
  registering : k.Registering → HoldsOwn k.currentTopic.mh k.calls k.currentTopic.topicName ∧
    ∃ name data qos, .publish name data qos ∈ k.calls ∧ k.currentTopic.topicName = cString name
  subscribing : k.Subscribing → HoldsOwn k.currentTopic.mh k.calls k.currentTopic.topicName
  exclusive : k.Registering → ¬k.Subscribing

namespace Ledger.Isolating

variable {k k' : Ledger}

/-- The current topic keeps its name and handler, and no client for it is new. -/
theorem of_idles (h : k.Isolating) (hentries : ∀ t ∈ k'.registry.registry, Isolated k.calls t)
    (hcalls : k.calls ⊆ k'.calls) (hidles : k.Idles k')
    (hname : k'.currentTopic.topicName = k.currentTopic.topicName)
    (hmh : k'.currentTopic.mh = k.currentTopic.mh) : k'.Isolating := by
  refine ⟨fun t ht => (hentries t ht).mono hcalls, ?_, fun hreg => ?_, fun hsub => ?_,
    fun hreg hsub => h.exclusive (hidles.registering hreg) (hidles.subscribing hsub)⟩
  · rw [hname]
    exact h.proper
  · obtain ⟨hown, name, data, qos, hmem, htopic⟩ := h.registering (hidles.registering hreg)
    rw [hname, hmh]
    exact ⟨fun mh hh => (hown mh hh).mono hcalls, name, data, qos, hcalls hmem, htopic⟩
  · rw [hname, hmh]
    exact fun mh hh => (h.subscribing (hidles.subscribing hsub) mh hh).mono hcalls

/-- Nothing but the registry changes. -/
theorem of_registry (h : k.Isolating) {registry : NbiotTopicRegistry}
    (hentries : ∀ t ∈ registry.registry, Isolated k.calls t) :
    { k with registry := registry }.Isolating :=
  h.of_idles hentries (fun _ => id) ⟨id, id⟩ rfl rfl

theorem spares (h : k.Isolating) (hspares : k.Spares k') (huntouched : k.Untouched k') :
    k'.Isolating := by
  refine h.of_idles (fun t ht => ?_) ?_ (hspares.idles huntouched.loopId)
    (by rw [huntouched.currentTopic]) (by rw [huntouched.currentTopic])
  · obtain hsame | hnil := hspares.registry
    · rw [hsame] at ht
      exact h.entries t ht
    · rw [hnil] at ht
      cases ht
  · rw [huntouched.calls]
    exact fun _ => id

theorem settle (h : k.Isolating) (hapart : WildcardsApart k.calls k.heard) :
    k.settle.Isolating := by
  have hset {t : NbiotTopic} (flag : RegistrationFlag) (ht : Isolated k.calls t) :
      Isolated k.calls (t.setReg flag) := by
    cases flag <;> exact ht.of_alike rfl rfl
  have hname (t : NbiotTopic) (flag : RegistrationFlag) :
      (t.setReg flag).topicName = t.topicName := by
    cases flag <;> rfl
  cases hloop : k.loopId with
  | register =>
    have hreg : k.Registering := .inl hloop
    obtain ⟨hown, hpublished⟩ := h.registering hreg
    have hattached := Isolated.attached h.entries ⟨h.proper, hown⟩ (.inr hpublished) hapart
    have htopic := hset .pub hattached
    have hsettle : k.settle = { k with
        currentTopic := (k.registry.attachWildcardMessageHandler k.currentTopic).setReg .pub
        registry := k.registry.insertTopic
          ((k.registry.attachWildcardMessageHandler k.currentTopic).setReg .pub) } := by
      simp only [Ledger.settle, registeredTopic, hloop]
    rw [hsettle]
    refine ⟨fun t ht => .inserted h.entries htopic ht, htopic.proper, fun _ => ⟨htopic.own, ?_⟩,
      fun hsub => absurd hsub (h.exclusive hreg), fun _ => h.exclusive hreg⟩
    obtain ⟨name, data, qos, hmem, hpublish⟩ := hpublished
    refine ⟨name, data, qos, hmem, ?_⟩
    rw [hname, NbiotTopicRegistry.topicName_attachWildcard]
    exact hpublish
  | subscribe =>
    have hsub : k.Subscribing := .inl hloop
    have htopic := hset .sub ⟨h.proper, h.subscribing hsub⟩
    have hsettle : k.settle = { k with
        currentTopic := k.currentTopic.setReg .sub
        registry := (k.registry.insertTopic (k.currentTopic.setReg .sub)).updateWildcardMessageHandler
          (k.currentTopic.setReg .sub) } := by
      simp only [Ledger.settle, registeredTopic, hloop]
    rw [hsettle]
    exact ⟨fun t ht => .subscribed h.entries htopic ht, htopic.proper,
      fun hreg => absurd hsub (h.exclusive hreg), fun _ => htopic.own, h.exclusive⟩
  | _ =>
    have hsame : k.settle = k := by
      simp only [Ledger.settle, registeredTopic, hloop]
      rw [← hloop]
    rw [hsame]
    exact h

end Ledger.Isolating

/-! ## Runs -/

/-- The conditions on what is called and named hold of the past if they hold. -/
theorem WildcardsApart.before {k k' : Ledger} (h : Change C k k')
    (hapart : WildcardsApart k'.calls k'.heard) : WildcardsApart k.calls k.heard := by
  have hpast : k.calls ⊆ k'.calls ∧ k.heard ⊆ k'.heard := by
    cases h with
    | enqueue h => exact ⟨h.untouched.calls ▸ fun _ => id, h.untouched.heard ▸ fun _ => id⟩
    | dispatch pushed hpushed h =>
      exact ⟨h.untouched.calls ▸ fun _ => id, h.untouched.heard ▸ fun _ => id⟩
    | api call => exact ⟨fun _ => List.mem_cons_of_mem _, fun _ => id⟩
    | hear name => exact ⟨fun _ => id, fun _ => List.mem_cons_of_mem _⟩
    | _ => exact ⟨fun _ => id, fun _ => id⟩
  refine ⟨fun name hname => hapart.proper name (hpast.2 hname), ?_⟩
  intro topicName hnamed hwild name h hmem
  refine hapart.apart topicName ?_ hwild name h (hpast.1 hmem)
  exact hnamed.imp (fun h => hpast.2 h) fun ⟨data, qos, h⟩ => ⟨data, qos, hpast.1 h⟩

/-- Every change that registers a topic with its own handler at most keeps the
isolation. -/
theorem Change.isolating {k k' : Ledger} (h : Change HoldsOwn k k')
    (hapart' : WildcardsApart k'.calls k'.heard) (hk : k.Isolating) : k'.Isolating := by
  have hapart := WildcardsApart.before h hapart'
  cases h with
  | enqueue h => exact hk.spares (.of_queues h) h.untouched
  | dispatch pushed hpushed h => exact hk.spares h.spares h.untouched
  | take c queue h => exact hk.of_idles hk.entries (fun _ => id) (Ledger.idles_take h) rfl rfl
  | clear => exact hk.of_idles hk.entries (fun _ => id) k.idles_clear rfl rfl
  | unhook => exact hk.of_idles hk.entries (fun _ => id) k.idles_unhook rfl rfl
  | api call => exact hk.of_idles hk.entries (fun _ => List.mem_cons_of_mem _) ⟨id, id⟩ rfl rfl
  | publish => exact hk.of_idles hk.entries (fun _ => id) k.idles_publish rfl rfl
  | settle => exact hk.settle hapart
  | learn topic registry htopic hheard h =>
    refine hk.of_registry fun t ht => ?_
    have hisolated : Isolated k.calls topic := by
      refine ⟨hapart.proper _ hheard, fun h hh => ?_⟩
      exact nomatch htopic.1.symm.trans hh
    cases h with
    | fresh =>
      exact .inserted hk.entries (.attached hk.entries hisolated (.inl hheard) hapart) ht
    | known index hfound hsome => exact .inserted hk.entries hisolated ht
  | deliver n => exact hk.of_registry hk.entries
  | forget index =>
    exact hk.of_registry fun t ht =>
      hk.entries t ((NbiotTopicRegistry.removeTopic_sublist _ _).subset ht)
  | flag index =>
    refine hk.of_registry fun t ht => ?_
    obtain ⟨old, hold, hname, hmh⟩ := NbiotTopicRegistry.mem_setTopicFlag ht
    exact (hk.entries old hold).of_alike hname hmh
  | attach name mh index h hcall =>
    have hcall := mem_of_subscribeCall hcall
    refine hk.of_idles (fun t ht => ?_) (fun _ => id) ⟨id, id⟩ rfl rfl
    have hentry : cString (k.registry.topicAt index).topicName = cString name :=
      of_decide_eq_true (hasName_of_findTopic h)
    obtain ⟨old, hold, hname, hsame | ⟨hgiven, hfor⟩⟩ :=
      NbiotTopicRegistry.mem_attachMessageHandler ht
    · exact (hk.entries old hold).of_alike hname hsame
    · have hproper := (hk.entries old hold).proper
      refine ⟨?_, fun h' hh => ?_⟩
      · rw [hname]
        exact hproper
      · obtain rfl : mh = some h' := hgiven.symm.trans hh
        have hown : SubscribedFor k.calls h' (k.registry.topicAt index).topicName :=
          ⟨name, hcall, .inl hentry.symm⟩
        rw [hname]
        obtain rfl | ⟨hwild, hplain, hmatched⟩ := hfor
        · exact hown
        · exact hown.handed hwild hplain hproper hmatched
  | select name topic hfree h =>
    refine ⟨hk.entries, ?_, fun h => absurd h hfree.not_registering,
      fun h => absurd h hfree.not_subscribing, fun h => absurd h hfree.not_registering⟩
    cases h with
    | fresh => exact cString_cString name
    | known index hfound =>
      have hmem := List.mem_of_find?_eq_some (NbiotTopicRegistry.find?_of_findTopic hfound)
      exact (hk.entries _ hmem).proper
  | register name data qos hfree htopic hcall hC =>
    have hnot : ¬Ledger.Subscribing { k with queue := [.reg] } :=
      Ledger.not_subscribing_of_reg hfree.2 rfl
    refine ⟨hk.entries, hk.proper, fun _ => ?_, fun h => absurd h hnot, fun _ => hnot⟩
    obtain ⟨mh, htopic⟩ := htopic
    have hname : k.currentTopic.topicName = cString name := by rw [htopic]; rfl
    refine ⟨fun h hh => ?_, name, data, qos, hcall, hname⟩
    refine (hC h hh).of_cString ?_
    rw [show k.currentTopic.topicName = cString name from hname, cString_cString]
  | subscribe name mh hfree hname hcall =>
    have hcall := mem_of_subscribeCall hcall
    have hnot : ¬Ledger.Registering { k with
        currentTopic := { k.currentTopic with mh := mh }, queue := [.sub], asked := some (name, mh) } :=
      Ledger.not_registering_of_sub hfree.2 rfl
    refine ⟨hk.entries, hk.proper, fun h => absurd h hnot, fun _ h hh => ?_, fun h => absurd h hnot⟩
    obtain rfl : mh = some h := hh
    have hsame : cString k.currentTopic.topicName = cString name := of_decide_eq_true hname
    exact ⟨name, hcall, .inl hsame.symm⟩
  | _ => exact hk.of_idles hk.entries (fun _ => id) ⟨id, id⟩ rfl rfl

theorem Boots.isolating {authLogin authPasswd : Bytes} {maxTopics : Nat} {k : Ledger}
    (h : Boots (.fresh authLogin authPasswd maxTopics) k) : k.Isolating := by
  have hfresh : (Ledger.fresh authLogin authPasswd maxTopics).Isolating := by
    refine ⟨nofun, rfl, ?_, ?_, ?_⟩ <;> rintro (h | h) <;> cases h
  cases h with
  | stays => exact hfresh
  | starts k₁ k' h hdispatch =>
    refine Ledger.Isolating.spares ?_ hdispatch.spares hdispatch.untouched
    cases h <;> exact hfresh.of_idles nofun (fun _ => id) ⟨id, id⟩ rfl rfl

/-- **Handlers are isolated** in every state of every run in which a new topic is
published only while the current topic holds no handler of another one, and the
wildcards that are published or named are kept apart. -/
theorem handlersIsolated_after (setting : Setting) (calls : List ApiCall)
    (hadmits : setting.Admits HoldsOwn calls)
    (hapart : WildcardsApart (apiCalls (setting.after calls).trace)
      (namedTopics (setting.after calls).trace)) :
    HandlersIsolated (setting.after calls) := by
  have hisolating := after_keeps
    (J := fun k => WildcardsApart k.calls k.heard → k.Isolating) (fun _ _ _ _ h _ => h.isolating)
    (fun h hk hapart => h.isolating hapart (hk (hapart.before h))) setting calls hadmits hapart
  intro t ht h hh
  have hisolated := hisolating.entries t ht
  obtain ⟨name, hmem, hname | ⟨-, hwild, hmatched⟩⟩ := hisolated.own h hh
  · refine ⟨name, hmem, .inl ?_⟩
    rw [NbiotTopic.hasName, NbiotTopic.ofName, cString_cString, hname]
    exact decide_eq_true rfl
  · refine ⟨name, hmem, .inr ⟨(NbiotTopic.isWildcardTopic_ofName name).trans hwild, ?_⟩⟩
    rw [NbiotTopic.isTopicMatched, NbiotTopic.ofName, cString_cString, ← hisolated.proper]
    exact hmatched

/-- A wildcard is subscribed in a connected library. -/
def wildcardRun : List ApiCall :=
  connecting 1 ++ .subscribe [hash] (some 7) :: List.replicate 3 (.eventLoop .active)

/-- The gateway names a plain topic while a wildcard is subscribed. -/
theorem handlersIsolated_after_wildcardRun : HandlersIsolated
    ((Setting.script [[3], [5, 0], [7], [10, 0, 9, 0, 1, 97], [8], [19, 0, 0, 5, 0, 1, 0]] 100).after
      wildcardRun) := by
  refine handlersIsolated_after _ _ ?_ ⟨by decide +kernel, ?_⟩
  · rintro before call hprefix topic data qos rfl
    have hmem : ApiCall.publish topic data qos ∈ wildcardRun :=
      hprefix.subset (List.mem_append_right _ List.mem_cons_self)
    simp [wildcardRun, connecting] at hmem
  · have hnamed : ∀ name ∈ namedTopics ((Setting.script
        [[3], [5, 0], [7], [10, 0, 9, 0, 1, 97], [8], [19, 0, 0, 5, 0, 1, 0]] 100).after
          wildcardRun).trace, isWildcardName name = false := by
      decide +kernel
    have hcalls : ∀ call ∈ apiCalls ((Setting.script
        [[3], [5, 0], [7], [10, 0, 9, 0, 1, 97], [8], [19, 0, 0, 5, 0, 1, 0]] 100).after
          wildcardRun).trace, call ∈ wildcardRun := by
      decide +kernel
    rintro topicName (hheard | ⟨data, qos, hpublish⟩) hwild
    · exact nomatch (hnamed _ hheard).symm.trans hwild
    · have hmem := hcalls _ hpublish
      simp [wildcardRun, connecting] at hmem

/-- A topic is published for the first time after the subscribe of another one. -/
theorem not_handlersIsolated_after_publish : ¬HandlersIsolated
    ((Setting.script [[3], [5, 0], [8], [19, 0, 0, 5, 0, 1, 0], [7], [11, 0, 6, 0, 2, 0]] 100).after
      (connecting 1 ++ .subscribe [97] (some 7) :: List.replicate 3 (.eventLoop .active) ++
        .publish [98] [1] .qos0 :: List.replicate 2 (.eventLoop .active))) := by
  intro h
  have hentry : ({ id := 6, topicName := [98], mh := some 7, regFlag := { pub := true } } :
      NbiotTopic) ∈ ((Setting.script
        [[3], [5, 0], [8], [19, 0, 0, 5, 0, 1, 0], [7], [11, 0, 6, 0, 2, 0]] 100).after
      (connecting 1 ++ .subscribe [97] (some 7) :: List.replicate 3 (.eventLoop .active) ++
        .publish [98] [1] .qos0 :: List.replicate 2 (.eventLoop .active))).rest.registry.registry := by
    decide +kernel
  have hcalls : ∀ call ∈ apiCalls ((Setting.script
        [[3], [5, 0], [8], [19, 0, 0, 5, 0, 1, 0], [7], [11, 0, 6, 0, 2, 0]] 100).after
      (connecting 1 ++ .subscribe [97] (some 7) :: List.replicate 3 (.eventLoop .active) ++
        .publish [98] [1] .qos0 :: List.replicate 2 (.eventLoop .active))).trace,
      call ∈ connecting 1 ++ .subscribe [97] (some 7) :: List.replicate 3 (.eventLoop .active) ++
        .publish [98] [1] .qos0 :: List.replicate 2 (.eventLoop .active) := by
    decide +kernel
  obtain ⟨name, hmem, hname⟩ := h _ hentry 7 rfl
  obtain rfl : name = [97] := by simpa [connecting] using hcalls _ hmem
  revert hname
  decide

end LibNbiot
