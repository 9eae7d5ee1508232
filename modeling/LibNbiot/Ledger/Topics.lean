/-
# The entries of the topic registry

Where the entries of the registry come from after an operation: from an old entry
with its name, from the topic that is inserted, or from an old entry that a
handler was handed to. With it what a dispatch leaves of the registry and of the
queue, and the clients that serve the current topic.
-/

import LibNbiot.Ledger.Runs

namespace LibNbiot

open Logic.Program Relation

/-! ## Names -/

/-- A name with a wildcard character, as the registry sees it. -/
def isWildcardName (name : Bytes) : Bool :=
  (cString name).contains plus || (cString name).contains hash

namespace NbiotTopic

theorem isWildcardTopic_eq (t : NbiotTopic) : t.isWildcardTopic = isWildcardName t.topicName := by
  cases hname : t.topicName with
  | nil => simp [isWildcardTopic, isWildcardName, cString, hname]
  | cons c name => simp [isWildcardTopic, isWildcardName, hname]

theorem isTopicMatched_of_hasName {w w' : NbiotTopic} (h : w.hasName w'.topicName = true)
    (t : NbiotTopic) : w.isTopicMatched t = w'.isTopicMatched t := by
  have hname : cString w.topicName = cString w'.topicName := of_decide_eq_true h
  rw [isTopicMatched, isTopicMatched, hname]

theorem isWildcardTopic_of_hasName {t t' : NbiotTopic} (h : t.hasName t'.topicName = true) :
    t.isWildcardTopic = t'.isWildcardTopic := by
  have hname : cString t.topicName = cString t'.topicName := of_decide_eq_true h
  rw [isWildcardTopic_eq, isWildcardTopic_eq, isWildcardName, isWildcardName, hname]

theorem isWildcardTopic_ofName (name : Bytes) :
    (ofName name).isWildcardTopic = isWildcardName name := by
  rw [isWildcardTopic_eq, isWildcardName, isWildcardName, ofName, cString_cString]

end NbiotTopic

/-! ## Entries -/

theorem mem_modify {α : Type} {l : List α} {i : Nat} {f : α → α} {a : α} (h : a ∈ l.modify i f) :
    a ∈ l ∨ ∃ b, l[i]? = some b ∧ a = f b := by
  obtain ⟨j, hj⟩ := List.mem_iff_getElem?.1 h
  rw [List.getElem?_modify] at hj
  obtain ⟨b, hb, hab⟩ := Option.map_eq_some_iff.1 hj
  by_cases hij : i = j
  · subst hij
    exact .inr ⟨b, hb, by simpa using hab.symm⟩
  · have hab : b = a := by simpa [hij] using hab
    exact .inl (hab ▸ List.mem_of_getElem? hb)

namespace NbiotTopicRegistry

variable {r : NbiotTopicRegistry} {t topic : NbiotTopic}

/-- What becomes of a topic that is inserted: the entry is the topic, or the old
entry of that name with the topic assigned to it. -/
inductive Inserts (r : NbiotTopicRegistry) (topic : NbiotTopic) : NbiotTopic → Prop
  | appended (h : r.registry.find? (·.hasName topic.topicName) = none) : Inserts r topic topic
  | assigned (old : NbiotTopic) (h : r.registry.find? (·.hasName topic.topicName) = some old) :
      Inserts r topic (old.assign topic)

theorem Inserts.topicName (h : Inserts r topic t) : t.topicName = topic.topicName := by
  cases h <;> rfl

/-- An entry after an insertion is an old one or the new one. -/
theorem mem_insertTopic (h : t ∈ (r.insertTopic topic).registry) :
    t ∈ r.registry ∨ Inserts r topic t := by
  unfold insertTopic at h
  split at h
  · exact .inl h
  · split at h
    · rename_i hnone
      obtain h | h := List.mem_append.1 h
      · exact .inl h
      · rw [List.mem_singleton.1 h]
        exact .inr (.appended (List.find?_eq_none.2 fun t ht => by
          simpa using List.findIdx?_eq_none_iff.1 hnone t ht))
    · rename_i index hindex
      obtain h | ⟨old, hold, rfl⟩ := mem_modify h
      · exact .inl h
      · refine .inr (.assigned old ?_)
        obtain ⟨hlt, hname, hfirst⟩ := List.findIdx?_eq_some_iff_getElem.1 hindex
        obtain ⟨hlt', rfl⟩ := List.getElem?_eq_some_iff.1 hold
        refine List.find?_eq_some_iff_getElem.2 ⟨hname, index, hlt, rfl, fun j hj => ?_⟩
        simpa using hfirst j hj

theorem mem_updateMatched {registry : List NbiotTopic} {wildcard : NbiotTopic}
    {mh : Option MessageHandler} (h : t ∈ updateMatched registry wildcard mh) :
    ∃ old ∈ registry,
      t = old ∧ ¬(old.hasName wildcard.topicName = false ∧ old.isWildcardTopic = false ∧
        wildcard.isTopicMatched old = true) ∨
      t = { old with mh := mh } ∧ old.isWildcardTopic = false ∧
        wildcard.isTopicMatched old = true := by
  obtain ⟨old, hold, rfl⟩ := List.mem_map.1 h
  refine ⟨old, hold, ?_⟩
  by_cases hmatched : (!old.hasName wildcard.topicName && !old.isWildcardTopic &&
      wildcard.isTopicMatched old) = true
  · rw [if_pos hmatched]
    simp only [Bool.and_eq_true, Bool.not_eq_true'] at hmatched
    exact .inr ⟨rfl, hmatched.1.2, hmatched.2⟩
  · rw [if_neg hmatched]
    refine .inl ⟨rfl, fun hall => hmatched ?_⟩
    simp [hall]

theorem removeMatched_sublist (topic : NbiotTopic) (index n : Nat) (registry : List NbiotTopic) :
    (removeMatched topic index n registry).Sublist registry := by
  induction n generalizing registry with
  | zero => exact .refl _
  | succ i ih =>
    refine (ih _).trans ?_
    split
    · exact List.eraseIdx_sublist ..
    · exact .refl _

theorem removeTopic_sublist (r : NbiotTopicRegistry) (index : Nat) :
    (r.removeTopic index).registry.Sublist r.registry := by
  refine (List.eraseIdx_sublist ..).trans ?_
  split
  · exact removeMatched_sublist ..
  · exact .refl _

/-- A topic takes the handler of the first wildcard entry that matches it, or no
wildcard entry does. -/
theorem attachWildcard_cases (r : NbiotTopicRegistry) (topic : NbiotTopic) :
    (∃ w ∈ r.registry, w.isWildcardTopic = true ∧ w.isTopicMatched topic = true ∧
        r.attachWildcardMessageHandler topic = { topic with mh := w.mh }) ∨
      (∀ w ∈ r.registry, w.isWildcardTopic = true → w.isTopicMatched topic = false) ∧
        r.attachWildcardMessageHandler topic = topic := by
  unfold attachWildcardMessageHandler
  split
  · rename_i w hfound
    have hw := List.find?_some hfound
    simp only [Bool.and_eq_true] at hw
    exact .inl ⟨w, List.mem_of_find?_eq_some hfound, hw.1, hw.2, rfl⟩
  · rename_i hnone
    refine .inr ⟨fun w hw hwild => ?_, rfl⟩
    have hno := List.find?_eq_none.1 hnone w hw
    simpa [hwild] using hno

theorem topicName_attachWildcard (r : NbiotTopicRegistry) (topic : NbiotTopic) :
    (r.attachWildcardMessageHandler topic).topicName = topic.topicName := by
  unfold attachWildcardMessageHandler
  split <;> rfl

/-- The entry that is found by its name. -/
theorem find?_of_findTopic {name : Bytes} {index : Nat} (h : r.findTopic name = some index) :
    r.registry.find? (·.hasName name) = some (r.topicAt index) := by
  unfold findTopic at h
  split at h
  · cases h
  · obtain ⟨hlt, hname, hfirst⟩ := List.findIdx?_eq_some_iff_getElem.1 h
    rw [topicAt, List.getD_eq_getElem _ _ hlt]
    exact List.find?_eq_some_iff_getElem.2 ⟨hname, index, hlt, rfl, fun j hj => by
      simpa using hfirst j hj⟩

theorem mem_setTopicFlag {index : Nat} {flag : RegistrationFlag}
    (h : t ∈ (r.setTopicFlag index flag).registry) :
    ∃ old ∈ r.registry, t.topicName = old.topicName ∧ t.mh = old.mh := by
  obtain h | ⟨old, hold, rfl⟩ := mem_modify h
  · exact ⟨t, h, rfl, rfl⟩
  · refine ⟨old, List.mem_of_getElem? hold, ?_⟩
    cases flag <;> exact ⟨rfl, rfl⟩

/-- Attaching a handler to an entry changes handlers only: of the entry itself,
and of the plain entries that it matches if it is a wildcard. -/
theorem mem_attachMessageHandler {index : Nat} {mh : Option MessageHandler}
    (h : t ∈ (r.attachMessageHandler index mh).registry) :
    ∃ old ∈ r.registry, t.topicName = old.topicName ∧
      (t.mh = old.mh ∨ t.mh = mh ∧
        (old = r.topicAt index ∨ (r.topicAt index).isWildcardTopic = true ∧
          old.isWildcardTopic = false ∧ (r.topicAt index).isTopicMatched old = true)) := by
  have hmodified : ∀ {t}, t ∈ r.registry.modify index ({ · with mh := mh }) →
      ∃ old ∈ r.registry, t.topicName = old.topicName ∧
        (t.mh = old.mh ∨ t.mh = mh ∧ old = r.topicAt index) := by
    intro t h
    obtain h | ⟨old, hold, rfl⟩ := mem_modify h
    · exact ⟨t, h, rfl, .inl rfl⟩
    · refine ⟨old, List.mem_of_getElem? hold, rfl, .inr ⟨rfl, ?_⟩⟩
      simp [topicAt, List.getD, hold]
  unfold attachMessageHandler at h
  split at h
  · dsimp only at h
    split at h
    · rename_i hwild
      obtain ⟨new, hnew, ⟨rfl, -⟩ | ⟨rfl, hplain, hmatched⟩⟩ := mem_updateMatched h
      · obtain ⟨old, hold, hname, hmh⟩ := hmodified hnew
        exact ⟨old, hold, hname, hmh.imp_right fun h => ⟨h.1, .inl h.2⟩⟩
      · obtain ⟨old, hold, hname, -⟩ := hmodified hnew
        rw [NbiotTopic.isWildcardTopic_eq, hname, ← NbiotTopic.isWildcardTopic_eq] at hplain
        rw [NbiotTopic.isTopicMatched, hname] at hmatched
        exact ⟨old, hold, hname, .inr ⟨rfl, .inr ⟨hwild, hplain, hmatched⟩⟩⟩
    · obtain ⟨old, hold, hname, hmh⟩ := hmodified h
      exact ⟨old, hold, hname, hmh.imp_right fun h => ⟨h.1, .inl h.2⟩⟩
  · exact ⟨t, h, rfl, .inl rfl⟩

/-- A wildcard that is subscribed hands its handler to the plain entries that it
matches, provided that it is an entry itself. -/
theorem mem_updateWildcardMessageHandler
    (h : t ∈ (r.updateWildcardMessageHandler topic).registry)
    (hentry : ∃ entry ∈ r.registry, entry.hasName topic.topicName = true) :
    ∃ old ∈ r.registry, t.topicName = old.topicName ∧
      (t.mh = old.mh ∧ (topic.isWildcardTopic = true → old.isWildcardTopic = false →
          topic.isTopicMatched old = false) ∨
        t.mh = topic.mh ∧ topic.isWildcardTopic = true ∧ old.isWildcardTopic = false ∧
          topic.isTopicMatched old = true) := by
  unfold updateWildcardMessageHandler at h
  split at h
  · rename_i hwild
    split at h
    · rename_i index hindex
      obtain ⟨hlt, hname, -⟩ := List.findIdx?_eq_some_iff_getElem.1 hindex
      have hentry : (r.topicAt index).hasName topic.topicName = true := by
        rw [topicAt, List.getD_eq_getElem _ _ hlt]
        exact hname
      have hmatches := NbiotTopic.isTopicMatched_of_hasName hentry
      obtain ⟨old, hold, ⟨rfl, hno⟩ | ⟨rfl, hplain, hmatched⟩⟩ := mem_updateMatched h
      · refine ⟨t, hold, rfl, .inl ⟨rfl, fun _ hplain => ?_⟩⟩
        by_contra hmatched
        refine hno ⟨Bool.eq_false_of_not_eq_true fun hsame => ?_, hplain, ?_⟩
        · rw [NbiotTopic.isWildcardTopic_of_hasName hsame,
            NbiotTopic.isWildcardTopic_of_hasName hentry, hwild] at hplain
          cases hplain
        · rw [hmatches]
          exact Bool.eq_true_of_not_eq_false hmatched
      · rw [hmatches] at hmatched
        exact ⟨old, hold, rfl, .inr ⟨rfl, hwild, hplain, hmatched⟩⟩
    · rename_i hnone
      obtain ⟨entry, hmem, hname⟩ := hentry
      have hno := List.findIdx?_eq_none_iff.1 hnone entry hmem
      cases hno.symm.trans hname
  · rename_i hplain
    exact ⟨t, h, rfl, .inl ⟨rfl, fun hwild => absurd hwild hplain⟩⟩

/-- After an insertion there is an entry of the topic's name. -/
theorem exists_hasName_insertTopic (r : NbiotTopicRegistry) (topic : NbiotTopic)
    (h : topic.topicName ≠ []) :
    ∃ entry ∈ (r.insertTopic topic).registry, entry.hasName topic.topicName = true := by
  have hself : topic.hasName topic.topicName = true := decide_eq_true rfl
  unfold insertTopic
  rw [if_neg (by simpa using h)]
  split
  · exact ⟨topic, List.mem_append_right _ (List.mem_singleton.2 rfl), hself⟩
  · rename_i index hindex
    obtain ⟨hlt, -, -⟩ := List.findIdx?_eq_some_iff_getElem.1 hindex
    refine ⟨(r.registry[index]).assign topic, ?_, hself⟩
    refine List.mem_iff_getElem?.2 ⟨index, ?_⟩
    rw [List.getElem?_modify]
    simp [hlt]

end NbiotTopicRegistry

/-! ## What the state machine leaves of the topics -/

/-- The registry is as it was or empty, and no client for the current topic is
queued. -/
structure Ledger.Spares (k k' : Ledger) : Prop where
  registry : k'.registry.registry = k.registry.registry ∨ k'.registry.registry = []
  queue : ∃ cs, (∀ c ∈ cs, c.aside = true) ∧ k'.queue = k.queue ++ cs

namespace Ledger.Spares

theorem refl (k : Ledger) : k.Spares k := ⟨.inl rfl, [], nofun, (List.append_nil _).symm⟩

theorem trans {k k' k'' : Ledger} (h : k.Spares k') (h' : k'.Spares k'') : k.Spares k'' := by
  obtain ⟨hregistry, cs, hcs, hqueue⟩ := h
  obtain ⟨hregistry', cs', hcs', hqueue'⟩ := h'
  refine ⟨?_, cs ++ cs', fun c hc => (List.mem_append.1 hc).elim (hcs c) (hcs' c), ?_⟩
  · obtain h | h := hregistry'
    · rw [h]
      exact hregistry
    · exact .inr h
  · rw [hqueue', hqueue, List.append_assoc]

theorem of_queues {k k' : Ledger} (h : k.Queues k') : k.Spares k' := by
  obtain ⟨cs, hcs, rfl⟩ := h
  exact ⟨.inl rfl, cs, hcs, rfl⟩

/-- A change of other fields. -/
theorem of_eq {k k' : Ledger} (hregistry : k'.registry = k.registry) (hqueue : k'.queue = k.queue) :
    k.Spares k' :=
  ⟨.inl (by rw [hregistry]), [], nofun, by rw [hqueue, List.append_nil]⟩

end Ledger.Spares

theorem StateId.Enters.spares {e : StmEvent} {st : StateId} {k k' : Ledger}
    (h : st.Enters e k k') : k.Spares k' := by
  cases h with
  | disconnected k' h => exact (Ledger.Spares.of_queues h).trans (.of_eq rfl rfl)
  | deepSleep k' h => exact (Ledger.Spares.of_queues h).trans (.of_eq rfl rfl)
  | connected registry h =>
    refine ⟨?_, [], nofun, (List.append_nil _).symm⟩
    obtain rfl | rfl := h
    · exact .inl rfl
    · exact .inr rfl
  | _ => exact .of_eq rfl rfl

theorem Triggers.spares {e : StmEvent} {t : Transition} {target : Target} {k k' : Ledger}
    (h : Triggers e t target k k') : k.Spares k' := by
  have hperforms {t : Transition} {k k' : Ledger} (h : t.Performs k k') : k.Spares k' := by
    obtain ⟨cs, hcs, rfl⟩ := h
    exact ⟨.inl rfl, cs, hcs, rfl⟩
  induction h with
  | state h henter => exact (hperforms h).trans henter.spares
  | first h hgo hc ih => exact (hperforms h).trans ih
  | second h hgo hc ih => exact (hperforms h).trans ih

theorem Drains.spares {es : List StmEvent} {k k' : Ledger} (h : Drains es k k') : k.Spares k' := by
  induction h with
  | done k => exact .of_eq rfl rfl
  | @handle e es k k₁ k' h hrest ih =>
    have hready : k.Spares { k with events := es } := .of_eq rfl rfl
    refine hready.trans (Ledger.Spares.trans ?_ ih)
    cases h with
    | ignored h => exact .refl _
    | taken t k' h htrigger => exact htrigger.spares

theorem Dispatches.spares {pushed : List StmEvent} {k k' : Ledger} (h : Dispatches pushed k k') :
    k.Spares k' := by
  obtain ⟨timer, timeout, k', htimer, htimeout, h⟩ := h
  have htimed : k.Spares { k with timeout := timeout } := .of_eq rfl rfl
  exact htimed.trans (h.spares.trans (.of_eq rfl rfl))

/-! ## The clients for the current topic -/

/-- The register client is queued or at work. -/
def Ledger.Registering (k : Ledger) : Prop := k.loopId = .register ∨ .reg ∈ k.queue

/-- The subscribe client is queued or at work. -/
def Ledger.Subscribing (k : Ledger) : Prop := k.loopId = .subscribe ∨ .sub ∈ k.queue

/-- No client for the current topic is new. -/
structure Ledger.Idles (k k' : Ledger) : Prop where
  registering : k'.Registering → k.Registering
  subscribing : k'.Subscribing → k.Subscribing

theorem Ledger.Spares.idles {k k' : Ledger} (h : k.Spares k') (hloop : k'.loopId = k.loopId) :
    k.Idles k' := by
  obtain ⟨-, cs, hcs, hqueue⟩ := h
  have hno {c : ClientId} (hc : c.aside = false) (hmem : c ∈ k'.queue) : c ∈ k.queue := by
    rw [hqueue] at hmem
    exact (List.mem_append.1 hmem).resolve_right fun hmem =>
      Bool.false_ne_true (hc.symm.trans (hcs c hmem))
  refine ⟨fun h => ?_, fun h => ?_⟩
  · exact h.imp hloop.symm.trans (hno rfl)
  · exact h.imp hloop.symm.trans (hno rfl)

theorem Ledger.Free.not_registering {k : Ledger} (h : k.Free) : ¬k.Registering := by
  rintro (hloop | hmem)
  · exact nomatch h.2.symm.trans hloop
  · rw [h.1] at hmem
    cases hmem

theorem Ledger.Free.not_subscribing {k : Ledger} (h : k.Free) : ¬k.Subscribing := by
  rintro (hloop | hmem)
  · exact nomatch h.2.symm.trans hloop
  · rw [h.1] at hmem
    cases hmem

theorem Ledger.idles_take {k : Ledger} {c : ClientId} {queue : List ClientId}
    (h : k.queue = c :: queue) : k.Idles { k with queue := queue, loopId := c.loopId } := by
  refine ⟨fun hreg => .inr ?_, fun hsub => .inr ?_⟩
  · rw [h]
    obtain hloop | hmem := hreg
    · cases c <;> first | exact List.mem_cons_self | cases hloop
    · exact List.mem_cons_of_mem _ hmem
  · rw [h]
    obtain hloop | hmem := hsub
    · cases c <;> first | exact List.mem_cons_self | cases hloop
    · exact List.mem_cons_of_mem _ hmem

theorem Ledger.idles_clear (k : Ledger) : k.Idles { k with queue := [], loopId := .unknown } := by
  constructor <;> rintro (hloop | hmem) <;> contradiction

theorem Ledger.idles_unhook (k : Ledger) : k.Idles { k with loopId := .unknown } := by
  constructor
  · rintro (hloop | hmem)
    · cases hloop
    · exact .inr hmem
  · rintro (hloop | hmem)
    · cases hloop
    · exact .inr hmem

theorem Ledger.idles_publish (k : Ledger) : k.Idles { k with queue := k.queue ++ [.pub] } := by
  constructor
  · exact Or.imp_right fun hmem => by simpa using hmem
  · exact Or.imp_right fun hmem => by simpa using hmem

/-- With the register client alone nothing is being subscribed. -/
theorem Ledger.not_subscribing_of_reg {k : Ledger} (hloop : k.loopId = .unknown)
    (hqueue : k.queue = [.reg]) : ¬k.Subscribing := by
  rintro (h | h)
  · exact nomatch hloop.symm.trans h
  · simp [hqueue] at h

/-- With the subscribe client alone nothing is being registered. -/
theorem Ledger.not_registering_of_sub {k : Ledger} (hloop : k.loopId = .unknown)
    (hqueue : k.queue = [.sub]) : ¬k.Registering := by
  rintro (h | h)
  · exact nomatch hloop.symm.trans h
  · simp [hqueue] at h

end LibNbiot
