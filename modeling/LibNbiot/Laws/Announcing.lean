/-
# The REGISTERs of the gateway

A REGISTER tells the library the id of a topic name. It is inserted into the
registry as a topic without flags, so a name that is registered already loses its
own. Messages are dispatched by their id, to the first entry that has it, and an
entry may still have an id that the gateway has given to another name since.
-/

import LibNbiot.Laws.Unsubscribing

namespace LibNbiot

open Logic.Program Ledger

namespace NbiotTopicRegistry

variable {r : NbiotTopicRegistry} {topic : NbiotTopic}

/-! ## The entry of an inserted topic -/

/-- Before the place of a name no entry has it. -/
theorem take_findIdx (r : NbiotTopicRegistry) (name : Bytes) :
    ∀ t ∈ r.registry.take (r.registry.findIdx (·.hasName name)), t.hasName name = false := by
  intro t ht
  obtain ⟨i, hi, rfl⟩ := List.mem_take_iff_getElem.1 ht
  have hlt : i < r.registry.findIdx (·.hasName name) := by omega
  exact List.not_of_lt_findIdx hlt

/-- What an insertion leaves: an entry of the topic at its place, and no other change. -/
structure InsertsAt (r : NbiotTopicRegistry) (topic entry : NbiotTopic)
    (before after : List NbiotTopic) (r' : NbiotTopicRegistry) : Prop where
  topicName : entry.topicName = topic.topicName
  id : entry.id = topic.id
  type : entry.type = topic.type
  regFlag : entry.regFlag = topic.regFlag
  fresh : ∀ t ∈ before, t.hasName topic.topicName = false
  registry : r'.registry = before ++ entry :: after
  old : r.registry = before ∧ after = [] ∨
    ∃ old, old.hasName topic.topicName = true ∧ r.registry = before ++ old :: after

theorem insertTopic_insertsAt (hname : topic.topicName ≠ []) : ∃ entry after,
    InsertsAt r topic entry (r.registry.take (r.registry.findIdx (·.hasName topic.topicName))) after
      (r.insertTopic topic) := by
  have hfresh := r.take_findIdx topic.topicName
  rw [insertTopic, if_neg (by simpa using hname)]
  cases hfound : r.registry.findIdx? (·.hasName topic.topicName) with
  | none =>
    have hplace : r.registry.findIdx (·.hasName topic.topicName) = r.registry.length :=
      List.findIdx_eq_length_of_false (List.findIdx?_eq_none_iff.1 hfound)
    rw [hplace, List.take_length] at hfresh ⊢
    exact ⟨topic, [], rfl, rfl, rfl, rfl, hfresh, rfl, .inl ⟨rfl, rfl⟩⟩
  | some index =>
    obtain ⟨hlt, hhas, -⟩ := List.findIdx?_eq_some_iff_getElem.1 hfound
    have hplace : r.registry.findIdx (·.hasName topic.topicName) = index :=
      (List.findIdx?_eq_some_iff_findIdx_eq.1 hfound).2
    rw [hplace] at hfresh ⊢
    have hsplit : r.registry =
        r.registry.take index ++ r.registry[index] :: r.registry.drop (index + 1) := by
      rw [← List.drop_eq_getElem_cons hlt, List.take_append_drop]
    refine ⟨r.registry[index].assign topic, r.registry.drop (index + 1), rfl, rfl, rfl, rfl, hfresh,
      ?_, .inr ⟨_, hhas, hsplit⟩⟩
    simp [List.modify_eq_take_cons_drop hlt]

/-- The flags of a name after a topic without flags was inserted. -/
theorem hasTopic_insertTopic (hname : topic.topicName ≠ []) (hflag : topic.regFlag = {})
    (name : Bytes) {flag : RegistrationFlag} (hset : flag = .pub ∨ flag = .sub) :
    (r.insertTopic topic).hasTopic name flag =
      (cString name ≠ cString topic.topicName && r.hasTopic name flag) := by
  obtain ⟨entry, after, hentry⟩ := insertTopic_insertsAt (r := r) hname
  generalize r.registry.take _ = before at hentry
  have hunset : entry.isReg flag = false := by
    obtain rfl | rfl := hset <;> simp [NbiotTopic.isReg, hentry.regFlag, hflag]
  have hkey (t : NbiotTopic) : t.hasName name = decide (t.key = cString name) :=
    Bool.eq_iff_iff.2 ((t.hasName_iff name).trans decide_eq_true_iff.symm)
  have hentry' : entry.key = cString topic.topicName := congrArg cString hentry.topicName
  rw [hasTopic_eq, hasTopic_eq, hentry.registry, List.find?_append, List.find?_cons, hkey entry,
    hentry']
  by_cases hsame : cString name = cString topic.topicName
  · -- the entry is the first one of the name
    have hnone : before.find? (·.hasName name) = none := by
      refine List.find?_eq_none.2 fun t ht => ?_
      have hno := hentry.fresh t ht
      rw [NbiotTopic.hasName, ← hsame] at hno
      simpa [NbiotTopic.hasName] using hno
    simp [hsame, hnone, hunset]
  · have hne : cString topic.topicName ≠ cString name := fun h => hsame h.symm
    have hrest : r.registry.find? (·.hasName name) =
        (before.find? (·.hasName name)).or (after.find? (·.hasName name)) := by
      obtain ⟨hr, rfl⟩ | ⟨old, hold, hr⟩ := hentry.old
      · simp [hr]
      · have hno : ¬old.key = cString name := fun h =>
          hsame (h.symm.trans ((old.hasName_iff _).1 hold))
        rw [hr, List.find?_append, List.find?_cons, hkey old, decide_eq_false hno]
    simp [hsame, hne, hrest]

end NbiotTopicRegistry

/-- The topic of a REGISTER, as `notifyRegister` builds it. -/
def NbiotTopic.ofRegister (topicId : Nat) (topicName : Bytes) : NbiotTopic :=
  { NbiotTopic.ofId topicId with topicName := topicName }

/-- A REGISTER that is accepted inserts its topic, with a handler it may have got. -/
theorem registerNotify_inserts {topic : NbiotTopic} {s : Sys}
    (h : (registerNotify topic s).1 = rcAccepted) :
    ∃ mh, (registerNotify topic s).2.rest.registry =
      s.rest.registry.insertTopic { topic with mh := mh } := by
  have hattach (r : NbiotTopicRegistry) :
      ∃ mh, r.attachWildcardMessageHandler topic = { topic with mh := mh } := by
    unfold NbiotTopicRegistry.attachWildcardMessageHandler
    split
    · exact ⟨_, rfl⟩
    · exact ⟨topic.mh, rfl⟩
  obtain ⟨mh, hmh⟩ := hattach s.rest.registry
  rw [registerNotify, run_bind, run_bind, getRegistry_eq] at h ⊢
  have hsame : (logApp (.topicNamed topic.topicName) s).2.rest.registry = s.rest.registry := rfl
  generalize (logApp (.topicNamed topic.topicName) s).2 = s₁ at hsame h ⊢
  simp only [hsame] at h ⊢
  have hrun (t : NbiotTopic) :
      ((do modifyRegistry (·.insertTopic t); return rcAccepted : M Nat) s₁).2.rest.registry =
        s.rest.registry.insertTopic t :=
    congrArg (·.insertTopic t) hsame
  cases hfound : s.rest.registry.findTopic topic.topicName with
  | some index =>
    by_cases hhandler : (s.rest.registry.topicAt index).mh.isNone = true
    · exact ⟨mh, (hrun _).trans (by rw [if_pos hhandler, hmh])⟩
    · exact ⟨topic.mh, (hrun _).trans (by rw [if_neg hhandler])⟩
  | none =>
    simp only [hfound, run_bind, run_ite] at h ⊢
    split at h
    · rename_i hroom
      rw [if_pos hroom]
      exact ⟨mh, (hrun _).trans (by rw [hmh])⟩
    · cases h

/-! ## The flags -/

/-- The topics of a registry are registered and subscribed in another one as before. -/
def NbiotTopicRegistry.KeepsFlags (r r' : NbiotTopicRegistry) : Prop :=
  ∀ t ∈ r.registry, r'.hasTopic t.topicName .pub = r.hasTopic t.topicName .pub ∧
    r'.hasTopic t.topicName .sub = r.hasTopic t.topicName .sub

/-- Names that are one C string are one name. -/
theorem hasTopic_congr {r : NbiotTopicRegistry} {name name' : Bytes} {flag : RegistrationFlag}
    (h : cString name = cString name') : r.hasTopic name flag = r.hasTopic name' flag := by
  have hhas : (fun t : NbiotTopic => t.hasName name) = fun t => t.hasName name' := by
    funext t
    rw [NbiotTopic.hasName, NbiotTopic.hasName, h]
  rw [NbiotTopicRegistry.hasTopic_eq, NbiotTopicRegistry.hasTopic_eq, h, hhas]

theorem keepsFlags_insertTopic {r : NbiotTopicRegistry} {topic : NbiotTopic}
    (hflag : topic.regFlag = {}) : r.KeepsFlags (r.insertTopic topic) ↔
      ∀ index, r.findTopic topic.topicName = some index → (r.topicAt index).regFlag = {} := by
  by_cases hname : topic.topicName = []
  · have hsame : r.insertTopic topic = r := by simp [NbiotTopicRegistry.insertTopic, hname]
    have hno : r.findTopic topic.topicName = none := by
      simp [NbiotTopicRegistry.findTopic, hname, cString]
    rw [hsame, hno]
    refine iff_of_true (fun t _ => ⟨rfl, rfl⟩) fun index hfound => ?_
    cases hfound
  have hpub (name : Bytes) := NbiotTopicRegistry.hasTopic_insertTopic (r := r) hname hflag name (.inl rfl)
  have hsub (name : Bytes) := NbiotTopicRegistry.hasTopic_insertTopic (r := r) hname hflag name (.inr rfl)
  have hset (index : Nat) (flag : RegistrationFlag)
      (hfound : r.findTopic topic.topicName = some index) :
      r.hasTopic topic.topicName flag = (r.topicAt index).isReg flag := by
    simp [NbiotTopicRegistry.hasTopic, hfound]
  constructor
  · intro hkeeps index hfound
    have hentry := NbiotTopicRegistry.find?_of_findTopic hfound
    have hhas : (r.topicAt index).hasName topic.topicName = true := by
      simpa using List.find?_some hentry
    have hsame : cString (r.topicAt index).topicName = cString topic.topicName :=
      (NbiotTopic.hasName_iff _ _).1 hhas
    obtain ⟨hkeeps₁, hkeeps₂⟩ := hkeeps _ (List.mem_of_find?_eq_some hentry)
    rw [hpub, hasTopic_congr hsame, hset index _ hfound] at hkeeps₁
    rw [hsub, hasTopic_congr hsame, hset index _ hfound] at hkeeps₂
    have hunset : (r.topicAt index).regFlag.pub = false ∧ (r.topicAt index).regFlag.sub = false := by
      simpa [hsame, NbiotTopic.isReg] using And.intro hkeeps₁ hkeeps₂
    cases hflags : (r.topicAt index).regFlag with
    | mk pub sub =>
      rw [hflags] at hunset
      obtain ⟨rfl, rfl⟩ := hunset
      rfl
  · intro hbare t ht
    rw [hpub, hsub]
    by_cases hsame : cString t.topicName = cString topic.topicName
    · have hunset (flag : RegistrationFlag) (h : flag = .pub ∨ flag = .sub) :
          r.hasTopic t.topicName flag = false := by
        rw [hasTopic_congr hsame]
        cases hfound : r.findTopic topic.topicName with
        | none => simp [NbiotTopicRegistry.hasTopic, hfound]
        | some index =>
          rw [hset index flag hfound]
          obtain rfl | rfl := h <;> simp [NbiotTopic.isReg, hbare index hfound]
      simp [hunset .pub (.inl rfl), hunset .sub (.inr rfl)]
    · simp [hsame]

/-- **A REGISTER of the gateway does not change registrations** exactly if its name
is not registered yet, or registered without a flag. -/
theorem registerNotify_keepsFlags_iff (id : Nat) (name : Bytes) (s : Sys)
    (haccepted : (registerNotify (.ofRegister id name) s).1 = rcAccepted) :
    s.rest.registry.KeepsFlags
        (registerNotify (.ofRegister id name) s).2.rest.registry ↔
      ∀ index, s.rest.registry.findTopic name = some index →
        (s.rest.registry.topicAt index).regFlag = {} := by
  obtain ⟨mh, hinserts⟩ := registerNotify_inserts haccepted
  rw [hinserts]
  exact keepsFlags_insertTopic rfl

/-- A name that is not registered yet. -/
theorem registerNotify_keepsFlags_fresh :
    subscribedTwice.rest.registry.KeepsFlags
      (registerNotify (.ofRegister 11 [99]) subscribedTwice).2.rest.registry := by
  have haccepted : (registerNotify (.ofRegister 11 [99]) subscribedTwice).1 = rcAccepted := by
    decide +kernel
  have hfresh : subscribedTwice.rest.registry.findTopic [99] = none := by decide +kernel
  apply (registerNotify_keepsFlags_iff 11 [99] subscribedTwice haccepted).2
  intro index hfound
  rw [hfresh] at hfound
  cases hfound

/-- A subscribed name is not subscribed any more. -/
theorem not_registerNotify_keepsFlags :
    (registerNotify (.ofRegister 11 [97, slash, 98]) subscribedTwice).1 = rcAccepted ∧
      ¬subscribedTwice.rest.registry.KeepsFlags
        (registerNotify (.ofRegister 11 [97, slash, 98]) subscribedTwice).2.rest.registry := by
  have haccepted : (registerNotify (.ofRegister 11 [97, slash, 98]) subscribedTwice).1 =
      rcAccepted := by
    decide +kernel
  have hlost : ¬∀ t ∈ subscribedTwice.rest.registry.registry,
      (registerNotify (.ofRegister 11 [97, slash, 98]) subscribedTwice).2.rest.registry.hasTopic
          t.topicName .sub =
        subscribedTwice.rest.registry.hasTopic t.topicName .sub := by
    decide +kernel
  exact ⟨haccepted, fun h => hlost fun t ht => (h t ht).2⟩

/-! ## The dispatch of messages -/

namespace NbiotTopicRegistry

/-- A message with the id goes to the entry of the name, whose handler is called
with that name. -/
def DispatchesTo (r : NbiotTopicRegistry) (id : Nat) (name : Bytes) : Prop :=
  ∃ t, t.topicName = name ∧ name ≠ [] ∧
    r.registry.find? (·.hasName name) = some t ∧
    r.registry.find? (fun t => t.valid && t.id = id) = some t ∧
    (r.messageDispatcher id).1 = rcAccepted ∧
    (r.messageDispatcher id).2.1 = t.mh.map (·, name)

theorem messageDispatcher_of_find? {r : NbiotTopicRegistry} {id : Nat} {t : NbiotTopic}
    (h : r.registry.find? (fun t => t.valid && t.id = id) = some t) :
    (r.messageDispatcher id).1 = rcAccepted ∧
      (r.messageDispatcher id).2.1 = t.mh.map (·, t.topicName) := by
  rw [messageDispatcher, h]
  cases hmh : t.mh <;> simp [rcAccepted, hmh]

theorem InsertsAt.dispatchesTo_iff {r r' : NbiotTopicRegistry} {topic entry : NbiotTopic}
    {before after : List NbiotTopic} (h : InsertsAt r topic entry before after r')
    (hname : topic.topicName ≠ []) (htype : topic.type = .predefined) :
    r'.DispatchesTo topic.id topic.topicName ↔
      topic.id ≠ 0 ∧ ∀ t ∈ before, ¬(t.valid = true ∧ t.id = topic.id) := by
  have hhas : entry.hasName topic.topicName = true := by
    simp [NbiotTopic.hasName, h.topicName]
  have hvalid : entry.valid = decide (topic.id ≠ 0) := by
    rw [NbiotTopic.valid, h.type, htype, h.id]
  have hnamed : r'.registry.find? (·.hasName topic.topicName) = some entry := by
    have hnone : before.find? (·.hasName topic.topicName) = none :=
      List.find?_eq_none.2 fun t ht => by simp [h.fresh t ht]
    simp [h.registry, hnone, hhas]
  constructor
  · rintro ⟨t, -, -, hfound, hselected, -⟩
    obtain rfl := Option.some.inj (hnamed.symm.trans hfound)
    have hentry : entry.valid = true ∧ entry.id = topic.id := by
      simpa using List.find?_some hselected
    refine ⟨by simpa [hvalid] using hentry.1, fun t ht hother => ?_⟩
    -- the first such entry would be selected, but it has another name
    have hsome : (before.find? fun t => t.valid && t.id = topic.id).isSome := by
      rw [List.find?_isSome]
      exact ⟨t, ht, by simpa using hother⟩
    obtain ⟨u, hu⟩ := Option.isSome_iff_exists.1 hsome
    rw [h.registry, List.find?_append, hu, Option.some_or] at hselected
    obtain rfl := Option.some.inj hselected
    exact Bool.false_ne_true ((h.fresh _ (List.mem_of_find?_eq_some hu)).symm.trans hhas)
  · rintro ⟨hid, hbefore⟩
    have hnone : before.find? (fun t => t.valid && t.id = topic.id) = none :=
      List.find?_eq_none.2 fun t ht => by simpa using hbefore t ht
    have hselected : r'.registry.find? (fun t => t.valid && t.id = topic.id) = some entry := by
      simp [h.registry, hnone, hvalid, hid, h.id]
    obtain ⟨hrc, hcalled⟩ := messageDispatcher_of_find? hselected
    rw [h.topicName] at hcalled
    exact ⟨entry, h.topicName, hname, hnamed, hselected, hrc, hcalled⟩

end NbiotTopicRegistry

/-- **Messages follow the latest REGISTER** of their id exactly if the name and the
id are proper and no valid entry before the place of the name still has that id. -/
theorem registerNotify_dispatchesTo_iff (id : Nat) (name : Bytes) (s : Sys)
    (haccepted : (registerNotify (.ofRegister id name) s).1 = rcAccepted) :
    (∀ later : NbiotTopicRegistry, later.registry =
          (registerNotify (.ofRegister id name) s).2.rest.registry.registry →
        later.DispatchesTo id name) ↔
      name ≠ [] ∧ id ≠ 0 ∧
        ∀ t ∈ s.rest.registry.registry.take (s.rest.registry.registry.findIdx (·.hasName name)),
          ¬(t.valid = true ∧ t.id = id) := by
  obtain ⟨mh, hinserts⟩ := registerNotify_inserts haccepted
  rw [hinserts]
  generalize s.rest.registry = r
  by_cases hname : name = []
  · refine iff_of_false (fun h => ?_) (fun h => h.1 hname)
    obtain ⟨t, -, hproper, -⟩ := h _ rfl
    exact hproper hname
  · let topic : NbiotTopic := { NbiotTopic.ofRegister id name with mh := mh }
    obtain ⟨entry, after, hentry⟩ :=
      @NbiotTopicRegistry.insertTopic_insertsAt r topic hname
    have hiff {later : NbiotTopicRegistry} (h : later.registry = (r.insertTopic topic).registry) :=
      NbiotTopicRegistry.InsertsAt.dispatchesTo_iff
        { hentry with registry := h.trans hentry.registry } hname rfl
    constructor
    · intro h
      exact ⟨hname, (hiff rfl).1 (h _ rfl)⟩
    · intro h later hlater
      exact (hiff hlater).2 h.2

/-- The id of a fresh name that no entry has. -/
theorem registerNotify_dispatchesTo_fresh :
    (registerNotify (.ofRegister 11 [99]) subscribedTwice).2.rest.registry.DispatchesTo 11 [99] := by
  have haccepted : (registerNotify (.ofRegister 11 [99]) subscribedTwice).1 = rcAccepted := by
    decide +kernel
  refine (registerNotify_dispatchesTo_iff 11 [99] subscribedTwice haccepted).2 ?_ _ rfl
  decide +kernel

/-- The id of an entry that was registered under another name before. -/
theorem not_registerNotify_dispatchesTo :
    (registerNotify (.ofRegister 10 [99]) subscribedTwice).1 = rcAccepted ∧
      ¬(registerNotify (.ofRegister 10 [99]) subscribedTwice).2.rest.registry.DispatchesTo 10 [99] := by
  have haccepted : (registerNotify (.ofRegister 10 [99]) subscribedTwice).1 = rcAccepted := by
    decide +kernel
  have hcalled : ((registerNotify (.ofRegister 10 [99]) subscribedTwice).2.rest.registry.messageDispatcher
      10).2.1 = some (8, [97, slash, 98]) := by
    decide +kernel
  refine ⟨haccepted, ?_⟩
  rintro ⟨t, -, -, -, -, -, hmh⟩
  rw [hcalled] at hmh
  obtain ⟨_, -, hother⟩ := Option.map_eq_some_iff.1 hmh.symm
  have hname : ([99] : Bytes) = [97, slash, 98] := congrArg Prod.snd hother
  exact absurd hname (by decide)

end LibNbiot
