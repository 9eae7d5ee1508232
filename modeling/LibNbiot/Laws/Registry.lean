/-
# The names in the topic registry

The registry is searched by name, so it works as a map from names to topics only
as long as no two entries have the same name. Every operation keeps the names
apart: an insertion assigns to the entry that has the name already, a removal
takes entries out, and the other operations change handlers and flags.
-/

import LibNbiot.Ledger.Topics
import LibNbiot.Logic.KeyedList

namespace LibNbiot

open Logic

/-- The operations that change the registry or read it for an update. An index is
an `int` of the source: a negative one is as invalid as one beyond the end. -/
inductive RegistryCall where
  | insertTopic (topic : NbiotTopic)
  | removeTopic (index : Int)
  | attachMessageHandler (index : Int) (mh : Option MessageHandler)
  | attachWildcardMessageHandler (topic : NbiotTopic)
  | updateWildcardMessageHandler (topic : NbiotTopic)
  | setTopicFlag (index : Int) (flag : RegistrationFlag)
  | unsetTopicFlag (index : Int) (flag : RegistrationFlag)
  | clearRegistry
  deriving DecidableEq, Repr

namespace NbiotTopic

/-- What the registry compares names by. -/
def key (t : NbiotTopic) : Bytes := cString t.topicName

theorem hasName_iff (t : NbiotTopic) (name : Bytes) :
    t.hasName name = true ↔ t.key = cString name := decide_eq_true_iff

end NbiotTopic

namespace NbiotTopicRegistry

variable {r r' : NbiotTopicRegistry}

/-- An operation on an entry; nothing happens at a negative index. -/
def atIndex (r : NbiotTopicRegistry) (index : Int) (f : Nat → NbiotTopicRegistry) :
    NbiotTopicRegistry := if 0 ≤ index then f index.toNat else r

def exec (r : NbiotTopicRegistry) : RegistryCall → NbiotTopicRegistry
  | .insertTopic topic => r.insertTopic topic
  | .removeTopic index => r.atIndex index r.removeTopic
  | .attachMessageHandler index mh => r.atIndex index (r.attachMessageHandler · mh)
  | .attachWildcardMessageHandler _ => r -- writes to its argument only
  | .updateWildcardMessageHandler topic => r.updateWildcardMessageHandler topic
  | .setTopicFlag index flag => r.atIndex index (r.setTopicFlag · flag)
  | .unsetTopicFlag index flag => r.atIndex index (r.unsetTopicFlag · flag)
  | .clearRegistry => r.clearRegistry

def run (r : NbiotTopicRegistry) (calls : List RegistryCall) : NbiotTopicRegistry :=
  calls.foldl exec r

/-- No entry is without a name and no two entries have the same name. -/
structure WellNamed (r : NbiotTopicRegistry) : Prop where
  named : ∀ t ∈ r.registry, t.topicName ≠ []
  keyed : Keyed NbiotTopic.key r.registry

/-- A search by name finds the entry of that name, and nothing exactly when the
name is empty or not registered. -/
def FindsNames (r : NbiotTopicRegistry) : Prop :=
  ∀ name,
    (∀ index, r.findTopic name = some index ↔
      cString name ≠ [] ∧ ∃ t, r.registry[index]? = some t ∧ t.hasName name = true) ∧
    (r.findTopic name = none ↔ cString name = [] ∨ ∀ t ∈ r.registry, t.hasName name = false)

namespace WellNamed

theorem fresh : WellNamed {} := ⟨nofun, .nil⟩

/-- The names are as they were. -/
theorem of_names (h : r.WellNamed)
    (hnames : r'.registry.map (·.topicName) = r.registry.map (·.topicName)) : r'.WellNamed := by
  have hkeys := congrArg (List.map cString) hnames
  rw [List.map_map, List.map_map] at hkeys
  refine ⟨fun t ht => ?_, h.keyed.of_keys hkeys⟩
  have hmem : t.topicName ∈ r'.registry.map (·.topicName) := List.mem_map_of_mem ht
  rw [hnames] at hmem
  obtain ⟨u, hu, hname⟩ := List.mem_map.1 hmem
  rw [← hname]
  exact h.named u hu

theorem of_sublist (h : r.WellNamed) (hsub : r'.registry.Sublist r.registry) : r'.WellNamed :=
  ⟨fun t ht => h.named t (hsub.subset ht), h.keyed.sublist hsub⟩

/-- An entry is written to through a reference, its name excepted. -/
theorem modify (h : r.WellNamed) {index : Nat} {f : NbiotTopic → NbiotTopic}
    (hf : ∀ t, (f t).topicName = t.topicName)
    (hr : r'.registry = r.registry.modify index f) : r'.WellNamed := by
  apply h.of_names
  rw [hr]
  exact map_key_modify fun t _ => hf t

/-- The handler of a wildcard is handed to the entries that it matches. -/
theorem updateMatched (h : r.WellNamed) {wildcard : NbiotTopic} {mh : Option MessageHandler}
    (hr : r'.registry = NbiotTopicRegistry.updateMatched r.registry wildcard mh) :
    r'.WellNamed := by
  apply h.of_names
  rw [hr, NbiotTopicRegistry.updateMatched, List.map_map]
  apply List.map_congr_left
  intro t _
  rw [Function.comp_apply]
  split <;> rfl

theorem insertTopic (h : r.WellNamed) (topic : NbiotTopic) : (r.insertTopic topic).WellNamed := by
  unfold NbiotTopicRegistry.insertTopic
  split
  · exact h
  · rename_i hname
    have hname : topic.topicName ≠ [] := by simpa using hname
    split
    · -- a new name
      rename_i hnone
      refine ⟨fun t ht => ?_, h.keyed.concat fun t ht hkey => ?_⟩
      · obtain ht | ht := List.mem_append.1 ht
        · exact h.named t ht
        · rw [List.mem_singleton.1 ht]
          exact hname
      · have hno := List.findIdx?_eq_none_iff.1 hnone t ht
        rw [(t.hasName_iff topic.topicName).2 hkey] at hno
        cases hno
    · -- the entry that has the name is assigned to
      rename_i index hindex
      obtain ⟨hlt, hhas, -⟩ := List.findIdx?_eq_some_iff_getElem.1 hindex
      refine ⟨fun t ht => ?_, h.keyed.of_keys ?_⟩
      · obtain ht | ⟨old, -, rfl⟩ := mem_modify ht
        · exact h.named t ht
        · exact hname
      · apply map_key_modify
        intro old hold
        obtain ⟨-, rfl⟩ := List.getElem?_eq_some_iff.1 hold
        exact ((NbiotTopic.hasName_iff _ _).1 hhas).symm

theorem updateWildcardMessageHandler (h : r.WellNamed) (topic : NbiotTopic) :
    (r.updateWildcardMessageHandler topic).WellNamed := by
  unfold NbiotTopicRegistry.updateWildcardMessageHandler
  split
  · split
    · exact h.updateMatched rfl
    · exact h
  · exact h

theorem attachMessageHandler (h : r.WellNamed) (index : Nat) (mh : Option MessageHandler) :
    (r.attachMessageHandler index mh).WellNamed := by
  have hset : WellNamed { r with registry := r.registry.modify index ({ · with mh := mh }) } :=
    h.modify (f := fun t => { t with mh := mh }) (fun _ => rfl) rfl
  unfold NbiotTopicRegistry.attachMessageHandler
  split
  · dsimp only
    split
    · exact hset.updateMatched rfl
    · exact hset
  · exact h

theorem setTopicFlag (h : r.WellNamed) (index : Nat) (flag : RegistrationFlag) :
    (r.setTopicFlag index flag).WellNamed :=
  h.modify (fun t => by cases flag <;> rfl) rfl

theorem unsetTopicFlag (h : r.WellNamed) (index : Nat) (flag : RegistrationFlag) :
    (r.unsetTopicFlag index flag).WellNamed :=
  h.modify (fun t => by cases flag <;> rfl) rfl

theorem removeTopic (h : r.WellNamed) (index : Nat) : (r.removeTopic index).WellNamed :=
  h.of_sublist (r.removeTopic_sublist index)

theorem atIndex (h : r.WellNamed) (index : Int) {f : Nat → NbiotTopicRegistry}
    (hf : ∀ i, (f i).WellNamed) : (r.atIndex index f).WellNamed := by
  unfold NbiotTopicRegistry.atIndex
  split
  · exact hf _
  · exact h

theorem exec (h : r.WellNamed) (call : RegistryCall) : (r.exec call).WellNamed := by
  cases call with
  | insertTopic topic => exact h.insertTopic topic
  | removeTopic index => exact h.atIndex index h.removeTopic
  | attachMessageHandler index mh => exact h.atIndex index (h.attachMessageHandler · mh)
  | attachWildcardMessageHandler topic => exact h
  | updateWildcardMessageHandler topic => exact h.updateWildcardMessageHandler topic
  | setTopicFlag index flag => exact h.atIndex index (h.setTopicFlag · flag)
  | unsetTopicFlag index flag => exact h.atIndex index (h.unsetTopicFlag · flag)
  | clearRegistry => exact ⟨nofun, .nil⟩

theorem run (h : r.WellNamed) (calls : List RegistryCall) : (r.run calls).WellNamed := by
  induction calls generalizing r with
  | nil => exact h
  | cons call calls ih => exact ih (h.exec call)

theorem findsNames (h : r.WellNamed) : r.FindsNames := by
  intro name
  have hhas (t : NbiotTopic) : t.hasName name = true ↔ t.key = cString name := t.hasName_iff name
  unfold findTopic
  split
  · rename_i hempty
    exact ⟨fun index => ⟨nofun, fun hfound => absurd hempty hfound.1⟩,
      ⟨fun _ => .inl hempty, fun _ => rfl⟩⟩
  · rename_i hproper
    refine ⟨fun index => ?_, ?_⟩
    · rw [h.keyed.findIdx?_eq_some_iff _ hhas]
      simp only [hhas]
      exact ⟨fun hfound => ⟨hproper, hfound⟩, And.right⟩
    · rw [List.findIdx?_eq_none_iff]
      exact ⟨.inr, fun hno => hno.resolve_left hproper⟩

end WellNamed

/-- **The registry is a map from names.** After any operations the names of the
entries are proper and pairwise different, and a search by name answers with the
one entry of that name. -/
theorem names_after (calls : List RegistryCall) :
    (∀ t ∈ (run {} calls).registry, t.topicName ≠ []) ∧
      (run {} calls).registry.Pairwise (fun t u => cString t.topicName ≠ cString u.topicName) ∧
      (run {} calls).FindsNames :=
  have h := WellNamed.fresh.run calls
  ⟨h.named, h.keyed.pairwise, h.findsNames⟩

end NbiotTopicRegistry

end LibNbiot
