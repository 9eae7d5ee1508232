/-
# The topic registry in memory

The registry keeps its topics in a `util::list`, which its functions search with
`indexOf`, change through the references that `operator[]` and the iterators return, and
shorten while they go over it backwards. None of this ever fails, and in any sequence of
calls the registry in memory and the registry of the model say the same.
-/

import LibNbiot.Lists.Values
import LibNbiot.Laws.Registry

namespace LibNbiot

open Logic

variable {α : Type}

namespace ListIterator

/-- A loop to `end()` that breaks at the first item that is the one. -/
def first (isItem : α → Bool) (m : Memory α) : Nat → ListIterator α → Option (Option α)
  | 0, it => if it.element.isSome then none else some none
  | fuel + 1, it =>
      if it.element.isSome then do
        let x ← it.value m
        if isItem x then return some x else first isItem m fuel (← it.increment m)
      else some none

/-- A loop to `end()` in which an item may be changed through the iterator, by what the
memory is then. -/
def update (change : α → Memory α → Option (Option α)) :
    Nat → ListIterator α → Memory α → Option (Memory α)
  | 0, it, m => if it.element.isSome then none else some m
  | fuel + 1, it, m =>
      if it.element.isSome then do
        let m ← match ← change (← it.value m) m with
          | some y => m.write it.element fun c => { c with data := y }
          | none => some m
        update change fuel (← it.increment m) m
      else some m

end ListIterator

/-- `NbiotTopicRegistry`, with the memory of its list. -/
structure StoredRegistry where
  registry : UtilList NbiotTopic := .construct {}
  messageCount : Nat := 0
  memory : Memory NbiotTopic := {}

namespace StoredRegistry

def set (r : StoredRegistry) (result : UtilList NbiotTopic × Memory NbiotTopic) : StoredRegistry :=
  { r with registry := result.1, memory := result.2 }

/-- `m_registry.indexOf(name)`. -/
def indexOf (r : StoredRegistry) (name : Bytes) : Option Int :=
  r.registry.indexOf (·.hasName name) r.memory

/-- `findTopic(const char* name)`. -/
def findTopic (r : StoredRegistry) (name : Bytes) : Option Int :=
  if cString name = [] then some (-1) else r.indexOf name

/-- `findTopic(unsigned short topicId)`. -/
def findTopicId (r : StoredRegistry) (topicId : Nat) : Option Int :=
  r.registry.indexOf (·.id = topicId) r.memory

def topicCount (r : StoredRegistry) : Int := r.registry.count

/-- `operator [](index)`. -/
def topicAt (r : StoredRegistry) (index : Int) : Option NbiotTopic :=
  r.registry.itemAt index r.memory

def insertTopic (r : StoredRegistry) (topic : NbiotTopic) : Option StoredRegistry :=
  if topic.topicName.isEmpty then some r
  else do
    let index ← r.indexOf topic.topicName
    if index = -1 then return r.set (← r.registry.append topic r.memory)
    else return r.set (← r.registry.modifyAt index (·.assign topic) r.memory)

/-- A loop over the registry that breaks. -/
def first (r : StoredRegistry) (isTopic : NbiotTopic → Bool) : Option (Option NbiotTopic) :=
  ListIterator.first isTopic r.memory r.memory.cells.length r.registry.begin

def attachWildcardMessageHandler (r : StoredRegistry) (topic : NbiotTopic) : Option NbiotTopic := do
  match ← r.first fun t => t.isWildcardTopic && t.isTopicMatched topic with
  | some t => return { topic with mh := t.mh }
  | none => return topic

/-- The body of the loops that hand a handler to the plain topics that
`m_registry[index]` matches. -/
def handOver (r : StoredRegistry) (name : Bytes) (index : Int) (mh : Option MessageHandler)
    (t : NbiotTopic) (m : Memory NbiotTopic) : Option (Option NbiotTopic) :=
  if !t.hasName name && !t.isWildcardTopic then do
    let wildcard ← r.registry.itemAt index m
    return if wildcard.isTopicMatched t then some { t with mh := mh } else none
  else some none

def updateMatched (r : StoredRegistry) (name : Bytes) (index : Int) (mh : Option MessageHandler) :
    Option StoredRegistry := do
  let m ← ListIterator.update (r.handOver name index mh) r.memory.cells.length r.registry.begin
    r.memory
  return { r with memory := m }

def updateWildcardMessageHandler (r : StoredRegistry) (topic : NbiotTopic) :
    Option StoredRegistry :=
  if topic.isWildcardTopic then do
    let index ← r.indexOf topic.topicName
    if 0 ≤ index then r.updateMatched topic.topicName index topic.mh else some r
  else some r

def attachMessageHandler (r : StoredRegistry) (index : Int) (mh : Option MessageHandler) :
    Option StoredRegistry :=
  if 0 ≤ index ∧ index < r.registry.count then do
    let r := r.set (← r.registry.modifyAt index ({ · with mh := mh }) r.memory)
    let topic ← r.topicAt index
    if topic.isWildcardTopic then r.updateMatched topic.topicName index mh else return r
  else some r

def setTopicFlag (r : StoredRegistry) (index : Int) (flag : RegistrationFlag) :
    Option StoredRegistry :=
  if 0 ≤ index ∧ index < r.registry.count then do
    return r.set (← r.registry.modifyAt index (·.setReg flag) r.memory)
  else some r

def unsetTopicFlag (r : StoredRegistry) (index : Int) (flag : RegistrationFlag) :
    Option StoredRegistry :=
  if 0 ≤ index ∧ index < r.registry.count then do
    return r.set (← r.registry.modifyAt index (·.unsetReg flag) r.memory)
  else some r

def hasAnyTopic (r : StoredRegistry) (flag : RegistrationFlag) : Option Bool := do
  return (← r.first (·.isReg flag)).isSome

def hasTopic (r : StoredRegistry) (name : Bytes) (flag : RegistrationFlag) : Option Bool := do
  let index ← r.findTopic name
  if 0 ≤ index then return (← r.topicAt index).isReg flag else return false

/-- The backward loop of `removeTopic`. -/
def removeMatched (topic : NbiotTopic) (index : Int) : Nat → StoredRegistry → Option StoredRegistry
  | 0, r => some r
  | i + 1, r => do
      if index ≠ i ∧ topic.isTopicMatched (← r.topicAt i) then
        removeMatched topic index i (r.set (← r.registry.remove i r.memory))
      else removeMatched topic index i r

def removeTopic (r : StoredRegistry) (index : Int) : Option StoredRegistry := do
  let topic ← r.topicAt index
  let r ← if topic.isWildcardTopic then removeMatched topic index r.topicCount.toNat r else some r
  return r.set (← r.registry.remove index r.memory)

def clearRegistry (r : StoredRegistry) : Option StoredRegistry := do
  return r.set (← r.registry.clear r.memory)

def messageDispatcher (r : StoredRegistry) (id : Nat) :
    Option (Nat × Option (MessageHandler × Bytes) × StoredRegistry) := do
  match ← r.first fun t => t.valid && t.id = id with
  | some t =>
      match t.mh with
      | some h => return (0, some (h, t.topicName), { r with messageCount := r.messageCount + 1 })
      | none => return (0, none, r)
  | none => return (2, none, r)

end StoredRegistry

/-! ## Requests -/

/-- What the registry is asked for: to change, or about its topics. -/
inductive RegistryRequest where
  | change (call : RegistryCall)
  | messageDispatcher (id : Nat)
  | findTopic (name : Bytes)
  | findTopicId (topicId : Nat)
  | topicAt (index : Int)
  | topicCount
  | hasAnyTopic (flag : RegistrationFlag)
  | hasTopic (name : Bytes) (flag : RegistrationFlag)

/-- What a request returns. -/
inductive RegistryAnswer where
  | done
  | topic (t : NbiotTopic)
  | index (n : Int)
  | flag (b : Bool)
  | dispatched (rc : Nat) (handler : Option (MessageHandler × Bytes))
  deriving DecidableEq, Repr

/-- An index as the code has it. -/
def indexInt : Option Nat → Int
  | some n => n
  | none => -1

namespace StoredRegistry

def exec (r : StoredRegistry) : RegistryCall → Option (RegistryAnswer × StoredRegistry)
  | .insertTopic topic => do return (.done, ← r.insertTopic topic)
  | .removeTopic index => do return (.done, ← r.removeTopic index)
  | .attachMessageHandler index mh => do return (.done, ← r.attachMessageHandler index mh)
  | .attachWildcardMessageHandler topic => do
      return (.topic (← r.attachWildcardMessageHandler topic), r)
  | .updateWildcardMessageHandler topic => do
      return (.done, ← r.updateWildcardMessageHandler topic)
  | .setTopicFlag index flag => do return (.done, ← r.setTopicFlag index flag)
  | .unsetTopicFlag index flag => do return (.done, ← r.unsetTopicFlag index flag)
  | .clearRegistry => do return (.done, ← r.clearRegistry)

def answer (r : StoredRegistry) : RegistryRequest → Option (RegistryAnswer × StoredRegistry)
  | .change call => r.exec call
  | .messageDispatcher id => do
      let (rc, handler, r) ← r.messageDispatcher id
      return (.dispatched rc handler, r)
  | .findTopic name => do return (.index (← r.findTopic name), r)
  | .findTopicId topicId => do return (.index (← r.findTopicId topicId), r)
  | .topicAt index => do return (.topic (← r.topicAt index), r)
  | .topicCount => some (.index r.topicCount, r)
  | .hasAnyTopic flag => do return (.flag (← r.hasAnyTopic flag), r)
  | .hasTopic name flag => do return (.flag (← r.hasTopic name flag), r)

/-- The answers to a sequence of requests, and the registry behind it. -/
def answers (r : StoredRegistry) :
    List RegistryRequest → Option (List RegistryAnswer × StoredRegistry)
  | [] => some ([], r)
  | request :: requests => do
      let (a, r) ← r.answer request
      let (as, r) ← r.answers requests
      return (a :: as, r)

end StoredRegistry

namespace NbiotTopicRegistry

/-- What a call that may change the registry returns. -/
def returned (r : NbiotTopicRegistry) : RegistryCall → RegistryAnswer
  | .attachWildcardMessageHandler topic => .topic (r.attachWildcardMessageHandler topic)
  | _ => .done

def answer (r : NbiotTopicRegistry) : RegistryRequest → RegistryAnswer × NbiotTopicRegistry
  | .change call => (r.returned call, r.exec call)
  | .messageDispatcher id =>
      (.dispatched (r.messageDispatcher id).1 (r.messageDispatcher id).2.1,
        (r.messageDispatcher id).2.2)
  | .findTopic name => (.index (indexInt (r.findTopic name)), r)
  | .findTopicId topicId => (.index (indexInt (r.findTopicId topicId)), r)
  | .topicAt index => (.topic (if 0 ≤ index then r.topicAt index.toNat else {}), r)
  | .topicCount => (.index r.topicCount, r)
  | .hasAnyTopic flag => (.flag (r.hasAnyTopic flag), r)
  | .hasTopic name flag => (.flag (r.hasTopic name flag), r)

def answers (r : NbiotTopicRegistry) :
    List RegistryRequest → List RegistryAnswer × NbiotTopicRegistry
  | [] => ([], r)
  | request :: requests =>
      ((r.answer request).1 :: ((r.answer request).2.answers requests).1,
        ((r.answer request).2.answers requests).2)

end NbiotTopicRegistry

/-! ## Loops -/

namespace ListIterator

variable {m : Memory α} {l : UtilList α} {as : List Nat} {v : ListValue α}

theorem first_eq {p : Option Nat} {xs : List α} {fuel : Nat} (h : Segment m p as xs none)
    (hfuel : as.length ≤ fuel) (isItem : α → Bool) (invalidItem : α) :
    first isItem m fuel ⟨p, invalidItem⟩ = some (xs.find? isItem) := by
  induction fuel generalizing p as xs with
  | zero =>
    obtain rfl := List.length_eq_zero_iff.1 (Nat.le_zero.1 hfuel)
    cases h
    rfl
  | succ fuel ih =>
    cases h with
    | nil => rfl
    | @cons _ x _ _ _ _ hread hrest =>
      cases hitem : isItem x <;>
        simp [first, value, increment, hread, hitem, ih hrest (Nat.le_of_succ_le_succ hfuel)]

/-- A loop that changes some of the items, if it makes no difference to its condition that
the items before are changed already. -/
theorem update_eq {change : α → Memory α → Option (Option α)} {c : α → Bool} {f : α → α}
    {done rest : List α} {bs cs : List Nat} {p : Option Nat} {fuel : Nat}
    (h : IsList m l (bs ++ cs)
      { v with items := done.map (fun x => if c x then f x else x) ++ rest })
    (hfront : Segment m l.elements bs (done.map fun x => if c x then f x else x) p)
    (hrest : Segment m p cs rest none) (hfuel : cs.length ≤ fuel)
    (hchange : ∀ m' ys x zs, done ++ rest = ys ++ x :: zs →
      IsList m' l (bs ++ cs)
        { v with items := ys.map (fun x => if c x then f x else x) ++ x :: zs } →
      change x m' = some (if c x then some (f x) else none)) (invalidItem : α) :
    ∃ m', update change fuel ⟨p, invalidItem⟩ m = some m' ∧
      IsList m' l (bs ++ cs)
        { v with items := (done ++ rest).map fun x => if c x then f x else x } := by
  induction fuel generalizing m p done rest bs cs with
  | zero =>
    obtain rfl := List.length_eq_zero_iff.1 (Nat.le_zero.1 hfuel)
    cases hrest
    exact ⟨m, rfl, by simpa using h⟩
  | succ fuel ih =>
    cases hrest with
    | nil => exact ⟨m, rfl, by simpa using h⟩
    | @cons a x q _ cs zs hread hrest =>
      have hnodup := h.chain.nodup
      have hdone := hchange m done x zs rfl h
      -- the memory after this item, and the loop from the next one on
      obtain ⟨m₁, hstep, h₁, hfront₁, hrest₁⟩ : ∃ m₁,
          update change (fuel + 1) ⟨some a, invalidItem⟩ m =
            update change fuel ⟨q, invalidItem⟩ m₁ ∧
          IsList m₁ l (bs ++ a :: cs)
            { v with items := (done ++ [x]).map (fun x => if c x then f x else x) ++ zs } ∧
          Segment m₁ l.elements (bs ++ [a]) ((done ++ [x]).map fun x => if c x then f x else x) q ∧
          Segment m₁ q cs zs none := by
        cases hc : c x with
        | false =>
          rw [hc] at hdone
          refine ⟨m, ?_, by simpa [hc] using h, ?_, hrest⟩
          · simp [update, value, increment, hread, hdone]
          · simpa [hc] using hfront.append (.cons hread (.nil q))
        | true =>
          rw [hc] at hdone
          have ha : a ∉ bs := Segment.notMem_front hnodup
          obtain ⟨hwhole, hback⟩ := hfront.overwrite hread hrest hnodup (f x)
          have hread₁ : (m.put a (some ⟨f x, q⟩)).read a = some ⟨f x, q⟩ := by
            rw [Memory.read_put hread, if_pos rfl]
          refine ⟨m.put a (some ⟨f x, q⟩), ?_, ⟨?_, h.last, h.invalidItem, ?_⟩, ?_, hback⟩
          · simp [update, value, increment, hread, hdone, Memory.write_eq hread, hread₁]
          · simpa [hc] using hwhole
          · simpa using h.size
          · simpa [hc] using hfront.link ha hread ⟨f x, q⟩
      rw [← List.singleton_append, ← List.append_assoc] at h₁
      obtain ⟨m', hloop, h'⟩ := ih h₁ hfront₁ hrest₁ (Nat.le_of_succ_le_succ hfuel)
        (by simpa using hchange)
      exact ⟨m', hstep.trans hloop, by simpa using h'⟩

end ListIterator

/-! ## The registry in memory and the model's -/

/-- The topics of a registry, as its list has them. -/
def NbiotTopicRegistry.value (s : NbiotTopicRegistry) : ListValue NbiotTopic :=
  { items := s.registry, invalidItem := {} }

namespace ListValue

variable {v : ListValue α}

theorem itemAt_natCast (v : ListValue α) (n : Nat) : v.itemAt n = v.items.getD n v.invalidItem := by
  unfold itemAt validIndex
  by_cases hlt : n < v.items.length
  · simp [hlt]
  · simp [hlt]

theorem remove_natCast (hknown : v.lastKnown = true) (n : Nat) :
    v.remove n = { v with items := v.items.eraseIdx n } := by
  unfold remove validIndex
  by_cases hlt : n < v.items.length
  · simp [hlt, hknown]
  · simp [hlt, List.eraseIdx_of_length_le (Nat.le_of_not_lt hlt)]

theorem modifyAt_natCast {n : Nat} (hlt : n < v.items.length) (f : α → α) :
    v.modifyAt n f = { v with items := v.items.modify n f } := by
  simp [modifyAt, validIndex, hlt]

theorem indexOf_eq (v : ListValue α) (isItem : α → Bool) :
    v.indexOf isItem = indexInt (v.items.findIdx? isItem) := by
  rw [indexOf]
  cases v.items.findIdx? isItem <;> rfl

end ListValue

namespace StoredRegistry

/-- The registry in memory is the one of the model. -/
structure Stores (r : StoredRegistry) (s : NbiotTopicRegistry) : Prop where
  list : ∃ as, IsList r.memory r.registry as s.value
  messageCount : r.messageCount = s.messageCount

/-- A call has not failed, and what it leaves is the model's. -/
def Leaves (o : Option StoredRegistry) (s : NbiotTopicRegistry) : Prop :=
  ∃ r, o = some r ∧ r.Stores s

namespace Stores

variable {r : StoredRegistry} {s : NbiotTopicRegistry}

theorem start : Stores {} {} := ⟨⟨[], .nil none, rfl, rfl, rfl⟩, rfl⟩

theorem leaves (h : Stores r s) : Leaves (some r) s := ⟨r, rfl, h⟩

/-- What an operation on the list leaves. -/
theorem yields (h : Stores r s) {as : List Nat}
    {o : Option (UtilList NbiotTopic × Memory NbiotTopic)} {registry : List NbiotTopic}
    (hyields : Yields r.memory as o (some { items := registry, invalidItem := {} })) :
    Leaves (o >>= fun result => some (r.set result)) { s with registry := registry } := by
  obtain ⟨l', m', as', rfl, hlist, -⟩ := hyields.exists_list
  exact ⟨_, rfl, ⟨as', hlist⟩, h.messageCount⟩

theorem indexOf (h : Stores r s) (isTopic : NbiotTopic → Bool) :
    r.registry.indexOf isTopic r.memory = some (indexInt (s.registry.findIdx? isTopic)) := by
  obtain ⟨as, hlist⟩ := h.list
  rw [hlist.indexOf, ListValue.indexOf_eq]
  rfl

theorem topicAt (h : Stores r s) (index : Nat) : r.topicAt index = some (s.topicAt index) := by
  obtain ⟨as, hlist⟩ := h.list
  rw [StoredRegistry.topicAt, hlist.itemAt, ListValue.itemAt_natCast]
  rfl

theorem count (h : Stores r s) : r.registry.count = s.registry.length := by
  obtain ⟨as, hlist⟩ := h.list
  exact hlist.size

theorem first (h : Stores r s) (isTopic : NbiotTopic → Bool) :
    r.first isTopic = some (s.registry.find? isTopic) := by
  obtain ⟨as, hlist⟩ := h.list
  exact ListIterator.first_eq hlist.chain hlist.chain.length_le isTopic _

theorem modifyAt (h : Stores r s) {index : Nat} (hlt : index < s.registry.length)
    (f : NbiotTopic → NbiotTopic) :
    Leaves (r.registry.modifyAt index f r.memory >>= fun result => some (r.set result))
      { s with registry := s.registry.modify index f } := by
  obtain ⟨as, hlist⟩ := h.list
  have hyields := hlist.modifyAt index f
  rw [ListValue.modifyAt_natCast (v := s.value) hlt] at hyields
  exact h.yields hyields

theorem remove (h : Stores r s) (index : Nat) :
    Leaves (r.registry.remove index r.memory >>= fun result => some (r.set result))
      { s with registry := s.registry.eraseIdx index } := by
  obtain ⟨as, hlist⟩ := h.list
  have hyields := hlist.remove index
  rw [ListValue.remove_natCast (v := s.value) rfl] at hyields
  exact h.yields hyields

theorem findTopic (h : Stores r s) (name : Bytes) :
    r.findTopic name = some (indexInt (s.findTopic name)) := by
  unfold StoredRegistry.findTopic NbiotTopicRegistry.findTopic
  split
  · rfl
  · exact h.indexOf _

theorem append (h : Stores r s) (topic : NbiotTopic) :
    Leaves (r.registry.append topic r.memory >>= fun result => some (r.set result))
      { s with registry := s.registry ++ [topic] } := by
  obtain ⟨as, hlist⟩ := h.list
  have hyields := hlist.append topic
  have happend : s.value.append topic =
      some { items := s.registry ++ [topic], invalidItem := {} } := by
    unfold ListValue.append NbiotTopicRegistry.value
    cases s.registry <;> rfl
  rw [happend] at hyields
  exact h.yields hyields

theorem insertTopic (h : Stores r s) (topic : NbiotTopic) :
    Leaves (r.insertTopic topic) (s.insertTopic topic) := by
  rw [StoredRegistry.insertTopic, NbiotTopicRegistry.insertTopic, StoredRegistry.indexOf, h.indexOf]
  split
  · exact h.leaves
  · cases hindex : s.registry.findIdx? (·.hasName topic.topicName) with
    | none => exact h.append topic
    | some index =>
      have hlt := (List.findIdx?_eq_some_iff_getElem.1 hindex).1
      exact h.modifyAt hlt _

theorem topicName_getD (registry : List NbiotTopic) (index : Nat) :
    (registry.getD index {}).topicName = (registry.map (·.topicName)).getD index [] := by
  simp [List.getD_eq_getElem?_getD, List.getElem?_map]
  cases registry[index]? <;> rfl

/-- The loop of both functions that hand a wildcard's handler to the topics it matches. -/
theorem updateMatched (h : Stores r s) {name : Bytes} {index : Nat} {wildcard : NbiotTopic}
    (hname : cString name = cString wildcard.topicName)
    (hindex : (s.topicAt index).topicName = wildcard.topicName) (mh : Option MessageHandler) :
    Leaves (r.updateMatched name index mh)
      { s with registry := NbiotTopicRegistry.updateMatched s.registry wildcard mh } := by
  obtain ⟨as, hlist⟩ := h.list
  let c (t : NbiotTopic) : Bool :=
    !t.hasName wildcard.topicName && !t.isWildcardTopic && wildcard.isTopicMatched t
  let f (t : NbiotTopic) : NbiotTopic := { t with mh := mh }
  have hchange (m' : Memory NbiotTopic) (ys : List NbiotTopic) (x : NbiotTopic)
      (zs : List NbiotTopic) (hsplit : [] ++ s.registry = ys ++ x :: zs)
      (hlist' : IsList m' r.registry ([] ++ as)
        { s.value with items := ys.map (fun t => if c t then f t else t) ++ x :: zs }) :
      r.handOver name index mh x m' = some (if c x then some (f x) else none) := by
    have hkept : ((fun t : NbiotTopic => t.topicName) ∘ fun t => if c t then f t else t) =
        fun t => t.topicName := by
      funext t
      simp only [Function.comp_apply]
      split <;> rfl
    have hitem := hlist'.itemAt index
    rw [ListValue.itemAt_natCast] at hitem
    -- the wildcard may have been reached by the loop, but has kept its name
    have htopic : ((ys.map (fun t => if c t then f t else t) ++ x :: zs).getD index {}).topicName =
        wildcard.topicName := by
      rw [topicName_getD, List.map_append, List.map_map, hkept, ← List.map_append, ← hsplit,
        List.nil_append, ← topicName_getD]
      exact hindex
    have hnamed : x.hasName name = x.hasName wildcard.topicName := by
      rw [NbiotTopic.hasName, NbiotTopic.hasName, hname]
    have hmatched : ((ys.map (fun t => if c t then f t else t) ++ x :: zs).getD index
        {}).isTopicMatched x = wildcard.isTopicMatched x := by
      rw [NbiotTopic.isTopicMatched, NbiotTopic.isTopicMatched, htopic]
    have hwanted : r.handOver name index mh x m' =
        if !x.hasName wildcard.topicName && !x.isWildcardTopic then
          some (if wildcard.isTopicMatched x then some (f x) else none)
        else some none := by
      rw [StoredRegistry.handOver, hnamed, hitem, ← hmatched]
      rfl
    rw [hwanted]
    cases hn : x.hasName wildcard.topicName <;> cases hplain : x.isWildcardTopic <;>
      simp [c, hn, hplain]
  obtain ⟨m', hloop, hlist'⟩ := ListIterator.update_eq (v := s.value) hlist (.nil _) hlist.chain
    hlist.chain.length_le hchange r.registry.invalidItem
  exact ⟨{ r with memory := m' }, by simp [StoredRegistry.updateMatched, UtilList.begin, hloop],
    ⟨as, hlist'⟩, h.messageCount⟩

theorem updateWildcardMessageHandler (h : Stores r s) (topic : NbiotTopic) :
    Leaves (r.updateWildcardMessageHandler topic) (s.updateWildcardMessageHandler topic) := by
  rw [StoredRegistry.updateWildcardMessageHandler, NbiotTopicRegistry.updateWildcardMessageHandler,
    StoredRegistry.indexOf, h.indexOf]
  split
  · cases hindex : s.registry.findIdx? (·.hasName topic.topicName) with
    | none => exact h.leaves
    | some index =>
      obtain ⟨hlt, hfound, -⟩ := List.findIdx?_eq_some_iff_getElem.1 hindex
      have hat : s.topicAt index = s.registry[index] := by
        simp [NbiotTopicRegistry.topicAt, List.getD_eq_getElem?_getD, hlt]
      rw [← hat, NbiotTopic.hasName, decide_eq_true_iff] at hfound
      exact h.updateMatched hfound.symm rfl topic.mh
  · exact h.leaves

theorem attachMessageHandler (h : Stores r s) (index : Nat) (mh : Option MessageHandler) :
    Leaves (r.attachMessageHandler index mh) (s.attachMessageHandler index mh) := by
  rw [StoredRegistry.attachMessageHandler, NbiotTopicRegistry.attachMessageHandler, h.count]
  by_cases hlt : index < s.registry.length
  · obtain ⟨r', hr', h'⟩ := h.modifyAt hlt ({ · with mh := mh })
    have hat : ({ s with registry := s.registry.modify index ({ · with mh := mh }) } :
        NbiotTopicRegistry).topicAt index = { s.topicAt index with mh := mh } := by
      simp [NbiotTopicRegistry.topicAt, List.getD_eq_getElem?_getD, hlt]
    obtain ⟨result, hresult, hset⟩ := Option.bind_eq_some_iff.1 hr'
    cases hset
    have htopic := h'.topicAt index
    rw [hat] at htopic
    rw [if_pos (by omega), if_pos hlt, hresult]
    simp only [Option.bind_eq_bind, Option.bind_some, htopic]
    have hwild : ({ s.topicAt index with mh := mh } : NbiotTopic).isWildcardTopic =
        (s.topicAt index).isWildcardTopic := rfl
    rw [hwild]
    split
    · exact h'.updateMatched rfl (by rw [hat]) mh
    · exact h'.leaves
  · rw [if_neg (by omega), if_neg hlt]
    exact h.leaves

theorem setTopicFlag (h : Stores r s) (index : Nat) (flag : RegistrationFlag) :
    Leaves (r.setTopicFlag index flag) (s.setTopicFlag index flag) := by
  rw [StoredRegistry.setTopicFlag, NbiotTopicRegistry.setTopicFlag, h.count]
  by_cases hlt : index < s.registry.length
  · rw [if_pos (by omega)]
    exact h.modifyAt hlt _
  · rw [if_neg (by omega), List.modify_eq_self (by omega)]
    exact h.leaves

theorem unsetTopicFlag (h : Stores r s) (index : Nat) (flag : RegistrationFlag) :
    Leaves (r.unsetTopicFlag index flag) (s.unsetTopicFlag index flag) := by
  rw [StoredRegistry.unsetTopicFlag, NbiotTopicRegistry.unsetTopicFlag, h.count]
  by_cases hlt : index < s.registry.length
  · rw [if_pos (by omega)]
    exact h.modifyAt hlt _
  · rw [if_neg (by omega), List.modify_eq_self (by omega)]
    exact h.leaves

theorem removeMatched (h : Stores r s) (topic : NbiotTopic) (index n : Nat) :
    Leaves (StoredRegistry.removeMatched topic index n r)
      { s with registry := NbiotTopicRegistry.removeMatched topic index n s.registry } := by
  induction n generalizing r s with
  | zero => exact h.leaves
  | succ n ih =>
    rw [StoredRegistry.removeMatched, NbiotTopicRegistry.removeMatched, h.topicAt n]
    simp only [Option.bind_eq_bind, Option.bind_some, ne_eq, Int.natCast_inj,
      NbiotTopicRegistry.topicAt]
    split
    · obtain ⟨r', hr', h'⟩ := h.remove n
      obtain ⟨result, hresult, hset⟩ := Option.bind_eq_some_iff.1 hr'
      cases hset
      rw [hresult]
      exact ih h'
    · exact ih h

theorem removeTopic (h : Stores r s) (index : Nat) :
    Leaves (r.removeTopic index) (s.removeTopic index) := by
  have hlen : r.topicCount.toNat = s.registry.length := by
    rw [StoredRegistry.topicCount, h.count, Int.toNat_natCast]
  rw [StoredRegistry.removeTopic, NbiotTopicRegistry.removeTopic, h.topicAt index, hlen]
  simp only [Option.bind_eq_bind, Option.bind_some]
  split
  · obtain ⟨r', hr', h'⟩ := h.removeMatched (s.topicAt index) index s.registry.length
    rw [hr']
    exact h'.remove index
  · exact h.remove index

theorem clearRegistry (h : Stores r s) : Leaves r.clearRegistry s.clearRegistry := by
  obtain ⟨as, hlist⟩ := h.list
  obtain ⟨l', m', hclear, hlist', -⟩ := hlist.clear
  exact ⟨r.set (l', m'), by simp [StoredRegistry.clearRegistry, hclear], ⟨[], hlist'⟩,
    h.messageCount⟩

end Stores

/-- A request to the registry in memory and to the model's. -/
def Agrees (o : Option (RegistryAnswer × StoredRegistry))
    (a : RegistryAnswer × NbiotTopicRegistry) : Prop :=
  ∃ r, o = some (a.1, r) ∧ r.Stores a.2

theorem Leaves.agrees {o : Option StoredRegistry} {s : NbiotTopicRegistry} (h : Leaves o s) :
    Agrees (o >>= fun r => some (.done, r)) (.done, s) := by
  obtain ⟨r, rfl, hr⟩ := h
  exact ⟨r, rfl, hr⟩

namespace Stores

variable {r : StoredRegistry} {s : NbiotTopicRegistry}

/-- A request that only looks at the registry. -/
theorem looks {γ : Type} (h : Stores r s) {o : Option γ} {c : γ} (ho : o = some c)
    (k : γ → RegistryAnswer) : Agrees (o >>= fun c => some (k c, r)) (k c, s) := by
  subst ho
  exact ⟨r, rfl, h⟩

/-- A negative index is no index. -/
theorem topicAt_neg (h : Stores r s) {index : Int} (hneg : ¬0 ≤ index) :
    r.topicAt index = some {} := by
  obtain ⟨as, hlist⟩ := h.list
  rw [StoredRegistry.topicAt, hlist.itemAt]
  simp [ListValue.itemAt, ListValue.validIndex, hneg, NbiotTopicRegistry.value]

theorem atIndex (h : Stores r s) {f : Int → Option StoredRegistry} {g : Nat → NbiotTopicRegistry}
    (hvalid : ∀ n : Nat, Leaves (f n) (g n)) (hneg : ∀ index, ¬0 ≤ index → f index = some r)
    (index : Int) : Leaves (f index) (s.atIndex index g) := by
  rw [NbiotTopicRegistry.atIndex]
  split
  · next hindex =>
    have hcast := hvalid index.toNat
    rwa [Int.toNat_of_nonneg hindex] at hcast
  · next hindex =>
    rw [hneg index hindex]
    exact h.leaves

theorem removeTopic_neg (h : Stores r s) (index : Int) (hneg : ¬0 ≤ index) :
    r.removeTopic index = some r := by
  have hplain : ¬(({} : NbiotTopic).isWildcardTopic = true) := by decide
  have hvalid : r.registry.validIndex index = false := by simp [UtilList.validIndex, hneg]
  rw [StoredRegistry.removeTopic, h.topicAt_neg hneg]
  simp only [Option.bind_eq_bind, Option.bind_some, if_neg hplain, UtilList.remove, hvalid]
  rfl

theorem exec (h : Stores r s) (call : RegistryCall) :
    Agrees (r.exec call) (s.returned call, s.exec call) := by
  cases call with
  | insertTopic topic => exact (h.insertTopic topic).agrees
  | removeTopic index =>
    exact (h.atIndex h.removeTopic (fun index => h.removeTopic_neg index) index).agrees
  | attachMessageHandler index mh =>
    have hneg (index : Int) (hneg : ¬0 ≤ index) : r.attachMessageHandler index mh = some r :=
      if_neg (mt And.left hneg)
    exact (h.atIndex (h.attachMessageHandler · mh) hneg index).agrees
  | attachWildcardMessageHandler topic =>
    have htopic : r.attachWildcardMessageHandler topic =
        some (s.attachWildcardMessageHandler topic) := by
      rw [StoredRegistry.attachWildcardMessageHandler, h.first,
        NbiotTopicRegistry.attachWildcardMessageHandler]
      cases s.registry.find? _ <;> rfl
    exact h.looks htopic _
  | updateWildcardMessageHandler topic => exact (h.updateWildcardMessageHandler topic).agrees
  | setTopicFlag index flag =>
    have hneg (index : Int) (hneg : ¬0 ≤ index) : r.setTopicFlag index flag = some r :=
      if_neg (mt And.left hneg)
    exact (h.atIndex (h.setTopicFlag · flag) hneg index).agrees
  | unsetTopicFlag index flag =>
    have hneg (index : Int) (hneg : ¬0 ≤ index) : r.unsetTopicFlag index flag = some r :=
      if_neg (mt And.left hneg)
    exact (h.atIndex (h.unsetTopicFlag · flag) hneg index).agrees
  | clearRegistry => exact h.clearRegistry.agrees

theorem answer (h : Stores r s) (request : RegistryRequest) :
    Agrees (r.answer request) (s.answer request) := by
  cases request with
  | change call => exact h.exec call
  | messageDispatcher id =>
    rw [StoredRegistry.answer, StoredRegistry.messageDispatcher, h.first,
      NbiotTopicRegistry.answer, NbiotTopicRegistry.messageDispatcher]
    cases s.registry.find? _ with
    | none => exact ⟨r, rfl, h⟩
    | some t =>
      cases hmh : t.mh with
      | none => simpa [hmh] using ⟨r, rfl, h⟩
      | some handler =>
        have hcounted : Stores { r with messageCount := r.messageCount + 1 }
            { s with messageCount := s.messageCount + 1 } :=
          ⟨h.list, congrArg (· + 1) h.messageCount⟩
        simpa [hmh] using ⟨_, rfl, hcounted⟩
  | findTopic name => exact h.looks (h.findTopic name) _
  | findTopicId topicId => exact h.looks (h.indexOf _) _
  | topicAt index =>
    rw [NbiotTopicRegistry.answer]
    split
    · next hindex =>
      have htopic := h.topicAt index.toNat
      rw [Int.toNat_of_nonneg hindex] at htopic
      exact h.looks htopic _
    · next hindex => exact h.looks (h.topicAt_neg hindex) _
  | topicCount =>
    exact ⟨r, by rw [StoredRegistry.answer, StoredRegistry.topicCount, h.count]; rfl, h⟩
  | hasAnyTopic flag =>
    have hany : (s.registry.find? (·.isReg flag)).isSome = s.hasAnyTopic flag := by
      rw [Bool.eq_iff_iff, List.find?_isSome, NbiotTopicRegistry.hasAnyTopic, List.any_eq_true]
    have hflag : r.hasAnyTopic flag = some (s.hasAnyTopic flag) := by
      rw [StoredRegistry.hasAnyTopic, h.first, ← hany]
      rfl
    exact h.looks hflag _
  | hasTopic name flag =>
    have hflag : r.hasTopic name flag = some (s.hasTopic name flag) := by
      rw [StoredRegistry.hasTopic, NbiotTopicRegistry.hasTopic, h.findTopic]
      cases s.findTopic name with
      | none => rfl
      | some index => simp [indexInt, h.topicAt index]
    exact h.looks hflag _

end Stores

end StoredRegistry

/-- **The topic registry in memory is the model's**: whatever is asked of it, in any order, it
never follows a pointer that leads nowhere, and gives the model's answers. -/
theorem registry_stored (requests : List RegistryRequest) :
    ∃ r, StoredRegistry.answers {} requests =
        some ((NbiotTopicRegistry.answers {} requests).1, r) ∧
      r.Stores (NbiotTopicRegistry.answers {} requests).2 := by
  suffices h : ∀ (r : StoredRegistry) (s : NbiotTopicRegistry), r.Stores s →
      ∃ r', r.answers requests = some ((s.answers requests).1, r') ∧
        r'.Stores (s.answers requests).2 from h {} {} .start
  induction requests with
  | nil => exact fun r s h => ⟨r, rfl, h⟩
  | cons request requests ih =>
    intro r s h
    obtain ⟨r₁, hr₁, h₁⟩ := h.answer request
    obtain ⟨r₂, hr₂, h₂⟩ := ih r₁ _ h₁
    exact ⟨r₂, by simp [StoredRegistry.answers, NbiotTopicRegistry.answers, hr₁, hr₂], h₂⟩

end LibNbiot
