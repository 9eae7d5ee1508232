/-
# Lists as values

What a `util::list` is for: a sequence of items, and an item for where there is none. One
more bit is seen from outside. An item that is pushed in front of nothing is the last
one, but the list does not know it, and cannot append behind it; it knows its last item
again once the last item was removed from behind another one.

Each operation, on a list whose elements are a chain in memory, does to the items what is
said here, and fails where it is said to fail. It replaces elements of its own only.
-/

import LibNbiot.Lists.LinkedList

namespace LibNbiot

open Logic

variable {α : Type}

/-- A list as a value. -/
structure ListValue (α : Type) where
  items : List α := []
  invalidItem : α
  lastKnown : Bool := true
  deriving DecidableEq, Repr

namespace ListValue

def validIndex (v : ListValue α) (index : Int) : Bool := 0 ≤ index ∧ index < v.items.length

def append (v : ListValue α) (item : α) : Option (ListValue α) :=
  if v.items.isEmpty then some { v with items := [item], lastKnown := true }
  else if v.lastKnown then some { v with items := v.items ++ [item] }
  else none

def push (v : ListValue α) (item : α) : ListValue α :=
  { v with items := item :: v.items, lastKnown := !v.items.isEmpty && v.lastKnown }

def pop (v : ListValue α) : ListValue α := { v with items := v.items.tail }

theorem pop_nil {v : ListValue α} (h : v.items = []) : v.pop = v := by
  cases v
  cases h
  rfl

def takeFront (v : ListValue α) : α × ListValue α := (v.items.headD v.invalidItem, v.pop)

def remove (v : ListValue α) (index : Int) : ListValue α :=
  if v.validIndex index then
    { v with
      items := v.items.eraseIdx index.toNat
      lastKnown := v.lastKnown || decide (0 < index ∧ index + 1 = v.items.length) }
  else v

def itemAt (v : ListValue α) (index : Int) : α :=
  if v.validIndex index then v.items.getD index.toNat v.invalidItem else v.invalidItem

def modifyAt (v : ListValue α) (index : Int) (f : α → α) : ListValue α :=
  if v.validIndex index then { v with items := v.items.modify index.toNat f }
  else { v with invalidItem := f v.invalidItem }

def clear (v : ListValue α) : ListValue α := { v with items := [] }

def find (v : ListValue α) (isItem : α → Bool) : α := (v.items.find? isItem).getD v.invalidItem

def indexOf (v : ListValue α) (isItem : α → Bool) : Int :=
  match v.items.findIdx? isItem with
  | some n => n
  | none => -1

/-- A copy knows its last item. -/
def copy (v : ListValue α) : ListValue α := { v with lastKnown := true }

end ListValue

/-- A list in memory, its elements at some addresses, is a value. -/
structure IsList (m : Memory α) (l : UtilList α) (as : List Nat) (v : ListValue α) : Prop where
  chain : Segment m l.elements as v.items none
  last : l.lastElement = if v.lastKnown then as.getLast? else none
  invalidItem : l.invalidItem = v.invalidItem
  size : l.size = v.items.length

/-- Both have failed, or a list of other elements is left, and it is the value. -/
inductive Yields (m : Memory α) (as : List Nat) :
    Option (UtilList α × Memory α) → Option (ListValue α) → Prop
  | failed : Yields m as none none
  | done {l' : UtilList α} {m' : Memory α} {v' : ListValue α} (as' : List Nat)
      (hlist : IsList m' l' as' v') (hreplaces : Replaces m as m' as') :
      Yields m as (some (l', m')) (some v')

theorem Yields.exists_list {m : Memory α} {as : List Nat} {r : Option (UtilList α × Memory α)}
    {v : ListValue α} (h : Yields m as r (some v)) :
    ∃ l' m' as', r = some (l', m') ∧ IsList m' l' as' v ∧ Replaces m as m' as' := by
  cases h with
  | done as' hlist hreplaces => exact ⟨_, _, as', rfl, hlist, hreplaces⟩

theorem Yields.after {m m' : Memory α} {as as' : List Nat} {r : Option (UtilList α × Memory α)}
    {v : Option (ListValue α)} (h : Yields m' as' r v) (hreplaces : Replaces m as m' as') :
    Yields m as r v := by
  cases h with
  | failed => exact .failed
  | done as'' hlist hreplaces' => exact .done as'' hlist (hreplaces.trans hreplaces')

namespace IsList

variable {m m' : Memory α} {l : UtilList α} {as : List Nat} {v : ListValue α}

theorem frame (h : IsList m l as v) (hm : ∀ a ∈ as, m'.read a = m.read a) : IsList m' l as v :=
  ⟨h.chain.frame hm, h.last, h.invalidItem, h.size⟩

theorem length_eq (h : IsList m l as v) : as.length = v.items.length := h.chain.length_eq

theorem isEmpty_eq (h : IsList m l as v) : l.isEmpty = v.items.isEmpty := by
  have hchain := h.chain
  unfold UtilList.isEmpty
  cases hp : l.elements <;> cases hx : v.items <;> rw [hp, hx] at hchain <;> cases hchain <;> rfl

theorem validIndex_eq (h : IsList m l as v) (index : Int) :
    l.validIndex index = v.validIndex index := by
  rw [UtilList.validIndex, ListValue.validIndex, h.size]

/-- No elements, no items. -/
theorem eq_nil (h : IsList m l as v) (hempty : v.items = []) : as = [] ∧ l.elements = none := by
  have hchain := h.chain
  rw [hempty] at hchain
  cases hp : l.elements with
  | none =>
    rw [hp] at hchain
    cases hchain
    exact ⟨rfl, rfl⟩
  | some a =>
    rw [hp] at hchain
    cases hchain

/-- What a list owns, and what it may get anew. -/
theorem ne_fresh (h : IsList m l as v) (c : Cell α) : (m.alloc c).1 ∉ as := fun hmem =>
  h.chain.allocated _ hmem (Memory.read_fresh c)

/-- A new cell does not disturb a list. -/
theorem alloc (h : IsList m l as v) (c : Cell α) : IsList (m.alloc c).2 l as v := by
  apply h.frame
  intro a ha
  rw [Memory.read_alloc, if_neg]
  rintro rfl
  exact h.ne_fresh c ha

/-- The last element of a list that knows it. -/
theorem last_eq {front : List Nat} {b : Nat} (h : IsList m l (front ++ [b]) v)
    (hknown : v.lastKnown = true) :
    ∃ ys y, v.items = ys ++ [y] ∧ l.lastElement = some b ∧
      Segment m l.elements front ys (some b) ∧ m.read b = some ⟨y, none⟩ := by
  obtain ⟨ys, y, zs, q, hitems, hfront, hread, hback⟩ := h.chain.pick
  cases hback
  exact ⟨ys, y, hitems, by rw [h.last, if_pos hknown, List.getLast?_concat], hfront, hread⟩

theorem append (h : IsList m l as v) (x : α) : Yields m as (l.append x m) (v.append x) := by
  have hempty := h.isEmpty_eq
  by_cases hitems : v.items = []
  · obtain ⟨rfl, hnone⟩ := h.eq_nil hitems
    rw [UtilList.append, ListValue.append, hempty]
    simp only [hitems, List.isEmpty_nil, if_true]
    refine .done [(m.alloc ⟨x, none⟩).1] ⟨?_, rfl, h.invalidItem, ?_⟩ (.alloc _ (by simp))
    · exact .cons (Memory.read_alloc_self _) (.nil _)
    · simp [h.size, hitems]
  · have hnonempty : v.items.isEmpty = false := by simpa using hitems
    rw [UtilList.append, ListValue.append, hempty, hnonempty]
    obtain rfl | ⟨front, b, rfl⟩ := List.eq_nil_or_concat' as
    · exact absurd (List.length_eq_zero_iff.1 h.length_eq.symm) hitems
    · cases hknown : v.lastKnown with
      | false =>
        have hlast : l.lastElement = none := by rw [h.last, hknown]; rfl
        simp only [hlast, Memory.write]
        exact .failed
      | true =>
        obtain ⟨ys, y, hys, hlast, hfront, hread⟩ := (h.alloc ⟨x, none⟩).last_eq hknown
        have hfresh := h.ne_fresh ⟨x, none⟩
        have hb : b ∉ front := Segment.notMem_front h.chain.nodup
        simp only [hlast, Memory.write_eq hread]
        refine .done (front ++ [b] ++ [(m.alloc ⟨x, none⟩).1]) ⟨?_, ?_, h.invalidItem, ?_⟩ ?_
        · rw [hys]
          apply (hfront.link hb hread _).append
          refine .cons ?_ (.nil _)
          rw [Memory.read_put hread, if_neg fun heq : _ = b => hfresh (by simp [heq]),
            Memory.read_alloc_self]
        · simp
        · simp [h.size]
        · exact (Replaces.alloc _ (by grind)).trans (.put (by simp) hread _)

theorem lastElement_of_nil (h : IsList m l [] v) : l.lastElement = none := by
  rw [h.last]
  split <;> rfl

theorem push (h : IsList m l as v) (x : α) : Yields m as (l.push x m) (some (v.push x)) := by
  have hempty := h.isEmpty_eq
  have hfresh := h.ne_fresh ⟨x, none⟩
  rw [UtilList.push, ListValue.push, hempty]
  by_cases hitems : v.items = []
  · obtain ⟨rfl, hnone⟩ := h.eq_nil hitems
    simp only [hitems, List.isEmpty_nil, if_true]
    refine .done [(m.alloc ⟨x, none⟩).1] ⟨?_, ?_, h.invalidItem, ?_⟩ (.alloc _ (by simp))
    · exact .cons (Memory.read_alloc_self _) (.nil _)
    · exact h.lastElement_of_nil
    · simp [h.size, hitems]
  · have hnonempty : v.items.isEmpty = false := by simpa using hitems
    have hread := Memory.read_alloc_self (m := m) ⟨x, none⟩
    simp only [hnonempty, Memory.write_eq hread]
    refine .done ((m.alloc ⟨x, none⟩).1 :: as) ⟨?_, ?_, h.invalidItem, ?_⟩ ?_
    · refine .cons (by rw [Memory.read_put hread, if_pos rfl]) ((h.alloc ⟨x, none⟩).chain.frame ?_)
      intro a ha
      rw [Memory.read_put hread, if_neg]
      rintro rfl
      exact hfresh ha
    · have has : as ≠ [] := fun has =>
        hitems (List.length_eq_zero_iff.1 (by simp [← h.length_eq, has]))
      simp [h.last, List.getLast?_cons, List.getLast?_eq_some_getLast has]
    · simp [h.size]
    · exact (Replaces.alloc _ (by simp)).trans (.put (by simp) hread _)

end IsList

/-- An element that is unlinked and deleted is freed, and nothing else. -/
theorem UtilList.deleteElement_unlinked {m : Memory α} {a : Nat} {x : α} {q : Option Nat}
    (hread : m.read a = some ⟨x, q⟩) :
    UtilList.deleteElement (some a) (m.put a (some ⟨x, none⟩)) = some (m.put a none) := by
  have hread' : (m.put a (some ⟨x, none⟩)).read a = some ⟨x, none⟩ := by
    rw [Memory.read_put hread, if_pos rfl]
  rw [UtilList.deleteElement, Memory.freeChain_single hread', Memory.put_put]

namespace IsList

variable {m m' : Memory α} {l : UtilList α} {as : List Nat} {v : ListValue α} {a : Nat}

/-- The first element. -/
theorem head_eq (h : IsList m l (a :: as) v) :
    ∃ x xs q, v.items = x :: xs ∧ l.elements = some a ∧ m.read a = some ⟨x, q⟩ ∧
      Segment m q as xs none := by
  have hchain : Segment m l.elements ([] ++ a :: as) v.items none := h.chain
  obtain ⟨ys, x, zs, q, hitems, hfront, hread, hback⟩ := hchain.pick
  obtain rfl : ys = [] := List.length_eq_zero_iff.1 hfront.length_eq.symm
  exact ⟨x, zs, q, hitems, h.chain.pointer_eq, hread, hback⟩

theorem unlinkFront (h : IsList m l (a :: as) v) :
    ∃ l' m', l.unlinkFront m = some (v.items.headD v.invalidItem, l', m') ∧
      IsList m' l'.forgetLast as v.pop ∧ Replaces m (a :: as) m' as := by
  obtain ⟨x, xs, q, hitems, helements, hread, hback⟩ := h.head_eq
  have ha : a ∉ as := (List.nodup_cons.1 h.chain.nodup).1
  have hunlinked : (m.put a (some ⟨x, none⟩)).read a = some ⟨x, none⟩ := by
    rw [Memory.read_put hread, if_pos rfl]
  refine ⟨{ l with elements := q, size := l.size - 1 }, m.put a none, ?_, ?_,
    .free hread (by simp)⟩
  · simp [UtilList.unlinkFront, UtilList.element, Memory.follow, helements, hread,
      Memory.write_eq hread, hunlinked, UtilList.deleteElement_unlinked hread, hitems]
  · have hchain : Segment (m.put a none) q as xs none := by
      apply hback.frame
      intro b hb
      rw [Memory.read_put hread, if_neg fun hba : b = a => ha (hba ▸ hb)]
    have hsize : l.size - 1 = (v.pop.items.length : Int) := by
      simp [h.size, ListValue.pop, hitems]
    refine ⟨by simpa [ListValue.pop, hitems] using hchain, ?_,
      (UtilList.forgetLast_invalidItem _).trans h.invalidItem, by simpa using hsize⟩
    rw [UtilList.forgetLast_lastElement]
    cases as with
    | nil =>
      cases hback
      simp
    | cons b as =>
      obtain rfl := hback.pointer_eq
      exact h.last

/-- A list without items forgets a last element that it does not have. -/
theorem forgetLast (h : IsList m l as v) (hitems : v.items = []) : l.forgetLast = l := by
  obtain ⟨rfl, hnone⟩ := h.eq_nil hitems
  obtain ⟨elements, lastElement, invalidItem, size⟩ := l
  cases h.lastElement_of_nil
  exact ite_self _

theorem pop (h : IsList m l as v) : Yields m as (l.pop m) (some v.pop) := by
  have hempty := h.isEmpty_eq
  cases as with
  | nil =>
    have hitems : v.items = [] := List.length_eq_zero_iff.1 h.length_eq.symm
    rw [UtilList.pop, hempty, hitems, List.isEmpty_nil, if_pos rfl, h.forgetLast hitems,
      ListValue.pop_nil hitems]
    exact .done _ h (.refl m [])
  | cons a as =>
    obtain ⟨l', m', hunlink, hlist, hreplaces⟩ := h.unlinkFront
    obtain ⟨x, xs, q, hitems, -⟩ := h.head_eq
    rw [UtilList.pop, hempty, hitems]
    simp only [hunlink]
    exact .done _ hlist hreplaces

theorem takeFront (h : IsList m l as v) :
    ∃ l' m', l.takeFront m = some (v.takeFront.1, l', m') ∧
      Yields m as (some (l', m')) (some v.takeFront.2) := by
  have hempty := h.isEmpty_eq
  cases as with
  | nil =>
    have hitems : v.items = [] := List.length_eq_zero_iff.1 h.length_eq.symm
    refine ⟨l, m, ?_, ?_⟩
    · simp [UtilList.takeFront, hempty, hitems, h.forgetLast hitems, ListValue.takeFront,
        h.invalidItem]
    · rw [ListValue.takeFront, ListValue.pop_nil hitems]
      exact .done _ h (.refl m [])
  | cons a as =>
    obtain ⟨l', m', hunlink, hlist, hreplaces⟩ := h.unlinkFront
    obtain ⟨x, xs, q, hitems, -⟩ := h.head_eq
    refine ⟨l'.forgetLast, m', ?_, .done _ hlist hreplaces⟩
    rw [UtilList.takeFront, hempty, hunlink, ListValue.takeFront, hitems]
    rfl

/-! ## Elements by their index -/

/-- The element at a valid index, with those before it and behind it. -/
theorem element_eq (h : IsList m l as v) {index : Int} (hvalid : v.validIndex index = true) :
    ∃ front a back ys x zs q, as = front ++ a :: back ∧ v.items = ys ++ x :: zs ∧
      front.length = index.toNat ∧ ys.length = index.toNat ∧
      Segment m l.elements front ys (some a) ∧ m.read a = some ⟨x, q⟩ ∧
      Segment m q back zs none ∧ l.element index m = some (some a) := by
  have hlt : index.toNat < as.length := by
    have hbounds : 0 ≤ index ∧ index < v.items.length := by
      simpa [ListValue.validIndex] using hvalid
    rw [h.length_eq]
    omega
  have hcut : as = as.take index.toNat ++ as[index.toNat] :: as.drop (index.toNat + 1) := by simp
  have hchain := h.chain
  rw [hcut] at hchain
  obtain ⟨ys, x, zs, q, hitems, hfront, hread, hback⟩ := hchain.pick
  have hlen : (as.take index.toNat).length = index.toNat := by simp; omega
  have hfollow := hfront.follow_eq
  rw [hlen] at hfollow
  exact ⟨_, _, _, ys, x, zs, q, hcut, hitems, hlen, hfront.length_eq.symm.trans hlen, hfront, hread,
    hback, hfollow⟩

theorem itemAt (h : IsList m l as v) (index : Int) :
    l.itemAt index m = some (v.itemAt index) := by
  rw [UtilList.itemAt, ListValue.itemAt, h.validIndex_eq]
  split
  · next hvalid =>
    obtain ⟨front, a, back, ys, x, zs, q, -, hitems, -, hys, -, hread, -, helement⟩ :=
      h.element_eq hvalid
    simp [helement, hread, hitems, ← hys]
  · rw [h.invalidItem]

theorem modifyAt (h : IsList m l as v) (index : Int) (f : α → α) :
    Yields m as (l.modifyAt index f m) (some (v.modifyAt index f)) := by
  rw [UtilList.modifyAt, ListValue.modifyAt, h.validIndex_eq]
  split
  · next hvalid =>
    obtain ⟨front, a, back, ys, x, zs, q, rfl, hitems, hfront, hys, hsegment, hread, hback,
      helement⟩ := h.element_eq hvalid
    have hmodify : v.items.modify index.toNat f = ys ++ f x :: zs := by
      rw [hitems, ← hys]
      simp [List.modify_eq_take_cons_drop]
    have hchanged := (hsegment.overwrite hread hback h.chain.nodup (f x)).1
    simp only [helement, Option.bind_eq_bind, Option.bind_some, Memory.write_eq hread]
    refine .done (front ++ a :: back) ⟨?_, h.last, h.invalidItem, ?_⟩ (.put (by simp) hread _)
    · rw [hmodify]
      exact hchanged
    · simp [h.size]
  · exact .done as ⟨h.chain, h.last, by rw [h.invalidItem], h.size⟩ (.refl m as)

/-- The first element is removed like it is popped. -/
theorem remove_zero (h : IsList m l (a :: as) v) : l.remove 0 m = l.pop m := by
  obtain ⟨x, xs, q, hitems, helements, hread, -⟩ := h.head_eq
  have hvalid : l.validIndex 0 = true := by simp [UtilList.validIndex, h.size, hitems]
  have hunlinked : (m.put a (some ⟨x, none⟩)).read a = some ⟨x, none⟩ := by
    rw [Memory.read_put hread, if_pos rfl]
  rw [UtilList.remove, if_pos hvalid, UtilList.pop, h.isEmpty_eq, hitems]
  simp [UtilList.unlinkFront, UtilList.element, Memory.follow, helements, hread,
    Memory.write_eq hread, hunlinked, UtilList.deleteElement_unlinked hread, UtilList.forgetLast,
    UtilList.isEmpty]
  split <;> simp_all

theorem remove (h : IsList m l as v) (index : Int) :
    Yields m as (l.remove index m) (some (v.remove index)) := by
  rw [ListValue.remove, ← h.validIndex_eq]
  cases hvalid : l.validIndex index with
  | false =>
    rw [UtilList.remove, hvalid]
    exact .done _ h (.refl m as)
  | true =>
    have hvalid' : v.validIndex index = true := h.validIndex_eq index ▸ hvalid
    obtain ⟨front, a, back, ys, x, zs, q, rfl, hitems, hfront, hys, hsegment, hread, hback,
      helement⟩ := h.element_eq hvalid'
    have hnodup := h.chain.nodup
    have ha := Segment.notMem_front hnodup
    have ha' := Segment.notMem_back hnodup
    have hfreed : ∀ b ≠ a, (m.put a none).read b = m.read b := fun b hb => by
      rw [Memory.read_put hread, if_neg hb]
    obtain rfl | ⟨front, b, rfl⟩ := List.eq_nil_or_concat' front
    · obtain rfl : index = 0 := by
        have hbounds : 0 ≤ index ∧ index < v.items.length := by
          simpa [ListValue.validIndex] using hvalid'
        have hzero : index.toNat = 0 := hfront.symm
        omega
      rw [h.remove_zero]
      have hpop : v.pop = { v with
          items := v.items.eraseIdx (0 : Int).toNat
          lastKnown :=
            v.lastKnown || decide ((0 : Int) < 0 ∧ (0 : Int) + 1 = v.items.length) } := by
        simp [ListValue.pop]
      exact hpop ▸ h.pop
    · have hindex : index = front.length + 1 := by
        have hlen : index.toNat = front.length + 1 := by simpa using hfront.symm
        omega
      -- the element before the removed one
      obtain ⟨ws, w, us, r, rfl, hbefore, hread', hlast⟩ := hsegment.pick
      cases hlast
      have hb : b ≠ a := by
        rintro rfl
        exact ha (by simp)
      have hprevious : (m.put a none).read b = some ⟨w, some a⟩ := by rw [hfreed b hb, hread']
      have hbefore' : Segment (m.put a none) l.elements front ws (some b) :=
        hbefore.frame fun c hc => hfreed c fun hca => ha (by simp [← hca, hc])
      have hfollow : l.element (index - 1) (m.put a none) = some (some b) := by
        rw [UtilList.element, show (index - 1).toNat = front.length by omega]
        exact hbefore'.follow_eq
      rw [UtilList.remove, if_pos hvalid]
      simp only [helement, Option.bind_eq_bind, Option.bind_some, Memory.deref_some, hread,
        Memory.write_eq hread, UtilList.deleteElement_unlinked hread, hfollow,
        Memory.write_eq hprevious, if_neg (show ¬index = 0 by omega)]
      have hbfront : b ∉ front := Segment.notMem_front hnodup.of_append_left
      have hbback : b ∉ back := fun hmem =>
        List.disjoint_of_nodup_append hnodup (by simp) (List.mem_cons_of_mem a hmem)
      have hitems' : v.items.eraseIdx index.toNat = ws ++ [w] ++ zs := by
        rw [hitems, ← hys]
        simp [List.eraseIdx_append_of_length_le]
      have hsize : l.size = ws.length + zs.length + 2 := by
        rw [h.size, hitems]
        simp
        omega
      refine .done (front ++ [b] ++ back) ⟨?_, ?_, h.invalidItem, ?_⟩ ?_
      · rw [hitems']
        apply (hbefore'.link hbfront hprevious ⟨w, q⟩).append
        apply hback.frame
        intro c hc
        rw [Memory.read_put hprevious, if_neg fun hcb : c = b => hbback (hcb ▸ hc),
          hfreed c fun hca => ha' (hca ▸ hc)]
      · have hws := hbefore.length_eq
        cases hback with
        | nil =>
          have hpositive : 0 < index := by omega
          have hend : index + 1 = v.items.length := by
            rw [hitems]
            simp
            omega
          simp [hpositive, hend]
        | @cons c y q' back zs =>
          have hmore : ¬index + 1 = v.items.length := by
            rw [hitems]
            simp
            omega
          simpa [hmore, List.getLast?_append] using h.last
      · rw [hitems', hsize]
        simp
        omega
      · exact (Replaces.free hread (by grind)).trans (.put (by simp) hprevious _)

/-! ## Loops over the elements -/

/-- The search finds the first item that is the one, and its index. -/
theorem search_eq {p : Option Nat} {xs : List α} {fuel : Nat} (h : Segment m p as xs none)
    (hfuel : as.length ≤ fuel) (isItem : α → Bool) (n : Nat) :
    ∃ r, UtilList.search m isItem fuel p n = some r ∧ r.map Prod.snd = xs.find? isItem ∧
      r.map Prod.fst = (xs.findIdx? isItem).map (n + ·) := by
  induction fuel generalizing p as xs n with
  | zero =>
    obtain rfl := List.length_eq_zero_iff.1 (Nat.le_zero.1 hfuel)
    cases h
    exact ⟨none, rfl, rfl, rfl⟩
  | succ fuel ih =>
    cases h with
    | nil => exact ⟨none, rfl, rfl, rfl⟩
    | @cons _ x _ _ as xs hread hrest =>
      cases hitem : isItem x with
      | true =>
        exact ⟨some (n, x), by simp [UtilList.search, hread, hitem], by simp [hitem],
          by simp [List.findIdx?_cons, hitem]⟩
      | false =>
        obtain ⟨r, hr, hfind, hindex⟩ := ih hrest (Nat.le_of_succ_le_succ hfuel) (n + 1)
        refine ⟨r, by simp [UtilList.search, hread, hitem, hr], by simp [hitem, hfind], ?_⟩
        rw [hindex, List.findIdx?_cons, hitem]
        cases xs.findIdx? isItem <;> simp [Nat.add_assoc, Nat.add_comm 1]

theorem find (h : IsList m l as v) (isItem : α → Bool) :
    l.find isItem m = some (v.find isItem) := by
  obtain ⟨r, hr, hfind, -⟩ := search_eq h.chain h.chain.length_le isItem 0
  rw [UtilList.find, hr, ListValue.find, ← hfind]
  cases r with
  | none => exact congrArg some h.invalidItem
  | some e => rfl

theorem indexOf (h : IsList m l as v) (isItem : α → Bool) :
    l.indexOf isItem m = some (v.indexOf isItem) := by
  obtain ⟨r, hr, -, hindex⟩ := search_eq h.chain h.chain.length_le isItem 0
  have hindex : v.items.findIdx? isItem = r.map Prod.fst := by simpa using hindex.symm
  rw [UtilList.indexOf, hr, ListValue.indexOf, hindex]
  cases r <;> rfl

/-- An iterator comes to all items in their order. -/
theorem items_eq {p : Option Nat} {xs : List α} {fuel : Nat} (h : Segment m p as xs none)
    (hfuel : as.length ≤ fuel) (invalidItem : α) :
    ListIterator.items m fuel ⟨p, invalidItem⟩ = some xs := by
  induction fuel generalizing p as xs with
  | zero =>
    obtain rfl := List.length_eq_zero_iff.1 (Nat.le_zero.1 hfuel)
    cases h
    rfl
  | succ fuel ih =>
    cases h with
    | nil => rfl
    | cons hread hrest =>
      simp [ListIterator.items, ListIterator.value, ListIterator.increment, hread,
        ih hrest (Nat.le_of_succ_le_succ hfuel)]

theorem items (h : IsList m l as v) : l.items m = some v.items :=
  items_eq h.chain h.chain.length_le l.invalidItem

theorem clear (h : IsList m l as v) :
    ∃ l' m', l.clear m = some (l', m') ∧ IsList m' l' [] v.clear ∧ Replaces m as m' [] := by
  rw [UtilList.clear, h.isEmpty_eq]
  by_cases hitems : v.items = []
  · obtain ⟨rfl, hnone⟩ := h.eq_nil hitems
    have hclear : v.clear = v := by rw [ListValue.clear, ← hitems]
    rw [hitems, hclear]
    exact ⟨l, m, rfl, h, .refl m []⟩
  · obtain ⟨m', hfree, hreplaces⟩ := h.chain.freeChain h.chain.length_le
    have hnonempty : v.items.isEmpty = false := by simpa using hitems
    refine ⟨{ l with elements := none, lastElement := none, size := 0 }, m', ?_,
      ⟨.nil none, ?_, h.invalidItem, rfl⟩, hreplaces⟩
    · simp [hnonempty, UtilList.deleteElement, hfree]
    · exact (ite_self none).symm

/-! ## Copies -/

/-- What a list gets anew was not owned by another one. -/
theorem notMem_of_replaces {m m' : Memory α} {as as' : List Nat} {b : Nat} {c : Cell α}
    (h : Replaces m as m' as') (hread : m.read b = some c) (hb : b ∉ as) : b ∉ as' := fun hmem => by
  simp [h.fresh b hmem hb] at hread

/-- One more element is copied behind the others as it would be appended. -/
theorem copyElements_succ {l' : UtilList α} {b : Nat} {x : α} {q : Option Nat} {c : Cell α}
    (hempty : l.isEmpty = false) (happend : l.append x m = some (l', m'))
    (hread : m.read b = some ⟨x, q⟩) (hread' : m'.read b = some c) (n : Nat) :
    UtilList.copyElements (n + 1) (some b) l m = UtilList.copyElements n c.next l' m' := by
  simp only [UtilList.append, hempty, Bool.false_eq_true, if_false, Option.bind_eq_bind] at happend
  obtain ⟨m'', hwrite, hdone⟩ := Option.bind_eq_some_iff.1 happend
  cases hdone
  simp [UtilList.copyElements, hread, hwrite, hread']

theorem copyElements {q : Option Nat} {bs : List Nat} {ys : List α} (h : IsList m l as v)
    (hnonempty : v.items ≠ []) (hknown : v.lastKnown = true) (hother : Segment m q bs ys none)
    (hdisjoint : ∀ b ∈ bs, b ∉ as) :
    Yields m as (UtilList.copyElements ys.length q l m)
      (some { v with items := v.items ++ ys }) := by
  induction bs generalizing m l as v q ys with
  | nil =>
    cases hother
    rw [List.append_nil]
    exact .done _ h (.refl m as)
  | cons b bs ih =>
    cases hother with
    | @cons _ x q _ _ ys hread hrest =>
      have hempty : v.items.isEmpty = false := by simpa using hnonempty
      have happend := h.append x
      rw [ListValue.append, hempty, hknown] at happend
      obtain ⟨l', m', as', hl, hlist, hreplaces⟩ := happend.exists_list
      have hkept (a : Nat) (ha : a ∈ b :: bs) : m'.read a = m.read a ∧ a ∉ as' := by
        obtain ⟨c, hc⟩ := Option.ne_none_iff_exists'.1 ((Segment.cons hread hrest).allocated a ha)
        have hnot := notMem_of_replaces hreplaces hc (hdisjoint a ha)
        exact ⟨hreplaces.frame a (hdisjoint a ha) hnot, hnot⟩
      have hread' : m'.read b = some ⟨x, q⟩ := (hkept b List.mem_cons_self).1.trans hread
      have hcopied := ih hlist (by simp) rfl
        (hrest.frame fun a ha => (hkept a (List.mem_cons_of_mem _ ha)).1)
        fun a ha => (hkept a (List.mem_cons_of_mem _ ha)).2
      rw [List.length_cons, copyElements_succ (h.isEmpty_eq.trans hempty) hl hread hread', hknown]
      simpa using hcopied.after hreplaces

/-- A list of another's items is put into an empty list. -/
theorem appendCopy {other : UtilList α} {bs : List Nat} {w : ListValue α} (h : IsList m l [] v)
    (hother : IsList m other bs w) :
    Yields m [] (l.appendCopy other m) (some { v with items := w.items, lastKnown := true }) := by
  have hitems : v.items = [] := List.length_eq_zero_iff.1 h.length_eq.symm
  rw [UtilList.appendCopy, hother.isEmpty_eq, h.isEmpty_eq, hitems]
  cases bs with
  | nil =>
    have hnone : w.items = [] := List.length_eq_zero_iff.1 hother.length_eq.symm
    rw [hnone]
    refine .done [] ⟨hitems ▸ h.chain, ?_, h.invalidItem, by rw [h.size, hitems]⟩ (.refl m [])
    exact h.lastElement_of_nil
  | cons b bs =>
    obtain ⟨y, ys, q, hw, hfirst, hread, hrest⟩ := hother.head_eq
    have hsize : l.size = 0 := by rw [h.size, hitems]; rfl
    have hl : l.append y m = some ({ l with
        elements := some (m.alloc ⟨y, none⟩).1
        lastElement := some (m.alloc ⟨y, none⟩).1
        size := 1 }, (m.alloc ⟨y, none⟩).2) := by
      simp [UtilList.append, h.isEmpty_eq, hitems, hsize]
    have hcount : (other.count - 1).toNat = ys.length := by
      rw [UtilList.count, hother.size, hw]
      simp
    have happend := h.append y
    rw [hl, ListValue.append, hitems] at happend
    rw [hw]
    cases happend with
    | done as' hlist hreplaces =>
      have hkept (a : Nat) (ha : a ∈ bs) :
          (m.alloc ⟨y, none⟩).2.read a = m.read a ∧ a ∉ as' := by
        obtain ⟨c, hc⟩ := Option.ne_none_iff_exists'.1 (hrest.allocated a ha)
        have hnot := notMem_of_replaces hreplaces hc List.not_mem_nil
        exact ⟨hreplaces.frame a List.not_mem_nil hnot, hnot⟩
      have hcopied := hlist.copyElements (by simp) rfl (hrest.frame fun a ha => (hkept a ha).1)
        fun a ha => (hkept a ha).2
      simp only [hfirst, Memory.deref_some, hread, Option.bind_eq_bind, Option.bind_some, hcount]
      exact hcopied.after hreplaces

theorem copy (h : IsList m l as v) : Yields m [] (l.copy m) (some v.copy) := by
  have hempty : IsList m (.construct l.invalidItem) [] { invalidItem := v.invalidItem } :=
    ⟨.nil none, rfl, h.invalidItem, rfl⟩
  exact hempty.appendCopy h

end IsList

end LibNbiot
