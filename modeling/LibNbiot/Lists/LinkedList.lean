/-
# The linked list

`util::list` with its elements in memory. A null pointer that is followed, an element
that was freed and is used again, and a loop that does not end all have no result here.

The loops of `find`, `indexOf` and of an iterator, and the recursion of the destructor,
may take as many steps as there are cells in memory.
-/

import LibNbiot.Logic.Chains

namespace LibNbiot

open Logic

variable {α : Type}

/-- `util::list`. -/
structure UtilList (α : Type) where
  elements : Option Nat := none
  lastElement : Option Nat := none
  invalidItem : α
  size : Int := 0
  deriving DecidableEq, Repr

/-- `ListIterator`. -/
structure ListIterator (α : Type) where
  element : Option Nat
  invalidItem : α
  deriving DecidableEq, Repr

namespace ListIterator

/-- `operator++`. -/
def increment (it : ListIterator α) (m : Memory α) : Option (ListIterator α) :=
  if it.element.isSome then do
    return { it with element := (← m.deref it.element).next }
  else some it

/-- `operator*`. -/
def value (it : ListIterator α) (m : Memory α) : Option α :=
  if it.element.isSome then do return (← m.deref it.element).data
  else some it.invalidItem

/-- `for(; it != end(); ++it)`: the items on the way. -/
def items (m : Memory α) : Nat → ListIterator α → Option (List α)
  | 0, it => if it.element.isSome then none else some []
  | fuel + 1, it =>
      if it.element.isSome then do
        let x ← it.value m
        return x :: (← items m fuel (← it.increment m))
      else some []

end ListIterator

namespace UtilList

def isEmpty (l : UtilList α) : Bool := l.elements.isNone

def count (l : UtilList α) : Int := l.size

def validIndex (l : UtilList α) (index : Int) : Bool := 0 ≤ index ∧ index < l.size

/-- `element`. -/
def element (l : UtilList α) (index : Int) (m : Memory α) : Option (Option Nat) :=
  m.follow index.toNat l.elements

/-- `delete` of an element, whose destructor deletes the next one. -/
def deleteElement (e : Option Nat) (m : Memory α) : Option (Memory α) :=
  m.freeChain m.cells.length e

/-- `list(invalid)`. -/
def construct (invalid : α) : UtilList α := { invalidItem := invalid }

def append (l : UtilList α) (item : α) (m : Memory α) : Option (UtilList α × Memory α) :=
  let (e, m) := m.alloc ⟨item, none⟩
  if l.isEmpty then
    some ({ l with elements := some e, lastElement := some e, size := l.size + 1 }, m)
  else do
    let m ← m.write l.lastElement fun c => { c with next := some e }
    return ({ l with lastElement := some e, size := l.size + 1 }, m)

/-- `at`. -/
def itemAt (l : UtilList α) (index : Int) (m : Memory α) : Option α :=
  if l.validIndex index then do
    let tmp ← l.element index m
    return (← m.deref tmp).data
  else some l.invalidItem

/-- What is done through the reference that `operator[]` returns. Where the index is not
valid, that is the invalid item. -/
def modifyAt (l : UtilList α) (index : Int) (f : α → α) (m : Memory α) :
    Option (UtilList α × Memory α) :=
  if l.validIndex index then do
    let tmp ← l.element index m
    return (l, ← m.write tmp fun c => { c with data := f c.data })
  else some ({ l with invalidItem := f l.invalidItem }, m)

def remove (l : UtilList α) (index : Int) (m : Memory α) : Option (UtilList α × Memory α) :=
  if l.validIndex index then do
    let current ← l.element index m
    let next := (← m.deref current).next
    let m ← m.write current fun c => { c with next := none }
    let m ← deleteElement current m
    if index = 0 then
      let l : UtilList α := { l with elements := next }
      let lastElement := if next.isNone then l.elements else l.lastElement
      return ({ l with lastElement := lastElement, size := l.size - 1 }, m)
    else
      let previous ← l.element (index - 1) m
      let m ← m.write previous fun c => { c with next := next }
      let lastElement := if next.isNone then previous else l.lastElement
      return ({ l with lastElement := lastElement, size := l.size - 1 }, m)
  else some (l, m)

/-- The first element is unlinked and deleted; the item that it had. -/
def unlinkFront (l : UtilList α) (m : Memory α) : Option (α × UtilList α × Memory α) := do
  let current ← l.element 0 m
  let next := (← m.deref current).next
  let m ← m.write current fun c => { c with next := none }
  let ret := (← m.deref current).data
  let m ← deleteElement current m
  return (ret, { l with elements := next, size := l.size - 1 }, m)

/-- An empty list has no last element. -/
def forgetLast (l : UtilList α) : UtilList α :=
  if l.isEmpty then { l with lastElement := none } else l

@[simp]
theorem forgetLast_elements (l : UtilList α) : l.forgetLast.elements = l.elements := by
  unfold forgetLast
  split <;> rfl

@[simp]
theorem forgetLast_invalidItem (l : UtilList α) : l.forgetLast.invalidItem = l.invalidItem := by
  unfold forgetLast
  split <;> rfl

@[simp]
theorem forgetLast_size (l : UtilList α) : l.forgetLast.size = l.size := by
  unfold forgetLast
  split <;> rfl

theorem forgetLast_lastElement (l : UtilList α) :
    l.forgetLast.lastElement = if l.elements.isNone then none else l.lastElement := by
  unfold forgetLast isEmpty
  split <;> rfl

/-- `take_front`. -/
def takeFront (l : UtilList α) (m : Memory α) : Option (α × UtilList α × Memory α) :=
  if l.isEmpty then some (l.invalidItem, l.forgetLast, m)
  else do
    let (ret, l, m) ← l.unlinkFront m
    return (ret, l.forgetLast, m)

def pop (l : UtilList α) (m : Memory α) : Option (UtilList α × Memory α) :=
  if l.isEmpty then some (l.forgetLast, m)
  else do
    let (_, l, m) ← l.unlinkFront m
    return (l.forgetLast, m)

def push (l : UtilList α) (item : α) (m : Memory α) : Option (UtilList α × Memory α) :=
  let (e, m) := m.alloc ⟨item, none⟩
  if l.isEmpty then some ({ l with elements := some e, size := l.size + 1 }, m)
  else do
    let m ← m.write (some e) fun c => { c with next := l.elements }
    return ({ l with elements := some e, size := l.size + 1 }, m)

/-- The loop of `find` and `indexOf`: the first item that is the one, and its index. -/
def search (m : Memory α) (isItem : α → Bool) :
    Nat → Option Nat → Nat → Option (Option (Nat × α))
  | _, none, _ => some none
  | 0, some _, _ => none
  | fuel + 1, some tmp, n => do
      let e ← m.read tmp
      if isItem e.data then some (some (n, e.data)) else search m isItem fuel e.next (n + 1)

def find (l : UtilList α) (isItem : α → Bool) (m : Memory α) : Option α := do
  match ← search m isItem m.cells.length l.elements 0 with
  | some (_, x) => return x
  | none => return l.invalidItem

def indexOf (l : UtilList α) (isItem : α → Bool) (m : Memory α) : Option Int := do
  match ← search m isItem m.cells.length l.elements 0 with
  | some (n, _) => return n
  | none => return -1

def clear (l : UtilList α) (m : Memory α) : Option (UtilList α × Memory α) :=
  if l.isEmpty then some (l, m)
  else do
    let m ← deleteElement l.elements m
    return ({ l with elements := none, lastElement := none, size := 0 }, m)

/-- The loop of `appendCopy`: so many elements, from one on, are copied. -/
def copyElements :
    Nat → Option Nat → UtilList α → Memory α → Option (UtilList α × Memory α)
  | 0, _, l, m => some (l, m)
  | n + 1, otherElement, l, m => do
      let (e, m) := m.alloc ⟨(← m.deref otherElement).data, none⟩
      let m ← m.write l.lastElement fun c => { c with next := some e }
      let next := (← m.deref otherElement).next
      copyElements n next { l with lastElement := some e, size := l.size + 1 } m

def appendCopy (l other : UtilList α) (m : Memory α) : Option (UtilList α × Memory α) :=
  if other.isEmpty then some (l, m)
  else if l.isEmpty then do
    let first ← m.deref other.elements
    let (e, m) := m.alloc ⟨first.data, none⟩
    copyElements (other.count - 1).toNat first.next
      { l with elements := some e, lastElement := some e, size := 1 } m
  else copyElements other.count.toNat other.elements l m

/-- `list(other)`. -/
def copy (other : UtilList α) (m : Memory α) : Option (UtilList α × Memory α) :=
  appendCopy (construct other.invalidItem) other m

/-- `begin` and `cbegin`. -/
def begin (l : UtilList α) : ListIterator α := ⟨l.elements, l.invalidItem⟩

/-- What a loop from `begin()` to `end()` comes to. -/
def items (l : UtilList α) (m : Memory α) : Option (List α) :=
  ListIterator.items m m.cells.length l.begin

end UtilList

/-! ## Programs with lists -/

/-- What is done to the lists of a program, by their variables. -/
inductive ListOp (α : Type) where
  | construct (self : Nat) (invalid : α)
  | copy (self other : Nat)
  | assign (self other : Nat)
  | append (self : Nat) (item : α)
  | push (self : Nat) (item : α)
  | pop (self : Nat)
  | takeFront (self : Nat)
  | remove (self : Nat) (index : Int)
  | modifyAt (self : Nat) (index : Int) (f : α → α)
  | clear (self : Nat)
  | destroy (self : Nat)
  | itemAt (self : Nat) (index : Int)
  | find (self : Nat) (isItem : α → Bool)
  | indexOf (self : Nat) (isItem : α → Bool)
  | count (self : Nat)
  | items (self : Nat)

/-- What an operation returns. -/
inductive ListAnswer (α : Type) where
  | done
  | item (x : α)
  | index (n : Int)
  | items (xs : List α)
  deriving DecidableEq, Repr

/-- The variables of a program, and its memory. -/
structure ListStore (α : Type) where
  lists : Nat → Option (UtilList α) := fun _ => none
  memory : Memory α := {}

namespace ListStore

/-- A variable has another list now, and the memory is another one. -/
def set (s : ListStore α) (self : Nat) (r : UtilList α × Memory α) : ListStore α :=
  ⟨Function.update s.lists self (some r.1), r.2⟩

/-- `operator=`. The other list may be this one. -/
def assign (s : ListStore α) (self other : Nat) : Option (ListStore α) := do
  let l ← s.lists self
  let _ ← s.lists other
  let s := s.set self (← if l.isEmpty then some (l, s.memory) else l.clear s.memory)
  let s := s.set self (← (← s.lists self).appendCopy (← s.lists other) s.memory)
  let l ← s.lists self
  return s.set self ({ l with invalidItem := (← s.lists other).invalidItem }, s.memory)

/-- The destructor clears the list. -/
def destroy (s : ListStore α) (self : Nat) : Option (ListStore α) := do
  let (_, m) ← (← s.lists self).clear s.memory
  return ⟨Function.update s.lists self none, m⟩

/-- One operation. A variable has to be constructed before it is used, and once. -/
def exec (s : ListStore α) : ListOp α → Option (ListAnswer α × ListStore α)
  | .construct self invalid =>
      if (s.lists self).isSome then none
      else some (.done, s.set self (.construct invalid, s.memory))
  | .copy self other =>
      if (s.lists self).isSome then none
      else do return (.done, s.set self (← (← s.lists other).copy s.memory))
  | .assign self other => do return (.done, ← s.assign self other)
  | .append self item => do
      return (.done, s.set self (← (← s.lists self).append item s.memory))
  | .push self item => do return (.done, s.set self (← (← s.lists self).push item s.memory))
  | .pop self => do return (.done, s.set self (← (← s.lists self).pop s.memory))
  | .takeFront self => do
      let (x, r) ← (← s.lists self).takeFront s.memory
      return (.item x, s.set self r)
  | .remove self index => do
      return (.done, s.set self (← (← s.lists self).remove index s.memory))
  | .modifyAt self index f => do
      return (.done, s.set self (← (← s.lists self).modifyAt index f s.memory))
  | .clear self => do return (.done, s.set self (← (← s.lists self).clear s.memory))
  | .destroy self => do return (.done, ← s.destroy self)
  | .itemAt self index => do return (.item (← (← s.lists self).itemAt index s.memory), s)
  | .find self isItem => do return (.item (← (← s.lists self).find isItem s.memory), s)
  | .indexOf self isItem => do return (.index (← (← s.lists self).indexOf isItem s.memory), s)
  | .count self => do return (.index (← s.lists self).count, s)
  | .items self => do return (.items (← (← s.lists self).items s.memory), s)

/-- A program: the answers to its operations, and the store behind it. -/
def run (s : ListStore α) : List (ListOp α) → Option (List (ListAnswer α) × ListStore α)
  | [] => some ([], s)
  | op :: ops => do
      let (a, s) ← s.exec op
      let (as, s) ← s.run ops
      return (a :: as, s)

end ListStore

end LibNbiot
