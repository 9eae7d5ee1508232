/-
# Chains of cells

A memory holds cells that are linked by their addresses. A cell is allocated at an
address that was never in use. What is not allocated may not be read, written or
freed: a computation that tries has no result.

A segment is what a pointer leads to, cell by cell, up to another pointer. Whoever
owns some addresses may replace them by others: what is not his stays as it is, what
he gives up is freed, and what he gets was free. Replacements compose, so the owner of
a chain need not know about the other chains in the same memory.
-/

import Mathlib.Data.List.Nodup
import Mathlib.Data.Finset.Card
import Mathlib.Data.Finset.Range

namespace Logic

variable {α : Type}

/-- A cell; no next cell is a null pointer. -/
structure Cell (α : Type) where
  data : α
  next : Option Nat
  deriving DecidableEq, Repr

/-- The cells by their addresses. A cell that was freed is gone. -/
structure Memory (α : Type) where
  cells : List (Option (Cell α)) := []

namespace Memory

variable {m m' m'' : Memory α} {a b : Nat} {c c' : Cell α}

def read (m : Memory α) (a : Nat) : Option (Cell α) := m.cells[a]?.join

/-- What a pointer points to. -/
def deref (m : Memory α) (p : Option Nat) : Option (Cell α) := p.bind m.read

def put (m : Memory α) (a : Nat) (c : Option (Cell α)) : Memory α := ⟨m.cells.set a c⟩

def write (m : Memory α) (p : Option Nat) (f : Cell α → Cell α) : Option (Memory α) := do
  let a ← p
  let c ← m.read a
  return m.put a (some (f c))

def free (m : Memory α) (a : Nat) : Option (Memory α) := do
  let _ ← m.read a
  return m.put a none

/-- The address of a new cell, and the memory with it. -/
def alloc (m : Memory α) (c : Cell α) : Nat × Memory α := (m.cells.length, ⟨m.cells ++ [some c]⟩)

/-- From cell to cell, so many times. -/
def follow (m : Memory α) : Nat → Option Nat → Option (Option Nat)
  | 0, p => some p
  | n + 1, p => do m.follow n (← m.deref p).next

/-- Free a cell, and before it all that follow. -/
def freeChain (m : Memory α) : Nat → Option Nat → Option (Memory α)
  | _, none => some m
  | 0, some _ => none
  | fuel + 1, some a => do
      let m' ← m.freeChain fuel (← m.read a).next
      m'.free a

theorem lt_of_read (h : m.read a = some c) : a < m.cells.length := by
  by_contra hge
  simp [read, List.getElem?_eq_none (Nat.le_of_not_lt hge)] at h

@[simp]
theorem deref_some : m.deref (some a) = m.read a := rfl

@[simp]
theorem deref_none : m.deref none = none := rfl

theorem read_put (h : m.read a = some c) (c' : Option (Cell α)) (b : Nat) :
    (m.put a c').read b = if b = a then c' else m.read b := by
  have := lt_of_read h
  by_cases hb : b = a
  · subst hb
    simp [read, put, this]
  · simp [read, put, hb, Ne.symm hb]

theorem read_alloc (c : Cell α) (b : Nat) :
    (m.alloc c).2.read b = if b = (m.alloc c).1 then some c else m.read b := by
  unfold alloc read
  by_cases hb : b = m.cells.length
  · simp [hb]
  · simp only [if_neg hb]
    by_cases hlt : b < m.cells.length
    · rw [List.getElem?_append_left hlt]
    · rw [List.getElem?_eq_none (by simp; omega), List.getElem?_eq_none (by omega)]

/-- A new cell has an address of its own. -/
@[simp]
theorem read_fresh (c : Cell α) : m.read (m.alloc c).1 = none := by
  simp [read, alloc]

@[simp]
theorem read_alloc_self (c : Cell α) : (m.alloc c).2.read (m.alloc c).1 = some c := by
  rw [read_alloc, if_pos rfl]

theorem write_eq (h : m.read a = some c) (f : Cell α → Cell α) :
    m.write (some a) f = some (m.put a (some (f c))) := by
  simp [write, h]

theorem free_eq (h : m.read a = some c) : m.free a = some (m.put a none) := by
  simp [free, h]

@[simp]
theorem put_put (m : Memory α) (a : Nat) (c c' : Option (Cell α)) :
    (m.put a c).put a c' = m.put a c' := by
  simp [put]

/-- Freeing the chain of a cell that nothing follows frees the cell. -/
theorem freeChain_single {x : α} (h : m.read a = some ⟨x, none⟩) :
    m.freeChain m.cells.length (some a) = some (m.put a none) := by
  cases hlen : m.cells.length with
  | zero => exact absurd (lt_of_read h) (by simp [hlen])
  | succ n => simp [freeChain, h, free_eq h]

end Memory

/-! ## Ownership -/

/-- The owner of some addresses has replaced them by others. -/
structure Replaces (m : Memory α) (as : List Nat) (m' : Memory α) (as' : List Nat) : Prop where
  frame : ∀ a, a ∉ as → a ∉ as' → m'.read a = m.read a
  fresh : ∀ a ∈ as', a ∉ as → m.read a = none
  freed : ∀ a ∈ as, a ∉ as' → m'.read a = none

namespace Replaces

variable {m m' m'' : Memory α} {as as' as'' : List Nat} {a : Nat} {c : Cell α}

theorem refl (m : Memory α) (as : List Nat) : Replaces m as m as :=
  ⟨fun _ _ _ => rfl, fun _ h h' => absurd h h', fun _ h h' => absurd h h'⟩

theorem trans (h : Replaces m as m' as') (h' : Replaces m' as' m'' as'') :
    Replaces m as m'' as'' where
  frame a ha ha'' := by
    by_cases ha' : a ∈ as'
    · rw [h.fresh a ha' ha, h'.freed a ha' ha'']
    · rw [h'.frame a ha' ha'', h.frame a ha ha']
  fresh a ha'' ha := by
    by_cases ha' : a ∈ as'
    · exact h.fresh a ha' ha
    · rw [← h.frame a ha ha', h'.fresh a ha'' ha']
  freed a ha ha'' := by
    by_cases ha' : a ∈ as'
    · exact h'.freed a ha' ha''
    · rw [h'.frame a ha' ha'', h.freed a ha ha']

/-- Whoever owns more keeps the rest. -/
theorem widen {bs bs' : List Nat} (h : Replaces m as m' as') (cs : List Nat)
    (hmem : ∀ b, b ∈ bs ↔ b ∈ as ∨ b ∈ cs) (hmem' : ∀ b, b ∈ bs' ↔ b ∈ as' ∨ b ∈ cs) :
    Replaces m bs m' bs' where
  frame b hb hb' := h.frame b (fun hba => hb ((hmem b).2 (.inl hba)))
    fun hba => hb' ((hmem' b).2 (.inl hba))
  fresh b hb' hb := by
    have hnot := not_or.1 (mt (hmem b).2 hb)
    exact h.fresh b (((hmem' b).1 hb').resolve_right hnot.2) hnot.1
  freed b hb hb' := by
    have hnot := not_or.1 (mt (hmem' b).2 hb')
    exact h.freed b (((hmem b).1 hb).resolve_right hnot.2) hnot.1

/-- An owner's cell is overwritten. -/
theorem put (ha : a ∈ as) (h : m.read a = some c) (c' : Cell α) :
    Replaces m as (m.put a (some c')) as :=
  ⟨fun b hb _ => by rw [Memory.read_put h, if_neg fun hba : b = a => hb (hba ▸ ha)],
    fun _ h h' => absurd h h', fun _ h h' => absurd h h'⟩

/-- An owner's cell is given up. -/
theorem free (h : m.read a = some c) (hmem : ∀ b, b ∈ as ↔ b = a ∨ b ∈ as') :
    Replaces m as (m.put a none) as' where
  frame b hb _ := by rw [Memory.read_put h, if_neg fun hba => hb ((hmem b).2 (.inl hba))]
  fresh b hb hb' := absurd ((hmem b).2 (.inr hb)) hb'
  freed b hb hb' := by
    have hba : b = a := ((hmem b).1 hb).resolve_right hb'
    rw [Memory.read_put h, if_pos hba]

/-- An owner gets a new cell. -/
theorem alloc (c : Cell α) (hmem : ∀ b, b ∈ as' ↔ b = (m.alloc c).1 ∨ b ∈ as) :
    Replaces m as (m.alloc c).2 as' where
  frame b _ hb := by rw [Memory.read_alloc, if_neg fun hba => hb ((hmem b).2 (.inl hba))]
  fresh b hb hb' := by
    rw [((hmem b).1 hb).resolve_right hb']
    exact Memory.read_fresh c
  freed b hb hb' := absurd ((hmem b).2 (.inr hb)) hb'

end Replaces

/-! ## Segments -/

/-- What a pointer leads to up to another pointer: the addresses of the cells and their
data. -/
inductive Segment (m : Memory α) : Option Nat → List Nat → List α → Option Nat → Prop
  | nil (p : Option Nat) : Segment m p [] [] p
  | cons {a : Nat} {x : α} {p q : Option Nat} {as : List Nat} {xs : List α}
      (hread : m.read a = some ⟨x, p⟩) (hrest : Segment m p as xs q) :
      Segment m (some a) (a :: as) (x :: xs) q

namespace Segment

variable {m m' : Memory α} {p q r : Option Nat} {as bs : List Nat} {xs ys : List α} {a : Nat}
  {x : α}

theorem length_eq (h : Segment m p as xs q) : as.length = xs.length := by
  induction h with
  | nil => rfl
  | cons _ _ ih => simp [ih]

/-- A segment is not changed by what happens elsewhere. -/
theorem frame (h : Segment m p as xs q) (hm : ∀ a ∈ as, m'.read a = m.read a) :
    Segment m' p as xs q := by
  induction h with
  | nil p => exact .nil p
  | cons hread _ ih =>
    exact .cons ((hm _ List.mem_cons_self).trans hread)
      (ih fun a ha => hm a (List.mem_cons_of_mem _ ha))

theorem append (h : Segment m p as xs q) (h' : Segment m q bs ys r) :
    Segment m p (as ++ bs) (xs ++ ys) r := by
  induction h with
  | nil => exact h'
  | cons hread _ ih => exact .cons hread (ih h')

/-- A segment may be cut anywhere. -/
theorem split (h : Segment m p (as ++ bs) xs r) :
    ∃ q, Segment m p as (xs.take as.length) q ∧ Segment m q bs (xs.drop as.length) r := by
  induction as generalizing p xs with
  | nil => exact ⟨p, .nil p, h⟩
  | cons a as ih =>
    cases h with
    | cons hread hrest =>
      obtain ⟨q, hfront, hback⟩ := ih hrest
      exact ⟨q, .cons hread hfront, hback⟩

theorem allocated (h : Segment m p as xs q) : ∀ a ∈ as, m.read a ≠ none := by
  induction h with
  | nil => simp
  | cons hread _ ih => simpa [hread] using ih

theorem pointer_eq (h : Segment m p (a :: as) xs q) : p = some a := by
  cases h
  rfl

/-- Where a pointer leads is determined by the memory. -/
theorem unique (h : Segment m p as xs none) (h' : Segment m p bs ys none) : as = bs ∧ xs = ys := by
  induction as generalizing p bs xs ys with
  | nil =>
    cases h
    cases h'
    exact ⟨rfl, rfl⟩
  | cons a as ih =>
    cases h with
    | cons hread hrest =>
      cases h' with
      | cons hread' hrest' =>
        cases hread.symm.trans hread'
        obtain ⟨rfl, rfl⟩ := ih hrest hrest'
        exact ⟨rfl, rfl⟩

/-- A chain that ends comes to no cell twice. -/
theorem nodup (h : Segment m p as xs none) : as.Nodup := by
  induction as generalizing p xs with
  | nil => exact List.nodup_nil
  | cons a as ih =>
    cases h with
    | cons hread hrest =>
      refine List.nodup_cons.2 ⟨fun hmem => ?_, ih hrest⟩
      -- from a cell that came again the chain would be as long as it is from the first
      obtain ⟨front, back, rfl⟩ := List.append_of_mem hmem
      obtain ⟨q, -, hback⟩ := hrest.split
      obtain rfl := hback.pointer_eq
      have hlen := congrArg List.length (unique (.cons hread hrest) hback).1
      simp only [List.length_cons, List.length_append] at hlen
      omega

theorem notMem_front (h : (as ++ a :: bs).Nodup) : a ∉ as := fun hmem =>
  List.disjoint_of_nodup_append h hmem List.mem_cons_self

theorem notMem_back (h : (as ++ a :: bs).Nodup) : a ∉ bs :=
  (List.nodup_cons.1 h.of_append_right).1

theorem length_le (h : Segment m p as xs none) : as.length ≤ m.cells.length := by
  have hsub : as.toFinset ⊆ Finset.range m.cells.length := by
    intro a ha
    obtain ⟨c, hc⟩ := Option.ne_none_iff_exists'.1 (h.allocated a (List.mem_toFinset.1 ha))
    exact Finset.mem_range.2 (Memory.lt_of_read hc)
  have hcard := Finset.card_le_card hsub
  rwa [List.toFinset_card_of_nodup h.nodup, Finset.card_range] at hcard

theorem follow_eq (h : Segment m p as xs q) : m.follow as.length p = some q := by
  induction h with
  | nil => rfl
  | cons hread _ ih => simpa [Memory.follow, hread] using ih

/-- A cell of a segment, with what comes before it and behind it. -/
theorem pick (h : Segment m p (as ++ a :: bs) xs r) :
    ∃ ys x zs q, xs = ys ++ x :: zs ∧ Segment m p as ys (some a) ∧ m.read a = some ⟨x, q⟩ ∧
      Segment m q bs zs r := by
  obtain ⟨q, hfront, hback⟩ := h.split
  obtain rfl := hback.pointer_eq
  cases hcut : xs.drop as.length with
  | nil =>
    rw [hcut] at hback
    exact absurd hback.length_eq (by simp)
  | cons x zs =>
    rw [hcut] at hback
    cases hback with
    | cons hread hrest =>
      exact ⟨_, x, zs, _, by rw [← hcut, List.take_append_drop], hfront, hread, hrest⟩

/-- The last cell of a segment is overwritten, and may point elsewhere. -/
theorem link {c : Cell α} (h : Segment m p as xs (some a)) (ha : a ∉ as)
    (hread : m.read a = some c) (c' : Cell α) :
    Segment (m.put a (some c')) p (as ++ [a]) (xs ++ [c'.data]) c'.next := by
  have hfront : Segment (m.put a (some c')) p as xs (some a) := by
    apply h.frame
    intro b hb
    rw [Memory.read_put hread, if_neg fun hba : b = a => ha (hba ▸ hb)]
  apply hfront.append
  apply cons _ (.nil _)
  rw [Memory.read_put hread, if_pos rfl]

/-- A cell within a segment is given other data. -/
theorem overwrite {zs : List α} (hfront : Segment m p as xs (some a))
    (hread : m.read a = some ⟨x, q⟩) (hback : Segment m q bs zs r)
    (hnodup : (as ++ a :: bs).Nodup) (y : α) :
    Segment (m.put a (some ⟨y, q⟩)) p (as ++ a :: bs) (xs ++ y :: zs) r ∧
      Segment (m.put a (some ⟨y, q⟩)) q bs zs r := by
  have ha := notMem_front hnodup
  have ha' := notMem_back hnodup
  have hback' : Segment (m.put a (some ⟨y, q⟩)) q bs zs r := by
    apply hback.frame
    intro b hb
    rw [Memory.read_put hread, if_neg fun hba : b = a => ha' (hba ▸ hb)]
  exact ⟨by simpa using (hfront.link ha hread ⟨y, q⟩).append hback', hback'⟩

/-- Freeing a chain gives up all of its cells. -/
theorem freeChain {fuel : Nat} (h : Segment m p as xs none) (hfuel : as.length ≤ fuel) :
    ∃ m', m.freeChain fuel p = some m' ∧ Replaces m as m' [] := by
  induction fuel generalizing p as xs with
  | zero =>
    cases h with
    | nil => exact ⟨m, rfl, .refl m []⟩
    | cons => simp at hfuel
  | succ fuel ih =>
    cases h with
    | nil => exact ⟨m, rfl, .refl m []⟩
    | @cons a x p _ as xs hread hrest =>
      have hnodup := nodup (.cons hread hrest)
      obtain ⟨m', hfree, hreplaces⟩ := ih hrest (Nat.le_of_succ_le_succ hfuel)
      have hread' : m'.read a = some ⟨x, p⟩ := by
        rw [hreplaces.frame a (List.nodup_cons.1 hnodup).1 List.not_mem_nil, hread]
      refine ⟨m'.put a none, by simp [Memory.freeChain, hread, hfree, Memory.free_eq hread'], ?_⟩
      have hkept : Replaces m (a :: as) m' [a] :=
        hreplaces.widen [a] (by simp [or_comm]) (by simp)
      exact hkept.trans (.free hread' (by simp))

end Segment

end Logic
