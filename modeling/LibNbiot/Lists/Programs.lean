/-
# Programs with lists

What a program does with its lists it would do with values: it gets the same answers, it
fails at the same operation, which is an item appended behind a last item that the list
does not know, or a variable that is not in use, and what it leaves in memory are the
elements of its lists, each in one list, and nothing else.
-/

import LibNbiot.Lists.Values

namespace LibNbiot

open Logic

variable {α : Type}

/-- The variables of a program, with values. -/
abbrev ListValues (α : Type) := Nat → Option (ListValue α)

namespace ListValues

def none : ListValues α := fun _ => .none

def set (vs : ListValues α) (self : Nat) (v : ListValue α) : ListValues α :=
  Function.update vs self (some v)

/-- What is assigned to itself is gone. -/
def assign (vs : ListValues α) (self other : Nat) : Option (ListValues α) := do
  let _ ← vs self
  let w ← vs other
  return vs.set self { w with items := if self = other then [] else w.items, lastKnown := true }

def exec (vs : ListValues α) : ListOp α → Option (ListAnswer α × ListValues α)
  | .construct self invalid =>
      if (vs self).isSome then .none else some (.done, vs.set self { invalidItem := invalid })
  | .copy self other =>
      if (vs self).isSome then .none else do return (.done, vs.set self (← vs other).copy)
  | .assign self other => do return (.done, ← vs.assign self other)
  | .append self item => do return (.done, vs.set self (← (← vs self).append item))
  | .push self item => do return (.done, vs.set self ((← vs self).push item))
  | .pop self => do return (.done, vs.set self (← vs self).pop)
  | .takeFront self => do
      let v ← vs self
      return (.item v.takeFront.1, vs.set self v.takeFront.2)
  | .remove self index => do return (.done, vs.set self ((← vs self).remove index))
  | .modifyAt self index f => do return (.done, vs.set self ((← vs self).modifyAt index f))
  | .clear self => do return (.done, vs.set self (← vs self).clear)
  | .destroy self => do
      let _ ← vs self
      return (.done, Function.update vs self .none)
  | .itemAt self index => do return (.item ((← vs self).itemAt index), vs)
  | .find self isItem => do return (.item ((← vs self).find isItem), vs)
  | .indexOf self isItem => do return (.index ((← vs self).indexOf isItem), vs)
  | .count self => do return (.index (← vs self).items.length, vs)
  | .items self => do return (.items (← vs self).items, vs)

def run (vs : ListValues α) : List (ListOp α) → Option (List (ListAnswer α) × ListValues α)
  | [] => some ([], vs)
  | op :: ops => do
      let (a, vs) ← vs.exec op
      let (as, vs) ← vs.run ops
      return (a :: as, vs)

end ListValues

/-- A variable in memory and as a value: both are in use, or neither. -/
inductive IsVariable (m : Memory α) : Option (UtilList α) → List Nat → Option (ListValue α) → Prop
  | unused : IsVariable m none [] none
  | used {l : UtilList α} {as : List Nat} {v : ListValue α} (hlist : IsList m l as v) :
      IsVariable m (some l) as (some v)

namespace IsVariable

variable {m m' : Memory α} {l : Option (UtilList α)} {as : List Nat} {v : Option (ListValue α)}

theorem allocated (h : IsVariable m l as v) : ∀ a ∈ as, m.read a ≠ none := by
  cases h with
  | unused => simp
  | used hlist => exact hlist.chain.allocated

theorem frame (h : IsVariable m l as v) (hm : ∀ a ∈ as, m'.read a = m.read a) :
    IsVariable m' l as v := by
  cases h with
  | unused => exact .unused
  | used hlist => exact .used (hlist.frame hm)

end IsVariable

/-- The variables own all that is allocated, and each owns what is its own. -/
structure Owned (s : ListStore α) (vs : ListValues α) (owned : Nat → List Nat) : Prop where
  each : ∀ x, IsVariable s.memory (s.lists x) (owned x) (vs x)
  disjoint : ∀ x y a, a ∈ owned x → a ∈ owned y → x = y
  allocated : ∀ a, s.memory.read a ≠ none → ∃ x, a ∈ owned x

/-- The store of a program holds values. -/
def ListStore.Holds (s : ListStore α) (vs : ListValues α) : Prop := ∃ owned, Owned s vs owned

/-- Both have failed, or both have given the same answers and what the one leaves holds the
values of the other. -/
inductive SameResult {β : Type} : Option (β × ListStore α) → Option (β × ListValues α) → Prop
  | failed : SameResult none none
  | done {b : β} {s : ListStore α} {vs : ListValues α} (holds : s.Holds vs) :
      SameResult (some (b, s)) (some (b, vs))

theorem SameResult.bind {β γ : Type} {r : Option (β × ListStore α)} {v : Option (β × ListValues α)}
    {f : β × ListStore α → Option (γ × ListStore α)}
    {g : β × ListValues α → Option (γ × ListValues α)}
    (h : SameResult r v) (hnext : ∀ b s vs, s.Holds vs → SameResult (f (b, s)) (g (b, vs))) :
    SameResult (r >>= f) (v >>= g) := by
  cases h with
  | failed => exact .failed
  | done holds => exact hnext _ _ _ holds

namespace Owned

variable {s : ListStore α} {vs : ListValues α} {owned : Nat → List Nat} {x y a : Nat}

theorem start : Owned ({} : ListStore α) .none fun _ => [] where
  each _ := .unused
  disjoint _ _ _ h := absurd h List.not_mem_nil
  allocated _ h := absurd rfl h

/-- What one variable replaces does not concern the others. -/
theorem update (h : Owned s vs owned) {m' : Memory α} {l' : Option (UtilList α)} {as' : List Nat}
    {v' : Option (ListValue α)} (hvariable : IsVariable m' l' as' v')
    (hreplaces : Replaces s.memory (owned x) m' as') :
    Owned ⟨Function.update s.lists x l', m'⟩ (Function.update vs x v')
      (Function.update owned x as') := by
  have hothers (y : Nat) (hy : y ≠ x) (a : Nat) (ha : a ∈ owned y) :
      m'.read a = s.memory.read a ∧ a ∉ as' := by
    have hmine : a ∉ owned x := fun hmem => hy (h.disjoint y x a ha hmem)
    have hnew : a ∉ as' := fun hmem => (h.each y).allocated a ha (hreplaces.fresh a hmem hmine)
    exact ⟨hreplaces.frame a hmine hnew, hnew⟩
  constructor
  · intro y
    by_cases hy : y = x
    · subst hy
      simpa using hvariable
    · simp only [Function.update_of_ne hy]
      exact (h.each y).frame fun a ha => (hothers y hy a ha).1
  · intro y z a hy hz
    by_cases hyx : y = x <;> by_cases hzx : z = x
    · rw [hyx, hzx]
    · subst hyx
      simp only [Function.update_self, Function.update_of_ne hzx] at hy hz
      exact absurd hy (hothers z hzx a hz).2
    · subst hzx
      simp only [Function.update_self, Function.update_of_ne hyx] at hy hz
      exact absurd hz (hothers y hyx a hy).2
    · simp only [Function.update_of_ne hyx, Function.update_of_ne hzx] at hy hz
      exact h.disjoint y z a hy hz
  · intro a ha
    by_cases hnew : a ∈ as'
    · exact ⟨x, by simpa using hnew⟩
    · by_cases hold : a ∈ owned x
      · exact absurd (hreplaces.freed a hold hnew) ha
      · obtain ⟨y, hy⟩ := h.allocated a (by rwa [← hreplaces.frame a hold hnew])
        have hyx : y ≠ x := fun hyx => hold (hyx ▸ hy)
        exact ⟨y, by simpa [Function.update_of_ne hyx] using hy⟩

/-- A variable is in use on both sides or on neither. -/
theorem lookup (h : Owned s vs owned) (x : Nat) :
    (s.lists x = none ∧ vs x = none ∧ owned x = []) ∨
      ∃ l v, s.lists x = some l ∧ vs x = some v ∧ IsList s.memory l (owned x) v := by
  have hx := h.each x
  generalize s.lists x = l, owned x = as, vs x = v at hx
  cases hx with
  | unused => exact .inl ⟨rfl, rfl, rfl⟩
  | used hlist => exact .inr ⟨_, _, rfl, rfl, hlist⟩

theorem used (h : Owned s vs owned) {v : ListValue α} (hv : vs x = some v) :
    ∃ l, s.lists x = some l ∧ IsList s.memory l (owned x) v := by
  obtain ⟨-, hnone, -⟩ | ⟨l, w, hl, hw, hlist⟩ := h.lookup x
  · exact absurd (hnone.symm.trans hv) (by simp)
  · cases hw.symm.trans hv
    exact ⟨l, hl, hlist⟩

/-- What an operation does to one list. -/
theorem yields {β : Type} (h : Owned s vs owned) {r : Option (UtilList α × Memory α)}
    {v : Option (ListValue α)} (hyields : Yields s.memory (owned x) r v) (b : β) :
    SameResult (r >>= fun r => some (b, s.set x r)) (v >>= fun v => some (b, vs.set x v)) := by
  cases hyields with
  | failed => exact .failed
  | done _ hlist hreplaces => exact .done ⟨_, h.update (.used hlist) hreplaces⟩

/-- An operation on a variable, where it is in use. -/
theorem onVariable {β : Type} (h : Owned s vs owned) (x : Nat)
    {f : UtilList α → Option (β × ListStore α)} {g : ListValue α → Option (β × ListValues α)}
    (hused : ∀ l v, s.lists x = some l → vs x = some v → IsList s.memory l (owned x) v →
      SameResult (f l) (g v)) :
    SameResult (s.lists x >>= f) (vs x >>= g) := by
  obtain ⟨hl, hv, -⟩ | ⟨l, v, hl, hv, hlist⟩ := h.lookup x
  · rw [hl, hv]
    exact .failed
  · rw [hl, hv]
    exact hused l v hl hv hlist

/-- An operation that only looks at a list. -/
theorem looks {β γ : Type} (h : Owned s vs owned) (x : Nat) {f : UtilList α → Option γ}
    {g : ListValue α → γ} {k : γ → β}
    (hused : ∀ l v, IsList s.memory l (owned x) v → f l = some (g v)) :
    SameResult (s.lists x >>= fun l => f l >>= fun c => some (k c, s))
      (vs x >>= fun v => some (k (g v), vs)) :=
  h.onVariable x fun l v _ _ hlist => by
    rw [hused l v hlist]
    exact .done ⟨owned, h⟩

theorem set (h : Owned s vs owned) {l' : UtilList α} {m' : Memory α} {as' : List Nat}
    {v' : ListValue α} (hlist : IsList m' l' as' v')
    (hreplaces : Replaces s.memory (owned x) m' as') :
    Owned (s.set x (l', m')) (vs.set x v') (Function.update owned x as') :=
  h.update (.used hlist) hreplaces

/-- A variable that has changed once changes again. -/
theorem set_again {l l' : UtilList α} {m m' : Memory α} {as as' : List Nat} {v v' : ListValue α}
    (h : Owned (s.set x (l, m)) (vs.set x v) (Function.update owned x as))
    (hlist : IsList m' l' as' v') (hreplaces : Replaces m as m' as') :
    Owned (s.set x (l', m')) (vs.set x v') (Function.update owned x as') := by
  have hset := h.set (x := x) hlist (by rw [Function.update_self]; exact hreplaces)
  rw [ListStore.set, ListStore.set, ListValues.set, ListValues.set] at hset
  simpa [ListStore.set, ListValues.set] using hset

theorem assign (h : Owned s vs owned) (x y : Nat) :
    SameResult (s.assign x y >>= fun s => some (ListAnswer.done (α := α), s))
      (vs.assign x y >>= fun vs => some (ListAnswer.done, vs)) := by
  obtain ⟨hl, hv, -⟩ | ⟨l, v, hl, hv, hlist⟩ := h.lookup x
  · rw [ListStore.assign, ListValues.assign, hl, hv]
    exact .failed
  obtain ⟨ho, hw, -⟩ | ⟨o, w, ho, hw, -⟩ := h.lookup y
  · rw [ListStore.assign, ListValues.assign, hl, hv, ho, hw]
    exact .failed
  have hself (v' : ListValue α) : (vs.set x v') y = some (if x = y then v' else w) := by
    by_cases hxy : x = y
    · simp [ListValues.set, hxy]
    · simp [ListValues.set, hxy, Ne.symm hxy, hw]
  obtain ⟨l₁, m₁, hclear, hlist₁, hreplaces₁⟩ := hlist.clear
  have hcleared : (if l.isEmpty then some (l, s.memory) else l.clear s.memory) = some (l₁, m₁) := by
    rw [← hclear, UtilList.clear]
    split <;> rfl
  have h₁ := h.set hlist₁ hreplaces₁
  -- the other list as it is now may be the one that was cleared
  obtain ⟨o₁, ho₁, hother₁⟩ := h₁.used (hself v.clear)
  obtain ⟨l₂, m₂, as₂, hcopied, hlist₂, hreplaces₂⟩ := (hlist₁.appendCopy hother₁).exists_list
  have h₂ := h₁.set_again hlist₂ hreplaces₂
  obtain ⟨o₂, ho₂, hother₂⟩ := h₂.used (hself _)
  have hconcrete : s.assign x y =
      some (s.set x ({ l₂ with invalidItem := o₂.invalidItem }, m₂)) := by
    simp only [ListStore.set] at ho₁ ho₂
    cases hempty : l.isEmpty with
    | true =>
      rw [hempty] at hcleared
      cases hcleared
      simp [ListStore.assign, ListStore.set, hl, ho, hempty, ho₁, hcopied, ho₂]
    | false => simp [ListStore.assign, ListStore.set, hl, ho, hempty, hclear, ho₁, hcopied, ho₂]
  have hvalue : vs.assign x y = some (vs.set x { v.clear with
      items := (if x = y then v.clear else w).items
      invalidItem := o₂.invalidItem
      lastKnown := true }) := by
    rw [ListValues.assign, hv, hw, hother₂.invalidItem]
    split
    · next hxy =>
      subst hxy
      cases hv.symm.trans hw
      rfl
    · rfl
  rw [hconcrete, hvalue]
  exact .done ⟨_, h₂.set_again ⟨hlist₂.chain, hlist₂.last, rfl, hlist₂.size⟩ (.refl m₂ as₂)⟩

theorem exec (h : Owned s vs owned) (op : ListOp α) : SameResult (s.exec op) (vs.exec op) := by
  cases op with
  | construct x invalid =>
    obtain ⟨hl, hv, howned⟩ | ⟨l, v, hl, hv, -⟩ := h.lookup x
    · rw [ListStore.exec, ListValues.exec, hl, hv]
      refine .done ⟨_, h.update (.used ⟨.nil none, rfl, rfl, rfl⟩) ?_⟩
      rw [howned]
      exact .refl s.memory []
    · rw [ListStore.exec, ListValues.exec, hl, hv]
      exact .failed
  | copy x y =>
    obtain ⟨hl, hv, howned⟩ | ⟨l, v, hl, hv, -⟩ := h.lookup x
    · rw [ListStore.exec, ListValues.exec, hl, hv]
      exact h.onVariable y fun o w _ _ hother => h.yields (howned ▸ hother.copy) _
    · rw [ListStore.exec, ListValues.exec, hl, hv]
      exact .failed
  | assign x y => exact h.assign x y
  | append x item => exact h.onVariable x fun l v _ _ hlist => h.yields (hlist.append item) _
  | push x item => exact h.onVariable x fun l v _ _ hlist => h.yields (hlist.push item) _
  | pop x => exact h.onVariable x fun l v _ _ hlist => h.yields hlist.pop _
  | takeFront x =>
    refine h.onVariable x fun l v _ _ hlist => ?_
    obtain ⟨l', m', htake, hyields⟩ := hlist.takeFront
    rw [htake]
    exact h.yields hyields _
  | remove x index => exact h.onVariable x fun l v _ _ hlist => h.yields (hlist.remove index) _
  | modifyAt x index f =>
    exact h.onVariable x fun l v _ _ hlist => h.yields (hlist.modifyAt index f) _
  | clear x =>
    refine h.onVariable x fun l v _ _ hlist => ?_
    obtain ⟨l', m', hclear, hlist', hreplaces⟩ := hlist.clear
    rw [hclear]
    exact .done ⟨_, h.set hlist' hreplaces⟩
  | destroy x =>
    obtain ⟨hl, hv, -⟩ | ⟨l, v, hl, hv, hlist⟩ := h.lookup x
    · rw [ListStore.exec, ListStore.destroy, ListValues.exec, hl, hv]
      exact .failed
    · obtain ⟨l', m', hclear, hlist', hreplaces⟩ := hlist.clear
      rw [ListStore.exec, ListStore.destroy, ListValues.exec, hl, hv]
      simp only [Option.bind_eq_bind, Option.bind_some, hclear]
      exact .done ⟨_, h.update .unused hreplaces⟩
  | itemAt x index => exact h.looks x fun l v hlist => hlist.itemAt index
  | find x isItem => exact h.looks x fun l v hlist => hlist.find isItem
  | indexOf x isItem => exact h.looks x fun l v hlist => hlist.indexOf isItem
  | count x =>
    refine h.onVariable x fun l v _ _ hlist => ?_
    rw [UtilList.count, hlist.size]
    exact .done ⟨owned, h⟩
  | items x => exact h.looks x fun l v hlist => hlist.items

end Owned

/-- **A program with lists in memory is a program with values**: it gets the same answers, or
fails where that one does, and its lists own what it has allocated, each element being in one
list and no element in none. -/
theorem run_values (ops : List (ListOp α)) :
    SameResult (ListStore.run {} ops) (ListValues.run .none ops) := by
  suffices h : ∀ (s : ListStore α) (vs : ListValues α), s.Holds vs →
      SameResult (s.run ops) (vs.run ops) from h {} .none ⟨_, Owned.start⟩
  induction ops with
  | nil => exact fun s vs h => .done h
  | cons op ops ih =>
    intro s vs ⟨owned, h⟩
    exact (h.exec op).bind fun a s vs h => (ih s vs h).bind fun as s vs h => .done h

/-- What is pushed into an empty list cannot be followed by another item. -/
example (x y : α) :
    (ListStore.run {} [.construct 0 x, .push 0 x, .append 0 y]).map Prod.fst = none := rfl

end LibNbiot
