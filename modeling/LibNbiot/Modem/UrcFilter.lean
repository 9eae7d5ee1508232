/-
# The filters for unsolicited lines

`Serial` keeps a list of filters, each with the beginning of the lines it is for
and the handler that gets them. A filter that is added for a name which has one
already replaces its handler.
-/

import LibNbiot.Topic
import LibNbiot.Logic.KeyedList

namespace LibNbiot

open Logic

/-- `UrcFilter`. -/
structure UrcFilter (η : Type) where
  urc : Bytes
  handler : η
  deriving DecidableEq, Repr

/-- What the list compares names by. -/
def UrcFilter.key {η : Type} (f : UrcFilter η) : Bytes := cString f.urc

/-- `UrcFilterList`. -/
abbrev UrcFilterList (η : Type) := List (UrcFilter η)

namespace UrcFilterList

variable {η : Type}

/-- `indexOf(const char* urcName)`. -/
def indexOf (fs : UrcFilterList η) (urc : Bytes) : Option Nat :=
  fs.findIdx? fun f => f.key = cString urc

/-- `indexOf(const string& urcName)` and the handler it leads to: the first filter
that a line begins with. -/
def handlerOf (fs : UrcFilterList η) (line : Bytes) : Option η :=
  (fs.find? fun f => f.key.isPrefixOf (cString line)).map (·.handler)

def addUrcFilter (fs : UrcFilterList η) (urc : Bytes) (handler : η) : Bool × UrcFilterList η :=
  match indexOf fs urc with
  | none => (true, fs ++ [⟨urc, handler⟩])
  | some index => (false, fs.modify index ({ · with handler := handler }))

def removeUrcFilter (fs : UrcFilterList η) (urc : Bytes) : Bool × UrcFilterList η :=
  match indexOf fs urc with
  | some index => (true, fs.eraseIdx index)
  | none => (false, fs)

/-! ## The list as a map -/

variable {fs : UrcFilterList η} {urc : Bytes}

theorem indexOf_eq_some (h : Keyed UrcFilter.key fs) {i : Nat} :
    indexOf fs urc = some i ↔ ∃ f, fs[i]? = some f ∧ f.key = cString urc :=
  h.findIdx?_eq_some_iff _ fun _ => decide_eq_true_iff

theorem indexOf_eq_none : indexOf fs urc = none ↔ ∀ f ∈ fs, f.key ≠ cString urc := by
  simp [indexOf, List.findIdx?_eq_none_iff]

theorem addUrcFilter_keyed (h : Keyed UrcFilter.key fs) (urc : Bytes) (handler : η) :
    Keyed UrcFilter.key (addUrcFilter fs urc handler).2 := by
  unfold addUrcFilter
  split
  · rename_i hnone
    exact h.concat (indexOf_eq_none.1 hnone)
  · exact h.of_keys (map_key_modify fun _ _ => rfl)

theorem removeUrcFilter_sublist : (removeUrcFilter fs urc).2.Sublist fs := by
  unfold removeUrcFilter
  split
  · exact List.eraseIdx_sublist _ _
  · exact List.Sublist.refl fs

/-- The handler that is registered for a name. -/
def registered (fs : UrcFilterList η) (urc : Bytes) : Option η :=
  (fs.find? fun f => f.key = cString urc).map (·.handler)

theorem registered_eq_some (h : Keyed UrcFilter.key fs) {handler : η} :
    registered fs urc = some handler ↔ ∃ f ∈ fs, f.key = cString urc ∧ f.handler = handler := by
  simp only [registered, Option.map_eq_some_iff,
    h.find?_eq_some_iff _ fun _ => decide_eq_true_iff, and_assoc]

theorem removeUrcFilter_removed (fs : UrcFilterList η) (urc : Bytes) :
    (removeUrcFilter fs urc).1 = true ↔ ∃ f ∈ fs, f.key = cString urc := by
  have hnone : indexOf fs urc = none ↔ ∀ f ∈ fs, f.key ≠ cString urc := indexOf_eq_none
  rw [removeUrcFilter]
  split
  · rename_i hsome
    rw [hsome] at hnone
    simpa using hnone
  · rename_i hno
    rw [hno] at hnone
    simpa using hnone

theorem removeUrcFilter_eq_filter (h : Keyed UrcFilter.key fs) (urc : Bytes) :
    (removeUrcFilter fs urc).2 = fs.filter fun f => f.key ≠ cString urc := by
  unfold removeUrcFilter
  split
  · rename_i index hindex
    obtain ⟨f, hf, hkey⟩ := (indexOf_eq_some h).1 hindex
    rw [h.eraseIdx_eq_filter hf, hkey]
  · rename_i hnone
    have hall : ∀ f ∈ fs, decide (f.key ≠ cString urc) = true := fun f hf =>
      decide_eq_true (indexOf_eq_none.1 hnone f hf)
    exact (List.filter_eq_self.2 hall).symm

/-- Adding a filter registers its handler for its name and for no other. -/
theorem registered_addUrcFilter (h : Keyed UrcFilter.key fs) (urc : Bytes) (handler : η)
    (name : Bytes) :
    registered (addUrcFilter fs urc handler).2 name =
      if cString name = cString urc then some handler else registered fs name := by
  have hkeyed := addUrcFilter_keyed h urc handler
  refine Option.ext fun a => ?_
  rw [registered_eq_some hkeyed]
  unfold addUrcFilter
  split
  · rename_i hnone
    have hfresh := indexOf_eq_none.1 hnone
    split
    · rename_i hname
      constructor
      · rintro ⟨g, hg, hkey, rfl⟩
        rcases List.mem_append.1 hg with hold | hnew
        · exact absurd (hkey.trans hname) (hfresh g hold)
        · rw [List.mem_singleton.1 hnew]
      · intro ha
        refine ⟨⟨urc, handler⟩, List.mem_append_right _ List.mem_cons_self, hname.symm, ?_⟩
        exact Option.some.inj ha
    · rename_i hname
      rw [registered_eq_some h]
      constructor
      · rintro ⟨g, hg, hkey, ha⟩
        rcases List.mem_append.1 hg with hold | hnew
        · exact ⟨g, hold, hkey, ha⟩
        · rw [List.mem_singleton.1 hnew] at hkey
          exact absurd hkey.symm hname
      · rintro ⟨g, hg, hkey, ha⟩
        exact ⟨g, List.mem_append_left _ hg, hkey, ha⟩
  · rename_i index hindex
    obtain ⟨f, hf, hkey⟩ := (indexOf_eq_some h).1 hindex
    simp only [h.mem_modify_iff hf]
    split
    · rename_i hname
      constructor
      · rintro ⟨g, rfl | ⟨-, hother⟩, hg, rfl⟩
        · rfl
        · exact absurd (hg.trans (hname.trans hkey.symm)) hother
      · intro ha
        exact ⟨{ f with handler := handler }, .inl rfl, hkey.trans hname.symm, Option.some.inj ha⟩
    · rename_i hname
      rw [registered_eq_some h]
      constructor
      · rintro ⟨g, rfl | ⟨hg, -⟩, hgkey, ha⟩
        · exact absurd (hgkey.symm.trans hkey) hname
        · exact ⟨g, hg, hgkey, ha⟩
      · rintro ⟨g, hg, hgkey, ha⟩
        exact ⟨g, .inr ⟨hg, fun hsame => hname (hgkey.symm.trans (hsame.trans hkey))⟩, hgkey, ha⟩

/-- Removing a filter leaves nothing registered for its name, and what there was for
the others. -/
theorem registered_removeUrcFilter (h : Keyed UrcFilter.key fs) (urc name : Bytes) :
    registered (removeUrcFilter fs urc).2 name =
      if cString name = cString urc then none else registered fs name := by
  refine Option.ext fun a => ?_
  rw [registered_eq_some (h.sublist removeUrcFilter_sublist), removeUrcFilter_eq_filter h]
  simp only [List.mem_filter, decide_eq_true_eq]
  split
  · rename_i hname
    constructor
    · rintro ⟨g, ⟨-, hother⟩, hkey, -⟩
      exact absurd (hkey.trans hname) hother
    · intro ha
      cases ha
  · rename_i hname
    rw [registered_eq_some h]
    constructor
    · rintro ⟨g, ⟨hg, -⟩, hkey, ha⟩
      exact ⟨g, hg, hkey, ha⟩
    · rintro ⟨g, hg, hkey, ha⟩
      exact ⟨g, ⟨hg, fun hsame => hname (hkey.symm.trans hsame)⟩, hkey, ha⟩

end UrcFilterList

end LibNbiot
