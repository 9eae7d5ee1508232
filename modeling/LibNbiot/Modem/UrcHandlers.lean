/-
# The handlers of the filters

The handler of a filter is a pointer of the FP library, which holds a function or a
member function of an object, never both: the two share their first word, and only
the object tells them apart. Filters are added through an overload for each kind.
Whatever calls there were, the filters are a map from names to the handlers that
were added last.
-/

import LibNbiot.Modem.UrcFilter

namespace LibNbiot

open Logic

/-! ## Function pointers -/

/-- What is attached as a handler. -/
inductive Callback where
  | function (address : Nat)
  | method (object member adjustment : Nat)
  deriving DecidableEq, Repr

/-- `FP<void, const char*>`: an object, and the union of `c_callback` and
`method_callback`, of which a member function takes a second word. -/
structure FP where
  objCallback : Nat := 0
  callback : Nat := 0
  adjustment : Nat := 0
  deriving DecidableEq, Repr

namespace FP

def attached (fp : FP) : Bool := fp.objCallback ≠ 0 || fp.callback ≠ 0

/-- `attach`: a function leaves the object as it is. -/
def attach (fp : FP) : Callback → FP
  | .function address => { fp with callback := address }
  | .method object member adjustment => ⟨object, member, adjustment⟩

def detach (fp : FP) : FP := { fp with objCallback := 0, callback := 0 }

/-- `operator =`: a function leaves the object as it is here as well. -/
def assign (fp other : FP) : FP :=
  if other.attached then
    if other.objCallback ≠ 0 then
      { objCallback := other.objCallback
        callback := other.callback
        adjustment := other.adjustment }
    else { fp with callback := other.callback }
  else { fp with objCallback := 0, callback := 0 }

/-- What `operator ()` calls. -/
def reaches (fp : FP) : Option Callback :=
  if fp.callback = 0 then none
  else if fp.objCallback ≠ 0 then some (.method fp.objCallback fp.callback fp.adjustment)
  else some (.function fp.callback)

theorem reaches_assign_new (other : FP) : (({} : FP).assign other).reaches = other.reaches := by
  unfold assign
  by_cases hobj : other.objCallback = 0
  · by_cases hcallback : other.callback = 0
    · simp [attached, reaches, hobj, hcallback]
    · simp [attached, reaches, hobj, hcallback]
  · simp [attached, reaches, hobj]

/-- A pointer that was detached if it was attached forgets what it held. -/
theorem reaches_attach_of_detached (fp : FP) (callback : Callback) :
    ((if fp.attached then fp.detach else fp).attach callback).reaches =
      (({} : FP).attach callback).reaches := by
  cases callback with
  | method object member adjustment => rfl
  | function address =>
    have hobj : (if fp.attached then fp.detach else fp).objCallback = 0 := by
      split
      · rfl
      · rename_i hfree
        simp only [attached, ne_eq, Bool.or_eq_true, decide_eq_true_eq, not_or, not_not] at hfree
        exact hfree.1
    simp [attach, reaches, hobj]

end FP

/-! ## The overloads -/

/-- `setHandler`, for both kinds of handler. -/
def UrcFilter.setHandler (f : UrcFilter FP) (callback : Callback) : UrcFilter FP :=
  { f with handler := (if f.handler.attached then f.handler.detach else f.handler).attach callback }

namespace UrcFilterList

/-- `append`: the item is assigned to a new element. -/
def append (fs : UrcFilterList FP) (item : UrcFilter FP) : UrcFilterList FP :=
  fs ++ [⟨item.urc, ({} : FP).assign item.handler⟩]

/-- The common form of the overloads: a new filter, or a new handler for the old one. -/
def addWith (fs : UrcFilterList FP) (urc : Bytes) (filter : UrcFilter FP) (callback : Callback) :
    Bool × UrcFilterList FP :=
  match indexOf fs urc with
  | none => (true, fs.append filter)
  | some index => (false, fs.modify index (·.setHandler callback))

/-- `addUrcFilter(const char*, void (*)(const char*))`. -/
def addUrcFunction (fs : UrcFilterList FP) (urc : Bytes) (address : Nat) :
    Bool × UrcFilterList FP :=
  fs.addWith urc ⟨urc, ({} : FP).attach (.function address)⟩ (.function address)

/-- `addUrcFilter(const char*, UHC*, void (UHC::*)(const char*))`. -/
def addUrcMember (fs : UrcFilterList FP) (urc : Bytes) (object member adjustment : Nat) :
    Bool × UrcFilterList FP :=
  fs.addWith urc ((⟨urc, {}⟩ : UrcFilter FP).setHandler (.method object member adjustment))
    (.method object member adjustment)

/-- `clearFilter()`. -/
def clearFilter (_ : UrcFilterList FP) : UrcFilterList FP := []

/-! ## Handlers by what they reach -/

/-- The same filters with other handlers. -/
def mapHandler {η θ : Type} (reach : η → θ) (fs : UrcFilterList η) : UrcFilterList θ :=
  fs.map fun f => ⟨f.urc, reach f.handler⟩

section MapHandler

variable {η θ : Type} {reach : η → θ} {fs : UrcFilterList η}

theorem map_key_mapHandler : (mapHandler reach fs).map UrcFilter.key = fs.map UrcFilter.key :=
  List.map_map

theorem indexOf_mapHandler (urc : Bytes) : indexOf (mapHandler reach fs) urc = indexOf fs urc := by
  rw [indexOf, mapHandler, List.findIdx?_map]
  rfl

theorem registered_mapHandler (name : Bytes) :
    registered (mapHandler reach fs) name = (registered fs name).map reach := by
  rw [registered, mapHandler, List.find?_map, Option.map_map, registered, Option.map_map]
  rfl

theorem mapHandler_modify {i : Nat} {f : UrcFilter η → UrcFilter η}
    {f' : UrcFilter θ → UrcFilter θ}
    (h : ∀ g : UrcFilter η, (⟨(f g).urc, reach (f g).handler⟩ : UrcFilter θ) =
      f' ⟨g.urc, reach g.handler⟩) :
    mapHandler reach (fs.modify i f) = (mapHandler reach fs).modify i f' := by
  refine List.ext_getElem? fun j => ?_
  simp only [mapHandler, List.getElem?_map, List.getElem?_modify]
  cases fs[j]? with
  | none => rfl
  | some g =>
    by_cases hij : i = j
    · simpa [hij] using h g
    · simp [hij]

end MapHandler

/-- Both overloads register the callback that the filter is built with. -/
theorem addWith_refines (fs : UrcFilterList FP) {urc : Bytes} {filter : UrcFilter FP}
    {callback : Callback} (hurc : filter.urc = urc)
    (hreach : filter.handler.reaches = (({} : FP).attach callback).reaches) :
    (fs.addWith urc filter callback).1 =
        (addUrcFilter (mapHandler FP.reaches fs) urc (({} : FP).attach callback).reaches).1 ∧
      mapHandler FP.reaches (fs.addWith urc filter callback).2 =
        (addUrcFilter (mapHandler FP.reaches fs) urc (({} : FP).attach callback).reaches).2 := by
  rw [addWith, addUrcFilter, indexOf_mapHandler]
  cases indexOf fs urc with
  | none =>
    refine ⟨rfl, ?_⟩
    simp only [mapHandler, append, List.map_append, List.map_singleton, FP.reaches_assign_new,
      hreach, hurc]
  | some index =>
    refine ⟨rfl, mapHandler_modify fun g => ?_⟩
    rw [UrcFilter.setHandler, FP.reaches_attach_of_detached]

theorem addWith_fst (fs : UrcFilterList FP) (urc : Bytes) (filter : UrcFilter FP)
    (callback : Callback) :
    (fs.addWith urc filter callback).1 = true ↔ ∀ f ∈ fs, f.key ≠ cString urc := by
  rw [← indexOf_eq_none, addWith]
  split <;> simp [*]

theorem reaches_setHandler (f : UrcFilter FP) (callback : Callback) :
    (f.setHandler callback).handler.reaches = (({} : FP).attach callback).reaches :=
  FP.reaches_attach_of_detached f.handler callback

/-! ## Sequences of calls -/

/-- The calls that change the filters. -/
inductive Call where
  | addUrcFunction (urc : Bytes) (address : Nat)
  | addUrcMember (urc : Bytes) (object member adjustment : Nat)
  | removeUrcFilter (urc : Bytes)
  | clearFilter
  deriving DecidableEq, Repr

def exec (fs : UrcFilterList FP) : Call → UrcFilterList FP
  | .addUrcFunction urc address => (fs.addUrcFunction urc address).2
  | .addUrcMember urc object member adjustment => (fs.addUrcMember urc object member adjustment).2
  | .removeUrcFilter urc => (fs.removeUrcFilter urc).2
  | .clearFilter => fs.clearFilter

/-- The filters after any calls. -/
def after (calls : List Call) : UrcFilterList FP := calls.foldl exec []

/-- What a call makes of the callbacks of the names. -/
def Call.note (last : Bytes → Option Callback) : Call → Bytes → Option Callback
  | .addUrcFunction urc address, name =>
      if cString name = cString urc then some (.function address) else last name
  | .addUrcMember urc object member adjustment, name =>
      if cString name = cString urc then some (.method object member adjustment) else last name
  | .removeUrcFilter urc, name => if cString name = cString urc then none else last name
  | .clearFilter, _ => none

/-- The callback that was added last for a name, unless it was removed since. -/
def lastAdded (calls : List Call) : Bytes → Option Callback :=
  calls.foldl Call.note fun _ => none

/-- The filters have different names, and each reaches the callback of its name. -/
structure Latest (fs : UrcFilterList FP) (last : Bytes → Option Callback) : Prop where
  keyed : Keyed UrcFilter.key fs
  handler : ∀ name, (registered fs name).map FP.reaches =
    (last name).map fun callback => (({} : FP).attach callback).reaches

namespace Latest

variable {fs : UrcFilterList FP} {last : Bytes → Option Callback}

theorem addWith (h : Latest fs last) {urc : Bytes} {filter : UrcFilter FP} {callback : Callback}
    (hurc : filter.urc = urc)
    (hreach : filter.handler.reaches = (({} : FP).attach callback).reaches) :
    Latest (fs.addWith urc filter callback).2 fun name =>
      if cString name = cString urc then some callback else last name := by
  have hkeyed : Keyed UrcFilter.key (mapHandler FP.reaches fs) := by
    rw [Keyed, map_key_mapHandler]
    exact h.keyed
  obtain ⟨-, hadded⟩ := addWith_refines fs hurc hreach
  constructor
  · have hafter := addUrcFilter_keyed hkeyed urc (({} : FP).attach callback).reaches
    rw [← hadded, Keyed, map_key_mapHandler] at hafter
    exact hafter
  · intro name
    rw [← registered_mapHandler, hadded, registered_addUrcFilter hkeyed, registered_mapHandler,
      h.handler]
    split <;> rfl

theorem exec (h : Latest fs last) (call : Call) : Latest (fs.exec call) (call.note last) := by
  cases call with
  | addUrcFunction urc address => exact h.addWith rfl rfl
  | addUrcMember urc object member adjustment => exact h.addWith rfl (reaches_setHandler _ _)
  | removeUrcFilter urc =>
    refine ⟨h.keyed.sublist removeUrcFilter_sublist, fun name => ?_⟩
    change (registered (fs.removeUrcFilter urc).2 name).map FP.reaches = Option.map _ (ite _ _ _)
    rw [registered_removeUrcFilter h.keyed]
    split
    · rfl
    · exact h.handler name
  | clearFilter => exact ⟨Keyed.nil, fun name => rfl⟩

theorem foldl (h : Latest fs last) (calls : List Call) :
    Latest (calls.foldl UrcFilterList.exec fs) (calls.foldl Call.note last) := by
  induction calls generalizing fs last with
  | nil => exact h
  | cons call calls ih => exact ih (h.exec call)

end Latest

theorem latest_after (calls : List Call) : Latest (after calls) (lastAdded calls) :=
  Latest.foldl ⟨Keyed.nil, fun _ => rfl⟩ calls

/-- The filters after the calls are a map. -/
structure IsMap (calls : List Call) : Prop where
  /-- No two filters have one name. -/
  keyed : Keyed UrcFilter.key (after calls)
  /-- What a filter calls is what was added last for its name. -/
  handler : ∀ name, (registered (after calls) name).map FP.reaches =
    (lastAdded calls name).map fun callback => (({} : FP).attach callback).reaches
  addedFunction : ∀ urc address, ((after calls).addUrcFunction urc address).1 = true ↔
    ∀ f ∈ after calls, f.key ≠ cString urc
  addedMember : ∀ urc object member adjustment,
    ((after calls).addUrcMember urc object member adjustment).1 = true ↔
      ∀ f ∈ after calls, f.key ≠ cString urc
  removed : ∀ urc, ((after calls).removeUrcFilter urc).1 = true ↔
    ∃ f ∈ after calls, f.key = cString urc
  /-- Only the filter of the name goes. -/
  removes : ∀ urc, ((after calls).removeUrcFilter urc).2 =
    (after calls).filter fun f => f.key ≠ cString urc

/-- **The filter list is a map**, whatever sequence of calls it sees. -/
theorem isMap_after (calls : List Call) : IsMap calls where
  keyed := (latest_after calls).keyed
  handler := (latest_after calls).handler
  addedFunction _ _ := addWith_fst ..
  addedMember _ _ _ _ := addWith_fst ..
  removed urc := removeUrcFilter_removed _ urc
  removes urc := removeUrcFilter_eq_filter (latest_after calls).keyed urc

end UrcFilterList

end LibNbiot
