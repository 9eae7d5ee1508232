/-
# Topics and the topic registry

A topic carries the name, the id the gateway gave it, the handler of the
application and the flags that say whether it is registered for publishing or
subscribed. The registry is a list of topics searched by name or by id.

Names are byte strings that may contain a zero byte when they come from the
gateway. Where the source works on the C string, only the part before the first
zero byte counts.
-/

import LibNbiot.Packet
import Mathlib.Data.List.Basic

namespace LibNbiot

/-- The part of a string that the C string functions see. -/
def cString (b : Bytes) : Bytes := b.takeWhile (· ≠ 0)

def slash : UInt8 := 47
def plus : UInt8 := 43
def hash : UInt8 := 35

/-- A function pointer of the application, by its identity. -/
abbrev MessageHandler := Nat

/-- `RegistrationFlag`. -/
inductive RegistrationFlag where
  | none
  | pub
  | sub
  | both
  deriving DecidableEq, Repr

/-- The two bits of `regFlag`. -/
structure RegFlag where
  pub : Bool := false
  sub : Bool := false
  deriving DecidableEq, Repr

/-- `NbiotTopic`. -/
structure NbiotTopic where
  type : TopicType := .normal
  id : Nat := 0
  shortName : UInt8 × UInt8 := (0, 0)
  topicName : Bytes := []
  returnCode : Nat := 0
  mh : Option MessageHandler := none
  regFlag : RegFlag := {}
  deriving DecidableEq, Repr

namespace NbiotTopic

/-- `NbiotTopic(const char* name)`. -/
def ofName (name : Bytes) : NbiotTopic := { topicName := cString name }

/-- `NbiotTopic(unsigned short topicId)`. -/
def ofId (topicId : Nat) : NbiotTopic := { type := .predefined, id := topicId }

/-- `operator =`: a message handler that is already set stays. -/
def assign (self other : NbiotTopic) : NbiotTopic :=
  { other with mh := if self.mh.isNone then other.mh else self.mh }

/-- `operator == (const char* name)`. -/
def hasName (t : NbiotTopic) (name : Bytes) : Bool := cString t.topicName = cString name

def valid (t : NbiotTopic) : Bool :=
  match t.type with
  | .short => t.shortName ≠ (0, 0)
  | .predefined => t.id ≠ 0
  | .normal => t.id ≠ 0 || !t.topicName.isEmpty

def setReg (t : NbiotTopic) : RegistrationFlag → NbiotTopic
  | .none => { t with regFlag := {} }
  | .pub => { t with regFlag := { t.regFlag with pub := true } }
  | .sub => { t with regFlag := { t.regFlag with sub := true } }
  | .both => { t with regFlag := ⟨true, true⟩ }

def unsetReg (t : NbiotTopic) : RegistrationFlag → NbiotTopic
  | .none => { t with regFlag := ⟨true, true⟩ }
  | .pub => { t with regFlag := { t.regFlag with pub := false } }
  | .sub => { t with regFlag := { t.regFlag with sub := false } }
  | .both => { t with regFlag := {} }

def isReg (t : NbiotTopic) : RegistrationFlag → Bool
  | .none => !t.regFlag.pub && !t.regFlag.sub
  | .pub => t.regFlag.pub
  | .sub => t.regFlag.sub
  | .both => t.regFlag.pub || t.regFlag.sub

def hasHandler (t : NbiotTopic) : Bool := t.mh.isSome

def isWildcardTopic (t : NbiotTopic) : Bool :=
  !t.topicName.isEmpty && ((cString t.topicName).contains plus || (cString t.topicName).contains hash)

/-- What is stored in a topic id: `TOPIC_NAME` stores the address of the name,
part of which shows through as the id, and `TOPIC_ID` only the id. -/
inductive TopicTypeNormal where
  | topicName (address : Nat)
  | topicId
  deriving DecidableEq, Repr

def toSNTopic (t : NbiotTopic) (topicid : TopicId) (ttn : TopicTypeNormal) : TopicId :=
  match t.type with
  | .short =>
      { topicid with type := .short, id := t.shortName.1.toNat + 256 * t.shortName.2.toNat }
  | .predefined => { topicid with type := .predefined, id := t.id }
  | .normal =>
      match ttn with
      | .topicName address => { type := .normal, id := address % 65536, name := t.topicName }
      | .topicId => { topicid with type := .normal, id := t.id }

/-- The loop of `isTopicMatched`, on what is left of the filter and the name. -/
def matchFilter : Bytes → Bytes → Bool
  | [], name => name.isEmpty
  | _ :: _, [] => false
  | f :: filter, c :: name =>
      if c = slash ∧ f ≠ slash then false
      else if f ≠ plus ∧ f ≠ hash ∧ f ≠ c then false
      else if f = plus then matchFilter filter (name.dropWhile (· ≠ slash))
      else if f = hash then matchFilter filter []
      else matchFilter filter name

def isTopicMatched (t topic : NbiotTopic) : Bool :=
  matchFilter (cString t.topicName) topic.topicName

end NbiotTopic

/-! ## The registry -/

/-- `NbiotTopicRegistry`. -/
structure NbiotTopicRegistry where
  registry : List NbiotTopic := []
  messageCount : Nat := 0
  deriving DecidableEq, Repr

namespace NbiotTopicRegistry

/-- `findTopic(const char* name)`. -/
def findTopic (r : NbiotTopicRegistry) (name : Bytes) : Option Nat :=
  if cString name = [] then none else r.registry.findIdx? (·.hasName name)

/-- `findTopic(unsigned short topicId)`. -/
def findTopicId (r : NbiotTopicRegistry) (topicId : Nat) : Option Nat :=
  r.registry.findIdx? (·.id = topicId)

def topicCount (r : NbiotTopicRegistry) : Nat := r.registry.length

/-- `operator [](index)`; an invalid index yields the invalid item. -/
def topicAt (r : NbiotTopicRegistry) (index : Nat) : NbiotTopic := r.registry.getD index {}

def insertTopic (r : NbiotTopicRegistry) (topic : NbiotTopic) : NbiotTopicRegistry :=
  if topic.topicName.isEmpty then r
  else match r.registry.findIdx? (·.hasName topic.topicName) with
    | none => { r with registry := r.registry ++ [topic] }
    | some index => { r with registry := r.registry.modify index (·.assign topic) }

/-- The topic with the handler of the first wildcard entry that matches it. -/
def attachWildcardMessageHandler (r : NbiotTopicRegistry) (topic : NbiotTopic) : NbiotTopic :=
  match r.registry.find? fun t => t.isWildcardTopic && t.isTopicMatched topic with
  | some t => { topic with mh := t.mh }
  | none => topic

/-- Hand a handler to the plain entries that a wildcard entry matches. -/
def updateMatched (registry : List NbiotTopic) (wildcard : NbiotTopic)
    (mh : Option MessageHandler) : List NbiotTopic :=
  registry.map fun t =>
    if !t.hasName wildcard.topicName && !t.isWildcardTopic && wildcard.isTopicMatched t then
      { t with mh := mh }
    else t

def updateWildcardMessageHandler (r : NbiotTopicRegistry) (topic : NbiotTopic) :
    NbiotTopicRegistry :=
  if topic.isWildcardTopic then
    match r.registry.findIdx? (·.hasName topic.topicName) with
    | some index => { r with registry := updateMatched r.registry (r.topicAt index) topic.mh }
    | none => r
  else r

def attachMessageHandler (r : NbiotTopicRegistry) (index : Nat) (mh : Option MessageHandler) :
    NbiotTopicRegistry :=
  if index < r.registry.length then
    let registry := r.registry.modify index ({ · with mh := mh })
    let topic := r.topicAt index
    { r with registry := if topic.isWildcardTopic then updateMatched registry topic mh else registry }
  else r

def setTopicFlag (r : NbiotTopicRegistry) (index : Nat) (flag : RegistrationFlag) :
    NbiotTopicRegistry :=
  { r with registry := r.registry.modify index (·.setReg flag) }

def unsetTopicFlag (r : NbiotTopicRegistry) (index : Nat) (flag : RegistrationFlag) :
    NbiotTopicRegistry :=
  { r with registry := r.registry.modify index (·.unsetReg flag) }

/-- `hasAnyTopic(topicFlag)`. -/
def hasAnyTopic (r : NbiotTopicRegistry) (flag : RegistrationFlag) : Bool :=
  r.registry.any (·.isReg flag)

/-- `hasTopic(topicFilter, topicFlag)`. -/
def hasTopic (r : NbiotTopicRegistry) (name : Bytes) (flag : RegistrationFlag) : Bool :=
  match r.findTopic name with
  | some index => (r.topicAt index).isReg flag
  | none => false

/-- The backward loop of `removeTopic` over the indices below the first
argument; `index` is not adjusted when an earlier entry goes. -/
def removeMatched (topic : NbiotTopic) (index : Nat) : Nat → List NbiotTopic → List NbiotTopic
  | 0, registry => registry
  | i + 1, registry =>
      removeMatched topic index i <|
        if index ≠ i ∧ topic.isTopicMatched (registry.getD i {}) then registry.eraseIdx i
        else registry

def removeTopic (r : NbiotTopicRegistry) (index : Nat) : NbiotTopicRegistry :=
  let topic := r.topicAt index
  let registry :=
    if topic.isWildcardTopic then removeMatched topic index r.registry.length r.registry
    else r.registry
  { r with registry := registry.eraseIdx index }

def clearRegistry (r : NbiotTopicRegistry) : NbiotTopicRegistry := { r with registry := [] }

/-- `messageDispatcher`: the return code, the handler that is called with the
name it is told, and the registry with the count of delivered messages. -/
def messageDispatcher (r : NbiotTopicRegistry) (id : Nat) :
    Nat × Option (MessageHandler × Bytes) × NbiotTopicRegistry :=
  match r.registry.find? fun t => t.valid && t.id = id with
  | some t =>
      match t.mh with
      | some h => (0, some (h, t.topicName), { r with messageCount := r.messageCount + 1 })
      | none => (0, none, r)
  | none => (2, none, r)

end NbiotTopicRegistry

end LibNbiot
