/-
# The buffers of the callers

Every read, and every command of the caller, ends with a copy to a buffer of the
caller, and the copy puts a zero behind the last byte. So a call stays inside its
buffer exactly if it has fewer bytes to hand over than the buffer is long; what that
means for what comes in is said for each class.
-/

import LibNbiot.Modem.Bc95Reading
import LibNbiot.Modem.Bg96Reading
import LibNbiot.Modem.ModemBase
import LibNbiot.Modem.SaraReading

namespace LibNbiot

/-- What a call writes to a buffer of some length is known, and stays inside it. -/
def StaysInside (len : Nat) (stores : Option (List Store)) : Prop :=
  ∃ written, stores = some written ∧ Inside len written

@[simp] theorem staysInside_some (len : Nat) (written : List Store) :
    StaysInside len (some written) ↔ Inside len written := by
  simp [StaysInside]

@[simp] theorem not_staysInside_none (len : Nat) : ¬StaysInside len none := nofun

instance (len : Nat) : (stores : Option (List Store)) → Decidable (StaysInside len stores)
  | none => .isFalse (not_staysInside_none len)
  | some written => decidable_of_iff _ (staysInside_some len written).symm

/-! ## The BC95 -/

namespace Bc95Network

variable {reqLen timeout : Nat}

/-- The bytes that each pass in time makes available, if all are taken and all lines can
be handled. -/
def drains (timeout : Nat) : List Pass → Bc95Network → Option (List Nat)
  | [], _ => some []
  | p :: passes, n =>
      if readInterval < min timeout p.remaining then do
        let n ← n.handleLines p.lines
        let counts ← drains timeout passes (n.takeBytes n.ipAvailable).2
        return n.ipAvailable :: counts
      else some []

/-- What a read writes to the buffer of the caller. -/
def readStores (n : Bc95Network) (len timeout : Nat) (passes : List Pass) : Option (List Store) :=
  (n.read len timeout passes).map fun a => (copyOut a.1 (a.2.1.map (·.value))).1

/-- Fewer bytes than are asked for become available. -/
def Short (n : Bc95Network) (len timeout : Nat) (passes : List Pass) : Prop :=
  ∃ counts, drains timeout passes n = some counts ∧ counts.sum < len ∧
    (counts = [] → n.ipAvailable = 0)

theorem drains_cons {p : Pass} {passes : List Pass} {n n₁ : Bc95Network}
    (htime : readInterval < min timeout p.remaining) (hn₁ : n.handleLines p.lines = some n₁) :
    drains timeout (p :: passes) n =
      (drains timeout passes (n₁.takeBytes n₁.ipAvailable).2).map (n₁.ipAvailable :: ·) := by
  rw [drains, if_pos htime, hn₁]
  simp only [Option.bind_eq_bind, Option.bind_some]
  cases drains timeout passes (n₁.takeBytes n₁.ipAvailable).2 <;> rfl

/-- The loop ends with fewer bytes than are asked for. -/
theorem readLoop_lt {passes : List Pass} {r r' : Reading} (hless : r.data.length < reqLen)
    (h : readLoop reqLen timeout passes r = some r') : r'.data.length < reqLen := by
  induction passes generalizing r with
  | nil =>
    obtain rfl := Option.some.inj h
    exact hless
  | cons p passes ih =>
    by_cases htime : readInterval < min timeout p.remaining
    · cases hn₁ : r.network.handleLines p.lines with
      | none => simp [readLoop, htime, hless, hn₁] at h
      | some n₁ =>
        by_cases henough : reqLen ≤ r.data.length + n₁.ipAvailable
        · rw [readLoop_last ⟨htime, hless⟩ hn₁ henough] at h
          obtain rfl := Option.some.inj h
          exact hless
        · rw [readLoop_next ⟨htime, hless⟩ hn₁ henough] at h
          apply ih _ h
          rw [List.length_append, length_takeBytes]
          omega
    · rw [readLoop, if_neg fun hgo => htime hgo.1] at h
      obtain rfl := Option.some.inj h
      exact hless

/-- The loop ends with nothing available exactly if all that became available is less
than what is asked for. -/
theorem readLoop_quiet_iff {passes : List Pass} {r : Reading} (hless : r.data.length < reqLen) :
    (∃ r', readLoop reqLen timeout passes r = some r' ∧ r'.dgmLen = 0) ↔
      ∃ counts, drains timeout passes r.network = some counts ∧
        r.data.length + counts.sum < reqLen ∧ (counts = [] → r.dgmLen = 0) := by
  induction passes generalizing r with
  | nil => simp [readLoop, drains, hless]
  | cons p passes ih =>
    by_cases htime : readInterval < min timeout p.remaining
    · cases hn₁ : r.network.handleLines p.lines with
      | none => simp [readLoop, drains, htime, hless, hn₁]
      | some n₁ =>
        rw [drains_cons htime hn₁]
        simp only [Option.map_eq_some_iff]
        by_cases henough : reqLen ≤ r.data.length + n₁.ipAvailable
        · rw [readLoop_last ⟨htime, hless⟩ hn₁ henough]
          constructor
          · rintro ⟨r', hr', hzero⟩
            obtain rfl := Option.some.inj hr'
            dsimp only at hzero
            omega
          · rintro ⟨_, ⟨later, -, rfl⟩, hsum, -⟩
            rw [List.sum_cons] at hsum
            omega
        · rw [readLoop_next ⟨htime, hless⟩ hn₁ henough,
            ih (by rw [List.length_append, length_takeBytes]; omega)]
          simp [length_takeBytes, Nat.add_assoc]
    · rw [readLoop, if_neg fun hgo => htime hgo.1, drains, if_neg htime]
      simp [hless]

/-- The rest fills the data up if something is available. -/
theorem length_readRest_lt_iff {r : Reading} (hless : r.data.length < reqLen) :
    (readRest reqLen r).1.length < reqLen ↔ r.dgmLen = 0 := by
  by_cases hnone : r.dgmLen = 0
  · simp [readRest, hnone, hless]
  · simp [length_readRest (Nat.pos_of_ne_zero hnone) hless, hnone]

/-- A read stays inside the buffer exactly if fewer bytes than are asked for become
available. -/
theorem readStores_inside_iff (n : Bc95Network) {len : Nat} (hlen : 1 ≤ len) (timeout : Nat)
    (passes : List Pass) :
    StaysInside len (n.readStores len timeout passes) ↔ n.Short len timeout passes := by
  have hquiet : (∃ r', readLoop len timeout passes ⟨n, n.ipAvailable, []⟩ = some r' ∧
      r'.dgmLen = 0) ↔ ∃ counts, drains timeout passes n = some counts ∧
        counts.sum < len ∧ (counts = [] → n.ipAvailable = 0) := by
    simpa using readLoop_quiet_iff (r := ⟨n, n.ipAvailable, []⟩) hlen
  rw [Short, ← hquiet, readStores]
  cases hloop : readLoop len timeout passes ⟨n, n.ipAvailable, []⟩ with
  | none =>
    have hread : n.read len timeout passes = none := by
      rw [read, if_neg (by omega), Int.toNat_natCast, hloop]
      rfl
    simp [hread]
  | some r =>
    have hlen₀ : 0 ≤ (len : Int) := Int.natCast_nonneg len
    have hread := read_of_readLoop hlen₀ hloop
    have hless : r.data.length < len := readLoop_lt (r := ⟨n, n.ipAvailable, []⟩) hlen hloop
    have hinside := copyOut_length_inside_iff ((readRest len r).1.map (·.value)) hlen
    rw [List.length_map, length_readRest_lt_iff hless] at hinside
    rw [hread, Option.map_some, staysInside_some, Int.toNat_natCast, hinside]
    simp

end Bc95Network

/-! ## The BG96 -/

namespace Bg96Network

variable {n n' : Bg96Network} {size : Nat}

/-- What a read writes to the buffer of the caller. -/
def readStores (n : Bg96Network) (len timeout : Nat) (first : DataExchange)
    (passes : List DataPass) : Option (List Store) :=
  let a := n.read len timeout first passes
  some (copyOut a.1 (a.2.1.map (·.value))).1

/-- A line tells of data. -/
def tells (n : Bg96Network) (line : Bytes) : Bool :=
  UrcFilterList.handlerOf n.filters line = some .network ∧ (findChar line comma).isSome

/-- The bytes that come in over the passes in time, if the modem is asked in each of which
it tells of data, or has told before. -/
def loopArrivals (n : Bg96Network) (timeout : Nat) : Bool → List DataPass → Nat
  | _, [] => 0
  | told, p :: passes =>
      if readInterval < min timeout p.remaining then
        if told || p.lines.any n.tells then
          (n.received p.answer).length + loopArrivals n timeout false passes
        else loopArrivals n timeout false passes
      else 0

/-- The bytes that can come in during a read. -/
def arriving (n : Bg96Network) (timeout : Nat) (first : DataExchange) (passes : List DataPass) :
    Nat :=
  if n.bytesAvail = 0 then (n.received first).length + n.loopArrivals timeout false passes
  else n.loopArrivals timeout true passes

/-- Fewer bytes than are asked for are there or come in, and find room. -/
def Short (n : Bg96Network) (len timeout : Nat) (first : DataExchange) (passes : List DataPass) :
    Prop :=
  min 256 (n.readBuffer.size + n.arriving timeout first passes) < len

/-- A buffer that so many bytes were put into, of which some found no room. -/
def Filled (n : Bg96Network) (size : Nat) : Prop :=
  ∃ items, n.readBuffer.Represents items ∧ items.length = min 256 size

theorem Filled.of_eq (h : n.Filled size) (hbuffer : n'.readBuffer = n.readBuffer) :
    n'.Filled size := by
  rw [Filled, hbuffer]
  exact h

theorem Filled.size_eq (h : n.Filled size) : n.readBuffer.size = min 256 size := by
  obtain ⟨items, hitems, hlength⟩ := h
  rw [hitems.size_eq, hlength]

/-- Every byte is counted, whether it finds room or not. -/
theorem collect_filled (h : n.Filled size) (raw : List (Option UInt8)) :
    (n.collect raw).1 = (n.octetsOf raw).length ∧
      (n.collect raw).2.Filled (size + (n.octetsOf raw).length) := by
  induction raw generalizing n size with
  | nil => exact ⟨rfl, h⟩
  | cons c raw ih =>
    cases c with
    | none => exact ih h
    | some c =>
      let o : Octet := ⟨c, some n.history.attempts⟩
      let n₁ : Bg96Network := { n with readBuffer := (n.readBuffer.putByte o).2 }
      have hcons : n.octetsOf (some c :: raw) = o :: n₁.octetsOf raw := rfl
      have hput : n₁.Filled (size + 1) := by
        obtain ⟨items, hitems, hlength⟩ := h
        have hput := hitems.putByte o
        split at hput
        · rename_i hroom
          refine ⟨items ++ [o], hput.2, ?_⟩
          rw [List.length_append, List.length_singleton]
          omega
        · rename_i hfull
          have hsame : n₁.readBuffer = n.readBuffer := congrArg Prod.snd hput
          refine ⟨items, hsame ▸ hitems, ?_⟩
          omega
      obtain ⟨hcount, hrest⟩ := ih hput
      rw [hcons, List.length_cons]
      constructor
      · rw [← hcount]
        rfl
      · rw [← Nat.add_assoc, Nat.add_right_comm]
        exact hrest

theorem ipRead_filled (h : n.Filled size) (len : Int) (x : DataExchange) :
    (n.ipRead len x).1 = (n.received x).length ∧
      (n.ipRead len x).2.Filled (size + (n.received x).length) := by
  unfold ipRead
  dsimp only
  generalize hsent : n.sendCommand _ = sent
  have hstart : sent.Filled size := by
    rw [← hsent]
    exact h.of_eq rfl
  have hhistory : sent.history = n.history := by
    rw [← hsent]
    rfl
  split
  · rename_i hx
    have hreceived : n.received x = (sent.handleLines x.before).octetsOf
        (x.raw.take (if x.ok then announced x.response else -1).toNat) := by
      rw [received, if_pos hx, octetsOf, (handleLines_collects _ _).history, hhistory]
    obtain ⟨hcount, hall⟩ := collect_filled (hstart.of_eq (handleLines_readBuffer _ x.before))
      (x.raw.take (if x.ok then announced x.response else -1).toNat)
    rw [hreceived]
    exact ⟨hcount, hall.of_eq (handleLines_readBuffer _ _)⟩
  · rename_i hx
    have hnone : n.received x = [] := if_neg hx
    rw [hnone]
    exact ⟨rfl, hstart.of_eq (handleLines_readBuffer _ _)⟩

theorem handleLine_told (n : Bg96Network) (line : Bytes) :
    (n.handleLine line).bytesAvail ≠ 0 ↔ n.bytesAvail ≠ 0 ∨ n.tells line = true := by
  rw [tells, decide_eq_true_iff]
  unfold handleLine parseFilterResult
  split
  · rename_i hhandler
    split
    · rename_i pos hpos
      simp [hhandler, hpos]
    · rename_i hpos
      simp [hpos]
  · rename_i hno
    have hother : ¬UrcFilterList.handlerOf n.filters line = some .network := hno
    simp [hother]

theorem tells_congr (h : n'.filters = n.filters) : n'.tells = n.tells := by
  funext line
  rw [tells, tells, h]

/-- The modem has told of data after some lines if it had before, or if one of them
tells. -/
theorem handleLines_told (n : Bg96Network) (lines : List Bytes) :
    (n.handleLines lines).bytesAvail ≠ 0 ↔ n.bytesAvail ≠ 0 ∨ lines.any n.tells = true := by
  induction lines generalizing n with
  | nil => simp [handleLines]
  | cons line lines ih =>
    have hfilters : (n.handleLine line).filters = n.filters := (handleLines_collects n [line]).filters
    have hrest := ih (n.handleLine line)
    rw [tells_congr hfilters, handleLine_told, or_assoc] at hrest
    rw [List.any_cons, Bool.or_eq_true]
    exact hrest

/-- The loop leaves all in the buffer that has come in, as far as there is room, and ends
with fewer bytes than are asked for exactly if fewer come in over the passes in time. -/
theorem readLoop_filled {reqLen timeout : Nat} {m : Bg96Network} {told : Bool}
    (passes : List DataPass) {bytes : Nat} (h : m.Filled bytes) (hfilters : m.filters = n.filters)
    (hhistory : m.history = n.history) (htold : told = true ↔ m.bytesAvail ≠ 0) :
    (readLoop reqLen timeout passes bytes m).2.Filled (readLoop reqLen timeout passes bytes m).1 ∧
      (min 256 (readLoop reqLen timeout passes bytes m).1 < reqLen ↔
        min 256 (bytes + n.loopArrivals timeout told passes) < reqLen) := by
  induction passes generalizing m told bytes with
  | nil => exact ⟨h, Iff.rfl⟩
  | cons p passes ih =>
    rw [readLoop, loopArrivals]
    by_cases htime : readInterval < min timeout p.remaining
    · rw [if_pos htime]
      by_cases hroom : m.readBuffer.size < reqLen
      · rw [if_pos ⟨htime, hroom⟩]
        have hlines := handleLines_collects m p.lines
        have hbuffer := h.of_eq (handleLines_readBuffer m p.lines)
        have hnow := m.handleLines_told p.lines
        rw [tells_congr hfilters, ← htold, ← Bool.or_eq_true] at hnow
        dsimp only
        by_cases hasks : (m.handleLines p.lines).bytesAvail ≠ 0
        · rw [if_pos hasks, if_pos (hnow.1 hasks), ← Nat.add_assoc]
          obtain ⟨hcount, hfilled⟩ := ipRead_filled hbuffer (reqLen - bytes) p.answer
          have hread := hlines.trans (ipRead_collects (m.handleLines p.lines) (reqLen - bytes) p.answer)
          have hsame : (m.handleLines p.lines).received p.answer = n.received p.answer :=
            congrFun (received_congr (hlines.history.trans hhistory)) _
          rw [hsame] at hcount hfilled
          rw [hcount]
          exact ih (hfilled.of_eq rfl) (hread.filters.trans hfilters)
            (hread.history.trans hhistory) (by simp)
        · rw [if_neg hasks, if_neg (mt hnow.2 hasks)]
          exact ih hbuffer (hlines.filters.trans hfilters) (hlines.history.trans hhistory)
            (by simpa using hasks)
      · have hlate : ¬(readInterval < min timeout p.remaining ∧ m.readBuffer.size < reqLen) :=
          fun hgo => hroom hgo.2
        rw [if_neg hlate]
        have hsize := h.size_eq
        exact ⟨h, by omega⟩
    · have hlate : ¬(readInterval < min timeout p.remaining ∧ m.readBuffer.size < reqLen) :=
        fun hgo => htime hgo.1
      rw [if_neg hlate, if_neg htime]
      exact ⟨h, Iff.rfl⟩

/-- The state of a read when its loop has ended. -/
def ended (n : Bg96Network) (reqLen timeout : Nat) (first : DataExchange)
    (passes : List DataPass) : Nat × Bg96Network :=
  readLoop reqLen timeout passes (n.readBuffer.size + (n.askFirst reqLen first).1)
    (n.askFirst reqLen first).2

theorem ended_filled {items : List Octet} (h : n.readBuffer.Represents items)
    (reqLen timeout : Nat) (first : DataExchange) (passes : List DataPass) :
    (n.ended reqLen timeout first passes).2.Filled (n.ended reqLen timeout first passes).1 ∧
      (min 256 (n.ended reqLen timeout first passes).1 < reqLen ↔
        n.Short reqLen timeout first passes) := by
  have hstart : n.Filled n.readBuffer.size := by
    have hle := h.length_le
    exact ⟨items, h, by rw [h.size_eq]; omega⟩
  unfold ended Short arriving askFirst
  by_cases hask : n.bytesAvail = 0
  · simp only [if_pos hask]
    obtain ⟨hcount, hfilled⟩ := ipRead_filled hstart reqLen first
    have hread := ipRead_collects n reqLen first
    rw [hcount, ← Nat.add_assoc]
    exact readLoop_filled passes (hfilled.of_eq rfl) hread.filters hread.history (by simp)
  · simp only [if_neg hask]
    exact readLoop_filled passes hstart rfl rfl (by simpa using hask)

theorem finish_inside_iff {len : Nat} (hlen : 1 ≤ len) {ended : Nat × Bg96Network}
    (h : ended.2.Filled ended.1) :
    Inside len (copyOut (finish len ended).1 ((finish len ended).2.1.map (·.value))).1 ↔
      min 256 ended.1 < len := by
  obtain ⟨items, hitems, hlength⟩ := h
  obtain ⟨hserved, -⟩ := serve_takes hitems len
  unfold finish
  split
  · have hinside := copyOut_length_inside_iff ((ended.2.serve len).1.map (·.value)) hlen
    rw [List.length_map] at hinside
    rw [hinside, hserved, List.length_take]
    omega
  · rw [copyOut_inside_iff]
    constructor
    · intro _
      omega
    · intro _
      left
      dsimp only
      omega

/-- A read stays inside the buffer exactly if fewer bytes than are asked for are there or
come in, and find room. -/
theorem readStores_inside_iff {items : List Octet} (h : n.readBuffer.Represents items) {len : Nat}
    (hlen : 1 ≤ len) (timeout : Nat) (first : DataExchange) (passes : List DataPass) :
    StaysInside len (n.readStores len timeout first passes) ↔
      n.Short len timeout first passes := by
  obtain ⟨hfilled, hshort⟩ := ended_filled h len timeout first passes
  rw [readStores, staysInside_some, read_eq n (by omega), Int.toNat_natCast, ← hshort]
  exact finish_inside_iff hlen hfilled

/-- The buffer of an object holds some items, whatever its calls are. -/
theorem exec_represents {items : List Octet} (h : n.readBuffer.Represents items) (call : Call) :
    ∃ items', (n.exec call).readBuffer.Represents items' := by
  cases call with
  | connect hostname port x => exact ⟨items, (n.connect_readBuffer hostname port x).symm ▸ h⟩
  | disconnect x => exact ⟨items, (n.disconnect_readBuffer x).symm ▸ h⟩
  | write data x => exact ⟨items, (n.write_readBuffer data x).symm ▸ h⟩
  | urc lines => exact ⟨items, (n.handleLines_readBuffer lines).symm ▸ h⟩
  | read len timeout first passes =>
    by_cases hneg : len < 0
    · have hsame : (n.exec (.read len timeout first passes)) = n := by
        simp only [exec, read, if_pos hneg]
      exact ⟨items, hsame.symm ▸ h⟩
    · obtain ⟨⟨items', hitems', -⟩, -⟩ := ended_filled h len.toNat timeout first passes
      have hread : (n.exec (.read len timeout first passes)) =
          (finish len.toNat (n.ended len.toNat timeout first passes)).2.2 := by
        rw [exec, read_eq n hneg]
        rfl
      rw [hread]
      unfold finish
      split
      · exact ⟨_, (serve_takes hitems' len.toNat).2⟩
      · exact ⟨items', hitems'⟩

theorem run_represents {items : List Octet} (h : n.readBuffer.Represents items)
    (calls : List Call) : ∃ items', (n.run calls).readBuffer.Represents items' := by
  induction calls generalizing n items with
  | nil => exact ⟨items, h⟩
  | cons call calls ih =>
    obtain ⟨items', hitems'⟩ := exec_represents h call
    exact ih hitems'

end Bg96Network

/-! ## The SARA-N2xx -/

namespace SaraNetwork

/-- What a read writes to the buffer of the caller. -/
def readStores (n : SaraNetwork) (model : SaraModel) (len timeout : Nat) (first : Exchange)
    (passes : List AskingPass) (last : Exchange) : Option (List Store) :=
  (n.read model len timeout first passes last).map (·.written.1)

/-- The replies count nothing, or they count or carry fewer bytes than are asked for. -/
def Short (n : SaraNetwork) (model : SaraModel) (len timeout : Nat) (first : Exchange)
    (passes : List AskingPass) (last : Exchange) : Prop :=
  ∃ replies, n.replies model len timeout first passes last = some replies ∧
    (counted replies ≤ 0 ∨ min (counted replies).toNat (carried replies) < len)

theorem readStores_inside_iff (n : SaraNetwork) (model : SaraModel) (len timeout : Nat)
    (first : Exchange) (passes : List AskingPass) (last : Exchange) :
    StaysInside len (n.readStores model len timeout first passes last) ↔
      n.Short model len timeout first passes last := by
  have hsums := n.read_sums model len timeout first passes last
  rw [Short, readStores]
  cases hreplies : n.replies model len timeout first passes last with
  | none =>
    rw [hreplies, Option.map_none, Option.map_eq_none_iff] at hsums
    simp [hsums]
  | some replies =>
    rw [hreplies, Option.map_some, Option.map_eq_some_iff] at hsums
    obtain ⟨a, hread, hsame⟩ := hsums
    obtain ⟨hrc, hdata⟩ := Prod.ext_iff.1 hsame
    dsimp only at hrc hdata
    rw [hread, Option.map_some, staysInside_some, read_written hread, copyOut_inside_iff, hrc, hdata]
    simp

end SaraNetwork

/-! ## Commands of the caller -/

namespace ModemBase

/-- The response is not as long as the buffer; a longer one is refused. -/
def Short (sent : Bool) (lines : List Bytes) (len : Nat) : Prop :=
  ¬(sent = true ∧ lines ≠ [] ∧ (cString (copyResponse lines)).length = len)

theorem sendAtCommand_inside_iff (sent : Bool) (lines : List Bytes) {len : Nat} (hlen : 1 ≤ len) :
    Inside len (sendAtCommand sent lines len).2 ↔ Short sent lines len := by
  unfold sendAtCommand Short
  split
  · rename_i hanswered
    dsimp only
    split
    · rename_i hfits
      rw [copy_inside_iff]
      simp only [hanswered, ne_eq, not_false_eq_true, true_and]
      omega
    · rename_i hlong
      simp [Inside]
      omega
  · rename_i hno
    constructor
    · intro _ hanswered
      exact hno ⟨hanswered.1, hanswered.2.1⟩
    · intro _
      exact List.forall_mem_nil _

end ModemBase

/-! ## All of them -/

/-- A call that fills a buffer of the caller: a read of one of the network classes, of the
BG96 after any calls of the object, or a command. -/
inductive FillingCall where
  | bc95 (n : Bc95Network) (timeout : Nat) (passes : List Pass)
  | bg96 (array : Vector Octet 256) (before : List Bg96Network.Call) (timeout : Nat)
      (first : Bg96Network.DataExchange) (passes : List Bg96Network.DataPass)
  | sara (n : SaraNetwork) (model : SaraModel) (timeout : Nat) (first : Exchange)
      (passes : List SaraNetwork.AskingPass) (last : Exchange)
  | sendAtCommand (sent : Bool) (lines : List Bytes)

namespace FillingCall

/-- What a call writes to a buffer of some length, if that is defined. -/
def stores (len : Nat) : FillingCall → Option (List Store)
  | .bc95 n timeout passes => n.readStores len timeout passes
  | .bg96 array before timeout first passes =>
      ((Bg96Network.fresh array.toList).run before).readStores len timeout first passes
  | .sara n model timeout first passes last => n.readStores model len timeout first passes last
  | .sendAtCommand sent lines => some (ModemBase.sendAtCommand sent lines len).2

/-- A call has fewer bytes to hand over than the buffer has. -/
def Short (len : Nat) : FillingCall → Prop
  | .bc95 n timeout passes => n.Short len timeout passes
  | .bg96 array before timeout first passes =>
      ((Bg96Network.fresh array.toList).run before).Short len timeout first passes
  | .sara n model timeout first passes last => n.Short model len timeout first passes last
  | .sendAtCommand sent lines => ModemBase.Short sent lines len

/-- **A call stays inside the buffer of the caller** exactly if it has fewer bytes to hand
over than the buffer is long: the zero behind them needs a place. -/
theorem staysInside_iff (call : FillingCall) (len : Nat) (hlen : 1 ≤ len) :
    StaysInside len (call.stores len) ↔ call.Short len := by
  cases call with
  | bc95 n timeout passes => exact n.readStores_inside_iff hlen timeout passes
  | bg96 array before timeout first passes =>
    have hfresh : (Bg96Network.fresh array.toList).readBuffer.Represents [] :=
      Bg96Network.fresh_represents (Vector.length_toList ..)
    obtain ⟨items, hitems⟩ := Bg96Network.run_represents hfresh before
    exact Bg96Network.readStores_inside_iff hitems hlen timeout first passes
  | sara n model timeout first passes last =>
    exact n.readStores_inside_iff model len timeout first passes last
  | sendAtCommand sent lines =>
    rw [stores, staysInside_some]
    exact ModemBase.sendAtCommand_inside_iff sent lines hlen

/-- A response of four bytes fits a buffer of five. -/
theorem staysInside_iff_ok :
    StaysInside 5 ((FillingCall.sendAtCommand true [[79, 75]]).stores 5) ↔
      (FillingCall.sendAtCommand true [[79, 75]]).Short 5 :=
  staysInside_iff _ 5 (by decide)

/-- An open socket of the BC95. -/
def openBc95 : Bc95Network :=
  { Bc95Network.fresh (List.replicate 512 .unknown) with
    connectionNumber := 0
    filters := [⟨Bc95Network.respNSONMI ++ [48, 44], .network⟩] }

/-- A call of each kind that has as many bytes to hand over as the buffer is long writes a
zero behind it: reads of two bytes, and the response of four. -/
theorem not_staysInside_full :
    ¬StaysInside 2 ((bc95 openBc95 1000 [⟨900, [Bc95Network.datagramLine 0 [7, 8]]⟩]).stores 2) ∧
      ¬StaysInside 2 ((bg96 (.replicate 256 .unknown) [] 1000
        { response := [43, 81, 73, 82, 68, 58, 32, 50], raw := [some 7, some 8] } []).stores 2) ∧
      (∀ model ∈ [SaraModel.b656, .b657sp3], ¬StaysInside 2 ((sara (SaraNetwork.opened model) model
        1000 (SaraNetwork.oneByte model) [SaraNetwork.told model]
        (SaraNetwork.oneByte model)).stores 2)) ∧
      ¬StaysInside 4 ((sendAtCommand true [[79, 75]]).stores 4) := by
  refine ⟨?_, ?_, ?_, ?_⟩ <;> decide +kernel

end FillingCall

end LibNbiot
