/-
# What a read of the BC95 delivers

A read takes bytes out of the ring buffer in their order, also while datagrams
come in. How many it takes, and what is left by the counter, is right as long as
every datagram finds the buffer empty, and as long as a read that comes too late
for its loop does not ask for more than there is: then it invents the rest.
-/

import LibNbiot.Modem.ByteCount

namespace LibNbiot

namespace Bc95Network

variable {n n' : Bc95Network} {items : List Octet}

/-! ## What comes in -/

/-- The bytes of a line that is a datagram for the open socket. -/
def brings (n : Bc95Network) (line : Bytes) : Option Bytes :=
  match UrcFilterList.handlerOf n.filters line with
  | some .network =>
      match splitChar line comma with
      | [first, _, hex] =>
          if n.connectionNumber = socketNumber first then (strip hex quote).map fromHex else none
      | _ => none
  | _ => none

/-- The datagrams of some lines. -/
def datagrams (n : Bc95Network) (lines : List Bytes) : List Bytes := lines.filterMap n.brings

/-- Bytes that come in now. -/
def octets (n : Bc95Network) (data : Bytes) : List Octet :=
  data.map fun c => ⟨c, some n.history.attempts⟩

/-- A line for the socket carries what it announces. -/
def Truthful (n : Bc95Network) (line : Bytes) : Prop :=
  UrcFilterList.handlerOf n.filters line = some .network → wellFormed line = true

instance (n : Bc95Network) (line : Bytes) : Decidable (n.Truthful line) :=
  inferInstanceAs (Decidable (_ → _))

/-- The counter is what the last datagram announces. -/
def countAfter (bytesAvail : Nat) (datagrams : List Bytes) : Nat :=
  datagrams.foldl (fun _ data => data.length) bytesAvail

/-- The bytes of datagrams are behind those in the buffer, and the last datagram is
counted. -/
structure Takes (n n' : Bc95Network) (items : List Octet) (datagrams : List Bytes) : Prop where
  represents : n'.buffer.Represents (items ++ n.octets datagrams.flatten)
  bytesAvail : n'.bytesAvail = countAfter n.bytesAvail datagrams
  frame : Frame n n'

theorem octetsAt_length (n : Bc95Network) (data : Bytes) :
    n.octetsAt data data.length = n.octets data := by
  rw [octetsAt, octets, List.take_of_length_le (by simp), Nat.sub_self, List.replicate_zero,
    List.append_nil]

theorem length_octets (n : Bc95Network) (data : Bytes) : (n.octets data).length = data.length :=
  List.length_map _

/-- What comes in depends on the filters and the number of the socket. -/
theorem Frame.datagrams (h : Frame n n') (lines : List Bytes) :
    n'.datagrams lines = n.datagrams lines := by
  have hbrings : n'.brings = n.brings := by
    funext line
    rw [brings, brings, h.filters, h.connectionNumber]
  rw [Bc95Network.datagrams, Bc95Network.datagrams, hbrings]

theorem Frame.octets (h : Frame n n') (data : Bytes) : n'.octets data = n.octets data := by
  rw [Bc95Network.octets, Bc95Network.octets, h.attempts]

theorem Frame.truthful (h : Frame n n') {line : Bytes} (hline : n.Truthful line) :
    n'.Truthful line := by
  rw [Truthful, h.filters]
  exact hline

theorem receive_takes (h : n.buffer.Represents items) {data : Bytes} (hdata : 0 < data.length)
    (hroom : items.length + data.length ≤ 512) :
    Takes n (n.receive data.length data) items [data] := by
  have hcapacity : ¬n.buffer.capacity < data.length := by
    rw [h.capacity_eq]
    omega
  have hput := h.put (n.octets data) (by rw [length_octets]; omega)
  rw [length_octets, if_pos hroom] at hput
  unfold receive
  simp only [if_neg hcapacity, octetsAt_length]
  exact ⟨by simpa using hput.2, rfl, rfl, rfl, rfl, rfl, rfl, rfl, .datagram ..⟩

theorem brings_datagram {line first count hex : Bytes}
    (hhandler : n.filters.handlerOf line = some .network)
    (hsplit : splitChar line comma = [first, count, hex]) :
    n.brings line =
      if n.connectionNumber = socketNumber first then (strip hex quote).map fromHex else none := by
  simp only [brings, hhandler, hsplit]

theorem brings_of_fields {line : Bytes}
    (hno : ∀ first count hex, splitChar line comma = [first, count, hex] → False) :
    n.brings line = none := by
  unfold brings
  split
  · split
    · rename_i first count hex hsplit
      exact absurd hsplit (hno first count hex)
    · rfl
  · rfl

theorem brings_of_foreign {line : Bytes}
    (hno : n.filters.handlerOf line = some .network → False) : n.brings line = none := by
  unfold brings
  split
  · rename_i hhandler
    exact absurd hhandler hno
  · rfl

theorem handleLine_takes (h : n.buffer.Represents items) {line : Bytes} (hline : n.Truthful line)
    (hroom : items.length + ((n.brings line).getD []).length ≤ 512) :
    ∃ n', n.handleLine line = some n' ∧ Takes n n' items (n.brings line).toList := by
  have hquiet : Takes n n items [] :=
    ⟨by simpa [octets] using h, rfl, .refl n⟩
  unfold handleLine
  split
  · rename_i hhandler
    have hwf := hline hhandler
    unfold wellFormed at hwf
    unfold parseFilterResult
    split
    · rename_i first count hex hsplit
      simp only [hsplit] at hwf
      rw [brings_datagram hhandler hsplit] at hroom ⊢
      split
      · rename_i hnumber
        cases hstrip : strip hex quote with
        | none =>
          rw [hstrip] at hwf
          cases hwf
        | some digits =>
          rw [hstrip] at hwf
          have hcount : atoi count = (fromHex digits).length := of_decide_eq_true hwf
          rw [if_pos hnumber, hstrip] at hroom
          have hroom : items.length + (fromHex digits).length ≤ 512 := hroom
          have hannounced : (atoi count % sizeMod).toNat = (fromHex digits).length := by
            rw [hcount]
            simp only [sizeMod]
            omega
          rw [hannounced]
          dsimp only
          split
          · rename_i hpos
            exact ⟨_, rfl, receive_takes h hpos hroom⟩
          · rename_i hempty
            have hnil : fromHex digits = [] := List.length_eq_zero_iff.1 (by omega)
            refine ⟨_, rfl, ?_⟩
            simp only [Option.map_some, Option.toList_some, hnil]
            exact ⟨by simpa [octets] using h, rfl, rfl, rfl, rfl, rfl, rfl, rfl, .datagram ..⟩
      · exact ⟨n, rfl, hquiet⟩
    · rename_i hno
      rw [brings_of_fields hno]
      exact ⟨n, rfl, hquiet⟩
  · rename_i hno
    rw [brings_of_foreign hno]
    exact ⟨n, rfl, hquiet⟩

theorem Takes.trans {n₁ n₂ : Bc95Network} {ds ds' : List Bytes} (h : Takes n n₁ items ds)
    (h' : Takes n₁ n₂ (items ++ n.octets ds.flatten) ds') : Takes n n₂ items (ds ++ ds') := by
  refine ⟨?_, ?_, h.frame.trans h'.frame⟩
  · have hrepresents := h'.represents
    rw [h.frame.octets, List.append_assoc] at hrepresents
    simpa [octets] using hrepresents
  · rw [h'.bytesAvail, h.bytesAvail, countAfter, countAfter, countAfter, List.foldl_append]

theorem handleLines_takes (h : n.buffer.Represents items) {lines : List Bytes}
    (hlines : ∀ line ∈ lines, n.Truthful line)
    (hroom : items.length + (n.datagrams lines).flatten.length ≤ 512) :
    ∃ n', n.handleLines lines = some n' ∧ Takes n n' items (n.datagrams lines) := by
  induction lines generalizing n items with
  | nil => exact ⟨n, rfl, by simpa [datagrams, octets] using h, rfl, .refl n⟩
  | cons line lines ih =>
    have hsplit : n.datagrams (line :: lines) = (n.brings line).toList ++ n.datagrams lines := by
      rw [datagrams, List.filterMap_cons]
      cases n.brings line <;> rfl
    have hfirst : (n.brings line).toList.flatten = (n.brings line).getD [] := by
      cases n.brings line <;> simp
    rw [hsplit, List.flatten_append, List.length_append, hfirst] at hroom
    obtain ⟨n₁, hn₁, htakes⟩ := handleLine_takes h (hlines line List.mem_cons_self) (by omega)
    obtain ⟨n₂, hn₂, htakes'⟩ := ih htakes.represents
      (fun line hline => htakes.frame.truthful (hlines line (List.mem_cons_of_mem _ hline)))
      (by rw [List.length_append, length_octets, hfirst, htakes.frame.datagrams]; omega)
    rw [htakes.frame.datagrams] at htakes'
    refine ⟨n₂, ?_, hsplit ▸ htakes.trans htakes'⟩
    rw [handleLines, List.foldlM_cons]
    exact Option.bind_eq_some_iff.2 ⟨n₁, hn₁, hn₂⟩

/-! ## The loop -/

/-- The rounds of the loop of a read with the datagrams of each: it is entered while
there is time, until as many bytes are counted as are asked for. -/
def rounds (n : Bc95Network) (reqLen timeout : Nat) : Nat → Nat → List Pass → List (List Bytes)
  | _, _, [] => []
  | bytesAvail, got, p :: passes =>
      if readInterval < min timeout p.remaining ∧ got < reqLen then
        let ds := n.datagrams p.lines
        let got := got + countAfter bytesAvail ds
        ds :: if reqLen ≤ got then [] else rounds n reqLen timeout 0 got passes
      else []

/-- In every round nothing is waiting when the last datagram comes in. -/
def Separate (waiting : Nat) : List (List Bytes) → Prop
  | [] => True
  | ds :: rounds => (ds = [] ∨ waiting = 0 ∧ ∀ d ∈ ds.dropLast, d = []) ∧ Separate 0 rounds

/-- A datagram that finds something waiting leaves the counter short of the buffer,
and only such a one does. -/
theorem countAfter_eq_iff {waiting bytesAvail : Nat} (h : bytesAvail ≤ waiting) (ds : List Bytes) :
    countAfter bytesAvail ds ≤ waiting + ds.flatten.length ∧
      (countAfter bytesAvail ds = waiting + ds.flatten.length ↔
        bytesAvail = waiting ∧ (ds = [] ∨ waiting = 0 ∧ ∀ d ∈ ds.dropLast, d = [])) := by
  obtain rfl | ⟨init, last, rfl⟩ := List.eq_nil_or_concat ds
  · simp [countAfter, h]
  · have hsum : (init ++ [last]).flatten.length = init.flatten.length + last.length := by simp
    have hcount : countAfter bytesAvail (init ++ [last]) = last.length := by simp [countAfter]
    have hempty : init.flatten.length = 0 ↔ ∀ d ∈ init, d = [] := by
      rw [List.length_eq_zero_iff, List.flatten_eq_nil_iff]
    rw [List.concat_eq_append, hsum, hcount, List.dropLast_concat, ← hempty]
    refine ⟨by omega, ?_⟩
    simp
    omega

/-- All that is counted is taken. -/
theorem takeBytes_counted (h : n.buffer.Represents items) (hcounted : n.bytesAvail ≤ items.length) :
    (n.takeBytes n.bytesAvail).1 = items.take n.bytesAvail ∧
      (n.takeBytes n.bytesAvail).2.buffer.Represents (items.drop n.bytesAvail) ∧
      (n.takeBytes n.bytesAvail).2.bytesAvail = 0 := by
  obtain ⟨hrest, hgiven⟩ := takeBytes_represents h n.bytesAvail
  refine ⟨hgiven hcounted, hrest, ?_⟩
  rw [takeBytes_bytesAvail le_rfl, Nat.sub_self]

/-- What a loop that has ended leaves behind, for the rounds it went through. -/
structure Ended (n : Bc95Network) (reqLen : Nat) (r : Reading) (items : List Octet)
    (rounds : List (List Bytes)) (r' : Reading) (items' : List Octet) : Prop where
  represents : r'.network.buffer.Represents items'
  frame : Frame n r'.network
  order : r'.data ++ items' = r.data ++ items ++ n.octets rounds.flatten.flatten
  counter : r'.dgmLen = r'.network.bytesAvail
  counted : r'.network.bytesAvail ≤ items'.length
  got : r'.data.length ≤ reqLen
  exact : r'.network.bytesAvail = items'.length ↔
    r.network.bytesAvail = items.length ∧ Separate items.length rounds
  idle : rounds = [] → r' = r
  enough : rounds ≠ [] → r'.dgmLen = 0 ∨ reqLen ≤ r'.data.length + r'.dgmLen

theorem Ended.none {reqLen : Nat} {r : Reading} (h : r.network.buffer.Represents items)
    (hframe : Frame n r.network) (hcounter : r.dgmLen = r.network.bytesAvail)
    (hcounted : r.network.bytesAvail ≤ items.length) (hgot : r.data.length ≤ reqLen) :
    Ended n reqLen r items [] r items := by
  refine ⟨h, hframe, ?_, hcounter, hcounted, hgot, ?_, fun _ => rfl, fun hne => absurd rfl hne⟩
  · simp [octets]
  · simp [Separate]

/-- A round that is the last: with what is counted there is enough. -/
theorem Ended.last {reqLen : Nat} {r : Reading} {n₁ : Bc95Network} {ds : List Bytes}
    (h : n₁.buffer.Represents (items ++ n.octets ds.flatten)) (hframe : Frame n n₁)
    (havail : n₁.bytesAvail = countAfter r.network.bytesAvail ds)
    (hcounted : r.network.bytesAvail ≤ items.length) (hgot : r.data.length ≤ reqLen)
    (henough : reqLen ≤ r.data.length + countAfter r.network.bytesAvail ds) :
    Ended n reqLen r items [ds]
      { r with network := n₁, dgmLen := countAfter r.network.bytesAvail ds }
      (items ++ n.octets ds.flatten) := by
  obtain ⟨hle, hiff⟩ := countAfter_eq_iff hcounted ds
  have hlength : (items ++ n.octets ds.flatten).length = items.length + ds.flatten.length := by
    rw [List.length_append, length_octets]
  refine ⟨h, hframe, ?_, havail.symm, ?_, hgot, ?_,
    fun hnil => absurd hnil (List.cons_ne_nil _ _), fun _ => .inr henough⟩
  · simp [octets]
  · rw [havail, hlength]
    exact hle
  · rw [havail, hlength, hiff]
    simp [Separate]

/-- A round before the others: everything that is counted has been taken. -/
theorem Ended.round {reqLen : Nat} {r r₁ r' : Reading} {items₁ items' : List Octet}
    {ds : List Bytes} {rounds : List (List Bytes)} (h : Ended n reqLen r₁ items₁ rounds r' items')
    (horder : r₁.data ++ items₁ = r.data ++ items ++ n.octets ds.flatten)
    (hdgm : r₁.dgmLen = 0) (hnone : r₁.network.bytesAvail = 0)
    (hcounted : r.network.bytesAvail ≤ items.length)
    (hleft : countAfter r.network.bytesAvail ds + items₁.length = items.length + ds.flatten.length) :
    Ended n reqLen r items (ds :: rounds) r' items' := by
  obtain ⟨-, hiff⟩ := countAfter_eq_iff hcounted ds
  refine ⟨h.represents, h.frame, ?_, h.counter, h.counted, h.got, ?_, nofun, fun _ => ?_⟩
  · rw [h.order, horder]
    simp [octets]
  · rw [h.exact, hnone, Separate, ← and_assoc, ← hiff]
    constructor
    · rintro ⟨hempty, hrest⟩
      rw [← hempty] at hrest
      exact ⟨by omega, hrest⟩
    · rintro ⟨hall, hrest⟩
      have hempty : items₁.length = 0 := by omega
      exact ⟨hempty.symm, hempty ▸ hrest⟩
  · by_cases hlast : rounds = []
    · rw [h.idle hlast]
      exact .inl hdgm
    · exact h.enough hlast

/-- The loop ends with enough. -/
theorem readLoop_last {reqLen timeout : Nat} {p : Pass} {passes : List Pass} {r : Reading}
    {n₁ : Bc95Network} (hentered : readInterval < min timeout p.remaining ∧ r.data.length < reqLen)
    (hn₁ : r.network.handleLines p.lines = some n₁)
    (henough : reqLen ≤ r.data.length + n₁.ipAvailable) :
    readLoop reqLen timeout (p :: passes) r =
      some { r with network := n₁, dgmLen := n₁.ipAvailable } := by
  rw [readLoop, if_pos hentered]
  simp only [hn₁, Option.bind_eq_bind, Option.bind_some]
  rw [if_neg (by omega), if_pos (by omega)]

/-- While there is not enough, all that is counted is taken, be it nothing. -/
theorem readLoop_next {reqLen timeout : Nat} {p : Pass} {passes : List Pass} {r : Reading}
    {n₁ : Bc95Network} (hentered : readInterval < min timeout p.remaining ∧ r.data.length < reqLen)
    (hn₁ : r.network.handleLines p.lines = some n₁)
    (hless : ¬reqLen ≤ r.data.length + n₁.ipAvailable) :
    readLoop reqLen timeout (p :: passes) r =
      readLoop reqLen timeout passes
        { network := (n₁.takeBytes n₁.ipAvailable).2
          dgmLen := 0
          data := r.data ++ (n₁.takeBytes n₁.ipAvailable).1 } := by
  rw [readLoop, if_pos hentered]
  simp only [hn₁, Option.bind_eq_bind, Option.bind_some]
  split
  · rename_i hzero
    simp [hzero, takeBytes]
  · rw [if_neg (by omega)]

theorem readLoop_ended (reqLen timeout : Nat) {passes : List Pass} {r : Reading}
    (h : r.network.buffer.Represents items) (hframe : Frame n r.network)
    (hcounter : r.dgmLen = r.network.bytesAvail) (hcounted : r.network.bytesAvail ≤ items.length)
    (hgot : r.data.length ≤ reqLen)
    (hlines : ∀ p ∈ passes, ∀ line ∈ p.lines, n.Truthful line)
    (hroom : items.length + (passes.flatMap fun p => n.datagrams p.lines).flatten.length ≤ 512) :
    ∃ r' items', readLoop reqLen timeout passes r = some r' ∧
      Ended n reqLen r items
        (n.rounds reqLen timeout r.network.bytesAvail r.data.length passes) r' items' := by
  induction passes generalizing r items with
  | nil => exact ⟨r, items, rfl, .none h hframe hcounter hcounted hgot⟩
  | cons p passes ih =>
    by_cases hentered : readInterval < min timeout p.remaining ∧ r.data.length < reqLen
    · rw [rounds, if_pos hentered]
      dsimp only
      rw [List.flatMap_cons, List.flatten_append, List.length_append] at hroom
      obtain ⟨n₁, hn₁, htakes⟩ := handleLines_takes h
        (fun line hline => hframe.truthful (hlines p List.mem_cons_self line hline))
        (by rw [hframe.datagrams]; omega)
      rw [hframe.datagrams] at htakes
      obtain ⟨hle, -⟩ := countAfter_eq_iff hcounted (n.datagrams p.lines)
      have hrepresents := htakes.represents
      have havail := htakes.bytesAvail
      have hframe₁ := hframe.trans htakes.frame
      rw [hframe.octets] at hrepresents
      have hlength : (items ++ n.octets (n.datagrams p.lines).flatten).length =
          items.length + (n.datagrams p.lines).flatten.length := by
        rw [List.length_append, length_octets]
      have hip : n₁.ipAvailable = countAfter r.network.bytesAvail (n.datagrams p.lines) := by
        rw [ipAvailable, havail, Nat.mod_eq_of_lt (by omega)]
      by_cases henough :
          reqLen ≤ r.data.length + countAfter r.network.bytesAvail (n.datagrams p.lines)
      · -- the loop ends with what is counted
        rw [if_pos henough]
        refine ⟨_, _, ?_, .last hrepresents hframe₁ havail hcounted hgot henough⟩
        rw [readLoop_last hentered hn₁ (hip ▸ henough), hip]
      · -- what is counted is taken, and the loop goes on
        rw [if_neg henough, readLoop_next hentered hn₁ (hip ▸ henough), hip]
        obtain ⟨hgiven, hrest, hnone⟩ := takeBytes_counted hrepresents (havail.trans_le (hlength ▸ hle))
        rw [havail] at hgiven hrest hnone
        generalize hcount : countAfter r.network.bytesAvail (n.datagrams p.lines) = count at *
        have htaken : (r.data ++ (n₁.takeBytes count).1).length = r.data.length + count := by
          rw [hgiven, List.length_append, List.length_take]
          omega
        have hgot₁ : (r.data ++ (n₁.takeBytes count).1).length ≤ reqLen := by omega
        obtain ⟨r', items', hr', hended⟩ := ih
          (r := ⟨(n₁.takeBytes count).2, 0, r.data ++ (n₁.takeBytes count).1⟩) hrest
          (hframe₁.trans (takeBytes_frame count n₁).1) hnone.symm (hnone.trans_le (Nat.zero_le _))
          hgot₁ (fun q hq => hlines q (List.mem_cons_of_mem _ hq))
          (by rw [List.length_drop, hlength]; omega)
        rw [hnone, htaken] at hended
        refine ⟨r', items', hr', hended.round ?_ rfl hnone hcounted ?_⟩
        · rw [hgiven, List.append_assoc, List.take_append_drop, List.append_assoc]
        · rw [hcount, List.length_drop, hlength]
          omega
    · rw [readLoop, rounds, if_neg hentered, if_neg hentered]
      exact ⟨r, items, rfl, .none h hframe hcounter hcounted hgot⟩

/-! ## The rest -/

/-- The last bytes of a read, when it does not ask for more than is counted. -/
theorem readRest_order (reqLen : Nat) {r : Reading} (h : r.network.buffer.Represents items)
    (hcounter : r.dgmLen = r.network.bytesAvail) (hcounted : r.network.bytesAvail ≤ items.length)
    (hgot : r.data.length ≤ reqLen)
    (henough : 0 < r.dgmLen → r.data.length < reqLen → reqLen ≤ r.data.length + r.dgmLen) :
    ∃ rest, (readRest reqLen r).1 ++ rest = r.data ++ items ∧
      (readRest reqLen r).2.buffer.Represents rest ∧ (readRest reqLen r).1.length ≤ reqLen ∧
      (readRest reqLen r).2.bytesAvail + items.length = r.network.bytesAvail + rest.length := by
  unfold readRest
  split
  · rename_i hmore
    have henough := henough hmore.1 hmore.2
    have hwanted : reqLen - r.data.length ≤ r.network.bytesAvail := by omega
    obtain ⟨hrest, hgiven⟩ := takeBytes_represents (n := { r.network with
      history := r.network.history.log (.lastBytes r.dgmLen (reqLen - r.data.length)) }) h
      (reqLen - r.data.length)
    have hdown := takeBytes_bytesAvail (n := { r.network with
      history := r.network.history.log (.lastBytes r.dgmLen (reqLen - r.data.length)) }) hwanted
    have hgiven := hgiven (by omega)
    dsimp only at hrest hgiven hdown ⊢
    refine ⟨items.drop (reqLen - r.data.length), ?_, hrest, ?_, ?_⟩
    · rw [hgiven, List.append_assoc, List.take_append_drop]
    · rw [List.length_append, hgiven, List.length_take]
      omega
    · rw [hdown, List.length_drop]
      omega
  · exact ⟨items, rfl, h, hgot, rfl⟩

/-- The bytes that come in during a read. -/
def arrived (n : Bc95Network) (len timeout : Nat) (passes : List Pass) : List Octet :=
  n.octets (n.rounds len timeout n.bytesAvail 0 passes).flatten.flatten

theorem length_takeBytes (count : Nat) (n : Bc95Network) : (n.takeBytes count).1.length = count := by
  induction count generalizing n with
  | zero => rfl
  | succ count ih =>
    rw [takeBytes]
    exact congrArg (· + 1) (ih _)

/-- The rest is filled up to what is asked for, however many bytes there are. -/
theorem length_readRest {reqLen : Nat} {r : Reading} (hpos : 0 < r.dgmLen)
    (hmore : r.data.length < reqLen) : (readRest reqLen r).1.length = reqLen := by
  rw [readRest, if_pos ⟨hpos, hmore⟩]
  dsimp only
  rw [List.length_append, length_takeBytes]
  omega

/-- A read is its loop and the rest. -/
theorem read_of_readLoop {len : Int} {timeout : Nat} {passes : List Pass} {r : Reading}
    (hlen : 0 ≤ len)
    (h : readLoop len.toNat timeout passes ⟨n, n.ipAvailable, []⟩ = some r) :
    n.read len timeout passes = some (((readRest len.toNat r).1.length : Int),
      (readRest len.toNat r).1, { (readRest len.toNat r).2 with
        history := (readRest len.toNat r).2.history.log
          (.delivered (readRest len.toNat r).2.history.opened (readRest len.toNat r).1) }) := by
  rw [read, if_neg (by omega), h]
  rfl

/-- A read delivers no more than is asked for, the oldest of the bytes that are
there or come in, and the others are left and counted. -/
def ReadsOldest (n : Bc95Network) (items : List Octet) (len : Int) (timeout : Nat)
    (passes : List Pass) : Prop :=
  ∃ octets rest n', n.read len timeout passes = some ((octets.length : Int), octets, n') ∧
    (octets.length : Int) ≤ len ∧ octets ++ rest = items ++ n.arrived len.toNat timeout passes ∧
    n'.buffer.Represents rest ∧ n'.bytesAvail = rest.length

/-- A read that is too late for its loop fills up what is asked for from a buffer that
holds fewer bytes. -/
theorem not_readsOldest_of_late {len : Int} {timeout : Nat} {passes : List Pass} (hlen : 0 ≤ len)
    (hloop : readLoop len.toNat timeout passes ⟨n, n.ipAvailable, []⟩ =
      some ⟨n, n.ipAvailable, []⟩)
    (hnone : n.rounds len.toNat timeout n.bytesAvail 0 passes = [])
    (hpos : 0 < n.ipAvailable) (hshort : (items.length : Int) < len) :
    ¬ReadsOldest n items len timeout passes := by
  rintro ⟨got, rest, n', hsome, -, horder, -⟩
  rw [read_of_readLoop hlen hloop] at hsome
  have hall : got.length = len.toNat := by
    have hgot := congrArg (fun x => x.2.1.length) (Option.some.inj hsome)
    exact hgot.symm.trans (length_readRest hpos (by dsimp only [List.length_nil]; omega))
  have hlength := congrArg List.length horder
  simp [arrived, hnone, octets] at hlength
  omega

/-- **A read invents no bytes** and keeps count exactly if in every round of its
loop nothing is waiting when the last datagram comes in, and if it does not ask for
more than there is when it is too late for the loop. -/
theorem readsOldest_iff (n : Bc95Network) (items : List Octet) (len : Int) (timeout : Nat)
    (passes : List Pass) (hlen : 0 ≤ len) (hitems : n.buffer.Represents items)
    (hcount : n.bytesAvail = items.length)
    (hlines : ∀ p ∈ passes, ∀ line ∈ p.lines, n.Truthful line)
    (hroom : items.length + (passes.flatMap fun p => n.datagrams p.lines).flatten.length ≤ 512) :
    ReadsOldest n items len timeout passes ↔
      Separate items.length (n.rounds len.toNat timeout n.bytesAvail 0 passes) ∧
        ¬(n.rounds len.toNat timeout n.bytesAvail 0 passes = [] ∧ 0 < items.length ∧
          (items.length : Int) < len) := by
  have hip : n.ipAvailable = n.bytesAvail := by
    have hle := hitems.length_le
    rw [ipAvailable, Nat.mod_eq_of_lt (by omega)]
  obtain ⟨r, items', hr, hended⟩ := readLoop_ended len.toNat timeout
    (r := ⟨n, n.ipAvailable, []⟩) hitems (.refl n) hip hcount.le (Nat.zero_le _) hlines hroom
  have hread := read_of_readLoop hlen hr
  have hcounter : r.dgmLen = r.network.bytesAvail := hended.counter
  have hidle := hended.idle
  have henough := hended.enough
  generalize hrounds : n.rounds len.toNat timeout n.bytesAvail 0 passes = rounds at *
  by_cases hlate : rounds = [] ∧ 0 < items.length ∧ (items.length : Int) < len
  · obtain ⟨hnone, hpos, hshort⟩ := hlate
    have hnot : ¬ReadsOldest n items len timeout passes := by
      rw [hidle hnone] at hr
      exact not_readsOldest_of_late hlen hr (hrounds.trans hnone) (by omega) hshort
    exact iff_of_false hnot fun h => h.2 ⟨hnone, hpos, hshort⟩
  · -- what is asked for behind the loop is there
    have hthere : 0 < r.dgmLen → r.data.length < len.toNat →
        len.toNat ≤ r.data.length + r.dgmLen := by
      intro hpos hmore
      by_cases hnone : rounds = []
      · rw [hidle hnone] at hpos hmore ⊢
        dsimp only [List.length_nil] at hpos hmore ⊢
        have hfew : ¬(0 < items.length ∧ (items.length : Int) < len) := fun h => hlate ⟨hnone, h⟩
        omega
      · have hround := henough hnone
        omega
    obtain ⟨rest, horder, hrest, hle, hleft⟩ := readRest_order len.toNat hended.represents hcounter
      hended.counted hended.got hthere
    have hexact := hended.exact
    rw [hended.order] at horder
    constructor
    · rintro ⟨got, rest', n', hsome, -, -, hrest', hcount'⟩
      rw [hread] at hsome
      obtain rfl : _ = n' := congrArg (fun x => x.2.2) (Option.some.inj hsome)
      have hsame : rest'.length = rest.length := hrest'.size_eq.symm.trans hrest.size_eq
      dsimp only at hcount'
      exact ⟨(hexact.1 (by omega)).2, hlate⟩
    · rintro ⟨hsep, -⟩
      refine ⟨_, rest, _, hread, by omega, ?_, hrest, ?_⟩
      · rw [horder, arrived, hrounds]
        rfl
      · have hsame := hexact.2 ⟨hcount, hsep⟩
        dsimp only
        omega

/-- Two bytes are waiting, and a datagram comes in after they have been taken. -/
theorem readsOldest_iff_two :
    ∃ n, run (fresh (List.replicate 512 .unknown))
        [.connect [104] 1883 { response := [48] }, .urc [datagramLine 0 [7, 8]]] = some n ∧
      (ReadsOldest n [⟨7, some 1⟩, ⟨8, some 1⟩] 3 1000 [⟨1000, []⟩, ⟨700, [datagramLine 0 [9]]⟩] ↔
        Separate 2 (n.rounds 3 1000 n.bytesAvail 0 [⟨1000, []⟩, ⟨700, [datagramLine 0 [9]]⟩]) ∧
          ¬(n.rounds 3 1000 n.bytesAvail 0 [⟨1000, []⟩, ⟨700, [datagramLine 0 [9]]⟩] = [] ∧
            0 < 2 ∧ (2 : Int) < 3)) :=
  ⟨_, rfl, readsOldest_iff _ _ _ _ _ (by decide)
    ⟨by decide +kernel, by decide +kernel, by decide, by decide +kernel, by decide +kernel,
      by decide +kernel⟩ (by decide +kernel) (by decide +kernel) (by decide +kernel)⟩

/-- More bytes than there are can not be the oldest ones. -/
theorem not_readsOldest_of_lt {n : Bc95Network} {items : List Octet} {len : Int} {timeout : Nat}
    {passes : List Pass} (h : (n.read len timeout passes).any fun r =>
      decide (items.length + (n.arrived len.toNat timeout passes).length < r.1.toNat)) :
    ¬ReadsOldest n items len timeout passes := by
  rintro ⟨got, rest, n', hread, -, horder, -⟩
  rw [hread] at h
  have hmore := of_decide_eq_true h
  have hlength := congrArg List.length horder
  rw [List.length_append, List.length_append] at hlength
  dsimp only at hmore
  omega

/-- One byte is waiting, and a read that is too late for its loop delivers two. -/
theorem not_readsOldest_late :
    ∃ n, run (fresh (List.replicate 512 .unknown))
        [.connect [104] 1883 { response := [48] }, .urc [datagramLine 0 [7]]] = some n ∧
      n.buffer.Represents [⟨7, some 1⟩] ∧ n.bytesAvail = 1 ∧
      ¬ReadsOldest n [⟨7, some 1⟩] 2 250 [⟨250, []⟩] := by
  refine ⟨_, rfl, ⟨by decide +kernel, by decide +kernel, by decide, by decide +kernel,
    by decide +kernel, by decide +kernel⟩, by decide +kernel, ?_⟩
  exact not_readsOldest_of_lt (by decide +kernel)

end Bc95Network

end LibNbiot
