/-
# What reads of the BG96 deliver

A read asks the modem for as many bytes as it has none of yet, and takes out of the
ring buffer as many as it was asked for. As long as the modem answers with no more
than it is asked for, a read therefore leaves the buffer empty, there is always
room, and over any run of calls the delivered bytes are the received ones in their
order.
-/

import LibNbiot.Modem.Bg96Receiving

namespace LibNbiot

namespace Bg96Network

variable {n n' : Bg96Network} {items : List Octet}

/-! ## What a read receives -/

/-- The octets that come in with the answer to a command for data. -/
def received (n : Bg96Network) (x : DataExchange) : List Octet :=
  if x.sent then
    let avail := if x.ok then announced x.response else -1
    (x.raw.take avail.toNat).filterMap fun c => c.map fun c => ⟨c, some n.history.attempts⟩
  else []

/-- The commands for data of the loop of a read: the number of bytes that are asked for,
and the answer. -/
def loopAsks (reqLen timeout : Nat) : List DataPass → Nat → Bg96Network → List (Int × DataExchange)
  | [], _, _ => []
  | p :: passes, bytes, n =>
      if readInterval < min timeout p.remaining ∧ n.readBuffer.size < reqLen then
        let n := n.handleLines p.lines
        if n.bytesAvail ≠ 0 then
          let (rb, n) := n.ipRead (reqLen - bytes) p.answer
          (reqLen - bytes, p.answer) ::
            loopAsks reqLen timeout passes (bytes + rb) { n with bytesAvail := 0 }
        else loopAsks reqLen timeout passes bytes n
      else []

/-- What is asked for before the loop, unless the modem has told of data. -/
def firstAsks (n : Bg96Network) (reqLen : Nat) (first : DataExchange) : List (Int × DataExchange) :=
  if n.bytesAvail = 0 then [(reqLen, first)] else []

/-- What was asked first, and the object after. -/
def askFirst (n : Bg96Network) (reqLen : Nat) (first : DataExchange) : Nat × Bg96Network :=
  if n.bytesAvail = 0 then
    let (rb, n) := n.ipRead reqLen first
    (rb, { n with bytesAvail := 0 })
  else (0, n)

/-- The commands for data of a read. -/
def asks (n : Bg96Network) (len : Int) (timeout : Nat) (first : DataExchange)
    (passes : List DataPass) : List (Int × DataExchange) :=
  n.firstAsks len.toNat first ++
    loopAsks len.toNat timeout passes (n.readBuffer.size + (n.askFirst len.toNat first).1)
      (n.askFirst len.toNat first).2

/-- No answer carries more than was asked for. -/
def Modest (n : Bg96Network) (asks : List (Int × DataExchange)) : Prop :=
  ∀ ask ∈ asks, ((n.received ask.2).length : Int) ≤ ask.1

instance (n : Bg96Network) (asks : List (Int × DataExchange)) : Decidable (n.Modest asks) :=
  inferInstanceAs (Decidable (∀ ask ∈ asks, _))

/-- All octets that come in with some answers. -/
def arrivals (n : Bg96Network) (asks : List (Int × DataExchange)) : List Octet :=
  asks.flatMap fun ask => n.received ask.2

theorem received_congr (h : n'.history = n.history) : n'.received = n.received := by
  funext x
  rw [received, received, h]

theorem modest_congr (h : n'.history = n.history) {asks : List (Int × DataExchange)} :
    n'.Modest asks ↔ n.Modest asks := by
  rw [Modest, Modest, received_congr h]

theorem arrivals_congr (h : n'.history = n.history) (asks : List (Int × DataExchange)) :
    n'.arrivals asks = n.arrivals asks := by
  rw [arrivals, arrivals, received_congr h]

theorem arrivals_append (n : Bg96Network) (asks asks' : List (Int × DataExchange)) :
    n.arrivals (asks ++ asks') = n.arrivals asks ++ n.arrivals asks' := List.flatMap_append

/-! ## The buffer takes what comes in -/

/-- Octets are put behind those in the buffer, and nothing else happens to it. -/
structure Takes (n n' : Bg96Network) (items octets : List Octet) : Prop where
  represents : n'.readBuffer.Represents (items ++ octets)
  history : n'.history = n.history

theorem Takes.of_eq (h : n.readBuffer.Represents items) (hbuffer : n'.readBuffer = n.readBuffer)
    (hhistory : n'.history = n.history) : Takes n n' items [] :=
  ⟨by rw [hbuffer, List.append_nil]; exact h, hhistory⟩

theorem Takes.trans {n₁ n₂ : Bg96Network} {octets octets' : List Octet}
    (h : Takes n n₁ items octets) (h' : Takes n₁ n₂ (items ++ octets) octets') :
    Takes n n₂ items (octets ++ octets') :=
  ⟨by rw [← List.append_assoc]; exact h'.represents, h'.history.trans h.history⟩

theorem handleLines_readBuffer (n : Bg96Network) (lines : List Bytes) :
    (n.handleLines lines).readBuffer = n.readBuffer := by
  obtain ⟨bytesAvail, hlines⟩ := n.handleLines_eq lines
  rw [hlines]

theorem handleLines_takes (h : n.readBuffer.Represents items) (lines : List Bytes) :
    Takes n (n.handleLines lines) items [] := by
  obtain ⟨bytesAvail, hlines⟩ := n.handleLines_eq lines
  rw [hlines]
  exact .of_eq h rfl rfl

/-- The octets of the bytes that come in, where some do not. -/
def octetsOf (n : Bg96Network) (raw : List (Option UInt8)) : List Octet :=
  raw.filterMap fun c => c.map fun c => ⟨c, some n.history.attempts⟩

/-- With room for them all, the bytes that come in are behind those in the buffer. -/
theorem collect_takes (h : n.readBuffer.Represents items) (raw : List (Option UInt8))
    (hroom : items.length + (n.octetsOf raw).length ≤ 256) :
    (n.collect raw).1 = (n.octetsOf raw).length ∧
      Takes n (n.collect raw).2 items (n.octetsOf raw) := by
  induction raw generalizing n items with
  | nil => exact ⟨rfl, .of_eq h rfl rfl⟩
  | cons c raw ih =>
    cases c with
    | none => exact ih h hroom
    | some c =>
      let o : Octet := ⟨c, some n.history.attempts⟩
      let n₁ : Bg96Network := { n with readBuffer := (n.readBuffer.putByte o).2 }
      have hcons : n.octetsOf (some c :: raw) = o :: n₁.octetsOf raw := rfl
      rw [hcons, List.length_cons] at hroom
      have hput := h.putByte o
      rw [if_pos (by omega)] at hput
      have hfirst : Takes n n₁ items [o] := ⟨hput.2, rfl⟩
      obtain ⟨hcount, hrest⟩ := ih hfirst.represents
        (by rw [List.length_append, List.length_singleton]; omega)
      rw [hcons]
      refine ⟨?_, hfirst.trans hrest⟩
      rw [List.length_cons, ← hcount]
      rfl

/-- A command for data brings what is received, if there is room. -/
theorem ipRead_takes (h : n.readBuffer.Represents items) (len : Int) (x : DataExchange)
    (hroom : items.length + (n.received x).length ≤ 256) :
    (n.ipRead len x).1 = (n.received x).length ∧
      Takes n (n.ipRead len x).2 items (n.received x) := by
  unfold ipRead
  dsimp only
  generalize hsent : n.sendCommand _ = sent
  have hstart : Takes n sent items [] := by
    rw [← hsent]
    exact .of_eq h rfl rfl
  have hitems : sent.readBuffer.Represents items := by
    have hstart := hstart.represents
    rwa [List.append_nil] at hstart
  split
  · rename_i hx
    have hbefore := hstart.trans (handleLines_takes hstart.represents x.before)
    have hreceived : n.received x = (sent.handleLines x.before).octetsOf
        (x.raw.take (if x.ok then announced x.response else -1).toNat) := by
      rw [received, if_pos hx, octetsOf, hbefore.history]
    rw [hreceived] at hroom ⊢
    obtain ⟨hcount, htaken⟩ := collect_takes hbefore.represents _
      (by rw [List.append_nil, List.append_nil]; exact hroom)
    have hall := hbefore.trans htaken
    have hafter := hall.trans (handleLines_takes hall.represents x.after)
    rw [List.append_nil] at hafter
    exact ⟨hcount, hafter⟩
  · rename_i hx
    have hnone : n.received x = [] := if_neg hx
    rw [hnone]
    exact ⟨rfl, hstart.trans (handleLines_takes hstart.represents x.after)⟩

/-! ## A read -/

/-- What is asked for before the loop. -/
theorem askFirst_takes (h : n.readBuffer.Represents []) {reqLen : Nat} (hlen : reqLen ≤ 256)
    {first : DataExchange} (hmodest : n.Modest (n.firstAsks reqLen first)) :
    (n.askFirst reqLen first).1 = (n.arrivals (n.firstAsks reqLen first)).length ∧
      (n.arrivals (n.firstAsks reqLen first)).length ≤ reqLen ∧
      Takes n (n.askFirst reqLen first).2 [] (n.arrivals (n.firstAsks reqLen first)) := by
  unfold askFirst
  unfold firstAsks at hmodest ⊢
  by_cases hnone : n.bytesAvail = 0
  · rw [if_pos hnone] at hmodest ⊢
    have hle : ((n.received first).length : Int) ≤ reqLen := hmodest _ List.mem_cons_self
    obtain ⟨hcount, htaken⟩ := ipRead_takes h reqLen first (by rw [List.length_nil]; omega)
    have hone : n.arrivals [((reqLen : Int), first)] = n.received first := List.flatMap_singleton _ _
    rw [if_pos hnone, hone]
    exact ⟨hcount, by omega, htaken.represents, htaken.history⟩
  · rw [if_neg hnone, if_neg hnone]
    exact ⟨rfl, Nat.zero_le _, .of_eq h rfl rfl⟩

/-- The loop ends with all octets counted that came in, and no more of them than are
asked for. -/
structure LoopTakes (n : Bg96Network) (reqLen : Nat) (items octets : List Octet)
    (result : Nat × Bg96Network) : Prop where
  count : result.1 = items.length + octets.length
  bound : items.length + octets.length ≤ reqLen
  takes : Takes n result.2 items octets

/-- Octets that came in before the loop goes on. -/
theorem LoopTakes.behind {n₁ : Bg96Network} {reqLen : Nat} {octets later : List Octet}
    {result : Nat × Bg96Network} (hfirst : Takes n n₁ items octets)
    (h : LoopTakes n₁ reqLen (items ++ octets) later result) :
    LoopTakes n reqLen items (octets ++ later) result := by
  have hlength : items.length + (octets ++ later).length =
      (items ++ octets).length + later.length := by
    rw [List.length_append, List.length_append, Nat.add_assoc]
  constructor
  · rw [h.count, hlength]
  · rw [hlength]
    exact h.bound
  · exact hfirst.trans h.takes

/-- The loop asks for what is missing, so that the buffer holds no more than is asked
for when it ends. -/
theorem readLoop_takes {reqLen timeout : Nat} (hlen : reqLen ≤ 256) (passes : List DataPass)
    (h : n.readBuffer.Represents items) (hle : items.length ≤ reqLen)
    (hmodest : n.Modest (loopAsks reqLen timeout passes items.length n)) :
    LoopTakes n reqLen items (n.arrivals (loopAsks reqLen timeout passes items.length n))
      (readLoop reqLen timeout passes items.length n) := by
  induction passes generalizing n items with
  | nil => exact ⟨rfl, hle, .of_eq h rfl rfl⟩
  | cons p passes ih =>
    rw [readLoop]
    rw [loopAsks] at hmodest ⊢
    by_cases hgo : readInterval < min timeout p.remaining ∧ n.readBuffer.size < reqLen
    · rw [if_pos hgo] at hmodest ⊢
      rw [if_pos hgo]
      have hlines := handleLines_takes h p.lines
      by_cases htold : (n.handleLines p.lines).bytesAvail ≠ 0
      · -- the modem is asked for what is missing
        simp only [if_pos htold] at hmodest ⊢
        have hcarried : ((n.received p.answer).length : Int) ≤ reqLen - items.length :=
          hmodest _ List.mem_cons_self
        have hsame : (n.handleLines p.lines).received p.answer = n.received p.answer := by
          rw [received_congr hlines.history]
        obtain ⟨hcount, htaken⟩ := ipRead_takes hlines.represents (reqLen - items.length) p.answer
          (by rw [List.append_nil, hsame]; omega)
        rw [hsame] at hcount htaken
        have hfirst : Takes n { ((n.handleLines p.lines).ipRead (reqLen - items.length) p.answer).2
            with bytesAvail := 0 } items (n.received p.answer) := by
          have hall := hlines.trans htaken
          exact ⟨hall.represents, hall.history⟩
        rw [hcount, ← List.length_append] at hmodest ⊢
        have hrest := (modest_congr hfirst.history).2
          fun ask hask => hmodest ask (List.mem_cons_of_mem _ hask)
        have hended := ih hfirst.represents (by rw [List.length_append]; omega) hrest
        rw [arrivals_congr hfirst.history] at hended
        exact hended.behind hfirst
      · simp only [if_neg htold] at hmodest ⊢
        have hitems := hlines.represents
        rw [List.append_nil] at hitems
        rw [← modest_congr hlines.history] at hmodest
        have hended := ih hitems hle hmodest
        rw [arrivals_congr hlines.history] at hended
        exact ⟨hended.count, hended.bound, hended.takes.represents,
          hended.takes.history.trans hlines.history⟩
    · rw [if_neg hgo, if_neg hgo]
      exact ⟨rfl, hle, .of_eq h rfl rfl⟩

/-- What is served are the oldest octets of the buffer. -/
theorem serve_takes (h : n.readBuffer.Represents items) (count : Nat) :
    (n.serve count).1 = items.take count ∧
      (n.serve count).2.readBuffer.Represents (items.drop count) := by
  induction count generalizing n items with
  | zero => exact ⟨rfl, h⟩
  | succ count ih =>
    have hget := h.getByte
    rw [serve]
    cases items with
    | nil =>
      rw [if_neg (by simp)] at hget
      rw [hget]
      exact ⟨rfl, h⟩
    | cons o items =>
      rw [if_pos (by simp)] at hget
      obtain ⟨hgiven, hrest⟩ := hget
      split
      · rename_i octets buffer heq
        rw [heq] at hgiven hrest
        obtain rfl := Option.some.inj hgiven
        obtain ⟨hserved, hleft⟩ := @ih { n with readBuffer := buffer } _ hrest
        refine ⟨?_, hleft⟩
        dsimp only
        rw [hserved]
        rfl
      · rename_i heq
        rw [heq] at hgiven
        cases hgiven

/-- The end of a read: what is in the buffer is served, if something was counted. -/
def finish (reqLen : Nat) (ended : Nat × Bg96Network) : Int × List Octet × Bg96Network :=
  if 0 < ended.1 then
    let (octets, n) := ended.2.serve reqLen
    (octets.length, octets, { n with history := n.history.log (.delivered n.history.opened octets) })
  else (-1, [], ended.2)

theorem read_eq (n : Bg96Network) {len : Int} (hneg : ¬len < 0) (timeout : Nat)
    (first : DataExchange) (passes : List DataPass) :
    n.read len timeout first passes =
      finish len.toNat (readLoop len.toNat timeout passes
        (n.readBuffer.size + (n.askFirst len.toNat first).1) (n.askFirst len.toNat first).2) := by
  unfold read askFirst finish
  simp only [if_neg hneg]

/-- A read has delivered these octets and left the buffer empty. -/
structure Delivers (octets : List Octet) (answer : Int × List Octet × Bg96Network) : Prop where
  count : answer.1 = if octets = [] then -1 else (octets.length : Int)
  data : answer.2.1 = octets
  empty : answer.2.2.readBuffer.Represents []

theorem finish_delivers {reqLen : Nat} {ended : Nat × Bg96Network}
    (h : ended.2.readBuffer.Represents items) (hcount : ended.1 = items.length)
    (hle : items.length ≤ reqLen) : Delivers items (finish reqLen ended) := by
  obtain ⟨hserved, hleft⟩ := serve_takes h reqLen
  rw [List.take_of_length_le hle] at hserved
  rw [List.drop_eq_nil_of_le hle] at hleft
  unfold finish
  split
  · rename_i hsome
    have hne : items ≠ [] := List.ne_nil_of_length_pos (by omega)
    refine ⟨?_, hserved, hleft⟩
    dsimp only
    rw [hserved, if_neg hne]
  · rename_i hnone
    have hnil : items = [] := List.eq_nil_of_length_eq_zero (by omega)
    rw [hnil] at h ⊢
    exact ⟨rfl, rfl, h⟩

/-- **What a read delivers** when nothing is in the buffer: all that it receives, and
the buffer is empty again. -/
theorem read_delivers (h : n.readBuffer.Represents []) {len : Int} (hpos : 1 ≤ len)
    (hlen : len ≤ 256) {timeout : Nat} {first : DataExchange} {passes : List DataPass}
    (hmodest : n.Modest (n.asks len timeout first passes)) :
    ((n.arrivals (n.asks len timeout first passes)).length : Int) ≤ len ∧
      Delivers (n.arrivals (n.asks len timeout first passes))
        (n.read len timeout first passes) := by
  have hreq : len.toNat ≤ 256 := by omega
  have hbytes : n.readBuffer.size + (n.askFirst len.toNat first).1 =
      (n.askFirst len.toNat first).1 := by rw [h.size_eq, List.length_nil, Nat.zero_add]
  rw [asks, hbytes] at hmodest ⊢
  obtain ⟨hearly, hlate⟩ := List.forall_mem_append.1 hmodest
  obtain ⟨hcount, hle, hfirst⟩ := askFirst_takes h hreq hearly
  have hlate := (modest_congr hfirst.history).2 hlate
  rw [hcount] at hlate
  obtain ⟨hended, hbound, hloop⟩ := readLoop_takes hreq passes hfirst.represents hle hlate
  rw [List.nil_append, arrivals_congr hfirst.history] at hended hbound hloop
  rw [← List.length_append] at hended hbound
  rw [arrivals_append, read_eq n (by omega), hbytes, hcount]
  exact ⟨by omega, finish_delivers hloop.represents hended hbound⟩

/-! ## Runs -/

/-- What comes in during a call. -/
def receivedBy (n : Bg96Network) : Call → List Octet
  | .read len timeout first passes => n.arrivals (n.asks len timeout first passes)
  | _ => []

/-- What a call delivers. -/
def deliveredBy (n : Bg96Network) : Call → List Octet
  | .read len timeout first passes => (n.read len timeout first passes).2.1
  | _ => []

/-- All that comes in during some calls. -/
def receivedIn (n : Bg96Network) : List Call → List Octet
  | [] => []
  | call :: calls => n.receivedBy call ++ receivedIn (n.exec call) calls

/-- All that some calls deliver. -/
def deliveredIn (n : Bg96Network) : List Call → List Octet
  | [] => []
  | call :: calls => n.deliveredBy call ++ deliveredIn (n.exec call) calls

/-- A read of as many bytes as the buffer has room for at most, to which the modem
answers with no more than it is asked for. -/
def FairCall (n : Bg96Network) : Call → Prop
  | .read len timeout first passes =>
      (1 ≤ len ∧ len ≤ 256) ∧ n.Modest (n.asks len timeout first passes)
  | _ => True

/-- All calls are such. -/
def Fair (n : Bg96Network) : List Call → Prop
  | [] => True
  | call :: calls => n.FairCall call ∧ Fair (n.exec call) calls

theorem receivedIn_append (n : Bg96Network) (calls calls' : List Call) :
    n.receivedIn (calls ++ calls') = n.receivedIn calls ++ (n.run calls).receivedIn calls' := by
  induction calls generalizing n with
  | nil => rfl
  | cons call calls ih =>
    rw [List.cons_append, receivedIn, receivedIn, ih, List.append_assoc]
    rfl

theorem fair_append (n : Bg96Network) (calls calls' : List Call) :
    n.Fair (calls ++ calls') ↔ n.Fair calls ∧ (n.run calls).Fair calls' := by
  induction calls generalizing n with
  | nil => exact (and_iff_right trivial).symm
  | cons call calls ih =>
    rw [List.cons_append, Fair, Fair, ih, and_assoc]
    rfl

theorem connect_readBuffer (n : Bg96Network) (hostname : Bytes) (port : Nat) (x : OpenExchange) :
    (n.connect hostname port x).2.readBuffer = n.readBuffer := by
  obtain ⟨n₁, hconnects⟩ := n.connect_connects hostname port x
  rw [hconnects.after]
  split <;> exact hconnects.readBuffer

theorem disconnect_readBuffer (n : Bg96Network) (x : Exchange) :
    (n.disconnect x).2.readBuffer = n.readBuffer := by
  have hasked : (n.askToClose x).readBuffer = n.readBuffer := by
    unfold askToClose
    split
    · dsimp only
      split
      · rw [handleLines_readBuffer]
        rfl
      · rfl
    · rfl
  unfold disconnect
  dsimp only
  rw [handleLines_readBuffer]
  split
  · exact hasked
  · exact hasked

theorem write_readBuffer (n : Bg96Network) (data : Bytes) (x : Exchange) :
    (n.write data x).2.readBuffer = n.readBuffer := by
  unfold write sendData
  dsimp only
  rw [handleLines_readBuffer]
  split
  · split
    · rw [handleLines_readBuffer]
      rfl
    · rfl
  · rfl

/-- A call leaves the buffer empty, and delivers what it receives. -/
theorem exec_delivers (h : n.readBuffer.Represents []) {call : Call} (hfair : n.FairCall call) :
    (n.exec call).readBuffer.Represents [] ∧ n.deliveredBy call = n.receivedBy call := by
  cases call with
  | connect hostname port x => exact ⟨(n.connect_readBuffer hostname port x).symm ▸ h, rfl⟩
  | disconnect x => exact ⟨(n.disconnect_readBuffer x).symm ▸ h, rfl⟩
  | write data x => exact ⟨(n.write_readBuffer data x).symm ▸ h, rfl⟩
  | read len timeout first passes =>
    obtain ⟨⟨hpos, hlen⟩, hmodest⟩ := hfair
    obtain ⟨-, hdelivers⟩ := read_delivers h hpos hlen hmodest
    exact ⟨hdelivers.empty, hdelivers.data⟩
  | urc lines => exact ⟨(n.handleLines_readBuffer lines).symm ▸ h, rfl⟩

/-- So does a run of calls. -/
theorem run_delivers (h : n.readBuffer.Represents []) {calls : List Call} (hfair : n.Fair calls) :
    (n.run calls).readBuffer.Represents [] ∧ n.deliveredIn calls = n.receivedIn calls := by
  induction calls generalizing n with
  | nil => exact ⟨h, rfl⟩
  | cons call calls ih =>
    obtain ⟨hfirst, hrest⟩ := hfair
    obtain ⟨hempty, hsame⟩ := exec_delivers h hfirst
    obtain ⟨hempty', hsame'⟩ := ih hempty hrest
    refine ⟨hempty', ?_⟩
    rw [deliveredIn, receivedIn, hsame, hsame']

/-- The octets that have been received by the end of a read and not delivered before it. -/
def undelivered (n : Bg96Network) (before : List Call) (read : Call) : List Octet :=
  (n.receivedIn (before ++ [read])).drop (n.deliveredIn before).length

/-- What has been delivered and what is in the buffer is what has been received, and
every read answers -1 or delivers the oldest octets that were not delivered before. -/
structure StreamKept (n : Bg96Network) (calls : List Call) : Prop where
  conserved : ∃ items, (n.run calls).readBuffer.Represents items ∧
    n.deliveredIn calls ++ items = n.receivedIn calls
  oldest : ∀ before len timeout first passes after,
    calls = before ++ .read len timeout first passes :: after →
    let answer := (n.run before).read len timeout first passes
    answer.1 = -1 ∧ answer.2.1 = [] ∨
      ∃ count : Nat, answer.1 = count ∧ (count : Int) ≤ len ∧ answer.2.1.length = count ∧
        answer.2.1 = (n.undelivered before (.read len timeout first passes)).take count

theorem fresh_represents {array : List Octet} (h : array.length = 256) :
    (fresh array).readBuffer.Represents [] :=
  CircularBuffer.reset_represents (b := ⟨array, 0, 0, false⟩) h (by decide)

/-- A read behind a run of fair calls. -/
theorem read_oldest (h : n.readBuffer.Represents []) {before : List Call} {len : Int}
    {timeout : Nat} {first : DataExchange} {passes : List DataPass} (hbefore : n.Fair before)
    (hread : (n.run before).FairCall (.read len timeout first passes)) :
    let answer := (n.run before).read len timeout first passes
    answer.1 = -1 ∧ answer.2.1 = [] ∨
      ∃ count : Nat, answer.1 = count ∧ (count : Int) ≤ len ∧ answer.2.1.length = count ∧
        answer.2.1 = (n.undelivered before (.read len timeout first passes)).take count := by
  intro answer
  obtain ⟨⟨hpos, hlen⟩, hmodest⟩ := hread
  obtain ⟨hempty, hsame⟩ := run_delivers h hbefore
  obtain ⟨hbound, hdelivers⟩ := read_delivers hempty hpos hlen hmodest
  have hcount := hdelivers.count
  have hundelivered : n.undelivered before (.read len timeout first passes) = answer.2.1 := by
    rw [undelivered, receivedIn_append, hsame, List.drop_left, hdelivers.data]
    exact List.append_nil _
  rw [← hdelivers.data] at hcount hbound
  by_cases hnone : answer.2.1 = []
  · rw [if_pos hnone] at hcount
    exact .inl ⟨hcount, hnone⟩
  · rw [if_neg hnone] at hcount
    refine .inr ⟨answer.2.1.length, hcount, hbound, rfl, ?_⟩
    rw [hundelivered, List.take_length]

/-- **The stream is kept** over any run of calls whose reads are fair. -/
theorem stream_kept {array : List Octet} (harray : array.length = 256) {calls : List Call}
    (hfair : (fresh array).Fair calls) : (fresh array).StreamKept calls := by
  have hfresh := fresh_represents harray
  constructor
  · obtain ⟨hempty, hsame⟩ := run_delivers hfresh hfair
    exact ⟨[], hempty, by rw [List.append_nil, hsame]⟩
  · intro before len timeout first passes after hcalls
    rw [hcalls, fair_append] at hfair
    obtain ⟨hbefore, hread, -⟩ := hfair
    exact read_oldest hfresh hbefore hread

/-- Three bytes are read in two calls; the third comes in during the loop. -/
def twoReads : List Call :=
  let two : DataExchange :=
    { response := [43, 81, 73, 82, 68, 58, 32, 50], raw := [some 7, some 8] }
  let one : DataExchange :=
    { response := [43, 81, 73, 82, 68, 58, 32, 49], raw := [some 9] }
  [.connect [104] 1883 { response := [43, 81, 73, 79, 80, 69, 78, 58, 32, 48, 44, 48] },
    .read 2 1000 two [], .read 2 1000 {}
      [{ remaining := 900, lines := [respQIURCrecv ++ [48]], answer := one }]]

theorem stream_kept_twoReads : (fresh (List.replicate 256 .unknown)).StreamKept twoReads :=
  stream_kept (List.length_replicate ..)
    ⟨trivial, ⟨⟨by decide, by decide⟩, by decide +kernel⟩,
      ⟨⟨by decide, by decide⟩, by decide +kernel⟩, trivial⟩

end Bg96Network

end LibNbiot
