/-
# What a socket of the BG96 holds

Unasked lines only tell that there is something to fetch, so that the ring buffer
changes in a read alone: bytes that come in while the modem is asked are put in,
and a read takes from it what it delivers. Connect and disconnect leave it as it
is.
-/

import LibNbiot.Modem.Bg96
import LibNbiot.Modem.Bc95Receiving

namespace LibNbiot

namespace Bg96Network

/-- What is in the buffer; if the history is sane, it has come in after the given
connect. -/
structure Holds (n : Bg96Network) (since : Nat) (items : List Octet) : Prop where
  represents : n.readBuffer.Represents items
  since : n.history.Sane → ∀ o ∈ items, o.Since since

/-- Bytes are collected, and nothing else happens. -/
structure Collects (n n' : Bg96Network) : Prop where
  filters : n'.filters = n.filters
  connectionNumber : n'.connectionNumber = n.connectionNumber
  history : n'.history = n.history
  holds : ∀ since items, n.Holds since items → since ≤ n.history.attempts →
    ∃ items', n'.Holds since items'

variable {n n' : Bg96Network} {since : Nat} {items : List Octet}

namespace Holds

/-- A change of the other fields. -/
theorem of_eq (h : n.Holds since items) (hbuffer : n'.readBuffer = n.readBuffer)
    (hevents : n'.history.events = n.history.events) : n'.Holds since items := by
  refine ⟨hbuffer ▸ h.represents, fun hs => h.since ?_⟩
  rw [SocketHistory.Sane, ← hevents]
  exact hs

/-- An event is logged. -/
theorem log (h : n.Holds since items) (e : SocketEvent) :
    Holds { n with history := n.history.log e } since items :=
  ⟨h.represents, fun hs => h.since (SocketHistory.sane_log.1 hs).2⟩

/-- Events can make the condition void. -/
theorem of_not_sane {since' : Nat} (h : n.Holds since items) (hs : ¬n.history.Sane) :
    n.Holds since' items :=
  ⟨h.represents, fun h' => absurd h' hs⟩

end Holds

namespace Collects

theorem refl (n : Bg96Network) : Collects n n :=
  ⟨rfl, rfl, rfl, fun _ items h _ => ⟨items, h⟩⟩

theorem trans {n'' : Bg96Network} (h : Collects n n') (h' : Collects n' n'') : Collects n n'' := by
  refine ⟨h'.filters.trans h.filters, h'.connectionNumber.trans h.connectionNumber,
    h'.history.trans h.history, fun since items hitems hsince => ?_⟩
  obtain ⟨items', hitems'⟩ := h.holds since items hitems hsince
  rw [← h.history] at hsince
  exact h'.holds since items' hitems' hsince

theorem of_eq (hfilters : n'.filters = n.filters)
    (hnumber : n'.connectionNumber = n.connectionNumber) (hhistory : n'.history = n.history)
    (hbuffer : n'.readBuffer = n.readBuffer) : Collects n n' :=
  ⟨hfilters, hnumber, hhistory, fun _ items h _ =>
    ⟨items, h.of_eq hbuffer (by rw [hhistory])⟩⟩

end Collects

theorem sendCommand_collects (n : Bg96Network) (command : Bytes) :
    Collects n (n.sendCommand command) := .of_eq rfl rfl rfl rfl

/-! ## Lines and bytes -/

/-- Lines change nothing but what the modem is believed to have. -/
theorem handleLines_eq (n : Bg96Network) (lines : List Bytes) :
    ∃ bytesAvail, n.handleLines lines = { n with bytesAvail := bytesAvail } := by
  induction lines generalizing n with
  | nil => exact ⟨n.bytesAvail, rfl⟩
  | cons line lines ih =>
    have hline : ∃ bytesAvail, n.handleLine line = { n with bytesAvail := bytesAvail } := by
      unfold handleLine parseFilterResult
      split
      · split
        · exact ⟨1, rfl⟩
        · exact ⟨n.bytesAvail, rfl⟩
      · exact ⟨n.bytesAvail, rfl⟩
    obtain ⟨first, hfirst⟩ := hline
    obtain ⟨rest, hrest⟩ := ih { n with bytesAvail := first }
    refine ⟨rest, ?_⟩
    rw [handleLines, List.foldl_cons, hfirst]
    exact hrest

theorem handleLines_collects (n : Bg96Network) (lines : List Bytes) :
    Collects n (n.handleLines lines) := by
  obtain ⟨bytesAvail, hlines⟩ := n.handleLines_eq lines
  rw [hlines]
  exact .of_eq rfl rfl rfl rfl

/-- A byte that finds no room is lost. -/
theorem putByte_holds (h : n.Holds since items) {o : Octet} (ho : o.Since since) :
    ∃ items', Holds { n with readBuffer := (n.readBuffer.putByte o).2 } since items' := by
  have hput := h.represents.putByte o
  split at hput
  · refine ⟨items ++ [o], hput.2, fun hs o' ho' => ?_⟩
    obtain hold | hnew := List.mem_append.1 ho'
    · exact h.since hs o' hold
    · rw [List.mem_singleton.1 hnew]
      exact ho
  · rw [hput]
    exact ⟨items, h⟩

theorem collect_collects (n : Bg96Network) (raw : List (Option UInt8)) :
    Collects n (n.collect raw).2 := by
  induction raw generalizing n with
  | nil => exact .refl n
  | cons c raw ih =>
    cases c with
    | none => exact ih n
    | some c =>
      have hput : Collects n
          { n with readBuffer := (n.readBuffer.putByte ⟨c, some n.history.attempts⟩).2 } :=
        ⟨rfl, rfl, rfl, fun _ _ h hsince => putByte_holds h ⟨_, rfl, hsince⟩⟩
      exact hput.trans (ih _)

theorem ipRead_collects (n : Bg96Network) (len : Int) (x : DataExchange) :
    Collects n (n.ipRead len x).2 := by
  unfold ipRead
  dsimp only
  split
  · apply Collects.trans _ (handleLines_collects _ _)
    apply Collects.trans _ (collect_collects _ _)
    exact (n.sendCommand_collects _).trans (handleLines_collects _ _)
  · exact (n.sendCommand_collects _).trans (handleLines_collects _ _)

theorem readLoop_collects (reqLen timeout : Nat) (passes : List DataPass) (bytes : Nat)
    (n : Bg96Network) : Collects n (readLoop reqLen timeout passes bytes n).2 := by
  induction passes generalizing bytes n with
  | nil => exact .refl n
  | cons p passes ih =>
    rw [readLoop]
    split
    · dsimp only
      split
      · apply Collects.trans _ (ih _ _)
        apply Collects.trans (handleLines_collects n p.lines)
        apply Collects.trans (ipRead_collects _ _ _)
        exact .of_eq rfl rfl rfl rfl
      · exact (handleLines_collects n p.lines).trans (ih _ _)
    · exact .refl n

/-! ## Reading -/

theorem serve_frame (n : Bg96Network) (count : Nat) :
    (n.serve count).2.filters = n.filters ∧
      (n.serve count).2.connectionNumber = n.connectionNumber ∧
      (n.serve count).2.history = n.history := by
  induction count generalizing n with
  | zero => exact ⟨rfl, rfl, rfl⟩
  | succ count ih =>
    rw [serve]
    split
    · exact ih { n with readBuffer := _ }
    · exact ⟨rfl, rfl, rfl⟩

/-- What is served was in the buffer, and the rest stays there. -/
theorem serve_holds (h : n.Holds since items) (count : Nat) :
    (∃ items', (n.serve count).2.Holds since items') ∧ ∀ o ∈ (n.serve count).1, o ∈ items := by
  induction count generalizing n items with
  | zero => exact ⟨⟨items, h⟩, fun _ ho => absurd ho List.not_mem_nil⟩
  | succ count ih =>
    have hget := h.represents.getByte
    rw [serve]
    split
    · rename_i octets buffer heq
      rw [heq] at hget
      split at hget
      · obtain rfl := Option.some.inj hget.1
        have hrest : Holds { n with readBuffer := buffer } since (items.drop 1) :=
          ⟨hget.2, fun hs o ho => h.since hs o (List.mem_of_mem_drop ho)⟩
        obtain ⟨hholds, hserved⟩ := ih hrest
        refine ⟨hholds, fun o ho => ?_⟩
        obtain hfirst | hlater := List.mem_append.1 ho
        · exact List.mem_of_mem_take hfirst
        · exact List.mem_of_mem_drop (hserved o hlater)
      · cases hget
    · exact ⟨⟨items, h⟩, fun _ ho => absurd ho List.not_mem_nil⟩

/-- **What read does**: bytes are collected, and octets are delivered that were in the
buffer then. -/
theorem read_reads (n : Bg96Network) (len : Int) (timeout : Nat) (first : DataExchange)
    (passes : List DataPass) :
    ∃ n₁, Collects n n₁ ∧ ((n.read len timeout first passes).2.2 = n₁ ∨
      ∃ count, (n.read len timeout first passes).2.2 = { (n₁.serve count).2 with
        history := n₁.history.log (.delivered n₁.history.opened (n₁.serve count).1) }) := by
  generalize hn : n.read len timeout first passes = answer
  unfold read at hn
  dsimp only at hn
  split at hn
  · cases hn
    exact ⟨_, .refl _, .inl rfl⟩
  · -- the modem is asked first, unless it has told of data
    generalize hasked : (if n.bytesAvail = 0 then _ else (0, n) : Nat × Bg96Network) = asked at hn
    have hfirst : Collects n asked.2 := by
      rw [← hasked]
      split
      · exact (ipRead_collects _ _ _).trans (.of_eq rfl rfl rfl rfl)
      · exact .refl n
    have hloop := hfirst.trans
      (readLoop_collects len.toNat timeout passes (n.readBuffer.size + asked.1) asked.2)
    refine ⟨_, hloop, ?_⟩
    split at hn
    · cases hn
      refine .inr ⟨len.toNat, ?_⟩
      dsimp only
      rw [(serve_frame _ len.toNat).2.2]
    · cases hn
      exact .inl rfl

/-! ## Connect and disconnect -/

/-- **What connect does**: the buffer is left as it is, and the filter is added if
there is a socket. A line that cannot be read leaves the number that was asked for. -/
structure Connects (x : OpenExchange) (ret : Bool) (n n₁ n' : Bg96Network) : Prop where
  filters : n₁.filters = n.filters
  readBuffer : n₁.readBuffer = n.readBuffer
  history : n₁.history = n.history.attempt
  unanswered : ¬(x.sent = true ∧ x.ok = true ∧ x.opened = true) →
    ret = false ∧ n₁.connectionNumber = n.connectionNumber
  answered : x.sent = true ∧ x.ok = true ∧ x.opened = true →
    let number := (openedNumber x.response).getD (n.connectionNumber + 1)
    if 0 ≤ number then ret = (openedNumber x.response).isSome ∧ n₁.connectionNumber = number
    else ret = false ∧ n₁.connectionNumber = -1
  after : n' = if ret then n₁.listen n.readBuffer.size else n₁

theorem askForSocket_eq (n : Bg96Network) (hostname : Bytes) (port : Nat) (x : OpenExchange) :
    ∃ bytesAvail commands, n.askForSocket hostname port x =
      { n with
        bytesAvail := bytesAvail
        commands := commands
        history := n.history.attempt
        connectionNumber := if x.sent = true ∧ x.ok = true ∧ x.opened = true then
          n.connectionNumber + 1 else n.connectionNumber } := by
  unfold askForSocket
  dsimp only
  generalize hasked : ({ n with history := n.history.attempt } : Bg96Network).sendCommand _ = asked
  split
  · rename_i hsent
    obtain ⟨first, hfirst⟩ := asked.handleLines_eq x.before
    rw [hfirst, ← hasked]
    split
    · rename_i hok
      obtain ⟨second, hsecond⟩ := ({ asked with bytesAvail := first } : Bg96Network).handleLines_eq x.between
      rw [← hasked] at hsecond
      rw [hsecond]
      split
      · rename_i hopened
        rw [if_pos ⟨hsent, hok, hopened⟩]
        exact ⟨_, _, rfl⟩
      · rename_i hopened
        rw [if_neg fun h => hopened h.2.2]
        exact ⟨_, _, rfl⟩
    · rename_i hok
      rw [if_neg fun h => hok h.2.1]
      exact ⟨_, _, rfl⟩
  · rename_i hsent
    rw [if_neg fun h => hsent h.1, ← hasked]
    exact ⟨_, _, rfl⟩

theorem assignSocket_eq (n : Bg96Network) (hostname : Bytes) (port : Nat) (x : OpenExchange) :
    (n.assignSocket hostname port x).2.filters = n.filters ∧
      (n.assignSocket hostname port x).2.readBuffer = n.readBuffer ∧
      (n.assignSocket hostname port x).2.history = n.history := by
  unfold assignSocket
  split
  · dsimp only
    split
    · exact ⟨rfl, rfl, rfl⟩
    · exact ⟨rfl, rfl, rfl⟩
  · exact ⟨rfl, rfl, rfl⟩

theorem connect_connects (n : Bg96Network) (hostname : Bytes) (port : Nat) (x : OpenExchange) :
    ∃ n₁, Connects x (n.connect hostname port x).1 n n₁ (n.connect hostname port x).2 := by
  obtain ⟨bytesAvail, commands, hask⟩ := n.askForSocket_eq hostname port x
  let asked := n.askForSocket hostname port x
  have hassign := asked.assignSocket_eq hostname port x
  have hlines := handleLines_collects (asked.assignSocket hostname port x).2 x.after
  obtain ⟨after, hafter⟩ := (asked.assignSocket hostname port x).2.handleLines_eq x.after
  refine ⟨(asked.assignSocket hostname port x).2.handleLines x.after, ?_, ?_, ?_, fun hno => ?_,
    fun hanswer => ?_, rfl⟩
  · rw [hlines.filters, hassign.1]
    exact congrArg (·.filters) hask
  · rw [hafter]
    exact hassign.2.1.trans (congrArg (·.readBuffer) hask)
  · rw [hlines.history, hassign.2.2]
    exact congrArg (·.history) hask
  · have hnumber : asked.connectionNumber = n.connectionNumber := by
      rw [show asked = _ from hask]
      exact if_neg hno
    rw [hlines.connectionNumber, ← hnumber]
    change (asked.assignSocket hostname port x).1 = false ∧ _
    rw [assignSocket, if_neg hno]
    exact ⟨rfl, rfl⟩
  · have hnumber : asked.connectionNumber = n.connectionNumber + 1 := by
      rw [show asked = _ from hask]
      exact if_pos hanswer
    rw [hlines.connectionNumber, ← hnumber]
    change if _ then (asked.assignSocket hostname port x).1 = _ ∧ _ else
      (asked.assignSocket hostname port x).1 = false ∧ _
    rw [assignSocket, if_pos hanswer]
    dsimp only
    split
    · exact ⟨rfl, rfl⟩
    · exact ⟨rfl, rfl⟩

/-- **What disconnect does**: the socket is forgotten if there was none or the modem
has closed it. -/
structure Disconnects (x : Exchange) (ret : Bool) (n n₁ n' : Bg96Network) : Prop where
  answer : ret = (!n.isConnected || (x.sent && x.ok))
  before : Collects n n₁
  after : Collects (if ret then n₁.forgetSocket else n₁) n'

theorem disconnect_disconnects (n : Bg96Network) (x : Exchange) :
    ∃ n₁, Disconnects x (n.disconnect x).1 n n₁ (n.disconnect x).2 := by
  refine ⟨n.askToClose x, rfl, ?_, handleLines_collects _ _⟩
  unfold askToClose
  split
  · dsimp only
    split
    · exact (n.sendCommand_collects _).trans (handleLines_collects _ _)
    · exact n.sendCommand_collects _
  · exact .refl n

theorem write_collects (n : Bg96Network) (data : Bytes) (x : Exchange) :
    Collects n (n.write data x).2 := by
  have hsend : Collects n (n.sendData data x) := by
    unfold sendData
    split
    · dsimp only
      split
      · exact (n.sendCommand_collects _).trans (handleLines_collects _ _)
      · exact n.sendCommand_collects _
    · exact .refl n
  exact hsend.trans (handleLines_collects _ _)

end Bg96Network

end LibNbiot
