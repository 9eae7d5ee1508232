/-
# What a socket of the BC95 holds

The ring buffer of a socket is a queue of octets whatever happens. Beside it the
counter tells how many there are as long as every datagram finds the queue empty
and no read ends with more than is available; and it promises no more than there
are as long as no line announces more than it carries. Both are kept by whatever
touches the buffer.
-/

import LibNbiot.Modem.Bc95
import LibNbiot.Modem.RingBuffer

namespace LibNbiot

/-! ## The two conditions -/

/-- A datagram finds the buffer empty, and a read ends with what is there. -/
def SocketEvent.Orderly : SocketEvent → Prop
  | .datagram waiting _ _ => waiting = 0
  | .lastBytes available wanted => wanted ≤ available
  | _ => True

/-- A line carries what it announces, a read ends with what is there, and a socket
that is opened again finds the buffer empty. -/
def SocketEvent.Sane : SocketEvent → Prop
  | .datagram _ count length => count ≤ length
  | .lastBytes available wanted => wanted ≤ available
  | .reopened waiting => waiting = 0
  | .delivered _ _ => True

instance : DecidablePred SocketEvent.Orderly := fun e => by
  cases e <;> unfold SocketEvent.Orderly <;> infer_instance

instance : DecidablePred SocketEvent.Sane := fun e => by
  cases e <;> unfold SocketEvent.Sane <;> infer_instance

namespace SocketHistory

def Orderly (h : SocketHistory) : Prop := ∀ e ∈ h.events, e.Orderly

def Sane (h : SocketHistory) : Prop := ∀ e ∈ h.events, e.Sane

theorem orderly_log {h : SocketHistory} {e : SocketEvent} :
    (h.log e).Orderly ↔ e.Orderly ∧ h.Orderly := List.forall_mem_cons

theorem sane_log {h : SocketHistory} {e : SocketEvent} :
    (h.log e).Sane ↔ e.Sane ∧ h.Sane := List.forall_mem_cons

end SocketHistory

/-- The octet came in after so many connects had been tried. -/
def Octet.Since (o : Octet) (attempts : Nat) : Prop := ∃ k, o.origin = some k ∧ attempts ≤ k

namespace Bc95Network

/-! ## What the buffer and the counter have to do with each other -/

/-- What is in the buffer. Below are the conditions under which it has come in
after the given connect, and under which the counter can be relied on. -/
structure Holds (n : Bc95Network) (since : Nat) (items : List Octet) : Prop where
  represents : n.buffer.Represents items
  counted : n.history.Orderly → n.bytesAvail = items.length
  promised : n.history.Sane → n.bytesAvail ≤ items.length
  since : n.history.Sane → ∀ o ∈ items, o.Since since

/-- Events are added, and nothing is delivered. -/
def Quiet (h h' : SocketHistory) : Prop :=
  ∃ new, h'.events = new ++ h.events ∧ ∀ e ∈ new, ∀ opened octets, e ≠ .delivered opened octets

theorem Quiet.refl (h : SocketHistory) : Quiet h h := ⟨[], rfl, nofun⟩

theorem Quiet.trans {h h' h'' : SocketHistory} (hq : Quiet h h') (hq' : Quiet h' h'') :
    Quiet h h'' := by
  obtain ⟨new, hnew, hno⟩ := hq
  obtain ⟨new', hnew', hno'⟩ := hq'
  refine ⟨new' ++ new, by rw [hnew', hnew, List.append_assoc], fun e he => ?_⟩
  exact (List.mem_append.1 he).elim (hno' e) (hno e)

theorem Quiet.single (h : SocketHistory) {e : SocketEvent}
    (he : ∀ opened octets, e ≠ .delivered opened octets) : Quiet h (h.log e) :=
  ⟨[e], rfl, fun e' he' => by rw [List.mem_singleton.1 he']; exact he⟩

theorem Quiet.datagram (h : SocketHistory) (waiting count length : Nat) :
    Quiet h (h.log (.datagram waiting count length)) :=
  .single h nofun

theorem Quiet.sane {h h' : SocketHistory} (hq : Quiet h h') (hs : h'.Sane) : h.Sane := by
  obtain ⟨new, hnew, -⟩ := hq
  intro e he
  apply hs e
  rw [hnew]
  exact List.mem_append_right _ he

/-- Everything but the buffer, the counter and the events stays. -/
structure Frame (n n' : Bc95Network) : Prop where
  filters : n'.filters = n.filters
  connectionNumber : n'.connectionNumber = n.connectionNumber
  nsonmi : n'.nsonmi = n.nsonmi
  attempts : n'.history.attempts = n.history.attempts
  closed : n'.history.closed = n.history.closed
  opened : n'.history.opened = n.history.opened
  quiet : Quiet n.history n'.history

variable {n n' : Bc95Network} {since : Nat} {items : List Octet}

theorem Frame.refl (n : Bc95Network) : Frame n n := ⟨rfl, rfl, rfl, rfl, rfl, rfl, .refl _⟩

theorem Frame.trans {n'' : Bc95Network} (h : Frame n n') (h' : Frame n' n'') : Frame n n'' :=
  ⟨h'.filters.trans h.filters, h'.connectionNumber.trans h.connectionNumber,
    h'.nsonmi.trans h.nsonmi, h'.attempts.trans h.attempts, h'.closed.trans h.closed,
    h'.opened.trans h.opened, h.quiet.trans h'.quiet⟩

namespace Holds

theorem length_le (h : n.Holds since items) : items.length ≤ 512 := h.represents.length_le

theorem size_eq (h : n.Holds since items) : n.buffer.size = items.length := h.represents.size_eq

/-- What came in after a connect came in after an earlier one. -/
theorem mono (h : n.Holds since items) {earlier : Nat} (hle : earlier ≤ since) :
    n.Holds earlier items :=
  ⟨h.represents, h.counted, h.promised, fun hsane o ho =>
    have ⟨k, hk, hsince⟩ := h.since hsane o ho
    ⟨k, hk, hle.trans hsince⟩⟩

/-- A change of the other fields. -/
theorem of_eq (h : n.Holds since items) (hbuffer : n'.buffer = n.buffer)
    (hcount : n'.bytesAvail = n.bytesAvail) (hhistory : n'.history.events = n.history.events) :
    n'.Holds since items := by
  have horderly : n'.history.Orderly ↔ n.history.Orderly := by
    rw [SocketHistory.Orderly, hhistory, SocketHistory.Orderly]
  have hsane : n'.history.Sane ↔ n.history.Sane := by
    rw [SocketHistory.Sane, hhistory, SocketHistory.Sane]
  refine ⟨hbuffer ▸ h.represents, fun ho => ?_, fun hs => ?_, fun hs => h.since (hsane.1 hs)⟩
  · rw [hcount]
    exact h.counted (horderly.1 ho)
  · rw [hcount]
    exact h.promised (hsane.1 hs)

/-- An event is logged. -/
theorem log (h : n.Holds since items) (e : SocketEvent) :
    Holds { n with history := n.history.log e } since items :=
  ⟨h.represents, fun ho => h.counted (SocketHistory.orderly_log.1 ho).2,
    fun hs => h.promised (SocketHistory.sane_log.1 hs).2,
    fun hs => h.since (SocketHistory.sane_log.1 hs).2⟩

end Holds

/-! ## A datagram -/

theorem length_octetsAt (n : Bc95Network) (decoded : Bytes) (count : Nat) :
    (n.octetsAt decoded count).length = count := by
  rw [octetsAt, List.length_append, List.length_take, List.length_map, List.length_replicate]
  omega

/-- No more than the line carries has come in. -/
theorem since_octetsAt {decoded : Bytes} {count : Nat} (h : count ≤ decoded.length) :
    ∀ o ∈ n.octetsAt decoded count, o.Since n.history.attempts := by
  intro o ho
  rw [octetsAt, Nat.sub_eq_zero_of_le h, List.replicate_zero, List.append_nil] at ho
  obtain ⟨c, -, rfl⟩ := List.mem_map.1 (List.mem_of_mem_take ho)
  exact ⟨_, rfl, le_rfl⟩

theorem receive_holds (h : n.Holds since items) (hsince : since ≤ n.history.attempts) {count : Nat}
    (hcount : 0 < count) (decoded : Bytes) : ∃ items', (n.receive count decoded).Holds since items' := by
  have hle := h.length_le
  have hcapacity := h.represents.capacity_eq
  let taken := if n.buffer.capacity < count then n.buffer.capacity else count
  have htaken : taken = min count (512 - items.length) := by
    simp only [taken, hcapacity]
    split <;> omega
  have hlength := n.length_octetsAt decoded taken
  have hput := h.represents.put (n.octetsAt decoded taken) (by omega)
  rw [if_pos (by omega)] at hput
  refine ⟨items ++ n.octetsAt decoded taken, hput.2, fun ho => ?_, fun hs => ?_, fun hs => ?_⟩
  · obtain ⟨hwaiting, -⟩ := SocketHistory.orderly_log.1 ho
    have hnone : items.length = 0 := h.size_eq.symm.trans hwaiting
    rw [List.length_append, hlength, hnone, Nat.zero_add]
    rfl
  · rw [List.length_append, hlength]
    exact Nat.le_add_left _ _
  · obtain ⟨hcarried, hs⟩ := SocketHistory.sane_log.1 hs
    have hcarried : count ≤ decoded.length := hcarried
    intro o ho
    obtain ho | ho := List.mem_append.1 ho
    · exact h.since hs o ho
    · obtain ⟨k, hk, hattempts⟩ := since_octetsAt (n := n) (by omega) o ho
      exact ⟨k, hk, hsince.trans hattempts⟩

theorem parseFilterResult_holds (h : n.Holds since items) (hsince : since ≤ n.history.attempts)
    {line : Bytes} (hn : n.parseFilterResult line = some n') :
    ∃ items', n'.Holds since items' := by
  unfold parseFilterResult at hn
  split at hn
  · dsimp only at hn
    split at hn
    · split at hn
      · rename_i hpos
        obtain ⟨digits, -, rfl⟩ := Option.map_eq_some_iff.1 hn
        exact receive_holds h hsince hpos _
      · rename_i hpos
        obtain rfl := Option.some.inj hn
        refine ⟨items, h.represents, fun ho => ?_, fun hs => ?_, fun hs => ?_⟩
        · obtain ⟨hwaiting, -⟩ := SocketHistory.orderly_log.1 ho
          have hnone : items.length = 0 := h.size_eq.symm.trans hwaiting
          rw [hnone]
          exact Nat.le_zero.1 (Nat.le_of_not_lt hpos)
        · exact (Nat.le_of_not_lt hpos).trans (Nat.zero_le _)
        · exact h.since (SocketHistory.sane_log.1 hs).2
    · obtain rfl := Option.some.inj hn
      exact ⟨items, h⟩
  · obtain rfl := Option.some.inj hn
    exact ⟨items, h⟩

theorem parseFilterResult_frame {line : Bytes} (hn : n.parseFilterResult line = some n') :
    Frame n n' := by
  unfold parseFilterResult at hn
  split at hn
  · dsimp only at hn
    split at hn
    · split at hn
      · obtain ⟨digits, -, rfl⟩ := Option.map_eq_some_iff.1 hn
        exact ⟨rfl, rfl, rfl, rfl, rfl, rfl, .datagram ..⟩
      · obtain rfl := Option.some.inj hn
        exact ⟨rfl, rfl, rfl, rfl, rfl, rfl, .datagram ..⟩
    · obtain rfl := Option.some.inj hn
      exact .refl _
  · obtain rfl := Option.some.inj hn
    exact .refl _

theorem handleLine_holds (h : n.Holds since items) (hsince : since ≤ n.history.attempts)
    {line : Bytes} (hn : n.handleLine line = some n') : ∃ items', n'.Holds since items' := by
  unfold handleLine at hn
  split at hn
  · exact parseFilterResult_holds h hsince hn
  · obtain rfl := Option.some.inj hn
    exact ⟨items, h⟩

theorem handleLine_frame {line : Bytes} (hn : n.handleLine line = some n') : Frame n n' := by
  unfold handleLine at hn
  split at hn
  · exact parseFilterResult_frame hn
  · obtain rfl := Option.some.inj hn
    exact .refl _

/-- The lines come in one after the other. -/
theorem handleLines_cons {line : Bytes} {lines : List Bytes}
    (hn : n.handleLines (line :: lines) = some n') :
    ∃ n₁, n.handleLine line = some n₁ ∧ n₁.handleLines lines = some n' := by
  rw [handleLines, List.foldlM_cons] at hn
  exact Option.bind_eq_some_iff.1 hn

theorem handleLines_frame {lines : List Bytes} (hn : n.handleLines lines = some n') :
    Frame n n' := by
  induction lines generalizing n with
  | nil =>
    obtain rfl := Option.some.inj hn
    exact .refl _
  | cons line lines ih =>
    obtain ⟨n₁, hfirst, hrest⟩ := handleLines_cons hn
    exact (handleLine_frame hfirst).trans (ih hrest)

theorem handleLines_holds (h : n.Holds since items) (hsince : since ≤ n.history.attempts)
    {lines : List Bytes} (hn : n.handleLines lines = some n') :
    ∃ items', n'.Holds since items' := by
  induction lines generalizing n items with
  | nil =>
    obtain rfl := Option.some.inj hn
    exact ⟨items, h⟩
  | cons line lines ih =>
    obtain ⟨n₁, hfirst, hrest⟩ := handleLines_cons hn
    obtain ⟨items₁, h₁⟩ := handleLine_holds h hsince hfirst
    exact ih h₁ ((handleLine_frame hfirst).attempts ▸ hsince) hrest

/-! ## Taking bytes -/

theorem takeByte_frame (n : Bc95Network) :
    Frame n n.takeByte.2 ∧ n.takeByte.2.history = n.history :=
  ⟨⟨rfl, rfl, rfl, rfl, rfl, rfl, .refl _⟩, rfl⟩

theorem takeBytes_frame (count : Nat) (n : Bc95Network) :
    Frame n (n.takeBytes count).2 ∧ (n.takeBytes count).2.history = n.history := by
  induction count generalizing n with
  | zero => exact ⟨.refl n, rfl⟩
  | succ count ih =>
    obtain ⟨hframe, hhistory⟩ := n.takeByte_frame
    obtain ⟨hframe', hhistory'⟩ := ih n.takeByte.2
    exact ⟨hframe.trans hframe', hhistory'.trans hhistory⟩

/-- Whatever is taken, the buffer holds the rest. -/
theorem takeBytes_represents (h : n.buffer.Represents items) (count : Nat) :
    (n.takeBytes count).2.buffer.Represents (items.drop count) ∧
      (count ≤ items.length → (n.takeBytes count).1 = items.take count) := by
  induction count generalizing n items with
  | zero => exact ⟨h, fun _ => rfl⟩
  | succ count ih =>
    have hget := h.getByte
    cases items with
    | nil =>
      rw [if_neg (by simp)] at hget
      have hsame : n.takeByte.2.buffer.Represents [] := by
        rw [takeByte, hget]
        exact h
      refine ⟨?_, fun hle => absurd hle (Nat.not_succ_le_zero _)⟩
      rw [List.drop_nil]
      have hrest := (ih hsame).1
      rw [List.drop_nil] at hrest
      exact hrest
    | cons o items =>
      rw [if_pos (by simp)] at hget
      obtain ⟨hrest, hgiven⟩ := ih (n := n.takeByte.2) hget.2
      refine ⟨hrest, fun hle => ?_⟩
      have hfirst : n.takeByte.1 = o := by
        rw [takeByte, hget.1]
        rfl
      rw [takeBytes]
      simp only [hfirst, hgiven (Nat.le_of_succ_le_succ hle), List.take_succ_cons, List.drop_succ_cons,
        List.drop_zero]

/-- The counter goes down with the bytes as long as it does not run out. -/
theorem takeBytes_bytesAvail {count : Nat} (h : count ≤ n.bytesAvail) :
    (n.takeBytes count).2.bytesAvail = n.bytesAvail - count := by
  induction count generalizing n with
  | zero => rfl
  | succ count ih =>
    have hstep : n.takeByte.2.bytesAvail = n.bytesAvail - 1 := by
      have hsome : n.bytesAvail ≠ 0 := by omega
      exact if_neg hsome
    have hrest := ih (n := n.takeByte.2) (by omega)
    rw [takeBytes]
    dsimp only
    omega

/-- As many bytes as the counter says, or fewer. -/
theorem takeBytes_holds (h : n.Holds since items) (count : Nat)
    (horderly : n.history.Orderly → count ≤ n.bytesAvail)
    (hsane : n.history.Sane → count ≤ n.bytesAvail) :
    (n.takeBytes count).2.Holds since (items.drop count) ∧
      (n.history.Sane → ∀ o ∈ (n.takeBytes count).1, o.Since since) := by
  obtain ⟨hrest, hgiven⟩ := takeBytes_represents h.represents count
  have hhistory := (takeBytes_frame count n).2
  refine ⟨⟨hrest, fun ho => ?_, fun hs => ?_, fun hs o ho => ?_⟩, fun hs o ho => ?_⟩
  · rw [hhistory] at ho
    rw [takeBytes_bytesAvail (horderly ho), h.counted ho, List.length_drop]
  · rw [hhistory] at hs
    rw [takeBytes_bytesAvail (hsane hs), List.length_drop]
    exact Nat.sub_le_sub_right (h.promised hs) count
  · rw [hhistory] at hs
    exact h.since hs o (List.mem_of_mem_drop ho)
  · rw [hgiven ((hsane hs).trans (h.promised hs))] at ho
    exact h.since hs o (List.mem_of_mem_take ho)

/-! ## A read -/

theorem ipAvailable_le (n : Bc95Network) : n.ipAvailable ≤ n.bytesAvail := Nat.mod_le _ _

/-- What a read has got so far. -/
structure Reading.Got (r : Reading) (n : Bc95Network) (since : Nat) : Prop where
  holds : ∃ items, r.network.Holds since items
  data : r.network.history.Sane → ∀ o ∈ r.data, o.Since since
  available : r.dgmLen ≤ r.network.bytesAvail
  frame : Frame n r.network

theorem readLoop_got (hsince : since ≤ n.history.attempts) {reqLen timeout : Nat}
    {passes : List Pass} {r r' : Reading} (h : r.Got n since)
    (hr : readLoop reqLen timeout passes r = some r') : r'.Got n since := by
  induction passes generalizing r with
  | nil =>
    obtain rfl := Option.some.inj hr
    exact h
  | cons p passes ih =>
    rw [readLoop] at hr
    split at hr
    · obtain ⟨n₁, hlines, hr⟩ := Option.bind_eq_some_iff.1 hr
      obtain ⟨items, hitems⟩ := h.holds
      have hframe := handleLines_frame hlines
      obtain ⟨items₁, h₁⟩ := handleLines_holds hitems (h.frame.attempts.symm ▸ hsince) hlines
      have hdata : n₁.history.Sane → ∀ o ∈ r.data, o.Since since := fun hs =>
        h.data (hframe.quiet.sane hs)
      dsimp only at hr
      split at hr
      · exact ih ⟨⟨items₁, h₁⟩, hdata, Nat.zero_le _, h.frame.trans hframe⟩ hr
      · split at hr
        · obtain rfl := Option.some.inj hr
          exact ⟨⟨items₁, h₁⟩, hdata, n₁.ipAvailable_le, h.frame.trans hframe⟩
        · obtain ⟨hframe', hhistory⟩ := takeBytes_frame n₁.ipAvailable n₁
          obtain ⟨hrest, hgiven⟩ := takeBytes_holds h₁ n₁.ipAvailable
            (fun _ => n₁.ipAvailable_le) (fun _ => n₁.ipAvailable_le)
          refine ih ⟨⟨_, hrest⟩, fun hs o ho => ?_, Nat.zero_le _,
            (h.frame.trans hframe).trans hframe'⟩ hr
          rw [hhistory] at hs
          exact (List.mem_append.1 ho).elim (hdata hs o) (hgiven hs o)
    · obtain rfl := Option.some.inj hr
      exact h

theorem readRest_got (reqLen : Nat) {r : Reading} (h : r.Got n since) :
    (∃ items, (readRest reqLen r).2.Holds since items) ∧
      ((readRest reqLen r).2.history.Sane → ∀ o ∈ (readRest reqLen r).1, o.Since since) ∧
      Frame n (readRest reqLen r).2 := by
  obtain ⟨items, hitems⟩ := h.holds
  unfold readRest
  split
  · dsimp only
    have hlog := hitems.log (.lastBytes r.dgmLen (reqLen - r.data.length))
    obtain ⟨hframe, hhistory⟩ := takeBytes_frame (reqLen - r.data.length) { r.network with
      history := r.network.history.log (.lastBytes r.dgmLen (reqLen - r.data.length)) }
    obtain ⟨hrest, hgiven⟩ := takeBytes_holds hlog (reqLen - r.data.length)
      (fun ho => (SocketHistory.orderly_log.1 ho).1.trans h.available)
      (fun hs => (SocketHistory.sane_log.1 hs).1.trans h.available)
    refine ⟨⟨_, hrest⟩, fun hs o ho => ?_, Frame.trans ?_ hframe⟩
    · rw [hhistory] at hs
      exact (List.mem_append.1 ho).elim (h.data (SocketHistory.sane_log.1 hs).2 o) (hgiven hs o)
    · exact h.frame.trans ⟨rfl, rfl, rfl, rfl, rfl, rfl, .single _ nofun⟩
  · exact ⟨⟨items, hitems⟩, h.data, h.frame⟩

/-- A read leaves the rest in the buffer, and what it delivers was there or came in
meanwhile. -/
theorem read_holds (h : n.Holds since items) (hsince : since ≤ n.history.attempts) {len : Int}
    {timeout : Nat} {passes : List Pass} {rc : Int} {octets : List Octet}
    (hn : n.read len timeout passes = some (rc, octets, n')) :
    (∃ items', n'.Holds since items') ∧
      (n' = n ∨ ∃ n₁, Frame n n₁ ∧ (n₁.history.Sane → ∀ o ∈ octets, o.Since since) ∧
        n' = { n₁ with history := n₁.history.log (.delivered n₁.history.opened octets) }) := by
  unfold read at hn
  split at hn
  · cases hn
    exact ⟨⟨items, h⟩, .inl rfl⟩
  · obtain ⟨r, hr, hn⟩ := Option.bind_eq_some_iff.1 hn
    have hgot : r.Got n since :=
      readLoop_got hsince ⟨⟨items, h⟩, (fun _ _ ho => absurd ho List.not_mem_nil), n.ipAvailable_le, .refl n⟩ hr
    obtain ⟨⟨items', h'⟩, hdata, hframe⟩ := readRest_got len.toNat hgot
    cases hn
    exact ⟨⟨items', h'.log _⟩, .inr ⟨_, hframe, hdata, rfl⟩⟩

/-! ## The other calls -/

/-- Lines may have come in, and other fields may have changed. -/
structure Passes (n n' : Bc95Network) : Prop where
  holds : ∀ since items, n.Holds since items → since ≤ n'.history.attempts →
    ∃ items', n'.Holds since items'
  quiet : Quiet n.history n'.history
  closed : n'.history.closed = n.history.closed
  opened : n'.history.opened = n.history.opened

namespace Passes

theorem refl (n : Bc95Network) : Passes n n :=
  ⟨fun _ items h _ => ⟨items, h⟩, .refl _, rfl, rfl⟩

theorem trans {n'' : Bc95Network} (h : Passes n n') (h' : Passes n' n'')
    (hle : n''.history.attempts ≤ n'.history.attempts) : Passes n n'' := by
  refine ⟨fun since items hitems hsince => ?_, h.quiet.trans h'.quiet, h'.closed.trans h.closed,
    h'.opened.trans h.opened⟩
  obtain ⟨items', hitems'⟩ := h.holds since items hitems (hsince.trans hle)
  exact h'.holds since items' hitems' hsince

/-- Fields that have nothing to do with the buffer change. -/
theorem of_eq (hbuffer : n'.buffer = n.buffer) (hcount : n'.bytesAvail = n.bytesAvail)
    (hevents : n'.history.events = n.history.events) (hclosed : n'.history.closed = n.history.closed)
    (hopened : n'.history.opened = n.history.opened) : Passes n n' :=
  ⟨fun _ items h _ => ⟨items, h.of_eq hbuffer hcount hevents⟩, ⟨[], hevents, nofun⟩, hclosed, hopened⟩

theorem of_lines {lines : List Bytes} (hn : n.handleLines lines = some n') : Passes n n' :=
  have hframe := handleLines_frame hn
  ⟨fun _ _ h hsince => handleLines_holds h (hframe.attempts ▸ hsince) hn, hframe.quiet,
    hframe.closed, hframe.opened⟩

/-- Lines that come in behind all that. -/
theorem lines {m : Bc95Network} {lines : List Bytes} (hn : m.handleLines lines = some n')
    (h : Passes n m) :
    Passes n n' ∧ n'.history.attempts = m.history.attempts ∧ n'.filters = m.filters ∧
      n'.connectionNumber = m.connectionNumber ∧ n'.nsonmi = m.nsonmi := by
  have hframe := handleLines_frame hn
  exact ⟨h.trans (.of_lines hn) hframe.attempts.le, hframe.attempts, hframe.filters,
    hframe.connectionNumber, hframe.nsonmi⟩

end Passes

theorem askForSocket_passes {x : Exchange} (hn : n.askForSocket x = some n') :
    Passes n n' ∧ n'.history.attempts = n.history.attempts + 1 ∧ n'.filters = n.filters ∧
      n'.connectionNumber = n.connectionNumber ∧ n'.nsonmi = n.nsonmi := by
  unfold askForSocket at hn
  dsimp only at hn
  split at hn
  · exact Passes.lines hn (.of_eq rfl rfl rfl rfl rfl)
  · obtain rfl := Option.some.inj hn
    exact ⟨.of_eq rfl rfl rfl rfl rfl, rfl, rfl, rfl, rfl⟩

/-- What a reply makes of the number of the socket. -/
structure Assigns (x : Exchange) (ret : Bool) (n n' : Bc95Network) : Prop where
  opened : ret = true → x.sent = true ∧ x.ok = true ∧ n'.connectionNumber = atoi x.response ∧
    0 ≤ n'.connectionNumber ∧ n'.connectionNumber < maxSocket
  failed : ret = false → n'.connectionNumber = n.connectionNumber ∨
    x.sent = true ∧ x.ok = true ∧ ¬(0 ≤ atoi x.response ∧ atoi x.response < maxSocket) ∧
      n'.connectionNumber = -1

theorem assignSocket_passes (n : Bc95Network) (hostname : Bytes) (port listenPort : Nat)
    (x : Exchange) :
    Passes n (n.assignSocket hostname port listenPort x).2 ∧
      Assigns x (n.assignSocket hostname port listenPort x).1 n
        (n.assignSocket hostname port listenPort x).2 ∧
      (n.assignSocket hostname port listenPort x).2.history = n.history ∧
      (n.assignSocket hostname port listenPort x).2.filters = n.filters ∧
      (n.assignSocket hostname port listenPort x).2.nsonmi = n.nsonmi := by
  unfold assignSocket
  split
  · rename_i hreply
    dsimp only
    split
    · rename_i hnumber
      exact ⟨.of_eq rfl rfl rfl rfl rfl,
        ⟨fun _ => ⟨hreply.1, hreply.2, rfl, hnumber.1, hnumber.2⟩, nofun⟩, rfl, rfl, rfl⟩
    · rename_i hnumber
      exact ⟨.of_eq rfl rfl rfl rfl rfl,
        ⟨nofun, fun _ => .inr ⟨hreply.1, hreply.2, hnumber, rfl⟩⟩, rfl, rfl, rfl⟩
  · exact ⟨.refl n, ⟨nofun, fun _ => .inl rfl⟩, rfl, rfl, rfl⟩

/-- **What connect does**: lines come in while the modem is asked and the reply is
looked at; then the filter is added if there is a socket. -/
structure Connects (x : Exchange) (ret : Bool) (n n₁ n' : Bc95Network) : Prop where
  passes : Passes n n₁
  assigns : Assigns x ret n n₁
  attempts : n₁.history.attempts = n.history.attempts + 1
  filters : n₁.filters = n.filters
  nsonmi : n₁.nsonmi = n.nsonmi
  after : n' = if ret then n₁.listen n.buffer.size else n₁

theorem connect_connects {hostname : Bytes} {port : Nat} {x : Exchange} {ret : Bool}
    (hn : n.connect hostname port x = some (ret, n')) : ∃ n₁, Connects x ret n n₁ n' := by
  obtain ⟨n₁, hask, hn⟩ := Option.bind_eq_some_iff.1 hn
  obtain ⟨n₂, hlines, hn⟩ := Option.bind_eq_some_iff.1 hn
  obtain ⟨hpasses, hattempts, hfilters, hnumber, hnsonmi⟩ := askForSocket_passes hask
  obtain ⟨hpasses', hassigns, hhistory, hfilters', hnsonmi'⟩ :=
    n₁.assignSocket_passes hostname port n.listenPort x
  obtain ⟨hall, hkept, hfilters'', hnumber'', hnsonmi''⟩ :=
    Passes.lines hlines (hpasses.trans hpasses' (by rw [hhistory]))
  have hret : (n₁.assignSocket hostname port n.listenPort x).1 = ret :=
    congrArg Prod.fst (Option.some.inj hn)
  rw [hret] at hassigns
  refine ⟨n₂, hall, ⟨fun h => ?_, fun h => ?_⟩, ?_, ?_, ?_, ?_⟩
  · rw [hnumber'']
    exact hassigns.opened h
  · rw [hnumber'', ← hnumber]
    exact hassigns.failed h
  · rw [hkept, hhistory, hattempts]
  · rw [hfilters'', hfilters', hfilters]
  · rw [hnsonmi'', hnsonmi', hnsonmi]
  · rw [← hret]
    exact (congrArg Prod.snd (Option.some.inj hn)).symm

theorem askToClose_passes {x : Exchange} (hn : n.askToClose x = some n') :
    Passes n n' ∧ n'.history.attempts = n.history.attempts ∧ n'.filters = n.filters ∧
      n'.connectionNumber = n.connectionNumber ∧ n'.nsonmi = n.nsonmi := by
  unfold askToClose at hn
  split at hn
  · dsimp only at hn
    split at hn
    · have hall := Passes.lines (n := n) hn (.of_eq rfl rfl rfl rfl rfl)
      exact hall
    · obtain rfl := Option.some.inj hn
      exact ⟨.of_eq rfl rfl rfl rfl rfl, rfl, rfl, rfl, rfl⟩
  · obtain rfl := Option.some.inj hn
    exact ⟨.refl _, rfl, rfl, rfl, rfl⟩

/-- **What disconnect does**: the socket is forgotten if there was none or the
modem has closed it, with lines coming in before and after. -/
structure Disconnects (x : Exchange) (ret : Bool) (n n₁ n' : Bc95Network) : Prop where
  answer : ret = (!n.isConnected || (x.sent && x.ok))
  passes : Passes n n₁
  attempts : n₁.history.attempts = n.history.attempts
  filters : n₁.filters = n.filters
  connectionNumber : n₁.connectionNumber = n.connectionNumber
  nsonmi : n₁.nsonmi = n.nsonmi
  after : Frame (if ret then n₁.forgetSocket else n₁) n' ∧
    Passes (if ret then n₁.forgetSocket else n₁) n'

theorem disconnect_disconnects {x : Exchange} {ret : Bool}
    (hn : n.disconnect x = some (ret, n')) : ∃ n₁, Disconnects x ret n n₁ n' := by
  obtain ⟨n₁, hask, hn⟩ := Option.bind_eq_some_iff.1 hn
  obtain ⟨n₂, hlines, hn⟩ := Option.bind_eq_some_iff.1 hn
  obtain ⟨hpasses, hattempts, hfilters, hnumber, hnsonmi⟩ := askToClose_passes hask
  obtain ⟨rfl, rfl⟩ := Prod.mk.inj (Option.some.inj hn)
  exact ⟨n₁, rfl, hpasses, hattempts, hfilters, hnumber, hnsonmi, handleLines_frame hlines,
    .of_lines hlines⟩

theorem write_passes {data : Bytes} {x : Exchange} {ret : Bool}
    (hn : n.write data x = some (ret, n')) :
    Passes n n' ∧ n'.history.attempts = n.history.attempts := by
  obtain ⟨n₁, hsend, hn⟩ := Option.bind_eq_some_iff.1 hn
  obtain ⟨n₂, hlines, hn⟩ := Option.bind_eq_some_iff.1 hn
  obtain ⟨-, rfl⟩ := Prod.mk.inj (Option.some.inj hn)
  have hsent : Passes n n₁ ∧ n₁.history.attempts = n.history.attempts := by
    unfold sendData at hsend
    split at hsend
    · dsimp only at hsend
      split at hsend
      · obtain ⟨hall, hkept, -⟩ := Passes.lines (n := n) hsend (.of_eq rfl rfl rfl rfl rfl)
        exact ⟨hall, hkept⟩
      · obtain rfl := Option.some.inj hsend
        exact ⟨.of_eq rfl rfl rfl rfl rfl, rfl⟩
    · obtain rfl := Option.some.inj hsend
      exact ⟨.refl _, rfl⟩
  obtain ⟨hall, hkept, -⟩ := Passes.lines hlines hsent.1
  exact ⟨hall, hkept.trans hsent.2⟩

theorem listen_holds {since : Nat} {items : List Octet} (h : n.Holds since items) (waiting : Nat) :
    (n.listen waiting).Holds since items := by
  by_cases hclosed : n.history.closed = true
  · have hreopened : (n.listen waiting).history.events = .reopened waiting :: n.history.events := by
      simp [listen, SocketHistory.connected, hclosed]
    have hlog := h.log (.reopened waiting)
    exact hlog.of_eq rfl rfl hreopened
  · have hsame : (n.listen waiting).history.events = n.history.events := by
      simp [listen, SocketHistory.connected, hclosed]
    exact h.of_eq rfl rfl hsame

/-! ## Which lines are handled to the end -/

/-- A line that would be taken for a datagram carries something besides quotes. -/
def readable (line : Bytes) : Bool :=
  match splitChar line comma with
  | [_, _, hex] => (strip hex quote).isSome
  | _ => true

theorem parseFilterResult_isSome (n : Bc95Network) {line : Bytes} (h : readable line = true) :
    ∃ n', n.parseFilterResult line = some n' := by
  unfold parseFilterResult
  unfold readable at h
  split
  · rename_i first count hex hsplit
    rw [hsplit] at h
    dsimp only at h ⊢
    cases hstrip : strip hex quote with
    | none =>
      rw [hstrip] at h
      cases h
    | some digits =>
      split
      · split
        · exact ⟨_, rfl⟩
        · exact ⟨_, rfl⟩
      · exact ⟨_, rfl⟩
  · exact ⟨_, rfl⟩

theorem handleLine_isSome (n : Bc95Network) {line : Bytes} (h : readable line = true) :
    ∃ n', n.handleLine line = some n' := by
  unfold handleLine
  split
  · exact n.parseFilterResult_isSome h
  · exact ⟨n, rfl⟩

theorem handleLines_isSome (n : Bc95Network) {lines : List Bytes}
    (h : ∀ line ∈ lines, readable line = true) : ∃ n', n.handleLines lines = some n' := by
  induction lines generalizing n with
  | nil => exact ⟨n, rfl⟩
  | cons line lines ih =>
    obtain ⟨n₁, hfirst⟩ := n.handleLine_isSome (h line List.mem_cons_self)
    obtain ⟨n₂, hrest⟩ := ih n₁ fun l hl => h l (List.mem_cons_of_mem _ hl)
    refine ⟨n₂, ?_⟩
    rw [handleLines, List.foldlM_cons]
    exact Option.bind_eq_some_iff.2 ⟨n₁, hfirst, hrest⟩

theorem readLoop_isSome (reqLen timeout : Nat) {passes : List Pass} (r : Reading)
    (h : ∀ line ∈ passes.flatMap (·.lines), readable line = true) :
    ∃ r', readLoop reqLen timeout passes r = some r' := by
  induction passes generalizing r with
  | nil => exact ⟨r, rfl⟩
  | cons p passes ih =>
    rw [List.flatMap_cons] at h
    have hrest := fun line hline => h line (List.mem_append_right _ hline)
    rw [readLoop]
    split
    · obtain ⟨n₁, hlines⟩ :=
        r.network.handleLines_isSome fun line hline => h line (List.mem_append_left _ hline)
      rw [hlines]
      dsimp only [Option.bind_eq_bind, Option.bind_some]
      split
      · exact ih _ hrest
      · split
        · exact ⟨_, rfl⟩
        · exact ih _ hrest
    · exact ⟨r, rfl⟩

/-- A call during which all lines can be read comes to its end. -/
theorem exec_isSome (n : Bc95Network) (call : Call)
    (h : ∀ line ∈ call.incoming, readable line = true) : ∃ n', n.exec call = some n' := by
  have hexchange {x : Exchange} (h : ∀ line ∈ x.before ++ x.after, readable line = true) :
      (∀ line ∈ x.before, readable line = true) ∧ ∀ line ∈ x.after, readable line = true :=
    ⟨fun line hline => h line (List.mem_append_left _ hline),
      fun line hline => h line (List.mem_append_right _ hline)⟩
  cases call with
  | connect hostname port x =>
    obtain ⟨hbefore, hafter⟩ := hexchange h
    obtain ⟨n₁, hn₁⟩ : ∃ n₁, n.askForSocket x = some n₁ := by
      unfold askForSocket
      dsimp only
      split
      · exact handleLines_isSome _ hbefore
      · exact ⟨_, rfl⟩
    obtain ⟨n₂, hn₂⟩ :=
      handleLines_isSome (n₁.assignSocket hostname port n.listenPort x).2 hafter
    simp [exec, connect, hn₁, hn₂]
  | disconnect x =>
    obtain ⟨hbefore, hafter⟩ := hexchange h
    obtain ⟨n₁, hn₁⟩ : ∃ n₁, n.askToClose x = some n₁ := by
      unfold askToClose
      split
      · dsimp only
        split
        · exact handleLines_isSome _ hbefore
        · exact ⟨_, rfl⟩
      · exact ⟨_, rfl⟩
    obtain ⟨n₂, hn₂⟩ := handleLines_isSome
      (if (!n.isConnected || (x.sent && x.ok)) = true then n₁.forgetSocket else n₁) hafter
    simp only [exec, disconnect, hn₁, Option.bind_eq_bind, Option.bind_some, hn₂]
    exact ⟨_, rfl⟩
  | write data x =>
    obtain ⟨hbefore, hafter⟩ := hexchange h
    obtain ⟨n₁, hn₁⟩ : ∃ n₁, n.sendData data x = some n₁ := by
      unfold sendData
      split
      · dsimp only
        split
        · exact handleLines_isSome _ hbefore
        · exact ⟨_, rfl⟩
      · exact ⟨_, rfl⟩
    obtain ⟨n₂, hn₂⟩ := handleLines_isSome n₁ hafter
    simp [exec, write, hn₁, hn₂]
  | read len timeout passes =>
    by_cases hlen : len < 0
    · simp [exec, read, hlen]
    · obtain ⟨r, hr⟩ := readLoop_isSome len.toNat timeout
        ⟨n, n.ipAvailable, []⟩ h
      simp [exec, read, hlen, hr]
  | urc lines => exact handleLines_isSome n h

end Bc95Network

end LibNbiot
