/-
# Sessions of a socket do not mix

What is read from a socket that was closed and opened again should have come in
after it was opened. The buffers of the modem classes outlive the socket: neither
a connect nor a disconnect clears them. So the sessions are apart as long as a
socket that is opened again finds its buffer empty, and, for the BC95, as long as
no line announces more than it carries and no read ends with more than is
available.
-/

import LibNbiot.Modem.ByteCount
import LibNbiot.Modem.Bg96Receiving

namespace LibNbiot

namespace SocketHistory

/-- **Sessions are apart**: what a read delivers has come in after the connect that
opened the socket again. -/
def Apart (h : SocketHistory) : Prop :=
  ∀ opened octets, .delivered (some opened) octets ∈ h.events → ∀ o ∈ octets, o.Since opened

theorem Apart.quiet {h h' : SocketHistory} (hq : Bc95Network.Quiet h h') (ha : h.Apart) :
    h'.Apart := by
  obtain ⟨new, hnew, hno⟩ := hq
  intro opened octets he
  rw [hnew] at he
  obtain he | he := List.mem_append.1 he
  · exact absurd rfl (hno _ he (some opened) octets)
  · exact ha opened octets he

/-- What is delivered belongs to the session. -/
theorem Apart.deliver {h : SocketHistory} (ha : h.Apart) {octets : List Octet}
    (ho : ∀ o ∈ octets, o.Since (h.opened.getD 0)) :
    (h.log (.delivered h.opened octets)).Apart := by
  intro opened octets' he
  obtain he | he := List.mem_cons.1 he
  · obtain ⟨hopened, rfl⟩ := SocketEvent.delivered.inj he
    rw [← hopened] at ho
    exact ho
  · exact ha opened octets' he

end SocketHistory

/-! ## The BC95 -/

namespace Bc95Network

variable {n n' : Bc95Network}

/-- The state between two calls: what is in the buffer has come in since the socket
was opened again. -/
structure Session (n : Bc95Network) : Prop where
  opened : n.history.opened.getD 0 ≤ n.history.attempts
  holds : ∃ items, n.Holds (n.history.opened.getD 0) items
  apart : n.history.Sane → n.history.Apart

theorem Session.passes (h : n.Session) (hp : Passes n n')
    (hattempts : n.history.attempts ≤ n'.history.attempts) : n'.Session := by
  obtain ⟨items, hitems⟩ := h.holds
  have hopened : n'.history.opened.getD 0 ≤ n'.history.attempts := by
    rw [hp.opened]
    exact h.opened.trans hattempts
  refine ⟨hopened, ?_, fun hs => (h.apart (hp.quiet.sane hs)).quiet hp.quiet⟩
  rw [hp.opened] at hopened ⊢
  exact hp.holds _ items hitems hopened

/-- Events can make a condition void. -/
theorem Holds.of_not_sane {since since' : Nat} {items : List Octet} (h : n.Holds since items)
    (hs : ¬n.history.Sane) : n.Holds since' items :=
  ⟨h.represents, h.counted, fun h' => absurd h' hs, fun h' => absurd h' hs⟩

theorem Session.connect (h : n.Session) {x : Exchange} {ret : Bool} {n₁ : Bc95Network}
    (hc : Connects x ret n n₁ n') : n'.Session := by
  have hattempts : n.history.attempts ≤ n₁.history.attempts := by
    rw [hc.attempts]
    exact Nat.le_succ _
  have hasked := h.passes hc.passes hattempts
  rw [hc.after]
  split
  · by_cases hclosed : n₁.history.closed = true
    · have hhistory : (n₁.listen n.buffer.size).history = { n₁.history with
          closed := false
          opened := some n₁.history.attempts
          events := .reopened n.buffer.size :: n₁.history.events } := if_pos hclosed
      have hquiet : Quiet n₁.history (n₁.listen n.buffer.size).history :=
        ⟨[.reopened n.buffer.size], by rw [hhistory]; rfl, fun e he => by
          rw [List.mem_singleton.1 he]
          nofun⟩
      refine ⟨by rw [hhistory]; exact le_rfl, ?_, fun hs =>
        (hasked.apart (hquiet.sane hs)).quiet hquiet⟩
      have hopened : (n₁.listen n.buffer.size).history.opened.getD 0 = n₁.history.attempts := by
        rw [hhistory]
        rfl
      rw [hopened]
      obtain ⟨items, hitems⟩ := h.holds
      by_cases hwaiting : n.buffer.size = 0
      · -- nothing is left of the earlier socket
        obtain rfl : items = [] := List.length_eq_zero_iff.1 (hitems.size_eq.symm.trans hwaiting)
        have hnone : n.Holds n₁.history.attempts [] :=
          ⟨hitems.represents, hitems.counted, hitems.promised,
            fun _ _ ho => absurd ho List.not_mem_nil⟩
        obtain ⟨items₁, hitems₁⟩ := hc.passes.holds _ [] hnone le_rfl
        exact ⟨items₁, listen_holds hitems₁ _⟩
      · obtain ⟨items₁, hitems₁⟩ := hasked.holds
        refine ⟨items₁, (listen_holds hitems₁ _).of_not_sane fun hs => hwaiting ?_⟩
        apply hs (.reopened n.buffer.size)
        rw [hhistory]
        exact List.mem_cons_self
    · have hhistory : (n₁.listen n.buffer.size).history = n₁.history := if_neg hclosed
      obtain ⟨items₁, hitems₁⟩ := hasked.holds
      have hopened := hasked.opened
      have hapart := hasked.apart
      rw [← hhistory] at hopened hapart hitems₁
      exact ⟨hopened, ⟨items₁, listen_holds hitems₁ _⟩, hapart⟩
  · exact hasked

theorem Session.exec (h : n.Session) {call : Call} (hn : n.exec call = some n') : n'.Session := by
  cases call with
  | connect hostname port x =>
    obtain ⟨⟨ret, n₂⟩, hconnect, rfl⟩ := Option.map_eq_some_iff.1 hn
    obtain ⟨n₁, hconnects⟩ := connect_connects hconnect
    exact h.connect hconnects
  | disconnect x =>
    obtain ⟨⟨ret, n₂⟩, hdisconnect, rfl⟩ := Option.map_eq_some_iff.1 hn
    obtain ⟨n₁, hd⟩ := disconnect_disconnects hdisconnect
    have hasked := h.passes hd.passes hd.attempts.ge
    have hclosed : Session (if ret then n₁.forgetSocket else n₁) := by
      split
      · obtain ⟨items, hitems⟩ := hasked.holds
        exact ⟨hasked.opened, ⟨items, hitems.of_eq rfl rfl rfl⟩, hasked.apart⟩
      · exact hasked
    exact hclosed.passes hd.after.2 hd.after.1.attempts.ge
  | write data x =>
    obtain ⟨⟨ret, n₂⟩, hwrite, rfl⟩ := Option.map_eq_some_iff.1 hn
    obtain ⟨hpasses, hattempts⟩ := write_passes hwrite
    exact h.passes hpasses hattempts.ge
  | read len timeout passes =>
    obtain ⟨⟨rc, octets, n₂⟩, hread, rfl⟩ := Option.map_eq_some_iff.1 hn
    obtain ⟨items, hitems⟩ := h.holds
    obtain ⟨hholds, rfl | ⟨n₁, hframe, hdata, rfl⟩⟩ := read_holds hitems h.opened hread
    · exact h
    · refine ⟨?_, ?_, fun hs => ?_⟩
      · have hopened := h.opened
        rw [← hframe.opened, ← hframe.attempts] at hopened
        exact hopened
      · rw [← hframe.opened] at hholds
        exact hholds
      · have hs₁ := (SocketHistory.sane_log.1 hs).2
        have hapart := (h.apart (hframe.quiet.sane hs₁)).quiet hframe.quiet
        apply hapart.deliver
        rw [hframe.opened]
        exact hdata hs₁
  | urc lines =>
    have hframe := handleLines_frame hn
    exact h.passes (.of_lines hn) hframe.attempts.ge

theorem session_fresh {array : List Octet} (h : array.length = 512) : (fresh array).Session := by
  refine ⟨le_rfl, ⟨[], ?_, fun _ => rfl, fun _ => le_rfl, fun _ _ ho => absurd ho List.not_mem_nil⟩,
    fun _ _ _ he => absurd he List.not_mem_nil⟩
  exact CircularBuffer.reset_represents (b := ⟨array, 0, 0, false⟩) h (by decide)

theorem session_run {calls : List Call} (h : n.Session)
    (hlines : ∀ call ∈ calls, ∀ line ∈ call.incoming, readable line = true) :
    ∃ n', run n calls = some n' ∧ n'.Session := by
  induction calls generalizing n with
  | nil => exact ⟨n, rfl, h⟩
  | cons call calls ih =>
    obtain ⟨n₁, hn₁⟩ := n.exec_isSome call (hlines call List.mem_cons_self)
    obtain ⟨n₂, hn₂, hsession⟩ :=
      ih (h.exec hn₁) fun c hc => hlines c (List.mem_cons_of_mem _ hc)
    refine ⟨n₂, ?_, hsession⟩
    rw [run, List.foldlM_cons]
    exact Option.bind_eq_some_iff.2 ⟨n₁, hn₁, hn₂⟩

end Bc95Network

/-! ## The BG96 -/

namespace Bg96Network

variable {n n' : Bg96Network}

/-- The state between two calls: what is in the buffer has come in since the socket
was opened again. -/
structure Session (n : Bg96Network) : Prop where
  opened : n.history.opened.getD 0 ≤ n.history.attempts
  holds : ∃ items, n.Holds (n.history.opened.getD 0) items
  apart : n.history.Sane → n.history.Apart

theorem Session.collects (h : n.Session) (hc : Collects n n') : n'.Session := by
  obtain ⟨items, hitems⟩ := h.holds
  refine ⟨?_, ?_, ?_⟩
  · rw [hc.history]
    exact h.opened
  · rw [hc.history]
    exact hc.holds _ items hitems h.opened
  · rw [hc.history]
    exact h.apart

theorem Session.connect (h : n.Session) {x : OpenExchange} {ret : Bool} {n₁ : Bg96Network}
    (hc : Connects x ret n n₁ n') : n'.Session := by
  obtain ⟨items, hitems⟩ := h.holds
  have hitems₁ : n₁.Holds (n.history.opened.getD 0) items :=
    hitems.of_eq hc.readBuffer (by rw [hc.history]; rfl)
  have hasked : n₁.Session := by
    refine ⟨?_, ⟨items, ?_⟩, ?_⟩
    · rw [hc.history]
      exact h.opened.trans (Nat.le_succ _)
    · rw [hc.history]
      exact hitems₁
    · rw [hc.history]
      exact h.apart
  rw [hc.after]
  split
  · by_cases hclosed : n₁.history.closed = true
    · have hhistory : (n₁.listen n.readBuffer.size).history = { n₁.history with
          closed := false
          opened := some n₁.history.attempts
          events := .reopened n.readBuffer.size :: n₁.history.events } := if_pos hclosed
      have hsane : (n₁.listen n.readBuffer.size).history.Sane →
          n.readBuffer.size = 0 ∧ n₁.history.Sane := by
        intro hs
        rw [hhistory] at hs
        exact List.forall_mem_cons.1 hs
      have hquiet : Bc95Network.Quiet n₁.history (n₁.listen n.readBuffer.size).history := by
        refine ⟨[.reopened n.readBuffer.size], by rw [hhistory]; rfl, fun e he => ?_⟩
        rw [List.mem_singleton.1 he]
        nofun
      have hopened : (n₁.listen n.readBuffer.size).history.opened.getD 0 = n₁.history.attempts := by
        rw [hhistory]
        rfl
      refine ⟨by rw [hhistory]; exact le_rfl, ⟨items, hitems₁.represents, fun hs o ho => ?_⟩,
        fun hs => (hasked.apart (hsane hs).2).quiet hquiet⟩
      -- nothing is left of the earlier socket
      have hnone : items.length = 0 := hitems.represents.size_eq.symm.trans (hsane hs).1
      rw [List.length_eq_zero_iff.1 hnone] at ho
      exact absurd ho List.not_mem_nil
    · have hhistory : (n₁.listen n.readBuffer.size).history = n₁.history := if_neg hclosed
      obtain ⟨hopened, ⟨items', hitems'⟩, hapart⟩ := hasked
      rw [← hhistory] at hopened hapart hitems'
      exact ⟨hopened, ⟨items', hitems'.represents, fun hs => hitems'.since (by rw [← hhistory]; exact hs)⟩,
        hapart⟩
  · exact hasked

theorem Session.exec (h : n.Session) (call : Call) : (n.exec call).Session := by
  cases call with
  | connect hostname port x =>
    obtain ⟨n₁, hconnects⟩ := n.connect_connects hostname port x
    exact h.connect hconnects
  | disconnect x =>
    obtain ⟨n₁, hd⟩ := n.disconnect_disconnects x
    have hasked := h.collects hd.before
    have hclosed : Session (if (n.disconnect x).1 then n₁.forgetSocket else n₁) := by
      split
      · obtain ⟨items, hitems⟩ := hasked.holds
        exact ⟨hasked.opened, ⟨items, hitems.of_eq rfl rfl⟩, hasked.apart⟩
      · exact hasked
    exact hclosed.collects hd.after
  | write data x => exact h.collects (n.write_collects data x)
  | read len timeout first passes =>
    obtain ⟨n₁, hcollects, hn | ⟨count, hn⟩⟩ := n.read_reads len timeout first passes
    · rw [Bg96Network.exec, hn]
      exact h.collects hcollects
    · have hbefore := h.collects hcollects
      obtain ⟨items, hitems⟩ := hbefore.holds
      obtain ⟨⟨rest, hrest⟩, hserved⟩ := serve_holds hitems count
      have hhistory := (n₁.serve_frame count).2.2
      rw [Bg96Network.exec, hn]
      refine ⟨hbefore.opened, ⟨rest, hrest.represents, fun hs => hrest.since ?_⟩, fun hs => ?_⟩
      · rw [hhistory]
        exact (SocketHistory.sane_log.1 hs).2
      · have hs₁ := (SocketHistory.sane_log.1 hs).2
        apply (hbefore.apart hs₁).deliver
        intro o ho
        exact hitems.since hs₁ o (hserved o ho)
  | urc lines => exact h.collects (n.handleLines_collects lines)

theorem session_fresh {array : List Octet} (h : array.length = 256) : (fresh array).Session := by
  refine ⟨le_rfl, ⟨[], ?_, fun _ _ ho => absurd ho List.not_mem_nil⟩,
    fun _ _ _ he => absurd he List.not_mem_nil⟩
  exact CircularBuffer.reset_represents (b := ⟨array, 0, 0, false⟩) h (by decide)

theorem session_run (h : n.Session) (calls : List Call) : (run n calls).Session := by
  induction calls generalizing n with
  | nil => exact h
  | cons call calls ih => exact ih (h.exec call)

end Bg96Network

/-! ## Both -/

/-- **Sessions do not mix** in the runs in which a socket that is opened again finds
its buffer empty. The BC95 needs that lines carry what they announce and that reads
end with what is available, besides. -/
theorem sessions_apart {array : List Octet} (harray : array.length = 512)
    (calls : List Bc95Network.Call)
    (hlines : ∀ call ∈ calls, ∀ line ∈ call.incoming, Bc95Network.readable line = true)
    {readArray : List Octet} (hreadArray : readArray.length = 256)
    (readCalls : List Bg96Network.Call) :
    (∃ n, Bc95Network.run (.fresh array) calls = some n ∧ (n.history.Sane → n.history.Apart)) ∧
      ((Bg96Network.run (.fresh readArray) readCalls).history.Sane →
        (Bg96Network.run (.fresh readArray) readCalls).history.Apart) := by
  obtain ⟨n, hn, hsession⟩ := Bc95Network.session_run (Bc95Network.session_fresh harray) hlines
  exact ⟨⟨n, hn, hsession.apart⟩,
    (Bg96Network.session_run (Bg96Network.session_fresh hreadArray) readCalls).apart⟩

/-- Both sockets are opened twice, and everything is read before they are closed. -/
theorem sessions_apart_reading :
    (∃ n, Bc95Network.run (.fresh (List.replicate 512 .unknown))
        [.connect [104] 1883 { response := [48] }, .urc [Bc95Network.datagramLine 0 [7, 8]],
          .read 2 1000 [⟨1000, []⟩], .disconnect {}, .connect [104] 1883 { response := [48] },
          .urc [Bc95Network.datagramLine 0 [9]], .read 1 1000 []] = some n ∧
        (n.history.Sane → n.history.Apart)) ∧
      ((Bg96Network.run (.fresh (List.replicate 256 .unknown))
          [.connect [104] 1883 { response := [43, 58, 32, 48, 44, 48] },
            .read 2 1000 { response := [43, 58, 32, 50], raw := [some 7, some 8] } []]).history.Sane →
        (Bg96Network.run (.fresh (List.replicate 256 .unknown))
          [.connect [104] 1883 { response := [43, 58, 32, 48, 44, 48] },
            .read 2 1000 { response := [43, 58, 32, 50], raw := [some 7, some 8] } []]).history.Apart) :=
  sessions_apart (List.length_replicate ..) _ (by decide +kernel) (List.length_replicate ..) _

/-- A datagram that nobody has read is delivered to the next socket: its bytes came in
after the first connect, and the socket was opened by the second. -/
theorem not_apart_unread :
    ∃ n, Bc95Network.run (.fresh (List.replicate 512 .unknown))
        [.connect [104] 1883 { response := [48] }, .urc [Bc95Network.datagramLine 0 [7, 8]],
          .disconnect {}, .connect [104] 1883 { response := [48] }, .read 2 1000 []] = some n ∧
      .delivered (some 2) [⟨7, some 1⟩, ⟨8, some 1⟩] ∈ n.history.events ∧ ¬n.history.Apart := by
  have hrun : (Bc95Network.run (.fresh (List.replicate 512 .unknown))
      [.connect [104] 1883 { response := [48] }, .urc [Bc95Network.datagramLine 0 [7, 8]],
        .disconnect {}, .connect [104] 1883 { response := [48] }, .read 2 1000 []]).any
      (fun n => .delivered (some 2) [⟨7, some 1⟩, ⟨8, some 1⟩] ∈ n.history.events) = true := by
    decide +kernel
  obtain ⟨n, hn, hdelivered⟩ := (Option.any_eq_true _ _).1 hrun
  have hdelivered := of_decide_eq_true hdelivered
  refine ⟨n, hn, hdelivered, fun hapart => ?_⟩
  obtain ⟨k, hk, hle⟩ := hapart 2 _ hdelivered ⟨7, some 1⟩ List.mem_cons_self
  obtain rfl := Option.some.inj hk
  exact absurd hle (by decide)

end LibNbiot
