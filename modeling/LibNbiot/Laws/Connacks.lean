/-
# Connected after a CONNACK

The session flag is set by the stop handler of the connect loop, from whatever lies
in the read buffer, and cleared by the disconnect loop and by a DISCONNECT of the
gateway. The flag speaks of a CONNACK if the packet on which a connect loop ends in
time holds a return code. The length check of the CONNACK counts from the start of
the packet instead of the end of its length field, so that a CONNACK with a length
field of three bytes passes without a return code, and is taken for an accepting one
by the zero byte that the buffer holds behind it.
-/

import LibNbiot.Laws.Acknowledging

namespace LibNbiot

/-! ## CONNACKs in the log -/

/-- A CONNACK that accepts the connection. -/
def IsAcceptingConnack (p : Bytes) : Prop :=
  (packetDecode p).1 + 2 ≤ p.length ∧ packetType p = MsgType.connack.code.toNat ∧
    byteAt p ((packetDecode p).1 + 1) = rcAccepted

/-- A DISCONNECT that is well formed. -/
def IsDisconnect (p : Bytes) : Prop :=
  (packetDecode p).1 < p.length ∧ packetType p = MsgType.disconnect.code.toNat ∧
    deserializeDisconnect p = 1

instance (p : Bytes) : Decidable (IsAcceptingConnack p) := inferInstanceAs (Decidable (_ ∧ _))

instance (p : Bytes) : Decidable (IsDisconnect p) := inferInstanceAs (Decidable (_ ∧ _))

/-- Was an accepting CONNACK received since a disconnect loop was last completed and
since the gateway last disconnected? -/
def connacked : Log → Bool
  | [] => false
  | e :: t =>
      match e.event with
      | .app (.received p) =>
          decide (IsAcceptingConnack p) || (!decide (IsDisconnect p) && connacked t)
      | .answered .dis .stop _ _ => false
      | _ => connacked t

/-- Is a step handler running? -/
def inStep (t : Log) : Bool :=
  match running t with
  | some (_, .step, _) => true
  | _ => false

/-- Outside of a step, in which the last packet may not have been served yet, the
session flag speaks of a CONNACK. -/
def ConnectedAfterConnack : EntryLaw := fun _ v t =>
  v.isconnected = true → inStep t = false → connacked t = true

/-- A connect loop ends in time only on a packet with a return code behind its type. -/
def ConnectsOnWhole : EntryLaw
  | .called .con .stop v, _, t => v ≠ 0 → ∀ p ∈ lastReceived t, (packetDecode p).1 + 2 ≤ p.length
  | _, _, _ => True

instance (e : LoopEvent ClientId SysEvent) (v : View) (t : Log) :
    Decidable (ConnectedAfterConnack e v t) :=
  inferInstanceAs (Decidable (_ → _ → _))

instance (e : LoopEvent ClientId SysEvent) (v : View) (t : Log) :
    Decidable (ConnectsOnWhole e v t) := by
  induction e using LoopEvent.casesOn with
  | called c phase v =>
    induction c using ClientId.casesOn with
    | con =>
      induction phase using LoopPhase.casesOn with
      | stop => exact inferInstanceAs (Decidable (_ → _))
      | _ => exact .isTrue trivial
    | _ => exact .isTrue trivial
  | _ => exact .isTrue trivial

/-- An accepting CONNACK is one as it was received. -/
theorem IsAcceptingConnack.of_buffer {buf : Bytes} {n : Nat}
    (hwhole : (packetDecode (buf.take n)).1 + 2 ≤ (buf.take n).length)
    (htype : packetType buf = MsgType.connack.code.toNat)
    (h : deserializeConnack buf 255 = (1, 0)) : IsAcceptingConnack (buf.take n) := by
  have hheader : (packetDecode (buf.take n)).1 < (buf.take n).length := by omega
  have hrc : byteAt buf ((packetDecode buf).1 + 1) = 0 := by
    simp only [deserializeConnack] at h
    split at h
    · exact (Prod.mk.inj h).2
    · exact absurd (Prod.mk.inj h).2 (by decide)
  refine ⟨hwhole, (packetType_take hheader).trans htype, ?_⟩
  rw [byteAt_take (by omega), packetDecode_take hheader]
  exact hrc

/-- A DISCONNECT is one in the buffer, too. -/
theorem IsDisconnect.in_buffer {buf : Bytes} {n : Nat} (h : IsDisconnect (buf.take n)) :
    packetType buf = MsgType.disconnect.code.toNat ∧ deserializeDisconnect buf = 1 := by
  obtain ⟨hheader, htype, hrc⟩ := h
  rw [packetType_take hheader] at htype
  rw [deserializeDisconnect, packetDecode_take hheader, packetType_take hheader] at hrc
  exact ⟨htype, hrc⟩

/-- Is a handler running, or has a step handler just answered? -/
def serving : Log → Bool
  | [] => false
  | e :: t =>
      match e.event with
      | .answered _ .step _ _ => true
      | _ => (running (e :: t)).isSome

theorem serving_of_running {t : Log} {c : ClientId} {phase : LoopPhase} {v : Int}
    (h : running t = some (c, phase, v)) : serving t = true := by
  cases t with
  | nil => cases h
  | cons e t =>
    rw [serving]
    split
    · rfl
    · rw [h]
      rfl

/-- Entries with which neither a packet is read nor a handler begins or ends. -/
def LoopEvent.beside : LoopEvent ClientId SysEvent → Bool
  | .app (.received _) | .app .receiveFailed | .called _ _ _ | .answered _ _ _ _ => false
  | _ => true

theorem LoopEvent.beside.same {e : LoopEvent ClientId SysEvent} (he : e.beside = true) (v : View)
    (t : Log) : running (⟨e, v⟩ :: t) = running t ∧ lastReceived (⟨e, v⟩ :: t) = lastReceived t ∧
      connacked (⟨e, v⟩ :: t) = connacked t ∧ serving (⟨e, v⟩ :: t) = (running t).isSome := by
  cases e with
  | app e => cases e <;> first | exact ⟨rfl, rfl, rfl, rfl⟩ | cases he
  | _ => first | exact ⟨rfl, rfl, rfl, rfl⟩ | cases he

/-! ## The invariant -/

/-- What the session flag and the packets that were read say of the CONNACK. -/
structure Connections (k : Core) : Prop where
  reads : ReadsKept k
  /-- A DISCONNECT clears the flag by the end of the step in which it is read. -/
  since : k.isconnected = true → connacked k.trace = true ∨ inStep k.trace = true ∧ ¬k.Heeded
  heard : serving k.trace = true → ∀ p ∈ lastReceived k.trace, IsAcceptingConnack p →
    connacked k.trace = true
  whole : ∀ v, running k.trace = some (.con, .stop, v) → v ≠ 0 →
    ∀ p ∈ lastReceived k.trace, (packetDecode p).1 + 2 ≤ p.length
  law : Throughout ConnectedAfterConnack k.trace

namespace Connections

variable {k k' : Core}

/-- Outside of a step the flag speaks of a CONNACK. -/
theorem settled (hk : Connections k) (hstep : inStep k.trace = false) (h : k.isconnected = true) :
    connacked k.trace = true := by
  rcases hk.since h with h | ⟨hin, -⟩
  · exact h
  · rw [hstep] at hin
    cases hin

/-- So it does when no packet was read that is still to be heeded. -/
theorem heeded (hk : Connections k) (hheeded : k.Heeded) (h : k.isconnected = true) :
    connacked k.trace = true :=
  (hk.since h).elim id fun hin => absurd hheeded hin.2

/-- A step that logs nothing. The read buffer changes only before a packet was
read. -/
theorem of_silent (hk : Connections k) (hreads : ReadsKept k') (htrace : k'.trace = k.trace)
    (hconn : k'.isconnected = true → k.isconnected = true)
    (hread : k'.readbuf = k.readbuf ∨ lastReceived k.trace = none) : Connections k' := by
  refine ⟨hreads, fun h => ?_, ?_, ?_, ?_⟩
  · rw [htrace]
    refine (hk.since (hconn h)).imp_right fun hin => ⟨hin.1, fun hheeded => hin.2 ?_⟩
    rcases hread with hread | hread
    · intro hdis hrc
      rw [HasRead, ← htrace, ← hread] at hdis
      rw [← hread] at hrc
      rw [hheeded hdis hrc] at h
      cases h
    · exact .of_unread hread
  · rw [htrace]
    exact hk.heard
  · rw [htrace]
    exact hk.whole
  · rw [htrace]
    exact hk.law

/-- A step that logs an entry with which neither a packet is read nor a handler begins
or ends. -/
theorem of_beside (hk : Connections k) (hreads : ReadsKept k') {e : LoopEvent ClientId SysEvent}
    {v : View} (htrace : k'.trace = ⟨e, v⟩ :: k.trace) (he : e.beside = true)
    (hv : v.isconnected = k.isconnected) (hconn : k'.isconnected = k.isconnected)
    (hread : k'.readbuf = k.readbuf) : Connections k' := by
  obtain ⟨hrunning, hreceived, hsame, hserving⟩ := LoopEvent.beside.same he v k.trace
  refine ⟨hreads, fun h => ?_, fun hs p hp => ?_, fun v' hrun => ?_, ?_⟩
  · rw [hconn] at h
    rw [htrace, inStep, hrunning, hsame]
    refine (hk.since h).imp_right fun hin => ⟨hin.1, fun hheeded => hin.2 fun hdis hrc => ?_⟩
    rw [← hconn]
    refine hheeded ?_ (by rw [hread]; exact hrc)
    rw [HasRead, htrace, hreceived, hread]
    exact hdis
  · rw [htrace, hserving] at hs
    obtain ⟨r, hrun⟩ := Option.isSome_iff_exists.1 hs
    rw [htrace, hreceived] at hp
    rw [htrace, hsame]
    exact hk.heard (serving_of_running hrun) p hp
  · rw [htrace, hrunning] at hrun
    rw [htrace, hreceived]
    exact hk.whole v' hrun
  · rw [htrace]
    exact ⟨fun h hstep => hk.settled hstep (hv ▸ h), hk.law⟩

/-- A handler is called. -/
theorem of_called (hk : Connections k) (hreads : ReadsKept k') {c : ClientId} {phase : LoopPhase}
    {v : Int} {w : View} (htrace : k'.trace = ⟨.called c phase v, w⟩ :: k.trace)
    (hw : w.isconnected = k.isconnected) (hconn : k'.isconnected = k.isconnected)
    (hidle : running k.trace = none) (hserving : phase = .stop → serving k.trace = true)
    (hC : Throughout ConnectsOnWhole k'.trace) : Connections k' := by
  have hsettled : k.isconnected = true → connacked k.trace = true :=
    hk.settled (by rw [inStep, hidle])
  have hnone : phase ≠ .stop → lastReceived k'.trace = none := by
    rw [htrace]
    cases phase with
    | stop => exact fun h => absurd rfl h
    | _ => exact fun _ => rfl
  have hsame : phase = .stop → lastReceived k'.trace = lastReceived k.trace := by
    rintro rfl
    rw [htrace]
    rfl
  refine ⟨hreads, fun h => .inl ?_, fun _ p hp => ?_, fun v' hrun hv' p hp => ?_, ?_⟩
  · rw [htrace]
    exact hsettled (hconn ▸ h)
  · by_cases hphase : phase = .stop
    · rw [hsame hphase] at hp
      rw [htrace]
      exact hk.heard (hserving hphase) p hp
    · rw [hnone hphase] at hp
      cases hp
  · rw [htrace] at hrun hC
    cases hrun
    rw [hsame rfl] at hp
    exact hC.1 hv' p hp
  · rw [htrace]
    exact ⟨fun h _ => hsettled (hw ▸ h), hk.law⟩

/-- A handler has answered. -/
theorem of_answered (hk : Connections k) (hreads : ReadsKept k') {c : ClientId}
    {phase : LoopPhase} {v v' : Int} {a : Bool} {w : View}
    (htrace : k'.trace = ⟨.answered c phase a v', w⟩ :: k.trace)
    (hw : w.isconnected = k'.isconnected) (hrun : running k.trace = some (c, phase, v))
    (hconn : k'.isconnected = true → connacked k'.trace = true ∧ connacked k.trace = true) :
    Connections k' := by
  refine ⟨hreads, fun h => .inl (hconn h).1, fun hs p hp hacc => ?_, ?_, ?_⟩
  · rw [htrace] at hs hp ⊢
    cases phase with
    | step =>
      have hheard := hk.heard (serving_of_running hrun) p hp hacc
      cases c <;> exact hheard
    | _ => cases hs
  · rw [htrace]
    exact fun v'' h => nomatch h
  · rw [htrace]
    exact ⟨fun h _ => (hconn (hw ▸ h)).2, hk.law⟩

/-- When the stop handler of the connect loop accepts, a CONNACK was received. -/
theorem accepted (hk : Connections k) {v : Int} (hrun : running k.trace = some (.con, .stop, v))
    (hv : v ≠ 0) (h : deserializeConnack k.readbuf 255 = (1, 0)) : connacked k.trace = true := by
  obtain hzero | ⟨hc, -⟩ | ⟨hsome, htype⟩ := hk.reads.stopping .con v .connack hrun rfl
  · exact absurd hzero hv
  · cases hc
  · obtain ⟨p, hp⟩ := Option.isSome_iff_exists.1 hsome
    have hwhole := hk.whole v hrun hv p hp
    apply hk.heard (serving_of_running hrun) p hp
    rw [(hk.reads.buffer p hp).1] at hwhole ⊢
    exact .of_buffer hwhole htype h

theorem hand (hk : Connections k) (hreads : ReadsKept k') (h : Hand k k') : Connections k' := by
  cases h with
  | store c phase v v' h => exact hk.of_silent hreads rfl id (.inl rfl)
  | transmit c v p b w t hlog hp hb => exact hk.of_beside hreads rfl rfl rfl rfl rfl
  | countRetry c v w t hc hlog hleft =>
    rcases hc with rfl | rfl <;> exact hk.of_beside hreads rfl rfl rfl rfl rfl
  | retransmit c v p b w t h hlog hp hb => exact hk.of_beside hreads rfl rfl rfl rfl rfl
  | restore buf => exact hk.of_beside hreads rfl rfl rfl rfl rfl
  | read buf h => exact hk.of_silent hreads rfl id (.inr h)
  | receive c v h hlen hfirst =>
    have hin : inStep k.trace = true := by rw [inStep, h]
    refine ⟨hreads, fun hconn => ?_, fun _ p hp hacc => ?_, fun v' hrun => ?_, ?_, hk.law⟩
    · have hbefore := hk.heeded (.of_unread hfirst) hconn
      by_cases hdis : IsDisconnect (k.readbuf.take (packetDecode k.readbuf).2)
      · refine .inr ⟨hin, fun hheeded => ?_⟩
        obtain ⟨htype, hrc⟩ := hdis.in_buffer
        have hlost : k.isconnected = false := hheeded ⟨rfl, htype⟩ hrc
        cases hlost.symm.trans hconn
      · refine .inl ?_
        change (decide _ || (!decide _ && connacked k.trace)) = true
        rw [hbefore, decide_eq_false hdis]
        exact Bool.or_true _
    · obtain rfl := Option.some.inj hp
      change (decide _ || _) = true
      rw [decide_eq_true hacc]
      exact Bool.true_or _
    · cases h.symm.trans hrun
    · intro _ hstep
      rw [hin] at hstep
      cases hstep
  | receiveFailed c v h hfirst =>
    have hin : inStep k.trace = true := by rw [inStep, h]
    refine ⟨hreads, fun hconn => .inl (hk.heeded (.of_unread hfirst) hconn),
      (fun _ p hp => nomatch hp), fun v' hrun => ?_, ?_, hk.law⟩
    · cases h.symm.trans hrun
    · intro _ hstep
      rw [hin] at hstep
      cases hstep

/-- What a handler does to the session flag with its answer. -/
theorem answered (hk : Connections k) {c : ClientId} {phase : LoopPhase} {v : Int} {a : Bool}
    (hrun : running k.trace = some (c, phase, v)) (ha : Answer k c phase v a k')
    (h : k'.isconnected = true) : connacked k.trace = true := by
  have settled (hphase : phase ≠ .step) : k.isconnected = true → connacked k.trace = true := by
    apply hk.settled
    rw [inStep, hrun]
    cases phase with
    | step => exact absurd rfl hphase
    | _ => rfl
  cases ha with
  | goOn c v hheeded => exact hk.heeded hheeded h
  | done c v hdone hheeded => exact hk.heeded hheeded h
  | connected v hv hconnack => exact hk.accepted hrun hv hconnack
  | disconnected v => cases h
  | published v a k' hend => cases hend <;> exact settled nofun h
  | _ => exact settled nofun h

theorem turn (hk : Connections k) (hreads : ReadsKept k') (h : Turn k k')
    (hC : Throughout ConnectsOnWhole k'.trace) : Connections k' := by
  cases h with
  | clear h => exact hk.of_beside hreads rfl rfl rfl rfl rfl
  | resetBreak => exact hk.of_silent hreads rfl id (.inl rfl)
  | take c queue h hactive hqueue => exact hk.of_beside hreads rfl rfl rfl rfl rfl
  | callStart c r v t hactive hlog hr h => exact hk.of_called hreads rfl rfl rfl h nofun hC
  | callStep c h hactive hr => exact hk.of_called hreads rfl rfl rfl h nofun hC
  | callStop c v t hactive hlog =>
    refine hk.of_called hreads rfl rfl rfl ?_ (fun _ => ?_) hC
    · rw [hlog]
      rfl
    · rw [hlog]
      rfl
  | answer c phase v a h hactive hdis ha =>
    refine hk.of_answered hreads (congrArg (_ :: ·) ha.trace) rfl h fun hconn => ?_
    have hbefore := hk.answered h ha hconn
    refine ⟨?_, hbefore⟩
    rw [← ha.trace] at hbefore
    cases c with
    | dis => cases phase <;> first | exact hbefore | exact absurd rfl (hdis rfl)
    | _ => exact hbefore
  | wrap c phase a hanswered hdis h => cases h <;> exact hk.of_silent hreads rfl id (.inl rfl)
  | idle hactive => exact hk.of_silent hreads rfl id (.inl rfl)

theorem basic (h : Basic k k') (hC : Throughout ConnectsOnWhole k'.trace) (hk : Connections k) :
    Connections k' := by
  have hreads := hk.reads.basic h
  cases h with
  | act h =>
    cases h with
    | note e h =>
      refine hk.of_beside hreads rfl ?_ rfl rfl rfl
      cases e <;> first | rfl | cases h
    | setBreak => exact hk.of_silent hreads rfl id (.inl rfl)
    | _ => exact hk.of_beside hreads rfl rfl rfl rfl rfl
  | plug h => cases h <;> exact hk.of_beside hreads rfl rfl rfl rfl rfl
  | move h => cases h <;> exact hk.of_beside hreads rfl rfl rfl rfl rfl
  | ready h =>
    cases h with
    | look left => exact hk.of_beside hreads rfl rfl rfl rfl rfl
    | _ => exact hk.of_silent hreads rfl id (.inl rfl)
  | lost => exact hk.of_silent hreads rfl nofun (.inl rfl)
  | hand h => exact hk.hand hreads h
  | turn h => exact hk.turn hreads h hC
  | ending h =>
    cases h with
    | answer v h hactive => exact hk.of_answered hreads rfl rfl h nofun
    | wrap hanswered h => cases h <;> exact hk.of_silent hreads rfl id (.inl rfl)
    | closeSocket ok v w t hlog hstate => exact hk.of_beside hreads rfl rfl rfl rfl rfl
    | setBreak => exact hk.of_silent hreads rfl id (.inl rfl)
  | call h =>
    cases h with
    | publish id q hactive hqueue =>
      have hset : Connections (({ k with qos := q, pubRetryCount := k.maxRetry }.setValue .pub
          id).emit (.publishQueued id q)) :=
        hk.of_beside (hk.reads.of_unread rfl rfl (hk.reads.idle hactive) rfl rfl) rfl rfl rfl rfl rfl
      exact hset.of_beside hreads rfl rfl rfl rfl rfl
    | subscribe id q hactive hqueue hsub =>
      have hset : Connections (({ k with qos := q, subRetryCount := k.maxRetry }.setValue .sub
          id).emit (.subscribeQueued id)) :=
        hk.of_beside (hk.reads.of_unread rfl rfl (hk.reads.idle hactive) rfl rfl) rfl rfl rfl rfl rfl
      exact hset.of_beside hreads rfl rfl rfl rfl rfl
    | _ => exact hk.of_beside hreads rfl rfl rfl rfl rfl

theorem fresh (conf : CoreConf) : Connections (.fresh conf) :=
  ⟨.fresh conf, nofun, (fun _ _ hp => nomatch hp), (fun _ h => nomatch h), trivial⟩

end Connections

end LibNbiot
