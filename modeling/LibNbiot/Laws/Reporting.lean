/-
# What the application is told about a publish

A publish is reported as a success when a PUBACK with an accepting return code was
read for it, unless its loop ends otherwise: the value that a timeout leaves is
zero, which is the accepting return code, and a PUBACK with a foreign message id
lets the loop end well.
-/

import LibNbiot.Laws.Acknowledging

namespace LibNbiot

/-- The quality of service under which the publish loop has ended, while the library
follows up on it. -/
def endedUnder : Log → Option QoS
  | [] => none
  | e :: t =>
      match e.event with
      | .app _ | .registered _ => endedUnder t
      | .answered .pub .stop _ _ => some e.view.qos
      | _ => none

/-- A complete PUBACK with an accepting return code. -/
def IsAcceptingPuback (p : Bytes) : Prop :=
  Complete .pub p ∧ packetType p = MsgType.puback.code.toNat ∧
    (ClientId.ackOf .pub p).returnCode = rcAccepted

/-- A success is reported at the end of a publish with QoS 1 only when a PUBACK has
accepted it, and at any other time only while such a PUBACK is served. -/
def SuccessEarned : EntryLaw
  | .app (.notified n), _, t =>
      n.action = .publish → n.errorNumber = .success →
        match endedUnder t with
        | none => ∃ p ∈ lastReceived t, IsAcceptingPuback p
        | some .qos1 => ∃ p ∈ lastReceived t, Acknowledges .pub t p
        | some _ => True
  | _, _, _ => True

/-- A publish loop with QoS 1 ends in time, with a complete PUBACK that carries the id
of the outstanding publish, and every PUBACK that is read is complete. -/
def EndsInTime : EntryLaw
  | .called .pub .stop v, w, t =>
      w.qos = .qos1 → v ≠ 0 ∧ ∀ p ∈ lastReceived t, UnderId .pub t p
  | .app (.received p), _, _ =>
      (packetDecode p).1 < p.length ∧
        (packetType p = MsgType.puback.code.toNat → Complete .pub p)
  | _, _, _ => True

instance (p : Bytes) : Decidable (IsAcceptingPuback p) := inferInstanceAs (Decidable (_ ∧ _))

instance (c : ClientId) (t : Log) (p : Bytes) : Decidable (UnderId c t p) :=
  inferInstanceAs (Decidable (_ ∧ _))

instance (e : LoopEvent ClientId SysEvent) (v : View) (t : Log) :
    Decidable (SuccessEarned e v t) := by
  induction e using LoopEvent.casesOn with
  | app e =>
    induction e using SysEvent.casesOn with
    | notified n =>
      dsimp only [SuccessEarned]
      exact
        match endedUnder t with
        | none | some .qos1 => inferInstance
        | some .qos0 | some .qos2 => inferInstance
    | _ => exact .isTrue trivial
  | _ => exact .isTrue trivial

instance (e : LoopEvent ClientId SysEvent) (v : View) (t : Log) : Decidable (EndsInTime e v t) := by
  induction e using LoopEvent.casesOn with
  | called c phase v =>
    induction c using ClientId.casesOn with
    | pub =>
      induction phase using LoopPhase.casesOn with
      | stop => exact inferInstanceAs (Decidable (_ → _))
      | _ => exact .isTrue trivial
    | _ => exact .isTrue trivial
  | app e =>
    induction e using SysEvent.casesOn with
    | received p => exact inferInstanceAs (Decidable (_ ∧ _))
    | _ => exact .isTrue trivial
  | _ => exact .isTrue trivial

/-! ## The end of a publish -/

/-- The end and its quality of service are known together. -/
theorem endedUnder_isSome (t : Log) : (endedUnder t).isSome = (endedPublish t).isSome := by
  induction t with
  | nil => rfl
  | cons e t ih =>
    obtain ⟨e, v⟩ := e
    cases e with
    | app e => exact ih
    | registered c => exact ih
    | answered c phase a v' => cases c <;> cases phase <;> rfl
    | _ => rfl

/-- No handler is running once the publish has ended. -/
theorem running_of_ended {t : Log} (h : (endedPublish t).isSome) : running t = none := by
  induction t with
  | nil => rfl
  | cons e t ih =>
    obtain ⟨e, v⟩ := e
    cases e with
    | app e => exact ih h
    | registered c => exact ih h
    | answered c phase a v' => rfl
    | _ => cases h

/-- The invariant for what the application is told. -/
structure ReportsKept (k : Core) : Prop where
  reads : ReadsKept k
  received : ∀ p ∈ lastReceived k.trace, (packetDecode p).1 < p.length ∧
    (packetType p = MsgType.puback.code.toNat → Complete .pub p)
  ending : ∀ v, running k.trace = some (.pub, .stop, v) → k.qos = .qos1 →
    v ≠ 0 ∧ ∀ p ∈ lastReceived k.trace, UnderId .pub k.trace p
  ended : ∀ a v, endedPublish k.trace = some (a, v) → endedUnder k.trace = some .qos1 →
    a = true ∨ toUChar v = rcAccepted → ∃ p ∈ lastReceived k.trace, Acknowledges .pub k.trace p
  law : Throughout SuccessEarned k.trace

namespace ReportsKept

variable {k k' : Core}

theorem of_silent (hk : ReportsKept k) (hreads : ReadsKept k') (htrace : k'.trace = k.trace)
    (hqos : k'.qos = k.qos) : ReportsKept k' := by
  refine ⟨hreads, ?_, ?_, ?_, ?_⟩
  · rw [htrace]
    exact hk.received
  · rw [htrace, hqos]
    exact hk.ending
  · rw [htrace]
    exact hk.ended
  · rw [htrace]
    exact hk.law

/-- A step that logs something of the library which concerns neither reading nor the
outstanding publish. -/
theorem of_unread (hk : ReportsKept k) (hreads : ReadsKept k') {e : LoopEvent ClientId SysEvent}
    {v : View} (htrace : k'.trace = ⟨e, v⟩ :: k.trace) (he : e.unread = true)
    (hqos : (running k.trace).isSome → k'.qos = k.qos) (hlaw : SuccessEarned e v k.trace) :
    ReportsKept k' := by
  obtain ⟨hrunning, hreceived, -⟩ := LoopEvent.unread.same he v k.trace
  refine ⟨hreads, ?_, ?_, ?_, ?_⟩
  · rw [htrace, hreceived]
    exact hk.received
  · intro v' hrun hq
    rw [htrace, hrunning] at hrun
    rw [hqos (by simp [hrun])] at hq
    obtain ⟨hv, hunder⟩ := hk.ending v' hrun hq
    refine ⟨hv, fun p hp => ?_⟩
    rw [htrace, hreceived] at hp
    rw [htrace]
    exact (hunder p hp).of_unread he v
  · intro a v' hended hunder ha
    rw [htrace] at hended hunder ⊢
    have hsame : endedPublish k.trace = some (a, v') ∧ endedUnder k.trace = some .qos1 := by
      cases e with
      | app e => exact ⟨hended, hunder⟩
      | registered c => exact ⟨hended, hunder⟩
      | answered c phase a v' => cases he
      | _ => cases hended
    obtain ⟨p, hp, hcomplete, htype, hid, hrc⟩ := hk.ended a v' hsame.1 hsame.2 ha
    rw [hreceived]
    refine ⟨p, hp, hcomplete, htype, sentIds_mono (fun c r h => ?_) v k.trace .pub hid, hrc⟩
    rw [h] at he
    cases he
  · rw [htrace]
    exact ⟨hlaw, hk.law⟩

/-- A step that logs an entry while a handler other than a stop handler is running, or
with which one begins to. -/
theorem of_moving (hk : ReportsKept k) (hreads : ReadsKept k') {e : LoopEvent ClientId SysEvent}
    {v : View} (htrace : k'.trace = ⟨e, v⟩ :: k.trace)
    (hreceived : ∀ p ∈ lastReceived (⟨e, v⟩ :: k.trace), (packetDecode p).1 < p.length ∧
      (packetType p = MsgType.puback.code.toNat → Complete .pub p))
    (hrun : ∀ c v', running (⟨e, v⟩ :: k.trace) ≠ some (c, .stop, v'))
    (hended : endedPublish (⟨e, v⟩ :: k.trace) = none)
    (hlaw : SuccessEarned e v k.trace) : ReportsKept k' := by
  refine ⟨hreads, ?_, fun v' h => ?_, fun a v' h => ?_, ?_⟩
  · rw [htrace]
    exact hreceived
  · rw [htrace] at h
    exact absurd h (hrun .pub v')
  · rw [htrace, hended] at h
    cases h
  · rw [htrace]
    exact ⟨hlaw, hk.law⟩

/-- While a handler is running, no publish has just ended. -/
theorem not_ended {c : ClientId} {phase : LoopPhase} {v : Int}
    (hrun : running k.trace = some (c, phase, v)) : endedPublish k.trace = none := by
  cases hended : endedPublish k.trace with
  | none => rfl
  | some r =>
    have h := running_of_ended (t := k.trace) (by rw [hended]; rfl)
    cases hrun.symm.trans h

/-- A success is reported. -/
theorem notifyPublish (hk : ReportsKept k) {n : Notification} (h : PublishNotified k n) :
    SuccessEarned (.app (.notified n)) k.view k.trace := by
  intro _ hsuccess
  have hrc := h.1 hsuccess
  rcases h.2 with ⟨hsome, ⟨hreceived, htype⟩, hcode⟩ | ⟨a, v, hended, hcode⟩
  · obtain ⟨⟨c, phase, v⟩, hrun⟩ := Option.isSome_iff_exists.1 hsome
    have hnone : endedUnder k.trace = none := by
      have hended : endedPublish k.trace = none := not_ended hrun
      rw [← Option.not_isSome_iff_eq_none, endedUnder_isSome, hended]
      nofun
    rw [hnone]
    obtain ⟨p, hp⟩ := Option.isSome_iff_exists.1 hreceived
    obtain ⟨hheader, hcomplete⟩ := hk.received p hp
    obtain ⟨rfl, -⟩ := hk.reads.buffer p hp
    rw [packetType_take hheader] at hcomplete
    have hcomplete := hcomplete htype
    have hack : ClientId.ackOf .pub _ = _ := ackOf_take hcomplete
    refine ⟨_, hp, hcomplete, (packetType_take hheader).trans htype, ?_⟩
    rw [hack]
    exact hcode.symm.trans hrc
  · split
    · rename_i hnone
      have hsome := endedUnder_isSome k.trace
      rw [hnone, hended] at hsome
      cases hsome
    · rename_i hqos
      apply hk.ended a v hended hqos
      rw [hrc] at hcode
      cases a with
      | true => exact .inl rfl
      | false => exact .inr hcode.symm
    · trivial

theorem toUChar_of_lt {n : Nat} (h : n < 256) : toUChar n = n := by
  rw [toUChar]
  omega

/-- A PUBACK of the right type is well formed. -/
theorem puback_headerOk (hk : ReportsKept k) (htype : packetType k.readbuf = MsgType.puback.code.toNat)
    (hsome : (lastReceived k.trace).isSome) : headerOk k.readbuf .puback := by
  obtain ⟨p, hp⟩ := Option.isSome_iff_exists.1 hsome
  exact ⟨(hk.reads.buffer p hp).2.trans (Nat.le_add_right _ _), htype⟩

/-- A publish that has ended and is to be reported as a success was accepted. -/
theorem published (hk : ReportsKept k) {v : Int} {a : Bool}
    (hrun : running k.trace = some (.pub, .stop, v)) (h : PublishEnd v k a k') (hqos : k.qos = .qos1)
    (ha : a = true ∨ toUChar (k'.value .pub) = rcAccepted) :
    ∃ p ∈ lastReceived k.trace, Acknowledges .pub k.trace p := by
  obtain ⟨hv, hunder⟩ := hk.ending v hrun hqos
  obtain ⟨htype, p, hp, -⟩ := hk.reads.received hrun rfl hqos hv
  have hheader := hk.puback_headerOk htype (by rw [hp]; rfl)
  have hone : (deserializePuback k.readbuf).1 = 1 := by
    rw [deserializePuback]
    simp only [if_pos hheader]
  cases h with
  | qos0 h => cases hqos.symm.trans h
  | timeout h => exact absurd h hv
  | malformed _ h => exact absurd hone h
  | accepted _ h hid hrc => exact hk.reads.acknowledged (c := .pub) hrun rfl hqos hv hunder hrc
  | rejected _ h hid hrc =>
    rcases ha with ha | ha
    · cases ha
    · have hlt : (deserializePuback k.readbuf).2.returnCode < 256 := by
        rw [deserializePuback]
        simp only [if_pos hheader]
        exact byteAt_lt _ _
      have hvalue : toUChar (Function.update k.value .pub
        ((deserializePuback k.readbuf).2.returnCode : Int) .pub) = rcAccepted := ha
      rw [Function.update_self, toUChar_of_lt hlt] at hvalue
      exact absurd hvalue hrc
  | foreign _ h hid => exact absurd (hk.reads.puback_inflight hrun hqos hv hunder) hid

/-- The publish loop has ended. -/
theorem answerPublished (hk : ReportsKept k) {v : Int} {a : Bool}
    (hrun : running k.trace = some (.pub, .stop, v)) (h : PublishEnd v k a k')
    (hreads : ReadsKept (k'.log (.answered .pub .stop a (k'.value .pub)))) :
    ReportsKept (k'.log (.answered .pub .stop a (k'.value .pub))) := by
  have htrace : k'.trace = k.trace := by cases h <;> rfl
  have hqos : k'.qos = k.qos := by cases h <;> rfl
  have hlog : (k'.log (.answered .pub .stop a (k'.value .pub))).trace =
      ⟨.answered .pub .stop a (k'.value .pub), k'.view⟩ :: k.trace := by
    rw [← htrace]
    rfl
  refine ⟨hreads, ?_, ?_, ?_, ?_⟩ <;> rw [hlog]
  · exact hk.received
  · exact fun v' h => nomatch h
  · intro a' v' hended hunder ha
    obtain ⟨rfl, rfl⟩ := Prod.mk.inj (Option.some.inj hended)
    exact hk.published hrun h (hqos.symm.trans (Option.some.inj hunder)) ha
  · exact ⟨trivial, hk.law⟩

theorem act (hk : ReportsKept k) (hreads : ReadsKept k') (h : Act k k') : ReportsKept k' := by
  cases h with
  | note e h =>
    refine hk.of_unread hreads rfl ?_ (fun _ => rfl) ?_
    · cases e <;> first | rfl | cases h
    · cases e with
      | notified n => exact fun haction => absurd haction (of_decide_eq_true h)
      | _ => trivial
  | notifyPublish n h => exact hk.of_unread hreads rfl rfl (fun _ => rfl) (hk.notifyPublish h)
  | serialize p b hp hb =>
    refine hk.of_unread hreads rfl ?_ (fun _ => rfl) trivial
    cases p <;> first | rfl | exact hp.elim
  | setBreak => exact hk.of_silent hreads rfl rfl
  | _ => exact hk.of_unread hreads rfl rfl (fun _ => rfl) trivial

theorem hand (hk : ReportsKept k) (hreads : ReadsKept k') (h : Hand k k')
    (hC : Throughout EndsInTime k'.trace) : ReportsKept k' := by
  cases h with
  | store c phase v v' h => exact hk.of_silent hreads rfl rfl
  | transmit c v p b w t hlog hp hb =>
    have hrun : running k.trace = some (c, .start, v) := by
      rw [hlog]
      rfl
    exact hk.of_moving hreads rfl hk.received (not_running_stop hrun nofun) (not_ended hrun) trivial
  | countRetry c v w t hc hlog hleft =>
    rcases hc with rfl | rfl <;> exact hk.of_unread hreads rfl rfl (fun _ => rfl) trivial
  | retransmit c v p b w t h hlog hp hb =>
    exact hk.of_moving hreads rfl hk.received (not_running_stop h nofun) (not_ended h) trivial
  | restore buf => exact hk.of_unread hreads rfl rfl (fun _ => rfl) trivial
  | read buf h => exact hk.of_silent hreads rfl rfl
  | receive c v h hlen =>
    refine hk.of_moving hreads rfl (fun p hp => ?_) (not_running_stop h nofun) (not_ended h) trivial
    obtain rfl := Option.some.inj hp
    exact hC.1
  | receiveFailed c v h =>
    exact hk.of_moving hreads rfl (fun p hp => nomatch hp) (not_running_stop h nofun) (not_ended h)
      trivial

theorem turn (hk : ReportsKept k) (hreads : ReadsKept k') (h : Turn k k')
    (hC : Throughout EndsInTime k'.trace) : ReportsKept k' := by
  cases h with
  | clear h => exact hk.of_unread hreads rfl rfl (fun _ => rfl) trivial
  | resetBreak => exact hk.of_silent hreads rfl rfl
  | take c queue h hactive hqueue =>
    refine hk.of_moving hreads rfl hk.received (fun d v hrun => ?_) rfl trivial
    cases h.symm.trans hrun
  | callStart c r v t hactive hlog hr =>
    exact hk.of_moving hreads rfl (fun p hp => nomatch hp) nofun rfl trivial
  | callStep c h hactive hr =>
    exact hk.of_moving hreads rfl (fun p hp => nomatch hp) nofun rfl trivial
  | callStop c v t hactive hlog =>
    refine ⟨hreads, hk.received, fun v hrun hqos => ?_, (fun a v h => nomatch h), trivial, hk.law⟩
    obtain ⟨rfl, h⟩ : c = .pub ∧ (LoopPhase.stop, k.value c) = (.stop, v) :=
      Prod.mk.inj (Option.some.inj hrun)
    obtain ⟨-, rfl⟩ := Prod.mk.inj h
    obtain ⟨hv, hunder⟩ := hC.1 hqos
    refine ⟨hv, fun p hp => ?_⟩
    obtain ⟨hcomplete, hbuilt, hid⟩ := hunder p hp
    exact ⟨hcomplete, hbuilt, fun hrc =>
      sentIds_mono (e := .called .pub .stop (k.value .pub)) nofun _ _ .pub (hid hrc)⟩
  | answer c phase v a h hactive hdis ha =>
    by_cases hpub : c = .pub ∧ phase = .stop
    · obtain ⟨rfl, rfl⟩ := hpub
      cases ha with
      | published v a k' hend => exact hk.answerPublished h hend hreads
    · refine hk.of_moving hreads (congrArg (_ :: ·) ha.trace) hk.received nofun ?_ trivial
      cases c <;> cases phase <;> first | rfl | exact absurd ⟨rfl, rfl⟩ hpub
  | wrap c phase a hanswered hdis h => cases h <;> exact hk.of_silent hreads rfl rfl
  | idle hactive => exact hk.of_silent hreads rfl rfl

theorem call (hk : ReportsKept k) (hreads : ReadsKept k') (h : Call k k') : ReportsKept k' := by
  have idle (q : QoS) (hnone : k.loop.loopClient = none) (hsome : (running k.trace).isSome) :
      q = k.qos := by
    obtain ⟨r, hrun⟩ := Option.isSome_iff_exists.1 hsome
    cases (hk.reads.active r.1 r.2.1 r.2.2 hrun).symm.trans hnone
  cases h with
  | publish id q hactive hqueue =>
    have hset : ReportsKept (({ k with qos := q, pubRetryCount := k.maxRetry }.setValue .pub
        id).emit (.publishQueued id q)) := by
      refine hk.of_unread ?_ rfl rfl (idle q hactive) trivial
      exact hk.reads.of_unread rfl rfl (fun h => ⟨rfl, idle q hactive h⟩) rfl rfl
    exact hset.of_unread hreads rfl rfl (fun _ => rfl) trivial
  | subscribe id q hactive hqueue hsub =>
    have hset : ReportsKept (({ k with qos := q, subRetryCount := k.maxRetry }.setValue .sub
        id).emit (.subscribeQueued id)) := by
      refine hk.of_unread ?_ rfl rfl (idle q hactive) trivial
      exact hk.reads.of_unread rfl rfl (fun h => ⟨rfl, idle q hactive h⟩) rfl rfl
    exact hset.of_unread hreads rfl rfl (fun _ => rfl) trivial
  | _ => exact hk.of_unread hreads rfl rfl (fun _ => rfl) trivial

theorem basic (h : Basic k k') (hC : Throughout EndsInTime k'.trace) (hk : ReportsKept k) :
    ReportsKept k' := by
  have hreads := hk.reads.basic h
  cases h with
  | act h => exact hk.act hreads h
  | plug h => cases h <;> exact hk.of_unread hreads rfl rfl (fun _ => rfl) trivial
  | move h => cases h <;> exact hk.of_unread hreads rfl rfl (fun _ => rfl) trivial
  | ready h =>
    cases h with
    | look left => exact hk.of_unread hreads rfl rfl (fun _ => rfl) trivial
    | _ => exact hk.of_silent hreads rfl rfl
  | lost => exact hk.of_silent hreads rfl rfl
  | hand h => exact hk.hand hreads h hC
  | turn h => exact hk.turn hreads h hC
  | ending h =>
    cases h with
    | answer v h hactive => exact hk.of_moving hreads rfl hk.received nofun rfl trivial
    | wrap hanswered h => cases h <;> exact hk.of_silent hreads rfl rfl
    | closeSocket ok v w t hlog hstate => exact hk.of_unread hreads rfl rfl (fun _ => rfl) trivial
    | setBreak => exact hk.of_silent hreads rfl rfl
  | call h => exact hk.call hreads h

theorem fresh (conf : CoreConf) : ReportsKept (.fresh conf) :=
  ⟨.fresh conf, (fun _ h => nomatch h), (fun _ h => nomatch h), (fun _ _ h => nomatch h), trivial⟩

end ReportsKept

/-- **A success notification is earned** in every run whose publish loops with QoS 1
end in time with a complete PUBACK for the outstanding publish. -/
theorem successEarned_after (setting : Setting) (calls : List ApiCall)
    (h : Obeys EndsInTime (setting.after calls).trace) :
    Obeys SuccessEarned (setting.after calls).trace :=
  ⟨(holds_under_basic ReportsKept.fresh setting calls ReportsKept.basic h).law⟩

/-- A publish that is acknowledged meets the condition. -/
theorem successEarned_after_publish :
    Obeys SuccessEarned
      ((Setting.script (acknowledging 1 2) 100).after (publishing ++ [.eventLoop .active])).trace :=
  successEarned_after _ _ (by decide +kernel)

/-- A publish that is never answered is reported as a success. -/
theorem not_successEarned_after_timeout :
    ¬Obeys SuccessEarned
      ((Setting.script [[3], [5, 0], [7], [11, 0, 1, 0, 1, 0]] 2000).after
        (publishing ++ [.eventLoop .active, .eventLoop .active])).trace := by
  decide +kernel

end LibNbiot
