/-
# Retransmission

One activation of the publish or of the subscribe loop transmits its packet at
most once more than the retry limit says, first without and then with the DUP
flag. That all these transmissions carry one message id holds as long as the
value that a retransmitting step is called with is still the id of the first
transmission: every step stores the remaining time there.
-/

import LibNbiot.Laws.History

namespace LibNbiot

/-! ## What an activation has transmitted -/

/-- DUP flag and message id of the publish or subscribe packet that was serialized
last, while it waits to be written. -/
def transmitting : Log → Option (Nat × Nat)
  | ⟨.app (.serialized (.publish dup _ _ id _ _) _), _⟩ :: _ => some (dup, id)
  | ⟨.app (.serialized (.subscribe dup _ id _) _), _⟩ :: _ => some (dup, id)
  | _ => none

/-- The transmissions since a client was last taken, the latest first. -/
def transmissions : Log → List (Nat × Nat)
  | [] => []
  | e :: t =>
      match e.event with
      | .taken _ _ => []
      | .app (.wrote _ _) => (transmitting t).toList ++ transmissions t
      | _ => transmissions t

/-- The message id of the first transmission. -/
def firstId (t : Log) : Option Nat := (transmissions t).getLast?.map Prod.snd

/-- The client that was taken last had its start handler called. -/
def started : Log → Bool
  | [] => false
  | e :: t =>
      match e.event with
      | .taken _ _ => false
      | .called _ .start _ => true
      | _ => started t

/-- A transmission is within the limit, carries the DUP flag unless it is the first,
and the message id of the first. -/
def Retransmits (maxRetry : Nat) : EntryLaw
  | .app (.wrote _ _), _, t =>
      ∀ x ∈ transmitting t, (transmissions t).length ≤ maxRetry ∧
        (x.1 = if transmissions t = [] then 0 else 1) ∧ ∀ id ∈ firstId t, x.2 = id
  | _, _, _ => True

/-- A retry is counted only in an activation that was started, by a step that finds
the message id of the first transmission in the client's value. -/
def RetriesUnderId : EntryLaw
  | .app (.retried _), _, t =>
      started t = true ∧ ∀ r ∈ running t, firstId t = some (toUShort r.2.2)
  | _, _, _ => True

instance (maxRetry : Nat) (e : LoopEvent ClientId SysEvent) (v : View) (t : Log) :
    Decidable (Retransmits maxRetry e v t) := by
  induction e using LoopEvent.casesOn with
  | app e =>
    induction e using SysEvent.casesOn with
    | wrote b ok =>
      dsimp only [Retransmits]
      infer_instance
    | _ => exact .isTrue trivial
  | _ => exact .isTrue trivial

instance (e : LoopEvent ClientId SysEvent) (v : View) (t : Log) :
    Decidable (RetriesUnderId e v t) := by
  induction e using LoopEvent.casesOn with
  | app e =>
    induction e using SysEvent.casesOn with
    | retried c => exact inferInstanceAs (Decidable (_ ∧ _))
    | _ => exact .isTrue trivial
  | _ => exact .isTrue trivial

/-! ## Entries that transmit nothing -/

/-- Entries that belong to no transmission. -/
def LoopEvent.aside : LoopEvent ClientId SysEvent → Bool
  | .app (.serialized (.publish _ _ _ _ _ _) _) | .app (.serialized (.subscribe _ _ _ _) _)
  | .app (.wrote _ _) | .app (.retried _) | .taken _ _ | .called _ _ _ | .answered _ _ _ _ => false
  | _ => true

/-- What is read off the log alone. -/
structure SameActivation (t t' : Log) : Prop where
  transmissions : transmissions t' = transmissions t
  started : started t' = started t

theorem LoopEvent.aside.same {e : LoopEvent ClientId SysEvent} (he : e.aside = true) (v : View)
    (t : Log) : SameActivation t (⟨e, v⟩ :: t) ∧ running (⟨e, v⟩ :: t) = running t ∧
      transmitting (⟨e, v⟩ :: t) = none := by
  cases e with
  | app e =>
    cases e with
    | serialized p b => cases p <;> first | exact ⟨⟨rfl, rfl⟩, rfl, rfl⟩ | cases he
    | _ => first | exact ⟨⟨rfl, rfl⟩, rfl, rfl⟩ | cases he
  | _ => first | exact ⟨⟨rfl, rfl⟩, rfl, rfl⟩ | cases he

/-! ## The invariant -/

/-- The clients that serialize their packets themselves. -/
def ClientId.transmits (c : ClientId) : Prop := c = .pub ∨ c = .sub

/-- What holds at the last entry of a log. -/
def LastEntry (t : Log) (active : Option ClientId) (result : ClientId → NbiotResult)
    (counts : ClientId → Nat) (maxRetry : Nat) : Prop :=
  match t with
  | ⟨.taken c r, _⟩ :: _ => result c = r
  | ⟨.called _ .start _, _⟩ :: t => transmissions t = []
  -- the client goes on, and has transmitted if it was started
  | ⟨.answered c phase true _, _⟩ :: t =>
      phase ≠ .stop → c.transmits → started t = true → transmissions t ≠ []
  -- before a retransmission
  | ⟨.app (.retried c), _⟩ :: t =>
      active = some c ∧ c.transmits ∧ (transmissions t).length + counts c ≤ maxRetry ∧
        transmissions t ≠ [] ∧ ∀ r ∈ running t, firstId t = some (toUShort r.2.2)
  -- before a packet is written
  | ⟨.app (.serialized p b), v⟩ :: t => ∀ x ∈ transmitting (⟨.app (.serialized p b), v⟩ :: t),
      (∃ c, active = some c ∧ c.transmits ∧ (transmissions t).length + counts c ≤ maxRetry) ∧
        (x.1 = if transmissions t = [] then 0 else 1) ∧ ∀ id ∈ firstId t, x.2 = id
  | _ => True

/-- What the log tells about the transmissions and the retry counters. -/
structure TransmissionsKept (k : Core) : Prop where
  active : ∀ c phase v, running k.trace = some (c, phase, v) → k.loop.loopClient = some c
  counts : ∀ c, k.loop.loopClient = some c → c.transmits →
    (transmissions k.trace).length + k.retryCount c ≤ k.maxRetry + 1
  retries : ∀ c, k.retryCount c ≤ k.maxRetry
  /-- A client that is being started is not pending. -/
  starting : ∀ c v, running k.trace = some (c, .start, v) → k.result c ≠ .pending
  /-- A pending client that was started has transmitted. -/
  pending : ∀ c, k.loop.loopClient = some c → c.transmits → started k.trace = true →
    k.result c = .pending → transmissions k.trace ≠ []
  stepping : ∀ c v, running k.trace = some (c, .step, v) → c.transmits →
    started k.trace = true → transmissions k.trace ≠ []
  last : LastEntry k.trace k.loop.loopClient k.result k.retryCount k.maxRetry
  law : Throughout (Retransmits k.maxRetry) k.trace

/-- A step that leaves the activation and its counters alone. -/
structure Calm (k k' : Core) : Prop where
  active : k'.loop.loopClient = k.loop.loopClient
  result : k'.result = k.result
  counts : k'.retryCount = k.retryCount
  maxRetry : k'.maxRetry = k.maxRetry

theorem Calm.of_eq {k k' : Core} (hactive : k'.loop.loopClient = k.loop.loopClient)
    (hresult : k'.result = k.result) (hpub : k'.pubRetryCount = k.pubRetryCount)
    (hsub : k'.subRetryCount = k.subRetryCount) (hmax : k'.maxRetry = k.maxRetry) : Calm k k' := by
  refine ⟨hactive, hresult, ?_, hmax⟩
  ext c
  rw [Core.retryCount, Core.retryCount, hpub, hsub]

namespace TransmissionsKept

variable {k k' : Core}

theorem of_silent (hk : TransmissionsKept k) (htrace : k'.trace = k.trace) (h : Calm k k') :
    TransmissionsKept k' := by
  obtain ⟨hactive, hresult, hcounts, hmax⟩ := h
  refine ⟨?_, ?_, ?_, ?_, ?_, ?_, ?_, ?_⟩ <;>
    simp only [htrace, hactive, hresult, hcounts, hmax]
  · exact hk.active
  · exact hk.counts
  · exact hk.retries
  · exact hk.starting
  · exact hk.pending
  · exact hk.stepping
  · exact hk.last
  · exact hk.law

/-- A step that logs an entry which belongs to no transmission. A client that is
let go may leave other counters behind. -/
theorem of_aside (hk : TransmissionsKept k) {e : LoopEvent ClientId SysEvent} {v : View}
    (htrace : k'.trace = ⟨e, v⟩ :: k.trace) (he : e.aside = true)
    (hactive : (running k.trace).isSome → k'.loop.loopClient = k.loop.loopClient)
    (hcounts : ∀ c, k'.loop.loopClient = some c →
      k.loop.loopClient = some c ∧ k'.retryCount c = k.retryCount c)
    (hretries : ∀ c, k'.retryCount c ≤ k'.maxRetry) (hresult : k'.result = k.result)
    (hmax : k'.maxRetry = k.maxRetry) : TransmissionsKept k' := by
  obtain ⟨⟨hsent, hstarted⟩, hrunning, hnone⟩ := LoopEvent.aside.same he v k.trace
  refine ⟨?_, ?_, hretries, ?_, ?_, ?_, ?_, ?_⟩
  · intro c phase v' hrun
    rw [htrace, hrunning] at hrun
    rw [hactive (by simp [hrun])]
    exact hk.active c phase v' hrun
  · intro c hc htransmits
    obtain ⟨hc, hcount⟩ := hcounts c hc
    rw [htrace, hsent, hcount, hmax]
    exact hk.counts c hc htransmits
  · rw [htrace, hrunning, hresult]
    exact hk.starting
  · intro c hc
    rw [htrace, hsent, hstarted, hresult]
    exact hk.pending c (hcounts c hc).1
  · rw [htrace, hrunning, hsent, hstarted]
    exact hk.stepping
  · rw [htrace]
    cases e with
    | app e =>
      cases e with
      | serialized p b =>
        intro x hx
        rw [hnone] at hx
        cases hx
      | _ => trivial
    | _ => trivial
  · rw [htrace, hmax]
    refine ⟨?_, hk.law⟩
    cases e with
    | app e => cases e <;> trivial
    | _ => trivial

/-- The same for a step that leaves the controller and the counters alone. -/
theorem of_calm (hk : TransmissionsKept k) {e : LoopEvent ClientId SysEvent} {v : View}
    (htrace : k'.trace = ⟨e, v⟩ :: k.trace) (he : e.aside = true) (h : Calm k k') :
    TransmissionsKept k' := by
  refine hk.of_aside htrace he (fun _ => h.active) (fun c hc => ⟨h.active ▸ hc, ?_⟩)
    (fun c => ?_) h.result h.maxRetry
  · rw [h.counts]
  · rw [h.counts, h.maxRetry]
    exact hk.retries c

/-- What is to be transmitted, when it is written, is within the limits. -/
theorem transmission (hk : TransmissionsKept k) {x : Nat × Nat}
    (hx : x ∈ transmitting k.trace) :
    (∃ c, k.loop.loopClient = some c ∧ c.transmits ∧
      (transmissions k.trace).length + k.retryCount c ≤ k.maxRetry) ∧
      (x.1 = if transmissions k.trace = [] then 0 else 1) ∧ ∀ id ∈ firstId k.trace, x.2 = id := by
  have hlast := hk.last
  cases hlog : k.trace with
  | nil =>
    rw [hlog] at hx
    cases hx
  | cons e t =>
    obtain ⟨e, v⟩ := e
    rw [hlog] at hx hlast
    cases e with
    | app e =>
      cases e with
      | serialized p b => exact hlast x hx
      | _ => cases hx
    | _ => cases hx

/-- A packet that was to be transmitted is written. -/
theorem write (hk : TransmissionsKept k) (b : Bytes) (ok : Bool) :
    TransmissionsKept (k.emit (.wrote b ok)) := by
  have hsent : transmissions (k.emit (.wrote b ok)).trace =
      (transmitting k.trace).toList ++ transmissions k.trace := rfl
  have more (h : transmissions k.trace ≠ []) : transmissions (k.emit (.wrote b ok)).trace ≠ [] := by
    rw [hsent]
    exact List.append_ne_nil_of_right_ne_nil _ h
  refine ⟨hk.active, ?_, hk.retries, hk.starting, ?_, ?_, trivial, ?_, hk.law⟩
  · intro c hc htransmits
    have hcount : k.retryCount c = (k.emit (.wrote b ok)).retryCount c := rfl
    rw [hsent, ← hcount, List.length_append]
    cases hx : transmitting k.trace with
    | none =>
      have hle := hk.counts c hc htransmits
      exact (congrArg (· + k.retryCount c) (Nat.zero_add _)).trans_le hle
    | some x =>
      obtain ⟨⟨d, hd, -, hle⟩, -⟩ := hk.transmission hx
      obtain rfl : d = c := Option.some.inj (hd.symm.trans hc)
      have hlength : (some x).toList.length = 1 := rfl
      show _ ≤ k.maxRetry + 1
      omega
  · exact fun c hc htransmits hstarted hpending => more (hk.pending c hc htransmits hstarted hpending)
  · exact fun c v hrun htransmits hstarted => more (hk.stepping c v hrun htransmits hstarted)
  · intro x hx
    obtain ⟨⟨c, -, -, hle⟩, hrest⟩ := hk.transmission hx
    exact ⟨(Nat.le_add_right _ _).trans hle, hrest⟩

/-- A packet of the running client is serialized for its transmission. -/
theorem prepare (hk : TransmissionsKept k) {c : ClientId} {dup id : Nat} {p : Packet} (b : Bytes)
    (hp : TransmissionOf dup id c p) (hactive : k.loop.loopClient = some c)
    (hcount : (transmissions k.trace).length + k.retryCount c ≤ k.maxRetry)
    (hdup : dup = if transmissions k.trace = [] then 0 else 1)
    (hid : ∀ first ∈ firstId k.trace, id = first) : TransmissionsKept (k.prepare c p b id) := by
  have htransmits : c.transmits := by
    cases c <;> first | exact .inl rfl | exact .inr rfl | exact hp.elim
  have hnow (v : View) : transmitting (⟨.app (.serialized p b), v⟩ :: k.trace) = some (dup, id) := by
    rcases htransmits with rfl | rfl
    · cases p <;> first | exact hp.elim | (obtain ⟨rfl, rfl⟩ := hp; rfl)
    · cases p <;> first | exact hp.elim | (obtain ⟨rfl, rfl⟩ := hp; rfl)
  refine ⟨hk.active, hk.counts, hk.retries, hk.starting, hk.pending, hk.stepping, ?_, trivial, hk.law⟩
  intro x hx
  rw [hnow] at hx
  obtain rfl : (dup, id) = x := Option.some.inj hx
  exact ⟨⟨c, hactive, htransmits, hcount⟩, hdup, hid⟩

theorem retryCount_retry {c : ClientId} (hc : c.transmits) :
    (k.retry c).retryCount c = k.retryCount c - 1 := by
  rcases hc with rfl | rfl <;> rfl

theorem retryCount_retry_le {c : ClientId} (hc : c.transmits) (d : ClientId) :
    (k.retry c).retryCount d ≤ k.retryCount d := by
  rcases hc with rfl | rfl <;> cases d <;>
    first | exact Nat.le_refl _ | exact Nat.sub_le _ _

/-- A retry is counted. -/
theorem countRetry (hk : TransmissionsKept k) {c : ClientId} {v : Int} {w : View} {t : Log}
    (hc : c.transmits) (hlog : k.trace = ⟨.called c .step v, w⟩ :: t) (hleft : 0 < k.retryCount c)
    (hC : RetriesUnderId (.app (.retried c)) (k.retry c).view k.trace) :
    TransmissionsKept ((k.retry c).emit (.retried c)) := by
  have hrun : running k.trace = some (c, .step, v) := by
    rw [hlog]
    rfl
  have hactive := hk.active c .step v hrun
  have hcount : (transmissions k.trace).length + (k.retry c).retryCount c ≤ k.maxRetry := by
    have hle := hk.counts c hactive hc
    rw [retryCount_retry hc]
    omega
  have hcounts (d : ClientId) : (k.retry c).retryCount d ≤ k.retryCount d :=
    retryCount_retry_le hc d
  have hsent : transmissions k.trace ≠ [] := hk.stepping c v hrun hc hC.1
  have hfirst := hC.2
  generalize hm : k.retry c = m at hcount hcounts
  have hloop : m.loop = k.loop := by rw [← hm]; rcases hc with rfl | rfl <;> rfl
  have htrace : m.trace = k.trace := by rw [← hm]; rcases hc with rfl | rfl <;> rfl
  have hresult : m.result = k.result := by rw [← hm]; rcases hc with rfl | rfl <;> rfl
  have hmax : m.maxRetry = k.maxRetry := by rw [← hm]; rcases hc with rfl | rfl <;> rfl
  have hlog : (m.emit (.retried c)).trace = ⟨.app (.retried c), m.view⟩ :: k.trace := by
    rw [← htrace]
    rfl
  have hloop : (m.emit (.retried c)).loop = k.loop := hloop
  have hresult : (m.emit (.retried c)).result = k.result := hresult
  have hmax : (m.emit (.retried c)).maxRetry = k.maxRetry := hmax
  refine ⟨?_, ?_, fun d => ?_, ?_, ?_, ?_, ?_, ?_⟩ <;>
    simp only [hlog, hloop, hresult, hmax]
  · exact hk.active
  · exact fun d hd htransmits =>
      (Nat.add_le_add_left (hcounts d) _).trans (hk.counts d hd htransmits)
  · exact (hcounts d).trans (hk.retries d)
  · exact hk.starting
  · exact hk.pending
  · exact hk.stepping
  · exact ⟨hactive, hc, hcount, hsent, hfirst⟩
  · exact ⟨trivial, hk.law⟩

theorem take (hk : TransmissionsKept k) {c : ClientId} {queue : List ClientId}
    (hrun : running k.trace = none) : TransmissionsKept (k.take c queue) := by
  refine ⟨?_, ?_, hk.retries, ?_, ?_, ?_, rfl, trivial, hk.law⟩
  · intro d phase v h
    cases hrun.symm.trans h
  · intro d _ _
    show 0 + k.retryCount d ≤ k.maxRetry + 1
    exact (Nat.zero_add _).trans_le ((hk.retries d).trans (Nat.le_succ _))
  · intro d v h
    cases hrun.symm.trans h
  · intro d _ _ hstarted
    cases hstarted
  · intro d v h
    cases hrun.symm.trans h

theorem callStart (hk : TransmissionsKept k) {c : ClientId} {r : NbiotResult} {w : View} {t : Log}
    (hactive : k.loop.loopClient = some c) (hlog : k.trace = ⟨.taken c r, w⟩ :: t)
    (hr : r ≠ .pending) : TransmissionsKept (k.log (.called c .start (k.value c))) := by
  have hsent : transmissions k.trace = [] := by
    rw [hlog]
    rfl
  have hresult : k.result c ≠ .pending := by
    have hlast := hk.last
    rw [hlog] at hlast
    exact hlast.symm ▸ hr
  refine ⟨?_, hk.counts, hk.retries, ?_, ?_, ?_, hsent, trivial, hk.law⟩
  · intro d phase v h
    obtain ⟨rfl, -⟩ : c = d ∧ _ := Prod.mk.inj (Option.some.inj h)
    exact hactive
  · intro d v h
    obtain ⟨rfl, -⟩ : c = d ∧ _ := Prod.mk.inj (Option.some.inj h)
    exact hresult
  · intro d hd _ _ hpending
    obtain rfl : c = d := Option.some.inj (hactive.symm.trans hd)
    exact absurd hpending hresult
  · intro d v h
    cases h

theorem callStep (hk : TransmissionsKept k) {c : ClientId} (hactive : k.loop.loopClient = some c)
    (hr : k.result c = .pending) : TransmissionsKept (k.log (.called c .step (k.value c))) := by
  refine ⟨?_, hk.counts, hk.retries, ?_, hk.pending, ?_, trivial, trivial, hk.law⟩
  · intro d phase v h
    obtain ⟨rfl, -⟩ : c = d ∧ _ := Prod.mk.inj (Option.some.inj h)
    exact hactive
  · intro d v h
    cases h
  · intro d v h htransmits hstarted
    obtain ⟨rfl, -⟩ : c = d ∧ _ := Prod.mk.inj (Option.some.inj h)
    exact hk.pending c hactive htransmits hstarted hr

theorem callStop (hk : TransmissionsKept k) {c : ClientId} (hactive : k.loop.loopClient = some c) :
    TransmissionsKept (k.log (.called c .stop (k.value c))) := by
  refine ⟨?_, hk.counts, hk.retries, ?_, hk.pending, ?_, trivial, trivial, hk.law⟩
  · intro d phase v h
    obtain ⟨rfl, -⟩ : c = d ∧ _ := Prod.mk.inj (Option.some.inj h)
    exact hactive
  · intro d v h
    cases h
  · intro d v h
    cases h

theorem transmissions_ne_nil {c : ClientId} {dup : Nat} (h : HasTransmitted dup c k) :
    transmissions k.trace ≠ [] := by
  obtain ⟨b, ok, v, t, hlog, p, b', w, t', id, rfl, hp⟩ := h
  rw [hlog]
  have hnow : transmitting (⟨.app (.serialized p b'), w⟩ :: t') = some (dup, id) := by
    cases c with
    | pub => cases p <;> first | exact hp.elim | (obtain ⟨rfl, rfl⟩ := hp; rfl)
    | sub => cases p <;> first | exact hp.elim | (obtain ⟨rfl, rfl⟩ := hp; rfl)
    | _ => exact hp.elim
  show (transmitting _).toList ++ _ ≠ []
  rw [hnow]
  exact List.cons_ne_nil _ _

theorem answer_calm {c : ClientId} {phase : LoopPhase} {v : Int} {a : Bool}
    (h : Answer k c phase v a k') : Calm k k' := by
  cases h with
  | published v a k' h => cases h <;> exact ⟨rfl, rfl, rfl, rfl⟩
  | _ => exact ⟨rfl, rfl, rfl, rfl⟩

/-- A handler has answered. -/
theorem answer (hk : TransmissionsKept k) {c : ClientId} {phase : LoopPhase} {v v' : Int} {a : Bool}
    {w : View} (htrace : k'.trace = ⟨.answered c phase a v', w⟩ :: k.trace) (hcalm : Calm k k')
    (hrun : running k.trace = some (c, phase, v))
    (hstart : phase = .start → a = true → c.transmits → transmissions k.trace ≠ []) :
    TransmissionsKept k' := by
  obtain ⟨hactive, hresult, hcounts, hmax⟩ := hcalm
  refine ⟨?_, ?_, ?_, ?_, ?_, ?_, ?_, ?_⟩ <;>
    simp only [htrace, hactive, hresult, hcounts, hmax]
  · exact fun d phase' v'' h => nomatch h
  · exact hk.counts
  · exact hk.retries
  · exact fun d v'' h => nomatch h
  · exact hk.pending
  · exact fun d v'' h => nomatch h
  · cases a with
    | false => trivial
    | true =>
      intro hphase htransmits hstarted
      cases phase with
      | start => exact hstart rfl rfl htransmits
      | step => exact hk.stepping c v hrun htransmits hstarted
      | stop => exact absurd rfl hphase
  · exact ⟨trivial, hk.law⟩

/-- What the controller records of an answer. -/
theorem wrap (hk : TransmissionsKept k) {c : ClientId} {phase : LoopPhase} {a : Bool}
    (hanswered : Answered c phase a k) (h : Wrap c phase a k k') : TransmissionsKept k' := by
  obtain ⟨v, w, t, hlog⟩ := hanswered
  have hidle : running k.trace = none := by
    rw [hlog]
    rfl
  have hlast := hk.last
  have idle {d : ClientId} {phase' : LoopPhase} {v' : Int} {P : Prop}
      (h : running k.trace = some (d, phase', v')) : P := by
    rw [hidle] at h
    cases h
  have recorded (active : Option ClientId) (result : ClientId → NbiotResult) :
      LastEntry k.trace active result k.retryCount k.maxRetry := by
    rw [hlog] at hlast ⊢
    cases a with
    | true => exact hlast
    | false => trivial
  cases h with
  | result r h =>
    refine ⟨fun _ _ _ => idle, hk.counts, hk.retries, fun _ _ => idle, ?_, fun _ _ => idle,
      recorded _ _, hk.law⟩
    intro d hd htransmits hstarted hpending
    by_cases hdc : d = c
    · subst hdc
      have hr : r = .pending := (Function.update_self ..).symm.trans hpending
      obtain ⟨rfl, hphase⟩ := h.1 hr
      have hstarted : started k.trace = true := hstarted
      show transmissions k.trace ≠ []
      rw [hlog] at hlast hstarted ⊢
      exact hlast hphase htransmits hstarted
    · exact hk.pending d hd htransmits hstarted ((Function.update_of_ne hdc _ _).symm.trans hpending)
  | value => exact hk.of_silent rfl ⟨rfl, rfl, rfl, rfl⟩
  | letGo id hactive h =>
    exact ⟨fun _ _ _ => idle, (fun _ h => nomatch h), hk.retries, fun _ _ => idle,
      (fun _ h => nomatch h), fun _ _ => idle, recorded _ _, hk.law⟩

theorem act (hk : TransmissionsKept k) (h : Act k k') : TransmissionsKept k' := by
  cases h with
  | note e h =>
    refine hk.of_calm rfl ?_ ⟨rfl, rfl, rfl, rfl⟩
    cases e <;> first | rfl | cases h
  | serialize p b hp hb =>
    refine hk.of_calm rfl ?_ ⟨rfl, rfl, rfl, rfl⟩
    cases p <;> first | rfl | exact hp.elim
  | write b ok h => exact hk.write b ok
  | setBreak => exact hk.of_silent rfl ⟨rfl, rfl, rfl, rfl⟩
  | _ => exact hk.of_calm rfl rfl ⟨rfl, rfl, rfl, rfl⟩

theorem hand (hk : TransmissionsKept k) (h : Hand k k') (hC : Throughout RetriesUnderId k'.trace) :
    TransmissionsKept k' := by
  have hlast := hk.last
  cases h with
  | store c phase v v' h => exact hk.of_silent rfl ⟨rfl, rfl, rfl, rfl⟩
  | read buf h => exact hk.of_silent rfl ⟨rfl, rfl, rfl, rfl⟩
  | transmit c v p b w t hlog hp hb =>
    have hactive : k.loop.loopClient = some c := hk.active c .start v (by rw [hlog]; rfl)
    have hsent : transmissions k.trace = [] := by
      rw [hlog] at hlast ⊢
      exact hlast
    refine hk.prepare b hp hactive ?_ ?_ ?_
    · rw [hsent]
      exact (Nat.zero_add _).trans_le (hk.retries c)
    · rw [if_pos hsent]
    · rw [firstId, hsent]
      exact fun _ h => nomatch h
  | countRetry c v w t hc hlog hleft =>
    have htrace : (k.retry c).trace = k.trace := by
      rcases hc with rfl | rfl <;> rfl
    refine hk.countRetry hc hlog hleft ?_
    rw [← htrace]
    exact hC.1
  | retransmit c v p b w t h hlog hp hb =>
    obtain ⟨hactive, -, hcount, hsent, hfirst⟩ :
        k.loop.loopClient = some c ∧ c.transmits ∧
          (transmissions k.trace).length + k.retryCount c ≤ k.maxRetry ∧
          transmissions k.trace ≠ [] ∧
          ∀ r ∈ running k.trace, firstId k.trace = some (toUShort r.2.2) := by
      rw [hlog] at hlast ⊢
      exact hlast
    refine hk.prepare b hp hactive hcount ?_ fun first hid => ?_
    · rw [if_neg hsent]
    · exact Option.some.inj ((hfirst _ h).symm.trans hid)
  | _ => exact hk.of_calm rfl rfl ⟨rfl, rfl, rfl, rfl⟩

theorem turn (hk : TransmissionsKept k) (h : Turn k k') : TransmissionsKept k' := by
  cases h with
  | clear h =>
    refine hk.of_aside rfl rfl (fun hsome => ?_) (fun _ h => nomatch h) hk.retries rfl rfl
    rw [h] at hsome
    cases hsome
  | resetBreak => exact hk.of_silent rfl ⟨rfl, rfl, rfl, rfl⟩
  | take c queue h hactive hqueue => exact hk.take h
  | callStart c r v t hactive hlog hr => exact hk.callStart hactive hlog hr
  | callStep c h hactive hr => exact hk.callStep hactive hr
  | callStop c v t hactive hlog => exact hk.callStop hactive
  | answer c phase v a h hactive hdis ha =>
    obtain ⟨hactive', hresult, hcounts, hmax⟩ := answer_calm ha
    refine hk.answer (congrArg (_ :: ·) ha.trace) ⟨hactive', hresult, hcounts, hmax⟩ h
      fun hphase ha' htransmits => ?_
    subst hphase
    cases ha with
    | start c v a hstart => exact transmissions_ne_nil (hstart ha' htransmits)
  | wrap c phase a hanswered hdis h => exact hk.wrap hanswered h
  | idle hactive => exact hk.of_silent rfl ⟨rfl, rfl, rfl, rfl⟩

theorem call (hk : TransmissionsKept k) (h : Call k k') : TransmissionsKept k' := by
  have idle (hnone : k.loop.loopClient = none) : (running k.trace).isSome = false := by
    cases hrun : running k.trace with
    | none => rfl
    | some r =>
      obtain ⟨c, phase, v⟩ := r
      cases (hk.active c phase v hrun).symm.trans hnone
  -- the counters may be set, since no client is active
  have set {e : SysEvent} {m : Core} (hnone : k.loop.loopClient = none) (he : (LoopEvent.app e).aside)
      (htrace : m.trace = ⟨.app e, m.view⟩ :: k.trace) (hactive : m.loop.loopClient = none)
      (hretries : ∀ c, m.retryCount c ≤ m.maxRetry) (hresult : m.result = k.result)
      (hmax : m.maxRetry = k.maxRetry) : TransmissionsKept m := by
    refine hk.of_aside htrace he (fun hsome => ?_) (fun c hc => ?_) hretries hresult hmax
    · rw [idle hnone] at hsome
      cases hsome
    · cases hactive.symm.trans hc
  cases h with
  | publish id q hactive hqueue =>
    have hset : TransmissionsKept (({ k with qos := q, pubRetryCount := k.maxRetry }.setValue .pub
        id).emit (.publishQueued id q)) := by
      refine set hactive rfl rfl hactive (fun c => ?_) rfl rfl
      cases c <;> first | exact Nat.le_refl _ | exact hk.retries .sub
    exact hset.of_calm rfl rfl ⟨rfl, rfl, rfl, rfl⟩
  | subscribe id q hactive hqueue hsub =>
    have hset : TransmissionsKept (({ k with qos := q, subRetryCount := k.maxRetry }.setValue .sub
        id).emit (.subscribeQueued id)) := by
      refine set hactive rfl rfl hactive (fun c => ?_) rfl rfl
      cases c <;> first | exact Nat.le_refl _ | exact hk.retries .pub
    exact hset.of_calm rfl rfl ⟨rfl, rfl, rfl, rfl⟩
  | _ => exact hk.of_calm rfl rfl ⟨rfl, rfl, rfl, rfl⟩

theorem basic (h : Basic k k') (hC : Throughout RetriesUnderId k'.trace)
    (hk : TransmissionsKept k) : TransmissionsKept k' := by
  cases h with
  | act h => exact hk.act h
  | plug h => cases h <;> exact hk.of_calm rfl rfl ⟨rfl, rfl, rfl, rfl⟩
  | move h => cases h <;> exact hk.of_calm rfl rfl ⟨rfl, rfl, rfl, rfl⟩
  | ready h =>
    cases h with
    | look left => exact hk.of_calm rfl rfl ⟨rfl, rfl, rfl, rfl⟩
    | _ => exact hk.of_silent rfl ⟨rfl, rfl, rfl, rfl⟩
  | lost => exact hk.of_silent rfl ⟨rfl, rfl, rfl, rfl⟩
  | hand h => exact hk.hand h hC
  | turn h => exact hk.turn h
  | ending h =>
    cases h with
    | answer v h hactive => exact hk.answer rfl ⟨rfl, rfl, rfl, rfl⟩ h nofun
    | wrap hanswered h => exact hk.wrap hanswered h
    | closeSocket ok v w t hlog hstate => exact hk.of_calm rfl rfl ⟨rfl, rfl, rfl, rfl⟩
    | setBreak => exact hk.of_silent rfl ⟨rfl, rfl, rfl, rfl⟩
  | call h => exact hk.call h

theorem fresh (conf : CoreConf) : TransmissionsKept (.fresh conf) := by
  refine ⟨?_, ?_, ?_, ?_, ?_, ?_, trivial, trivial⟩
  · exact fun _ _ _ h => nomatch h
  · exact fun _ h => nomatch h
  · exact fun c => by cases c <;> exact Nat.zero_le _
  · exact fun _ _ h => nomatch h
  · exact fun _ h => nomatch h
  · exact fun _ _ h => nomatch h

end TransmissionsKept

/-- **Retransmission** stays within the limit, under one message id, in every run
whose retries are counted in started activations by steps that find the message
id of the first transmission in the client's value. -/
theorem retransmits_after (setting : Setting) (calls : List ApiCall)
    (h : Obeys RetriesUnderId (setting.after calls).trace) :
    Obeys (Retransmits (setting.after calls).rest.sn.maxRetry) (setting.after calls).trace :=
  ⟨(holds_under_basic TransmissionsKept.fresh setting calls TransmissionsKept.basic h).law⟩

/-- A library with two retries whose clock jumps by more than a command's time when
it is looked at for the given time. The gateway accepts the connection and the
registration and is silent then. -/
def Setting.jumping (look : Nat) : Setting :=
  let reads : List Bytes := [[3], [5, 0], [7], [11, 0, 1, 0, 1, 0]]
  { Setting.script reads 100 2 with
    env := fun d n =>
      if d = .clock ∧ n = look then { elapsed := 40000 }
      else scripted reads 100 (fun _ _ => false) d n }

/-- A publish and what the library does about it. -/
def publishing : List ApiCall :=
  connecting 1 ++ .publish [97] [98] .qos1 :: List.replicate 5 (.eventLoop .active)

/-- The time is up before the first step: it retransmits under the right id. -/
theorem retransmits_after_firstStep :
    Obeys (Retransmits ((Setting.jumping 64).after publishing).rest.sn.maxRetry)
      ((Setting.jumping 64).after publishing).trace :=
  retransmits_after _ _ (by decide +kernel)

/-- The time is up before the second step: it retransmits the time that the first
step has left, as a message id. -/
theorem not_retransmits_after_secondStep :
    ¬Obeys (Retransmits ((Setting.jumping 71).after publishing).rest.sn.maxRetry)
      ((Setting.jumping 71).after publishing).trace := by
  decide +kernel

end LibNbiot
