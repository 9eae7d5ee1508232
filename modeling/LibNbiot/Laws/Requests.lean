/-
# The packet sent is the packet requested

A connect, register, unsubscribe or disconnect request is serialized into the one
send buffer when it is queued, and its client keeps only the length. The log is
replayed here as a queue of requests with their bytes; a request stays intact as
long as nothing else is written into the send buffer and its client is not
served for an earlier request. Whatever an intact request sends is what was
serialized for it.
-/

import LibNbiot.Laws.History

namespace LibNbiot

/-- A queued request: its client, the bytes that were serialized last when it was
queued, and whether buffer and client still are as they were then. -/
structure Request where
  client : ClientId
  bytes : Bytes
  intact : Bool
  deriving DecidableEq, Repr

/-- The request that was taken last, and those that wait. -/
structure Requests where
  current : Option Request := none
  waiting : List Request := []
  deriving DecidableEq, Repr

/-- A request whose packet is gone from the send buffer. -/
def Request.spoil (q : Request) : Request := { q with intact := false }

/-- A request whose client is called for an earlier one. -/
def Request.spoilOf (c : ClientId) (q : Request) : Request := if q.client = c then q.spoil else q

def Requests.spoil (r : Requests) : Requests where
  current := r.current.map Request.spoil
  waiting := r.waiting.map Request.spoil

def Requests.take (r : Requests) : Requests where
  current := r.waiting.head?
  waiting := r.waiting.tail

/-- What was serialized last. -/
def lastSerialized : Log → Bytes
  | [] => []
  | e :: t =>
      match e.event with
      | .app (.serialized _ b) => b
      | _ => lastSerialized t

theorem Requests.not_intact_spoil (r : Requests) :
    r.spoil.current.any (·.intact) = false := by
  rw [Requests.spoil]
  cases r.current <;> rfl

/-- The log replayed as a queue of requests. -/
def requests : Log → Requests
  | [] => {}
  | e :: t =>
      match e.event with
      | .app (.serialized _ _) | .app (.restored _) => (requests t).spoil
      | .registered c =>
          { requests t with
            waiting := (requests t).waiting ++ [⟨c, lastSerialized t, e.view.active ≠ some c⟩] }
      | .taken _ _ => (requests t).take
      | .called c _ _ => { requests t with waiting := (requests t).waiting.map (.spoilOf c) }
      | .cleared _ _ => {}
      | _ => requests t

/-- What the start handler of a request sends was serialized when the request was
queued. -/
def SentAsRequested : EntryLaw
  | .app (.wrote b _), _, t =>
      match running t with
      | some (c, .start, _) =>
          c.isRequest = true → (requests t).current.map (fun q => (q.client, q.bytes)) = some (c, b)
      | _ => True
  | _, _, _ => True

/-- A request is still intact when it is sent. -/
def SentIntact : EntryLaw
  | .app (.wrote _ _), _, t =>
      match running t with
      | some (c, .start, _) => c.isRequest = true → (requests t).current.any (·.intact) = true
      | _ => True
  | _, _, _ => True

instance (e : LoopEvent ClientId SysEvent) (v : View) (t : Log) :
    Decidable (SentAsRequested e v t) := by
  induction e using LoopEvent.casesOn with
  | app e =>
    induction e using SysEvent.casesOn with
    | wrote b ok =>
      dsimp only [SentAsRequested]
      exact
        match running t with
        | some (_, .start, _) => inferInstanceAs (Decidable (_ → _))
        | some (_, .step, _) | some (_, .stop, _) | none => .isTrue trivial
    | _ => exact .isTrue trivial
  | _ => exact .isTrue trivial

instance (e : LoopEvent ClientId SysEvent) (v : View) (t : Log) : Decidable (SentIntact e v t) := by
  induction e using LoopEvent.casesOn with
  | app e =>
    induction e using SysEvent.casesOn with
    | wrote b ok =>
      dsimp only [SentIntact]
      exact
        match running t with
        | some (_, .start, _) => inferInstanceAs (Decidable (_ → _))
        | some (_, .step, _) | some (_, .stop, _) | none => .isTrue trivial
    | _ => exact .isTrue trivial
  | _ => exact .isTrue trivial

/-! ## The invariant -/

/-- The packet of a request is where its client expects it. -/
def Request.Held (q : Request) (k : Core) : Prop :=
  k.value q.client = q.bytes.length ∧ k.sendbuf.take q.bytes.length = q.bytes

/-- An intact request has its packet. -/
def Request.Kept (q : Request) (k : Core) : Prop :=
  q.intact = true → q.client.isRequest = true → q.Held k

theorem Request.kept_of_spoiled (q : Request) (k : Core) (h : q.intact = false) : q.Kept k :=
  fun hintact => by simp [h] at hintact

/-- What the replayed queue tells about the controller and the send buffer. -/
structure RequestsKept (k : Core) : Prop where
  queue : (requests k.trace).waiting.map Request.client = k.loop.clientList
  waiting : ∀ q ∈ (requests k.trace).waiting, q.Kept k
  /-- While a client is served, no request of it is intact. -/
  served : ∀ c phase v, running k.trace = some (c, phase, v) → k.loop.loopClient = some c ∧
    ∀ q ∈ (requests k.trace).waiting, q.client = c → q.intact = false
  taken : ∀ c r w t, k.trace = ⟨.taken c r, w⟩ :: t → running k.trace = none ∧
    ∃ q, (requests k.trace).current = some q ∧ q.client = c ∧ q.Kept k
  called : ∀ c len w t, k.trace = ⟨.called c .start len, w⟩ :: t → c.isRequest = true →
    ∃ q, (requests k.trace).current = some q ∧ q.client = c ∧
      (q.intact = true → len = q.bytes.length ∧ k.sendbuf.take q.bytes.length = q.bytes)
  law : Throughout SentAsRequested k.trace

/-- Entries that the replay passes over. -/
def neutral : LoopEvent ClientId SysEvent → Bool
  | .app (.serialized _ _) | .app (.restored _) | .registered _ | .taken _ _ | .called _ _ _
  | .cleared _ _ => false
  | _ => true

theorem requests_neutral {e : LoopEvent ClientId SysEvent} (he : neutral e = true) (v : View)
    (t : Log) : requests (⟨e, v⟩ :: t) = requests t := by
  cases e with
  | app e => cases e <;> first | rfl | cases he
  | answered c phase a v => rfl
  | _ => cases he

/-- An entry that is no call continues the running handler or ends it. -/
theorem running_neutral {e : LoopEvent ClientId SysEvent} (he : neutral e = true) (v : View)
    (t : Log) : running (⟨e, v⟩ :: t) = running t ∨ running (⟨e, v⟩ :: t) = none := by
  cases e with
  | called c phase v => cases he
  | answered c phase a v => exact .inr rfl
  | _ => exact .inl rfl

namespace RequestsKept

variable {k k' : Core}

theorem kept_of_same {q : Request} (hq : q.Kept k) (hsend : k'.sendbuf = k.sendbuf)
    (hvalue : q.client.isRequest = true → k'.value q.client = k.value q.client) : q.Kept k' := by
  intro hintact hc
  rw [Request.Held, hvalue hc, hsend]
  exact hq hintact hc

/-- A step that logs nothing, and stores no value but that of a running client. -/
theorem of_silent (hk : RequestsKept k) (htrace : k'.trace = k.trace)
    (hsend : k'.sendbuf = k.sendbuf) (hqueue : k'.loop.clientList = k.loop.clientList)
    (hactive : (running k.trace).isSome → k'.loop.loopClient = k.loop.loopClient)
    (hvalue : ∀ c, c.isRequest = true → k'.value c ≠ k.value c →
      ∃ phase v, running k.trace = some (c, phase, v)) : RequestsKept k' := by
  refine ⟨?_, ?_, ?_, ?_, ?_, ?_⟩
  · rw [htrace, hqueue]
    exact hk.queue
  · rw [htrace]
    intro q hq hintact hc
    refine kept_of_same (hk.waiting q hq) hsend (fun _ => ?_) hintact hc
    by_contra hne
    obtain ⟨phase, v, hrun⟩ := hvalue _ hc hne
    simp [(hk.served _ _ _ hrun).2 q hq rfl] at hintact
  · rw [htrace]
    intro c phase v hrun
    rw [hactive (by simp [hrun])]
    exact hk.served c phase v hrun
  · rw [htrace]
    intro c r w t hlog
    obtain ⟨hrun, q, hq, hclient, hkept⟩ := hk.taken c r w t hlog
    refine ⟨hrun, q, hq, hclient, fun hintact hc => ?_⟩
    refine kept_of_same hkept hsend (fun _ => ?_) hintact hc
    by_contra hne
    obtain ⟨phase, v, hrun'⟩ := hvalue _ hc hne
    rw [hrun] at hrun'
    cases hrun'
  · rw [htrace, hsend]
    exact hk.called
  · rw [htrace]
    exact hk.law

/-- A step that logs nothing and leaves queue, values and send buffer alone. -/
theorem of_still (hk : RequestsKept k) (htrace : k'.trace = k.trace)
    (hsend : k'.sendbuf = k.sendbuf) (hqueue : k'.loop.clientList = k.loop.clientList)
    (hvalue : k'.value = k.value)
    (hactive : (running k.trace).isSome → k'.loop.loopClient = k.loop.loopClient) :
    RequestsKept k' :=
  hk.of_silent htrace hsend hqueue hactive fun c _ hne => absurd (congrFun hvalue c) hne

/-- A step that logs an entry which the replay passes over. -/
theorem of_neutral (hk : RequestsKept k) {e : LoopEvent ClientId SysEvent} {v : View}
    (htrace : k'.trace = ⟨e, v⟩ :: k.trace) (he : neutral e = true)
    (hsend : k'.sendbuf = k.sendbuf) (hloop : k'.loop = k.loop)
    (hvalue : ∀ c, c.isRequest = true → k'.value c = k.value c)
    (hlaw : SentAsRequested e v k.trace) : RequestsKept k' := by
  have hreq : requests k'.trace = requests k.trace := by
    rw [htrace]
    exact requests_neutral he v _
  refine ⟨?_, ?_, ?_, ?_, ?_, ?_⟩
  · rw [hreq, hloop]
    exact hk.queue
  · rw [hreq]
    exact fun q hq => kept_of_same (hk.waiting q hq) hsend (hvalue _)
  · intro c phase v' hrun
    rw [htrace] at hrun
    rw [hreq, hloop]
    rcases running_neutral he v k.trace with h | h
    · exact hk.served c phase v' (h.symm.trans hrun)
    · simp [h] at hrun
  · intro c r w t hlog
    rw [htrace] at hlog
    obtain ⟨⟨rfl, -⟩, -⟩ := List.cons.inj hlog
    cases he
  · intro c len w t hlog
    rw [htrace] at hlog
    obtain ⟨⟨rfl, -⟩, -⟩ := List.cons.inj hlog
    cases he
  · rw [htrace]
    exact ⟨hlaw, hk.law⟩

/-- A step that logs the writing of something else into the send buffer. -/
theorem of_spoil (hk : RequestsKept k) {e : LoopEvent ClientId SysEvent} {v : View}
    (htrace : k'.trace = ⟨e, v⟩ :: k.trace)
    (he : requests (⟨e, v⟩ :: k.trace) = (requests k.trace).spoil)
    (hrunning : running (⟨e, v⟩ :: k.trace) = running k.trace)
    (hevent : ∃ a, e = .app a) (hloop : k'.loop = k.loop) (hlaw : SentAsRequested e v k.trace) :
    RequestsKept k' := by
  obtain ⟨a, rfl⟩ := hevent
  have spoiled : ∀ q ∈ (requests k'.trace).waiting, q.intact = false := by
    rw [htrace, he]
    intro q hq
    obtain ⟨q, -, rfl⟩ := List.mem_map.1 hq
    rfl
  refine ⟨?_, fun q hq => q.kept_of_spoiled k' (spoiled q hq), ?_, ?_, ?_, ?_⟩
  · rw [htrace, he, hloop, ← hk.queue]
    exact (List.map_map ..).trans rfl
  · intro c phase v' hrun
    rw [htrace, hrunning] at hrun
    rw [hloop]
    exact ⟨(hk.served c phase v' hrun).1, fun q hq _ => spoiled q hq⟩
  · intro c r w t hlog
    rw [htrace] at hlog
    cases hlog
  · intro c len w t hlog
    rw [htrace] at hlog
    cases hlog
  · rw [htrace]
    exact ⟨hlaw, hk.law⟩

/-- A step that queues a client. An intact request keeps its packet, and a new
request has the packet that was serialized last. -/
theorem of_registered (hk : RequestsKept k) {c : ClientId} {v : View}
    (htrace : k'.trace = ⟨.registered c, v⟩ :: k.trace) (hview : v.active = k.loop.loopClient)
    (hqueue : k'.loop.clientList = k.loop.clientList ++ [c])
    (hactive : k'.loop.loopClient = k.loop.loopClient)
    (hkept : ∀ q ∈ (requests k.trace).waiting, q.Kept k')
    (hnew : c.isRequest = true → k'.value c = (lastSerialized k.trace).length ∧
      k'.sendbuf.take (lastSerialized k.trace).length = lastSerialized k.trace) :
    RequestsKept k' := by
  have hwaiting : (requests k'.trace).waiting = (requests k.trace).waiting ++
      [⟨c, lastSerialized k.trace, v.active ≠ some c⟩] := by
    rw [htrace]
    rfl
  refine ⟨?_, ?_, ?_, ?_, ?_, ?_⟩
  · rw [hwaiting, List.map_append, hk.queue, hqueue]
    rfl
  · rw [hwaiting]
    intro q hq
    rcases List.mem_append.1 hq with hq | hq
    · exact hkept q hq
    · rw [List.mem_singleton.1 hq]
      exact fun _ hc => hnew hc
  · intro d phase v' hrun
    rw [htrace] at hrun
    obtain ⟨hserved, hspoiled⟩ := hk.served d phase v' hrun
    refine ⟨hactive.trans hserved, ?_⟩
    rw [hwaiting]
    intro q hq hclient
    rcases List.mem_append.1 hq with hq | hq
    · exact hspoiled q hq hclient
    · rw [List.mem_singleton.1 hq] at hclient ⊢
      simp [hview, hserved, ← hclient]
  · intro d r w t hlog
    rw [htrace] at hlog
    cases hlog
  · intro d len w t hlog
    rw [htrace] at hlog
    cases hlog
  · rw [htrace]
    exact ⟨trivial, hk.law⟩

/-- A step that calls a handler: no waiting request of its client is intact any
more. -/
theorem of_called (hk : RequestsKept k) {c : ClientId} {phase : LoopPhase}
    (hactive : k.loop.loopClient = some c)
    (hstart : phase = .start → ∃ r v t, k.trace = ⟨.taken c r, v⟩ :: t) :
    RequestsKept (k.log (.called c phase (k.value c))) := by
  refine ⟨?_, ?_, ?_, ?_, ?_, ?_⟩
  · show ((requests k.trace).waiting.map (.spoilOf c)).map Request.client = _
    rw [List.map_map]
    refine Eq.trans ?_ hk.queue
    apply List.map_congr_left
    intro q _
    show (Request.spoilOf c q).client = q.client
    rw [Request.spoilOf]
    split <;> rfl
  · intro q hq
    obtain ⟨q, hmem, rfl⟩ := List.mem_map.1 hq
    rw [Request.spoilOf]
    split
    · exact q.spoil.kept_of_spoiled _ rfl
    · exact hk.waiting q hmem
  · intro d phase' v hrun
    obtain ⟨rfl, -⟩ : c = d ∧ _ := Prod.mk.inj (Option.some.inj hrun)
    refine ⟨hactive, fun q hq hclient => ?_⟩
    obtain ⟨q, -, rfl⟩ := List.mem_map.1 hq
    rw [Request.spoilOf] at hclient ⊢
    split
    · rfl
    · rename_i hne
      rw [if_neg hne] at hclient
      exact absurd hclient hne
  · intro d r w t hlog
    cases hlog
  · intro d len w t hlog hd
    obtain ⟨⟨⟨rfl, rfl, rfl⟩, -⟩, rfl⟩ := List.cons.inj hlog
    obtain ⟨r, v, t, hlog⟩ := hstart rfl
    obtain ⟨-, q, hq, hclient, hkept⟩ := hk.taken c r v t hlog
    refine ⟨q, hq, hclient, fun hintact => ?_⟩
    subst hclient
    exact hkept hintact hd
  · exact ⟨trivial, hk.law⟩

/-- A packet was serialized. -/
theorem serialize (hk : RequestsKept k) (p : Packet) (b : Bytes) :
    RequestsKept (k.serialize p b) :=
  hk.of_spoil rfl rfl rfl ⟨_, rfl⟩ rfl trivial

/-- What is written is an intact request, if a request is being started. -/
theorem write (hk : RequestsKept k) (b : Bytes) (ok : Bool) (h : Writable k b)
    (hC : SentIntact (.app (.wrote b ok)) k.view k.trace) :
    RequestsKept (k.emit (.wrote b ok)) := by
  refine hk.of_neutral rfl rfl rfl rfl (fun _ _ => rfl) ?_
  simp only [SentIntact, SentAsRequested] at hC ⊢
  split at hC
  · rename_i c v hrun
    intro hc
    have hintact := hC hc
    unfold Writable at h
    split at h
    · rename_i w t hlog
      rw [hlog, requests, Requests.not_intact_spoil] at hintact
      cases hintact
    · rename_i d len w t hlog
      obtain ⟨hd, rfl⟩ := h
      obtain ⟨q, hq, hclient, hbuf⟩ := hk.called d len w t hlog hd
      rw [hlog] at hrun
      obtain ⟨rfl, -⟩ : d = c ∧ _ := Prod.mk.inj (Option.some.inj hrun)
      rw [hq] at hintact ⊢
      obtain ⟨rfl, hbytes⟩ := hbuf hintact
      simp [hclient, hbytes]
    · rename_i w t hlog
      rw [hlog, requests, Requests.not_intact_spoil] at hintact
      cases hintact
    · exact h.elim
  · trivial

theorem act (hk : RequestsKept k) (h : Act k k') (hC : Throughout SentIntact k'.trace) :
    RequestsKept k' := by
  cases h with
  | note e h =>
    refine hk.of_neutral rfl ?_ rfl rfl (fun _ _ => rfl) ?_
    · cases e <;> first | rfl | cases h
    · cases e <;> trivial
  | notifyPublish n h => exact hk.of_neutral rfl rfl rfl rfl (fun _ _ => rfl) trivial
  | serialize p b hp hb => exact hk.serialize p b
  | write b ok h => exact hk.write b ok h hC.1
  | enqueue c p b v t hc hlog hbuf =>
    have hlast : lastSerialized k.trace = b := by
      rw [hlog]
      rfl
    refine hk.of_registered rfl rfl rfl rfl (fun q hq => ?_) fun _ => ?_
    · apply q.kept_of_spoiled
      rw [hlog] at hq
      obtain ⟨q, -, rfl⟩ := List.mem_map.1 hq
      rfl
    · rw [hlast]
      exact ⟨by simp [Core.register, Core.setValue, Core.log], hbuf⟩
  | yield v =>
    refine hk.of_registered rfl rfl rfl rfl (fun q hq => ?_) fun hno => by cases hno
    refine kept_of_same (hk.waiting q hq) rfl fun hc => ?_
    have hne : q.client ≠ .yield := fun h => by simp [h, ClientId.isRequest] at hc
    simp [Core.register, Core.setValue, Core.log, hne]
  | attach =>
    exact hk.of_registered rfl rfl rfl rfl
      (fun q hq => kept_of_same (hk.waiting q hq) rfl fun _ => rfl) fun hno => by cases hno
  | post e h => exact hk.of_neutral rfl rfl rfl rfl (fun _ _ => rfl) trivial
  | setBreak => exact hk.of_still rfl rfl rfl rfl fun _ => rfl

theorem hand (hk : RequestsKept k) (h : Hand k k') : RequestsKept k' := by
  cases h with
  | store c phase v v' h =>
    refine hk.of_silent rfl rfl rfl (fun _ => rfl) fun d _ hne => ⟨phase, v, ?_⟩
    have hd : d = c := by
      by_contra hd
      exact hne (Function.update_of_ne hd _ _)
    rw [hd, h]
  | transmit c v p b w t hlog hp hb => exact hk.of_spoil rfl rfl rfl ⟨_, rfl⟩ rfl trivial
  | countRetry c v w t hc hlog hleft =>
    simp only [Core.retry]
    split <;> exact hk.of_neutral rfl rfl rfl rfl (fun _ _ => rfl) trivial
  | retransmit c v p b w t h hlog hp hb => exact hk.of_spoil rfl rfl rfl ⟨_, rfl⟩ rfl trivial
  | restore buf => exact hk.of_spoil rfl rfl rfl ⟨_, rfl⟩ rfl trivial
  | read buf h => exact hk.of_still rfl rfl rfl rfl fun _ => rfl
  | receive c v h hlen => exact hk.of_neutral rfl rfl rfl rfl (fun _ _ => rfl) trivial
  | receiveFailed c v h => exact hk.of_neutral rfl rfl rfl rfl (fun _ _ => rfl) trivial

/-- The front request is taken with all it has kept. -/
theorem take (hk : RequestsKept k) {c : ClientId} {queue : List ClientId}
    (hrunning : running k.trace = none) (hqueue : k.loop.clientList = c :: queue) :
    RequestsKept (k.take c queue) := by
  have hclients := hk.queue
  rw [hqueue] at hclients
  obtain ⟨q, waiting, hwaiting, hclient, hrest⟩ := List.map_eq_cons_iff.1 hclients
  have hreq : requests (k.take c queue).trace = ⟨some q, waiting⟩ := by
    show (requests k.trace).take = _
    rw [Requests.take, hwaiting]
    rfl
  refine ⟨?_, ?_, ?_, ?_, ?_, ?_⟩
  · rw [hreq]
    exact hrest
  · rw [hreq]
    intro q' hq'
    have hmem : q' ∈ (requests k.trace).waiting := hwaiting ▸ List.mem_cons_of_mem _ hq'
    exact kept_of_same (hk.waiting q' hmem) rfl fun _ => rfl
  · intro d phase v hrun
    cases hrunning.symm.trans hrun
  · intro d r w t hlog
    cases hlog
    have hmem : q ∈ (requests k.trace).waiting := hwaiting ▸ List.mem_cons_self
    rw [hreq]
    exact ⟨hrunning, q, rfl, hclient, kept_of_same (hk.waiting q hmem) rfl fun _ => rfl⟩
  · intro d len w t hlog
    cases hlog
  · exact ⟨trivial, hk.law⟩

/-- Clearing the controller leaves no request. -/
theorem clear (hk : RequestsKept k) (hrunning : running k.trace = none) :
    RequestsKept k.clear := by
  have hwaiting : (requests k.clear.trace).waiting = [] := rfl
  refine ⟨rfl, ?_, ?_, ?_, ?_, trivial, hk.law⟩
  · rw [hwaiting]
    exact fun q hq => absurd hq List.not_mem_nil
  · intro c phase v hrun
    cases hrunning.symm.trans hrun
  · intro c r w t hlog
    cases hlog
  · intro c len w t hlog
    cases hlog

theorem wrap (hk : RequestsKept k) {c : ClientId} {phase : LoopPhase} {a : Bool}
    (hanswered : Answered c phase a k) (h : Wrap c phase a k k') : RequestsKept k' := by
  obtain ⟨v, w, t, hlog⟩ := hanswered
  have hidle : (running k.trace).isSome = false := by
    rw [hlog]
    rfl
  cases h with
  | letGo id hactive h =>
    refine hk.of_still rfl rfl rfl rfl fun hsome => ?_
    rw [hidle] at hsome
    cases hsome
  | _ => exact hk.of_still rfl rfl rfl rfl fun _ => rfl

theorem turn (hk : RequestsKept k) (h : Turn k k') : RequestsKept k' := by
  cases h with
  | clear h => exact hk.clear h
  | resetBreak => exact hk.of_still rfl rfl rfl rfl fun _ => rfl
  | take c queue h hactive hqueue => exact hk.take h hqueue
  | callStart c r v t hactive hlog hr => exact hk.of_called hactive fun _ => ⟨r, v, t, hlog⟩
  | callStep c h hactive hr => exact hk.of_called hactive nofun
  | callStop c v t hactive hlog => exact hk.of_called hactive nofun
  | answer c phase v a h hactive hdis ha =>
    cases ha with
    | published v a k' h =>
      have hvalue (w : Int) (d : ClientId) (hd : d.isRequest = true) :
          Function.update k.value .pub w d = k.value d := by
        apply Function.update_of_ne
        rintro rfl
        cases hd
      cases h with
      | qos0 h => exact hk.of_neutral rfl rfl rfl rfl (fun _ _ => rfl) trivial
      | timeout h => exact hk.of_neutral rfl rfl rfl rfl (fun _ _ => rfl) trivial
      | _ => exact hk.of_neutral rfl rfl rfl rfl (hvalue _) trivial
    | _ => exact hk.of_neutral rfl rfl rfl rfl (fun _ _ => rfl) trivial
  | wrap c phase a hanswered hdis h => exact hk.wrap hanswered h
  | idle hactive => exact hk.of_still rfl rfl rfl rfl fun _ => rfl

theorem ending (hk : RequestsKept k) (h : Ending k k') : RequestsKept k' := by
  cases h with
  | answer v h hactive => exact hk.of_neutral rfl rfl rfl rfl (fun _ _ => rfl) trivial
  | wrap hanswered h => exact hk.wrap hanswered h
  | closeSocket ok v w t hlog hstate => exact hk.of_neutral rfl rfl rfl rfl (fun _ _ => rfl) trivial
  | setBreak => exact hk.of_still rfl rfl rfl rfl fun _ => rfl

/-- A publish or subscribe is queued without a packet. -/
theorem queued (hk : RequestsKept k) {c : ClientId} {v : View} (hc : c.isRequest = false)
    (htrace : k'.trace = ⟨.registered c, v⟩ :: k.trace) (hview : v.active = k.loop.loopClient)
    (hqueue : k'.loop.clientList = k.loop.clientList ++ [c])
    (hactive : k'.loop.loopClient = k.loop.loopClient) (hsend : k'.sendbuf = k.sendbuf)
    (hvalue : ∀ d, d ≠ c → k'.value d = k.value d) : RequestsKept k' := by
  refine hk.of_registered htrace hview hqueue hactive (fun q hq => ?_) fun h => ?_
  · refine kept_of_same (hk.waiting q hq) hsend fun h => hvalue _ fun hne => ?_
    rw [hne, hc] at h
    cases h
  · rw [hc] at h
    cases h

theorem call (hk : RequestsKept k) (h : Call k k') : RequestsKept k' := by
  cases h with
  | publish id q hactive hqueue =>
    have hlogged : RequestsKept ({ k with qos := q, pubRetryCount := k.maxRetry }.emit
        (.publishQueued id q)) :=
      hk.of_neutral rfl rfl rfl rfl (fun _ _ => rfl) trivial
    exact hlogged.queued rfl rfl rfl rfl rfl rfl fun d hd => Function.update_of_ne hd _ _
  | subscribe id q hactive hqueue hsub =>
    have hlogged : RequestsKept ({ k with qos := q, subRetryCount := k.maxRetry }.emit
        (.subscribeQueued id)) :=
      hk.of_neutral rfl rfl rfl rfl (fun _ _ => rfl) trivial
    exact hlogged.queued rfl rfl rfl rfl rfl rfl fun d hd => Function.update_of_ne hd _ _
  | _ => exact hk.of_neutral rfl rfl rfl rfl (fun _ _ => rfl) trivial

theorem fresh (conf : CoreConf) : RequestsKept (.fresh conf) where
  queue := rfl
  waiting q hq := absurd hq List.not_mem_nil
  served c phase v hrun := by cases hrun
  taken c r w t hlog := by cases hlog
  called c len w t hlog := by cases hlog
  law := trivial

theorem basic (h : Basic k k') (hC : Throughout SentIntact k'.trace) (hk : RequestsKept k) :
    RequestsKept k' := by
  cases h with
  | act h => exact hk.act h hC
  | plug h => cases h <;> exact hk.of_neutral rfl rfl rfl rfl (fun _ _ => rfl) trivial
  | move h => cases h <;> exact hk.of_neutral rfl rfl rfl rfl (fun _ _ => rfl) trivial
  | ready h =>
    cases h with
    | look left => exact hk.of_neutral rfl rfl rfl rfl (fun _ _ => rfl) trivial
    | _ => exact hk.of_still rfl rfl rfl rfl fun _ => rfl
  | lost => exact hk.of_still rfl rfl rfl rfl fun _ => rfl
  | hand h => exact hk.hand h
  | turn h => exact hk.turn h
  | ending h => exact hk.ending h
  | call h => exact hk.call h

end RequestsKept

/-- **The packet sent is the packet requested** in every run in which a request is
started only while its packet is still in the send buffer and its client has not
been called since. -/
theorem sentAsRequested_after (setting : Setting) (calls : List ApiCall)
    (h : Obeys SentIntact (setting.after calls).trace) :
    Obeys SentAsRequested (setting.after calls).trace :=
  ⟨(holds_under_basic RequestsKept.fresh setting calls RequestsKept.basic h).law⟩

/-- Connecting meets the condition. -/
theorem sentAsRequested_after_connect :
    Obeys SentAsRequested ((Setting.script [[3], [5, 0]] 100).after (connecting 1)).trace :=
  sentAsRequested_after _ _ (by decide +kernel)

/-- A disconnect right after a publish overwrites the REGISTER that the publish
has queued. -/
theorem not_sentAsRequested_after_disconnect :
    ¬Obeys SentAsRequested ((Setting.script [[3], [5, 0]] 100).after
      (connecting 1 ++ [.publish [97] [98] .qos1, .disconnect, .eventLoop .active])).trace := by
  decide +kernel

end LibNbiot
