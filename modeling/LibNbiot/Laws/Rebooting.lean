/-
# Reboots of the modem

The library counts the attach timeouts in sixteen bits, and its counter is tested
in the Error state only. The log tells how many timeouts there were since the last
attach or the last reboot in that state. Only an initialized library waits for an
attach, and the Error state of such a library reboots the modem at the threshold,
so the counter never wraps and is always what the log tells.
-/

import LibNbiot.Laws.History
import LibNbiot.Ledger.Phases

namespace LibNbiot

open Logic.Program Relation Ledger

variable {C : Option MessageHandler → List ApiCall → Bytes → Prop}

/-- An initialized library reboots the modem after enough attach timeouts and asks for
a disconnect otherwise; another one does neither. -/
structure ErrorEntry.Lawful (x : ErrorEntry) : Prop where
  rebooted : x.rebooted = true ↔ x.initialized = true ∧ restartModemThreshold ≤ x.timeouts
  disconnects : x.disconnects = true ↔ x.initialized = true ∧ x.timeouts < restartModemThreshold

/-- Every entry into the Error state was lawful, and what the log tells of the library
being initialized is so in every state but the Initial one. -/
structure RebootsInTurn (s : Sys) : Prop where
  entries : ∀ x ∈ errorEntries s.trace, x.Lawful
  known : s.rest.stm.currentState ≠ some .initial →
    knownInitialized s.trace = s.rest.pool.initialized

/-! ## The counter -/

namespace Recovery

/-- The counter is what the log tells, and every entry was lawful. -/
structure Counts (r : Recovery) : Prop where
  restarts : r.restarts = r.timeouts
  entries : ∀ x ∈ r.entries, x.Lawful

/-- The counter is below the threshold. -/
def Low (r : Recovery) : Prop := r.restarts < restartModemThreshold

variable {r : Recovery}

theorem Counts.setKnown (h : r.Counts) (known : Bool) : (r.setKnown known).Counts := ⟨h.1, h.2⟩

theorem Counts.attach (h : r.Counts) : r.attach.Counts := ⟨rfl, h.2⟩

theorem attach_low (r : Recovery) : r.attach.Low := by
  show 0 < restartModemThreshold
  decide

/-- A counter below the threshold does not wrap. -/
theorem Counts.timeOut (h : r.Counts) (hlow : r.Low) : r.timeOut.Counts := by
  refine ⟨?_, h.entries⟩
  have hbound : r.restarts < 5 := hlow
  have hwrap : (r.restarts + 1) % 65536 = r.restarts + 1 := Nat.mod_eq_of_lt (by omega)
  calc (r.restarts + 1) % 65536 = r.restarts + 1 := hwrap
    _ = r.timeouts + 1 := by rw [h.restarts]

/-- The Error state of an initialized library is entered lawfully, and leaves the
counter below the threshold. -/
theorem Counts.recover (h : r.Counts) (hknown : r.known = true) :
    r.recover.Counts ∧ r.recover.Low := by
  have hexhausted : r.exhausted = true ↔ restartModemThreshold ≤ r.timeouts := by
    rw [exhausted, decide_eq_true_eq, h.restarts]
  have hlawful : ErrorEntry.Lawful ⟨r.known, r.timeouts, r.exhausted, !r.exhausted⟩ := by
    constructor
    · simpa only [hknown, true_and] using hexhausted
    · rw [Bool.not_eq_true', ← Bool.not_eq_true, hexhausted, not_le]
      simp only [hknown, true_and]
  refine ⟨⟨?_, ?_⟩, ?_⟩
  · simp only [Recovery.recover, h.restarts]
  · intro x hx
    obtain rfl | hx := List.mem_cons.1 hx
    · exact hlawful
    · exact h.entries x hx
  · simp only [Low, Recovery.recover]
    split
    · decide
    · rename_i hno
      rw [hexhausted, not_le, ← h.restarts] at hno
      exact hno

/-- The Error state of another library is entered lawfully. -/
theorem Counts.enter (h : r.Counts) (hknown : r.known = false) : r.enter.Counts := by
  refine ⟨h.restarts, fun x hx => ?_⟩
  obtain rfl | hx := List.mem_cons.1 hx
  · exact ⟨by simp [hknown], by simp [hknown]⟩
  · exact h.entries x hx

end Recovery

/-! ## One event -/

/-- What is known of the recovery in a state. -/
structure Ledger.Tallied (k : Ledger) : Prop where
  counts : k.recovery.Counts
  low : k.recovery.Low
  known : k.state ≠ some .initial → k.recovery.known = k.initialized

/-- What is known of the recovery when a state is about to be entered: only the Error
state of an initialized library may find the threshold reached. -/
structure Recovery.Bound (initialized : Bool) (st : StateId) (r : Recovery) : Prop where
  counts : r.Counts
  low : r.Low ∨ st = .error ∧ initialized = true
  known : st ≠ .initial → r.known = initialized

theorem Goes.bound {initialized : Bool} {r r' : Recovery} {st st' : StateId} {e : StmEvent}
    (h : Goes initialized r st e st' r') (hr : r.Counts) (hlow : r.Low)
    (hknown : st ≠ .initial → r.known = initialized)
    (hstarted : st.started = true → initialized = true) : r'.Bound initialized st' := by
  cases h with
  | initialized he hinit => exact ⟨hr.setKnown true, .inl hlow, fun _ => hinit.symm⟩
  | uninitialized he hinit => exact ⟨hr.setKnown false, .inl hlow, fun _ => hinit.symm⟩
  | recover => exact ⟨hr, .inl hlow, fun _ => hknown nofun⟩
  | restart he => exact ⟨hr, .inl hlow, fun _ => hknown nofun⟩
  | reInitialize => exact ⟨hr, .inl hlow, fun _ => hknown nofun⟩
  | timeOut => exact ⟨hr.timeOut hlow, .inr ⟨rfl, hstarted rfl⟩, fun _ => hknown nofun⟩
  | moves hst hst' he hposted hr' =>
    have hknown' : r.known = initialized := hknown (by rintro rfl; cases hst)
    obtain rfl | rfl := hr'
    · exact ⟨hr, .inl hlow, fun _ => hknown'⟩
    · exact ⟨hr.attach, .inl r.attach_low, fun _ => hknown'⟩

theorem StateId.Enters.tallied {e : StmEvent} {st : StateId} {k k' : Ledger}
    (h : st.Enters e k k') (hk : k.recovery.Bound k.initialized st) : k'.Tallied := by
  obtain ⟨hcounts, hlow, hknown⟩ := hk
  have hlow' (hst : ¬(st = .error ∧ k.initialized = true)) : k.recovery.Low :=
    hlow.resolve_right hst
  cases h with
  | initial ok timeout he => exact ⟨hcounts, hlow' nofun, fun hno => absurd rfl hno⟩
  | recovered hinit =>
    have hk : k.recovery.known = true := (hknown nofun).trans hinit
    obtain ⟨hcounts', hlow'⟩ := hcounts.recover hk
    exact ⟨hcounts', hlow', fun _ => hknown nofun⟩
  | failed timeout hinit =>
    have hk : k.recovery.known = false := (hknown nofun).trans hinit
    refine ⟨hcounts.enter hk, hlow' fun h => ?_, fun _ => hknown nofun⟩
    exact absurd (hinit.symm.trans h.2) nofun
  | disconnected k' hqueues =>
    obtain ⟨cs, -, rfl⟩ := hqueues
    exact ⟨hcounts, hlow' nofun, fun _ => hknown nofun⟩
  | deepSleep k' hqueues =>
    obtain ⟨cs, -, rfl⟩ := hqueues
    exact ⟨hcounts.setKnown false, hlow' nofun, fun _ => rfl⟩
  | _ => exact ⟨hcounts, hlow' nofun, fun _ => hknown nofun⟩

theorem Reacts.tallied {e : StmEvent} {es : List StmEvent} {k k' : Ledger}
    (h : Reacts e { k with events := es } k') (hphase : k.InPhase (e :: es)) (hk : k.Tallied) :
    k'.Tallied := by
  obtain ⟨hnone, rfl⟩ | ⟨st, st', errno, recovery, queue, hst, hgoes, henter⟩ := h.goes
  · exact ⟨hk.counts, hk.low, hk.known⟩
  · have hst : k.state = some st := hst
    have hstarted : st.started = true → k.initialized = true := by
      have hphase := hphase.phase
      rw [hst] at hphase
      exact hphase.started
    have hknown : st ≠ .initial → k.recovery.known = k.initialized := fun hne =>
      hk.known (by rw [hst]; exact fun h => hne (Option.some.inj h))
    exact henter.tallied (hgoes.bound hk.counts hk.low hknown hstarted)

/-! ## Runs -/

theorem Dispatches.tallied {pushed : List StmEvent} {k k' : Ledger} (h : Dispatches pushed k k')
    (hready : k.Ready pushed) (hk : k.Tallied) : k'.Tallied := by
  obtain ⟨timer, timeout, k', htimer, htimeout, h⟩ := h
  have hin := hready.inPhase (htimer.imp_right And.left) timeout
  obtain ⟨k₁, ⟨-, hk₁⟩, rfl⟩ := h.keeps (D := fun es k => k.InPhase es ∧ k.Tallied)
    (fun hk hreacts => ⟨hk.1.step hreacts, hreacts.tallied hk.1 hk.2⟩)
    ⟨hin, hk.counts, hk.low, hk.known⟩
  exact ⟨hk₁.counts, hk₁.low, hk₁.known⟩

theorem Change.tallied {k k' : Ledger} (h : Change C k k') (hordered : k.Ordered)
    (hphased : k.Phased) (hk : k.Tallied) : k'.Tallied := by
  cases h with
  | enqueue h =>
    obtain ⟨cs, -, rfl⟩ := h
    exact ⟨hk.counts, hk.low, hk.known⟩
  | dispatch pushed hpushed h => exact h.tallied (hpushed.ready hordered hphased) hk
  | _ => exact ⟨hk.counts, hk.low, hk.known⟩

theorem Boots.tallied {authLogin authPasswd : Bytes} {maxTopics : Nat} {k : Ledger}
    (h : Boots (.fresh authLogin authPasswd maxTopics) k) : k.Tallied := by
  have hcounts : Recovery.Counts ⟨0, 0, false, []⟩ := ⟨rfl, nofun⟩
  have hlow : Recovery.Low ⟨0, 0, false, []⟩ := Recovery.attach_low ⟨0, 0, false, []⟩
  cases h with
  | stays => exact ⟨hcounts, hlow, fun _ => rfl⟩
  | starts k₁ k' h hdispatch =>
    refine hdispatch.tallied h.ready ?_
    cases h with
    | failed timeout => exact ⟨hcounts, hlow, fun h => absurd rfl h⟩
    | succeeded login timeout hlogin => exact ⟨hcounts, hlow, fun h => absurd rfl h⟩

/-- **The Error state reboots the modem at the threshold**: in every run each entry of
an initialized library reboots it when the attach timeouts since the last attach, the
last such reboot or the start have reached the threshold, and asks for a disconnect
otherwise. -/
theorem rebootsInTurn_after (setting : Setting) (calls : List ApiCall) :
    RebootsInTurn (setting.after calls) := by
  have htallied := after_keeps_all (J := fun k => (k.Ordered ∧ k.Phased) ∧ k.Tallied)
    (fun _ _ _ _ h => ⟨⟨h.ordered, h.phased⟩, h.tallied⟩)
    (fun h hk => ⟨⟨h.ordered hk.1.1, h.phased hk.1.1 hk.1.2⟩, h.tallied hk.1.1 hk.1.2 hk.2⟩)
    setting calls
  exact ⟨htallied.2.counts.entries, htallied.2.known⟩

/-- A modem that is never attached. -/
def unattached : Setting := .script [] 61000 0 fun d _ => d = .isAttached

/-- Of five connects that time out only the last one has the modem rebooted. -/
example : (errorEntries (unattached.after ((List.replicate 5
    [.connect 1, .eventLoop .active, .eventLoop .active, .eventLoop .active]).flatten)).trace).map
      (fun x => (x.timeouts, x.rebooted, x.disconnects)) =
    [(5, true, false), (4, false, true), (3, false, true), (2, false, true), (1, false, true)] := by
  decide +kernel

end LibNbiot
