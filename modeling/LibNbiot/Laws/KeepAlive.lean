/-
# The keep-alive interval in CONNECT packets

A CONNECT tells the gateway the keep-alive interval. Only the configuration sets the
interval, and every CONNECT carries it; but the field of the packet has sixteen bits,
and the configuration accepts intervals of up to a day, which has more seconds than
that. Then the gateway is told the interval without its upper bits, and the interval
of the automatic poll, which is below the one that was configured, need not be below
the one that was announced.
-/

import LibNbiot.Laws.Startup

namespace LibNbiot

open Logic.Program Relation

/-- A CONNECT carries a duration. -/
def Announces (duration : Nat) : EntryLaw
  | .app (.serialized (.connect _ duration' _) _), _, _ => duration' = duration
  | _, _, _ => True

/-- The interval stays as it is, and every CONNECT carries it, as far as its field goes. -/
structure Announcing (interval : Nat) (k : Core) : Prop where
  keepAlive : k.keepAlive = interval
  law : Throughout (Announces (toUShort interval)) k.trace

namespace Announcing

variable {interval : Nat} {k k' : Core}

theorem serialize (hk : Announcing interval k) (p : Packet) (b : Bytes) (hp : Sendable k p) :
    Announcing interval (k.serialize p b) := by
  refine ⟨hk.keepAlive, ?_, hk.law⟩
  cases p with
  | connect cleanSession duration clientId =>
    have hduration : duration = toUShort k.keepAlive := hp
    rw [hk.keepAlive] at hduration
    exact hduration
  | _ => trivial

theorem act (hk : Announcing interval k) (h : Act k k') : Announcing interval k' := by
  cases h with
  | note e h =>
    cases e <;> first
      | exact absurd h Bool.false_ne_true
      | exact ⟨hk.keepAlive, trivial, hk.law⟩
  | serialize p b hp hb => exact hk.serialize p b hp
  | setBreak => exact ⟨hk.keepAlive, hk.law⟩
  | _ => exact ⟨hk.keepAlive, trivial, hk.law⟩

theorem hand (hk : Announcing interval k) (h : Hand k k') : Announcing interval k' := by
  have transmission {dup id : Nat} {c : ClientId} {p : Packet} {b : Bytes}
      (hp : TransmissionOf dup id c p) : Announcing interval (k.prepare c p b id) := by
    refine ⟨hk.keepAlive, ?_, hk.law⟩
    cases p with
    | connect cleanSession duration clientId => cases c <;> cases hp
    | _ => trivial
  cases h with
  | transmit c v p b w t hlog hp hb => exact transmission hp
  | retransmit c v p b w t h hlog hp hb => exact transmission hp
  | countRetry c v w t hc hlog hleft =>
    simp only [Core.retry]
    split <;> exact ⟨hk.keepAlive, trivial, hk.law⟩
  | store c phase v v' h => exact ⟨hk.keepAlive, hk.law⟩
  | read buf h => exact ⟨hk.keepAlive, hk.law⟩
  | _ => exact ⟨hk.keepAlive, trivial, hk.law⟩

theorem basic (h : Basic k k') (hk : Announcing interval k) : Announcing interval k' := by
  cases h with
  | act h => exact hk.act h
  | plug h => cases h <;> exact ⟨hk.keepAlive, trivial, hk.law⟩
  | move h => cases h <;> exact ⟨hk.keepAlive, trivial, hk.law⟩
  | ready h =>
    cases h with
    | look left => exact ⟨hk.keepAlive, trivial, hk.law⟩
    | _ => exact ⟨hk.keepAlive, hk.law⟩
  | lost => exact ⟨hk.keepAlive, hk.law⟩
  | hand h => exact hk.hand h
  | turn h =>
    cases h with
    | answer c phase v a h hactive hdis ha =>
      cases ha with
      | published v a k' h => cases h <;> exact ⟨hk.keepAlive, trivial, hk.law⟩
      | _ => exact ⟨hk.keepAlive, trivial, hk.law⟩
    | wrap c phase a hanswered hdis h => cases h <;> exact ⟨hk.keepAlive, hk.law⟩
    | resetBreak => exact ⟨hk.keepAlive, hk.law⟩
    | idle hactive => exact ⟨hk.keepAlive, hk.law⟩
    | _ => exact ⟨hk.keepAlive, trivial, hk.law⟩
  | ending h =>
    cases h with
    | wrap hanswered h => cases h <;> exact ⟨hk.keepAlive, hk.law⟩
    | setBreak => exact ⟨hk.keepAlive, hk.law⟩
    | _ => exact ⟨hk.keepAlive, trivial, hk.law⟩
  | call h =>
    cases h with
    | publish id q hactive hqueue => exact ⟨hk.keepAlive, trivial, trivial, hk.law⟩
    | subscribe id q hactive hqueue hsub => exact ⟨hk.keepAlive, trivial, trivial, hk.law⟩
    | _ => exact ⟨hk.keepAlive, trivial, hk.law⟩

end Announcing

/-- In every run the interval is the one that was configured, and every CONNECT carries it
as far as its field goes. -/
theorem announcing_after (setting : Setting) (calls : List ApiCall) :
    Announcing setting.configured.rest.pool.keepAliveInterval (core (setting.after calls)) := by
  obtain ⟨hrun, -⟩ := after_refines setting calls
  have hfresh := config_core setting
  have hsteady : (core setting.configured).Steady := hfresh ▸ Core.fresh_steady _
  have hnone : (core setting.configured).trace = [] := congrArg Core.trace hfresh
  have hstart : Announcing setting.configured.rest.pool.keepAliveInterval
      (core setting.configured) := by
    refine ⟨rfl, ?_⟩
    rw [hnone]
    trivial
  exact (Machine.Run.keeps (A := ⟨Basic, fun _ => True, fun _ _ => trivial⟩) (session_basic hrun)
    trivial (fun _ => Announcing.basic) hstart).2

/-! ## What is configured -/

/-- The interval in the data pool. -/
def keepAliveOf (s : Sys) : Nat := s.rest.pool.keepAliveInterval

/-- What a program has set, silent programs behind it leave. -/
theorem keepAliveOf_bind {α β : Type} {m : M α} {f : α → M β} {interval : Nat}
    (hm : ∀ s, keepAliveOf (m s).2 = interval) (hf : ∀ a, Silent keepAliveOf (f a)) (s : Sys) :
    keepAliveOf ((m >>= f) s).2 = interval :=
  (hf _ _).trans (hm s)

/-- The first configuration sets the interval, if it is in its range. -/
theorem nbiotConfig_keepAlive (conf : NbiotConf) {s : Sys}
    (hs : s.rest.mqtt.configError = errorNoConfig)
    (hrange : 60 ≤ conf.keepAliveInterval ∧ conf.keepAliveInterval ≤ 86400) :
    keepAliveOf (nbiotConfig conf s).2 = conf.keepAliveInterval := by
  have hset (s : Sys) : keepAliveOf (configure
      (60 ≤ conf.keepAliveInterval ∧ conf.keepAliveInterval ≤ 86400) 64
      (modifyPool fun pool => { pool with keepAliveInterval := conf.keepAliveInterval }) s).2 =
      conf.keepAliveInterval := by
    rw [configure, if_pos hrange]
    rfl
  have hget : getMqtt s = (s.rest.mqtt, s) := rfl
  rw [nbiotConfig, run_bind, hget]
  dsimp only
  rw [if_pos hs, run_bind]
  refine keepAliveOf_bind hset (fun _ => ?_) _
  refine .bind (configure_silent _ fun _ => rfl) fun _ => ?_
  refine .bind (configure_silent _ fun _ => rfl) fun _ => ?_
  refine .bind (configure_silent _ fun _ => rfl) fun _ => ?_
  refine .bind (configure_silent _ fun _ => rfl) fun _ => ?_
  refine .bind (configure_silent _ fun _ => rfl) fun _ => ?_
  refine .bind (configure_silent _ fun _ => rfl) fun _ => ?_
  exact .bind (fun _ => rfl) fun _ => .bind (fun _ => rfl) fun _ => .pure _

/-- What an accepted configuration has set. -/
theorem configured_keepAlive (setting : Setting)
    (haccepted : (nbiotConfig setting.conf setting.construct).1 = 0) :
    setting.configured.rest.pool.keepAliveInterval = setting.conf.keepAliveInterval ∧
      setting.conf.autoPollInterval < setting.conf.keepAliveInterval := by
  have hfirst : setting.construct.rest.mqtt.configError = errorNoConfig := rfl
  have hvalid : setting.conf.Valid := by
    by_contra hinvalid
    have hrefused := ((nbiotConfig_first setting.conf hfirst).2 hinvalid).1
    rw [nbiotConfig_result setting.conf hfirst] at hrefused
    exact hrefused haccepted
  exact ⟨nbiotConfig_keepAlive setting.conf hfirst hvalid.1, hvalid.2.1.2⟩

/-! ## The law -/

/-- What the CONNECT packets of a log announce, latest first. -/
def announcements : Log → List Nat
  | [] => []
  | e :: t =>
      match e.event with
      | .app (.serialized (.connect _ duration _) _) => duration :: announcements t
      | _ => announcements t

theorem announcements_eq {duration : Nat} {t : Log} (h : Throughout (Announces duration) t) :
    ∀ announced ∈ announcements t, announced = duration := by
  induction t with
  | nil => nofun
  | cons e t ih =>
    intro announced hannounced
    unfold announcements at hannounced
    split at hannounced
    · rename_i hconnect
      have hlaw := h.1
      rw [hconnect] at hlaw
      rcases List.mem_cons.1 hannounced with rfl | hannounced
      · exact hlaw
      · exact ih h.2 announced hannounced
    · exact ih h.2 announced hannounced

/-- The gateway is told the interval that was configured, which is above that of the
automatic poll. -/
def Announced (conf : NbiotConf) (duration : Nat) : Prop :=
  duration = conf.keepAliveInterval ∧ conf.autoPollInterval < duration

instance (conf : NbiotConf) (duration : Nat) : Decidable (Announced conf duration) :=
  inferInstanceAs (Decidable (_ ∧ _))

/-- **A CONNECT announces the interval** of an accepted configuration exactly if the
interval has no more than sixteen bits, in every run and for every CONNECT of it. -/
theorem announced_after_iff (setting : Setting)
    (haccepted : (nbiotConfig setting.conf setting.construct).1 = 0) (calls : List ApiCall)
    (duration : Nat) (h : duration ∈ announcements (setting.after calls).trace) :
    Announced setting.conf duration ↔ setting.conf.keepAliveInterval < 2 ^ 16 := by
  obtain ⟨hset, hpoll⟩ := configured_keepAlive setting haccepted
  have hlaw := (announcing_after setting calls).law
  rw [hset] at hlaw
  have hduration : duration = setting.conf.keepAliveInterval % 2 ^ 16 := by
    rw [announcements_eq hlaw duration h, toUShort]
    omega
  have hlt : duration < 2 ^ 16 := hduration ▸ Nat.mod_lt _ (by decide)
  constructor
  · rintro ⟨hsame, -⟩
    omega
  · intro hfits
    rw [Nat.mod_eq_of_lt hfits] at hduration
    exact ⟨hduration, hduration ▸ hpoll⟩

/-- Five minutes are announced. -/
theorem announced_after_iff_connect :
    Announced (Setting.script [[3], [5, 0]] 100).conf 300 ↔ 300 < 2 ^ 16 :=
  announced_after_iff (.script [[3], [5, 0]] 100) (by decide +kernel) (connecting 1) 300
    (by decide +kernel)

/-- A library with an interval of a day that polls every eight hours. -/
def dayLong : Setting :=
  let setting := Setting.script [[3], [5, 0]] 100
  { setting with
    conf := { setting.conf with keepAliveInterval := 86400, autoPollInterval := 28800 } }

/-- The gateway is told of less than six hours. -/
theorem not_announced_dayLong :
    (nbiotConfig dayLong.conf dayLong.construct).1 = 0 ∧
      20864 ∈ announcements (dayLong.after (connecting 1)).trace ∧
      ¬Announced dayLong.conf 20864 := by
  decide +kernel

end LibNbiot
