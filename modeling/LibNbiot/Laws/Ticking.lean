/-
# The drift of the tick clock

Between two ticks the clock only knows whole milliseconds, or whole ticks for a
millisecond. What it counts is a product or a quotient by a rounded number, so the
time that a tick really takes is lost where the frequency is neither a divisor nor
a multiple of a thousand. The loss grows with the number of ticks, and how many
ticks it takes until it shows is exactly known.
-/

import LibNbiot.NbiotTime
import LibNbiot.Laws.Countdown
import Mathlib.Tactic.Ring

namespace LibNbiot

theorem toUShort_of_lt {n : Nat} (h : n < 2 ^ 16) : toUShort n = n := by
  unfold toUShort
  omega

namespace NbiotTime

/-! ## One tick -/

/-- The clock shows so many milliseconds, counted from zero. -/
structure Shows (t : NbiotTime) (ms : Nat) : Prop where
  millis : t.millis = ms % oneKHz
  timestamp : t.timestamp = toLongLong ↑(ms / oneKHz)

theorem Shows.millis_lt {t : NbiotTime} {ms : Nat} (h : t.Shows ms) : t.millis < oneKHz := by
  rw [h.millis]
  exact Nat.mod_lt _ (by decide)

theorem Shows.getMillis {t : NbiotTime} {ms : Nat} (h : t.Shows ms) :
    t.getMillis = toLongLong ms := by
  have hwhole : ((ms / oneKHz : Nat) : Int) * oneKHz + ((ms % oneKHz : Nat) : Int) = ms := by
    have hdiv := Nat.div_add_mod' ms oneKHz
    exact_mod_cast hdiv
  rw [NbiotTime.getMillis, h.timestamp, h.millis]
  unfold toLongLong at *
  rw [← Int.bmod_add_bmod, Int.bmod_mul_bmod, Int.bmod_add_bmod, hwhole]

/-- A clock whose milliseconds were raised by less than a second. -/
theorem Shows.carry {t : NbiotTime} {ms k : Nat} (h : t.Shows ms) (hk : k < oneKHz) :
    ({ t with millis := t.millis + k } : NbiotTime).carry.Shows (ms + k) := by
  have hlt := h.millis_lt
  have hmillis := h.millis
  unfold oneKHz at *
  unfold NbiotTime.carry oneKHz
  split
  · rename_i hfull
    simp only at hfull
    constructor
    · simp only
      rw [toUShort_of_lt (by omega)]
      unfold oneKHz
      omega
    · have hnext : (ms + k) / 1000 = ms / 1000 + 1 := by omega
      simp only [h.timestamp]
      unfold oneKHz toLongLong
      rw [hnext, Int.bmod_add_bmod]
      rfl
  · rename_i hroom
    simp only at hroom
    constructor
    · simp only
      unfold oneKHz
      omega
    · have hsame : (ms + k) / 1000 = ms / 1000 := by omega
      simp only [h.timestamp]
      unfold oneKHz
      rw [hsame]

/-- Milliseconds that are added at once, inside a `long long`. -/
theorem Shows.addMillis {t : NbiotTime} {total ms : Nat} (h : t.Shows total)
    (hrange : total + ms < 2 ^ 63) : (t.addMillis ms).Shows (total + ms) := by
  have hfits (k : Nat) (hk : k ≤ total + ms) : toLongLong k = k :=
    toLongLong_of_range (by omega) (by omega)
  have hsum : toLongLong (t.getMillis + ms) = (total + ms : Nat) := by
    rw [h.getMillis, hfits total (Nat.le_add_right _ _), ← Int.natCast_add, hfits _ le_rfl]
  have hmod : (total + ms) % oneKHz < oneKHz := Nat.mod_lt _ (by decide)
  unfold NbiotTime.addMillis
  rw [hsum]
  dsimp only
  rw [← Int.ofNat_tdiv, ← Int.ofNat_tmod]
  constructor
  · exact toUShort_of_lt (hmod.trans (by decide))
  · exact (hfits _ (Nat.div_le_self _ _)).symm

/-- The milliseconds that a clock of the given frequency has counted. -/
def counted (frequency n : Nat) : Nat :=
  if frequency < oneKHz then n * (oneKHz / frequency) else n / (frequency / oneKHz)

/-- A clock of an accepted frequency after `n` ticks. -/
structure Ticked (frequency n : Nat) (t : NbiotTime) : Prop where
  shows : t.Shows (counted frequency n)
  msPerTick : t.msPerTick = if frequency < oneKHz then oneKHz / frequency else 0
  ticksPerMs : t.ticksPerMs = if frequency < oneKHz then 0 else frequency / oneKHz
  ticksCurrentMilli :
    t.ticksCurrentMilli = if frequency < oneKHz then 0 else n % (frequency / oneKHz)
  tickLock : t.tickLock = false

variable {frequency n : Nat} {t : NbiotTime}

/-- What a tick keeps: only the time and the ticks of the millisecond change. -/
theorem Ticked.carry_count (h : t.Ticked frequency n) (k current : Nat) (hk : k < oneKHz)
    (hcounted : counted frequency (n + 1) = counted frequency n + k)
    (hcurrent : current = if frequency < oneKHz then 0 else (n + 1) % (frequency / oneKHz)) :
    ({ t with millis := t.millis + k, ticksCurrentMilli := current } : NbiotTime).carry.Ticked
      frequency (n + 1) := by
  have hshows := h.shows.carry hk
  rw [← hcounted] at hshows
  unfold NbiotTime.carry at hshows ⊢
  split
  · rename_i hfull
    rw [if_pos hfull] at hshows
    exact ⟨⟨hshows.millis, hshows.timestamp⟩, h.msPerTick, h.ticksPerMs, hcurrent, h.tickLock⟩
  · rename_i hroom
    rw [if_neg hroom] at hshows
    exact ⟨⟨hshows.millis, hshows.timestamp⟩, h.msPerTick, h.ticksPerMs, hcurrent, h.tickLock⟩

theorem Ticked.tick_slow (h : t.Ticked frequency n) (hslow : frequency < oneKHz)
    (hlow : fiftyHz ≤ frequency) : t.tick.Ticked frequency (n + 1) := by
  have hmillis := h.shows.millis_lt
  have hper : t.msPerTick = oneKHz / frequency := by rw [h.msPerTick, if_pos hslow]
  have hpos : 0 < oneKHz / frequency := Nat.div_pos hslow.le (by unfold fiftyHz at hlow; omega)
  have hsmall : oneKHz / frequency ≤ 20 := by
    refine (Nat.div_le_div_left hlow (by decide)).trans ?_
    decide
  have hcount : t.count = { t with millis := t.millis + oneKHz / frequency } := by
    unfold count
    rw [hper, if_pos hpos, toUShort_of_lt (by unfold oneKHz at *; omega)]
  rw [tick, h.tickLock, if_neg (by decide), hcount]
  have hcurrent : t.ticksCurrentMilli = 0 := by rw [h.ticksCurrentMilli, if_pos hslow]
  have hnext := h.carry_count (oneKHz / frequency) t.ticksCurrentMilli
    (by unfold oneKHz at *; omega)
    (by rw [counted, counted, if_pos hslow, if_pos hslow, Nat.succ_mul])
    (by rw [hcurrent, if_pos hslow])
  exact hnext

/-- A tick that completes a millisecond of several ticks. -/
theorem succ_div_mod_of_full {n d : Nat} (hd : 0 < d) (h : d ≤ n % d + 1) :
    (n + 1) / d = n / d + 1 ∧ (n + 1) % d = 0 := by
  have hdiv := Nat.mod_add_div n d
  have hlt := Nat.mod_lt n hd
  refine (Nat.div_mod_unique hd).2 ⟨?_, hd⟩
  rw [Nat.mul_succ]
  omega

theorem succ_div_mod_of_room {n d : Nat} (h : n % d + 1 < d) :
    (n + 1) / d = n / d ∧ (n + 1) % d = n % d + 1 := by
  have hdiv := Nat.mod_add_div n d
  refine (Nat.div_mod_unique (by omega)).2 ⟨?_, h⟩
  omega

theorem Ticked.tick_fast (h : t.Ticked frequency n) (hfast : oneKHz ≤ frequency)
    (hhigh : frequency ≤ tenKHz) : t.tick.Ticked frequency (n + 1) := by
  have hmillis := h.shows.millis_lt
  have hslow : ¬frequency < oneKHz := not_lt.2 hfast
  have hzero : t.msPerTick = 0 := by rw [h.msPerTick, if_neg hslow]
  have hticks : t.ticksPerMs = frequency / oneKHz := by rw [h.ticksPerMs, if_neg hslow]
  have hcurrent : t.ticksCurrentMilli = n % (frequency / oneKHz) := by
    rw [h.ticksCurrentMilli, if_neg hslow]
  have hpos : 0 < frequency / oneKHz := Nat.div_pos hfast (by decide)
  have hten : frequency / oneKHz ≤ 10 := Nat.div_le_div_right hhigh
  have hmod := Nat.mod_lt n hpos
  have hmilli : toUShort ↑(t.millis + 1) = t.millis + 1 :=
    toUShort_of_lt (by unfold oneKHz at *; omega)
  rw [tick, h.tickLock, if_neg (by decide)]
  by_cases hfull : frequency / oneKHz ≤ n % (frequency / oneKHz) + 1
  · obtain ⟨hdiv, hrest⟩ := succ_div_mod_of_full hpos hfull
    have hcount : t.count = { t with millis := t.millis + 1, ticksCurrentMilli := 0 } := by
      unfold count
      rw [hzero, if_neg (by decide), hticks]
      split
      · simp only [hcurrent, toUShort_of_lt (show n % (frequency / oneKHz) + 1 < 2 ^ 16 by omega),
          if_pos hfull, hmilli]
      · have hnone : t.ticksCurrentMilli = 0 := by omega
        rw [hmilli, ← hnone]
    rw [hcount]
    refine h.carry_count _ _ (by decide) ?_ (by rw [if_neg hslow, hrest])
    rw [counted, counted, if_neg hslow, if_neg hslow, hdiv]
  · obtain ⟨hdiv, hrest⟩ := succ_div_mod_of_room (not_le.1 hfull)
    have hcount : t.count =
        { t with millis := t.millis + 0, ticksCurrentMilli := t.ticksCurrentMilli + 1 } := by
      unfold count
      rw [hzero, if_neg (by decide), hticks, if_pos (by omega)]
      simp only [hcurrent, toUShort_of_lt (show n % (frequency / oneKHz) + 1 < 2 ^ 16 by omega),
        if_neg hfull, Nat.add_zero]
    rw [hcount]
    refine h.carry_count _ _ (by decide) ?_ (by rw [if_neg hslow, hrest, hcurrent])
    rw [counted, counted, if_neg hslow, if_neg hslow, hdiv, Nat.add_zero]

/-- A delay is at least a tick long, and never nothing. -/
theorem Ticked.getMinDelay (h : t.Ticked frequency n) :
    t.getMinDelay = max 1 (oneKHz / frequency) := by
  rw [NbiotTime.getMinDelay, h.msPerTick]
  split
  · generalize oneKHz / frequency = tick
    split <;> omega
  · rename_i hslow
    have hone : oneKHz / frequency ≤ 1 := by
      refine Nat.div_le_of_le_mul ?_
      rw [Nat.mul_one]
      exact not_lt.1 hslow
    rw [if_pos rfl, Nat.max_eq_left hone]

/-! ## Runs of ticks -/

theorem Ticked.tick (h : t.Ticked frequency n) (hlow : fiftyHz ≤ frequency)
    (hhigh : frequency ≤ tenKHz) : t.tick.Ticked frequency (n + 1) := by
  by_cases hslow : frequency < oneKHz
  · exact h.tick_slow hslow hlow
  · exact h.tick_fast (not_lt.1 hslow) hhigh

theorem ticked_setTickFrequency (hlow : fiftyHz ≤ frequency) (hhigh : frequency ≤ tenKHz) :
    (setTickFrequency {} frequency).Ticked frequency 0 := by
  have hset : frequency ≠ 0 := by
    unfold fiftyHz at hlow
    omega
  have hzero : counted frequency 0 = 0 := by
    unfold counted
    split <;> simp
  have hshows : ∀ t : NbiotTime, t.timestamp = 0 → t.millis = 0 →
      t.Shows (counted frequency 0) := by
    intro t htime hms
    rw [hzero]
    exact ⟨hms, htime⟩
  unfold setTickFrequency
  simp only [if_neg hset]
  split
  · rename_i hfast
    have hten : frequency / oneKHz ≤ 10 := Nat.div_le_div_right hhigh
    have hslow : ¬frequency < oneKHz := not_lt.2 hfast
    refine ⟨hshows _ rfl rfl, ?_, ?_, ?_, rfl⟩
    · rw [if_neg hslow]
    · rw [if_neg hslow, toUShort_of_lt (by omega)]
    · rw [if_neg hslow, Nat.zero_mod]
  · rename_i hslow
    have hsmall : oneKHz / frequency ≤ 1000 := Nat.div_le_self _ _
    refine ⟨hshows _ rfl rfl, ?_, ?_, ?_, rfl⟩
    · rw [if_pos (not_le.1 hslow), toUShort_of_lt (by omega)]
    · rw [if_pos (not_le.1 hslow)]
    · rw [if_pos (not_le.1 hslow)]

theorem ticks_succ (t : NbiotTime) (n : Nat) : t.ticks (n + 1) = (t.ticks n).tick :=
  Function.iterate_succ_apply' ..

/-- The clock that was set to an accepted frequency, after any number of ticks. -/
theorem ticked_ticks (hlow : fiftyHz ≤ frequency) (hhigh : frequency ≤ tenKHz) (n : Nat) :
    ((setTickFrequency {} frequency).ticks n).Ticked frequency n := by
  induction n with
  | zero => exact ticked_setTickFrequency hlow hhigh
  | succ n ih =>
    rw [ticks_succ]
    exact ih.tick hlow hhigh

/-! ## The drift -/

/-- The time that rounding leaves out in `n` ticks does not fill a millisecond yet:
the rest of a second that the ticks do not divide, or the ticks by which a second
is longer than its milliseconds. -/
def DriftFree (frequency n : Nat) : Prop :=
  if frequency < oneKHz then n * (oneKHz % frequency) < frequency
  else n / (frequency / oneKHz) * (frequency % oneKHz) ≤ oneKHz * (n % (frequency / oneKHz))

theorem counted_eq_iff_of_slow (hslow : frequency < oneKHz) (hpos : 0 < frequency) :
    counted frequency n = oneKHz * n / frequency ↔ n * (oneKHz % frequency) < frequency := by
  have hsplit : oneKHz * n = frequency * (n * (oneKHz / frequency)) + n * (oneKHz % frequency) := by
    calc oneKHz * n = (frequency * (oneKHz / frequency) + oneKHz % frequency) * n := by
          rw [Nat.div_add_mod]
      _ = frequency * (n * (oneKHz / frequency)) + n * (oneKHz % frequency) := by ring
  rw [counted, if_pos hslow, hsplit, Nat.mul_add_div hpos]
  have hzero : n * (oneKHz % frequency) / frequency = 0 ↔ n * (oneKHz % frequency) < frequency :=
    Nat.div_eq_zero_iff_lt hpos
  omega

theorem counted_eq_iff_of_fast (hfast : oneKHz ≤ frequency) :
    counted frequency n = oneKHz * n / frequency ↔
      n / (frequency / oneKHz) * (frequency % oneKHz) ≤
        oneKHz * (n % (frequency / oneKHz)) := by
  have hpos : 0 < frequency := lt_of_lt_of_le (by decide) hfast
  have hd : 0 < frequency / oneKHz := Nat.div_pos hfast (by decide)
  rw [counted, if_neg (not_lt.2 hfast)]
  have hfreq := Nat.div_add_mod frequency oneKHz
  have hn := Nat.div_add_mod n (frequency / oneKHz)
  have hj := Nat.mod_lt n hd
  generalize frequency / oneKHz = d at *
  generalize frequency % oneKHz = s at *
  generalize n / d = k at *
  generalize n % d = j at *
  have hlow : k * frequency = oneKHz * (d * k) + k * s := by rw [← hfreq]; ring
  have htotal : oneKHz * n = oneKHz * (d * k) + oneKHz * j := by rw [← hn]; ring
  have hbelow : oneKHz * n < (k + 1) * frequency := by
    have hj' : oneKHz * j < oneKHz * d := Nat.mul_lt_mul_of_pos_left hj (by decide)
    have hd' : oneKHz * d ≤ frequency := by omega
    rw [Nat.succ_mul]
    omega
  constructor
  · intro heq
    have hle : k * frequency ≤ oneKHz * n := by
      rw [heq]
      exact Nat.div_mul_le_self _ _
    omega
  · intro hle
    exact (Nat.div_eq_of_lt_le (by omega) hbelow).symm

theorem counted_eq_iff (hpos : 0 < frequency) :
    counted frequency n = oneKHz * n / frequency ↔ DriftFree frequency n := by
  unfold DriftFree
  split
  · exact counted_eq_iff_of_slow ‹_› hpos
  · exact counted_eq_iff_of_fast (not_lt.1 ‹_›)

/-- The clock is never ahead by more than what has really passed. -/
theorem counted_le (hpos : 0 < frequency) :
    counted frequency n ≤ 2 * (oneKHz * n / frequency) + 1 := by
  unfold counted
  split
  · have hle : n * (oneKHz / frequency) ≤ oneKHz * n / frequency := by
      refine (Nat.mul_div_le_mul_div_assoc _ _ _).trans ?_
      rw [Nat.mul_comm]
    omega
  · rename_i hfast
    have hfreq := Nat.div_add_mod frequency oneKHz
    have hs : frequency % oneKHz < oneKHz := Nat.mod_lt _ (by decide)
    have hd : 0 < frequency / oneKHz := Nat.div_pos (not_lt.1 hfast) (by decide)
    have hn := Nat.mul_div_le n (frequency / oneKHz)
    generalize frequency / oneKHz = d at *
    generalize n / d = k at *
    have hhalf : k / 2 ≤ oneKHz * n / frequency := by
      refine (Nat.le_div_iff_mul_le hpos).2 ?_
      calc k / 2 * frequency ≤ k / 2 * (2 * (oneKHz * d)) := by
            refine Nat.mul_le_mul_left _ ?_
            have hone : oneKHz ≤ oneKHz * d := Nat.le_mul_of_pos_right _ hd
            omega
        _ = oneKHz * d * (k / 2 * 2) := by ring
        _ ≤ oneKHz * d * k := Nat.mul_le_mul_left _ (Nat.div_mul_le_self k 2)
        _ = oneKHz * (d * k) := by ring
        _ ≤ oneKHz * n := Nat.mul_le_mul_left _ hn
    omega

/-- The clock shows the time that so many ticks of the given frequency take. -/
structure Exact (frequency n : Nat) (t : NbiotTime) : Prop where
  millis : t.millis < oneKHz
  getMillis : t.getMillis = ↑(oneKHz * n / frequency)

theorem toLongLong_eq_iff {c e : Nat} (h : c ≤ 2 * e + 1) :
    toLongLong c = e ↔ c = e ∧ e < 2 ^ 63 := by
  constructor
  · intro heq
    have hhigh : Int.bmod c (2 ^ 64) < (2 ^ 64 + 1) / 2 := Int.bmod_lt (by decide)
    have hdvd : ((2 ^ 64 : Nat) : Int) ∣ c - Int.bmod c (2 ^ 64) := Int.dvd_self_sub_bmod
    rw [toLongLong] at heq
    rw [heq] at hhigh hdvd
    obtain ⟨m, hm⟩ := hdvd
    omega
  · rintro ⟨rfl, he⟩
    exact toLongLong_of_range (by omega) (by omega)

theorem Ticked.exact_iff (h : t.Ticked frequency n) (hpos : 0 < frequency) :
    Exact frequency n t ↔ DriftFree frequency n ∧ oneKHz * n / frequency < 2 ^ 63 := by
  rw [← counted_eq_iff hpos, ← toLongLong_eq_iff (counted_le hpos), ← h.shows.getMillis]
  exact ⟨fun hexact => hexact.getMillis, fun hget => ⟨h.shows.millis_lt, hget⟩⟩

theorem driftFree_forever_iff (hpos : 0 < frequency) :
    (∀ n, oneKHz * n / frequency < 2 ^ 63 → DriftFree frequency n) ↔
      frequency ∣ oneKHz ∨ oneKHz ∣ frequency := by
  unfold DriftFree
  by_cases hslow : frequency < oneKHz
  · simp only [if_pos hslow]
    constructor
    · intro h
      -- A second's worth of ticks shows any loss.
      have hsecond := h frequency (by rw [Nat.mul_div_cancel _ hpos]; decide)
      have hnone : oneKHz % frequency < 1 := by
        refine Nat.lt_of_mul_lt_mul_left (a := frequency) ?_
        rw [Nat.mul_one]
        exact hsecond
      exact .inl (Nat.dvd_of_mod_eq_zero (Nat.lt_one_iff.1 hnone))
    · rintro (hdvd | hdvd) n -
      · rw [Nat.mod_eq_zero_of_dvd hdvd, Nat.mul_zero]
        exact hpos
      · exact absurd (Nat.le_of_dvd hpos hdvd) (not_le.2 hslow)
  · have hd : 0 < frequency / oneKHz := Nat.div_pos (not_lt.1 hslow) (by decide)
    simp only [if_neg hslow]
    constructor
    · intro h
      -- So does the first millisecond.
      have hfirst := h (frequency / oneKHz) (by
        refine lt_of_le_of_lt (Nat.div_le_of_le_mul ?_) (show 1 < 2 ^ 63 by decide)
        rw [Nat.mul_one]
        exact Nat.mul_div_le _ _)
      rw [Nat.div_self hd, Nat.mod_self] at hfirst
      exact .inr (Nat.dvd_of_mod_eq_zero (by omega))
    · intro hdvd n _
      have hnone : frequency % oneKHz = 0 := by
        rcases hdvd with hdvd | hdvd
        · rw [Nat.le_antisymm (Nat.le_of_dvd (by decide) hdvd) (not_lt.1 hslow), Nat.mod_self]
        · exact Nat.mod_eq_zero_of_dvd hdvd
      rw [hnone, Nat.mul_zero]
      exact Nat.zero_le _

end NbiotTime

namespace NbiotCoreApp

open NbiotTime

/-- The configuration does not report its tick frequency. -/
def TickFreqAccepted (conf : NbiotCoreConf) : Prop :=
  (nbiotCoreConfig {} conf).1 &&& coreErrorTickFreq = coreNoError

instance (conf : NbiotCoreConf) : Decidable (TickFreqAccepted conf) :=
  inferInstanceAs (Decidable (_ = _))

/-- A fresh clock, configured and ticked `n` times. -/
def clockAfter (conf : NbiotCoreConf) (n : Nat) : NbiotTime :=
  (nbiotCoreConfig {} conf).2.time.ticks n

theorem refused_odd (accepted : Prop) [Decidable accepted] (error : Nat) :
    refused accepted error % 2 = 1 ↔ ¬accepted ∧ error % 2 = 1 := by
  unfold refused
  split <;> simp [*, coreNoError]

theorem tickFreqAccepted_iff (conf : NbiotCoreConf) :
    TickFreqAccepted conf ↔ TickFreqValid conf := by
  have hodd : (nbiotCoreConfig {} conf).1 % 2 = 1 ↔ ¬TickFreqValid conf := by
    simp [nbiotCoreConfig, coreNoError, coreErrorTickFreq, coreErrorReadStatusFu,
      coreErrorReadByteFu, coreErrorPutCharFu, coreErrorWriteStatusFu, refused_odd]
  rw [TickFreqAccepted, coreErrorTickFreq, Nat.and_one_is_mod, coreNoError]
  by_cases hvalid : TickFreqValid conf
  · simp only [hvalid, not_true_eq_false, iff_false, iff_true] at hodd ⊢
    omega
  · simp only [hvalid, not_false_eq_true, iff_true, iff_false] at hodd ⊢
    omega

theorem ticked_clockAfter {conf : NbiotCoreConf} (h : TickFreqAccepted conf) (n : Nat) :
    (clockAfter conf n).Ticked conf.tickFrequency n := by
  have hvalid := (tickFreqAccepted_iff conf).1 h
  have htime : (nbiotCoreConfig {} conf).2.time = setTickFrequency {} conf.tickFrequency := by
    rw [nbiotCoreConfig, if_pos rfl]
    exact if_pos hvalid
  rw [clockAfter, htime]
  exact ticked_ticks hvalid.1 hvalid.2 n

/-- For every configuration that is accepted: after `n` ticks the clock is exact
just when the drift does not show yet and the time is a `long long`; and it stays
exact just when the frequency divides a thousand or is a multiple of it. -/
theorem exact_clockAfter_iff (conf : NbiotCoreConf) (h : TickFreqAccepted conf) :
    (∀ n, Exact conf.tickFrequency n (clockAfter conf n) ↔
      DriftFree conf.tickFrequency n ∧ oneKHz * n / conf.tickFrequency < 2 ^ 63) ∧
    ((∀ n, oneKHz * n / conf.tickFrequency < 2 ^ 63 →
      Exact conf.tickFrequency n (clockAfter conf n)) ↔
      conf.tickFrequency ∣ oneKHz ∨ oneKHz ∣ conf.tickFrequency) := by
  have hpos : 0 < conf.tickFrequency :=
    lt_of_lt_of_le (by decide) ((tickFreqAccepted_iff conf).1 h).1
  have hone : ∀ n, Exact conf.tickFrequency n (clockAfter conf n) ↔
      DriftFree conf.tickFrequency n ∧ oneKHz * n / conf.tickFrequency < 2 ^ 63 := fun n =>
    (ticked_clockAfter h n).exact_iff hpos
  refine ⟨hone, ?_⟩
  rw [← driftFree_forever_iff hpos]
  exact forall_congr' fun n => ⟨fun hexact hrange => ((hone n).1 (hexact hrange)).1,
    fun hfree hrange => (hone n).2 ⟨hfree hrange, hrange⟩⟩

/-- The default frequency of the configuration. -/
theorem exact_clockAfter_default :
    (∀ n, Exact 1000 n (clockAfter {} n) ↔ DriftFree 1000 n ∧ oneKHz * n / 1000 < 2 ^ 63) ∧
    ((∀ n, oneKHz * n / 1000 < 2 ^ 63 → Exact 1000 n (clockAfter {} n)) ↔
      1000 ∣ oneKHz ∨ oneKHz ∣ 1000) :=
  exact_clockAfter_iff {} (by decide)

/-- Three ticks of 300 a second are counted as nine milliseconds. -/
theorem not_exact_clockAfter : ¬ ∀ conf : NbiotCoreConf, TickFreqAccepted conf →
    ∀ n, Exact conf.tickFrequency n (clockAfter conf n) := fun h =>
  absurd (h { tickFrequency := 300 } (by decide) 3).getMillis (by decide)

end NbiotCoreApp

end LibNbiot
