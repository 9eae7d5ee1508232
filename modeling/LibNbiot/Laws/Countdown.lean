/-
# Countdowns and preset timers

A timer keeps absolute readings of the clock, and a start of zero stands for "not
started". A countdown is therefore exact as long as it does not begin with the
first instant of the clock and ends inside a `long long`. A preset time is an
offset that shares its field with the absolute end of a running countdown: it is
read back unchanged only when the start that an earlier countdown left behind lies
behind it.
-/

import LibNbiot.Timer
import Mathlib.Tactic.Common

namespace LibNbiot

/-- What the clock shows: a `long long`. -/
structure ClockReading where
  ms : Int
  low : -2 ^ 63 ≤ ms
  high : ms < 2 ^ 63

theorem toULong_of_range {x : Int} (h : 0 ≤ x) (h' : x < 2 ^ 64) : toULong x = x.toNat := by
  rw [toULong, Int.emod_eq_of_lt h h']

theorem toLongLong_of_range {x : Int} (h : -2 ^ 63 ≤ x) (h' : x < 2 ^ 63) : toLongLong x = x := by
  unfold toLongLong
  exact Int.bmod_eq_of_le (by omega) (by omega)

theorem toLongLong_of_high {x : Int} (h : 2 ^ 63 ≤ x) (h' : x < 2 ^ 64 + 2 ^ 63) :
    toLongLong x = x - 2 ^ 64 := by
  have hback : toLongLong (x - 2 ^ 64) = toLongLong x := Int.sub_bmod_right x (2 ^ 64)
  rw [← hback, toLongLong_of_range (by omega) (by omega)]

namespace Timer

/-! ## A countdown -/

/-- The timer that is started with `duration` at `T` counts exactly when it is
looked at at `T'`. -/
structure CountsDown (T : Int) (duration : Nat) (T' : Int) : Prop where
  valid : (startFor T duration).valid = true
  remaining : ((startFor T duration).remaining T' : Int) = max 0 (duration - (T' - T))
  expired : ((startFor T duration).expired T' T' : Int) = min (duration : Int) (T' - T)

theorem remaining_eq {t : Timer} {now : Int} (h : t.endMs ≠ 0) (hlow : -2 ^ 63 ≤ now)
    (hhigh : t.endMs < 2 ^ 63) : (t.remaining now : Int) = max 0 (t.endMs - now) := by
  unfold remaining
  split
  · omega
  · rw [toULong_of_range (by omega) (by omega)]
    omega

theorem startFor_inside {T : Int} {duration : Nat} (hT : -2 ^ 63 ≤ T) (h : T + duration < 2 ^ 63) :
    startFor T duration = ⟨T, T + duration⟩ := by
  rw [startFor, toLongLong_of_range (by omega) h]

theorem startFor_wraps {T : Int} {duration : Nat} (hT : T < 2 ^ 63) (hd : duration < 2 ^ 64)
    (h : 2 ^ 63 ≤ T + duration) : startFor T duration = ⟨T, T + duration - 2 ^ 64⟩ := by
  rw [startFor, toLongLong_of_high h (by omega)]

/-- A countdown that ends inside a `long long` and does not begin at zero. -/
theorem countsDown_of_inside {T T' : Int} {duration : Nat} (hT : 0 < T) (hlater : T ≤ T')
    (hd : 0 < duration) (hend : T + duration < 2 ^ 63) : CountsDown T duration T' := by
  have hstart := startFor_inside (by omega) hend
  have hrem : ((startFor T duration).remaining T' : Int) = max 0 (duration - (T' - T)) := by
    rw [hstart, remaining_eq (by simp only; omega) (by omega) hend]
    simp only
    omega
  refine ⟨?_, hrem, ?_⟩
  · simp only [valid, hstart, decide_eq_true_eq]
    omega
  · have hset : (startFor T duration).startMs ≠ 0 := by
      rw [hstart]
      exact hT.ne'
    unfold expired
    rw [if_neg hset]
    split
    · rw [hstart, toULong_of_range (by simp only; omega) (by simp only; omega)]
      simp only
      omega
    · rw [hstart, toULong_of_range (by simp only; omega) (by simp only; omega)]
      simp only
      omega

/-- A countdown whose end wraps has no time left from the start. -/
theorem remaining_startFor_wraps {T T' : Int} {duration : Nat} (hT : T < 2 ^ 63) (hlater : T ≤ T')
    (hd : duration < 2 ^ 64) (hend : 2 ^ 63 ≤ T + duration) :
    (startFor T duration).remaining T' = 0 := by
  rw [startFor_wraps hT hd hend, remaining, if_pos]
  simp only
  omega

/-- For all readings of the clock and all durations: a countdown is exact just
when it begins after the first instant and ends inside a `long long`. -/
theorem countsDown_iff (T T' : Int) (duration : Nat) (hT : 0 ≤ T) (hlater : T ≤ T')
    (hT' : T' < 2 ^ 63) (hd : 0 < duration) (hd' : duration < 2 ^ 64) :
    CountsDown T duration T' ↔ 0 < T ∧ T + duration < 2 ^ 63 := by
  constructor
  · intro h
    constructor
    · by_contra hzero
      have hvalid := h.valid
      simp only [valid, startFor] at hvalid
      exact absurd (le_antisymm (not_lt.1 hzero) hT) (of_decide_eq_true hvalid).1
    · by_contra hend
      have hnone := remaining_startFor_wraps (by omega) hlater hd' (by omega)
      have hleft := h.remaining
      rw [hnone] at hleft
      omega
  · rintro ⟨hpos, hend⟩
    exact countsDown_of_inside hpos hlater hd hend

/-- A second counted from the reading one to its middle. -/
theorem countsDown_second : CountsDown 1 1000 501 ↔ 0 < (1 : Int) ∧ (1 : Int) + 1000 < 2 ^ 63 :=
  countsDown_iff 1 501 1000 (by decide) (by decide) (by decide) (by decide) (by decide)

/-- A timer that is started at the first instant counts down but looks cleared. -/
theorem not_countsDown_at_zero : ¬ ∀ (T T' : Int) (duration : Nat), 0 ≤ T → T ≤ T' →
    T' < 2 ^ 63 → 0 < duration → duration < 2 ^ 64 → CountsDown T duration T' := fun h =>
  absurd (h 0 500 1000 (by decide) (by decide) (by decide) (by decide) (by decide)).valid
    (by decide)

/-! ## A preset time -/

/-- A call of a timer. The queries leave it as it is. -/
inductive Call
  | start (now : ClockReading)
  | startFor (now : ClockReading) (duration : Nat)
  | setTime (duration : Nat)
  | clear
  | query

def exec (t : Timer) : Call → Timer
  | .start now => t.start now.ms
  | .startFor now duration => startFor now.ms duration
  | .setTime duration => t.setTime duration
  | .clear => clear
  | .query => t

/-- A new timer after its history. -/
def after (history : List Call) : Timer := history.foldl exec {}

/-- The start that a call leaves behind. -/
def Call.leaves (last : Option ClockReading) : Call → Option ClockReading
  | .start now => some now
  | .startFor now _ => some now
  | .clear => none
  | _ => last

/-- The last start of a history that was not cleared since. -/
def lastStart (history : List Call) : Option ClockReading := history.foldl Call.leaves none

theorem startMs_mk (start finish : Int) : (Timer.mk start finish).startMs = start := rfl

-- Unfolding both sides would compare the ends, a computation with 64-bit literals.
theorem startMs_setTime (t : Timer) (duration : Nat) :
    (t.setTime duration).startMs = t.startMs := startMs_mk t.startMs (toLongLong duration)

theorem startMs_exec {t : Timer} {last : Option ClockReading} (call : Call)
    (h : t.startMs = last.elim 0 ClockReading.ms) :
    (t.exec call).startMs = (call.leaves last).elim 0 ClockReading.ms := by
  cases call with
  | start | startFor => rfl
  | setTime duration => exact (startMs_setTime t duration).trans h
  | clear => rfl
  | query => exact h

theorem startMs_foldl (history : List Call) {t : Timer} {last : Option ClockReading}
    (h : t.startMs = last.elim 0 ClockReading.ms) :
    (history.foldl exec t).startMs = (history.foldl Call.leaves last).elim 0 ClockReading.ms := by
  induction history generalizing t last with
  | nil => exact h
  | cons call history ih => exact ih (startMs_exec call h)

theorem startMs_after (history : List Call) :
    (after history).startMs = (lastStart history).elim 0 ClockReading.ms :=
  startMs_foldl history rfl

/-- No start is left, or it was made at zero or later than the preset time. -/
def Forgotten (history : List Call) (duration : Nat) : Prop :=
  ∀ r, lastStart history = some r → r.ms = 0 ∨ toLongLong duration < r.ms

/-- What a preset time is for: it can be read back, it runs when the timer is
started at `now`, and a loop client that runs a new timer for it does so as well. -/
structure Preset (t : Timer) (duration : Nat) (now : Int) : Prop where
  getTime : (t.setTime duration).getTime = duration
  remaining : ((t.setTime duration).start now).remaining now = duration
  reused : (startFor now (t.setTime duration).getTime).remaining now = duration

/-- A countdown of the preset time that begins at `now` ends inside a `long long`,
and not at zero, which stands for "not set". -/
def Fits (duration : Nat) (now : Int) : Prop :=
  duration = 0 ∨ now + duration ≠ 0 ∧ now + duration < 2 ^ 63

theorem toULong_toLongLong (x : Int) : toULong (toLongLong x) = toULong x := by
  unfold toULong toLongLong
  rw [show ((2 : Int) ^ 64) = ((2 ^ 64 : Nat) : Int) from rfl, Int.bmod_emod]

theorem toULong_ofNat {duration : Nat} (h : duration < 2 ^ 64) : toULong duration = duration := by
  rw [toULong_of_range (by omega) (by omega), Int.toNat_natCast]

/-- Reading a preset time back with the start `s` of an earlier countdown. -/
theorem getTime_setTime_iff (t : Timer) {duration : Nat} (hd : duration < 2 ^ 64)
    (hlow : -2 ^ 63 ≤ t.startMs) (hhigh : t.startMs < 2 ^ 63) :
    (t.setTime duration).getTime = duration ↔
      t.startMs = 0 ∨ toLongLong duration < t.startMs := by
  have hplain : toULong (toLongLong duration) = duration := by
    rw [toULong_toLongLong, toULong_ofNat hd]
  unfold getTime setTime
  simp only
  split
  · rename_i hold
    constructor
    · intro hread
      exfalso
      unfold toULong at hplain hread
      omega
    · rintro (hzero | hlater)
      · exact absurd hzero hold.1
      · omega
  · rename_i hold
    simp only [hplain, true_iff]
    omega

theorem remaining_startFor_iff (now : ClockReading) {duration : Nat} (hd : duration < 2 ^ 64) :
    (startFor now.ms duration).remaining now.ms = duration ↔ Fits duration now.ms := by
  have hlow := now.low
  have hhigh := now.high
  unfold Fits
  by_cases hend : now.ms + duration < 2 ^ 63
  · rw [startFor_inside hlow hend, remaining]
    split
    · rename_i hnone
      simp only at hnone
      omega
    · rename_i hleft
      simp only at hleft
      rw [toULong_of_range (by simp only; omega) (by simp only; omega)]
      simp only
      omega
  · rw [remaining_startFor_wraps hhigh le_rfl hd (by omega)]
    omega

/-- `setTime` followed by `start()` is `start(end)`. -/
theorem start_setTime (t : Timer) (duration : Nat) (now : Int) :
    (t.setTime duration).start now = startFor now duration := by
  have hsum : toLongLong (toLongLong duration + now) = toLongLong (now + duration) := by
    rw [Int.add_comm now]
    exact Int.bmod_add_bmod
  unfold start setTime startFor
  rw [hsum]

theorem startMs_after_range (history : List Call) :
    -2 ^ 63 ≤ (after history).startMs ∧ (after history).startMs < 2 ^ 63 := by
  rw [startMs_after]
  cases lastStart history with
  | none => decide
  | some r => exact ⟨r.low, r.high⟩

theorem forgotten_iff (history : List Call) (duration : Nat) :
    Forgotten history duration ↔
      (after history).startMs = 0 ∨ toLongLong duration < (after history).startMs := by
  rw [startMs_after]
  unfold Forgotten
  cases lastStart history <;> simp

/-- For every history of a timer: a preset time is read back and counted from just
when the last start is forgotten and the countdown fits. -/
theorem preset_after_iff (history : List Call) (duration : Nat) (hd : duration < 2 ^ 64)
    (now : ClockReading) :
    Preset (after history) duration now.ms ↔ Forgotten history duration ∧ Fits duration now.ms := by
  have hread := getTime_setTime_iff (after history) hd (startMs_after_range history).1
    (startMs_after_range history).2
  have hrun := remaining_startFor_iff now hd
  constructor
  · rintro ⟨hget, hremaining, -⟩
    rw [start_setTime] at hremaining
    exact ⟨(forgotten_iff _ _).2 (hread.1 hget), hrun.1 hremaining⟩
  · rintro ⟨hforgotten, hfits⟩
    have hget := hread.2 ((forgotten_iff _ _).1 hforgotten)
    refine ⟨hget, ?_, ?_⟩
    · rw [start_setTime]
      exact hrun.2 hfits
    · rw [hget]
      exact hrun.2 hfits

/-- A timer that ran once before and was cleared. -/
theorem preset_after_cleared :
    Preset (after [.startFor ⟨10, by decide, by decide⟩ 5, .clear]) 100 10 ↔
      Forgotten [.startFor ⟨10, by decide, by decide⟩ 5, .clear] 100 ∧ Fits 100 10 :=
  preset_after_iff _ 100 (by decide) ⟨10, by decide, by decide⟩

/-- A countdown from the reading ten is still in the preset time of the next one. -/
theorem not_preset_after_start : ¬ ∀ (history : List Call) (duration : Nat), duration < 2 ^ 64 →
    ∀ now : ClockReading, Preset (after history) duration now.ms := fun h =>
  absurd (h [.startFor ⟨10, by decide, by decide⟩ 5] 100 (by decide)
    ⟨10, by decide, by decide⟩).getTime (by decide)

end Timer

end LibNbiot
