/-
# Hexadecimal digits

A payload goes over the line with two digits a byte. What is written so is read
back, and digits that are read are written again in upper case; both follow from
the two halves of a byte.
-/

import LibNbiot.Modem.Strings

namespace LibNbiot

/-! ## One digit -/

/-- A decimal digit, or a letter up to `f` of either case. -/
def isHexDigit (c : UInt8) : Bool :=
  48 ≤ c ∧ c ≤ 57 ∨ 97 ≤ c ∧ c ≤ 102 ∨ 65 ≤ c ∧ c ≤ 70

def upperCase (c : UInt8) : UInt8 := if 97 ≤ c ∧ c ≤ 122 then c - 32 else c

/-- What is true of all bytes can be tried on each. -/
theorem forall_byte {P : UInt8 → Prop} (h : ∀ i : Fin 256, P (UInt8.ofFin i)) (c : UInt8) : P c :=
  h c.toFin

theorem isHexDigit_c2h (c : UInt8) : isHexDigit (c2h c) = true := by
  apply forall_byte (P := fun c => isHexDigit (c2h c) = true)
  decide +kernel

theorem h2c_le (c : UInt8) : h2c c ≤ 15 := by
  apply forall_byte (P := fun c => h2c c ≤ 15)
  decide +kernel

theorem c2h_h2c {c : UInt8} (h : isHexDigit c = true) : c2h (h2c c) = upperCase c := by
  revert h
  apply forall_byte (P := fun c => isHexDigit c = true → c2h (h2c c) = upperCase c)
  decide +kernel

/-! ## The two halves of a byte -/

theorem hex_byte (c : UInt8) :
    h2c (c2h (c >>> 4 &&& 15)) <<< 4 ||| h2c (c2h (c &&& 15)) = c := by
  apply forall_byte (P := fun c => h2c (c2h (c >>> 4 &&& 15)) <<< 4 ||| h2c (c2h (c &&& 15)) = c)
  decide +kernel

theorem byte_halves {hi lo : UInt8} (hhi : hi ≤ 15) (hlo : lo ≤ 15) :
    (hi <<< 4 ||| lo) >>> 4 &&& 15 = hi ∧ (hi <<< 4 ||| lo) &&& 15 = lo := by
  have hall : ∀ i j : Fin 16,
      (UInt8.ofNat i <<< 4 ||| UInt8.ofNat j) >>> 4 &&& 15 = UInt8.ofNat i ∧
        (UInt8.ofNat i <<< 4 ||| UInt8.ofNat j) &&& 15 = UInt8.ofNat j := by decide +kernel
  have hsmall {c : UInt8} (h : c ≤ 15) : c.toNat < 16 := Nat.lt_succ_of_le (UInt8.le_iff_toNat_le.1 h)
  have hpair := hall ⟨hi.toNat, hsmall hhi⟩ ⟨lo.toNat, hsmall hlo⟩
  simpa using hpair

/-! ## Strings -/

theorem isHexDigit_of_mem_toHex {data : Bytes} {d : UInt8} (h : d ∈ toHex data) :
    isHexDigit d = true := by
  induction data with
  | nil => cases h
  | cons c data ih =>
    rw [toHex, List.mem_cons, List.mem_cons] at h
    rcases h with rfl | rfl | h
    · exact isHexDigit_c2h _
    · exact isHexDigit_c2h _
    · exact ih h

theorem cString_of_hex {h : Bytes} (hdigits : ∀ c ∈ h, isHexDigit c = true) : cString h = h := by
  rw [cString, List.takeWhile_eq_self_iff]
  intro c hc
  rw [decide_eq_true_iff]
  rintro rfl
  exact absurd (hdigits 0 hc) (by decide)

theorem fromHexLoop_toHex (data : Bytes) : fromHexLoop (toHex data) = data := by
  induction data with
  | nil => rfl
  | cons c data ih => rw [toHex, fromHexLoop, ih, hex_byte]

theorem fromHex_toHex (data : Bytes) : fromHex (toHex data) = data := by
  rw [fromHex, cString_of_hex fun _ => isHexDigit_of_mem_toHex, fromHexLoop_toHex]

/-- Digits are read two at a time. -/
theorem toHex_fromHexLoop {h : Bytes} (hdigits : ∀ c ∈ h, isHexDigit c = true)
    (heven : 2 ∣ h.length) : toHex (fromHexLoop h) = h.map upperCase := by
  induction h using fromHexLoop.induct with
  | case1 => rfl
  | case2 hi => exact absurd heven (by simp)
  | case3 hi lo rest ih =>
    have hrest : toHex (fromHexLoop rest) = rest.map upperCase := by
      apply ih
      · intro c hc
        exact hdigits c (List.mem_cons_of_mem _ (List.mem_cons_of_mem _ hc))
      · simpa using heven
    have hhi : isHexDigit hi = true := hdigits hi List.mem_cons_self
    have hlo : isHexDigit lo = true := hdigits lo (List.mem_cons_of_mem _ List.mem_cons_self)
    have hhalves := byte_halves (h2c_le hi) (h2c_le lo)
    rw [fromHexLoop, toHex, hhalves.1, hhalves.2, c2h_h2c hhi, c2h_h2c hlo, hrest]
    rfl

/-- **Hexadecimal digits are read back** as the bytes they were made of, and the
bytes of some digits are written as those digits, in upper case. -/
theorem hex_round_trip (s h : Bytes) (hdigits : ∀ c ∈ h, isHexDigit c = true)
    (heven : 2 ∣ h.length) :
    fromHex (toHex s) = s ∧ toHex (fromHex h) = h.map upperCase := by
  constructor
  · exact fromHex_toHex s
  · rw [fromHex, cString_of_hex hdigits]
    exact toHex_fromHexLoop hdigits heven

/-- A zero byte and one above 127; `1aF0` becomes `1AF0`. -/
theorem hex_round_trip_1aF0 :
    fromHex (toHex [0, 200]) = [0, 200] ∧
      toHex (fromHex [49, 97, 70, 48]) = List.map upperCase [49, 97, 70, 48] :=
  hex_round_trip [0, 200] [49, 97, 70, 48] (List.all_eq_true.1 rfl) (by decide)

end LibNbiot
