/-
# The strings of the modem interface

What the modem classes do with `nbiot::string`: cut a line into pieces, find a
character, strip quotes, read and print numbers, and turn bytes into hexadecimal
digits and back. A string is its bytes; `c_str()` shows those before the first
zero byte. Memory is never short.
-/

import LibNbiot.Topic
import Mathlib.Data.List.TakeWhile
import Mathlib.Order.Lattice
import Mathlib.Algebra.Order.Ring.Int

namespace LibNbiot

/-! ## Numbers -/

/-- `size_t`. -/
def sizeMod : Nat := 2 ^ 64

/-- `string::npos`. -/
def npos : Nat := sizeMod - 1

/-- `--` of a `size_t`. -/
def decrement (count : Nat) : Nat := if count = 0 then sizeMod - 1 else count - 1

def isDigit (c : UInt8) : Bool := 48 ≤ c ∧ c ≤ 57

/-- The white space that `atoi` skips. -/
def isSpace (c : UInt8) : Bool := c = 32 ∨ 9 ≤ c ∧ c ≤ 13

/-- The value of the leading digits. -/
def digitsValue : Nat → Bytes → Nat
  | value, [] => value
  | value, c :: rest => if isDigit c then digitsValue (10 * value + (c.toNat - 48)) rest else value

/-- What is left of a number in an `int`: `strtol` stops at the bounds of a `long`,
and the conversion keeps the lower half. -/
def toInt (n : Int) : Int := (max (-(2 ^ 63)) (min (2 ^ 63 - 1) n)).bmod (2 ^ 32)

def atoi (s : Bytes) : Int :=
  match (cString s).dropWhile isSpace with
  | 45 :: digits => toInt (-digitsValue 0 digits)
  | 43 :: digits => toInt (digitsValue 0 digits)
  | digits => toInt (digitsValue 0 digits)

def digit (d : Nat) : UInt8 := UInt8.ofNat (48 + d)

/-- The decimal digits of a number, at most so many. -/
def decimalLoop : Nat → Nat → Bytes
  | 0, _ => []
  | fuel + 1, n =>
      if n < 10 then [digit n]
      else decimalLoop fuel (n / 10) ++ [digit (n % 10)]

def decimal (n : Nat) : Bytes := decimalLoop (n + 1) n

/-- `%d` of `Printf`. -/
def printInt (n : Int) : Bytes := if n < 0 then 45 :: decimal n.natAbs else decimal n.natAbs

/-! ## Hexadecimal digits -/

def h2c (c : UInt8) : UInt8 :=
  if 48 ≤ c ∧ c ≤ 57 then c - 48
  else if 97 ≤ c ∧ c ≤ 102 then c - 97 + 10
  else if 65 ≤ c ∧ c ≤ 70 then c - 65 + 10
  else 0

def c2h (c : UInt8) : UInt8 :=
  if c ≤ 9 then 48 + c
  else if 10 ≤ c ∧ c ≤ 15 then 65 + (c - 10)
  else 48

def toHex : Bytes → Bytes
  | [] => []
  | c :: rest => c2h (c >>> 4 &&& 15) :: c2h (c &&& 15) :: toHex rest

/-- The loop of `fromHex`; a last digit without a second one is the upper half. -/
def fromHexLoop : Bytes → Bytes
  | [] => []
  | [hi] => [h2c hi <<< 4]
  | hi :: lo :: rest => (h2c hi <<< 4 ||| h2c lo) :: fromHexLoop rest

def fromHex (hex : Bytes) : Bytes := fromHexLoop (cString hex)

/-! ## Pieces of a string -/

/-- `find(const char c)`; the position behind the end is `none`. -/
def findChar (s : Bytes) (c : UInt8) : Option Nat := (cString s).findIdx? (· = c)

/-- `substr(pos, len)`; a length of `npos` is `none`. -/
def substr (s : Bytes) (pos : Nat) (len : Option Nat) : Bytes :=
  match len with
  | some len => (s.drop pos).take len
  | none => s.drop pos

/-- The loop of `split`: the run since the last separator, and what is left. -/
def splitLoop (isSep : UInt8 → Bool) (keepSeparator : Bool) : Bytes → Bytes → List Bytes × Bytes
  | run, [] => ([], run)
  | run, c :: rest =>
      if isSep c then
        let (pieces, last) := splitLoop isSep keepSeparator [] rest
        ((if run = [] then [] else [run]) ++ (if keepSeparator then [[c]] else []) ++ pieces, last)
      else splitLoop isSep keepSeparator (run ++ [c]) rest

/-- Both overloads of `split`: empty runs are no pieces, and a string without
pieces is one piece. -/
def splitBy (isSep : UInt8 → Bool) (keepSeparator : Bool) (s : Bytes) : List Bytes :=
  let (pieces, last) := splitLoop isSep keepSeparator [] s
  let pieces := if s.any isSep ∧ last ≠ [] then pieces ++ [last] else pieces
  if pieces = [] then [s] else pieces

/-- `split(char sep)`. -/
def splitChar (s : Bytes) (sep : UInt8) : List Bytes := splitBy (· = sep) false s

/-- `split(const char* sep)`. -/
def splitAny (s sep : Bytes) : List Bytes := splitBy ((cString sep).contains ·) false s

/-- `strip(c)`. The loop that looks for the end of the string has no lower bound,
so nothing can be said of a string of which nothing is left. -/
def strip (s : Bytes) (c : UInt8) : Option Bytes :=
  if s = [] then some []
  else if s.all (· = c) then none
  else
    let leading := s.takeWhile (· = c)
    let trailing := s.reverse.takeWhile (· = c)
    some (substr s leading.length (some (s.length - leading.length - trailing.length)))

/-! ## What is printed is read back -/

theorem toNat_digit {d : Nat} (h : d < 10) : (digit d).toNat = 48 + d := by
  rw [digit, UInt8.toNat_ofNat']
  exact Nat.mod_eq_of_lt (by omega)

theorem isDigit_iff (c : UInt8) : isDigit c = true ↔ 48 ≤ c.toNat ∧ c.toNat ≤ 57 := by
  rw [isDigit, decide_eq_true_iff, UInt8.le_iff_toNat_le, UInt8.le_iff_toNat_le]
  exact Iff.rfl

theorem isDigit_digit {d : Nat} (h : d < 10) : isDigit (digit d) = true := by
  rw [isDigit_iff, toNat_digit h]
  omega

theorem decimalLoop_digits (fuel n : Nat) : ∀ c ∈ decimalLoop fuel n, isDigit c = true := by
  induction fuel generalizing n with
  | zero => nofun
  | succ fuel ih =>
    intro c hc
    rw [decimalLoop] at hc
    split at hc
    · rename_i hn
      rw [List.mem_singleton.1 hc]
      exact isDigit_digit hn
    · obtain hc | hc := List.mem_append.1 hc
      · exact ih _ c hc
      · rw [List.mem_singleton.1 hc]
        exact isDigit_digit (Nat.mod_lt _ (by decide))

theorem decimalLoop_ne_nil (fuel n : Nat) : decimalLoop (fuel + 1) n ≠ [] := by
  rw [decimalLoop]
  split <;> simp

theorem digitsValue_concat {digits : Bytes} (h : ∀ c ∈ digits, isDigit c = true) (value : Nat)
    {d : UInt8} (hd : isDigit d = true) :
    digitsValue value (digits ++ [d]) = 10 * digitsValue value digits + (d.toNat - 48) := by
  induction digits generalizing value with
  | nil => simp [digitsValue, hd]
  | cons c digits ih =>
    have hc : isDigit c = true := h c List.mem_cons_self
    rw [List.cons_append, digitsValue, if_pos hc, digitsValue, if_pos hc]
    exact ih (fun c' hc' => h c' (List.mem_cons_of_mem _ hc')) _

theorem digitsValue_decimalLoop {fuel n : Nat} (h : n < fuel) :
    digitsValue 0 (decimalLoop fuel n) = n := by
  induction fuel generalizing n with
  | zero => exact absurd h (Nat.not_lt_zero _)
  | succ fuel ih =>
    rw [decimalLoop]
    split
    · rename_i hn
      simp [digitsValue, isDigit_digit hn, toNat_digit hn]
    · have hd : n % 10 < 10 := Nat.mod_lt _ (by decide)
      rw [digitsValue_concat (decimalLoop_digits _ _) 0 (isDigit_digit hd), ih (by omega),
        toNat_digit hd]
      omega

theorem cString_of_digits {digits : Bytes} (h : ∀ c ∈ digits, isDigit c = true) :
    cString digits = digits := by
  rw [cString, List.takeWhile_eq_self_iff]
  intro c hc
  have hdigit := (isDigit_iff c).1 (h c hc)
  rw [decide_eq_true_iff]
  rintro rfl
  exact absurd hdigit.1 (by decide)

theorem toInt_of_lt {n : Nat} (h : n < 2 ^ 31) : toInt n = n := by
  rw [toInt]
  have hmin : min (2 ^ 63 - 1 : Int) n = n := min_eq_right (by omega)
  have hmax : max (-(2 ^ 63) : Int) n = n := max_eq_right (by omega)
  rw [hmin, hmax, Int.bmod_def]
  omega

/-- A number that is printed is read back. -/
theorem atoi_decimal {n : Nat} (h : n < 2 ^ 31) : atoi (decimal n) = n := by
  have hdigits : ∀ c ∈ decimal n, isDigit c = true := decimalLoop_digits _ _
  have hvalue : digitsValue 0 (decimal n) = n := digitsValue_decimalLoop (Nat.lt_succ_self n)
  obtain ⟨c, rest, hcons⟩ := List.exists_cons_of_ne_nil (decimalLoop_ne_nil n n)
  have hdecimal : decimal n = c :: rest := hcons
  have hc := (isDigit_iff c).1 (hdigits c (by rw [hdecimal]; exact List.mem_cons_self))
  have hspace : isSpace c = false := by
    rw [isSpace, decide_eq_false_iff_not, UInt8.le_iff_toNat_le, UInt8.le_iff_toNat_le,
      ← UInt8.toNat_inj]
    simp only [UInt8.toNat_ofNat]
    omega
  have hplus : c ≠ 43 := by
    rintro rfl
    exact absurd hc.1 (by decide)
  have hminus : c ≠ 45 := by
    rintro rfl
    exact absurd hc.1 (by decide)
  rw [atoi, cString_of_digits hdigits, hdecimal, List.dropWhile_cons_of_neg (by simp [hspace])]
  split
  · rename_i heq
    cases heq
    exact absurd rfl hminus
  · rename_i heq
    cases heq
    exact absurd rfl hplus
  · rw [← hdecimal, hvalue]
    exact toInt_of_lt h

end LibNbiot
