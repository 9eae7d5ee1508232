/-
# What a write of the BC95 sends

The head of a send command is made by `Printf`, which answers nothing where the text
does not fit its buffer, and the digits of the payload are put behind the answer
whatever it is. So a write sends the command that it should as long as the head
fits, and as long as the length of the payload is an `int`, as which it is printed.
-/

import LibNbiot.Modem.ByteCount

namespace LibNbiot

/-! ## Numbers in a command -/

theorem toCInt_of_lt {n : Nat} (h : n < 2 ^ 31) : toCInt n = n := by
  rw [toCInt, Int.bmod_def]
  omega

theorem printInt_of_nonneg {z : Int} (h : 0 ≤ z) : printInt z = decimal z.natAbs :=
  if_neg (Int.not_lt.2 h)

/-- Only the number itself is printed as its digits. -/
theorem eq_of_printInt_eq {z : Int} {n : Nat} (h : printInt z = decimal n) : z = n := by
  rw [printInt] at h
  split at h
  · rename_i hneg
    have hminus : isDigit 45 = true := by
      apply decimalLoop_digits (n + 1) n
      rw [← decimal, ← h]
      exact List.mem_cons_self
    exact absurd hminus (by decide)
  · rename_i hpos
    have hvalue := congrArg (digitsValue 0) h
    rw [decimal, decimal, digitsValue_decimalLoop (Nat.lt_succ_self _),
      digitsValue_decimalLoop (Nat.lt_succ_self _)] at hvalue
    omega

namespace Bc95Network

variable {n n' : Bc95Network}

theorem comma_not_mem_decimal (n : Nat) : comma ∉ decimal n := by
  intro h
  have hdigit := decimalLoop_digits (n + 1) n comma h
  exact absurd hdigit (by decide)

theorem comma_not_mem_printInt (z : Int) : comma ∉ printInt z := by
  rw [printInt]
  split
  · intro h
    rcases List.mem_cons.1 h with h | h
    · exact absurd h (by decide)
    · exact comma_not_mem_decimal _ h
  · exact comma_not_mem_decimal _

/-- Two texts with the same field up to a comma have the same first field. -/
theorem field_inj {a b rest rest' : Bytes} (ha : comma ∉ a) (hb : comma ∉ b)
    (h : a ++ comma :: rest = b ++ comma :: rest') : a = b := by
  have hfield {l : Bytes} (hl : comma ∉ l) (rest : Bytes) :
      (l ++ comma :: rest).takeWhile (fun c => c ≠ comma) = l := by
    have hother : ∀ c ∈ l, decide (c ≠ comma) = true := by
      intro c hc
      apply decide_eq_true
      rintro rfl
      exact hl hc
    rw [List.takeWhile_append_of_pos hother, List.takeWhile_cons_of_neg (by simp), List.append_nil]
  rw [← hfield ha rest, h, hfield hb rest']

/-! ## The command -/

/-- `AT+NSOST=<socket>,<host>,<port>,<len>,<hex>`, as it should be sent. -/
def commandNSOST (n : Bc95Network) (len : Nat) (hex : Bytes) : Bytes :=
  cmdNSOST ++ printInt n.connectionNumber ++ [comma] ++ n.hostname ++ [comma] ++ decimal n.port ++
    [comma] ++ decimal len ++ [comma] ++ hex ++ [carriageReturn]

/-- Whatever the modem does, a write sends one command: that of the socket, the host
and the port, with the length of the payload and digits that are read back as it. -/
def SendsWell (n : Bc95Network) (data : Bytes) : Prop :=
  ∀ x ret n', n.write data x = some (ret, n') →
    ∃ hex, n'.commands = n.commands ++ [n.commandNSOST data.length hex] ∧ fromHex hex = data

theorem handleLine_commands {line : Bytes} (hn : n.handleLine line = some n') :
    n'.commands = n.commands := by
  unfold handleLine parseFilterResult at hn
  split at hn
  · split at hn
    · dsimp only at hn
      split at hn
      · split at hn
        · obtain ⟨digits, -, rfl⟩ := Option.map_eq_some_iff.1 hn
          rfl
        · obtain rfl := Option.some.inj hn
          rfl
      · obtain rfl := Option.some.inj hn
        rfl
    · obtain rfl := Option.some.inj hn
      rfl
  · obtain rfl := Option.some.inj hn
    rfl

theorem handleLines_commands {lines : List Bytes} (hn : n.handleLines lines = some n') :
    n'.commands = n.commands := by
  induction lines generalizing n with
  | nil =>
    obtain rfl := Option.some.inj hn
    rfl
  | cons line lines ih =>
    obtain ⟨n₁, hfirst, hrest⟩ := handleLines_cons hn
    exact (ih hrest).trans (handleLine_commands hfirst)

/-- A write sends what `Printf` answers, and the digits. -/
theorem write_commands (hhost : n.hostname ≠ []) (hport : 0 < n.port) {data : Bytes} {x : Exchange}
    {ret : Bool} (hn : n.write data x = some (ret, n')) :
    n'.commands =
      n.commands ++ [printf (n.headNSOST data.length) ++ toHex data ++ [carriageReturn]] := by
  obtain ⟨n₁, hsend, hn⟩ := Option.bind_eq_some_iff.1 hn
  obtain ⟨n₂, hlines, hn⟩ := Option.bind_eq_some_iff.1 hn
  obtain ⟨-, rfl⟩ := Prod.mk.inj (Option.some.inj hn)
  rw [handleLines_commands hlines]
  rw [sendData, if_pos ⟨hhost, hport⟩] at hsend
  dsimp only at hsend
  split at hsend
  · rw [handleLines_commands hsend]
    rfl
  · obtain rfl := Option.some.inj hsend
    rfl

/-- A write during which nothing comes in is brought to its end. -/
theorem write_quiet (hhost : n.hostname ≠ []) (hport : 0 < n.port) (data : Bytes) :
    ∃ ret n', n.write data {} = some (ret, n') := by
  unfold write sendData
  rw [if_pos ⟨hhost, hport⟩]
  exact ⟨_, _, rfl⟩

theorem headNSOST_ne_nil (n : Bc95Network) (len : Nat) : 0 < (n.headNSOST len).length := by
  simp only [headNSOST, List.length_append, List.length_singleton]
  omega

/-! ## When the command is the right one -/

/-- A head that fits, of a payload that is no longer than an `int` can tell. -/
theorem sendsWell_of_fits (hhost : n.hostname ≠ []) (hport : 0 < n.port) {data : Bytes}
    (hhead : (n.headNSOST data.length).length < 80) (hlength : data.length < 2 ^ 31) :
    n.SendsWell data := by
  intro x ret n' hn
  have hprinted : printInt (toCInt data.length) = decimal data.length := by
    rw [toCInt_of_lt hlength, printInt_of_nonneg (Int.natCast_nonneg _), Int.natAbs_natCast]
  refine ⟨toHex data, ?_, fromHex_toHex data⟩
  rw [write_commands hhost hport hn, printf, if_pos ⟨n.headNSOST_ne_nil _, hhead⟩, headNSOST,
    hprinted]
  rfl

/-- Without its head the command begins with a digit, or is empty. -/
theorem not_sendsWell_of_headless (hhost : n.hostname ≠ []) (hport : 0 < n.port) {data : Bytes}
    (hhead : 80 ≤ (n.headNSOST data.length).length) : ¬n.SendsWell data := by
  intro hwell
  obtain ⟨ret, n', hn⟩ := write_quiet hhost hport data
  obtain ⟨hex, hcommands, -⟩ := hwell _ _ _ hn
  rw [write_commands hhost hport hn, printf, if_neg (by omega)] at hcommands
  have hcommand := List.singleton_inj.1 (List.append_cancel_left hcommands)
  have hletter : (84 : UInt8) ∈ n.commandNSOST data.length hex := by
    simp [commandNSOST, cmdNSOST]
  rw [← hcommand, List.nil_append, List.mem_append] at hletter
  rcases hletter with hletter | hletter
  · exact absurd (isHexDigit_of_mem_toHex hletter) (by decide)
  · exact absurd hletter (by decide)

/-- The length of a payload that is longer than an `int` can tell is another number. -/
theorem not_sendsWell_of_long (hhost : n.hostname ≠ []) (hport : 0 < n.port) {data : Bytes}
    (hhead : (n.headNSOST data.length).length < 80) (hlength : 2 ^ 31 ≤ data.length) :
    ¬n.SendsWell data := by
  intro hwell
  obtain ⟨ret, n', hn⟩ := write_quiet hhost hport data
  obtain ⟨hex, hcommands, -⟩ := hwell _ _ _ hn
  rw [write_commands hhost hport hn, printf, if_pos ⟨n.headNSOST_ne_nil _, hhead⟩] at hcommands
  have hcommand := List.singleton_inj.1 (List.append_cancel_left hcommands)
  simp only [headNSOST, commandNSOST, List.append_assoc, List.append_cancel_left_eq] at hcommand
  have hnumber := field_inj (comma_not_mem_printInt _) (comma_not_mem_decimal _) hcommand
  have hsame := eq_of_printInt_eq hnumber
  rw [toCInt, Int.bmod_def] at hsame
  omega

/-- **A write sends the right command** exactly if its head fits the buffer of
`Printf` and the length of the payload is an `int`. -/
theorem sendsWell_iff (hhost : n.hostname ≠ []) (hport : 0 < n.port) (data : Bytes) :
    n.SendsWell data ↔ (n.headNSOST data.length).length < 80 ∧ data.length < 2 ^ 31 := by
  constructor
  · intro hwell
    have hhead : (n.headNSOST data.length).length < 80 := by
      by_contra hlong
      exact not_sendsWell_of_headless hhost hport (Nat.le_of_not_lt hlong) hwell
    refine ⟨hhead, ?_⟩
    by_contra hlong
    exact not_sendsWell_of_long hhost hport hhead (Nat.le_of_not_lt hlong) hwell
  · rintro ⟨hhead, hlength⟩
    exact sendsWell_of_fits hhost hport hhead hlength

/-- A connect to the port 1883 of a host with a name of so many letters. -/
def connectTo (letters : Nat) : List Call :=
  [.connect (List.replicate letters 104) 1883 { response := [48] }]

theorem sendsWell_iff_ten :
    ∃ n, run (fresh (List.replicate 512 .unknown)) (connectTo 10) = some n ∧
      (n.SendsWell [1, 2] ↔ (n.headNSOST 2).length < 80 ∧ [(1 : UInt8), 2].length < 2 ^ 31) := by
  have hrun : run (fresh (List.replicate 512 .unknown)) (connectTo 10) = some _ := rfl
  exact ⟨_, hrun, sendsWell_iff (by decide +kernel) (by decide +kernel) [1, 2]⟩

/-- A host name of 61 letters leaves no room for the head of a single byte. -/
theorem not_sendsWell_longHost :
    ∃ n, run (fresh (List.replicate 512 .unknown)) (connectTo 61) = some n ∧
      ¬n.SendsWell [1] := by
  have hrun : run (fresh (List.replicate 512 .unknown)) (connectTo 61) = some _ := rfl
  exact ⟨_, hrun,
    not_sendsWell_of_headless (by decide +kernel) (by decide +kernel) (by decide +kernel)⟩

end Bc95Network

end LibNbiot
