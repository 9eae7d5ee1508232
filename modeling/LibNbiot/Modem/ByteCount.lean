/-
# Counting received bytes

The counter of the BC95 socket should be the number of bytes in the ring buffer
after any lines and calls. A datagram overwrites the counter, and the last loop of
a read takes what was asked for; so the counter is right as long as every datagram
finds the buffer empty and no read ends with more than is available.
-/

import LibNbiot.Modem.Bc95Receiving
import LibNbiot.Modem.HexCoding
import LibNbiot.Modem.SplitJoin

namespace LibNbiot

namespace Bc95Network

/-! ## Lines that carry what they announce -/

/-- A line that would be taken for a datagram announces the number of bytes that
its digits decode to. -/
def wellFormed (line : Bytes) : Bool :=
  match splitChar line comma with
  | [_, count, hex] =>
      match strip hex quote with
      | some digits => atoi count = (fromHex digits).length
      | none => false
  | _ => true

/-- The line of a datagram as the modem prints it. -/
def datagramLine (number : Nat) (data : Bytes) : Bytes :=
  respNSONMI ++ decimal number ++ comma :: (decimal data.length ++ comma :: toHex data)

/-- The digits of a byte are none of the characters that a line is cut at. -/
theorem mem_toHex {data : Bytes} {d : UInt8} (h : d ∈ toHex data) : d ≠ comma ∧ d ≠ quote := by
  have hdigit := isHexDigit_of_mem_toHex h
  constructor
  · rintro rfl
    exact absurd hdigit (by decide)
  · rintro rfl
    exact absurd hdigit (by decide)

/-- Nothing is stripped where there is nothing to strip. -/
theorem strip_of_not_mem {s : Bytes} {c : UInt8} (hs : s ≠ []) (h : ∀ d ∈ s, d ≠ c) :
    strip s c = some s := by
  have hleading : s.takeWhile (· = c) = [] := by
    cases s with
    | nil => rfl
    | cons d s => simp [h d List.mem_cons_self]
  have htrailing : s.reverse.takeWhile (· = c) = [] := by
    cases hreverse : s.reverse with
    | nil => rfl
    | cons d t =>
      have hd : d ∈ s := List.mem_reverse.1 (by rw [hreverse]; exact List.mem_cons_self)
      simp [h d hd]
  have hsome : ¬s.all (· = c) = true := by
    obtain ⟨d, hd⟩ := List.exists_mem_of_ne_nil s hs
    intro hall
    exact h d hd (of_decide_eq_true (List.all_eq_true.1 hall d hd))
  rw [strip, if_neg hs, if_neg hsome, hleading, htrailing]
  simp [substr]

/-- What the modem prints carries what it announces. -/
theorem wellFormed_datagramLine (number : Nat) {data : Bytes} (hdata : data ≠ [])
    (hlength : data.length < 2 ^ 31) : wellFormed (datagramLine number data) = true := by
  have hdecimal {k : Nat} {d : UInt8} (h : d ∈ decimal k) : d ≠ comma := by
    have hd := (isDigit_iff d).1 (decimalLoop_digits _ _ d h)
    rintro rfl
    exact absurd hd.1 (by decide)
  have hhead : ∀ d ∈ respNSONMI, d ≠ comma := by decide +kernel
  have hhex : toHex data ≠ [] := by
    cases data with
    | nil => exact absurd rfl hdata
    | cons c data => exact List.cons_ne_nil _ _
  have hsplit : splitChar (datagramLine number data) comma =
      [respNSONMI ++ decimal number, decimal data.length, toHex data] := by
    have hline : datagramLine number data =
        [comma].intercalate [respNSONMI ++ decimal number, decimal data.length, toHex data] := by
      simp [datagramLine]
    rw [hline, splitChar_intercalate (by simp [respNSONMI])]
    · simp [respNSONMI, hhex, decimalLoop_ne_nil, decimal]
    · intro f hf d hd
      simp only [List.mem_cons, List.not_mem_nil, or_false] at hf
      rcases hf with rfl | rfl | rfl
      · rcases List.mem_append.1 hd with hd | hd
        · exact hhead d hd
        · exact hdecimal hd
      · exact hdecimal hd
      · exact (mem_toHex hd).1
  have hstrip : strip (toHex data) quote = some (toHex data) :=
    strip_of_not_mem hhex fun d hd => (mem_toHex hd).2
  simp only [wellFormed, hsplit, hstrip, fromHex_toHex]
  exact decide_eq_true (atoi_decimal hlength)

/-! ## The calls keep what the buffer holds -/

variable {n n' : Bc95Network}

theorem wellFormed_readable {line : Bytes} (h : wellFormed line = true) : readable line = true := by
  unfold wellFormed at h
  unfold readable
  split
  · rename_i first count hex hsplit
    rw [hsplit] at h
    dsimp only at h
    cases hstrip : strip hex quote with
    | none =>
      rw [hstrip] at h
      cases h
    | some digits => rfl
  · rfl

/-- The buffer holds a queue of octets. -/
def Filled (n : Bc95Network) : Prop := ∃ items, n.Holds 0 items

theorem Filled.exec (h : n.Filled) {call : Call} (hn : n.exec call = some n') : n'.Filled := by
  obtain ⟨items, h⟩ := h
  cases call with
  | connect hostname port x =>
    obtain ⟨⟨ret, n₂⟩, hconnect, rfl⟩ := Option.map_eq_some_iff.1 hn
    obtain ⟨n₁, hconnects⟩ := connect_connects hconnect
    obtain ⟨items₁, h₁⟩ := hconnects.passes.holds 0 items h (Nat.zero_le _)
    rw [hconnects.after]
    split
    · exact ⟨items₁, listen_holds h₁ _⟩
    · exact ⟨items₁, h₁⟩
  | disconnect x =>
    obtain ⟨⟨ret, n₂⟩, hdisconnect, rfl⟩ := Option.map_eq_some_iff.1 hn
    obtain ⟨n₁, hdisconnects⟩ := disconnect_disconnects hdisconnect
    obtain ⟨items₁, h₁⟩ := hdisconnects.passes.holds 0 items h (Nat.zero_le _)
    have hclosed : (if ret then n₁.forgetSocket else n₁).Holds 0 items₁ := by
      split
      · exact h₁.of_eq rfl rfl rfl
      · exact h₁
    exact hdisconnects.after.2.holds 0 items₁ hclosed (Nat.zero_le _)
  | write data x =>
    obtain ⟨⟨ret, n₂⟩, hwrite, rfl⟩ := Option.map_eq_some_iff.1 hn
    exact (write_passes hwrite).1.holds 0 items h (Nat.zero_le _)
  | read len timeout passes =>
    obtain ⟨⟨rc, octets, n₂⟩, hread, rfl⟩ := Option.map_eq_some_iff.1 hn
    exact (read_holds h (Nat.zero_le _) hread).1
  | urc lines => exact handleLines_holds h (Nat.zero_le _) hn

theorem filled_fresh {array : List Octet} (h : array.length = 512) : (fresh array).Filled :=
  ⟨[], CircularBuffer.reset_represents (b := ⟨array, 0, 0, false⟩) h (by decide), fun _ => rfl,
    fun _ => le_rfl, fun _ _ ho => absurd ho List.not_mem_nil⟩

/-- **The counter counts** in every run whose datagrams find the buffer empty and
whose reads end with what is available; and a run whose lines carry what they
announce comes to its end. -/
theorem counted_after {array : List Octet} (harray : array.length = 512) (calls : List Call)
    (hlines : ∀ call ∈ calls, ∀ line ∈ call.incoming, wellFormed line = true) :
    ∃ n, run (fresh array) calls = some n ∧
      (n.history.Orderly → n.bytesAvail = n.buffer.size) := by
  have hrun : ∀ {n : Bc95Network}, n.Filled →
      (∀ call ∈ calls, ∀ line ∈ call.incoming, wellFormed line = true) →
      ∃ n', run n calls = some n' ∧ n'.Filled := by
    clear hlines
    induction calls with
    | nil => exact fun h _ => ⟨_, rfl, h⟩
    | cons call calls ih =>
      intro n h hlines
      obtain ⟨n₁, hn₁⟩ := n.exec_isSome call fun line hline =>
        wellFormed_readable (hlines call List.mem_cons_self line hline)
      obtain ⟨n₂, hn₂, hfilled⟩ :=
        ih (h.exec hn₁) fun c hc => hlines c (List.mem_cons_of_mem _ hc)
      refine ⟨n₂, ?_, hfilled⟩
      rw [run, List.foldlM_cons]
      exact Option.bind_eq_some_iff.2 ⟨n₁, hn₁, hn₂⟩
  obtain ⟨n, hn, items, h⟩ := hrun (filled_fresh harray) hlines
  exact ⟨n, hn, fun ho => by rw [h.counted ho, h.size_eq]⟩

/-- A datagram that is read before the next one comes in. -/
theorem counted_after_reading :
    ∃ n, run (fresh (List.replicate 512 .unknown))
        [.connect [104] 1883 { response := [48] }, .urc [datagramLine 0 [7, 8]],
          .read 2 1000 [⟨1000, []⟩], .urc [datagramLine 0 [9]]] = some n ∧
      (n.history.Orderly → n.bytesAvail = n.buffer.size) :=
  counted_after (List.length_replicate ..) _ (by decide +kernel)

/-- The counter forgets a datagram when the next one comes in. -/
theorem not_counted_after_two :
    (∀ line ∈ [datagramLine 0 [7, 8], datagramLine 0 [9]], wellFormed line = true) ∧
      ∃ n, run (fresh (List.replicate 512 .unknown))
          [.connect [104] 1883 { response := [48] },
            .urc [datagramLine 0 [7, 8], datagramLine 0 [9]]] = some n ∧
        n.bytesAvail = 1 ∧ n.buffer.size = 3 := by
  refine ⟨by decide +kernel, _, rfl, ?_⟩
  decide +kernel

end Bc95Network

end LibNbiot
