/-
# Malformed datagram lines

A line for the socket may announce any number and carry any data. The handler
takes as many bytes as are announced and fit, wherever they come from: it is
harmless as long as the data decodes to that many, and as long as it is not made of
quotes alone, of which `strip` finds no end.
-/

import LibNbiot.Modem.Bc95Reading

namespace LibNbiot

namespace Bc95Network

variable {n : Bc95Network} {items : List Octet} {line first count hex digits : Bytes}

/-- The bytes that the data of a line decodes to. -/
def decoded (line : Bytes) : Bytes :=
  match splitChar line comma with
  | [_, _, hex] => ((strip hex quote).map fromHex).getD []
  | _ => []

/-- The handler comes to an end, and what it puts into the ring buffer is a beginning
of the bytes that the line decodes to. -/
def Harmless (n : Bc95Network) (line : Bytes) : Prop :=
  ∃ n' taken, n.parseFilterResult line = some n' ∧ taken <+: decoded line ∧
    ∀ items, n.buffer.Represents items → n'.buffer.Represents (items ++ n.octets taken)

/-- The count of a line, as a `size_t`. -/
def announced (count : Bytes) : Nat := (atoi count % sizeMod).toNat

/-- A line of the open socket that announces something has data that is not made of
quotes alone, and decodes to as many bytes as are announced and fit. -/
def Honest (n : Bc95Network) (line : Bytes) : Prop :=
  match splitChar line comma with
  | [first, count, hex] =>
      n.connectionNumber = socketNumber first → 0 < announced count →
        (hex = [] ∨ ∃ c ∈ hex, c ≠ quote) ∧
          min (announced count) n.buffer.capacity ≤ (decoded line).length
  | _ => True

/-! ## What is put into the buffer -/

theorem octetsAt_of_le {data : Bytes} {count : Nat} (h : count ≤ data.length) :
    n.octetsAt data count = n.octets (data.take count) := by
  rw [octetsAt, Nat.sub_eq_zero_of_le h, List.replicate_zero, List.append_nil, ← List.map_take]
  rfl

/-- As many octets as are announced and fit, from wherever they are. -/
theorem receive_represents (h : n.buffer.Represents items) {count : Nat} (hpos : 0 < count)
    (data : Bytes) :
    (n.receive count data).buffer.Represents
      (items ++ n.octetsAt data (min count n.buffer.capacity)) := by
  have hcapacity := h.capacity_eq
  have hle := h.length_le
  have htaken : (if n.buffer.capacity < count then n.buffer.capacity else count) =
      min count n.buffer.capacity := by
    split <;> omega
  have hlength := n.length_octetsAt data (min count n.buffer.capacity)
  have hput := h.put (n.octetsAt data (min count n.buffer.capacity)) (by omega)
  rw [if_pos (by omega)] at hput
  unfold receive
  simp only [htaken]
  exact hput.2

theorem decoded_datagram (hsplit : splitChar line comma = [first, count, hex])
    (hstrip : strip hex quote = some digits) : decoded line = fromHex digits := by
  unfold decoded
  simp only [hsplit, hstrip]
  rfl

/-- What becomes of a line of the open socket that announces something. -/
theorem parseFilterResult_datagram (hsplit : splitChar line comma = [first, count, hex])
    (hnumber : n.connectionNumber = socketNumber first) (hpos : 0 < announced count) :
    n.parseFilterResult line =
      (strip hex quote).map fun digits => n.receive (announced count) (fromHex digits) := by
  unfold parseFilterResult
  simp only [hsplit]
  rw [if_pos hnumber]
  exact if_pos hpos

/-- A line that announces nothing to the open socket leaves the buffer alone. -/
theorem harmless_of_nothing (hnothing : ∀ first count hex,
    splitChar line comma = [first, count, hex] → n.connectionNumber = socketNumber first →
      ¬0 < announced count) : n.Harmless line := by
  have hkept : ∃ n', n.parseFilterResult line = some n' ∧ n'.buffer = n.buffer := by
    unfold parseFilterResult
    split
    · rename_i first count hex hsplit
      split
      · rename_i hnumber
        have hzero : ¬0 < (atoi count % sizeMod).toNat := hnothing first count hex hsplit hnumber
        simp only [if_neg hzero]
        exact ⟨_, rfl, rfl⟩
      · exact ⟨n, rfl, rfl⟩
    · exact ⟨n, rfl, rfl⟩
  obtain ⟨n', hn, hbuffer⟩ := hkept
  refine ⟨n', [], hn, List.nil_prefix, fun items h => ?_⟩
  rw [hbuffer]
  simpa [octets] using h

/-- What is announced and fits is taken from what the line decodes to. -/
theorem harmless_of_le (hsplit : splitChar line comma = [first, count, hex])
    (hnumber : n.connectionNumber = socketNumber first) (hpos : 0 < announced count)
    (hstrip : strip hex quote = some digits)
    (hle : min (announced count) n.buffer.capacity ≤ (fromHex digits).length) :
    n.Harmless line := by
  have hn : n.parseFilterResult line = some (n.receive (announced count) (fromHex digits)) := by
    rw [parseFilterResult_datagram hsplit hnumber hpos, hstrip]
    rfl
  have hprefix : (fromHex digits).take (min (announced count) n.buffer.capacity) <+:
      decoded line := by
    rw [decoded_datagram hsplit hstrip]
    exact List.take_prefix _ _
  refine ⟨_, _, hn, hprefix, fun items hitems => ?_⟩
  have hreceived := receive_represents hitems hpos (fromHex digits)
  rwa [octetsAt_of_le hle] at hreceived

/-- Of quotes alone the handler finds no end. -/
theorem not_harmless_of_quotes (hsplit : splitChar line comma = [first, count, hex])
    (hnumber : n.connectionNumber = socketNumber first) (hpos : 0 < announced count)
    (hsome : hex ≠ []) (hall : ∀ c ∈ hex, c = quote) : ¬n.Harmless line := by
  rintro ⟨n', taken, hn, -, -⟩
  have hstrip : strip hex quote = none := by
    rw [strip, if_neg hsome, if_pos]
    exact List.all_eq_true.2 fun c hc => decide_eq_true (hall c hc)
  rw [parseFilterResult_datagram hsplit hnumber hpos, hstrip] at hn
  cases hn

/-- More bytes than the line decodes to cannot come from it. -/
theorem not_harmless_of_more (hfilled : n.Filled)
    (hsplit : splitChar line comma = [first, count, hex])
    (hnumber : n.connectionNumber = socketNumber first)
    (hpos : 0 < announced count)
    (hmore : (decoded line).length < min (announced count) n.buffer.capacity) :
    ¬n.Harmless line := by
  rintro ⟨n', taken, hn, hprefix, hput⟩
  obtain ⟨items, hitems⟩ := hfilled
  rw [parseFilterResult_datagram hsplit hnumber hpos] at hn
  obtain ⟨digits, hstrip, rfl⟩ := Option.map_eq_some_iff.1 hn
  have hreceived := receive_represents hitems.represents hpos (fromHex digits)
  have hsize := hreceived.size_eq.symm.trans (hput items hitems.represents).size_eq
  have htaken := hprefix.length_le
  rw [List.length_append, List.length_append, length_octetsAt, length_octets] at hsize
  omega

/-- Data that is not made of quotes alone is stripped. -/
theorem strip_of_data (h : hex = [] ∨ ∃ c ∈ hex, c ≠ quote) :
    ∃ digits, strip hex quote = some digits := by
  rcases h with rfl | ⟨c, hc, hne⟩
  · exact ⟨[], rfl⟩
  · have hsome : ¬hex = [] := List.ne_nil_of_mem hc
    have hnot : ¬hex.all (· = quote) = true := fun hall =>
      hne (of_decide_eq_true (List.all_eq_true.1 hall c hc))
    rw [strip, if_neg hsome, if_neg hnot]
    exact ⟨_, rfl⟩

/-- The buffer holds a queue of octets in every state that is reached. -/
theorem filled_run {n' : Bc95Network} (h : n.Filled) {calls : List Call}
    (hn : run n calls = some n') : n'.Filled := by
  induction calls generalizing n with
  | nil =>
    obtain rfl := Option.some.inj hn
    exact h
  | cons call calls ih =>
    rw [run, List.foldlM_cons] at hn
    obtain ⟨n₁, hfirst, hrest⟩ := Option.bind_eq_some_iff.1 hn
    exact ih (h.exec hfirst) hrest

/-- **A line is harmless** in a state that is reached if and only if it is honest. -/
theorem harmless_iff {array : List Octet} (harray : array.length = 512) {calls : List Call}
    (hn : run (fresh array) calls = some n) (line : Bytes) : n.Harmless line ↔ n.Honest line := by
  have hfilled := filled_run (filled_fresh harray) hn
  unfold Honest
  split
  · rename_i first count hex hsplit
    constructor
    · intro hharmless hnumber hpos
      constructor
      · by_contra hno
        push Not at hno
        exact not_harmless_of_quotes hsplit hnumber hpos hno.1 hno.2 hharmless
      · by_contra hmore
        exact not_harmless_of_more hfilled hsplit hnumber hpos (Nat.lt_of_not_le hmore) hharmless
    · intro hhonest
      by_cases hannounces : n.connectionNumber = socketNumber first ∧ 0 < announced count
      · obtain ⟨hnumber, hpos⟩ := hannounces
        obtain ⟨hdata, hle⟩ := hhonest hnumber hpos
        obtain ⟨digits, hstrip⟩ := strip_of_data hdata
        rw [decoded_datagram hsplit hstrip] at hle
        exact harmless_of_le hsplit hnumber hpos hstrip hle
      · apply harmless_of_nothing
        intro first' count' hex' hsplit' hnumber hpos
        rw [hsplit] at hsplit'
        cases hsplit'
        exact hannounces ⟨hnumber, hpos⟩
  · rename_i hno
    exact iff_of_true
      (harmless_of_nothing fun first count hex hsplit => absurd hsplit (hno first count hex)) trivial

/-- `+NSONMI:0,2,"0102"`. -/
def quotedLine : Bytes :=
  respNSONMI ++ [48, comma, 50, comma, quote, 48, 49, 48, 50, quote]

/-- A connect that is given the socket 0. -/
def opened : List Call := [.connect [104] 1883 { response := [48] }]

theorem harmless_iff_quotedLine :
    ∃ n, run (fresh (List.replicate 512 .unknown)) opened = some n ∧
      (n.Harmless quotedLine ↔ n.Honest quotedLine) := by
  have harray : (List.replicate 512 Octet.unknown).length = 512 := List.length_replicate ..
  have hrun : run (fresh (List.replicate 512 .unknown)) opened = some _ := rfl
  exact ⟨_, hrun, harmless_iff harray hrun quotedLine⟩

/-- `+NSONMI:0,5,01`: five bytes are announced, and one is there. -/
def shortLine : Bytes := respNSONMI ++ [48, comma, 53, comma, 48, 49]

/-- `+NSONMI:0,1,"`: the data is a quote. -/
def quoteLine : Bytes := respNSONMI ++ [48, comma, 49, comma, quote]

/-- Both lines pass the filter of the socket, and neither is harmless. -/
theorem not_harmless_malformed :
    ∃ n, run (fresh (List.replicate 512 .unknown)) opened = some n ∧
      n.filters.handlerOf shortLine = some .network ∧ ¬n.Harmless shortLine ∧
      n.filters.handlerOf quoteLine = some .network ∧ ¬n.Harmless quoteLine := by
  have harray : (List.replicate 512 Octet.unknown).length = 512 := List.length_replicate ..
  have hrun : run (fresh (List.replicate 512 .unknown)) opened = some _ := rfl
  have hshort : splitChar shortLine comma = [respNSONMI ++ [48], [53], [48, 49]] := by
    decide +kernel
  have hquote : splitChar quoteLine comma = [respNSONMI ++ [48], [49], [quote]] := by
    decide +kernel
  refine ⟨_, hrun, by decide +kernel, ?_, by decide +kernel, ?_⟩
  · exact not_harmless_of_more (filled_run (filled_fresh harray) hrun) hshort
      (by decide +kernel) (by decide +kernel) (by decide +kernel)
  · exact not_harmless_of_quotes hquote (by decide +kernel) (by decide +kernel) (by decide)
      (by simp)

end Bc95Network

end LibNbiot
