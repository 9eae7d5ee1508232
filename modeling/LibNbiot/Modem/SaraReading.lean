/-
# What reads of the SARA-N2xx count

A read adds up what the replies announce, and collects what they carry. The two
are kept apart here, reply by reply: a read counts what it delivers if every reply
carries what it adds to the count, and otherwise only if what some replies add too
much is what others add too little.
-/

import LibNbiot.Modem.Sara
import Mathlib.Algebra.BigOperators.Group.List.Basic

namespace LibNbiot

namespace SaraNetwork

variable {n : SaraNetwork} {model : SaraModel} {reqLen : Int} {timeout : Nat}

/-! ## Replies -/

/-- A reply that a read gets: the number of bytes that were asked for, what the read
adds to its count for it, and the number of bytes that it carries. -/
structure Reply where
  asked : Int
  counted : Int
  carried : Nat
  deriving DecidableEq, Repr

/-- All that is counted for some replies. -/
def counted (replies : List Reply) : Int := (replies.map (·.counted)).sum

/-- All bytes that some replies carry. -/
def carried (replies : List Reply) : Nat := (replies.map (·.carried)).sum

/-- The replies behind the loop: what the last one announces is counted also if it is
negative. -/
def lastReplies (model : SaraModel) (reqLen : Int) (last : Exchange) (n : SaraNetwork)
    (dgmLen : Nat) (bytes : Int) : Option (List Reply) :=
  if 0 < dgmLen ∧ bytes < reqLen then do
    let (rb, data, _) ← n.ipRead model (reqLen - bytes) last
    let _ ← addInt rb bytes
    return [⟨reqLen - bytes, rb, data.length⟩]
  else some []

/-- The replies of the loop, and behind it. -/
def loopReplies (model : SaraModel) (reqLen : Int) (timeout : Nat) (last : Exchange) :
    List AskingPass → SaraNetwork → Nat → Int → Option (List Reply)
  | [], n, dgmLen, bytes => lastReplies model reqLen last n dgmLen bytes
  | p :: passes, n, dgmLen, bytes =>
      if readInterval < min timeout p.remaining ∧ bytes < reqLen then
        let n := n.handleLines p.lines
        let dgmLen := n.ipAvailable
        if dgmLen = 0 then loopReplies model reqLen timeout last passes n 0 bytes
        else do
          let sum ← addInt dgmLen bytes
          if reqLen ≤ sum then lastReplies model reqLen last n dgmLen bytes
          else
            let (rb, data, n) ← n.ipRead model dgmLen p.answer
            let count ← countReply bytes rb
            let replies ← loopReplies model reqLen timeout last passes n dgmLen count
            return ⟨dgmLen, max 0 rb, data.length⟩ :: replies
      else lastReplies model reqLen last n dgmLen bytes

/-- The replies that a read gets, if all it does is defined. -/
def replies (n : SaraNetwork) (model : SaraModel) (len : Nat) (timeout : Nat) (first : Exchange)
    (passes : List AskingPass) (last : Exchange) : Option (List Reply) := do
  let (rb, data, n) ← n.ipRead model len first
  let count ← countReply 0 rb
  let replies ← loopReplies model len timeout last passes n 0 count
  return ⟨len, max 0 rb, data.length⟩ :: replies

/-- Data comes only with a reply that announces some, and no more than was asked for. -/
theorem takeReply_data {len rb : Int} {response data : Bytes} {n' : SaraNetwork}
    (h : n.takeReply model len response = some (rb, data, n')) (hdata : data ≠ []) :
    0 < rb ∧ rb ≤ len := by
  have none {avail : Int} {n₁ : SaraNetwork}
      (h : some (avail, ([] : Bytes), n₁) = some (rb, data, n')) : 0 < rb ∧ rb ≤ len := by
    cases h
    exact absurd rfl hdata
  unfold takeReply at h
  split at h
  · exact none h
  · split at h
    · split at h
      · dsimp only at h
        split at h
        · rename_i havail
          obtain ⟨bytes, -, hbytes⟩ := Option.map_eq_some_iff.1 h
          cases hbytes
          exact havail
        · exact none h
      · exact none h
    · exact none h

theorem ipRead_data {len rb : Int} {x : Exchange} {data : Bytes} {n' : SaraNetwork}
    (h : n.ipRead model len x = some (rb, data, n')) (hdata : data ≠ []) : 0 < rb ∧ rb ≤ len := by
  unfold ipRead at h
  obtain ⟨⟨rb, data, n₁⟩, htaken, hsame⟩ := Option.map_eq_some_iff.1 h
  cases hsame
  split at htaken
  · dsimp only at htaken
    split at htaken
    · exact takeReply_data htaken hdata
    · cases htaken
      exact absurd rfl hdata
  · cases htaken
    exact absurd rfl hdata

/-! ## A read is the sum of its replies -/

theorem addInt_eq_some {a b c : Int} :
    addInt a b = some c ↔ c = a + b ∧ -(2 ^ 31) ≤ a + b ∧ a + b < 2 ^ 31 := by
  rw [addInt]
  split
  · rename_i h
    rw [Option.some.injEq]
    exact ⟨fun hc => ⟨hc.symm, h⟩, fun hc => hc.1.symm⟩
  · rename_i h
    exact ⟨nofun, fun hc => absurd hc.2 h⟩

theorem countReply_eq {bytes rb count : Int} (h : countReply bytes rb = some count) :
    count = bytes + max 0 rb := by
  rw [countReply] at h
  split at h
  · have hsum := (addInt_eq_some.1 h).1
    omega
  · obtain rfl := Option.some.inj h
    omega

/-- What is counted and how many bytes there are, for the result of the rest. -/
def sums (result : Int × Bytes × SaraNetwork) : Int × Nat := (result.1, result.2.1.length)

/-- The same, from the replies that are still to come. -/
def sumsFrom (bytes : Int) (data : Nat) (replies : List Reply) : Int × Nat :=
  (bytes + counted replies, data + carried replies)

theorem sumsFrom_cons (bytes : Int) (data : Nat) (reply : Reply) (replies : List Reply) :
    sumsFrom bytes data (reply :: replies) =
      sumsFrom (bytes + reply.counted) (data + reply.carried) replies := by
  apply Prod.ext
  · simp only [sumsFrom, counted, List.map_cons, List.sum_cons]
    omega
  · simp only [sumsFrom, carried, List.map_cons, List.sum_cons]
    omega

theorem readRest_sums (model : SaraModel) (reqLen : Int) (last : Exchange) (r : Reading) :
    (readRest model reqLen last r).map sums =
      (lastReplies model reqLen last r.network r.dgmLen r.bytes).map
        (sumsFrom r.bytes r.data.length) := by
  unfold readRest lastReplies
  split
  · cases hask : r.network.ipRead model (reqLen - r.bytes) last with
    | none => rfl
    | some taken =>
      obtain ⟨rb, data, n⟩ := taken
      simp only [Option.bind_eq_bind, Option.bind_some]
      cases hadd : addInt rb r.bytes with
      | none => rfl
      | some rc =>
        have hrc : rc = rb + r.bytes := (addInt_eq_some.1 hadd).1
        simp [sums, sumsFrom, counted, carried, hrc, Int.add_comm]
  · simp [sums, sumsFrom, counted, carried]

/-- The loop and the rest, by induction on the passes: what is counted and obtained so far
is kept, and the replies add to it. -/
theorem readLoop_sums (last : Exchange) (passes : List AskingPass) (r : Reading) :
    ((readLoop model reqLen timeout passes r).bind (readRest model reqLen last)).map sums =
      (loopReplies model reqLen timeout last passes r.network r.dgmLen r.bytes).map
        (sumsFrom r.bytes r.data.length) := by
  induction passes generalizing r with
  | nil => exact readRest_sums model reqLen last r
  | cons p passes ih =>
    rw [readLoop, loopReplies]
    split
    · dsimp only
      split
      · exact ih { r with network := r.network.handleLines p.lines, dgmLen := 0 }
      · cases hsum : addInt (r.network.handleLines p.lines).ipAvailable r.bytes with
        | none => rfl
        | some sum =>
          simp only [Option.bind_eq_bind, Option.bind_some]
          split
          · exact readRest_sums model reqLen last _
          · cases hask : (r.network.handleLines p.lines).ipRead model
                (r.network.handleLines p.lines).ipAvailable p.answer with
            | none => rfl
            | some taken =>
              obtain ⟨rb, data, n⟩ := taken
              simp only [Option.bind_some]
              cases hcount : countReply r.bytes rb with
              | none => rfl
              | some count =>
                have hbytes := countReply_eq hcount
                simp only [Option.bind_some]
                rw [ih, List.length_append]
                cases loopReplies model reqLen timeout last passes n
                    (r.network.handleLines p.lines).ipAvailable count with
                | none => rfl
                | some later =>
                  simp only [Option.bind_some, Option.map_some, Option.pure_def, sumsFrom_cons,
                    hbytes]
    · exact readRest_sums model reqLen last r

/-- The result of a read and the number of bytes it has obtained are the sums over its
replies. -/
theorem read_sums (n : SaraNetwork) (model : SaraModel) (len timeout : Nat) (first : Exchange)
    (passes : List AskingPass) (last : Exchange) :
    (n.read model len timeout first passes last).map (fun a => (a.rc, a.data.length)) =
      (n.replies model len timeout first passes last).map fun replies =>
        (counted replies, carried replies) := by
  rw [read, if_neg (by omega), replies]
  cases n.ipRead model len first with
  | none => rfl
  | some taken =>
    obtain ⟨rb, data, n₁⟩ := taken
    simp only [Option.bind_eq_bind, Option.bind_some]
    cases hcount : countReply 0 rb with
    | none => rfl
    | some count =>
      have hbytes : count = max 0 rb := (countReply_eq hcount).trans (Int.zero_add _)
      have hloop : ((readLoop model len timeout passes ⟨n₁, 0, count, data⟩).bind
          (readRest model len last)).map sums =
            (loopReplies model len timeout last passes n₁ 0 count).map
              (sumsFrom count data.length) :=
        readLoop_sums last passes _
      simp only [Option.bind_some]
      rw [← Option.bind_assoc, Option.map_bind]
      have hanswer : (Option.map (fun a : ReadAnswer => (a.rc, a.data.length)) ∘
          fun x : Int × Bytes × SaraNetwork =>
            pure (⟨x.1, x.2.1, copyOut x.1 x.2.1, x.2.2⟩ : ReadAnswer)) = some ∘ sums := rfl
      rw [hanswer, ← Option.map_eq_bind, hloop]
      cases loopReplies model len timeout last passes n₁ 0 count with
      | none => rfl
      | some later =>
        have hsums := sumsFrom_cons 0 0 ⟨len, max 0 rb, data.length⟩ later
        simp only [sumsFrom, Int.zero_add, Nat.zero_add] at hsums
        simp only [Option.bind_some, Option.map_some, Option.pure_def, hsums, sumsFrom, hbytes]

/-- The buffer gets what is counted of what was obtained. -/
theorem read_written {len : Int} {first : Exchange} {passes : List AskingPass} {last : Exchange}
    {a : ReadAnswer} (h : n.read model len timeout first passes last = some a) :
    a.written = copyOut a.rc a.data := by
  rw [read] at h
  split at h
  · rename_i hneg
    obtain rfl := Option.some.inj h
    rfl
  · obtain ⟨_, -, h⟩ := Option.bind_eq_some_iff.1 h
    obtain ⟨_, -, h⟩ := Option.bind_eq_some_iff.1 h
    obtain ⟨_, -, h⟩ := Option.bind_eq_some_iff.1 h
    obtain ⟨_, -, h⟩ := Option.bind_eq_some_iff.1 h
    obtain rfl := Option.some.inj h
    rfl

/-! ## Reads that count what they deliver -/

/-- A result that is not negative is the number of bytes that were obtained and of those
that were written, and no more than was asked for; with a negative one nothing was
obtained. -/
structure Counts (len : Nat) (a : ReadAnswer) : Prop where
  obtained : 0 ≤ a.rc → a.rc = a.data.length
  written : 0 ≤ a.rc → a.rc = a.written.2
  bounded : a.rc ≤ len
  kept : a.rc < 0 → a.data = []

/-- The read is defined, and counts what it delivers. -/
def CountsDelivered (n : SaraNetwork) (model : SaraModel) (len timeout : Nat) (first : Exchange)
    (passes : List AskingPass) (last : Exchange) : Prop :=
  ∃ a, n.read model len timeout first passes last = some a ∧ Counts len a

/-- What a reply adds to the count beyond the bytes that it carries. -/
def Reply.excess (reply : Reply) : Int := reply.counted - reply.carried

/-- What some replies add too much and others too little cancels out, and no more comes in
than was asked for; or less than nothing is counted, and nothing comes in. -/
def Balanced (len : Nat) (replies : List Reply) : Prop :=
  (replies.map Reply.excess).sum = 0 ∧ carried replies ≤ len ∨
    counted replies < 0 ∧ carried replies = 0

theorem sum_excess (replies : List Reply) :
    (replies.map Reply.excess).sum = counted replies - carried replies := by
  induction replies with
  | nil => rfl
  | cons reply replies ih =>
    simp only [counted, carried, Reply.excess, List.map_cons, List.sum_cons] at ih ⊢
    omega

theorem counts_iff {len : Nat} {a : ReadAnswer} {replies : List Reply}
    (hwritten : a.written = copyOut a.rc a.data) (hrc : a.rc = counted replies)
    (hdata : a.data.length = carried replies) : Counts len a ↔ Balanced len replies := by
  have hexcess := sum_excess replies
  have hcount : a.written.2 = min a.rc.toNat a.data.length := by
    rw [hwritten, copyOut_count]
  have hnil : a.data = [] ↔ a.data.length = 0 := List.length_eq_zero_iff.symm
  constructor
  · intro h
    by_cases hneg : a.rc < 0
    · have hnone := hnil.1 (h.kept hneg)
      exact .inr ⟨by omega, by omega⟩
    · have hall := h.obtained (by omega)
      have hle := h.bounded
      exact .inl ⟨by omega, by omega⟩
  · rintro (⟨hsame, hle⟩ | ⟨hneg, hnone⟩)
    · exact ⟨fun _ => by omega, fun _ => by omega, by omega, fun h => by omega⟩
    · exact ⟨fun h => by omega, fun h => by omega, by omega, fun _ => hnil.2 (by omega)⟩

/-- For the replies that a read gets. -/
theorem countsDelivered_of_replies {len : Nat} {first : Exchange} {passes : List AskingPass}
    {last : Exchange} {replies : List Reply}
    (h : n.replies model len timeout first passes last = some replies) :
    n.CountsDelivered model len timeout first passes last ↔ Balanced len replies := by
  have hsums := n.read_sums model len timeout first passes last
  rw [h, Option.map_some, Option.map_eq_some_iff] at hsums
  obtain ⟨a, hread, hsame⟩ := hsums
  obtain ⟨hrc, hdata⟩ := Prod.ext_iff.1 hsame
  rw [← counts_iff (read_written hread) hrc hdata, CountsDelivered, hread]
  simp

/-- **A read counts what it delivers** exactly if all it does is defined and what its
replies add to the count and what they carry balance. -/
theorem countsDelivered_iff (n : SaraNetwork) (model : SaraModel) (len timeout : Nat)
    (first : Exchange) (passes : List AskingPass) (last : Exchange) :
    n.CountsDelivered model len timeout first passes last ↔
      ∃ replies, n.replies model len timeout first passes last = some replies ∧
        Balanced len replies := by
  cases h : n.replies model len timeout first passes last with
  | none =>
    have hsums := n.read_sums model len timeout first passes last
    rw [h, Option.map_none, Option.map_eq_none_iff] at hsums
    simp [CountsDelivered, hsums]
  | some replies =>
    rw [countsDelivered_of_replies h]
    simp

/-! ## Fair replies -/

/-- A reply that carries what it adds to the count adds no more than was asked for. -/
theorem ipRead_le {asked rb : Int} {x : Exchange} {data : Bytes} {n' : SaraNetwork}
    (h : n.ipRead model asked x = some (rb, data, n')) (hasked : 0 ≤ asked)
    (hfair : max 0 rb = data.length) : max 0 rb ≤ asked := by
  by_cases hdata : data = []
  · rw [hfair, hdata]
    exact hasked
  · have hrb := ipRead_data h hdata
    omega

theorem lastReplies_bounded {last : Exchange} {dgmLen : Nat} {bytes : Int} {replies : List Reply}
    (h : lastReplies model reqLen last n dgmLen bytes = some replies) (hbytes : bytes ≤ reqLen)
    (hfair : ∀ reply ∈ replies, reply.excess = 0) : bytes + counted replies ≤ reqLen := by
  unfold lastReplies at h
  split at h
  · obtain ⟨⟨rb, data, _⟩, hask, h⟩ := Option.bind_eq_some_iff.1 h
    obtain ⟨_, -, h⟩ := Option.bind_eq_some_iff.1 h
    obtain rfl := Option.some.inj h
    have hexcess : rb - data.length = 0 := hfair _ (List.mem_singleton_self _)
    have hle := ipRead_le hask (by omega) (by omega)
    simp only [counted, List.map_cons, List.map_nil, List.sum_cons, List.sum_nil]
    omega
  · obtain rfl := Option.some.inj h
    simpa [counted] using hbytes

/-- Nobody is asked for more than is missing, so fair replies bring no more. -/
theorem loopReplies_bounded {last : Exchange} {passes : List AskingPass} {dgmLen : Nat}
    {bytes : Int} {replies : List Reply}
    (h : loopReplies model reqLen timeout last passes n dgmLen bytes = some replies)
    (hbytes : bytes ≤ reqLen) (hfair : ∀ reply ∈ replies, reply.excess = 0) :
    bytes + counted replies ≤ reqLen := by
  induction passes generalizing n dgmLen bytes replies with
  | nil => exact lastReplies_bounded h hbytes hfair
  | cons p passes ih =>
    rw [loopReplies] at h
    split at h
    · dsimp only at h
      split at h
      · exact ih h hbytes hfair
      · obtain ⟨sum, hsum, h⟩ := Option.bind_eq_some_iff.1 h
        have hsum := (addInt_eq_some.1 hsum).1
        split at h
        · exact lastReplies_bounded h hbytes hfair
        · obtain ⟨⟨rb, data, n₁⟩, hask, h⟩ := Option.bind_eq_some_iff.1 h
          obtain ⟨count, hcount, h⟩ := Option.bind_eq_some_iff.1 h
          obtain ⟨later, hlater, h⟩ := Option.bind_eq_some_iff.1 h
          obtain rfl := Option.some.inj h
          obtain ⟨hthis, hthose⟩ := List.forall_mem_cons.1 hfair
          have hexcess : max 0 rb - data.length = 0 := hthis
          have hle := ipRead_le hask (by omega) (by omega)
          have hcount := countReply_eq hcount
          have hrest := ih hlater (by omega) hthose
          simp only [counted, List.map_cons, List.sum_cons] at hrest ⊢
          omega
    · exact lastReplies_bounded h hbytes hfair

/-- A read counts what it delivers if every reply carries what it adds to the count. -/
theorem countsDelivered_of_fair {len : Nat} {first : Exchange} {passes : List AskingPass}
    {last : Exchange} {replies : List Reply}
    (h : n.replies model len timeout first passes last = some replies)
    (hfair : ∀ reply ∈ replies, reply.excess = 0) :
    n.CountsDelivered model len timeout first passes last := by
  have hzero : (replies.map Reply.excess).sum = 0 := by
    apply List.sum_eq_zero
    intro excess hexcess
    obtain ⟨reply, hreply, rfl⟩ := List.mem_map.1 hexcess
    exact hfair reply hreply
  have hbounded : counted replies ≤ len := by
    obtain ⟨⟨rb, data, n₁⟩, hask, h⟩ := Option.bind_eq_some_iff.1 h
    obtain ⟨count, hcount, h⟩ := Option.bind_eq_some_iff.1 h
    obtain ⟨later, hlater, h⟩ := Option.bind_eq_some_iff.1 h
    obtain rfl := Option.some.inj h
    obtain ⟨hfirst, hlate⟩ := List.forall_mem_cons.1 hfair
    have hexcess : max 0 rb - data.length = 0 := hfirst
    have hle := ipRead_le hask (by omega) (by omega)
    have hcount := countReply_eq hcount
    have hrest := loopReplies_bounded hlater (by omega) hlate
    simp only [counted, List.map_cons, List.sum_cons] at hrest ⊢
    omega
  have hsum := sum_excess replies
  exact (countsDelivered_of_replies h).2 (.inl ⟨hzero, by omega⟩)

/-! ## A reply that does not come in -/

/-- `"+NSONMI:0,"`; a firmware puts a space behind the colon. -/
def nsonmi : SaraModel → Bytes
  | .b656 => [43, 78, 83, 79, 78, 77, 73, 58, 48, 44]
  | .b657sp3 => [43, 78, 83, 79, 78, 77, 73, 58, 32, 48, 44]

/-- An open socket. -/
def opened (model : SaraModel) : SaraNetwork :=
  { connectionNumber := 0, filters := [⟨nsonmi model, .network⟩] }

/-- `0,h,1,1,07,0`, or with quotes: one byte, and none remains. -/
def oneByte : SaraModel → Exchange
  | .b656 => { response := [48, 44, 104, 44, 49, 44, 49, 44, 48, 55, 44, 48] }
  | .b657sp3 =>
      { response := [48, 44, 34, 104, 34, 44, 49, 44, 49, 44, 34, 48, 55, 34, 44, 48] }

/-- The modem tells of one byte. -/
def told (model : SaraModel) : AskingPass := { remaining := 900, lines := [nsonmi model ++ [49]] }

/-- The modem does not answer. -/
def silent : Exchange := { ok := false }

example : ∀ model ∈ [.b656, .b657sp3],
    ((opened model).read model 2 1000 (oneByte model) [told model] (oneByte model)).map
      (fun a => (a.rc, a.data)) = some (2, [7, 7]) := by decide +kernel

/-- A count that is not that of the bytes which were obtained. -/
theorem not_countsDelivered_of_ne {len : Nat} {first : Exchange} {passes : List AskingPass}
    {last : Exchange} (h : (n.read model len timeout first passes last).any fun a =>
      decide (0 ≤ a.rc ∧ a.rc ≠ a.data.length)) :
    ¬n.CountsDelivered model len timeout first passes last := by
  rintro ⟨a, hread, hcounts⟩
  rw [hread] at h
  obtain ⟨hpos, hne⟩ := of_decide_eq_true h
  exact hne (hcounts.obtained hpos)

/-- The first byte has been obtained, and the count is taken down to zero again. -/
theorem not_countsDelivered_silent :
    ¬(opened .b656).CountsDelivered .b656 2 1000 (oneByte .b656) [told .b656] silent ∧
      ¬(opened .b657sp3).CountsDelivered .b657sp3 2 1000 (oneByte .b657sp3) [told .b657sp3]
        silent :=
  ⟨not_countsDelivered_of_ne (by decide +kernel), not_countsDelivered_of_ne (by decide +kernel)⟩

end SaraNetwork

end LibNbiot
