/-
# The filter of a socket

A socket that is connected has a filter for the lines that tell of its datagrams,
and one that is not has none. Connect adds the filter and disconnect removes it,
each by a text that is made from the number of the socket or kept beside it; so
the two stay in step as long as an answer to a connect does not change the number
of a socket that is open already. The BG96 needs in addition that the line that
tells of a new socket can be read.
-/

import LibNbiot.Modem.SocketSessions

namespace LibNbiot

open Logic

/-! ## Own filters -/

namespace UrcFilterList

/-- The names of the filters that lead to the socket. -/
def ownKeys (fs : UrcFilterList UrcHandler) : List Bytes :=
  (fs.filter fun f => f.handler = .network).map (·.key)

variable {fs : UrcFilterList UrcHandler} {urc : Bytes} {f : UrcFilter UrcHandler}

theorem mem_ownKeys {name : Bytes} :
    name ∈ ownKeys fs ↔ ∃ f ∈ fs, f.handler = .network ∧ f.key = name := by
  simp only [ownKeys, List.mem_map, List.mem_filter, decide_eq_true_eq, and_assoc]

theorem ownKeys_eq_nil : ownKeys fs = [] ↔ ∀ f ∈ fs, f.handler ≠ .network := by
  simp [ownKeys, List.filter_eq_nil_iff]

/-- Own filters that share their name are one filter. -/
theorem ownKeys_eq_singleton (h : Keyed UrcFilter.key fs) (hf : f ∈ fs)
    (hown : f.handler = .network)
    (hall : ∀ name ∈ ownKeys fs, name = f.key) : ownKeys fs = [f.key] := by
  apply (h.sublist List.filter_sublist).map_key_eq_singleton
  · intro g hg
    exact hall g.key (List.mem_map_of_mem hg)
  · exact List.ne_nil_of_mem (List.mem_filter.2 ⟨hf, decide_eq_true hown⟩)

/-- A filter is added beside none but those of the same name: it is the only one. -/
theorem addUrcFilter_own (h : Keyed UrcFilter.key fs) (hall : ∀ name ∈ ownKeys fs, name = cString urc) :
    ownKeys (addUrcFilter fs urc .network).2 = [cString urc] := by
  have hkeyed := addUrcFilter_keyed h urc .network
  unfold addUrcFilter at hkeyed ⊢
  split at hkeyed
  · rename_i hnone
    have hadded : (⟨urc, .network⟩ : UrcFilter UrcHandler) ∈ fs ++ [⟨urc, .network⟩] :=
      List.mem_append_right _ List.mem_cons_self
    apply ownKeys_eq_singleton hkeyed hadded rfl
    intro name hname
    obtain ⟨g, hg, hown, rfl⟩ := mem_ownKeys.1 hname
    obtain hold | hnew := List.mem_append.1 hg
    · exact hall _ (mem_ownKeys.2 ⟨g, hold, hown, rfl⟩)
    · rw [List.mem_singleton.1 hnew]
  · rename_i index hindex
    obtain ⟨f, hf, hkey⟩ := (indexOf_eq_some h).1 hindex
    have hmem : { f with handler := .network } ∈ fs.modify index ({ · with handler := .network }) := by
      apply List.mem_of_getElem? (i := index)
      simp [hf]
    rw [← hkey]
    apply ownKeys_eq_singleton hkeyed hmem rfl
    intro name hname
    obtain ⟨g, hg, hown, rfl⟩ := mem_ownKeys.1 hname
    obtain ⟨j, hj⟩ := List.mem_iff_getElem?.1 hg
    rw [List.getElem?_modify] at hj
    obtain ⟨g', hg', rfl⟩ := Option.map_eq_some_iff.1 hj
    by_cases hsame : index = j
    · subst hsame
      obtain rfl := Option.some.inj (hf.symm.trans hg')
      simp [UrcFilter.key]
    · simp only [hsame, if_false] at hown ⊢
      exact (hall _ (mem_ownKeys.2 ⟨g', List.mem_of_getElem? hg', hown, rfl⟩)).trans hkey.symm

/-- The filter of the name is the only one, and it is removed. -/
theorem removeUrcFilter_own (h : Keyed UrcFilter.key fs)
    (hall : ∀ name ∈ ownKeys fs, name = cString urc) : ownKeys (removeUrcFilter fs urc).2 = [] := by
  apply ownKeys_eq_nil.2
  intro f hf hown
  have hmem := removeUrcFilter_sublist.subset hf
  have hkey := hall _ (mem_ownKeys.2 ⟨f, hmem, hown, rfl⟩)
  unfold removeUrcFilter at hf
  split at hf
  · rename_i index hindex
    obtain ⟨g, hg, hgkey⟩ := (indexOf_eq_some h).1 hindex
    obtain ⟨j, hne, hj⟩ := List.mem_eraseIdx_iff_getElem?.1 hf
    exact hne (h.index_inj hj hg (hkey.trans hgkey.symm))
  · rename_i hnone
    exact indexOf_eq_none.1 hnone f hmem hkey

end UrcFilterList

/-! ## The BC95 -/

namespace Bc95Network

open UrcFilterList

/-- The name of the filter for the socket of a number. -/
def receiveUrc (number : Int) : Bytes := printf (respNSONMI ++ printInt number ++ [comma])

/-- **The filter is in step**: a socket that is connected has the filter of its number
and no other; one that is not has none. -/
def InStep (n : Bc95Network) : Prop :=
  ownKeys n.filters = if n.isConnected then [cString (receiveUrc n.connectionNumber)] else []

instance (n : Bc95Network) : Decidable n.InStep := inferInstanceAs (Decidable (_ = _))

/-- A connect that is answered while a socket is open gives that socket again. -/
def sameSocket (n : Bc95Network) : Call → Bool
  | .connect _ _ x => !n.isConnected || !(x.sent && x.ok) || atoi x.response = n.connectionNumber
  | _ => true

/-- Every connect of a run does. -/
def steady : Bc95Network → List Call → Bool
  | _, [] => true
  | n, call :: calls => n.sameSocket call && (n.exec call).all (steady · calls)

/-- What the filter has to do with the number, and the text that is kept to remove it. -/
structure Listens (n : Bc95Network) : Prop where
  keyed : Keyed UrcFilter.key n.filters
  inStep : n.InStep
  kept : n.isConnected = true → n.nsonmi = receiveUrc n.connectionNumber
  bounded : n.connectionNumber < maxSocket

variable {n n' : Bc95Network}

/-- The filters and the number stay as they are. -/
structure Keeps (n n' : Bc95Network) : Prop where
  filters : n'.filters = n.filters
  connectionNumber : n'.connectionNumber = n.connectionNumber
  nsonmi : n'.nsonmi = n.nsonmi

theorem Keeps.trans {n'' : Bc95Network} (h : Keeps n n') (h' : Keeps n' n'') : Keeps n n'' :=
  ⟨h'.filters.trans h.filters, h'.connectionNumber.trans h.connectionNumber,
    h'.nsonmi.trans h.nsonmi⟩

theorem Frame.keeps (h : Frame n n') : Keeps n n' := ⟨h.filters, h.connectionNumber, h.nsonmi⟩

theorem write_keeps {data : Bytes} {x : Exchange} {ret : Bool}
    (hn : n.write data x = some (ret, n')) : Keeps n n' := by
  obtain ⟨n₁, hsend, hn⟩ := Option.bind_eq_some_iff.1 hn
  obtain ⟨n₂, hlines, hn⟩ := Option.bind_eq_some_iff.1 hn
  obtain ⟨-, rfl⟩ := Prod.mk.inj (Option.some.inj hn)
  apply Keeps.trans _ (handleLines_frame hlines).keeps
  have hsame : Keeps n n := ⟨rfl, rfl, rfl⟩
  unfold sendData at hsend
  split at hsend
  · dsimp only at hsend
    split at hsend
    · have hsent := (handleLines_frame hsend).keeps
      exact ⟨hsent.filters, hsent.connectionNumber, hsent.nsonmi⟩
    · obtain rfl := Option.some.inj hsend
      exact ⟨rfl, rfl, rfl⟩
  · obtain rfl := Option.some.inj hsend
    exact hsame

theorem readLoop_keeps {reqLen timeout : Nat} {passes : List Pass} {r r' : Reading}
    (hr : readLoop reqLen timeout passes r = some r') : Keeps r.network r'.network := by
  induction passes generalizing r with
  | nil =>
    obtain rfl := Option.some.inj hr
    exact ⟨rfl, rfl, rfl⟩
  | cons p passes ih =>
    rw [readLoop] at hr
    split at hr
    · obtain ⟨n, hlines, hr⟩ := Option.bind_eq_some_iff.1 hr
      have hkeeps := (handleLines_frame hlines).keeps
      dsimp only at hr
      split at hr
      · exact hkeeps.trans (ih hr)
      · split at hr
        · obtain rfl := Option.some.inj hr
          exact hkeeps
        · exact (hkeeps.trans (takeBytes_frame _ n).1.keeps).trans (ih hr)
    · obtain rfl := Option.some.inj hr
      exact ⟨rfl, rfl, rfl⟩

theorem read_keeps {len : Int} {timeout : Nat} {passes : List Pass} {rc : Int}
    {octets : List Octet} (hn : n.read len timeout passes = some (rc, octets, n')) :
    Keeps n n' := by
  unfold read at hn
  split at hn
  · cases hn
    exact ⟨rfl, rfl, rfl⟩
  · obtain ⟨r, hr, hn⟩ := Option.bind_eq_some_iff.1 hn
    have hrest : Keeps r.network (readRest len.toNat r).2 := by
      unfold readRest
      split
      · have htaken := (takeBytes_frame (len.toNat - r.data.length) { r.network with
          history := r.network.history.log (.lastBytes r.dgmLen (len.toNat - r.data.length)) }).1
        exact ⟨htaken.filters, htaken.connectionNumber, htaken.nsonmi⟩
      · exact ⟨rfl, rfl, rfl⟩
    have hkeeps := (readLoop_keeps hr).trans hrest
    cases hn
    exact ⟨hkeeps.filters, hkeeps.connectionNumber, hkeeps.nsonmi⟩

namespace Listens

/-- Nothing else matters. -/
theorem keeps (h : n.Listens) (hk : Keeps n n') : n'.Listens := by
  obtain ⟨hfilters, hnumber, hnsonmi⟩ := hk
  refine ⟨hfilters ▸ h.keyed, ?_, fun hconnected => ?_, hnumber ▸ h.bounded⟩
  · have hstep := h.inStep
    rw [InStep, isConnected] at hstep ⊢
    rw [hfilters, hnumber]
    exact hstep
  · rw [hnsonmi, hnumber]
    rw [isConnected, hnumber] at hconnected
    exact h.kept hconnected

theorem connect (h : n.Listens) {x : Exchange} {ret : Bool} {n₁ : Bc95Network}
    (hc : Connects x ret n n₁ n')
    (hsame : n.isConnected = true → x.sent = true → x.ok = true →
      atoi x.response = n.connectionNumber) : n'.Listens := by
  have hstep := h.inStep
  have hafter := hc.after
  cases ret with
  | true =>
    rw [if_pos rfl] at hafter
    obtain ⟨hsent, hok, hnumber, hpos, hbound⟩ := hc.assigns.opened rfl
    have hall : ∀ name ∈ ownKeys n₁.filters, name = cString (receiveUrc n₁.connectionNumber) := by
      intro name hname
      rw [hc.filters, hstep] at hname
      split at hname
      · rename_i hconnected
        rw [hnumber, hsame hconnected hsent hok]
        exact List.mem_singleton.1 hname
      · exact absurd hname List.not_mem_nil
    have hkeyed : Keyed UrcFilter.key n₁.filters := hc.filters ▸ h.keyed
    have hconnected : (n₁.listen n.buffer.size).isConnected = true := decide_eq_true hpos
    rw [hafter]
    refine ⟨addUrcFilter_keyed hkeyed _ .network, ?_, fun _ => rfl, hbound⟩
    rw [InStep, hconnected]
    exact addUrcFilter_own hkeyed hall
  | false =>
    rw [if_neg Bool.false_ne_true] at hafter
    rw [hafter]
    obtain hnumber | ⟨hsent, hok, hno, hclosed⟩ := hc.assigns.failed rfl
    · exact h.keeps ⟨hc.filters, hnumber, hc.nsonmi⟩
    · -- the answer gives no socket, so there was none
      have hwas : n.isConnected = false := by
        apply Bool.eq_false_iff.2
        intro hconnected
        rw [hsame hconnected hsent hok] at hno
        exact hno ⟨of_decide_eq_true hconnected, h.bounded⟩
      have hnow : n₁.isConnected = false := by
        rw [isConnected, hclosed]
        rfl
      refine ⟨hc.filters ▸ h.keyed, ?_, fun hconnected => ?_, ?_⟩
      · rw [InStep, hnow, hc.filters, hstep, hwas]
        rfl
      · rw [hnow] at hconnected
        cases hconnected
      · rw [hclosed]
        decide

theorem disconnect (h : n.Listens) {x : Exchange} {ret : Bool} {n₁ : Bc95Network}
    (hd : Disconnects x ret n n₁ n') : n'.Listens := by
  have hasked : n₁.Listens := h.keeps ⟨hd.filters, hd.connectionNumber, hd.nsonmi⟩
  apply Listens.keeps _ hd.after.1.keeps
  cases ret with
  | true =>
    rw [if_pos rfl]
    have hstep := hasked.inStep
    have hnone : ownKeys n₁.forgetSocket.filters = [] := by
      change ownKeys (removeUrcFilter n₁.filters n₁.nsonmi).2 = []
      by_cases hconnected : n₁.isConnected = true
      · rw [InStep, if_pos hconnected] at hstep
        apply removeUrcFilter_own hasked.keyed
        intro name hname
        rw [hstep] at hname
        rw [hasked.kept hconnected]
        exact List.mem_singleton.1 hname
      · rw [InStep, if_neg hconnected] at hstep
        apply ownKeys_eq_nil.2
        intro f hf
        exact ownKeys_eq_nil.1 hstep f (removeUrcFilter_sublist.subset hf)
    refine ⟨hasked.keyed.sublist removeUrcFilter_sublist, ?_, nofun, ?_⟩
    · rw [InStep, hnone]
      rfl
    · change (-1 : Int) < maxSocket
      decide
  | false =>
    rw [if_neg Bool.false_ne_true]
    exact hasked

theorem exec (h : n.Listens) {call : Call} (hn : n.exec call = some n')
    (hsame : n.sameSocket call = true) : n'.Listens := by
  cases call with
  | connect hostname port x =>
    obtain ⟨⟨ret, n₂⟩, hconnect, rfl⟩ := Option.map_eq_some_iff.1 hn
    obtain ⟨n₁, hconnects⟩ := connect_connects hconnect
    apply h.connect hconnects
    intro hconnected hsent hok
    simpa [sameSocket, hconnected, hsent, hok] using hsame
  | disconnect x =>
    obtain ⟨⟨ret, n₂⟩, hdisconnect, rfl⟩ := Option.map_eq_some_iff.1 hn
    obtain ⟨n₁, hdisconnects⟩ := disconnect_disconnects hdisconnect
    exact h.disconnect hdisconnects
  | write data x =>
    obtain ⟨⟨ret, n₂⟩, hwrite, rfl⟩ := Option.map_eq_some_iff.1 hn
    exact h.keeps (write_keeps hwrite)
  | read len timeout passes =>
    obtain ⟨⟨rc, octets, n₂⟩, hread, rfl⟩ := Option.map_eq_some_iff.1 hn
    exact h.keeps (read_keeps hread)
  | urc lines => exact h.keeps (handleLines_frame hn).keeps

/-- A run keeps them together. -/
theorem run {calls : List Call} (h : n.Listens) (hsteady : n.steady calls = true)
    (hn : n.run calls = some n') : n'.Listens := by
  induction calls generalizing n with
  | nil =>
    obtain rfl := Option.some.inj hn
    exact h
  | cons call calls ih =>
    rw [Bc95Network.run, List.foldlM_cons] at hn
    obtain ⟨n₁, hn₁, hn⟩ := Option.bind_eq_some_iff.1 hn
    rw [steady, hn₁, Bool.and_eq_true] at hsteady
    exact ih (h.exec hn₁ hsteady.1) hsteady.2 hn

end Listens

end Bc95Network

/-! ## The BG96 -/

namespace Bg96Network

open UrcFilterList

/-- The name of the filter, which is the same for every socket. -/
def receiveUrc : Bytes := printf respQIURCrecv

/-- **The filter is in step**: a socket that is connected has its filter; one that is
not has none. -/
def InStep (n : Bg96Network) : Prop :=
  ownKeys n.filters = if n.isConnected then [cString receiveUrc] else []

instance (n : Bg96Network) : Decidable n.InStep := inferInstanceAs (Decidable (_ = _))

/-- The line that tells of a new socket can be read; if there is a socket already, it
does not tell of a number below zero. -/
def readableAnswer (n : Bg96Network) : Call → Bool
  | .connect _ _ x => !(x.sent && x.ok && x.opened) ||
      if n.isConnected then 0 ≤ (openedNumber x.response).getD 0
      else (openedNumber x.response).isSome
  | _ => true

/-- All lines of a run can be read. -/
def steady : Bg96Network → List Call → Bool
  | _, [] => true
  | n, call :: calls => n.readableAnswer call && (n.exec call).steady calls

/-- What the filter has to do with the number. -/
structure Listens (n : Bg96Network) : Prop where
  keyed : Keyed UrcFilter.key n.filters
  inStep : n.InStep

variable {n n' : Bg96Network}

namespace Listens

theorem of_eq (h : n.Listens) (hfilters : n'.filters = n.filters)
    (hconnected : n'.isConnected = n.isConnected) : n'.Listens := by
  refine ⟨hfilters ▸ h.keyed, ?_⟩
  rw [InStep, hfilters, hconnected]
  exact h.inStep

theorem collects (h : n.Listens) (hc : Collects n n') : n'.Listens :=
  h.of_eq hc.filters (by rw [isConnected, hc.connectionNumber]; rfl)

theorem own (h : n.Listens) : ∀ name ∈ ownKeys n.filters, name = cString receiveUrc := by
  intro name hname
  rw [h.inStep] at hname
  split at hname
  · exact List.mem_singleton.1 hname
  · exact absurd hname List.not_mem_nil

/-- The filter is added where there may be one already. -/
theorem listen (h : n.Listens) {n₁ : Bg96Network} (hfilters : n₁.filters = n.filters)
    (hpos : 0 ≤ n₁.connectionNumber) (waiting : Nat) : (n₁.listen waiting).Listens := by
  have hall := h.own
  have hkeyed := h.keyed
  rw [← hfilters] at hall hkeyed
  have hconnected : (n₁.listen waiting).isConnected = true := decide_eq_true hpos
  refine ⟨addUrcFilter_keyed hkeyed _ .network, ?_⟩
  rw [InStep, hconnected]
  exact addUrcFilter_own hkeyed hall

theorem connect (h : n.Listens) {x : OpenExchange} {ret : Bool} {n₁ : Bg96Network}
    (hc : Connects x ret n n₁ n')
    (hreadable : x.sent = true ∧ x.ok = true ∧ x.opened = true →
      if n.isConnected then 0 ≤ (openedNumber x.response).getD 0
      else (openedNumber x.response).isSome = true) : n'.Listens := by
  have hafter := hc.after
  by_cases hanswer : x.sent = true ∧ x.ok = true ∧ x.opened = true
  · have hanswered := hc.answered hanswer
    have hreadable := hreadable hanswer
    dsimp only at hanswered
    cases hfound : openedNumber x.response with
    | some number =>
      rw [hfound, Option.getD_some] at hanswered
      rw [hfound] at hreadable
      by_cases hpos : 0 ≤ number
      · rw [if_pos hpos] at hanswered
        rw [hanswered.1] at hafter
        rw [hafter]
        exact h.listen hc.filters (hanswered.2 ▸ hpos) _
      · -- the number is below zero, so there was no socket
        rw [if_neg hpos] at hanswered
        rw [hanswered.1] at hafter
        rw [hafter]
        apply h.of_eq hc.filters
        split at hreadable
        · exact absurd hreadable hpos
        · rename_i hclosed
          rw [Bool.not_eq_true] at hclosed
          rw [hclosed]
          exact decide_eq_false (by rw [hanswered.2]; decide)
    | none =>
      -- the number is counted on, so there must be a socket
      rw [hfound, Option.getD_none] at hanswered
      rw [hfound] at hreadable
      split at hreadable
      · rename_i hconnected
        have hpos : 0 ≤ n.connectionNumber := of_decide_eq_true hconnected
        rw [if_pos (by omega)] at hanswered
        rw [hanswered.1] at hafter
        rw [hafter]
        apply h.of_eq hc.filters
        rw [hconnected]
        apply decide_eq_true
        rw [hanswered.2]
        omega
      · cases hreadable
  · obtain ⟨hret, hnumber⟩ := hc.unanswered hanswer
    rw [hret] at hafter
    rw [hafter]
    exact h.of_eq hc.filters (by rw [isConnected]; exact congrArg (fun k => decide (0 ≤ k)) hnumber)

theorem disconnect (h : n.Listens) {x : Exchange} {ret : Bool} {n₁ : Bg96Network}
    (hd : Disconnects x ret n n₁ n') : n'.Listens := by
  have hasked : n₁.Listens := h.collects hd.before
  apply Listens.collects _ hd.after
  cases ret with
  | true =>
    rw [if_pos rfl]
    have hnone : ownKeys n₁.forgetSocket.filters = [] :=
      removeUrcFilter_own hasked.keyed hasked.own
    refine ⟨hasked.keyed.sublist removeUrcFilter_sublist, ?_⟩
    rw [InStep, hnone]
    rfl
  | false =>
    rw [if_neg Bool.false_ne_true]
    exact hasked

theorem exec (h : n.Listens) {call : Call} (hreadable : n.readableAnswer call = true) :
    (n.exec call).Listens := by
  cases call with
  | connect hostname port x =>
    obtain ⟨n₁, hconnects⟩ := n.connect_connects hostname port x
    apply h.connect hconnects
    rintro ⟨hsent, hok, hopened⟩
    simpa [readableAnswer, hsent, hok, hopened] using hreadable
  | disconnect x =>
    obtain ⟨n₁, hdisconnects⟩ := n.disconnect_disconnects x
    exact h.disconnect hdisconnects
  | write data x => exact h.collects (n.write_collects data x)
  | read len timeout first passes =>
    obtain ⟨n₁, hcollects, hn | ⟨count, hn⟩⟩ := n.read_reads len timeout first passes
    · rw [Bg96Network.exec, hn]
      exact h.collects hcollects
    · obtain ⟨hfilters, hnumber, -⟩ := n₁.serve_frame count
      rw [Bg96Network.exec, hn]
      refine (h.collects hcollects).of_eq hfilters ?_
      exact congrArg (fun k => decide (0 ≤ k)) hnumber
  | urc lines => exact h.collects (n.handleLines_collects lines)

/-- A run keeps them together. -/
theorem run (h : n.Listens) {calls : List Call} (hsteady : n.steady calls = true) :
    (n.run calls).Listens := by
  induction calls generalizing n with
  | nil => exact h
  | cons call calls ih =>
    rw [steady, Bool.and_eq_true] at hsteady
    exact ih (h.exec hsteady.1) hsteady.2

end Listens

end Bg96Network

/-! ## Both -/

/-- **The filters are in step** after every run in which a connect that is answered
while a socket is open does not change its number and the BG96 can read the lines
that tell of new sockets, whatever filters others have added before. -/
theorem filters_in_step {others : UrcFilterList UrcHandler} (hkeyed : Keyed UrcFilter.key others)
    (hothers : ∀ f ∈ others, f.handler ≠ .network) (array readArray : List Octet)
    (calls : List Bc95Network.Call) (readCalls : List Bg96Network.Call) :
    (({ Bc95Network.fresh array with filters := others } : Bc95Network).steady calls = true →
      ∀ n, ({ Bc95Network.fresh array with filters := others } : Bc95Network).run calls = some n →
        n.InStep) ∧
      (({ Bg96Network.fresh readArray with filters := others } : Bg96Network).steady readCalls = true →
        (({ Bg96Network.fresh readArray with filters := others } : Bg96Network).run
          readCalls).InStep) := by
  have hnone : UrcFilterList.ownKeys others = [] := UrcFilterList.ownKeys_eq_nil.2 hothers
  constructor
  · intro hsteady n hn
    have hfresh : ({ Bc95Network.fresh array with filters := others } : Bc95Network).Listens :=
      ⟨hkeyed, hnone, nofun, show (-1 : Int) < 7 by decide⟩
    exact (hfresh.run hsteady hn).inStep
  · intro hsteady
    have hfresh : ({ Bg96Network.fresh readArray with filters := others } : Bg96Network).Listens :=
      ⟨hkeyed, hnone⟩
    exact (hfresh.run hsteady).inStep

/-- Nobody else has a filter; both sockets are opened, closed and opened again. -/
theorem filters_in_step_reopened :
    (({ Bc95Network.fresh [] with filters := [] } : Bc95Network).steady
        [.connect [104] 1883 { response := [48] }, .disconnect {},
          .connect [104] 1883 { response := [49] }] = true →
      ∀ n, ({ Bc95Network.fresh [] with filters := [] } : Bc95Network).run
          [.connect [104] 1883 { response := [48] }, .disconnect {},
            .connect [104] 1883 { response := [49] }] = some n → n.InStep) ∧
      (({ Bg96Network.fresh [] with filters := [] } : Bg96Network).steady
          [.connect [104] 1883 { response := [43, 58, 32, 48, 44, 48] }, .disconnect {}] = true →
        (({ Bg96Network.fresh [] with filters := [] } : Bg96Network).run
          [.connect [104] 1883 { response := [43, 58, 32, 48, 44, 48] }, .disconnect {}]).InStep) :=
  filters_in_step Keyed.nil (fun _ hf => absurd hf List.not_mem_nil) [] [] _ _

/-- A second connect is answered with another socket: the filter of the first one stays
beside that of the second, and is there after a disconnect still. -/
theorem not_in_step_twice :
    (∃ n, Bc95Network.run (.fresh []) [.connect [104] 1883 { response := [48] },
        .connect [104] 1883 { response := [49] }] = some n ∧ n.connectionNumber = 1 ∧
      UrcFilterList.ownKeys n.filters =
        [cString (Bc95Network.receiveUrc 0), cString (Bc95Network.receiveUrc 1)] ∧ ¬n.InStep) ∧
    ∃ n, Bc95Network.run (.fresh []) [.connect [104] 1883 { response := [48] },
        .connect [104] 1883 { response := [49] }, .disconnect {}] = some n ∧
      n.isConnected = false ∧
      UrcFilterList.ownKeys n.filters = [cString (Bc95Network.receiveUrc 0)] ∧ ¬n.InStep := by
  refine ⟨⟨_, rfl, ?_⟩, _, rfl, ?_⟩
  · decide +kernel
  · decide +kernel

/-- A line that cannot be read leaves a socket without a filter. -/
example : ¬(Bg96Network.run (.fresh []) [.connect [104] 1883 { response := [48] }]).InStep := by
  decide +kernel

end LibNbiot
