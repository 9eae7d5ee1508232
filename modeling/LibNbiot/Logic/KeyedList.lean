/-
# Lists with a key

A list that is searched by a key of its entries answers like a finite map as long
as no two entries share a key. The lemmas say which updates of the list keep the
keys apart, and what a search for the first entry of a key then finds.
-/

import Mathlib.Data.List.Nodup

namespace Logic

universe u v

variable {α : Type u} {κ : Type v} {key : α → κ} {l l' : List α} {a : α} {k : κ} {i : Nat}

/-- No two entries share a key. -/
def Keyed (key : α → κ) (l : List α) : Prop := (l.map key).Nodup

theorem map_key_modify {f : α → α} (h : ∀ a, l[i]? = some a → key (f a) = key a) :
    (l.modify i f).map key = l.map key := by
  apply List.ext_getElem?
  intro j
  rw [List.getElem?_map, List.getElem?_map, List.getElem?_modify]
  by_cases hij : i = j
  · subst hij
    cases ha : l[i]? with
    | none => simp
    | some a => simp [h a ha]
  · simp [hij]

namespace Keyed

theorem nil : Keyed key [] := List.nodup_nil

theorem of_keys (h : Keyed key l) (hkeys : l'.map key = l.map key) : Keyed key l' := by
  rw [Keyed, hkeys]
  exact h

theorem sublist (h : Keyed key l) (hl : l'.Sublist l) : Keyed key l' := List.Nodup.sublist (hl.map key) h

/-- An entry with a key of its own may be added. -/
theorem concat (h : Keyed key l) (ha : ∀ b ∈ l, key b ≠ key a) : Keyed key (l ++ [a]) := by
  rw [Keyed, List.map_append]
  apply List.Nodup.append h (List.nodup_singleton _)
  intro k hk hka
  obtain ⟨b, hb, rfl⟩ := List.mem_map.1 hk
  exact ha b hb (List.mem_singleton.1 hka)

theorem pairwise (h : Keyed key l) : l.Pairwise fun a b => key a ≠ key b := List.pairwise_map.1 h

/-- Entries at two places with one key are at one place. -/
theorem index_inj (h : Keyed key l) {j : Nat} {b : α} (ha : l[i]? = some a) (hb : l[j]? = some b)
    (hkey : key a = key b) : i = j := by
  obtain ⟨hi, rfl⟩ := List.getElem?_eq_some_iff.1 ha
  obtain ⟨hj, rfl⟩ := List.getElem?_eq_some_iff.1 hb
  have hi' : i < (l.map key).length := by simpa using hi
  have hj' : j < (l.map key).length := by simpa using hj
  have hsame : (l.map key)[i] = (l.map key)[j] := by simpa using hkey
  exact (List.Nodup.getElem_inj_iff h).1 hsame

/-- A search finds the place of the one entry with the key. -/
theorem findIdx?_eq_some_iff (h : Keyed key l) (p : α → Bool) (hp : ∀ a, p a = true ↔ key a = k) :
    l.findIdx? p = some i ↔ ∃ a, l[i]? = some a ∧ key a = k := by
  constructor
  · intro hfound
    obtain ⟨hi, ha, -⟩ := List.findIdx?_eq_some_iff_getElem.1 hfound
    exact ⟨l[i], List.getElem?_eq_getElem hi, (hp _).1 ha⟩
  · rintro ⟨a, ha, hkey⟩
    cases hfound : l.findIdx? p with
    | none =>
      have hno := List.findIdx?_eq_none_iff.1 hfound a (List.mem_of_getElem? ha)
      exact absurd ((hp a).2 hkey) (by simp [hno])
    | some j =>
      obtain ⟨hj, hb, -⟩ := List.findIdx?_eq_some_iff_getElem.1 hfound
      have hb' : l[j]? = some l[j] := List.getElem?_eq_getElem hj
      rw [h.index_inj hb' ha (((hp _).1 hb).trans hkey.symm)]

/-- A search finds the one entry with the key. -/
theorem find?_eq_some_iff (h : Keyed key l) (p : α → Bool) (hp : ∀ a, p a = true ↔ key a = k) :
    l.find? p = some a ↔ a ∈ l ∧ key a = k := by
  constructor
  · intro hfound
    exact ⟨List.mem_of_find?_eq_some hfound, (hp a).1 (List.find?_some hfound)⟩
  · rintro ⟨ha, hkey⟩
    cases hfound : l.find? p with
    | none => exact absurd ((hp a).2 hkey) (List.find?_eq_none.1 hfound a ha)
    | some b =>
      have hb := List.mem_of_find?_eq_some hfound
      have hkeyb := (hp b).1 (List.find?_some hfound)
      obtain ⟨i, hi⟩ := List.mem_iff_getElem?.1 ha
      obtain ⟨j, hj⟩ := List.mem_iff_getElem?.1 hb
      obtain rfl := h.index_inj hi hj (hkey.trans hkeyb.symm)
      rw [← hi, ← hj]

/-- A change of one entry leaves the entries of other keys. -/
theorem mem_modify_iff (h : Keyed key l) {b : α} (hb : l[i]? = some b) {f : α → α} :
    a ∈ l.modify i f ↔ a = f b ∨ a ∈ l ∧ key a ≠ key b := by
  constructor
  · intro ha
    obtain ⟨j, hj⟩ := List.mem_iff_getElem?.1 ha
    rw [List.getElem?_modify] at hj
    obtain ⟨c, hc, rfl⟩ := Option.map_eq_some_iff.1 hj
    by_cases hij : i = j
    · subst hij
      obtain rfl := Option.some.inj (hb.symm.trans hc)
      exact .inl (by rw [if_pos rfl])
    · rw [if_neg hij]
      exact .inr ⟨List.mem_of_getElem? hc, fun hkey => hij (h.index_inj hb hc hkey.symm)⟩
  · rintro (rfl | ⟨ha, hkey⟩)
    · refine List.mem_of_getElem? (i := i) ?_
      simp [hb]
    · obtain ⟨j, hj⟩ := List.mem_iff_getElem?.1 ha
      have hij : i ≠ j := by
        rintro rfl
        exact hkey (congrArg key (Option.some.inj (hj.symm.trans hb)))
      refine List.mem_of_getElem? (i := j) ?_
      simp [hj, hij]

/-- Erasing an entry keeps just the entries of other keys. -/
theorem eraseIdx_eq_filter [DecidableEq κ] (h : Keyed key l) {b : α} (hb : l[i]? = some b) :
    l.eraseIdx i = l.filter fun a => key a ≠ key b := by
  induction l generalizing i with
  | nil => rfl
  | cons c l ih =>
    have hrest : Keyed key l := h.sublist (List.sublist_cons_self c l)
    have hapart : ∀ a ∈ l, key c ≠ key a := fun a ha => (List.pairwise_cons.1 h.pairwise).1 a ha
    cases i with
    | zero =>
      obtain rfl := Option.some.inj hb
      have hall : ∀ a ∈ l, decide (key a ≠ key c) = true := fun a ha =>
        decide_eq_true (hapart a ha).symm
      rw [List.eraseIdx_zero, List.tail_cons, List.filter_cons_of_neg (by simp),
        List.filter_eq_self.2 hall]
    | succ i =>
      have hmem : b ∈ l := List.mem_of_getElem? hb
      rw [List.eraseIdx_cons_succ, List.filter_cons_of_pos (by simpa using hapart b hmem),
        ih hrest hb]

/-- Entries that share their key are one entry. -/
theorem map_key_eq_singleton (h : Keyed key l) (hkey : ∀ a ∈ l, key a = k) (hl : l ≠ []) :
    l.map key = [k] := by
  have hkeys : l.map key = List.replicate (l.map key).length k := by
    apply List.eq_replicate_of_mem
    intro b hb
    obtain ⟨a, ha, rfl⟩ := List.mem_map.1 hb
    exact hkey a ha
  have hone : (l.map key).length ≤ 1 := by
    rw [Keyed, hkeys] at h
    exact List.nodup_replicate.1 h
  have hpos : 0 < (l.map key).length := by
    rw [List.length_map]
    exact List.length_pos_of_ne_nil hl
  rw [hkeys, show (l.map key).length = 1 by omega]
  rfl

end Keyed

end Logic
