/-
# Splitting at separators

A list is free of a separator, or it is a piece without one, the separator and a
rest. This is the induction that facts about the pieces of a list go by. Behind it
a list is cut at every separator, with the separators kept as pieces of their own:
nothing is lost, and no piece mixes the two.
-/

import Mathlib.Data.List.Basic

namespace Logic

universe u

variable {α : Type u} {a : α}

/-- A list is one piece, or a piece that ends with a separator and a rest. -/
theorem split_cases (a : α) (l : List α) :
    a ∉ l ∨ ∃ piece rest, a ∉ piece ∧ l = piece ++ a :: rest := by
  by_cases h : a ∈ l
  · obtain ⟨piece, rest, hl, hpiece⟩ := List.eq_append_cons_of_mem h
    exact .inr ⟨piece, rest, hpiece, hl⟩
  · exact .inl h

/-- Induction on the pieces of a list. -/
theorem split_induction {P : List α → Prop} (last : ∀ l, a ∉ l → P l)
    (cut : ∀ piece rest, a ∉ piece → P rest → P (piece ++ a :: rest)) (l : List α) : P l := by
  induction hn : l.length using Nat.strongRecOn generalizing l with
  | ind n ih =>
    obtain h | ⟨piece, rest, hpiece, rfl⟩ := split_cases a l
    · exact last l h
    · refine cut piece rest hpiece (ih rest.length ?_ rest rfl)
      rw [List.length_append, List.length_cons] at hn
      omega

/-! ## Everything in front of an element -/

/-- What holds of every element and what is in front of it, with another one behind. -/
theorem forall_split_concat {P : List α → α → Prop} {l : List α} {b : α} :
    (∀ front c rest, l ++ [b] = front ++ c :: rest → P front c) ↔
      (∀ front c rest, l = front ++ c :: rest → P front c) ∧ P l b := by
  constructor
  · intro h
    refine ⟨fun front c rest hl => h front c (rest ++ [b]) ?_, h l b [] rfl⟩
    rw [hl, List.append_assoc, List.cons_append]
  · rintro ⟨hold, hlast⟩ front c rest hl
    obtain rfl | ⟨rest, last, rfl⟩ := List.eq_nil_or_concat rest
    · obtain ⟨rfl, hc⟩ := List.append_inj' hl rfl
      obtain rfl := (List.cons.inj hc).1
      exact hlast
    · rw [List.concat_eq_append, ← List.cons_append, ← List.append_assoc] at hl
      exact hold front c rest (List.append_inj' hl rfl).1

/-- The same for one element, wherever it is. -/
theorem forall_split_at_concat {P : List α → Prop} {l : List α} {b : α} :
    (∀ front rest, l ++ [b] = front ++ a :: rest → P front) ↔
      (∀ front rest, l = front ++ a :: rest → P front) ∧ (b = a → P l) := by
  have hall (l : List α) : (∀ front rest, l = front ++ a :: rest → P front) ↔
      ∀ front c rest, l = front ++ c :: rest → c = a → P front := by
    constructor
    · rintro h front c rest hl rfl
      exact h front rest hl
    · intro h front rest hl
      exact h front a rest hl rfl
  rw [hall, hall, forall_split_concat]

/-! ## Cutting at every separator -/

/-- A run is a piece unless it is empty. -/
def piece (run : List α) : List (List α) := if run.isEmpty then [] else [run]

/-- The runs between separators and the separators, each a piece; `run` has been
read since the last separator. -/
def cuts (isSep : α → Bool) : List α → List α → List (List α)
  | run, [] => piece run
  | run, c :: l =>
      if isSep c then piece run ++ [c] :: cuts isSep [] l else cuts isSep (run ++ [c]) l

/-- The piece is a separator. -/
def isCut (isSep : α → Bool) : List α → Bool
  | [c] => isSep c
  | _ => false

variable {isSep : α → Bool} {run : List α}

/-- No separator is in the list. -/
def Free (isSep : α → Bool) (l : List α) : Prop := ∀ c ∈ l, isSep c = false

theorem free_nil : Free isSep [] := nofun

theorem Free.snoc (h : Free isSep run) {c : α} (hc : isSep c = false) :
    Free isSep (run ++ [c]) := by
  intro d hd
  rcases List.mem_append.1 hd with hd | hd
  · exact h d hd
  · rw [List.mem_singleton.1 hd]
    exact hc

theorem Free.isCut_eq (h : Free isSep run) : isCut isSep run = false := by
  unfold isCut
  split
  · exact h _ List.mem_cons_self
  · rfl

theorem piece_nil : piece ([] : List α) = [] := rfl

theorem piece_of_ne_nil (h : run ≠ []) : piece run = [run] := by
  rw [piece, if_neg (by simpa using h)]

theorem flatten_piece (run : List α) : (piece run).flatten = run := by
  cases run <;> simp [piece]

theorem filter_piece (h : Free isSep run) :
    (piece run).filter (fun p => !isCut isSep p) = piece run := by
  rw [List.filter_eq_self]
  intro p hp
  cases run with
  | nil => cases hp
  | cons c run =>
    rw [piece_of_ne_nil (List.cons_ne_nil _ _), List.mem_singleton] at hp
    rw [hp, h.isCut_eq]
    rfl

/-- Nothing is lost. -/
theorem flatten_cuts (isSep : α → Bool) (run l : List α) :
    (cuts isSep run l).flatten = run ++ l := by
  induction l generalizing run with
  | nil => rw [cuts, flatten_piece, List.append_nil]
  | cons c l ih =>
    rw [cuts]
    split
    · rw [List.flatten_append, List.flatten_cons, flatten_piece, ih]
      rfl
    · rw [ih, List.append_assoc]
      rfl

/-- A piece is a separator, or a run without one. -/
theorem mem_cuts (hrun : Free isSep run) {l p : List α} (hp : p ∈ cuts isSep run l) :
    (∃ c, isSep c = true ∧ p = [c]) ∨ (p ≠ [] ∧ Free isSep p) := by
  have hpiece {run : List α} (hrun : Free isSep run) (hp : p ∈ piece run) :
      p ≠ [] ∧ Free isSep p := by
    cases run with
    | nil => cases hp
    | cons c run =>
      rw [piece_of_ne_nil (List.cons_ne_nil _ _), List.mem_singleton] at hp
      subst hp
      exact ⟨List.cons_ne_nil _ _, hrun⟩
  induction l generalizing run with
  | nil => exact .inr (hpiece hrun hp)
  | cons c l ih =>
    rw [cuts] at hp
    split at hp
    · rename_i hc
      rcases List.mem_append.1 hp with hp | hp
      · exact .inr (hpiece hrun hp)
      · rcases List.mem_cons.1 hp with rfl | hp
        · exact .inl ⟨c, hc, rfl⟩
        · exact ih free_nil hp
    · rename_i hc
      exact ih (hrun.snoc (by simpa using hc)) hp

/-- Without separators nothing is cut. -/
theorem cuts_of_free {l : List α} (hl : Free isSep l) (run : List α) :
    cuts isSep run l = piece (run ++ l) := by
  induction l generalizing run with
  | nil => rw [cuts, List.append_nil]
  | cons c l ih =>
    have hc : ¬isSep c = true := by simp [hl c List.mem_cons_self]
    rw [cuts, if_neg hc, ih (fun d hd => hl d (List.mem_cons_of_mem _ hd)), List.append_assoc]
    rfl

/-- The first separator ends a run. -/
theorem cuts_append {f : List α} (hf : Free isSep f) {sep : α} (hsep : isSep sep = true)
    (run l : List α) :
    cuts isSep run (f ++ sep :: l) = piece (run ++ f) ++ [sep] :: cuts isSep [] l := by
  induction f generalizing run with
  | nil => rw [List.nil_append, cuts, if_pos hsep, List.append_nil]
  | cons c f ih =>
    have hc : ¬isSep c = true := by simp [hf c List.mem_cons_self]
    rw [List.cons_append, cuts, if_neg hc, ih fun d hd => hf d (List.mem_cons_of_mem _ hd),
      List.append_assoc]
    rfl

/-- Fields that are put together are made of their elements and the separator. -/
theorem mem_of_mem_intercalate {sep c : α} {fields : List (List α)}
    (h : c ∈ [sep].intercalate fields) : c = sep ∨ ∃ f ∈ fields, c ∈ f := by
  induction fields with
  | nil => cases h
  | cons f fields ih =>
    cases fields with
    | nil =>
      rw [List.intercalate_singleton] at h
      exact .inr ⟨f, List.mem_cons_self, h⟩
    | cons g fields =>
      rw [List.intercalate_cons_cons, List.mem_append, List.mem_append] at h
      rcases h with (h | h) | h
      · exact .inr ⟨f, List.mem_cons_self, h⟩
      · exact .inl (List.mem_singleton.1 h)
      · rcases ih h with h | ⟨f', hf', hc⟩
        · exact .inl h
        · exact .inr ⟨f', List.mem_cons_of_mem _ hf', hc⟩

/-- Of fields that are put together with a separator those are found that are not
empty. -/
theorem filter_cuts_intercalate (sep : α) (hsep : isSep sep = true) {fields : List (List α)}
    (hfields : ∀ f ∈ fields, Free isSep f) :
    (cuts isSep [] ([sep].intercalate fields)).filter (fun p => !isCut isSep p) =
      fields.filter (fun f => !f.isEmpty) := by
  have hpiece {f : List α} (fs : List (List α)) :
      (f :: fs).filter (fun f => !f.isEmpty) = piece f ++ fs.filter (fun f => !f.isEmpty) := by
    cases f <;> rfl
  induction fields with
  | nil => rfl
  | cons f fields ih =>
    have hf : Free isSep f := hfields f List.mem_cons_self
    have hrest := ih fun g hg => hfields g (List.mem_cons_of_mem _ hg)
    cases fields with
    | nil =>
      rw [List.intercalate_singleton, cuts_of_free hf, List.nil_append, filter_piece hf, hpiece]
      simp
    | cons g fields =>
      have hcut : ([sep] :: cuts isSep [] ([sep].intercalate (g :: fields))).filter
          (fun p => !isCut isSep p) = (g :: fields).filter (fun f => !f.isEmpty) := by
        rw [List.filter_cons_of_neg (by simp [isCut, hsep]), hrest]
      have hjoined : [sep].intercalate (f :: g :: fields) =
          f ++ sep :: [sep].intercalate (g :: fields) := by
        rw [List.intercalate_cons_cons, List.append_assoc]
        rfl
      rw [hjoined, cuts_append hf hsep, List.nil_append, List.filter_append, filter_piece hf, hcut,
        ← hpiece]

end Logic
