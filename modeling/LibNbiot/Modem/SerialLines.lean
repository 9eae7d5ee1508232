/-
# Where the lines of a stream go

Successive calls in simple mode take the lines out of a stream of bytes: the line that
a filter is for goes to the handler of the first such filter, and any other line is
what a call returns. Nothing is lost on the way, however many calls there have been.
-/

import LibNbiot.Logic.Splitting
import LibNbiot.Modem.Serial

namespace LibNbiot

open Logic

namespace Serial

variable {η : Type}

/-- Where a line goes. -/
inductive Delivery (η : Type) where
  | handled (handler : η) (line : Bytes)
  | returned (count : Nat) (line : Bytes)
  deriving DecidableEq, Repr

/-- The lines of a stream: what is between line feeds and not empty. What is behind the
last line feed is no line yet. -/
def linesOf (stream : Bytes) : List Bytes :=
  ((text stream).splitOn lineFeed).dropLast.filter (· ≠ [])

/-- A line is for the first filter whose beginning it has, or else for the caller. -/
def place (fs : UrcFilterList η) (line : Bytes) : Delivery η :=
  match fs.find? fun f => decide (cString f.urc <+: line) with
  | some f => .handled f.handler line
  | none => .returned line.length line

/-- What a call delivers, in order. A call that finds no end of a line does not return. -/
def LineResult.deliveries (r : LineResult η) : List (Delivery η) :=
  r.handled.map (fun call => .handled call.1 call.2) ++
    if r.complete then [.returned r.count r.line] else []

/-- Successive calls in simple mode, each with an empty line: what they deliver and
what is left of the stream. -/
def readLines (fs : UrcFilterList η) : Nat → Bytes → List (Delivery η) × Bytes
  | 0, stream => ([], stream)
  | calls + 1, stream =>
      let r := readLine fs [] .simple stream
      let (deliveries, unread) := readLines fs calls r.unread
      (r.deliveries ++ deliveries, unread)

theorem place_eq (fs : UrcFilterList η) {line : Bytes} (hline : cString line = line) :
    place fs line =
      match fs.handlerOf line with
      | some handler => .handled handler line
      | none => .returned line.length line := by
  have hfind : (fun f : UrcFilter η => decide (cString f.urc <+: line)) =
      fun f => f.key.isPrefixOf (cString line) := by
    funext f
    rw [hline, Bool.eq_iff_iff, decide_eq_true_iff, List.isPrefixOf_iff_prefix]
    rfl
  rw [place, UrcFilterList.handlerOf, hfind]
  cases fs.find? fun f => f.key.isPrefixOf (cString line) <;> rfl

theorem lineFeed_not_mem_text {piece : Bytes} (h : lineFeed ∉ piece) : lineFeed ∉ text piece :=
  fun hmem => h (List.mem_filter.1 hmem).1

@[simp] theorem linesOf_nil : linesOf [] = [] := rfl

theorem linesOf_piece {piece : Bytes} (h : lineFeed ∉ piece) : linesOf piece = [] := by
  rw [linesOf, List.splitOn_eq_singleton (lineFeed_not_mem_text h)]
  rfl

theorem linesOf_cut {piece : Bytes} (h : lineFeed ∉ piece) (rest : Bytes) :
    linesOf (piece ++ lineFeed :: rest) =
      (if text piece = [] then [] else [text piece]) ++ linesOf rest := by
  have htext : text (piece ++ lineFeed :: rest) = text piece ++ lineFeed :: text rest := by
    rw [text_append]
    rfl
  rw [linesOf, htext, List.splitOn_append_cons_self_of_not_mem (lineFeed_not_mem_text h),
    List.dropLast_cons_of_ne_nil (List.splitOn_ne_nil _ _), List.filter_cons]
  by_cases hempty : text piece = []
  · simp [hempty, linesOf]
  · simp [hempty, linesOf]

/-- A call at the beginning of a line: an empty line is nobody's, a line that a filter
takes goes to its handler, and any other line is what the call returns. -/
theorem readBytes_cut (fs : UrcFilterList η) (handled : List (η × Bytes)) {piece : Bytes}
    (hpiece : lineFeed ∉ piece) (rest : Bytes) :
    readBytes fs { lineStatus := .data, handled := handled } (piece ++ lineFeed :: rest) =
      if text piece = [] then readBytes fs { lineStatus := .data, handled := handled } rest
      else (fs.handlerOf (text piece)).elim
        ({ line := text piece, index := (text piece).length, lineStatus := .complete,
           handled := handled }, rest)
        fun handler =>
          readBytes fs { lineStatus := .data, handled := handled ++ [(handler, text piece)] } rest := by
  have hcollect : Reading.collect { lineStatus := .data, handled := handled } piece =
      { line := text piece, index := (text piece).length, lineStatus := .data,
        handled := handled } := by
    simp [Reading.collect]
  have hdata : LineStatus.data ≠ .complete := by decide
  rw [readBytes_piece fs (r := { lineStatus := .data, handled := handled }) hdata hpiece,
    readBytes, hcollect]
  by_cases hempty : text piece = []
  · rw [hempty, receiveByte_lineFeed_none fs (.inr ⟨rfl, rfl⟩)]
    rfl
  · rw [receiveByte_lineFeed fs rfl (List.length_pos_iff.2 hempty), if_neg hempty]
    dsimp only
    cases fs.handlerOf (text piece) with
    | some handler =>
      rw [cString_text]
      rfl
    | none => rfl

/-- A call that begins a line delivers lines of the stream, and the others are left. -/
theorem deliveries_readBytes (fs : UrcFilterList η) (stream : Bytes) (handled : List (η × Bytes)) :
    (LineResult.of .simple (readBytes fs { lineStatus := .data, handled := handled } stream).1
        (readBytes fs { lineStatus := .data, handled := handled } stream).2).deliveries ++
      (linesOf (readBytes fs { lineStatus := .data, handled := handled } stream).2).map (place fs) =
      handled.map (fun call => .handled call.1 call.2) ++ (linesOf stream).map (place fs) := by
  induction stream using split_induction (a := lineFeed) generalizing handled with
  | last piece hpiece =>
    have hread := readBytes_piece fs (r := { lineStatus := .data, handled := handled }) nofun
      hpiece []
    rw [List.append_nil] at hread
    rw [hread, linesOf_piece hpiece]
    simp [readBytes, LineResult.deliveries, LineResult.of]
  | cut piece rest hpiece ih =>
    rw [readBytes_cut fs handled hpiece, linesOf_cut hpiece]
    by_cases hempty : text piece = []
    · rw [if_pos hempty, if_pos hempty]
      exact ih handled
    · rw [if_neg hempty, if_neg hempty, List.map_append, List.map_singleton,
        place_eq fs (cString_text piece)]
      cases fs.handlerOf (text piece) with
      | some handler =>
        have hrest := ih (handled ++ [(handler, text piece)])
        rw [List.map_append, List.append_assoc] at hrest
        exact hrest
      | none =>
        simp [LineResult.deliveries, LineResult.of]

theorem unread_le (fs : UrcFilterList η) (r : Reading η) (bytes : Bytes) :
    (readBytes fs r bytes).2.length ≤ bytes.length - 1 := by
  induction bytes generalizing r with
  | nil => exact le_rfl
  | cons c bytes ih =>
    rw [readBytes]
    split
    · exact le_rfl
    · exact (ih _).trans (Nat.sub_le _ _)

/-- As many calls as there are bytes leave nothing. -/
theorem readLines_unread (fs : UrcFilterList η) {stream : Bytes} {calls : Nat}
    (h : stream.length ≤ calls) : (readLines fs calls stream).2 = [] := by
  induction calls generalizing stream with
  | zero => exact List.length_eq_zero_iff.1 (Nat.le_zero.1 h)
  | succ calls ih =>
    rw [readLines]
    apply ih
    have hle := unread_le fs { lineStatus := .data } stream
    exact hle.trans (Nat.sub_le_of_le_add h)

/-- **The lines are partitioned**: whatever the number of calls, what they deliver and
the lines that are left make up the lines of the stream, each in its place; and enough
calls leave none. -/
theorem readLines_partition (fs : UrcFilterList η) (stream : Bytes) :
    (∀ calls, (readLines fs calls stream).1 ++
      (linesOf (readLines fs calls stream).2).map (place fs) = (linesOf stream).map (place fs)) ∧
    readLines fs stream.length stream = ((linesOf stream).map (place fs), []) := by
  have hall (calls : Nat) : (readLines fs calls stream).1 ++
      (linesOf (readLines fs calls stream).2).map (place fs) =
        (linesOf stream).map (place fs) := by
    induction calls generalizing stream with
    | zero => rfl
    | succ calls ih =>
      rw [readLines]
      dsimp only
      rw [List.append_assoc, ih]
      exact deliveries_readBytes fs stream []
  have hnone := readLines_unread fs (le_refl stream.length)
  have hdelivered := hall stream.length
  rw [hnone, linesOf_nil, List.map_nil, List.append_nil] at hdelivered
  exact ⟨hall, Prod.ext hdelivered hnone⟩

end Serial

end LibNbiot
