import Kestrel.Lib.Transition
import Mathlib.Data.List.Infix

/-! # First-in first-out streams

The purpose of a reliable channel: what is taken in on one side comes out on the other side in
order, nothing added and nothing skipped. An implementation cuts the stream into numbered
pieces; the pieces handed over so far are then a prefix.
-/

/-- A stream with what it has taken in and what it has handed over. -/
structure Fifo (α : Type*) where
  accepted : List α
  delivered : List α

namespace Fifo

variable {α : Type*}

inductive Event (α : Type*) where
  | accept (items : List α)
  | deliver (items : List α)

inductive Step : Fifo α → Event α → Fifo α → Prop where
  | accept (s : Fifo α) (items : List α) :
    Step s (.accept items) { s with accepted := s.accepted ++ items }
  | deliver (s : Fifo α) (items : List α) (h : s.delivered ++ items <+: s.accepted) :
    Step s (.deliver items) { s with delivered := s.delivered ++ items }

/-- The stream, empty at the start. -/
def system (α : Type*) : TransitionSystem (Fifo α) (Event α) where
  init s := s = ⟨[], []⟩
  step := Step

theorem delivered_prefix_invariant :
    (system α).Invariant fun s => s.delivered <+: s.accepted where
  init := by
    rintro _ rfl
    exact List.prefix_rfl
  step := by
    intro s e s' _ hp h
    cases h with
    | accept items => exact hp.trans (List.prefix_append _ _)
    | deliver items h => exact h

/-- What a stream has handed over is a prefix of what it has taken in. -/
theorem delivered_prefix {s : Fifo α} (h : (system α).Reachable s) :
    s.delivered <+: s.accepted :=
  delivered_prefix_invariant.holds h

section Pieces

variable {pieces : List (List α)} {n : ℕ}

theorem take_flatten_prefix (pieces : List (List α)) (n : ℕ) (rest : List α) :
    (pieces.take n).flatten <+: pieces.flatten ++ rest := by
  refine ⟨(pieces.drop n).flatten ++ rest, ?_⟩
  rw [← List.append_assoc, ← List.flatten_append, List.take_append_drop]

theorem getElem?_concat_eq_some {p q : List α} :
    (pieces ++ [q])[n]? = some p ↔ pieces[n]? = some p ∨ n = pieces.length ∧ p = q := by
  rcases lt_trichotomy n pieces.length with hlt | rfl | hgt
  · rw [List.getElem?_append_left hlt]
    simp [hlt.ne]
  · simp [eq_comm]
  · rw [List.getElem?_eq_none (by simp; omega), List.getElem?_eq_none hgt.le]
    simp [hgt.ne']

theorem take_append_flatten (more : List (List α)) (h : n ≤ pieces.length) :
    ((pieces ++ more).take n).flatten = (pieces.take n).flatten := by
  rw [List.take_append_of_le_length h]

end Pieces

end Fifo
