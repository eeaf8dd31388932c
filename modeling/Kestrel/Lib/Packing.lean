import Mathlib.Algebra.BigOperators.Group.List.Basic
import Mathlib.Algebra.Ring.Nat
import Mathlib.Data.List.Chain

/-! # Packing

Things with sizes are packed in order into groups of limited size, greedily: a group is closed
when the next thing would not fit into it. A thing that is too large on its own gets a group of
its own.
-/

namespace Packing

variable {α : Type*} (size : α → ℕ) (cap : ℕ)

def total (xs : List α) : ℕ := (xs.map size).sum

/-- Packs things into groups while a group is being filled. -/
def fill : List α → List α → List (List α)
  | current, [] => [current]
  | current, x :: xs =>
    if total size current + size x ≤ cap then fill (current ++ [x]) xs
    else current :: fill [x] xs

/-- A group is within the limit, or is one thing that is not. -/
def Admitted (g : List α) : Prop := total size g ≤ cap ∨ ∃ x, g = [x] ∧ cap < size x

/-- The first thing of the second group would not have fitted into the first one. -/
def Closed (g h : List α) : Prop := ∀ x ∈ h.head?, cap < total size g + size x

/-- The groups are those of a greedy packing. -/
structure IsPacking (xs : List α) (groups : List (List α)) : Prop where
  flatten_eq : groups.flatten = xs
  ne_nil : ∀ g ∈ groups, g ≠ []
  admitted : ∀ g ∈ groups, Admitted size cap g
  greedy : groups.IsChain (Closed size cap)

variable {size cap} {current xs : List α}

@[simp] theorem total_nil : total size ([] : List α) = 0 := rfl

@[simp] theorem total_singleton (x : α) : total size [x] = size x := by simp [total]

@[simp] theorem total_append (xs ys : List α) :
    total size (xs ++ ys) = total size xs + total size ys := by
  simp [total]

theorem admitted_singleton (x : α) : Admitted size cap [x] := by
  by_cases h : size x ≤ cap
  · exact Or.inl (by simpa using h)
  · exact Or.inr ⟨x, rfl, not_le.mp h⟩

theorem flatten_fill (current xs : List α) : (fill size cap current xs).flatten = current ++ xs := by
  induction xs generalizing current with
  | nil => simp [fill]
  | cons x xs ih =>
    rw [fill]
    split <;> simp [ih]

theorem exists_cons_fill (size : α → ℕ) (cap : ℕ) (current xs : List α) :
    ∃ g gs, fill size cap current xs = g :: gs ∧ current <+: g := by
  induction xs generalizing current with
  | nil => exact ⟨current, [], rfl, List.prefix_rfl⟩
  | cons x xs ih =>
    rw [fill]
    split
    · obtain ⟨g, gs, hg, hpre⟩ := ih (current ++ [x])
      exact ⟨g, gs, hg, (List.prefix_append _ _).trans hpre⟩
    · exact ⟨current, _, rfl, List.prefix_rfl⟩

theorem ne_nil_of_mem_fill (hc : current ≠ []) {g : List α} (hg : g ∈ fill size cap current xs) :
    g ≠ [] := by
  induction xs generalizing current with
  | nil =>
    rw [fill, List.mem_singleton] at hg
    rwa [hg]
  | cons x xs ih =>
    rw [fill] at hg
    split at hg
    · exact ih (by simp) hg
    · rcases List.mem_cons.mp hg with rfl | hg
      · exact hc
      · exact ih (by simp) hg

theorem admitted_of_mem_fill (hc : Admitted size cap current) {g : List α}
    (hg : g ∈ fill size cap current xs) : Admitted size cap g := by
  induction xs generalizing current with
  | nil =>
    rw [fill, List.mem_singleton] at hg
    rwa [hg]
  | cons x xs ih =>
    rw [fill] at hg
    split at hg
    · rename_i hle
      exact ih (Or.inl (by simpa using hle)) hg
    · rcases List.mem_cons.mp hg with rfl | hg
      · exact hc
      · exact ih (admitted_singleton x) hg

theorem isChain_fill (current xs : List α) :
    (fill size cap current xs).IsChain (Closed size cap) := by
  induction xs generalizing current with
  | nil => simp [fill]
  | cons x xs ih =>
    rw [fill]
    split
    · exact ih _
    · rename_i hgt
      -- The next group begins with the thing that did not fit.
      obtain ⟨g, gs, hg, hpre⟩ := exists_cons_fill size cap [x] xs
      rw [hg, List.isChain_cons_cons, ← hg]
      refine ⟨?_, ih [x]⟩
      obtain ⟨rest, rfl⟩ := hpre
      intro y hy
      simp at hy
      subst hy
      exact not_le.mp hgt

theorem isPacking_fill (hne : current ≠ []) (hc : Admitted size cap current) (xs : List α) :
    IsPacking size cap (current ++ xs) (fill size cap current xs) where
  flatten_eq := flatten_fill current xs
  ne_nil _ := ne_nil_of_mem_fill hne
  admitted _ := admitted_of_mem_fill hc
  greedy := isChain_fill current xs

theorem isPacking_nil : IsPacking size cap [] [] where
  flatten_eq := rfl
  ne_nil := by simp
  admitted := by simp
  greedy := .nil

end Packing
