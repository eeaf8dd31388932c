import Mathlib.Data.List.Basic
import Mathlib.Data.Sum.Basic

/-! # Items and targets

A list of orders in which each is an item to put out or a new target for the items that follow. What
such a list puts out, and where.
-/

namespace Switch

variable {τ α : Type*} {t : τ} {l l' : List (τ ⊕ α)}

/-- The target after a list of orders. -/
def target (t : τ) : List (τ ⊕ α) → τ
  | [] => t
  | .inl t' :: l => target t' l
  | .inr _ :: l => target t l

/-- The items of a list of orders, each with its target. -/
def outputs (t : τ) : List (τ ⊕ α) → List (τ × α)
  | [] => []
  | .inl t' :: l => outputs t' l
  | .inr a :: l => (t, a) :: outputs t l

def items (l : List (τ ⊕ α)) : List α := l.filterMap Sum.getRight?

def targets (l : List (τ ⊕ α)) : List τ := l.filterMap Sum.getLeft?

theorem target_append : target t (l ++ l') = target (target t l) l' := by
  induction l generalizing t with
  | nil => rfl
  | cons x l ih => cases x <;> exact ih

theorem outputs_append : outputs t (l ++ l') = outputs t l ++ outputs (target t l) l' := by
  induction l generalizing t with
  | nil => rfl
  | cons x l ih =>
    cases x with
    | inl t' => exact ih
    | inr a => exact congrArg ((t, a) :: ·) ih

@[simp] theorem items_append : items (l ++ l') = items l ++ items l' := List.filterMap_append

@[simp] theorem targets_append : targets (l ++ l') = targets l ++ targets l' :=
  List.filterMap_append

theorem map_snd_outputs : (outputs t l).map Prod.snd = items l := by
  induction l generalizing t with
  | nil => rfl
  | cons x l ih =>
    cases x with
    | inl t' => exact ih
    | inr a => exact congrArg (a :: ·) ih

theorem target_eq : target t l = (targets l).getLast?.getD t := by
  induction l generalizing t with
  | nil => rfl
  | cons x l ih =>
    cases x with
    | inl t' =>
      change target t' l = (t' :: targets l).getLast?.getD t
      rw [ih, List.getLast?_cons, Option.getD_some]
    | inr a => exact ih

end Switch
