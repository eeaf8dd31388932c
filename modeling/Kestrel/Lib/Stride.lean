import Mathlib.Data.List.Basic
import Mathlib.Order.Nat

/-! # Loops in strides

A loop whose index goes up by a fixed width for as long as a whole width is left below its limit.
What every turn preserves holds where the loop stops, and less than a width is left there. A loop
that writes over a list leaves new elements in front of old ones.
-/

namespace Stride

variable {σ : Type*} (width limit : ℕ) (body : ℕ → σ → Option σ)

/-- At most the given number of turns. -/
def turns : ℕ → ℕ → σ → Option (ℕ × σ)
  | 0, i, s => some (i, s)
  | fuel + 1, i, s =>
    if i + width ≤ limit then (body i s).bind (turns fuel (i + width)) else some (i, s)

/-- The loop from an index on; `none` where a turn fails. -/
def loop (i : ℕ) (s : σ) : Option (ℕ × σ) := turns width limit body (limit - i) i s

/-- What every turn preserves. -/
def Preserves (P : ℕ → σ → Prop) : Prop :=
  ∀ i s, i + width ≤ limit → P i s → ∃ s', body i s = some s' ∧ P (i + width) s'

variable {width limit body} {P : ℕ → σ → Prop} {i fuel : ℕ} {s : σ}

theorem Preserves.turns (h : Preserves width limit body P) (hw : 0 < width)
    (hfuel : limit - i ≤ fuel) (hi : i ≤ limit) (hs : P i s) :
    ∃ j s', turns width limit body fuel i s = some (j, s') ∧ P j s' ∧ i ≤ j ∧ j ≤ limit ∧
      limit < j + width := by
  induction fuel generalizing i s with
  | zero => exact ⟨i, s, rfl, hs, le_rfl, hi, by omega⟩
  | succ fuel ih =>
    by_cases hroom : i + width ≤ limit
    · obtain ⟨s', hbody, hs'⟩ := h i s hroom hs
      obtain ⟨j, t, hturns, ht, hle, hj⟩ := ih (by omega) hroom hs'
      refine ⟨j, t, ?_, ht, Nat.le_trans (Nat.le_add_right i width) hle, hj⟩
      rw [Stride.turns, if_pos hroom, hbody]
      exact hturns
    · refine ⟨i, s, ?_, hs, le_rfl, hi, by omega⟩
      rw [Stride.turns, if_neg hroom]

theorem Preserves.loop (h : Preserves width limit body P) (hw : 0 < width) (hi : i ≤ limit)
    (hs : P i s) :
    ∃ j s', loop width limit body i s = some (j, s') ∧ P j s' ∧ i ≤ j ∧ j ≤ limit ∧
      limit < j + width :=
  h.turns hw le_rfl hi hs

theorem Preserves.loop_one (h : Preserves 1 limit body P) (hi : i ≤ limit) (hs : P i s) :
    ∃ s', Stride.loop 1 limit body i s = some (limit, s') ∧ P limit s' := by
  obtain ⟨j, s', hloop, hs', -, hj, hlt⟩ := h.loop Nat.one_pos hi hs
  obtain rfl : j = limit := by omega
  exact ⟨s', hloop, hs'⟩

section Overwrite

variable {α : Type*} (new old : List α) {k : ℕ}

/-- A list that has been written over up to an index. -/
def overwritten (k : ℕ) : List α := new.take k ++ old.drop k

@[simp] theorem overwritten_zero : overwritten new old 0 = old := rfl

variable {new old}

theorem overwritten_length (h : old.length ≤ k) : overwritten new old k = new.take k := by
  rw [overwritten, List.drop_eq_nil_of_le h, List.append_nil]

theorem getElem?_overwritten (hn : k < new.length) : (overwritten new old k)[k]? = old[k]? := by
  have hlen : (new.take k).length = k := List.length_take_of_le hn.le
  rw [overwritten, List.getElem?_append_right hlen.le, hlen]
  simp

theorem set_overwritten {a : α} (hn : new[k]? = some a) (ho : k < old.length) :
    (overwritten new old k).set k a = overwritten new old (k + 1) := by
  obtain ⟨hk, rfl⟩ := List.getElem?_eq_some_iff.mp hn
  have hlen : (new.take k).length = k := List.length_take_of_le hk.le
  rw [overwritten, overwritten, List.set_append_right _ _ hlen.le, hlen, Nat.sub_self,
    List.drop_eq_getElem_cons ho, List.set_cons_zero, List.take_succ_eq_append_getElem hk,
    List.append_assoc]
  rfl

theorem splice_overwritten {width : ℕ} (hn : k + width ≤ new.length) :
    (overwritten new old k).take k ++ (new.drop k).take width ++
      (overwritten new old k).drop (k + width) = overwritten new old (k + width) := by
  have hlen : (new.take k).length = k := List.length_take_of_le (by omega)
  have hfront : (overwritten new old k).take k = new.take k := by
    rw [overwritten, List.take_append_of_le_length hlen.ge, List.take_take, min_self]
  have hback : (overwritten new old k).drop (k + width) = old.drop (k + width) := by
    rw [overwritten, List.drop_append, List.drop_eq_nil_of_le (by omega), hlen,
      Nat.add_sub_cancel_left, List.nil_append, List.drop_drop]
  rw [hfront, hback, overwritten, List.take_add]

end Overwrite

end Stride
