import Mathlib.Data.Finset.Basic
import Kestrel.Lib.SortedMap

/-! # Groups

Members have owners, and a second map holds under each owner the set of its members. An owner is
in the second map only while it has members. Joining a group and leaving groups in bulk keep the
two maps inverse to each other.
-/

namespace Groups

open Std (ExtTreeMap)

open scoped SortedMap

variable {κ ο : Type*} [LinearOrder κ] [LinearOrder ο] {owner : ExtTreeMap κ ο}
  {groups : ExtTreeMap ο (Finset κ)} {k : κ} {o o' : ο}

def members (groups : ExtTreeMap ο (Finset κ)) (o : ο) : Finset κ := groups[o]?.getD ∅

def join (groups : ExtTreeMap ο (Finset κ)) (o : ο) (k : κ) : ExtTreeMap ο (Finset κ) :=
  groups.insert o (insert k (members groups o))

/-- Takes members out of a group, and drops the group if none is left. -/
def leave (groups : ExtTreeMap ο (Finset κ)) (o : ο) (ks : List κ) : ExtTreeMap ο (Finset κ) :=
  match groups[o]? with
  | some ms =>
    let ms := ks.foldl Finset.erase ms
    if ms = ∅ then groups.erase o else groups.insert o ms
  | none => groups

/-- Takes members out of their groups, group by group. -/
def leaveAll (groups : ExtTreeMap ο (Finset κ)) (left : List (κ × ο)) (order : List ο) :
    ExtTreeMap ο (Finset κ) :=
  order.foldl (fun groups o => leave groups o ((left.filter (·.2 = o)).map (·.1))) groups

def NoneEmpty (groups : ExtTreeMap ο (Finset κ)) : Prop := ∀ o : ο, groups[o]? ≠ some ∅

theorem members_join : members (join groups o k) o' =
    if o' = o then insert k (members groups o) else members groups o' := by
  rw [members, join, SortedMap.getElem?_insert]
  by_cases h : o' = o
  · rw [if_pos h, if_pos h.symm]
    rfl
  · rw [if_neg h, if_neg (Ne.symm h)]
    rfl

theorem NoneEmpty.join (h : NoneEmpty groups) : NoneEmpty (Groups.join groups o k) := by
  intro o' he
  rw [Groups.join, SortedMap.getElem?_insert] at he
  split at he
  · exact Finset.insert_ne_empty _ _ (Option.some.inj he)
  · exact h o' he

theorem foldl_erase (ks : List κ) (ms : Finset κ) :
    ks.foldl Finset.erase ms = ms.filter (· ∉ ks) := by
  induction ks generalizing ms with
  | nil => simp
  | cons q ks ih =>
    rw [List.foldl_cons, ih]
    ext k
    simp only [Finset.mem_filter, Finset.mem_erase, List.mem_cons, not_or]
    constructor
    · rintro ⟨⟨hq, hm⟩, hk⟩
      exact ⟨hm, hq, hk⟩
    · rintro ⟨hm, hq, hk⟩
      exact ⟨⟨hq, hm⟩, hk⟩

theorem members_leave (ks : List κ) : members (leave groups o ks) o' =
    if o' = o then (members groups o).filter (· ∉ ks) else members groups o' := by
  rw [leave]
  split
  · rename_i ms hms
    have hm : members groups o = ms := by
      rw [members, hms]
      rfl
    dsimp only
    rw [foldl_erase, hm]
    split
    · rename_i he
      rw [members, SortedMap.getElem?_erase]
      by_cases h : o' = o
      · rw [if_pos h, if_pos h.symm, he]
        rfl
      · rw [if_neg h, if_neg (Ne.symm h)]
        rfl
    · rw [members, SortedMap.getElem?_insert]
      by_cases h : o' = o
      · rw [if_pos h, if_pos h.symm]
        rfl
      · rw [if_neg h, if_neg (Ne.symm h)]
        rfl
  · rename_i hms
    by_cases h : o' = o
    · subst h
      have hm : members groups o' = ∅ := by
        rw [members, hms]
        rfl
      rw [if_pos rfl, hm, Finset.filter_empty]
    · rw [if_neg h]

theorem NoneEmpty.leave (h : NoneEmpty groups) (ks : List κ) :
    NoneEmpty (Groups.leave groups o ks) := by
  intro o'
  rw [Groups.leave]
  split
  · dsimp only
    split
    · rw [SortedMap.getElem?_erase]
      split
      · exact (Option.some_ne_none ∅).symm
      · exact h o'
    · rename_i hne
      rw [SortedMap.getElem?_insert]
      split
      · intro he
        exact hne (Option.some.inj he)
      · exact h o'
  · exact h o'

/-- In whatever order the groups are gone through, each keeps the members that did not leave it. -/
theorem mem_members_leaveAll {left : List (κ × ο)} {order : List ο} (ho : order.Nodup)
    (hl : ∀ x ∈ left, x.2 ∈ order) :
    k ∈ members (leaveAll groups left order) o ↔ k ∈ members groups o ∧ (k, o) ∉ left := by
  have hone (o' : ο) (k : κ) :
      k ∈ (left.filter (·.2 = o')).map (·.1) ↔ (k, o') ∈ left := by
    simp
  -- the groups gone through so far have been cut down, the others are as they were
  have hall (groups : ExtTreeMap ο (Finset κ)) : k ∈ members (leaveAll groups left order) o ↔
      k ∈ members groups o ∧ ¬ (o ∈ order ∧ (k, o) ∈ left) := by
    clear hl
    induction order generalizing groups with
    | nil => simp [leaveAll]
    | cons o' order ih =>
      rw [List.nodup_cons] at ho
      have hcons : leaveAll groups left (o' :: order) =
          leaveAll (leave groups o' ((left.filter (·.2 = o')).map (·.1))) left order := rfl
      rw [hcons, ih ho.2, members_leave]
      by_cases h : o = o'
      · subst h
        rw [if_pos rfl, Finset.mem_filter, hone]
        simp [ho.1]
      · rw [if_neg h]
        simp [h]
  rw [hall]
  constructor
  · rintro ⟨hk, hn⟩
    exact ⟨hk, fun hm => hn ⟨hl _ hm, hm⟩⟩
  · rintro ⟨hk, hn⟩
    exact ⟨hk, fun hm => hn hm.2⟩

theorem NoneEmpty.leaveAll (h : NoneEmpty groups) (left : List (κ × ο)) (order : List ο) :
    NoneEmpty (Groups.leaveAll groups left order) := by
  induction order generalizing groups with
  | nil => exact h
  | cons o order ih => exact ih (h.leave _)

/-- The groups are the inverse of the map to the owners, and none of them is empty. -/
structure Inverse (owner : ExtTreeMap κ ο) (groups : ExtTreeMap ο (Finset κ)) : Prop where
  mem_iff : ∀ k o, k ∈ members groups o ↔ owner[k]? = some o
  noneEmpty : NoneEmpty groups

namespace Inverse

variable (h : Inverse owner groups)
include h

theorem join (hk : owner[k]? = none) : Inverse (owner.insert k o) (Groups.join groups o k) where
  mem_iff k' o' := by
    rw [members_join, SortedMap.getElem?_insert]
    by_cases hk' : k = k'
    · subst hk'
      rw [if_pos rfl]
      have hnot (o : ο) : k ∉ members groups o := by
        rw [h.mem_iff, hk]
        exact Option.some_ne_none o ∘ Eq.symm
      by_cases ho : o' = o
      · simp [ho]
      · rw [if_neg ho, Option.some.injEq]
        exact iff_of_false (hnot o') (Ne.symm ho)
    · rw [if_neg hk', ← h.mem_iff]
      by_cases ho : o' = o
      · rw [if_pos ho, Finset.mem_insert, ho]
        exact or_iff_right (Ne.symm hk')
      · rw [if_neg ho]
  noneEmpty := h.noneEmpty.join

/-- Members leave: the owners forget them, and the groups let go those that had an owner. -/
theorem leaveAll {ks : List κ} {left : List (κ × ο)} {order : List ο} (ho : order.Nodup)
    (hl : ∀ x ∈ left, x.2 ∈ order)
    (hleft : ∀ k o, (k, o) ∈ left ↔ k ∈ ks ∧ owner[k]? = some o) :
    Inverse (SortedMap.eraseAll owner ks) (Groups.leaveAll groups left order) where
  mem_iff k o := by
    rw [mem_members_leaveAll ho hl, h.mem_iff, hleft, SortedMap.getElem?_eraseAll]
    by_cases hk : k ∈ ks
    · simp [hk]
    · simp [hk]
  noneEmpty := h.noneEmpty.leaveAll _ _

theorem leave (hk : owner[k]? = some o) :
    Inverse (owner.erase k) (Groups.leave groups o [k]) where
  mem_iff k' o' := by
    rw [members_leave, SortedMap.getElem?_erase]
    by_cases hk' : k = k'
    · subst hk'
      rw [if_pos rfl]
      by_cases ho : o' = o
      · simp [ho]
      · rw [if_neg ho, h.mem_iff, hk, Option.some.injEq]
        exact iff_of_false (Ne.symm ho) (Option.some_ne_none o' ∘ Eq.symm)
    · rw [if_neg hk', ← h.mem_iff]
      by_cases ho : o' = o
      · rw [if_pos ho, Finset.mem_filter, ho, List.mem_singleton]
        exact and_iff_left (Ne.symm hk')
      · rw [if_neg ho]
  noneEmpty := h.noneEmpty.leave _

theorem dissolve {ks : List κ} (hks : ∀ k, k ∈ ks ↔ k ∈ members groups o) :
    Inverse (SortedMap.eraseAll owner ks) (groups.erase o) where
  mem_iff k o' := by
    rw [members, SortedMap.getElem?_erase, SortedMap.getElem?_eraseAll]
    simp only [hks, h.mem_iff]
    by_cases ho : o = o'
    · subst ho
      rw [if_pos rfl]
      split
      · simp
      · rename_i hn
        exact iff_of_false (Finset.notMem_empty k) hn
    · rw [if_neg ho]
      split
      · rename_i hk
        have hm := h.mem_iff k o'
        rw [hk, Option.some.injEq] at hm
        exact iff_of_false (fun hk' => ho (hm.mp hk')) (Option.some_ne_none o' ∘ Eq.symm)
      · exact h.mem_iff k o'
  noneEmpty o' := by
    rw [SortedMap.getElem?_erase]
    split
    · exact (Option.some_ne_none ∅).symm
    · exact h.noneEmpty o'

end Inverse

end Groups
