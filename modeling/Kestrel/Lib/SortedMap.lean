import Mathlib.Algebra.Order.Ring.Nat
import Mathlib.Data.List.Forall2
import Mathlib.Data.List.Perm.Subperm
import Mathlib.Order.Compare
import Std.Data.ExtTreeMap

/-! # Sorted maps

Facts about finite maps with ordered keys: the first entry, removing a list of keys, and what
the entries in key order say about lookups.
-/

namespace SortedMap

open Std (ExtTreeMap)

variable {α β : Type*} [LinearOrder α] {m : ExtTreeMap α β} {k : α} {v : β}

scoped instance transCmp_compare : Std.TransCmp (compare : α → α → Ordering) := inferInstance

/-- The entry with the least key. -/
def first (m : ExtTreeMap α β) : Option (α × β) := m.toList.head?

/-- Removes the keys of a list, in order. -/
def eraseAll (m : ExtTreeMap α β) (ks : List α) : ExtTreeMap α β :=
  ks.foldl (fun m k => m.erase k) m

theorem getElem?_insert (m : ExtTreeMap α β) (k a : α) (v : β) :
    (m.insert k v)[a]? = if k = a then some v else m[a]? := by
  simp only [ExtTreeMap.getElem?_insert, compare_eq_iff_eq]

theorem getElem?_erase (m : ExtTreeMap α β) (k a : α) :
    (m.erase k)[a]? = if k = a then none else m[a]? := by
  simp only [ExtTreeMap.getElem?_erase, compare_eq_iff_eq]

theorem mem_toList : (k, v) ∈ m.toList ↔ m[k]? = some v :=
  ExtTreeMap.mem_toList_iff_getElem?_eq_some

theorem toList_sorted (m : ExtTreeMap α β) : m.toList.Pairwise fun a b => a.1 < b.1 :=
  ExtTreeMap.ordered_keys_toList.imp fun h => compare_lt_iff_lt.mp h

theorem keys_sorted (m : ExtTreeMap α β) : m.keys.Pairwise (· < ·) :=
  ExtTreeMap.ordered_keys.imp fun h => compare_lt_iff_lt.mp h

theorem mem_keys : k ∈ m.keys ↔ ∃ v, m[k]? = some v := by
  rw [ExtTreeMap.mem_keys, ExtTreeMap.mem_iff_isSome_getElem?, Option.isSome_iff_exists]

theorem eq_empty_iff : m.isEmpty = true ↔ ∀ k : α, m[k]? = none := by
  rw [ExtTreeMap.isEmpty_iff]
  constructor
  · rintro rfl k
    simp
  · intro h
    exact ExtTreeMap.ext_getElem? fun k => by simp [h k]

theorem first_eq_some_iff :
    first m = some (k, v) ↔ m[k]? = some v ∧ ∀ k' v', m[k']? = some v' → k ≤ k' := by
  have hs := toList_sorted m
  simp only [← mem_toList, first]
  cases hl : m.toList with
  | nil => simp
  | cons e l =>
    rw [hl, List.pairwise_cons] at hs
    simp only [List.head?_cons, Option.some.injEq, List.mem_cons]
    constructor
    · rintro rfl
      refine ⟨Or.inl rfl, fun k' v' h => ?_⟩
      rcases h with h | h
      · exact le_of_eq (congrArg Prod.fst h).symm
      · exact (hs.1 _ h).le
    · rintro ⟨h | h, hmin⟩
      · exact h.symm
      · exact absurd (hs.1 _ h) (not_lt.mpr (hmin e.1 e.2 (Or.inl rfl)))

theorem first_eq_none_iff : first m = none ↔ ∀ k : α, m[k]? = none := by
  rw [first, List.head?_eq_none_iff, List.eq_nil_iff_forall_not_mem]
  simp only [Prod.forall, mem_toList, Option.eq_none_iff_forall_not_mem, Option.mem_def]

theorem getElem?_eraseAll (m : ExtTreeMap α β) (ks : List α) (k : α) :
    (eraseAll m ks)[k]? = if k ∈ ks then none else m[k]? := by
  induction ks generalizing m with
  | nil => simp [eraseAll]
  | cons q ks ih =>
    have h := ih (m.erase q)
    rw [eraseAll] at h ⊢
    rw [List.foldl_cons, h, getElem?_erase]
    by_cases hk : k ∈ ks
    · simp [hk]
    · simp only [hk, List.mem_cons, eq_comm (a := q), or_false, if_false]

theorem eraseAll_eq_some {ks : List α} (h : (eraseAll m ks)[k]? = some v) :
    m[k]? = some v ∧ k ∉ ks := by
  rw [getElem?_eraseAll] at h
  split at h
  · cases h
  · exact ⟨h, ‹_›⟩

theorem eraseAll_insert {ks : List α} (hk : k ∉ ks) (m : ExtTreeMap α β) (v : β) :
    eraseAll (m.insert k v) ks = (eraseAll m ks).insert k v := by
  apply ExtTreeMap.ext_getElem?
  intro a
  rw [getElem?_eraseAll, getElem?_insert, getElem?_insert, getElem?_eraseAll]
  by_cases ha : k = a
  · subst ha
    rw [if_neg hk, if_pos rfl, if_pos rfl]
  · rw [if_neg ha, if_neg ha]

/-- Removes the keys of a list, in order, and returns the entries that were there. -/
def takeAll : ExtTreeMap α β → List α → List (α × β) × ExtTreeMap α β
  | m, [] => ([], m)
  | m, k :: ks =>
    match m[k]? with
    | some v =>
      let (taken, rest) := takeAll (m.erase k) ks
      ((k, v) :: taken, rest)
    | none => takeAll m ks

theorem takeAll_snd (m : ExtTreeMap α β) (ks : List α) : (takeAll m ks).2 = eraseAll m ks := by
  induction ks generalizing m with
  | nil => rfl
  | cons q ks ih =>
    rw [takeAll]
    split
    · exact ih _
    · rename_i hq
      have he : m.erase q = m := by
        refine ExtTreeMap.ext_getElem? fun k => ?_
        rw [getElem?_erase]
        split
        · rw [← ‹q = k›, hq]
        · rfl
      rw [ih, eraseAll, eraseAll, List.foldl_cons, he]

theorem mem_takeAll {ks : List α} (h : (k, v) ∈ (takeAll m ks).1) : k ∈ ks ∧ m[k]? = some v := by
  induction ks generalizing m with
  | nil => simp [takeAll] at h
  | cons q ks ih =>
    rw [takeAll] at h
    split at h
    · rename_i hq
      rcases List.mem_cons.mp h with h | h
      · cases h
        exact ⟨List.mem_cons_self .., hq⟩
      · obtain ⟨hk, hv⟩ := ih h
        rw [getElem?_erase] at hv
        split at hv
        · cases hv
        · exact ⟨List.mem_cons_of_mem _ hk, hv⟩
    · obtain ⟨hk, hv⟩ := ih h
      exact ⟨List.mem_cons_of_mem _ hk, hv⟩

theorem mem_takeAll_iff {ks : List α} : (k, v) ∈ (takeAll m ks).1 ↔ k ∈ ks ∧ m[k]? = some v := by
  refine ⟨mem_takeAll, ?_⟩
  rintro ⟨hk, hv⟩
  induction ks generalizing m with
  | nil => cases hk
  | cons q ks ih =>
    rw [takeAll]
    by_cases hqk : q = k
    · subst hqk
      rw [hv]
      exact List.mem_cons_self ..
    · have hk : k ∈ ks := (List.mem_cons.mp hk).resolve_left (Ne.symm hqk)
      split
      · apply List.mem_cons_of_mem
        apply ih hk
        rw [getElem?_erase, if_neg hqk, hv]
      · exact ih hk hv

theorem nodup_takeAll (m : ExtTreeMap α β) (ks : List α) :
    ((takeAll m ks).1.map Prod.fst).Nodup := by
  induction ks generalizing m with
  | nil => exact List.nodup_nil
  | cons q ks ih =>
    rw [takeAll]
    split
    · rw [List.map_cons, List.nodup_cons]
      refine ⟨?_, ih _⟩
      intro hq
      obtain ⟨⟨k, v⟩, hm, rfl⟩ := List.mem_map.mp hq
      have hv := (mem_takeAll hm).2
      rw [getElem?_erase, if_pos rfl] at hv
      cases hv
    · exact ih m

theorem takeAll_append (m : ExtTreeMap α β) (ks ks' : List α) :
    takeAll m (ks ++ ks') =
      ((takeAll m ks).1 ++ (takeAll (takeAll m ks).2 ks').1, (takeAll (takeAll m ks).2 ks').2) := by
  induction ks generalizing m with
  | nil => rfl
  | cons q ks ih =>
    rw [List.cons_append, takeAll, takeAll]
    split
    · rw [ih]
      rfl
    · exact ih m

theorem mem_takeWhile_lt {l : List α} (hs : l.Pairwise (· < ·)) {n : α} :
    k ∈ l.takeWhile (· < n) ↔ k < n ∧ k ∈ l := by
  induction l with
  | nil => simp
  | cons a l ih =>
    obtain ⟨ha, hs⟩ := List.pairwise_cons.mp hs
    have ih := ih hs
    by_cases hlt : a < n
    · rw [List.takeWhile_cons_of_pos (by simpa using hlt), List.mem_cons, List.mem_cons, ih]
      constructor
      · rintro (rfl | ⟨hk, hm⟩)
        · exact ⟨hlt, Or.inl rfl⟩
        · exact ⟨hk, Or.inr hm⟩
      · rintro ⟨hk, rfl | hm⟩
        · exact Or.inl rfl
        · exact Or.inr ⟨hk, hm⟩
    · rw [List.takeWhile_cons_of_neg (by simpa using hlt)]
      simp only [List.not_mem_nil, List.mem_cons, false_iff, not_and, not_or]
      intro hk
      exact ⟨fun he => hlt (he ▸ hk), fun hm => hlt ((ha k hm).trans hk)⟩

section Selected

variable {γ : Type*} {p : α × β → Bool}

theorem mem_selected :
    k ∈ (m.toList.filter p).map Prod.fst ↔ ∃ v, m[k]? = some v ∧ p (k, v) = true := by
  simp only [List.mem_map, List.mem_filter, Prod.exists, mem_toList]
  constructor
  · rintro ⟨k', v, h, rfl⟩
    exact ⟨v, h⟩
  · rintro ⟨v, h⟩
    exact ⟨k, v, h, rfl⟩

theorem nodup_selected (m : ExtTreeMap α β) (p : α × β → Bool) :
    ((m.toList.filter p).map Prod.fst).Nodup := by
  have hs := (toList_sorted m).sublist (List.filter_sublist (p := p))
  exact (List.pairwise_map.mpr hs).imp ne_of_lt

theorem forall₂_selected (m : ExtTreeMap α β) (p : α × β → Bool) (f : α × β → γ) :
    List.Forall₂ (fun k b => ∃ v, m[k]? = some v ∧ p (k, v) = true ∧ b = f (k, v))
      ((m.toList.filter p).map Prod.fst) ((m.toList.filter p).map f) := by
  rw [List.forall₂_map_left_iff, List.forall₂_map_right_iff, List.forall₂_same]
  rintro ⟨k, v⟩ he
  obtain ⟨hm, hp⟩ := List.mem_filter.mp he
  exact ⟨v, mem_toList.mp hm, hp, rfl⟩

end Selected

section Least

variable {γ : Type*} [LinearOrder γ] {f : α × β → γ} {c : γ}

end Least

theorem any_toList {p : α × β → Bool} :
    m.toList.any p = true ↔ ∃ k v, m[k]? = some v ∧ p (k, v) = true := by
  simp only [List.any_eq_true, Prod.exists, mem_toList]

theorem size_eq_zero_iff : m.size = 0 ↔ ∀ k : α, m[k]? = none := by
  rw [← eq_empty_iff, ExtTreeMap.isEmpty_eq_size_beq_zero, beq_iff_eq]

theorem size_le_length {l : List α} (h : ∀ (k : α) (v : β), m[k]? = some v → k ∈ l) :
    m.size ≤ l.length := by
  have hnodup : m.keys.Nodup := (keys_sorted m).imp ne_of_lt
  have hsub : m.keys ⊆ l := by
    intro k hk
    obtain ⟨v, hv⟩ := mem_keys.mp hk
    exact h k v hv
  have hle := (List.Nodup.subperm hnodup hsub).length_le
  rwa [ExtTreeMap.length_keys] at hle

end SortedMap
