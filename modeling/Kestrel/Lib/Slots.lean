import Mathlib.Algebra.BigOperators.Group.Finset.Basic
import Mathlib.Algebra.Order.BigOperators.Group.Finset
import Mathlib.Algebra.Order.Group.Multiset
import Kestrel.Lib.SortedMap

/-! # Indexed slots

Items lie in numbered slots, and a map knows under each item's key the slot and the position at
which it lies. Adding an item at the end of a slot, moving the last item of a slot into the place
of one that is taken out, closing the gap after one, and emptying a slot keep the map right.
-/

namespace Slots

open Std (ExtTreeMap)

open scoped SortedMap

variable {α κ : Type*} [LinearOrder κ] {key : α → κ} {slots : ℕ → List α}
  {places : ExtTreeMap κ (ℕ × ℕ)} {s p n : ℕ} {a : α}

/-- The map holds the place of every item, and nothing else. -/
def Indexed (key : α → κ) (slots : ℕ → List α) (places : ExtTreeMap κ (ℕ × ℕ)) : Prop :=
  ∀ k s p, places[k]? = some (s, p) ↔ ∃ a, (slots s)[p]? = some a ∧ key a = k

namespace Indexed

theorem place (h : Indexed key slots places) (ha : (slots s)[p]? = some a) :
    places[key a]? = some (s, p) :=
  (h _ s p).mpr ⟨a, ha, rfl⟩

theorem place_unique (h : Indexed key slots places) {s' p' : ℕ} {a' : α}
    (ha : (slots s)[p]? = some a) (ha' : (slots s')[p']? = some a') (hk : key a = key a') :
    s = s' ∧ p = p' := by
  have hp := h.place ha
  rw [hk, h.place ha'] at hp
  cases hp
  exact ⟨rfl, rfl⟩

theorem nodup (h : Indexed key slots places) (s : ℕ) : ((slots s).map key).Nodup := by
  rw [List.nodup_iff_injective_getElem]
  rintro ⟨i, hi⟩ ⟨j, hj⟩ hij
  simp only [List.getElem_map] at hij
  have hp := h.place_unique (List.getElem?_eq_getElem (by simpa using hi))
    (List.getElem?_eq_getElem (by simpa using hj)) hij
  exact Fin.ext hp.2

theorem setSlot (h : Indexed key slots places) {l : List α} {places' : ExtTreeMap κ (ℕ × ℕ)}
    (hother : ∀ (k : κ) (s' p : ℕ), s' ≠ s →
      (places'[k]? = some (s', p) ↔ places[k]? = some (s', p)))
    (hslot : ∀ (k : κ) (p : ℕ), places'[k]? = some (s, p) ↔ ∃ a, l[p]? = some a ∧ key a = k) :
    Indexed key (Function.update slots s l) places' := by
  intro k s' p
  by_cases hs : s' = s
  · subst hs
    rw [hslot, Function.update_self]
  · rw [hother k s' p hs, h k s' p, Function.update_of_ne hs]

theorem push (h : Indexed key slots places) (hk : places[key a]? = none) :
    Indexed key (Function.update slots s (slots s ++ [a]))
      (places.insert (key a) (s, (slots s).length)) := by
  have hnew {k : κ} {q : ℕ × ℕ} (hq : places[k]? = some q) : key a ≠ k := by
    rintro rfl
    rw [hk] at hq
    cases hq
  apply h.setSlot
  · intro k s' p hs
    rw [SortedMap.getElem?_insert]
    split
    · subst k
      rw [hk]
      simp only [Option.some.injEq, Prod.mk.injEq, reduceCtorEq, iff_false, not_and]
      intro he
      exact absurd he.symm hs
    · rfl
  · intro k p
    rw [SortedMap.getElem?_insert]
    constructor
    · intro hp
      split at hp
      · cases hp
        exact ⟨a, by simp, ‹_›⟩
      · obtain ⟨b, hb, hbk⟩ := (h k s p).mp hp
        exact ⟨b, by rw [List.getElem?_append_left (List.getElem?_eq_some_iff.mp hb).1, hb], hbk⟩
    · rintro ⟨b, hb, rfl⟩
      rcases lt_trichotomy p (slots s).length with hp | rfl | hp
      · rw [List.getElem?_append_left hp] at hb
        rw [if_neg (hnew (h.place hb)), h.place hb]
      · simp only [List.getElem?_concat_length, Option.some.injEq] at hb
        rw [if_pos (congrArg key hb)]
      · rw [List.getElem?_eq_none (by simp; omega)] at hb
        cases hb

end Indexed

/-- Moves the last item into a position and drops the last position. -/
def swapPop (l : List α) (p : ℕ) : List α :=
  match l.getLast? with
  | some a => (l.set p a).dropLast
  | none => l

theorem swapPop_of_getElem? {l : List α} (ha : l[p]? = some a) :
    ∃ b, l.getLast? = some b ∧ swapPop l p = (l.set p b).dropLast := by
  cases hb : l.getLast? with
  | none =>
    rw [List.getLast?_eq_none_iff] at hb
    rw [hb] at ha
    cases ha
  | some b =>
    refine ⟨b, rfl, ?_⟩
    rw [swapPop, hb]

theorem length_swapPop (l : List α) (p : ℕ) : (swapPop l p).length = l.length - 1 := by
  rw [swapPop]
  split
  · simp
  · rename_i h
    rw [List.getLast?_eq_none_iff.mp h]
    rfl

theorem mem_of_mem_swapPop {l : List α} (h : a ∈ swapPop l p) : a ∈ l := by
  rw [swapPop] at h
  split at h
  · rename_i b hb
    rcases List.mem_or_eq_of_mem_set (List.mem_of_mem_dropLast h) with h | rfl
    · exact h
    · exact List.mem_of_getLast? hb
  · exact h

theorem getElem?_swapPop {l : List α} (ha : l[p]? = some a) (j : ℕ) :
    (swapPop l p)[j]? =
      if j + 1 < l.length then if j = p then l.getLast? else l[j]? else none := by
  obtain ⟨b, hb, he⟩ := swapPop_of_getElem? ha
  rw [he, hb, List.getElem?_dropLast, List.length_set]
  by_cases hj : j + 1 < l.length
  · rw [if_pos (by omega), if_pos hj, List.getElem?_set]
    by_cases hp : j = p
    · rw [if_pos hp.symm, if_pos hp, if_pos (by omega)]
    · rw [if_neg (Ne.symm hp), if_neg hp]
  · rw [if_neg (by omega), if_neg hj]

theorem cons_swapPop {l : List α} (ha : l[p]? = some a) : List.Perm l (a :: swapPop l p) := by
  induction l generalizing p with
  | nil => cases ha
  | cons c l ih =>
    cases p with
    | zero =>
      cases ha
      cases hl : l.getLast? with
      | none =>
        rw [List.getLast?_eq_none_iff.mp hl]
        rfl
      | some b =>
        obtain ⟨l', rfl⟩ := List.getLast?_eq_some_iff.mp hl
        have he : swapPop (a :: (l' ++ [b])) 0 = b :: l' := by
          rw [swapPop, List.getLast?_cons, hl]
          simp [List.dropLast_cons_of_ne_nil]
        rw [he]
        exact (List.perm_append_singleton b l').cons a
    | succ p =>
      rw [List.getElem?_cons_succ] at ha
      have hne : l ≠ [] := by
        rintro rfl
        cases ha
      obtain ⟨b, hb, he⟩ := swapPop_of_getElem? ha
      have hc : swapPop (c :: l) (p + 1) = c :: swapPop l p := by
        rw [he, swapPop, List.getLast?_cons, hb]
        simp only [Option.getD_some, List.set_cons_succ]
        exact List.dropLast_cons_of_ne_nil (by simpa using hne)
      rw [hc]
      exact ((ih ha).cons c).trans (List.Perm.swap a c _)

namespace Indexed

/-- An item is taken out and the last item of its slot moves into its place. -/
theorem swapPop (h : Indexed key slots places) (ha : (slots s)[p]? = some a)
    {places' : ExtTreeMap κ (ℕ × ℕ)}
    (hp : ∀ k : κ, places'[k]? = if key a = k then none else
      if ((Slots.swapPop (slots s) p)[p]?).map key = some k then some (s, p) else places[k]?) :
    Indexed key (Function.update slots s (Slots.swapPop (slots s) p)) places' := by
  have hlast {b : α} (hb : (slots s).getLast? = some b) :
      (slots s)[(slots s).length - 1]? = some b := by
    rwa [List.getLast?_eq_getElem?] at hb
  have hplt : p < (slots s).length := (List.getElem?_eq_some_iff.mp ha).1
  apply h.setSlot
  · intro k s' q hs
    rw [hp]
    split_ifs with hk hm
    · subst hk
      rw [h.place ha]
      simp [Ne.symm hs]
    · obtain ⟨b, hb, rfl⟩ := Option.map_eq_some_iff.mp hm
      rw [getElem?_swapPop ha, if_pos rfl] at hb
      split at hb
      · rw [h.place (hlast hb)]
        simp [Ne.symm hs]
      · cases hb
    · rfl
  · intro k q
    rw [hp]
    constructor
    · intro hq
      split_ifs at hq with hk hm
      · cases hq
        obtain ⟨b, hb, hbk⟩ := Option.map_eq_some_iff.mp hm
        exact ⟨b, hb, hbk⟩
      · obtain ⟨b, hb, hbk⟩ := (h k s q).mp hq
        have hqp : q ≠ p := by
          rintro rfl
          rw [ha] at hb
          cases hb
          exact hk hbk
        have hqlt : q < (slots s).length := (List.getElem?_eq_some_iff.mp hb).1
        have hq1 : q + 1 < (slots s).length := by
          by_contra hge
          -- the item at the end of the slot is the one that moves
          have hqe : q = (slots s).length - 1 := by omega
          apply hm
          rw [getElem?_swapPop ha, if_pos rfl, if_pos (by omega), List.getLast?_eq_getElem?, ← hqe,
            hb, Option.map_some, hbk]
        refine ⟨b, ?_, hbk⟩
        rw [getElem?_swapPop ha, if_pos hq1, if_neg hqp, hb]
    · rintro ⟨b, hb, rfl⟩
      have hb' := hb
      rw [getElem?_swapPop ha] at hb
      split_ifs at hb with hq1 hqp
      · subst hqp
        have hne : key a ≠ key b := by
          intro hk
          have := (h.place_unique ha (hlast hb) hk).2
          omega
        rw [if_neg hne, hb', Option.map_some, if_pos rfl]
      · have hne : key a ≠ key b := by
          intro hk
          exact hqp (h.place_unique ha hb hk).2.symm
        have hm : ¬ ((Slots.swapPop (slots s) p)[p]?).map key = some (key b) := by
          intro hm
          obtain ⟨c, hc, hck⟩ := Option.map_eq_some_iff.mp hm
          rw [getElem?_swapPop ha, if_pos rfl] at hc
          split at hc
          · have := (h.place_unique (hlast hc) hb hck).2
            omega
          · cases hc
        rw [if_neg hne, if_neg hm, h.place hb]

end Indexed

/-- Writes down the positions of a run of items that starts at a position of a slot. -/
def reindex (key : α → κ) (s : ℕ) :
    ExtTreeMap κ (ℕ × ℕ) → ℕ → List α → ExtTreeMap κ (ℕ × ℕ)
  | places, _, [] => places
  | places, j, b :: l => reindex key s (places.insert (key b) (s, j)) (j + 1) l

theorem getElem?_reindex_of_not_mem {l : List α} {k : κ} (hk : k ∉ l.map key) (j : ℕ) :
    (reindex key s places j l)[k]? = places[k]? := by
  induction l generalizing places j with
  | nil => rfl
  | cons b l ih =>
    rw [List.map_cons, List.mem_cons, not_or] at hk
    rw [reindex, ih hk.2, SortedMap.getElem?_insert, if_neg (Ne.symm hk.1)]

theorem getElem?_reindex {l : List α} {i : ℕ} {b : α} (hnd : (l.map key).Nodup)
    (hb : l[i]? = some b) (j : ℕ) :
    (reindex key s places j l)[key b]? = some (s, j + i) := by
  induction l generalizing places i j with
  | nil => cases hb
  | cons c l ih =>
    obtain ⟨hc, hnd⟩ := List.nodup_cons.mp hnd
    rw [reindex]
    cases i with
    | zero =>
      cases hb
      rw [getElem?_reindex_of_not_mem hc, SortedMap.getElem?_insert, if_pos rfl, Nat.add_zero]
    | succ i =>
      rw [ih hnd hb, Nat.add_assoc, Nat.add_comm 1]

namespace Indexed

/-- An item is taken out and those behind it move up. -/
theorem eraseIdx {pre rest : List α} (h : Indexed key slots places)
    (hs : slots s = pre ++ a :: rest) :
    Indexed key (Function.update slots s (pre ++ rest))
      (reindex key s (places.erase (key a)) pre.length rest) := by
  have hnd := h.nodup s
  rw [hs, List.map_append, List.map_cons, List.nodup_append, List.nodup_cons] at hnd
  obtain ⟨-, ⟨hka, hndr⟩, hdis⟩ := hnd
  have hat : (slots s)[pre.length]? = some a := by
    rw [hs, List.getElem?_append_right le_rfl, Nat.sub_self]
    rfl
  have hrest {i : ℕ} {b : α} (hb : rest[i]? = some b) :
      (slots s)[pre.length + 1 + i]? = some b := by
    rw [hs, List.getElem?_append_right (by omega)]
    have hi : pre.length + 1 + i - pre.length = i + 1 := by omega
    rw [hi, List.getElem?_cons_succ, hb]
  have hpre {i : ℕ} (hi : i < pre.length) : (slots s)[i]? = pre[i]? := by
    rw [hs, List.getElem?_append_left hi]
  apply h.setSlot
  · intro k s' q hne
    by_cases hk : k ∈ rest.map key
    · obtain ⟨b, hb, rfl⟩ := List.mem_map.mp hk
      obtain ⟨i, hi⟩ := List.mem_iff_getElem?.mp hb
      rw [getElem?_reindex hndr hi, h.place (hrest hi)]
      simp [Ne.symm hne]
    · rw [getElem?_reindex_of_not_mem hk, SortedMap.getElem?_erase]
      split
      · subst k
        rw [h.place hat]
        simp [Ne.symm hne]
      · rfl
  · intro k q
    constructor
    · intro hq
      by_cases hk : k ∈ rest.map key
      · obtain ⟨b, hb, rfl⟩ := List.mem_map.mp hk
        obtain ⟨i, hi⟩ := List.mem_iff_getElem?.mp hb
        rw [getElem?_reindex hndr hi] at hq
        cases hq
        refine ⟨b, ?_, rfl⟩
        rw [List.getElem?_append_right (by omega), Nat.add_sub_cancel_left, hi]
      · rw [getElem?_reindex_of_not_mem hk, SortedMap.getElem?_erase] at hq
        split at hq
        · cases hq
        · rename_i hak
          obtain ⟨b, hb, rfl⟩ := (h k s q).mp hq
          refine ⟨b, ?_, rfl⟩
          rcases lt_trichotomy q pre.length with hlt | rfl | hgt
          · rw [List.getElem?_append_left hlt, ← hpre hlt, hb]
          · rw [hat] at hb
            cases hb
            exact absurd rfl hak
          · rw [hs, List.getElem?_append_right hgt.le] at hb
            obtain ⟨i, hi⟩ : ∃ i, q - pre.length = i + 1 := ⟨q - pre.length - 1, by omega⟩
            rw [hi, List.getElem?_cons_succ] at hb
            exact absurd (List.mem_map_of_mem (List.mem_of_getElem? hb)) hk
    · rintro ⟨b, hb, rfl⟩
      rcases lt_or_ge q pre.length with hlt | hge
      · rw [List.getElem?_append_left hlt] at hb
        have hmem := List.mem_map_of_mem (f := key) (List.mem_of_getElem? hb)
        have hnr : key b ∉ rest.map key := fun hk =>
          hdis _ hmem _ (List.mem_cons_of_mem _ hk) rfl
        have hna : key a ≠ key b := fun hk =>
          hdis _ hmem _ (List.mem_cons.mpr (Or.inl hk.symm)) rfl
        rw [getElem?_reindex_of_not_mem hnr, SortedMap.getElem?_erase, if_neg hna]
        exact h.place ((hpre hlt).trans hb)
      · rw [List.getElem?_append_right hge] at hb
        rw [getElem?_reindex hndr hb]
        simp only [Option.some.injEq, Prod.mk.injEq, true_and]
        omega

theorem takeSlot (h : Indexed key slots places) :
    Indexed key (Function.update slots s [])
      (SortedMap.eraseAll places ((slots s).map key)) := by
  have hmem {k : κ} : k ∈ (slots s).map key ↔ ∃ p, places[k]? = some (s, p) := by
    rw [List.mem_map]
    constructor
    · rintro ⟨b, hb, rfl⟩
      obtain ⟨i, hi⟩ := List.mem_iff_getElem?.mp hb
      exact ⟨i, h.place hi⟩
    · rintro ⟨p, hp⟩
      obtain ⟨b, hb, hk⟩ := (h k s p).mp hp
      exact ⟨b, List.mem_of_getElem? hb, hk⟩
  apply h.setSlot
  · intro k s' q hne
    rw [SortedMap.getElem?_eraseAll]
    split
    · rename_i hk
      obtain ⟨p, hp⟩ := hmem.mp hk
      rw [hp]
      simp [Ne.symm hne]
    · rfl
  · intro k q
    rw [SortedMap.getElem?_eraseAll]
    constructor
    · intro hq
      split at hq
      · cases hq
      · rename_i hk
        exact absurd (hmem.mpr ⟨q, hq⟩) hk
    · rintro ⟨b, hb, -⟩
      cases hb

end Indexed

/-- Everything in the first slots. -/
def contents (slots : ℕ → List α) (n : ℕ) : Multiset α := ∑ s ∈ Finset.range n, ↑(slots s)

theorem mem_contents : a ∈ contents slots n ↔ ∃ s < n, a ∈ slots s := by
  simp [contents, Multiset.mem_sum]

theorem Indexed.nodup_contents (h : Indexed key slots places) (n : ℕ) :
    ((contents slots n).map key).Nodup := by
  induction n with
  | zero => simp [contents]
  | succ n ih =>
    have hsum : contents slots (n + 1) = contents slots n + ↑(slots n) := Finset.sum_range_succ ..
    rw [hsum, Multiset.map_add, Multiset.nodup_add]
    refine ⟨ih, ?_, ?_⟩
    · exact Multiset.coe_nodup.mpr (h.nodup n)
    · rw [Multiset.disjoint_left]
      intro k hk hk'
      obtain ⟨a, ha, rfl⟩ := Multiset.mem_map.mp hk
      obtain ⟨b, hb, hab⟩ := Multiset.mem_map.mp hk'
      obtain ⟨s, hs, has⟩ := mem_contents.mp ha
      obtain ⟨i, hi⟩ := List.mem_iff_getElem?.mp has
      obtain ⟨j, hj⟩ := List.mem_iff_getElem?.mp (Multiset.mem_coe.mp hb)
      exact hs.ne (h.place_unique hi hj hab.symm).1

theorem contents_update (slots : ℕ → List α) (hs : s < n) (l : List α) :
    contents (Function.update slots s l) n + ↑(slots s) = contents slots n + ↑l := by
  have hmem := Finset.mem_range.mpr hs
  have hrest : ∑ i ∈ (Finset.range n).erase s, (↑(Function.update slots s l i) : Multiset α) =
      ∑ i ∈ (Finset.range n).erase s, ↑(slots i) := by
    apply Finset.sum_congr rfl
    intro i hi
    rw [Function.update_of_ne (Finset.ne_of_mem_erase hi)]
  rw [contents, contents, ← Finset.add_sum_erase _ _ hmem, ← Finset.add_sum_erase _ _ hmem, hrest,
    Function.update_self]
  ac_rfl

theorem contents_update_filter (hs : s < n) (q : α → Bool) :
    ↑((slots s).filter q) +
      contents (Function.update slots s ((slots s).filter fun a => !q a)) n = contents slots n := by
  have hsplit :
      (↑(slots s) : Multiset α) = ↑((slots s).filter q) + ↑((slots s).filter fun a => !q a) := by
    rw [Multiset.coe_add, Multiset.coe_eq_coe]
    exact (List.filter_append_perm q (slots s)).symm
  have h := contents_update slots hs ((slots s).filter fun a => !q a)
  rw [hsplit, ← add_assoc, add_left_inj] at h
  rw [add_comm, h]

theorem contents_filter (slots : ℕ → List α) (n : ℕ) (q : α → Prop) [DecidablePred q] :
    contents (fun s => (slots s).filter q) n = (contents slots n).filter q := by
  induction n with
  | zero => rfl
  | succ n ih =>
    rw [contents, Finset.sum_range_succ, ← contents, ih, contents, contents,
      Finset.sum_range_succ, Multiset.filter_add, Multiset.filter_coe]

section Groups

variable {β σ : Type*} {f : β → ℕ} {order : List ℕ} {l : List β}

theorem flatMap_filter_of_notMem (hs : s ∉ order) :
    (order.flatMap fun t => l.filter (f · = t)) =
      order.flatMap fun t => (l.filter fun b => !decide (f b = s)).filter (f · = t) := by
  apply List.flatMap_congr
  intro t ht
  rw [List.filter_filter]
  apply List.filter_congr
  intro b _
  by_cases hb : f b = t
  · have hbs : f b ≠ s := by
      rintro rfl
      exact hs (hb ▸ ht)
    simp [hb, hb ▸ hbs]
  · simp [hb]

theorem mem_of_mem_filter_of_ne (hl : ∀ b ∈ l, f b ∈ s :: order) :
    ∀ b ∈ l.filter fun b => !decide (f b = s), f b ∈ order := by
  intro b hb
  obtain ⟨hbl, hbs⟩ := List.mem_filter.mp hb
  rcases List.mem_cons.mp (hl b hbl) with he | he
  · simp [he] at hbs
  · exact he

/-- Collecting the items of a list group by group collects them all. -/
theorem flatMap_filter_perm (f : β → ℕ) {order : List ℕ} (hnd : order.Nodup)
    {l : List β} (hl : ∀ b ∈ l, f b ∈ order) :
    List.Perm (order.flatMap fun s => l.filter (f · = s)) l := by
  induction order generalizing l with
  | nil =>
    cases l with
    | nil => rfl
    | cons b l => exact absurd (hl b (List.mem_cons_self ..)) List.not_mem_nil
  | cons s order ih =>
    obtain ⟨hs, hnd⟩ := List.nodup_cons.mp hnd
    rw [List.flatMap_cons, flatMap_filter_of_notMem hs]
    exact ((ih hnd (mem_of_mem_filter_of_ne hl)).append_left _).trans (List.filter_append_perm _ l)

variable {g : σ → β → σ}

theorem foldl_step_comm {b : β} (h : ∀ a ∈ l, ∀ x, g (g x b) a = g (g x a) b) (x : σ) :
    l.foldl g (g x b) = g (l.foldl g x) b := by
  induction l generalizing x with
  | nil => rfl
  | cons a l ih =>
    rw [List.forall_mem_cons] at h
    rw [List.foldl_cons, List.foldl_cons, h.1, ih h.2]

theorem foldl_filter_append {p : β → Bool}
    (h : ∀ a ∈ l, ∀ b ∈ l, p a = true → p b = false → ∀ x, g (g x b) a = g (g x a) b) (x : σ) :
    (l.filter p ++ l.filter fun b => !p b).foldl g x = l.foldl g x := by
  induction l generalizing x with
  | nil => rfl
  | cons b l ih =>
    have hl := ih fun a ha c hc => h a (List.mem_cons_of_mem _ ha) c (List.mem_cons_of_mem _ hc)
    cases hb : p b with
    | true =>
      simp only [List.filter_cons, hb, Bool.not_true, List.foldl_cons]
      exact hl _
    | false =>
      have hcomm := foldl_step_comm (l := l.filter p) (g := g) (b := b) (by
        intro a ha
        obtain ⟨hal, hpa⟩ := List.mem_filter.mp ha
        exact h a (List.mem_cons_of_mem _ hal) b (List.mem_cons_self ..) hpa hb) x
      simp only [List.filter_cons, hb, Bool.not_false, List.foldl_append, List.foldl_cons,
        Bool.false_eq_true, if_false, if_true]
      rw [← hcomm, ← List.foldl_append, hl]

/-- Steps that commute across groups may be taken group by group. -/
theorem foldl_flatMap_filter (hnd : order.Nodup) (hl : ∀ b ∈ l, f b ∈ order)
    (hg : ∀ a ∈ l, ∀ b ∈ l, f a ≠ f b → ∀ x, g (g x b) a = g (g x a) b) (x : σ) :
    (order.flatMap fun s => l.filter (f · = s)).foldl g x = l.foldl g x := by
  induction order generalizing l x with
  | nil =>
    cases l with
    | nil => rfl
    | cons b l => exact absurd (hl b (List.mem_cons_self ..)) List.not_mem_nil
  | cons s order ih =>
    obtain ⟨hs, hnd⟩ := List.nodup_cons.mp hnd
    rw [List.flatMap_cons, flatMap_filter_of_notMem hs, List.foldl_append,
      ih hnd (mem_of_mem_filter_of_ne hl), ← List.foldl_append]
    · apply foldl_filter_append
      intro a ha b hb hpa hpb
      apply hg a ha b hb
      rw [of_decide_eq_true hpa]
      exact (of_decide_eq_false hpb) ∘ Eq.symm
    · intro a ha b hb
      exact hg a (List.mem_of_mem_filter ha) b (List.mem_of_mem_filter hb)

end Groups

section Removals

/-- How many of some positions are found in a slot that gets shorter by one each time. -/
def removals : ℕ → List ℕ → ℕ
  | _, [] => 0
  | n, p :: l => if p < n then removals (n - 1) l + 1 else removals n l

variable {l : List ℕ} {q : ℕ}

theorem card_insert_filter_lt_le (hp : ∀ q ∈ l, q ≤ p) (hn : p < n) :
    ((insert p l.toFinset).filter (· < n)).card ≤ (l.toFinset.filter (· < n - 1)).card + 1 := by
  refine (Finset.card_le_card ?_).trans (Finset.card_insert_le p _)
  intro q hq
  simp only [Finset.mem_filter, Finset.mem_insert, List.mem_toFinset] at hq ⊢
  by_cases hqp : q = p
  · exact Or.inl hqp
  · have hq' := hq.1.resolve_left hqp
    have := hp q hq'
    exact Or.inr ⟨hq', by omega⟩

theorem filter_insert_of_ge (hn : n ≤ p) :
    (insert p l.toFinset).filter (· < n) = l.toFinset.filter (· < n) := by
  rw [Finset.filter_insert, if_neg (not_lt.mpr hn)]

/-- Positions that are worked off from back to front are all found. -/
theorem card_le_removals (hl : l.Pairwise fun a b => b ≤ a) (n : ℕ) :
    (l.toFinset.filter (· < n)).card ≤ removals n l := by
  induction l generalizing n with
  | nil => simp
  | cons p l ih =>
    obtain ⟨hp, hl⟩ := List.pairwise_cons.mp hl
    rw [List.toFinset_cons, removals]
    split
    · rename_i hlt
      exact (card_insert_filter_lt_le hp hlt).trans (Nat.add_le_add_right (ih hl _) 1)
    · rename_i hge
      rw [filter_insert_of_ge (not_lt.mp hge)]
      exact ih hl n

theorem removals_eq_card (hl : l.Pairwise fun a b => b < a) (n : ℕ) :
    removals n l = (l.toFinset.filter (· < n)).card := by
  apply le_antisymm ?_ (card_le_removals (hl.imp le_of_lt) n)
  induction l generalizing n with
  | nil => simp [removals]
  | cons p l ih =>
    obtain ⟨hp, hl⟩ := List.pairwise_cons.mp hl
    rw [List.toFinset_cons, removals]
    split
    · rename_i hlt
      have hnot : p ∉ l.toFinset.filter (· < n - 1) := by
        intro hmem
        exact absurd (hp p (List.mem_toFinset.mp (Finset.mem_filter.mp hmem).1)) (lt_irrefl p)
      refine (Nat.add_le_add_right (ih hl (n - 1)) 1).trans ?_
      rw [← Finset.card_insert_of_notMem hnot]
      apply Finset.card_le_card
      intro q hq
      simp only [Finset.mem_filter, Finset.mem_insert, List.mem_toFinset] at hq ⊢
      rcases hq with rfl | ⟨hq, hqn⟩
      · exact ⟨Or.inl rfl, hlt⟩
      · exact ⟨Or.inr hq, by omega⟩
    · rename_i hge
      rw [filter_insert_of_ge (not_lt.mp hge)]
      exact ih hl n

/-- A position that is named twice is found twice if something behind it stays. -/
theorem card_lt_removals (hl : l.Pairwise fun a b => b ≤ a) (hc : 1 < l.count p) (hpq : p < q)
    (hqn : q < n) (hq : q ∉ l) : (l.toFinset.filter (· < n)).card < removals n l := by
  induction l generalizing n q with
  | nil => simp at hc
  | cons a l ih =>
    obtain ⟨ha, hl⟩ := List.pairwise_cons.mp hl
    rw [List.mem_cons, not_or] at hq
    have hpa : p ≤ a := by
      by_cases hap : p = a
      · exact hap.le
      · rw [List.count_cons_of_ne (Ne.symm hap)] at hc
        exact ha p (List.count_pos_iff.mp (by omega))
    rw [List.toFinset_cons, removals]
    split
    · rename_i hlt
      by_cases hlast : q < n - 1 ∧ p ≠ a
      · rw [List.count_cons_of_ne (Ne.symm hlast.2)] at hc
        exact (card_insert_filter_lt_le ha hlt).trans_lt
          (Nat.add_lt_add_right (ih hl hc hpq hlast.1 hq.2) 1)
      · have han : a < n - 1 := by
          by_cases hap : p = a
          · omega
          · have : ¬ q < n - 1 := fun h => hlast ⟨h, hap⟩
            have := hq.1
            omega
        by_cases hal : a ∈ l
        · -- the same position is found again
          have hsub : (insert a l.toFinset).filter (· < n) ⊆ l.toFinset.filter (· < n - 1) := by
            intro r hr
            simp only [Finset.mem_filter, Finset.mem_insert, List.mem_toFinset] at hr ⊢
            rcases hr with ⟨rfl | hr, -⟩
            · exact ⟨hal, han⟩
            · exact ⟨hr, (ha r hr).trans_lt han⟩
          exact Nat.lt_succ_of_le ((Finset.card_le_card hsub).trans (card_le_removals hl _))
        · have hap : p ≠ a := by
            rintro rfl
            rw [List.count_cons_self] at hc
            exact hal (List.count_pos_iff.mp (by omega))
          rw [List.count_cons_of_ne (Ne.symm hap)] at hc
          exact (card_insert_filter_lt_le ha hlt).trans_lt
            (Nat.add_lt_add_right (ih hl hc (lt_of_le_of_ne hpa hap) han hal) 1)
    · rename_i hge
      have hap : p ≠ a := by
        rintro rfl
        omega
      rw [List.count_cons_of_ne (Ne.symm hap)] at hc
      rw [filter_insert_of_ge (not_lt.mp hge)]
      exact ih hl hc hpq hqn hq.2

end Removals

end Slots
