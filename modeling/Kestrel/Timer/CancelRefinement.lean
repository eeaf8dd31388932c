import Kestrel.Timer.Runs

/-! # A batch of cancellations and single ones

A batch takes out what single cancellations of its identifiers take out, and the two wheels know
the same next time, exactly when the batch names no timer again that has another one behind it.
-/

namespace Kestrel

open Std (ExtTreeMap)

namespace TimingWheel

variable {E : Type} {w w' w'' w₁ w₂ : TimingWheel E} {e : TimerEntry E} {s p : ℕ}
  {id : TimerEntryId} {ids ids' : List TimerEntryId}

/-- Cancels timers one after the other; counts those that were there. -/
def cancelEach : TimingWheel E → List TimerEntryId → ℕ × TimingWheel E
  | w, [] => (0, w)
  | w, id :: ids =>
    let (cancelled, w) := w.cancelTimer id
    let (count, w) := cancelEach w ids
    (count + cancelled.toNat, w)

section Same

/-- The timers with these identifiers were cancelled, and the cached time was dropped if one of
them may have made it wrong. -/
def CancelsAll (w w' : TimingWheel E) (ids : List TimerEntryId) : Prop :=
  ∃ w₀, Strips w w₀ ids ∧ (w.Spoils ids ∧ w' = { w₀ with cachedNextExpiry := none } ∨
    ¬ w.Spoils ids ∧ w' = w₀)

theorem Strips.cached (h : Strips w w' ids) (c : Option Instant) :
    Strips { w with cachedNextExpiry := c } { w' with cachedNextExpiry := c } ids where
  frame := by
    obtain ⟨slots, places, rfl⟩ := h.frame
    exact ⟨slots, places, rfl⟩
  held := h.held.cached c
  slots_perm := h.slots_perm

theorem CancelsAll.refl (h : Held w) : CancelsAll w w [] :=
  ⟨w, .refl h, Or.inr ⟨not_spoils_nil, rfl⟩⟩

theorem CancelsAll.held (h : CancelsAll w w' ids) : Held w' := by
  obtain ⟨w₀, hs, ⟨-, rfl⟩ | ⟨-, rfl⟩⟩ := h
  · exact hs.held.cached none
  · exact hs.held

theorem CancelsAll.mem_slots (h : CancelsAll w w' ids) :
    e ∈ w'.slots s ↔ e ∈ w.slots s ∧ e.id ∉ ids := by
  obtain ⟨w₀, hs, ⟨-, rfl⟩ | ⟨-, rfl⟩⟩ := h <;> exact hs.mem_slots

theorem CancelsAll.isSome_timerMap (h : CancelsAll w w' ids) (hw : Held w) :
    w'.timerMap[id]?.isSome ↔ w.timerMap[id]?.isSome ∧ id ∉ ids := by
  rw [h.held.isSome_timerMap, hw.isSome_timerMap]
  simp only [h.mem_slots]
  constructor
  · rintro ⟨s, e, ⟨he, hn⟩, rfl⟩
    exact ⟨⟨s, e, he, rfl⟩, hn⟩
  · rintro ⟨⟨s, e, he, rfl⟩, hn⟩
    exact ⟨s, e, ⟨he, hn⟩, rfl⟩

theorem not_spoils_of_cached_none (h : w.cachedNextExpiry = none) : ¬ w.Spoils ids := by
  rintro ⟨s, e, -, -, hinv⟩
  rw [h] at hinv
  cases hinv

theorem CancelsAll.trans (h : CancelsAll w w' ids) (h' : CancelsAll w' w'' ids') :
    CancelsAll w w'' (ids ++ ids') := by
  obtain ⟨w₀, hs, ⟨hsp, rfl⟩ | ⟨hsp, rfl⟩⟩ := h
  · obtain ⟨w₁, hs', ⟨hsp', -⟩ | ⟨-, rfl⟩⟩ := h'
    · exact absurd hsp' (not_spoils_of_cached_none rfl)
    · have hcache : w''.cachedNextExpiry = none := hs'.cachedNextExpiry_eq
      refine ⟨{ w'' with cachedNextExpiry := w₀.cachedNextExpiry },
        hs.trans (hs'.cached w₀.cachedNextExpiry), Or.inl ⟨hs.spoils_append.mpr (Or.inl hsp), ?_⟩⟩
      rw [← hcache]
  · obtain ⟨w₁, hs', ⟨hsp', rfl⟩ | ⟨hsp', rfl⟩⟩ := h'
    · exact ⟨w₁, hs.trans hs', Or.inl ⟨hs.spoils_append.mpr (Or.inr hsp'), rfl⟩⟩
    · refine ⟨w'', hs.trans hs', Or.inr ⟨?_, rfl⟩⟩
      rw [hs.spoils_append]
      exact not_or.mpr ⟨hsp, hsp'⟩

theorem CancelsAll.congr (h : CancelsAll w w' ids)
    (hids : ∀ s, ∀ e ∈ w.slots s, e.id ∈ ids ↔ e.id ∈ ids') : CancelsAll w w' ids' := by
  have hspoils : w.Spoils ids ↔ w.Spoils ids' := by
    constructor <;> rintro ⟨s, e, he, hid, hinv⟩
    · exact ⟨s, e, he, (hids s e he).mp hid, hinv⟩
    · exact ⟨s, e, he, (hids s e he).mpr hid, hinv⟩
  obtain ⟨w₀, hs, hc⟩ := h
  exact ⟨w₀, hs.congr hids, by rwa [← hspoils]⟩

/-- Two wheels hold the same timers in the same slots and know the same next time. -/
structure SameTimers (w₁ w₂ : TimingWheel E) : Prop where
  slots_perm : ∀ s, List.Perm (w₁.slots s) (w₂.slots s)
  timerMap_iff : ∀ id : TimerEntryId, w₁.timerMap[id]?.isSome ↔ w₂.timerMap[id]?.isSome
  cachedNextExpiry_eq : w₁.cachedNextExpiry = w₂.cachedNextExpiry
  nextExpiryTime_eq : w₁.nextExpiryTime.1 = w₂.nextExpiryTime.1

instance : RightCommutative earlier where
  right_comm c a b := by
    cases c with
    | none =>
      simp only [earlier]
      rcases lt_trichotomy a b with h | rfl | h
      · rw [if_neg (not_lt.mpr h.le), if_pos h]
      · rfl
      · rw [if_pos h, if_neg (not_lt.mpr h.le)]
    | some c => grind [earlier]

theorem slotEarliest_perm {l l' : List (TimerEntry E)} (h : List.Perm l l') :
    slotEarliest l = slotEarliest l' := by
  have hmap := (h.map TimerEntry.expiryTime).foldl_eq (f := earlier) none
  rwa [List.foldl_map, List.foldl_map] at hmap

theorem searchEarliest_perm {slots slots' : ℕ → List (TimerEntry E)}
    (h : ∀ s, List.Perm (slots s) (slots' s)) (w : TimingWheel E)
    (places places' : ExtTreeMap TimerEntryId (ℕ × ℕ)) (c : Option Instant) (n o : ℕ)
    (t : Option Instant) :
    searchEarliest { w with slots := slots, timerMap := places, cachedNextExpiry := c } n o t =
      searchEarliest { w with slots := slots', timerMap := places', cachedNextExpiry := c } n o
        t := by
  induction n generalizing o t with
  | zero => rfl
  | succ n ih =>
    rw [searchEarliest, searchEarliest]
    dsimp only
    rw [slotEarliest_perm (h (w.currentSlot + o &&& w.slotMask))]
    simp only [ih]

theorem nextExpiryTime_perm {slots slots' : ℕ → List (TimerEntry E)}
    (h : ∀ s, List.Perm (slots s) (slots' s)) (w : TimingWheel E)
    {places places' : ExtTreeMap TimerEntryId (ℕ × ℕ)} (he : places.isEmpty = places'.isEmpty)
    (c : Option Instant) :
    (nextExpiryTime { w with slots := slots, timerMap := places, cachedNextExpiry := c }).1 =
      (nextExpiryTime
        { w with slots := slots', timerMap := places', cachedNextExpiry := c }).1 := by
  cases c with
  | some t => rfl
  | none =>
    rw [nextExpiryTime, nextExpiryTime]
    dsimp only
    rw [he, searchEarliest_perm h w places places' none]
    split <;> rfl

theorem CancelsAll.same (hw : Held w) (h₁ : CancelsAll w w₁ ids) (h₂ : CancelsAll w w₂ ids) :
    SameTimers w₁ w₂ := by
  have hmap (id : TimerEntryId) : w₁.timerMap[id]?.isSome ↔ w₂.timerMap[id]?.isSome :=
    (h₁.isSome_timerMap hw).trans (h₂.isSome_timerMap hw).symm
  have hempty : w₁.timerMap.isEmpty = w₂.timerMap.isEmpty := by
    rw [Bool.eq_iff_iff, SortedMap.eq_empty_iff, SortedMap.eq_empty_iff]
    simp only [← Option.not_isSome_iff_eq_none, hmap]
  obtain ⟨v₁, hs₁, hc₁⟩ := h₁
  obtain ⟨v₂, hs₂, hc₂⟩ := h₂
  have hperm (s : ℕ) : List.Perm (v₁.slots s) (v₂.slots s) :=
    (hs₁.slots_perm s).trans (hs₂.slots_perm s).symm
  obtain ⟨slots₁, places₁, rfl⟩ := hs₁.frame
  obtain ⟨slots₂, places₂, rfl⟩ := hs₂.frame
  rcases hc₁ with ⟨hsp, rfl⟩ | ⟨hsp, rfl⟩ <;> rcases hc₂ with ⟨hsp', rfl⟩ | ⟨hsp', rfl⟩
  · exact ⟨hperm, hmap, rfl, nextExpiryTime_perm hperm w hempty none⟩
  · exact absurd hsp hsp'
  · exact absurd hsp' hsp
  · exact ⟨hperm, hmap, rfl, nextExpiryTime_perm hperm w hempty w.cachedNextExpiry⟩

end Same

section Each

/-- Single cancellations take out the timers that are named, and count each of them once. -/
theorem cancelEach_spec (h : Held w) (ids : List TimerEntryId) :
    CancelsAll w (w.cancelEach ids).2 ids ∧ (w.cancelEach ids).1 =
      (ids.toFinset.filter fun id => w.timerMap[id]?.isSome).card := by
  induction ids generalizing w with
  | nil => exact ⟨.refl h, rfl⟩
  | cons id ids ih =>
    rw [cancelEach, List.toFinset_cons]
    rcases h.cancelTimer id with ⟨hnone, hc⟩ | ⟨s, e, w', he, rfl, hs, hc⟩
    · obtain ⟨hall, hcount⟩ := ih h
      have hnot : ¬ w.timerMap[id]?.isSome := by
        rw [hnone]
        exact Bool.false_ne_true
      rw [hc]
      refine ⟨hall.congr ?_, ?_⟩
      · intro s e he
        rw [List.mem_cons, or_iff_right]
        rintro rfl
        exact hnot (h.isSome_timerMap.mpr ⟨s, e, he, rfl⟩)
      · rw [Finset.filter_insert, if_neg hnot]
        exact hcount
    · have hone : CancelsAll w (if invalidates w.cachedNextExpiry (some e.expiryTime) then
          { w' with cachedNextExpiry := none } else w') [e.id] := by
        refine ⟨w', hs, ?_⟩
        rw [h.spoils_singleton he]
        split
        · rename_i hinv
          exact Or.inl ⟨hinv, rfl⟩
        · rename_i hinv
          exact Or.inr ⟨hinv, rfl⟩
      obtain ⟨hall, hcount⟩ := ih hone.held
      have hsome : w.timerMap[e.id]?.isSome := h.isSome_timerMap.mpr ⟨s, e, he, rfl⟩
      rw [hc]
      refine ⟨hone.trans hall, ?_⟩
      dsimp only
      have hrest : (ids.toFinset.filter fun id => w.timerMap[id]?.isSome).erase e.id =
          ids.toFinset.filter fun id => (if invalidates w.cachedNextExpiry (some e.expiryTime) then
            { w' with cachedNextExpiry := none } else w').timerMap[id]?.isSome := by
        ext id
        simp only [Finset.mem_erase, Finset.mem_filter, hone.isSome_timerMap h, List.mem_singleton]
        tauto
      rw [hcount, ← hrest, Finset.filter_insert, if_pos hsome]
      by_cases hin : e.id ∈ ids.toFinset.filter fun id => w.timerMap[id]?.isSome
      · rw [Finset.insert_eq_of_mem hin]
        exact Finset.card_erase_add_one hin
      · rw [Finset.card_insert_of_notMem hin, Finset.erase_eq_of_notMem hin]
        rfl

end Each

section Count

theorem fst_cancelGroup (w : TimingWheel E) (s : ℕ) (l : List (TimerEntryId × ℕ)) :
    (cancelGroup s w l).1 = Slots.removals (w.slots s).length (l.map Prod.snd) := by
  induction l generalizing w with
  | nil => rfl
  | cons x l ih =>
    rw [List.map_cons, Slots.removals]
    split
    · rename_i hlt
      rw [cancelGroup_cons_of_lt hlt]
      dsimp only
      rw [ih, length_takeOut]
    · rename_i hge
      rw [cancelGroup_cons_of_ge (not_lt.mp hge), ih]

theorem slotCount_cancelGroup (w : TimingWheel E) (s : ℕ) (l : List (TimerEntryId × ℕ)) :
    (cancelGroup s w l).2.2.slotCount = w.slotCount := by
  induction l generalizing w with
  | nil => rfl
  | cons x l ih =>
    by_cases hlt : x.2 < (w.slots s).length
    · rw [cancelGroup_cons_of_lt hlt]
      dsimp only
      rw [ih, takeOut, swapRemove]
      dsimp only
      split <;> rfl
    · rw [cancelGroup_cons_of_ge (not_lt.mp hlt), ih]

/-- The slots are worked off independently of each other. -/
theorem fst_cancelGroups (found : List (TimerEntryId × ℕ × ℕ)) {order : List ℕ} (ho : order.Nodup)
    (hlt : ∀ s ∈ order, s < w.slotCount) : (cancelGroups found w order).1 =
      (order.map fun s => Slots.removals (w.slots s).length
        ((cancelOrder found s).map Prod.snd)).sum := by
  induction order generalizing w with
  | nil => rfl
  | cons s order ih =>
    rw [List.nodup_cons] at ho
    rw [List.forall_mem_cons] at hlt
    have hrest := ih (w := (cancelGroup s w (cancelOrder found s)).2.2) ho.2 (by
      rw [slotCount_cancelGroup]
      exact hlt.2)
    rw [cancelGroups, if_neg (not_le.mpr hlt.1), List.map_cons, List.sum_cons, ← fst_cancelGroup]
    dsimp only
    rw [hrest]
    congr 2
    apply List.map_congr_left
    intro i hi
    rw [slots_cancelGroup_of_ne (ne_of_mem_of_not_mem hi ho.1)]

theorem count_le_count_cancelOrder (hp : w.timerMap[id]? = some (s, p)) :
    ids.count id ≤ (cancelOrder (w.findPlaces ids) s).count (id, p) := by
  rw [cancelOrder, (List.perm_insertionSort _ _).count_eq]
  induction ids with
  | nil => exact Nat.zero_le _
  | cons a ids ih =>
    by_cases ha : a = id
    · subst ha
      have hcons : w.findPlaces (a :: ids) = (a, s, p) :: w.findPlaces ids := by
        rw [findPlaces, List.filterMap_cons_some (by rw [hp]; rfl)]
        rfl
      rw [hcons, List.filter_cons_of_pos (by simp), List.map_cons, List.count_cons_self,
        List.count_cons_self]
      exact Nat.add_le_add_right ih 1
    · rw [List.count_cons_of_ne ha]
      refine ih.trans (List.Sublist.count_le _ ?_)
      apply List.Sublist.map
      apply List.Sublist.filter
      exact List.Sublist.filterMap _ (List.sublist_cons_self a ids)

theorem removals_cancelOrder_dedup (h : Held w) (ids : List TimerEntryId) (s n : ℕ) :
    Slots.removals n ((cancelOrder (w.findPlaces ids.dedup) s).map Prod.snd) =
      (((cancelOrder (w.findPlaces ids) s).map Prod.snd).toFinset.filter (· < n)).card := by
  rw [← dedup_cancelOrder h]
  have hle := List.pairwise_insertionSort (fun a b : TimerEntryId × ℕ => b.2 ≤ a.2)
    (((w.findPlaces ids).filter (·.2.1 = s)).map fun x => (x.1, x.2.2))
  have hlt : (cancelOrder (w.findPlaces ids) s).dedup.Pairwise fun a b => b.2 < a.2 := by
    refine ((hle.sublist (List.dedup_sublist _)).and (List.nodup_dedup _)).imp_of_mem ?_
    rintro a b ha hb ⟨hab, hne⟩
    apply lt_of_le_of_ne hab
    intro hpos
    exact hne (place_injective h (List.mem_dedup.mp ha) (List.mem_dedup.mp hb) hpos.symm)
  rw [Slots.removals_eq_card (List.pairwise_map.mpr hlt)]
  congr 2
  ext p
  simp

theorem pairwise_cancelOrder (found : List (TimerEntryId × ℕ × ℕ)) (s : ℕ) :
    ((cancelOrder found s).map Prod.snd).Pairwise fun a b => b ≤ a :=
  List.pairwise_map.mpr
    (List.pairwise_insertionSort (fun a b : TimerEntryId × ℕ => b.2 ≤ a.2) _)

theorem removals_dedup_le (h : Held w) (ids : List TimerEntryId) (s n : ℕ) :
    Slots.removals n ((cancelOrder (w.findPlaces ids.dedup) s).map Prod.snd) ≤
      Slots.removals n ((cancelOrder (w.findPlaces ids) s).map Prod.snd) := by
  rw [removals_cancelOrder_dedup h]
  exact Slots.card_le_removals (pairwise_cancelOrder _ s) n

/-- It finds more if something behind that timer stays. -/
theorem removals_dedup_lt (h : Held w) (hc : 1 < ids.count id)
    (hp : w.timerMap[id]? = some (s, p)) (he : e ∈ (w.slots s).drop (p + 1)) (hid : e.id ∉ ids) :
    Slots.removals (w.slots s).length ((cancelOrder (w.findPlaces ids.dedup) s).map Prod.snd) <
      Slots.removals (w.slots s).length ((cancelOrder (w.findPlaces ids) s).map Prod.snd) := by
  rw [removals_cancelOrder_dedup h]
  obtain ⟨i, hi, hei⟩ := List.mem_drop_iff_getElem.mp he
  have hat : (w.slots s)[p + 1 + i]? = some e := by
    rw [List.getElem?_eq_getElem (by omega)]
    exact congrArg some hei
  refine Slots.card_lt_removals (pairwise_cancelOrder _ s) (p := p) (q := p + 1 + i) ?_ (by omega)
    (List.getElem?_eq_some_iff.mp hat).1 ?_
  · have hcount := hc.trans_le (count_le_count_cancelOrder hp)
    exact hcount.trans_le
      (List.count_le_count_map (f := Prod.snd) (x := ((id, p) : TimerEntryId × ℕ)))
  · intro hmem
    obtain ⟨⟨k, q⟩, hk, rfl⟩ := List.mem_map.mp hmem
    obtain ⟨hin, hq⟩ := mem_findPlaces.mp (mem_cancelOrder.mp hk)
    obtain ⟨b, hb, rfl⟩ := (h.indexed _ _ _).mp hq
    rw [hat] at hb
    cases hb
    exact hid hin

end Count

/-- The batch takes out what single cancellations take out and returns how many of them would have
succeeded; afterwards the two wheels hold the same timers. -/
structure RefinesEach (w : TimingWheel E) (entryIds : List TimerEntryId) (order : List ℕ) :
    Prop where
  count_eq : (w.batchCancelTimers entryIds order).1 = (w.cancelEach entryIds).1
  same : SameTimers (w.batchCancelTimers entryIds order).2 (w.cancelEach entryIds).2

section Refines

variable {order : List ℕ}

theorem fst_batchCancelTimers (h : Held w)
    (ho : IsOrder order ((w.findPlaces ids).map (·.2.1))) : (w.batchCancelTimers ids order).1 =
      (order.map fun s => Slots.removals (w.slots s).length
        ((cancelOrder (w.findPlaces ids) s).map Prod.snd)).sum := by
  have hlt (s : ℕ) (hs : s ∈ order) : s < w.slotCount := by
    obtain ⟨x, hx, rfl⟩ := List.mem_map.mp (ho.2.1 s hs)
    obtain ⟨e, he, -⟩ := (h.indexed _ _ _).mp (mem_findPlaces.mp hx).2
    exact h.slot_lt _ e (List.mem_of_getElem? he)
  rw [← fst_cancelGroups (w.findPlaces ids) ho.1 hlt, batchCancelTimers]
  cases ids with
  | nil =>
    have hnil : order = [] := by
      rw [List.eq_nil_iff_forall_not_mem]
      intro s hs
      exact List.not_mem_nil (ho.2.1 s hs)
    rw [hnil]
    rfl
  | cons id ids =>
    rw [if_neg (by simp)]
    dsimp only
    split <;> rfl

/-- A batch without repetitions cancels what single cancellations do. -/
theorem batchCancelTimers_dedup_spec (h : Held w)
    (ho : IsOrder order ((w.findPlaces ids).map (·.2.1))) :
    CancelsAll w (w.batchCancelTimers ids.dedup order).2 ids ∧
      (w.batchCancelTimers ids.dedup order).1 = (w.cancelEach ids).1 := by
  have ho' := isOrder_dedup ho
  obtain ⟨stale, w', hs, hc, hst⟩ := h.batchCancelTimers (List.nodup_dedup ids) ho.1
    fun x hx => ho'.2.2 _ (List.mem_map_of_mem hx)
  rw [hc]
  constructor
  · have hall : CancelsAll w (if stale = true then { w' with cachedNextExpiry := none } else w')
        ids.dedup := by
      refine ⟨w', hs, ?_⟩
      rw [← hst]
      split
      · rename_i hstale
        exact Or.inl ⟨hstale, rfl⟩
      · rename_i hstale
        exact Or.inr ⟨hstale, rfl⟩
    exact hall.congr fun _ _ _ => List.mem_dedup
  · rw [(cancelEach_spec h ids).2, ← List.toFinset_card_of_nodup ((List.nodup_dedup ids).filter _),
      List.toFinset_filter]
    dsimp only
    congr 1
    ext id
    simp

theorem refinesEach_iff_harmless (h : Held w)
    (ho : IsOrder order ((w.findPlaces ids).map (·.2.1))) :
    w.RefinesEach ids order ↔ w.Harmless ids := by
  obtain ⟨hall, hcount⟩ := batchCancelTimers_dedup_spec h ho
  constructor
  · rintro ⟨hc, -⟩ id hid hdup ⟨s, p⟩ hp e he
    by_contra hne
    -- the batch takes out a timer that it does not name
    have hs : s ∈ order :=
      ho.2.2 s (List.mem_map.mpr ⟨(id, s, p), mem_findPlaces.mpr ⟨hid, hp⟩, rfl⟩)
    have hlt := List.sum_lt_sum _ _
      (fun i _ => removals_dedup_le h ids i (w.slots i).length)
      ⟨s, hs, removals_dedup_lt h hdup hp he hne⟩
    rw [← fst_batchCancelTimers h ho, ← fst_batchCancelTimers h (isOrder_dedup ho), hcount,
      hc] at hlt
    exact absurd hlt (lt_irrefl _)
  · intro hh
    rw [← batchCancelTimers_dedup h hh ho.1] at hall hcount
    exact ⟨hcount, hall.same h (cancelEach_spec h ids).1⟩

/-- Where every batch before it took out only what it named, a batch of cancellations does what
single ones do exactly if it does so too. -/
theorem batchCancelTimers_refines
    (h : ((runs E).restrict fun w op _ => op.Spares w).Reachable w)
    (ho : IsOrder order ((w.findPlaces ids).map (·.2.1))) :
    w.RefinesEach ids order ↔ w.Harmless ids :=
  refinesEach_iff_harmless (held h) ho

/-- After one timer has expired and another was cancelled, a batch names a timer of the first
slot, the last one of the second slot twice, the two that are gone and one that never was. -/
theorem batchCancelTimers_refines_sample : ∃ w : TimingWheel Unit,
    (w.slots 1 = [⟨5, 34, ()⟩, ⟨3, 32, ()⟩] ∧ (w.slots 0).map (·.id) = [4]) ∧
      w.RefinesEach [3, 1, 2, 3, 4, 9] [1, 0] := by
  have hrun : ∃ w, ((runs Unit).restrict fun w op _ => op.Spares w).Run
      [.addTimer 5 (), .addTimer 31 (), .batchAddTimers [(32, ()), (44, ()), (34, ())] [1, 0],
        .advance 6, .cancelTimer 2] w ∧
        ((w.slots 1 = [⟨5, 34, ()⟩, ⟨3, 32, ()⟩] ∧ (w.slots 0).map (·.id) = [4]) ∧
          IsOrder [1, 0] ((w.findPlaces [3, 1, 2, 3, 4, 9]).map (·.2.1)) ∧
          w.Harmless [3, 1, 2, 3, 4, 9]) :=
    TransitionSystem.exists_restrict_run_of_foldlM _ (runs_init_sampleWheel 10) (by decide)
  obtain ⟨w, hr, hw, ho, hh⟩ := hrun
  exact ⟨w, hw, (batchCancelTimers_refines hr.reachable ho).mpr hh⟩

/-- A batch that names one timer twice takes out the one behind it as well and counts both. -/
theorem batch_cancels_unnamed : ∃ w : TimingWheel Unit, (runs Unit).Reachable w ∧
    IsOrder [1] ((w.findPlaces [1, 1]).map (·.2.1)) ∧
    ((w.batchCancelTimers [1, 1] [1]).1 = 2 ∧ (w.cancelEach [1, 1]).1 = 1) ∧
    (w.batchCancelTimers [1, 1] [1]).2.slots 1 = [] ∧
    (w.cancelEach [1, 1]).2.slots 1 = [⟨2, 12, ()⟩] := by
  have hrun : ∃ w, (runs Unit).Run [.addTimer 11 (), .addTimer 12 ()] w ∧
      (IsOrder [1] ((w.findPlaces [1, 1]).map (·.2.1)) ∧
        ((w.batchCancelTimers [1, 1] [1]).1 = 2 ∧ (w.cancelEach [1, 1]).1 = 1) ∧
        (w.batchCancelTimers [1, 1] [1]).2.slots 1 = [] ∧
        (w.cancelEach [1, 1]).2.slots 1 = [⟨2, 12, ()⟩]) :=
    TransitionSystem.exists_run_of_foldlM _ (runs_init_sampleWheel 10) (by decide)
  obtain ⟨w, hr, hw⟩ := hrun
  exact ⟨w, hr.reachable, hw⟩

end Refines

end TimingWheel

end Kestrel
