import Mathlib.Data.List.Dedup
import Kestrel.Timer.Expiry

/-! # Cancelling timers

What a cancellation takes out of the wheel. A batch may name a timer twice. Then its place is
emptied twice, and the second time takes out whatever was moved there; nothing was if all behind it
in its slot are cancelled too.
-/

namespace Kestrel

open Std (ExtTreeMap)

namespace TimingWheel

variable {E : Type} {w w' : TimingWheel E} {e : TimerEntry E} {s p : ℕ} {id : TimerEntryId}

section Duplicates

/-- A timer that a batch names more than once has behind it in its slot only timers that the batch
names. -/
def Harmless (w : TimingWheel E) (entryIds : List TimerEntryId) : Prop :=
  ∀ id ∈ entryIds, 1 < entryIds.count id → ∀ place ∈ w.timerMap[id]?,
    ∀ entry ∈ (w.slots place.1).drop (place.2 + 1), entry.id ∈ entryIds

instance (w : TimingWheel E) (entryIds : List TimerEntryId) : Decidable (w.Harmless entryIds) := by
  unfold Harmless
  infer_instance

theorem Harmless.of_nodup {entryIds : List TimerEntryId} (h : entryIds.Nodup) :
    w.Harmless entryIds := by
  intro id _ hc
  exact absurd (List.nodup_iff_count_le_one.mp h id) (not_le.mpr hc)

theorem length_swapRemove : ((w.swapRemove s p).slots s).length = (w.slots s).length - 1 := by
  rw [swapRemove]
  dsimp only
  split
  · simp
  · simp [Slots.length_swapPop]

theorem slots_swapRemove_of_ne {i : ℕ} (h : i ≠ s) : (w.swapRemove s p).slots i = w.slots i := by
  rw [swapRemove]
  dsimp only
  split <;> exact Function.update_of_ne h _ _

/-- The wheel after one timer of a group. -/
def takeOut (w : TimingWheel E) (s : ℕ) (x : TimerEntryId × ℕ) : TimingWheel E :=
  { w.swapRemove s x.2 with timerMap := (w.swapRemove s x.2).timerMap.erase x.1 }

theorem cancelGroup_cons_of_lt {x : TimerEntryId × ℕ} (h : x.2 < (w.slots s).length)
    (l : List (TimerEntryId × ℕ)) : cancelGroup s w (x :: l) =
      ((cancelGroup s (w.takeOut s x) l).1 + 1,
        invalidates w.cachedNextExpiry ((w.slots s)[x.2]?.map (·.expiryTime)) ||
          (cancelGroup s (w.takeOut s x) l).2.1, (cancelGroup s (w.takeOut s x) l).2.2) := by
  rw [cancelGroup, if_pos h]
  rfl

theorem cancelGroup_cons_of_ge {x : TimerEntryId × ℕ} (h : (w.slots s).length ≤ x.2)
    (l : List (TimerEntryId × ℕ)) : cancelGroup s w (x :: l) = cancelGroup s w l := by
  rw [cancelGroup, if_neg (not_lt.mpr h)]

theorem length_takeOut (x : TimerEntryId × ℕ) :
    ((w.takeOut s x).slots s).length = (w.slots s).length - 1 :=
  length_swapRemove

theorem slots_cancelGroup_of_ne {i : ℕ} (h : i ≠ s) (l : List (TimerEntryId × ℕ)) :
    (cancelGroup s w l).2.2.slots i = w.slots i := by
  induction l generalizing w with
  | nil => rfl
  | cons x l ih =>
    by_cases hx : x.2 < (w.slots s).length
    · rw [cancelGroup_cons_of_lt hx]
      exact ih.trans (slots_swapRemove_of_ne h)
    · rw [cancelGroup_cons_of_ge (not_lt.mp hx)]
      exact ih

/-- Naming a place again does nothing if everything behind it is cancelled too. -/
theorem cancelGroup_dedup {l : List (TimerEntryId × ℕ)} (hl : l.Pairwise fun a b => b.2 ≤ a.2)
    (hpos : ∀ x ∈ l, ∀ y ∈ l, x.2 = y.2 → x = y)
    (hdup : ∀ x ∈ l, 1 < l.count x → ∀ q, x.2 < q → q < (w.slots s).length → ∃ y ∈ l, y.2 = q) :
    cancelGroup s w l = cancelGroup s w l.dedup := by
  induction l generalizing w with
  | nil => rfl
  | cons x l ih =>
    rw [List.pairwise_cons] at hl
    have hcount {y : TimerEntryId × ℕ} (hy : 1 < l.count y) : 1 < (x :: l).count y :=
      hy.trans_le List.count_le_count_cons
    have hpos' : ∀ x ∈ l, ∀ y ∈ l, x.2 = y.2 → x = y := fun y hy z hz =>
      hpos y (List.mem_cons_of_mem _ hy) z (List.mem_cons_of_mem _ hz)
    -- nothing named lies behind the head
    have hbehind {y : TimerEntryId × ℕ} (hy : y ∈ x :: l) : y.2 ≤ x.2 := by
      rcases List.mem_cons.mp hy with rfl | hy
      · exact le_rfl
      · exact hl.1 y hy
    by_cases hx : x ∈ l
    · rw [List.dedup_cons_of_mem hx]
      have hlast : (w.slots s).length ≤ x.2 + 1 := by
        by_contra hlt
        obtain ⟨y, hy, hyq⟩ := hdup x (List.mem_cons_self ..)
          (by rw [List.count_cons_self]; exact Nat.succ_lt_succ (List.count_pos_iff.mpr hx))
          (x.2 + 1) (Nat.lt_succ_self _) (by omega)
        have := hbehind hy
        omega
      have hl' : cancelGroup s w l = cancelGroup s w l.dedup := by
        apply ih hl.2 hpos'
        intro y hy hc q hq hlt
        obtain ⟨z, hz, hzq⟩ := hdup y (List.mem_cons_of_mem _ hy) (hcount hc) q hq hlt
        rcases List.mem_cons.mp hz with rfl | hz
        · exact ⟨z, hx, hzq⟩
        · exact ⟨z, hz, hzq⟩
      rw [← hl']
      -- the next one is the same
      cases l with
      | nil => exact absurd hx List.not_mem_nil
      | cons y l =>
        have hyx : y = x := by
          apply hpos y (by simp) x (by simp)
          apply le_antisymm (hl.1 y (by simp))
          rcases List.mem_cons.mp hx with rfl | hx
          · exact le_rfl
          · exact (List.pairwise_cons.mp hl.2).1 x hx
        subst hyx
        by_cases hlt : y.2 < (w.slots s).length
        · have hgone : ((w.takeOut s y).slots s).length ≤ y.2 := by
            rw [length_takeOut]
            omega
          rw [cancelGroup_cons_of_lt hlt, cancelGroup_cons_of_ge hgone, ← cancelGroup_cons_of_lt hlt]
        · exact cancelGroup_cons_of_ge (not_lt.mp hlt) _
    · rw [List.dedup_cons_of_notMem hx]
      have hrest {n : ℕ} (hn : n ≤ (w.slots s).length) (hxn : n ≤ x.2 ∨ x.2 + 1 ≤ (w.slots s).length ∧
          n + 1 = (w.slots s).length) : ∀ y ∈ l, 1 < l.count y → ∀ q, y.2 < q → q < n →
            ∃ z ∈ l, z.2 = q := by
        intro y hy hc q hq hlt
        have hy' := List.mem_cons_of_mem x hy
        obtain ⟨z, hz, hzq⟩ := hdup y hy' (hcount hc) q hq (by omega)
        rcases List.mem_cons.mp hz with rfl | hz
        · exfalso
          rcases hxn with hxn | ⟨hle, hn'⟩
          · omega
          · -- the last place of the slot would have to be named before the head
            obtain ⟨z', hz', hzq'⟩ := hdup y hy' (hcount hc) n (by omega) (by omega)
            have := hbehind hz'
            omega
        · exact ⟨z, hz, hzq⟩
      by_cases hlt : x.2 < (w.slots s).length
      · rw [cancelGroup_cons_of_lt hlt, cancelGroup_cons_of_lt hlt,
          ih (w := w.takeOut s x) hl.2 hpos']
        rw [length_takeOut]
        exact hrest (Nat.sub_le _ _) (by omega)
      · rw [cancelGroup_cons_of_ge (not_lt.mp hlt), cancelGroup_cons_of_ge (not_lt.mp hlt)]
        exact ih hl.2 hpos' (hrest le_rfl (Or.inl (not_lt.mp hlt)))

theorem cancelGroups_congr {found found' : List (TimerEntryId × ℕ × ℕ)} {order : List ℕ}
    (ho : order.Nodup) (h : ∀ s ∈ order, ∀ w' : TimingWheel E, w'.slots s = w.slots s →
      cancelGroup s w' (cancelOrder found s) = cancelGroup s w' (cancelOrder found' s)) :
    cancelGroups found w order = cancelGroups found' w order := by
  induction order generalizing w with
  | nil => rfl
  | cons s order ih =>
    rw [List.nodup_cons] at ho
    have hrest (w' : TimingWheel E) (hw : ∀ i ∈ order, w'.slots i = w.slots i) :
        cancelGroups found w' order = cancelGroups found' w' order := by
      apply ih ho.2
      intro i hi w'' hw''
      exact h i (List.mem_cons_of_mem _ hi) w'' (hw''.trans (hw i hi))
    have hg := hrest (cancelGroup s w (cancelOrder found' s)).2.2 fun i hi =>
      slots_cancelGroup_of_ne (ne_of_mem_of_not_mem hi ho.1) _
    rcases hc : cancelGroup s w (cancelOrder found' s) with ⟨count, stale, w'⟩
    rw [hc] at hg
    rw [cancelGroups, cancelGroups, h s (List.mem_cons_self ..) w rfl, hrest w fun _ _ => rfl, hc]
    dsimp only at hg ⊢
    rw [hg]

theorem count_cancelOrder_le (entryIds : List TimerEntryId) (s : ℕ) (x : TimerEntryId × ℕ) :
    (cancelOrder (w.findPlaces entryIds) s).count x ≤ entryIds.count x.1 := by
  have hle : (cancelOrder (w.findPlaces entryIds) s).count x ≤
      ((cancelOrder (w.findPlaces entryIds) s).map (·.1)).count x.1 := List.count_le_count_map
  apply hle.trans
  rw [cancelOrder, ((List.perm_insertionSort _ _).map _).count_eq, List.map_map]
  have hsub := ((w.findPlaces entryIds).filter_sublist (p := (·.2.1 = s))).map (·.1)
  have hsub' : List.Sublist ((w.findPlaces entryIds).map (·.1)) entryIds := by
    rw [map_fst_findPlaces]
    exact List.filter_sublist
  exact (hsub.trans hsub').count_le x.1

theorem nodup_cancelOrder {entryIds : List TimerEntryId} (h : entryIds.Nodup) (s : ℕ) :
    (cancelOrder (w.findPlaces entryIds) s).Nodup := by
  rw [List.nodup_iff_count_le_one]
  intro x
  exact (count_cancelOrder_le entryIds s x).trans (List.nodup_iff_count_le_one.mp h x.1)

theorem place_injective (h : Held w) {entryIds : List TimerEntryId} {x y : TimerEntryId × ℕ}
    (hx : x ∈ cancelOrder (w.findPlaces entryIds) s) (hy : y ∈ cancelOrder (w.findPlaces entryIds) s)
    (hp : x.2 = y.2) : x = y := by
  obtain ⟨e, he, hex⟩ := (h.indexed _ _ _).mp (mem_findPlaces.mp (mem_cancelOrder.mp hx)).2
  obtain ⟨e', he', hey⟩ := (h.indexed _ _ _).mp (mem_findPlaces.mp (mem_cancelOrder.mp hy)).2
  rw [hp, he'] at he
  cases he
  exact Prod.ext (hex.symm.trans hey) hp

theorem dedup_cancelOrder (h : Held w) (entryIds : List TimerEntryId) (s : ℕ) :
    (cancelOrder (w.findPlaces entryIds) s).dedup =
      cancelOrder (w.findPlaces entryIds.dedup) s := by
  have hperm : List.Perm (cancelOrder (w.findPlaces entryIds) s).dedup
      (cancelOrder (w.findPlaces entryIds.dedup) s) := by
    rw [List.perm_ext_iff_of_nodup (List.nodup_dedup _) (nodup_cancelOrder (List.nodup_dedup _) s)]
    intro x
    simp only [List.mem_dedup, mem_cancelOrder, mem_findPlaces]
  have hsorted := List.pairwise_insertionSort (fun a b : TimerEntryId × ℕ => b.2 ≤ a.2)
  apply hperm.eq_of_pairwise _ ((hsorted _).sublist (List.dedup_sublist _)) (hsorted _)
  intro a b ha hb hab hba
  rw [List.mem_dedup] at ha
  exact place_injective h ha (List.mem_dedup.mp (hperm.mem_iff.mpr hb)) (le_antisymm hba hab)

/-- Naming a timer again changes nothing if that is harmless. -/
theorem batchCancelTimers_dedup (h : Held w) {entryIds : List TimerEntryId} {order : List ℕ}
    (hh : w.Harmless entryIds) (ho : order.Nodup) :
    w.batchCancelTimers entryIds order = w.batchCancelTimers entryIds.dedup order := by
  have hgroups : cancelGroups (w.findPlaces entryIds) w order =
      cancelGroups (w.findPlaces entryIds.dedup) w order := by
    apply cancelGroups_congr ho
    intro s _ w' hw'
    rw [← dedup_cancelOrder h]
    apply cancelGroup_dedup
    · exact List.pairwise_insertionSort (fun a b : TimerEntryId × ℕ => b.2 ≤ a.2) _
    · intro x hx y hy
      exact place_injective h hx hy
    · intro x hx hc q hq hlt
      obtain ⟨hid, hpl⟩ := mem_findPlaces.mp (mem_cancelOrder.mp hx)
      rw [hw'] at hlt
      have hat := List.getElem?_eq_getElem hlt
      have hmem : (w.slots s)[q] ∈ (w.slots s).drop (x.2 + 1) := by
        rw [List.mem_drop_iff_getElem]
        exact ⟨q - (x.2 + 1), by omega, by congr 1; omega⟩
      have hin := hh x.1 hid (hc.trans_le (count_cancelOrder_le _ _ _)) _ hpl _ hmem
      refine ⟨((w.slots s)[q].id, q), ?_, rfl⟩
      exact mem_cancelOrder.mpr (mem_findPlaces.mpr ⟨hin, h.indexed.place hat⟩)
  rw [batchCancelTimers, batchCancelTimers, hgroups]
  cases entryIds with
  | nil => rfl
  | cons id ids =>
    have hne : (id :: ids).dedup.isEmpty = false := by
      rw [List.isEmpty_eq_false_iff, Ne, List.dedup_eq_nil]
      exact List.cons_ne_nil _ _
    rw [hne]
    rfl

theorem isOrder_dedup {entryIds : List TimerEntryId} {order : List ℕ}
    (ho : IsOrder order ((w.findPlaces entryIds).map (·.2.1))) :
    IsOrder order ((w.findPlaces entryIds.dedup).map (·.2.1)) := by
  have hmem (s : ℕ) : s ∈ (w.findPlaces entryIds.dedup).map (·.2.1) ↔
      s ∈ (w.findPlaces entryIds).map (·.2.1) := by
    simp only [List.mem_map, mem_findPlaces, List.mem_dedup]
  exact ⟨ho.1, fun s hs => (hmem s).mpr (ho.2.1 s hs), fun s hs => ho.2.2 s ((hmem s).mp hs)⟩

end Duplicates

section Drops

def liveIds (w : TimingWheel E) : Multiset TimerEntryId := w.live.map TimerEntry.id

theorem Placed.nodup_liveIds (h : Placed w) : w.liveIds.Nodup :=
  h.indexed.nodup_contents w.slotCount

theorem Placed.mem_liveIds (h : Placed w) : id ∈ w.liveIds ↔ w.timerMap[id]?.isSome := by
  rw [liveIds, Multiset.mem_map, Option.isSome_iff_exists]
  constructor
  · rintro ⟨e, he, rfl⟩
    obtain ⟨s, hs⟩ := h.mem_live.mp he
    obtain ⟨p, hp⟩ := List.mem_iff_getElem?.mp hs
    exact ⟨(s, p), h.indexed.place hp⟩
  · rintro ⟨⟨s, p⟩, hp⟩
    obtain ⟨e, he, hid⟩ := (h.indexed id s p).mp hp
    exact ⟨e, h.mem_live.mpr ⟨s, List.mem_of_getElem? he⟩, hid⟩

/-- Timers left the wheel; its slots are what they were, and no identifier was given out. -/
structure Drops (w w' : TimingWheel E) (R : Multiset (TimerEntry E)) : Prop where
  placed : Placed w'
  live_eq : w.live = R + w'.live
  nextEntryId_eq : w'.nextEntryId = w.nextEntryId
  slotDuration_eq : w'.slotDuration = w.slotDuration
  slotCount_eq : w'.slotCount = w.slotCount

theorem Drops.refl (h : Placed w) : Drops w w 0 := ⟨h, (zero_add _).symm, rfl, rfl, rfl⟩

theorem Drops.trans {w'' : TimingWheel E} {R R' : Multiset (TimerEntry E)} (h : Drops w w' R)
    (h' : Drops w' w'' R') : Drops w w'' (R + R') where
  placed := h'.placed
  live_eq := by rw [h.live_eq, h'.live_eq, add_assoc]
  nextEntryId_eq := h'.nextEntryId_eq.trans h.nextEntryId_eq
  slotDuration_eq := h'.slotDuration_eq.trans h.slotDuration_eq
  slotCount_eq := h'.slotCount_eq.trans h.slotCount_eq

theorem Removes.drops {R : Multiset (TimerEntry E)} (h : Removes w w' R) (c : Option Instant) :
    Drops w { w' with cachedNextExpiry := c } R := by
  obtain ⟨slots, places, hf⟩ := h.frame
  refine ⟨h.placed.cached c, h.live_eq, ?_, ?_, ?_⟩ <;> rw [hf]

theorem Drops.mem_liveIds {R : Multiset (TimerEntry E)} (h : Drops w w' R) (hp : Placed w) :
    id ∈ w'.liveIds ↔ id ∈ w.liveIds ∧ id ∉ R.map TimerEntry.id := by
  have hids : w.liveIds = R.map TimerEntry.id + w'.liveIds := by
    rw [liveIds, h.live_eq, Multiset.map_add]
    rfl
  have hnd := hp.nodup_liveIds
  rw [hids, Multiset.nodup_add] at hnd
  rw [hids, Multiset.mem_add]
  constructor
  · intro hid
    exact ⟨Or.inr hid, fun hR => Multiset.disjoint_left.mp hnd.2.2 hR hid⟩
  · rintro ⟨hR | hid, hn⟩
    · exact absurd hR hn
    · exact hid

theorem cancelTimer_drops (h : Placed w) (id : TimerEntryId) :
    (id ∉ w.liveIds ∧ w.cancelTimer id = (false, w)) ∨
      ∃ e w', e.id = id ∧ Drops w w' {e} ∧ w.cancelTimer id = (true, w') := by
  rcases cancelTimer_spec h id with ⟨hm, hc⟩ | ⟨e, w', hid, hr, hc⟩
  · left
    rw [h.mem_liveIds, hm]
    exact ⟨Bool.false_ne_true, hc⟩
  · right
    refine ⟨e, _, hid, ?_, hc⟩
    split
    · exact hr.drops none
    · exact hr.drops w'.cachedNextExpiry

/-- A batch takes out the timers among those it names, whether or not it names some again. -/
theorem batchCancelTimers_drops (h : Placed w) {entryIds : List TimerEntryId} {order : List ℕ}
    (hh : w.Harmless entryIds) (ho : IsOrder order ((w.findPlaces entryIds).map (·.2.1))) :
    ∃ R, Drops w (w.batchCancelTimers entryIds order).2 R ∧
      R.map TimerEntry.id = ↑(entryIds.dedup.filter (· ∈ w.liveIds)) := by
  obtain ⟨stale, w', R, hr, hR, hc, -⟩ :=
    batchCancelTimers_spec h (List.nodup_dedup entryIds) (isOrder_dedup ho)
  refine ⟨R, ?_, ?_⟩
  · rw [batchCancelTimers_dedup h.held hh ho.1, hc]
    dsimp only
    split
    · exact hr.drops none
    · exact hr.drops w'.cachedNextExpiry
  · rw [hR]
    congr 1
    apply List.filter_congr
    intro id _
    rw [Bool.eq_iff_iff, decide_eq_true_iff, h.mem_liveIds]

theorem advance_drops (h : Placed w) (now : Instant) :
    Drops w (w.advance now).2 ↑(w.advance now).1 := by
  obtain ⟨slots, places, currentSlot, currentTime, c, hf, hp, hl⟩ := advance_placed h now
  refine ⟨hp, hl, ?_, ?_, ?_⟩ <;> rw [hf]

end Drops

end TimingWheel

end Kestrel
