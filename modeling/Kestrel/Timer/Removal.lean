import Kestrel.Timer.Wheel

/-! # Taking timers out

Whatever the times of the timers, as long as the map finds every one of them a cancellation takes
out the timer that it names, and a batch of distinct identifiers takes out those that it names.
-/

namespace Kestrel

open Std (ExtTreeMap)

namespace TimingWheel

variable {E : Type} {w w' w'' : TimingWheel E} {e : TimerEntry E} {s p : ℕ} {id : TimerEntryId}
  {ids ids' : List TimerEntryId}

/-- The map finds every entry, and every entry lies in a slot that exists, under an identifier that
was given out. -/
structure Held (w : TimingWheel E) : Prop where
  slotMask_lt : w.slotMask < w.slotCount
  indexed : Slots.Indexed TimerEntry.id w.slots w.timerMap
  slot_lt : ∀ s, ∀ e ∈ w.slots s, s < w.slotCount
  id_lt : ∀ s, ∀ e ∈ w.slots s, e.id < w.nextEntryId

theorem Held.cached (h : Held w) (c : Option Instant) : Held { w with cachedNextExpiry := c } :=
  { h with }

theorem Held.isSome_timerMap (h : Held w) :
    w.timerMap[id]?.isSome ↔ ∃ s, ∃ e ∈ w.slots s, e.id = id := by
  rw [Option.isSome_iff_exists]
  constructor
  · rintro ⟨⟨s, p⟩, hp⟩
    obtain ⟨e, he, hid⟩ := (h.indexed id s p).mp hp
    exact ⟨s, e, List.mem_of_getElem? he, hid⟩
  · rintro ⟨s, e, he, rfl⟩
    obtain ⟨p, hp⟩ := List.mem_iff_getElem?.mp he
    exact ⟨(s, p), h.indexed.place hp⟩

/-- The entries with these identifiers were taken out; each slot keeps the others, in any order. -/
structure Strips (w w' : TimingWheel E) (ids : List TimerEntryId) : Prop where
  frame : ∃ slots places, w' = { w with slots := slots, timerMap := places }
  held : Held w'
  slots_perm : ∀ s, List.Perm (w'.slots s) ((w.slots s).filter fun e => e.id ∉ ids)

namespace Strips

theorem mem_slots (h : Strips w w' ids) : e ∈ w'.slots s ↔ e ∈ w.slots s ∧ e.id ∉ ids := by
  rw [(h.slots_perm s).mem_iff, List.mem_filter, decide_eq_true_iff]

theorem cachedNextExpiry_eq (h : Strips w w' ids) : w'.cachedNextExpiry = w.cachedNextExpiry := by
  obtain ⟨slots, places, rfl⟩ := h.frame
  rfl

theorem refl (h : Held w) : Strips w w [] where
  frame := ⟨w.slots, w.timerMap, rfl⟩
  held := h
  slots_perm s := by simp

theorem trans (h : Strips w w' ids) (h' : Strips w' w'' ids') : Strips w w'' (ids ++ ids') where
  frame := by
    obtain ⟨slots, places, rfl⟩ := h.frame
    exact h'.frame
  held := h'.held
  slots_perm s := by
    refine ((h'.slots_perm s).trans ((h.slots_perm s).filter _)).trans (List.Perm.of_eq ?_)
    rw [List.filter_filter]
    apply List.filter_congr
    intro e _
    rw [← Bool.decide_and]
    simp [and_comm]

theorem congr (h : Strips w w' ids) (hids : ∀ s, ∀ e ∈ w.slots s, e.id ∈ ids ↔ e.id ∈ ids') :
    Strips w w' ids' where
  frame := h.frame
  held := h.held
  slots_perm s := by
    refine (h.slots_perm s).trans (List.Perm.of_eq ?_)
    apply List.filter_congr
    intro e he
    simp [hids s e he]

end Strips

theorem Held.of_subset (h : Held w) {slots : ℕ → List (TimerEntry E)}
    {places : ExtTreeMap TimerEntryId (ℕ × ℕ)} (hi : Slots.Indexed TimerEntry.id slots places)
    (hsub : ∀ s, ∀ e ∈ slots s, e ∈ w.slots s) :
    Held { w with slots := slots, timerMap := places } where
  slotMask_lt := h.slotMask_lt
  indexed := hi
  slot_lt s e he := h.slot_lt s e (hsub s e he)
  id_lt s e he := h.id_lt s e (hsub s e he)

theorem Held.strips (h : Held w) {slots : ℕ → List (TimerEntry E)}
    {places : ExtTreeMap TimerEntryId (ℕ × ℕ)} (hi : Slots.Indexed TimerEntry.id slots places)
    (hp : ∀ s, List.Perm (slots s) ((w.slots s).filter fun e => e.id ∉ ids)) :
    Strips w { w with slots := slots, timerMap := places } ids where
  frame := ⟨slots, places, rfl⟩
  held := h.of_subset hi fun s _ he => List.mem_of_mem_filter ((hp s).mem_iff.mp he)
  slots_perm := hp

theorem swapRemove_eq (he : (w.slots s)[p]? = some e) :
    ∃ places, w.swapRemove s p =
        { w with slots := Function.update w.slots s (Slots.swapPop (w.slots s) p)
                 timerMap := places } ∧
      ∀ k, places[k]? = if ((Slots.swapPop (w.slots s) p)[p]?).map TimerEntry.id = some k then
        some (s, p) else w.timerMap[k]? := by
  have hlt := (List.getElem?_eq_some_iff.mp he).1
  rw [swapRemove]
  dsimp only
  split
  · rename_i hp
    obtain ⟨b, hb, hsw⟩ := Slots.swapPop_of_getElem? he
    refine ⟨w.timerMap, ?_, ?_⟩
    · rw [hsw]
      have hdrop : ((w.slots s).set p b).dropLast = (w.slots s).dropLast := by
        apply List.ext_getElem?
        intro j
        rw [List.getElem?_dropLast, List.getElem?_dropLast, List.length_set]
        by_cases hj : j < (w.slots s).length - 1
        · rw [if_pos hj, if_pos hj, List.getElem?_set, if_neg (by omega)]
        · rw [if_neg hj, if_neg hj]
      rw [hdrop]
    · intro k
      have hn : (Slots.swapPop (w.slots s) p)[p]? = none := by
        rw [Slots.getElem?_swapPop he, if_neg (by omega)]
      rw [hn]
      rfl
  · split
    · rename_i b hb
      refine ⟨_, rfl, ?_⟩
      intro k
      rw [SortedMap.getElem?_insert, hb]
      simp only [Option.map_some, Option.some.injEq]
    · rename_i hb
      refine ⟨_, rfl, ?_⟩
      intro k
      rw [hb]
      rfl

theorem Held.swapRemove (h : Held w) (he : (w.slots s)[p]? = some e)
    {places : ExtTreeMap TimerEntryId (ℕ × ℕ)}
    (hp : ∀ k, places[k]? = if e.id = k then none else
      if ((Slots.swapPop (w.slots s) p)[p]?).map TimerEntry.id = some k then some (s, p) else
        w.timerMap[k]?) :
    Strips w { w with slots := Function.update w.slots s (Slots.swapPop (w.slots s) p)
                      timerMap := places } [e.id] := by
  apply h.strips (h.indexed.swapPop he hp)
  intro s'
  by_cases hs : s' = s
  · subst hs
    rw [Function.update_self]
    have hnd := h.indexed.nodup s'
    have hperm := Slots.cons_swapPop he
    rw [(hperm.map TimerEntry.id).nodup_iff, List.map_cons, List.nodup_cons] at hnd
    -- the others have other identifiers
    have hkeep : (e :: Slots.swapPop (w.slots s') p).filter (fun b => b.id ∉ [e.id]) =
        Slots.swapPop (w.slots s') p := by
      rw [List.filter_cons_of_neg (by simp), List.filter_eq_self]
      intro b hb
      rw [decide_eq_true_iff, List.mem_singleton]
      intro hbe
      exact hnd.1 (hbe ▸ List.mem_map_of_mem hb)
    exact (hkeep ▸ hperm.filter _).symm
  · rw [Function.update_of_ne hs]
    apply List.Perm.of_eq
    symm
    rw [List.filter_eq_self]
    intro b hb
    rw [decide_eq_true_iff, List.mem_singleton]
    intro hbe
    obtain ⟨q, hq⟩ := List.mem_iff_getElem?.mp hb
    exact hs (h.indexed.place_unique hq he hbe).1

/-- Whether a timer is there to cancel is whether the map knows it. -/
theorem Held.cancelTimer (h : Held w) (id : TimerEntryId) :
    (w.timerMap[id]? = none ∧ w.cancelTimer id = (false, w)) ∨
      ∃ s e w', e ∈ w.slots s ∧ e.id = id ∧ Strips w w' [id] ∧ w.cancelTimer id =
        (true, if invalidates w.cachedNextExpiry (some e.expiryTime) then
          { w' with cachedNextExpiry := none } else w') := by
  cases hm : w.timerMap[id]? with
  | none =>
    left
    rw [TimingWheel.cancelTimer, hm]
    exact ⟨rfl, rfl⟩
  | some sp =>
    right
    obtain ⟨s, p⟩ := sp
    obtain ⟨e, he, rfl⟩ := (h.indexed _ s p).mp hm
    obtain ⟨places, hsw, hpl⟩ :=
      swapRemove_eq (w := { w with timerMap := w.timerMap.erase e.id }) he
    refine ⟨s, e, { w with slots := Function.update w.slots s (Slots.swapPop (w.slots s) p)
                           timerMap := places }, List.mem_of_getElem? he, rfl,
      h.swapRemove he ?_, ?_⟩
    · intro k
      rw [hpl]
      dsimp only
      rw [SortedMap.getElem?_erase]
      by_cases hk : e.id = k
      · subst hk
        -- the entry that moves has another identifier
        rw [if_pos rfl, if_pos rfl, if_neg]
        intro hmv
        obtain ⟨b, hb, hbk⟩ := Option.map_eq_some_iff.mp hmv
        rw [Slots.getElem?_swapPop he, if_pos rfl] at hb
        split at hb
        · rw [List.getLast?_eq_getElem?] at hb
          have := (h.indexed.place_unique hb he hbk).2
          omega
        · cases hb
      · rw [if_neg hk, if_neg hk]
    · have hlt := (List.getElem?_eq_some_iff.mp he).1
      rw [TimingWheel.cancelTimer, hm]
      dsimp only
      rw [if_pos ⟨h.slot_lt s e (List.mem_of_getElem? he), hlt⟩, hsw, he]
      dsimp only [Option.map_some]
      split <;> rfl

theorem mem_findPlaces {entryIds : List TimerEntryId} {x : TimerEntryId × ℕ × ℕ} :
    x ∈ w.findPlaces entryIds ↔ x.1 ∈ entryIds ∧ w.timerMap[x.1]? = some x.2 := by
  simp only [findPlaces, List.mem_filterMap, Option.map_eq_some_iff]
  constructor
  · rintro ⟨id, hid, sp, hsp, rfl⟩
    exact ⟨hid, hsp⟩
  · rintro ⟨hid, hsp⟩
    exact ⟨x.1, hid, x.2, hsp, rfl⟩

theorem mem_cancelOrder {found : List (TimerEntryId × ℕ × ℕ)} {x : TimerEntryId × ℕ} :
    x ∈ cancelOrder found s ↔ (x.1, s, x.2) ∈ found := by
  rw [cancelOrder, (List.perm_insertionSort _ _).mem_iff, List.mem_map]
  constructor
  · rintro ⟨⟨id, s', p⟩, hy, rfl⟩
    obtain ⟨hf, hs⟩ := List.mem_filter.mp hy
    cases of_decide_eq_true hs
    exact hf
  · intro hx
    exact ⟨_, List.mem_filter.mpr ⟨hx, decide_eq_true rfl⟩, rfl⟩

theorem map_fst_findPlaces (entryIds : List TimerEntryId) : (w.findPlaces entryIds).map (·.1) =
    entryIds.filter fun id => w.timerMap[id]?.isSome := by
  rw [findPlaces, List.map_filterMap, ← List.filterMap_eq_filter]
  apply List.filterMap_congr
  intro id _
  cases hm : w.timerMap[id]? <;> simp [Option.guard, hm]

/-- One of the timers with these identifiers may make the cached time wrong. -/
def Spoils (w : TimingWheel E) (ids : List TimerEntryId) : Prop :=
  ∃ s, ∃ e ∈ w.slots s, e.id ∈ ids ∧ invalidates w.cachedNextExpiry (some e.expiryTime) = true

theorem not_spoils_nil : ¬ w.Spoils [] := by
  rintro ⟨s, e, -, he, -⟩
  cases he

theorem Strips.spoils_append (h : Strips w w' ids) :
    w.Spoils (ids ++ ids') ↔ w.Spoils ids ∨ w'.Spoils ids' := by
  simp only [Spoils, h.cachedNextExpiry_eq]
  constructor
  · rintro ⟨s, e, he, hid, hinv⟩
    by_cases hin : e.id ∈ ids
    · exact Or.inl ⟨s, e, he, hin, hinv⟩
    · have hid' := (List.mem_append.mp hid).resolve_left hin
      exact Or.inr ⟨s, e, h.mem_slots.mpr ⟨he, hin⟩, hid', hinv⟩
  · rintro (⟨s, e, he, hid, hinv⟩ | ⟨s, e, he, hid, hinv⟩)
    · exact ⟨s, e, he, List.mem_append_left _ hid, hinv⟩
    · exact ⟨s, e, (h.mem_slots.mp he).1, List.mem_append_right _ hid, hinv⟩

theorem Held.spoils_singleton (h : Held w) (he : e ∈ w.slots s) :
    w.Spoils [e.id] ↔ invalidates w.cachedNextExpiry (some e.expiryTime) = true := by
  constructor
  · rintro ⟨s', e', he', hid, hinv⟩
    obtain ⟨p, hp⟩ := List.mem_iff_getElem?.mp he
    obtain ⟨p', hp'⟩ := List.mem_iff_getElem?.mp he'
    obtain ⟨rfl, rfl⟩ := h.indexed.place_unique hp' hp (List.mem_singleton.mp hid)
    rw [hp] at hp'
    cases hp'
    exact hinv
  · intro hinv
    exact ⟨s, e, he, List.mem_singleton_self _, hinv⟩

/-- Entries of a slot are taken out from back to front, so that none that is still to go moves. -/
theorem Held.cancelGroup (h : Held w) {l : List (TimerEntryId × ℕ)}
    (hl : l.Pairwise fun a b => b.2 < a.2)
    (hp : ∀ x ∈ l, ∃ e, (w.slots s)[x.2]? = some e ∧ e.id = x.1) :
    ∃ stale w', cancelGroup s w l = (l.length, stale, w') ∧ Strips w w' (l.map (·.1)) ∧
      (∀ i, i ≠ s → w'.slots i = w.slots i) ∧ (stale = true ↔ w.Spoils (l.map (·.1))) := by
  induction l generalizing w with
  | nil => exact ⟨false, w, rfl, .refl h, fun _ _ => rfl, by simp [not_spoils_nil]⟩
  | cons x l ih =>
    obtain ⟨id, p⟩ := x
    rw [List.pairwise_cons] at hl
    rw [List.forall_mem_cons] at hp
    obtain ⟨⟨e, he, rfl⟩, hp⟩ := hp
    have hlt := (List.getElem?_eq_some_iff.mp he).1
    obtain ⟨places, hsw, hpl⟩ := swapRemove_eq he
    have hlook (k : TimerEntryId) : (places.erase e.id)[k]? = if e.id = k then none else
        if ((Slots.swapPop (w.slots s) p)[p]?).map TimerEntry.id = some k then some (s, p) else
          w.timerMap[k]? := by
      rw [SortedMap.getElem?_erase, hpl]
    have hr := h.swapRemove he hlook
    obtain ⟨stale, w', hc, hr', hother, hstale⟩ := ih hr.held hl.2 (by
      intro y hy
      obtain ⟨e', he', hid⟩ := hp y hy
      have hyp := hl.1 y hy
      refine ⟨e', ?_, hid⟩
      dsimp only at hyp ⊢
      rw [Function.update_self, Slots.getElem?_swapPop he, if_pos (by omega), if_neg (by omega),
        he'])
    refine ⟨invalidates w.cachedNextExpiry (some e.expiryTime) || stale, w', ?_, hr.trans hr', ?_,
      ?_⟩
    · rw [TimingWheel.cancelGroup, if_pos hlt, hsw, he]
      dsimp only at hc ⊢
      rw [hc]
      rfl
    · intro i hi
      rw [hother i hi]
      exact Function.update_of_ne hi _ _
    · rw [Bool.or_eq_true, hstale, ← h.spoils_singleton (List.mem_of_getElem? he),
        ← hr.spoils_append]
      rfl

/-- The places found for a batch are worked off slot by slot, in any order of the slots. -/
theorem Held.cancelGroups (h : Held w) (found : List (TimerEntryId × ℕ × ℕ)) {order : List ℕ}
    (hids : (found.map (·.1)).Nodup) (ho : order.Nodup)
    (hf : ∀ x ∈ found, x.2.1 ∈ order → ∃ e, (w.slots x.2.1)[x.2.2]? = some e ∧ e.id = x.1) :
    ∃ stale w', cancelGroups found w order =
        ((order.flatMap fun slot => found.filter (·.2.1 = slot)).length, stale, w') ∧
      Strips w w' ((order.flatMap fun slot => found.filter (·.2.1 = slot)).map (·.1)) ∧
      (stale = true ↔
        w.Spoils ((order.flatMap fun slot => found.filter (·.2.1 = slot)).map (·.1))) := by
  induction order generalizing w with
  | nil => exact ⟨false, w, rfl, .refl h, by simp [not_spoils_nil]⟩
  | cons s order ih =>
    rw [List.nodup_cons] at ho
    rw [TimingWheel.cancelGroups]
    have hgroup {x : TimerEntryId × ℕ} (hx : x ∈ cancelOrder found s) :
        ∃ e, (w.slots s)[x.2]? = some e ∧ e.id = x.1 :=
      hf _ (mem_cancelOrder.mp hx) (List.mem_cons_self ..)
    split
    · rename_i hs
      -- a slot that does not exist has no group
      have hnil : found.filter (·.2.1 = s) = [] := by
        rw [List.filter_eq_nil_iff]
        intro x hx hxs
        obtain ⟨e, he, -⟩ := hf x hx (of_decide_eq_true hxs ▸ List.mem_cons_self ..)
        have := h.slot_lt _ _ (List.mem_of_getElem? he)
        have := of_decide_eq_true hxs
        omega
      rw [List.flatMap_cons, hnil, List.nil_append]
      exact ih h ho.2 fun x hx hm => hf x hx (List.mem_cons_of_mem _ hm)
    · have hperm : List.Perm (cancelOrder found s)
          ((found.filter (·.2.1 = s)).map fun x => (x.1, x.2.2)) := List.perm_insertionSort _ _
      have hpermId : List.Perm ((cancelOrder found s).map (·.1))
          ((found.filter (·.2.1 = s)).map (·.1)) := by
        have := hperm.map Prod.fst
        rwa [List.map_map] at this
      have hnd : ((cancelOrder found s).map (·.1)).Nodup :=
        hpermId.nodup_iff.mpr (hids.sublist (List.filter_sublist.map _))
      have hsorted : (cancelOrder found s).Pairwise fun a b => b.2 < a.2 := by
        have hle := List.pairwise_insertionSort (fun a b : TimerEntryId × ℕ => b.2 ≤ a.2)
          ((found.filter (·.2.1 = s)).map fun x => (x.1, x.2.2))
        have hne := List.pairwise_map.mp hnd
        refine (hle.and hne).imp_of_mem ?_
        rintro a b ha hb ⟨hab, hid⟩
        obtain ⟨e, he, hea⟩ := hgroup ha
        obtain ⟨e', he', heb⟩ := hgroup hb
        apply lt_of_le_of_ne hab
        intro hpos
        rw [hpos, he] at he'
        cases he'
        exact hid (hea.symm.trans heb)
      obtain ⟨stale, w₁, hc, hr, hother, hst⟩ := h.cancelGroup hsorted fun x hx => hgroup hx
      have hr : Strips w w₁ ((found.filter (·.2.1 = s)).map (·.1)) :=
        hr.congr fun _ _ _ => hpermId.mem_iff
      obtain ⟨stale', w', hc', hr', hst'⟩ := ih hr.held ho.2 (by
        intro x hx hm
        have hxs : x.2.1 ≠ s := fun hxs => ho.1 (hxs ▸ hm)
        rw [hother _ hxs]
        exact hf x hx (List.mem_cons_of_mem _ hm))
      refine ⟨stale || stale', w', ?_, ?_, ?_⟩
      · have hlen : (cancelOrder found s).length = (found.filter (·.2.1 = s)).length := by
          rw [hperm.length_eq, List.length_map]
        rw [hc]
        dsimp only
        rw [hc', hlen, List.flatMap_cons, List.length_append]
      · rw [List.flatMap_cons, List.map_append]
        exact hr.trans hr'
      · rw [Bool.or_eq_true, hst, hst', List.flatMap_cons, List.map_append, hr.spoils_append]
        simp only [Spoils, hpermId.mem_iff]

/-- A batch of distinct identifiers takes out the timers among them that are in the wheel. -/
theorem Held.batchCancelTimers (h : Held w) {order : List ℕ} (hnd : ids.Nodup) (ho : order.Nodup)
    (hall : ∀ x ∈ w.findPlaces ids, x.2.1 ∈ order) :
    ∃ stale w', Strips w w' ids ∧ w.batchCancelTimers ids order =
        ((ids.filter fun id => w.timerMap[id]?.isSome).length,
          if stale = true then { w' with cachedNextExpiry := none } else w') ∧
      (stale = true ↔ w.Spoils ids) := by
  have hids := map_fst_findPlaces (w := w) ids
  obtain ⟨stale, w', hc, hr, hst⟩ :=
    h.cancelGroups (w.findPlaces ids) (hids ▸ hnd.filter _) ho (by
      intro x hx _
      exact (h.indexed _ _ _).mp (mem_findPlaces.mp hx).2)
  have hperm := Slots.flatMap_filter_perm (fun x : TimerEntryId × ℕ × ℕ => x.2.1) ho hall
  -- what a batch finds is what it names among the timers
  have hmem : ∀ s, ∀ e ∈ w.slots s, e.id ∈ (order.flatMap fun slot =>
      (w.findPlaces ids).filter (·.2.1 = slot)).map (·.1) ↔ e.id ∈ ids := by
    intro s e he
    rw [(hperm.map (·.1)).mem_iff, hids, List.mem_filter]
    exact and_iff_left (h.isSome_timerMap.mpr ⟨s, e, he, rfl⟩)
  have hspoils : w.Spoils ((order.flatMap fun slot =>
      (w.findPlaces ids).filter (·.2.1 = slot)).map (·.1)) ↔ w.Spoils ids := by
    constructor <;> rintro ⟨s, e, he, hid, hinv⟩
    · exact ⟨s, e, he, (hmem s e he).mp hid, hinv⟩
    · exact ⟨s, e, he, (hmem s e he).mpr hid, hinv⟩
  have hlen : (order.flatMap fun slot => (w.findPlaces ids).filter (·.2.1 = slot)).length =
      (ids.filter fun id => w.timerMap[id]?.isSome).length := by
    rw [hperm.length_eq, ← hids, List.length_map]
  cases ids with
  | nil => exact ⟨false, w, .refl h, rfl, by simp [not_spoils_nil]⟩
  | cons id ids =>
    refine ⟨stale, w', hr.congr hmem, ?_, hst.trans hspoils⟩
    rw [TimingWheel.batchCancelTimers, if_neg (by simp), hc, hlen]
    cases stale <;> rfl

end TimingWheel

end Kestrel
