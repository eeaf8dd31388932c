import Kestrel.Timer.Placement

/-! # Advancing the wheel

An advance looks at the current slot and then at each slot that time has passed, at most one turn
of the wheel. Every entry that has expired lies in one of them, so an advance returns the expired
timers and keeps the others.
-/

namespace Kestrel

open Std (ExtTreeMap)

namespace TimingWheel

variable {E : Type} {w : TimingWheel E} {e : TimerEntry E} {s : ℕ} {now : Instant}

/-- The expired entries of a slot, and the others. -/
def expired (now : Instant) (l : List (TimerEntry E)) : List (TimerEntry E) :=
  l.filter (·.expiryTime ≤ now)

def pending (now : Instant) (l : List (TimerEntry E)) : List (TimerEntry E) :=
  l.filter (now < ·.expiryTime)

theorem pending_eq (now : Instant) (l : List (TimerEntry E)) :
    pending now l = l.filter fun e => !decide (e.expiryTime ≤ now) := by
  rw [pending]
  apply List.filter_congr
  intro e _
  simp only [← decide_not, not_le]

theorem pending_pending (now : Instant) (l : List (TimerEntry E)) :
    pending now (pending now l) = pending now l := by
  simp [pending]

theorem coe_eq_expired_add_pending (now : Instant) (l : List (TimerEntry E)) :
    (↑l : Multiset (TimerEntry E)) = ↑(expired now l) + ↑(pending now l) := by
  rw [pending_eq, Multiset.coe_add, Multiset.coe_eq_coe]
  exact (List.filter_append_perm _ l).symm

theorem checkSlot_spec (now : Instant) {slots : ℕ → List (TimerEntry E)}
    {passed rest : List (TimerEntry E)}
    {places : ExtTreeMap TimerEntryId (ℕ × ℕ)}
    (h : Slots.Indexed TimerEntry.id (Function.update slots s (passed ++ rest)) places) :
    ∃ places', checkSlot now s passed rest places =
        (expired now rest, passed ++ pending now rest, places') ∧
      Slots.Indexed TimerEntry.id (Function.update slots s (passed ++ pending now rest)) places' := by
  induction rest generalizing passed places with
  | nil =>
    refine ⟨places, ?_, h⟩
    rw [checkSlot, pending, List.filter_nil, List.append_nil]
    rfl
  | cons e rest ih =>
    by_cases he : e.expiryTime ≤ now
    · have hs : Function.update slots s (passed ++ e :: rest) s = passed ++ e :: rest :=
        Function.update_self ..
      have hi := h.eraseIdx hs
      rw [Function.update_idem] at hi
      obtain ⟨places', hc, hp⟩ := ih hi
      have hpend : pending now (e :: rest) = pending now rest :=
        List.filter_cons_of_neg (by simpa using he)
      rw [hpend]
      refine ⟨places', ?_, hp⟩
      rw [checkSlot, if_pos he]
      dsimp only
      rw [hc]
      exact congrArg (fun l => (l, _)) (List.filter_cons_of_pos (by simpa using he)).symm
    · rw [List.append_cons] at h
      obtain ⟨places', hc, hp⟩ := ih h
      have hpend : pending now (e :: rest) = e :: pending now rest :=
        List.filter_cons_of_pos (by simpa using he)
      rw [← List.append_cons, ← hpend] at hc hp
      refine ⟨places', ?_, hp⟩
      rw [checkSlot, if_neg he, hc]
      exact congrArg (fun l => (l, _)) (List.filter_cons_of_neg (by simpa using he)).symm

/-- The entries taken out of a slot go back to it if they have not expired. -/
theorem processEntries_spec (now : Instant) {l : List (TimerEntry E)}
    (hi : Slots.Indexed TimerEntry.id w.slots
      (SortedMap.eraseAll w.timerMap (l.map TimerEntry.id)))
    (hs : ∀ e ∈ l, w.calculateSlotIndex e.expiryTime = s) (hnd : (l.map TimerEntry.id).Nodup) :
    ∃ places, processEntries now w l =
        (expired now l, { w with slots := Function.update w.slots s (w.slots s ++ pending now l)
                                 timerMap := places }) ∧
      Slots.Indexed TimerEntry.id (Function.update w.slots s (w.slots s ++ pending now l))
        places := by
  induction l generalizing w with
  | nil =>
    have hnil : w.slots s ++ pending now [] = w.slots s := List.append_nil _
    rw [hnil, Function.update_eq_self]
    exact ⟨w.timerMap, rfl, hi⟩
  | cons e l ih =>
    rw [List.forall_mem_cons] at hs
    rw [List.map_cons, List.nodup_cons] at hnd
    rw [processEntries]
    by_cases he : e.expiryTime ≤ now
    · obtain ⟨places, hp, hi'⟩ :=
        ih (w := { w with timerMap := w.timerMap.erase e.id }) hi hs.2 hnd.2
      have hpend : pending now (e :: l) = pending now l :=
        List.filter_cons_of_neg (by simpa using he)
      rw [hpend]
      refine ⟨places, ?_, hi'⟩
      dsimp only
      rw [if_pos he, hp]
      exact congrArg (fun l => (l, _)) (List.filter_cons_of_pos (by simpa using he)).symm
    · have hnone : (SortedMap.eraseAll w.timerMap ((e :: l).map TimerEntry.id))[e.id]? = none := by
        rw [SortedMap.getElem?_eraseAll, if_pos (by simp)]
      have hpush := hi.push (s := s) hnone
      -- the identifiers still to come are not touched by putting this one back
      have hmap := SortedMap.eraseAll_insert hnd.1 (w.timerMap.erase e.id)
        (s, (w.slots s).length)
      replace hpush := hmap.symm ▸ hpush
      obtain ⟨places, hp, hi'⟩ := ih
        (w := ({ w with timerMap := w.timerMap.erase e.id }).pushEntry s e) hpush hs.2 hnd.2
      have hpend : pending now (e :: l) = e :: pending now l :=
        List.filter_cons_of_pos (by simpa using he)
      have hslots : Function.update (Function.update w.slots s (w.slots s ++ [e])) s
          (Function.update w.slots s (w.slots s ++ [e]) s ++ pending now l) =
          Function.update w.slots s (w.slots s ++ pending now (e :: l)) := by
        rw [Function.update_self, Function.update_idem, hpend, List.append_assoc,
          List.singleton_append]
      rw [← hslots]
      refine ⟨places, ?_, hi'⟩
      dsimp only
      rw [if_neg he]
      have hslot :
          calculateSlotIndex { w with timerMap := w.timerMap.erase e.id } e.expiryTime = s :=
        hs.1
      rw [hslot, hp]
      exact congrArg (fun l => (l, _)) (List.filter_cons_of_neg (by simpa using he)).symm

theorem checkCurrentSlot_spec (h : Placed w) (now : Instant) :
    ∃ w', w.checkCurrentSlotForExpiredTimers now = (expired now (w.slots w.currentSlot), w') ∧
      Removes w w' ↑(expired now (w.slots w.currentSlot)) ∧
      w'.slots = Function.update w.slots w.currentSlot (pending now (w.slots w.currentSlot)) := by
  obtain ⟨k, -, hk⟩ := h.turned
  have hs : w.currentSlot < w.slotCount := by
    rw [hk]
    exact Nat.mod_lt _ h.slotCount_pos
  have hi : Slots.Indexed TimerEntry.id
      (Function.update w.slots w.currentSlot ([] ++ w.slots w.currentSlot)) w.timerMap := by
    rw [List.nil_append, Function.update_eq_self]
    exact h.indexed
  obtain ⟨places, hc, hp⟩ := checkSlot_spec now hi
  refine ⟨_, ?_, h.removes hs hp (coe_eq_expired_add_pending now _), rfl⟩
  rw [checkCurrentSlotForExpiredTimers, hc]

/-- The wheel after a slot was visited. -/
def afterSlot (w : TimingWheel E) (now : Instant) (places : ExtTreeMap TimerEntryId (ℕ × ℕ)) :
    TimingWheel E :=
  let currentSlot := (w.currentSlot + 1) % w.slotCount
  { w with
    currentSlot
    currentTime := w.currentTime + w.slotDuration
    slots := Function.update w.slots currentSlot (pending now (w.slots currentSlot))
    timerMap := places }

theorem visitSlot_spec (h : Placed w) (now : Instant) :
    ∃ places, processEntries now w.nextSlot.2 w.nextSlot.1 =
        (expired now (w.slots ((w.currentSlot + 1) % w.slotCount)), w.afterSlot now places) ∧
      Placed (w.afterSlot now places) ∧
      ↑(expired now (w.slots ((w.currentSlot + 1) % w.slotCount))) +
        (w.afterSlot now places).live = w.live := by
  have hlt : (w.currentSlot + 1) % w.slotCount < w.slotCount := Nat.mod_lt _ h.slotCount_pos
  obtain ⟨places, hp, hi⟩ := processEntries_spec now (w := w.nextSlot.2)
    (l := w.nextSlot.1) (s := (w.currentSlot + 1) % w.slotCount) (by
      rw [nextSlot]
      exact h.indexed.takeSlot) (by
      intro e he
      rw [nextSlot, h.and_slotMask] at he
      exact (h.slot_eq _ e he).symm) (h.indexed.nodup _)
  simp only [nextSlot, h.and_slotMask, Function.update_self, List.nil_append,
    Function.update_idem] at hp hi
  have hmem {s : ℕ} {e : TimerEntry E} (he : e ∈ (w.afterSlot now places).slots s) :
      e ∈ w.slots s := by
    dsimp only [afterSlot] at he
    by_cases hs : s = (w.currentSlot + 1) % w.slotCount
    · subst hs
      rw [Function.update_self] at he
      exact List.mem_of_mem_filter he
    · rwa [Function.update_of_ne hs] at he
  refine ⟨places, ?_, ?_, ?_⟩
  · simp only [nextSlot, h.and_slotMask]
    exact hp
  · refine { h with indexed := hi, turned := ?_, slot_eq := ?_, id_lt := ?_ }
    · obtain ⟨k, ht, hk⟩ := h.turned
      refine ⟨k + 1, ?_, ?_⟩
      · rw [afterSlot, ht, Nat.succ_mul, Nat.add_assoc]
      · rw [afterSlot, hk, Nat.mod_add_mod]
    · intro s e he
      exact h.slot_eq s e (hmem he)
    · intro s e he
      exact h.id_lt s e (hmem he)
  · rw [live, afterSlot, pending_eq]
    exact Slots.contents_update_filter hlt _

/-- Moving over a number of slots visits each of them. -/
theorem advanceSlots_spec (h : Placed w) (now : Instant) (n : ℕ) :
    ∃ ex slots places w',
      w' = { w with currentSlot := (w.currentSlot + n) % w.slotCount
                    currentTime := w.currentTime + n * w.slotDuration
                    slots := slots
                    timerMap := places } ∧
      advanceSlots now w n = (ex, w') ∧ Placed w' ∧ ↑ex + w'.live = w.live ∧
      (∀ j < n, slots ((w.currentSlot + 1 + j) % w.slotCount) =
        pending now (w.slots ((w.currentSlot + 1 + j) % w.slotCount))) ∧
      ∀ s, slots s = pending now (w.slots s) ∨ slots s = w.slots s := by
  induction n generalizing w with
  | zero =>
    obtain ⟨k, -, hk⟩ := h.turned
    have hcur : (w.currentSlot + 0) % w.slotCount = w.currentSlot := by
      rw [Nat.add_zero, hk, Nat.mod_mod]
    refine ⟨[], w.slots, w.timerMap, w, ?_, rfl, h, zero_add _, ?_, fun s => Or.inr rfl⟩
    · rw [hcur, Nat.zero_mul, Nat.add_zero]
    · intro j hj
      exact absurd hj (Nat.not_lt_zero j)
  | succ n ih =>
    obtain ⟨places, hv, hp, hl⟩ := visitSlot_spec h now
    obtain ⟨ex, slots, places', w', hw', ha, hp', hl', hvis, hall⟩ := ih hp
    dsimp only [afterSlot] at hw' hvis hall
    refine ⟨expired now (w.slots ((w.currentSlot + 1) % w.slotCount)) ++ ex, slots, places', w',
      ?_, ?_, hp', ?_, ?_, ?_⟩
    · have hcur : ((w.currentSlot + 1) % w.slotCount + n) % w.slotCount =
          (w.currentSlot + (n + 1)) % w.slotCount := by
        rw [Nat.mod_add_mod, Nat.add_assoc, Nat.add_comm 1]
      have htime : w.currentTime + w.slotDuration + n * w.slotDuration =
          w.currentTime + (n + 1) * w.slotDuration := by
        rw [Nat.succ_mul, Nat.add_assoc, Nat.add_comm w.slotDuration]
      rw [hw', hcur, htime]
    · rw [advanceSlots]
      dsimp only
      rw [hv]
      dsimp only
      rw [ha]
    · rw [← Multiset.coe_add, add_assoc, hl', hl]
    · intro j hj
      cases j with
      | zero =>
        rcases hall ((w.currentSlot + 1) % w.slotCount) with he | he
        · rw [Nat.add_zero, he, Function.update_self, pending_pending]
        · rw [Nat.add_zero, he, Function.update_self]
      | succ j =>
        have hj' := hvis j (Nat.lt_of_succ_lt_succ hj)
        have hs : ((w.currentSlot + 1) % w.slotCount + 1 + j) % w.slotCount =
            (w.currentSlot + 1 + (j + 1)) % w.slotCount := by
          rw [Nat.add_assoc, Nat.mod_add_mod, Nat.add_comm 1 j]
        rw [hs] at hj'
        rw [hj']
        by_cases he : (w.currentSlot + 1 + (j + 1)) % w.slotCount =
            (w.currentSlot + 1) % w.slotCount
        · rw [he, Function.update_self, pending_pending]
        · rw [Function.update_of_ne he]
    · intro s
      by_cases hs : s = (w.currentSlot + 1) % w.slotCount
      · subst hs
        left
        rcases hall ((w.currentSlot + 1) % w.slotCount) with he | he
        · rw [he, Function.update_self, pending_pending]
        · rw [he, Function.update_self]
      · have := hall s
        rwa [Function.update_of_ne hs] at this

/-- Whatever the times, an advance takes out timers and keeps the others. -/
theorem advance_placed (h : Placed w) (now : Instant) :
    ∃ slots places currentSlot currentTime c,
      (w.advance now).2 = { w with slots := slots, timerMap := places, currentSlot := currentSlot
                                   currentTime := currentTime, cachedNextExpiry := c } ∧
      Placed (w.advance now).2 ∧ w.live = ↑(w.advance now).1 + (w.advance now).2.live := by
  obtain ⟨w₁, hc, hr, -⟩ := checkCurrentSlot_spec h now
  obtain ⟨slots₁, places₁, hw₁⟩ := hr.frame
  rw [advance, hc]
  dsimp only
  split
  · exact ⟨slots₁, places₁, w.currentSlot, w.currentTime, w.cachedNextExpiry, hw₁, hr.placed,
      hr.live_eq⟩
  · obtain ⟨ex, slots, places, w₂, hw₂, hadv, hp₂, hlive, -, -⟩ :=
      advanceSlots_spec hr.placed now (min w₁.slotCount (w₁.slotsToAdvance now))
    have hl : w.live = ↑(expired now (w.slots w.currentSlot) ++ ex) + w₂.live := by
      rw [hr.live_eq, ← hlive, ← add_assoc, Multiset.coe_add]
    rw [hadv]
    dsimp only
    split
    · refine ⟨slots, places, w₂.currentSlot, w₂.currentTime, w.cachedNextExpiry, ?_, hp₂, hl⟩
      rw [hw₂, hw₁]
    · refine ⟨slots, places, w₂.currentSlot, w₂.currentTime, none, ?_, hp₂.cached none, hl⟩
      rw [hw₂, hw₁]

/-- An expired entry lies in the current slot or in one that the advance visits. -/
theorem expired_visited (h : Placed w) (ha : Ahead w) {n : ℕ}
    (hn : n = (now - w.currentTime) / w.slotDuration) (he : e ∈ w.slots s)
    (hexp : e.expiryTime ≤ now) :
    s = w.currentSlot ∨ ∃ j < min w.slotCount n, s = (w.currentSlot + 1 + j) % w.slotCount := by
  obtain ⟨k, ht, hk⟩ := h.turned
  have hd := h.slotDuration_pos
  have hc := h.slotCount_pos
  have hs := h.slot_eq s e he
  rw [h.calculateSlotIndex_eq] at hs
  have hahead := ha s e he
  obtain ⟨A, hA⟩ : ∃ A : ℕ, A = (e.expiryTime - w.startTime) / w.slotDuration := ⟨_, rfl⟩
  rw [← hA] at hs
  have hlow : k ≤ A := by
    rw [hA, Nat.le_div_iff_mul_le hd]
    have : w.startTime + k * w.slotDuration ≤ e.expiryTime := ht ▸ hahead
    exact Nat.le_sub_of_add_le' this
  have hhigh : A ≤ k + n := by
    have hle : now - w.startTime = now - w.currentTime + k * w.slotDuration := by
      have hle : w.startTime + k * w.slotDuration ≤ now := ht ▸ hahead.trans hexp
      rw [ht, Nat.sub_add_eq, Nat.sub_add_cancel (Nat.le_sub_of_add_le' hle)]
    rw [hA, hn, Nat.add_comm, ← Nat.add_mul_div_right _ _ hd, ← hle]
    exact Nat.div_le_div_right (Nat.sub_le_sub_right hexp _)
  rcases hlow.eq_or_lt with rfl | hlt
  · left
    rw [hs, hk]
  · right
    obtain ⟨j, rfl⟩ := Nat.exists_eq_add_of_lt hlt
    refine ⟨j % w.slotCount, ?_, ?_⟩
    · apply lt_min (Nat.mod_lt _ hc)
      exact (Nat.mod_le _ _).trans_lt (Nat.add_le_add_iff_left.mp hhigh)
    · rw [hs, hk, Nat.add_mod_mod, Nat.add_assoc (k % _), Nat.mod_add_mod, Nat.add_assoc,
        Nat.add_comm 1 j]

theorem slotsToAdvance_eq (h : Placed w) (hfits : w.FitsNanos now) :
    w.slotsToAdvance now = (now - w.currentTime) / w.slotDuration := by
  obtain ⟨k, ht, -⟩ := h.turned
  have hle : (now - w.currentTime) / w.slotDuration ≤ now - w.startTime :=
    (Nat.div_le_self _ _).trans (Nat.sub_le_sub_left (ht ▸ Nat.le_add_right ..) now)
  rw [slotsToAdvance]
  exact Nat.mod_eq_of_lt (hle.trans_lt hfits)

/-- Once the current slot and those the advance visits have been checked, every slot keeps what has
not expired. -/
theorem slots_eq_pending (h : Placed w) (ha : Ahead w) {n : ℕ}
    (hn : n = (now - w.currentTime) / w.slotDuration) {slots : ℕ → List (TimerEntry E)}
    (hvis : ∀ j < min w.slotCount n,
      slots ((w.currentSlot + 1 + j) % w.slotCount) =
        pending now (Function.update w.slots w.currentSlot (pending now (w.slots w.currentSlot))
          ((w.currentSlot + 1 + j) % w.slotCount)))
    (hall : ∀ s,
      slots s = pending now
        (Function.update w.slots w.currentSlot (pending now (w.slots w.currentSlot)) s) ∨
      slots s = Function.update w.slots w.currentSlot (pending now (w.slots w.currentSlot)) s) :
    slots = fun s => pending now (w.slots s) := by
  funext s
  by_cases hcur : s = w.currentSlot
  · subst hcur
    rcases hall w.currentSlot with he | he <;> rw [he, Function.update_self]
    exact pending_pending now _
  · have hs := hall s
    rw [Function.update_of_ne hcur] at hs
    rcases hs with he | he
    · exact he
    · rw [he]
      by_cases hv : ∃ e ∈ w.slots s, e.expiryTime ≤ now
      · obtain ⟨e, hes, hexp⟩ := hv
        rcases expired_visited h ha hn hes hexp with hs | ⟨j, hj, hs⟩
        · exact absurd hs hcur
        · have hj' := hvis j hj
          rw [← hs, Function.update_of_ne hcur, he] at hj'
          exact hj'
      · symm
        rw [pending, List.filter_eq_self]
        intro e hes
        rw [decide_eq_true_iff, ← not_le]
        exact fun hexp => hv ⟨e, hes, hexp⟩

/-- A wheel that has moved on, not beyond the time of the advance, is ahead of what has not
expired. -/
theorem ahead_of_pending {w' : TimingWheel E} (hp : Placed w') {n : ℕ}
    (ht : w'.currentTime = w.currentTime + n * w.slotDuration) (hpos : 0 < n)
    (hn : n ≤ (now - w.currentTime) / w.slotDuration)
    (hlive : w'.live = w.live.filter (now < ·.expiryTime)) : Ahead w' := by
  intro s e he
  have hle : w'.currentTime ≤ now := by
    have hmove : n * w.slotDuration ≤ now - w.currentTime :=
      (Nat.mul_le_mul_right _ hn).trans (Nat.div_mul_le_self ..)
    have hnow : w.currentTime ≤ now := by
      by_contra hlt
      rw [Nat.sub_eq_zero_of_le (not_le.mp hlt).le, Nat.zero_div] at hn
      exact absurd hn (not_le.mpr hpos)
    rw [ht]
    exact (Nat.add_le_add_left hmove _).trans (Nat.add_sub_cancel' hnow).le
  have hmem : e ∈ w'.live := hp.mem_live.mpr ⟨s, he⟩
  rw [hlive, Multiset.mem_filter] at hmem
  exact hle.trans hmem.2.le

/-- An advance returns the expired timers and keeps the others. -/
theorem advance_spec (h : Placed w) (ha : Ahead w) (hfits : w.FitsNanos now) :
    Placed (w.advance now).2 ∧ Ahead (w.advance now).2 ∧
      ↑(w.advance now).1 = w.live.filter (·.expiryTime ≤ now) ∧
      (w.advance now).2.live = w.live.filter (now < ·.expiryTime) ∧
      (w.advance now).2.nextEntryId = w.nextEntryId ∧
      (w.slotDuration ≤ now - w.currentTime → (w.advance now).1 ≠ [] →
        (w.advance now).2.cachedNextExpiry = none) ∧
      (now - w.currentTime < w.slotDuration ∨ (w.advance now).1 = [] →
        (w.advance now).2.cachedNextExpiry = w.cachedNextExpiry) := by
  obtain ⟨w₁, hc, hr, hslots⟩ := checkCurrentSlot_spec h now
  obtain ⟨slots₁, places₁, hw₁⟩ := hr.frame
  have hn : w₁.slotsToAdvance now = (now - w.currentTime) / w.slotDuration := by
    have hsame : w₁.slotsToAdvance now = w.slotsToAdvance now := by
      rw [hw₁]
      rfl
    rw [hsame, slotsToAdvance_eq h hfits]
  obtain ⟨ex, slots, places, w₂, hw₂, hadv, hp₂, hlive, hvis, hall⟩ :=
    advanceSlots_spec hr.placed now (min w.slotCount ((now - w.currentTime) / w.slotDuration))
  have hsame : w₁.currentSlot = w.currentSlot ∧ w₁.slotCount = w.slotCount := by
    rw [hw₁]
    exact ⟨rfl, rfl⟩
  rw [hsame.1, hsame.2, hslots] at hvis
  rw [hslots] at hall
  have hkeep := slots_eq_pending h ha rfl hvis hall
  have hlive₂ : w₂.live = w.live.filter (now < ·.expiryTime) := by
    have hcount : w₂.slotCount = w.slotCount := by rw [hw₂, hw₁]
    have hslots₂ : w₂.slots = fun s => pending now (w.slots s) := by rw [hw₂, ← hkeep]
    rw [live, hcount, hslots₂, live]
    exact Slots.contents_filter w.slots w.slotCount fun e => now < e.expiryTime
  have hsplit :
      w.live = w.live.filter (·.expiryTime ≤ now) + w.live.filter (now < ·.expiryTime) := by
    have := Multiset.filter_add_not (fun e : TimerEntry E => e.expiryTime ≤ now) w.live
    simp only [not_le] at this
    exact this.symm
  have hex : ↑(expired now (w.slots w.currentSlot) ++ ex) = w.live.filter (·.expiryTime ≤ now) := by
    have hsum := hr.live_eq
    rw [← hlive, ← add_assoc, Multiset.coe_add, hlive₂] at hsum
    exact add_right_cancel (hsum.symm.trans hsplit)
  have hid : w₂.nextEntryId = w.nextEntryId := by rw [hw₂, hw₁]
  have hcache : w₂.cachedNextExpiry = w.cachedNextExpiry := by rw [hw₂, hw₁]
  by_cases hzero : (now - w.currentTime) / w.slotDuration = 0
  · rw [hzero, Nat.min_zero] at hadv
    cases hadv
    rw [List.append_nil] at hex
    have heq : w.advance now = (expired now (w.slots w.currentSlot), w₁) := by
      rw [advance, hc]
      dsimp only
      rw [hn, if_pos hzero]
    have hshort : ¬ w.slotDuration ≤ now - w.currentTime := by
      intro hle
      exact absurd hzero (Nat.div_pos hle h.slotDuration_pos).ne'
    rw [heq]
    exact ⟨hr.placed, hr.ahead ha, hex, hlive₂, hid, fun hle _ => absurd hle hshort,
      fun _ => hcache⟩
  · have hlong : w.slotDuration ≤ now - w.currentTime := by
      by_contra hlt
      exact hzero (Nat.div_eq_of_lt (not_le.mp hlt))
    have htime : w₂.currentTime = w.currentTime +
        min w.slotCount ((now - w.currentTime) / w.slotDuration) * w.slotDuration := by
      rw [hw₂, hw₁]
    have hah : Ahead w₂ :=
      ahead_of_pending hp₂ htime (lt_min h.slotCount_pos (Nat.pos_of_ne_zero hzero))
        (min_le_right ..) hlive₂
    cases hem : (expired now (w.slots w.currentSlot) ++ ex).isEmpty with
    | true =>
      have heq : w.advance now = (expired now (w.slots w.currentSlot) ++ ex, w₂) := by
        rw [advance, hc]
        dsimp only
        rw [hn, if_neg hzero, hsame.2, hadv]
        exact if_pos hem
      rw [heq]
      exact ⟨hp₂, hah, hex, hlive₂, hid, fun _ hne => absurd (List.isEmpty_iff.mp hem) hne,
        fun _ => hcache⟩
    | false =>
      have heq : w.advance now =
          (expired now (w.slots w.currentSlot) ++ ex, { w₂ with cachedNextExpiry := none }) := by
        rw [advance, hc]
        dsimp only
        rw [hn, if_neg hzero, hsame.2, hadv]
        exact if_neg (Bool.eq_false_iff.mp hem)
      have hne : expired now (w.slots w.currentSlot) ++ ex ≠ [] := by
        rintro hnil
        rw [hnil] at hem
        cases hem
      rw [heq]
      refine ⟨hp₂.cached none, hah, hex, hlive₂, hid, fun _ _ => rfl, ?_⟩
      rintro (hlt | hnil)
      · exact absurd hlong (not_le.mpr hlt)
      · exact absurd hnil hne

end TimingWheel

end Kestrel
