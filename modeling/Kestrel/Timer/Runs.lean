import Kestrel.Timer.Lifetimes
import Kestrel.Timer.Cancellation

/-! # Runs of a wheel

Whatever is done to a wheel and whatever the times, its slots and its mask fit together, and the
map finds every timer as long as no batch of cancellations takes out timers that it does not name.
-/

namespace Kestrel

open Std (ExtTreeMap)

namespace TimingWheel

variable {E : Type} {w w' : TimingWheel E} {e : TimerEntry E} {s : ℕ} {now : Instant}

section Geared

theorem Geared.pushEntries (h : Geared w) (l : List (ℕ × TimerEntry E)) :
    Geared (l.foldl (fun w x => w.pushEntry x.1 x.2) w) := by
  induction l generalizing w with
  | nil => exact h
  | cons x l ih => exact ih (w := w.pushEntry x.1 x.2) { h with }

theorem Geared.batchAddTimers (h : Geared w) (timers : List (Duration × E)) (order : List ℕ) :
    Geared (w.batchAddTimers timers order).2 := by
  rw [TimingWheel.batchAddTimers]
  split
  · exact h
  · have hpush := Geared.pushEntries (w := { w with nextEntryId := w.nextEntryId + timers.length })
      { h with } (order.flatMap fun slot => (w.batchEntries timers).filter (·.1 = slot))
    exact { hpush with }

theorem Geared.swapRemove (h : Geared w) (s p : ℕ) : Geared (w.swapRemove s p) := by
  rw [TimingWheel.swapRemove]
  dsimp only
  split <;> exact { h with }

theorem Geared.cancelTimer (h : Geared w) (id : TimerEntryId) : Geared (w.cancelTimer id).2 := by
  rw [TimingWheel.cancelTimer]
  split
  · exact h
  · rename_i s p _
    have herase : Geared { w with timerMap := w.timerMap.erase id } := { h with }
    have hswap := herase.swapRemove s p
    dsimp only
    split
    · split
      · exact { hswap with }
      · exact hswap
    · exact herase

theorem Geared.cancelGroup (h : Geared w) (s : ℕ) (l : List (TimerEntryId × ℕ)) :
    Geared (cancelGroup s w l).2.2 := by
  induction l generalizing w with
  | nil => exact h
  | cons x l ih =>
    rw [TimingWheel.cancelGroup]
    split
    · have hswap := h.swapRemove s x.2
      exact ih { hswap with }
    · exact ih h

theorem Geared.cancelGroups (h : Geared w) (found : List (TimerEntryId × ℕ × ℕ))
    (order : List ℕ) : Geared (cancelGroups found w order).2.2 := by
  induction order generalizing w with
  | nil => exact h
  | cons s order ih =>
    rw [TimingWheel.cancelGroups]
    split
    · exact ih h
    · exact ih (h.cancelGroup s _)

theorem Geared.batchCancelTimers (h : Geared w) (ids : List TimerEntryId) (order : List ℕ) :
    Geared (w.batchCancelTimers ids order).2 := by
  rw [TimingWheel.batchCancelTimers]
  have hcancel := h.cancelGroups (w.findPlaces ids) order
  split
  · exact h
  · dsimp only
    split
    · exact { hcancel with }
    · exact hcancel

theorem Geared.processEntries (h : Geared w) (now : Instant) (l : List (TimerEntry E)) :
    Geared (processEntries now w l).2 := by
  induction l generalizing w with
  | nil => exact h
  | cons e l ih =>
    rw [TimingWheel.processEntries]
    dsimp only
    split
    · exact ih { h with }
    · apply ih
      exact { h with }

theorem Geared.advanceSlots (h : Geared w) (now : Instant) (n : ℕ) :
    Geared (advanceSlots now w n).2 := by
  induction n generalizing w with
  | zero => exact h
  | succ n ih =>
    rw [TimingWheel.advanceSlots]
    apply ih
    apply Geared.processEntries
    exact { h with startTime_le := h.startTime_le.trans (Nat.le_add_right ..) }

theorem Geared.advance (h : Geared w) (now : Instant) : Geared (w.advance now).2 := by
  have hcheck : Geared (w.checkCurrentSlotForExpiredTimers now).2 := { h with }
  rw [TimingWheel.advance]
  dsimp only
  split
  · exact hcheck
  · have hslots := hcheck.advanceSlots now (min
      (w.checkCurrentSlotForExpiredTimers now).2.slotCount
      ((w.checkCurrentSlotForExpiredTimers now).2.slotsToAdvance now))
    split
    · exact hslots
    · exact { hslots with }

theorem Geared.nextExpiryTime (h : Geared w) : Geared w.nextExpiryTime.2 := by
  rw [TimingWheel.nextExpiryTime]
  split
  · exact h
  · split
    · exact h
    · exact { h with }

theorem geared_new {slotCount : ℕ} {slotDuration : Duration} (hlt : slotCount < u64Size)
    (h : TimingWheel.new slotCount slotDuration now = some w) : Geared w := by
  obtain ⟨hpow, he⟩ := Option.ite_none_right_eq_some.mp h
  cases he
  exact ⟨hpow, hlt, rfl, le_rfl⟩

end Geared

section Held

theorem Held.timerMap_eq_none (h : Held w) {id : TimerEntryId} (hid : w.nextEntryId ≤ id) :
    w.timerMap[id]? = none := by
  rw [← Option.not_isSome_iff_eq_none, h.isSome_timerMap]
  rintro ⟨s, e, he, rfl⟩
  exact absurd (h.id_lt s e he) (not_lt.mpr hid)

theorem Held.allocate (h : Held w) (n : ℕ) :
    Held { w with nextEntryId := w.nextEntryId + n } :=
  { h with id_lt := fun s e he => (h.id_lt s e he).trans_le (Nat.le_add_right ..) }

theorem calculateSlotIndex_le (w : TimingWheel E) (t : Instant) :
    w.calculateSlotIndex t ≤ w.slotMask :=
  Nat.and_le_right

theorem Held.pushEntry (h : Held w) (hs : s ≤ w.slotMask) (hid : w.timerMap[e.id]? = none)
    (hlt : e.id < w.nextEntryId) : Held (w.pushEntry s e) := by
  refine { h with indexed := h.indexed.push hid, slot_lt := ?_, id_lt := ?_ }
  · intro s' e' he
    rcases mem_pushEntry.mp he with he | ⟨rfl, rfl⟩
    · exact h.slot_lt s' e' he
    · exact hs.trans_lt h.slotMask_lt
  · intro s' e' he
    rcases mem_pushEntry.mp he with he | ⟨rfl, rfl⟩
    · exact h.id_lt s' e' he
    · exact hlt

theorem Held.pushEntries (h : Held w) {l : List (ℕ × TimerEntry E)}
    (hs : ∀ x ∈ l, x.1 ≤ w.slotMask) (hnew : ∀ x ∈ l, w.timerMap[x.2.id]? = none)
    (hlt : ∀ x ∈ l, x.2.id < w.nextEntryId) (hnd : (l.map (·.2.id)).Nodup) :
    Held (l.foldl (fun w x => w.pushEntry x.1 x.2) w) := by
  induction l generalizing w with
  | nil => exact h
  | cons x l ih =>
    simp only [List.forall_mem_cons, List.map_cons, List.nodup_cons, List.mem_map, not_exists,
      not_and] at hs hnew hlt hnd
    refine ih (h.pushEntry hs.1 hnew.1 hlt.1) hs.2 ?_ hlt.2 hnd.2
    intro y hy
    change (w.timerMap.insert x.2.id (x.1, (w.slots x.1).length))[y.2.id]? = none
    rw [SortedMap.getElem?_insert, if_neg (fun he => hnd.1 y hy he.symm), hnew.2 y hy]

theorem Held.addTimer (h : Held w) (delay : Duration) (event : E) :
    Held (w.addTimer delay event).2 := by
  have hid : w.timerMap[w.nextEntryId]? = none := h.timerMap_eq_none le_rfl
  have hp := (h.allocate 1).pushEntry (e := ⟨w.nextEntryId, w.currentTime + delay, event⟩)
    (calculateSlotIndex_le { w with nextEntryId := w.nextEntryId + 1 } (w.currentTime + delay))
    hid (Nat.lt_succ_self _)
  exact hp.cached _

theorem map_id_batchEntries (w : TimingWheel E) (timers : List (Duration × E)) :
    (w.batchEntries timers).map (·.2.id) = List.range' w.nextEntryId timers.length := by
  rw [batchEntries_eq, List.map_map]
  exact List.map_fst_zip (by simp)

theorem batchEntries_le (w : TimingWheel E) (timers : List (Duration × E)) :
    ∀ x ∈ w.batchEntries timers, x.1 ≤ w.slotMask := by
  rw [batchEntries_eq]
  intro x hx
  obtain ⟨y, -, rfl⟩ := List.mem_map.mp hx
  exact Nat.and_le_right.trans (Nat.mod_le _ _)

theorem Held.batchAddTimers (h : Held w) (timers : List (Duration × E)) {order : List ℕ}
    (ho : IsOrder order ((w.batchEntries timers).map (·.1))) :
    Held (w.batchAddTimers timers order).2 := by
  rw [TimingWheel.batchAddTimers]
  split
  · exact h
  · have hids := map_id_batchEntries w timers
    have hperm := Slots.flatMap_filter_perm (fun x : ℕ × TimerEntry E => x.1) ho.1
      (l := w.batchEntries timers) (fun x hx => ho.2.2 _ (List.mem_map_of_mem hx))
    have hmem {x : ℕ × TimerEntry E} (hx : x ∈ w.batchEntries timers) :
        w.nextEntryId ≤ x.2.id ∧ x.2.id < w.nextEntryId + timers.length := by
      have hid := List.mem_map_of_mem (f := fun x : ℕ × TimerEntry E => x.2.id) hx
      rwa [hids, List.mem_range'_1] at hid
    refine ((h.allocate timers.length).pushEntries ?_ ?_ ?_ ?_).cached _
    · exact fun x hx => batchEntries_le w timers x (hperm.mem_iff.mp hx)
    · exact fun x hx => h.timerMap_eq_none (hmem (hperm.mem_iff.mp hx)).1
    · exact fun x hx => (hmem (hperm.mem_iff.mp hx)).2
    · rw [(hperm.map _).nodup_iff, hids]
      exact List.nodup_range'

theorem Held.checkCurrentSlot (h : Held w) (now : Instant) :
    Held (w.checkCurrentSlotForExpiredTimers now).2 := by
  have hi : Slots.Indexed TimerEntry.id
      (Function.update w.slots w.currentSlot ([] ++ w.slots w.currentSlot)) w.timerMap := by
    rw [List.nil_append, Function.update_eq_self]
    exact h.indexed
  obtain ⟨places, hc, hp⟩ := checkSlot_spec now hi
  rw [checkCurrentSlotForExpiredTimers, hc]
  refine h.of_subset hp ?_
  intro s e he
  by_cases hs : s = w.currentSlot
  · subst hs
    rw [Function.update_self] at he
    exact List.mem_of_mem_filter he
  · rwa [Function.update_of_ne hs] at he

theorem Held.processEntries {l : List (TimerEntry E)}
    (h : Held { w with timerMap := SortedMap.eraseAll w.timerMap (l.map TimerEntry.id) })
    (hlt : ∀ e ∈ l, e.id < w.nextEntryId) (hnd : (l.map TimerEntry.id).Nodup) (now : Instant) :
    Held (processEntries now w l).2 := by
  induction l generalizing w with
  | nil => exact h
  | cons e l ih =>
    rw [List.forall_mem_cons] at hlt
    rw [List.map_cons, List.nodup_cons] at hnd
    rw [TimingWheel.processEntries]
    dsimp only
    split
    · exact ih h hlt.2 hnd.2
    · have hnone : (SortedMap.eraseAll w.timerMap ((e :: l).map TimerEntry.id))[e.id]? = none := by
        rw [SortedMap.getElem?_eraseAll, if_pos (by simp)]
      have hpush := h.pushEntry (e := e)
        (calculateSlotIndex_le { w with timerMap := w.timerMap.erase e.id } e.expiryTime) hnone
        hlt.1
      refine ih ?_ hlt.2 hnd.2
      rw [TimingWheel.pushEntry] at hpush ⊢
      dsimp only at hpush ⊢
      rw [SortedMap.eraseAll_insert hnd.1]
      exact hpush

theorem Held.advanceSlots (h : Held w) (now : Instant) (n : ℕ) : Held (advanceSlots now w n).2 := by
  induction n generalizing w with
  | zero => exact h
  | succ n ih =>
    rw [TimingWheel.advanceSlots]
    refine ih (Held.processEntries ?_ ?_ ?_ now)
    · have htake := h.of_subset (h.indexed.takeSlot (s := w.currentSlot + 1 &&& w.slotMask)) (by
        intro s e he
        by_cases hs : s = w.currentSlot + 1 &&& w.slotMask
        · subst hs
          rw [Function.update_self] at he
          cases he
        · rwa [Function.update_of_ne hs] at he)
      exact { htake with }
    · exact fun e he => h.id_lt _ e he
    · exact h.indexed.nodup _

theorem Held.advance (h : Held w) (now : Instant) : Held (w.advance now).2 := by
  rw [TimingWheel.advance]
  have hcheck := h.checkCurrentSlot now
  dsimp only
  split
  · exact hcheck
  · split
    · exact hcheck.advanceSlots now _
    · exact (hcheck.advanceSlots now _).cached none

theorem Held.nextExpiryTime (h : Held w) : Held w.nextExpiryTime.2 := by
  rw [TimingWheel.nextExpiryTime]
  split
  · exact h
  · split
    · exact h
    · exact h.cached _

end Held

section Panics

variable (w)

/-- Adds a timer; `none` is the division by a slot duration of zero. -/
def tryAddTimer (delay : Duration) (event : E) : Option (TimerEntryId × TimingWheel E) :=
  if w.slotDuration = 0 then none else some (w.addTimer delay event)

/-- Adds a batch of timers; what a batch divides by is the slot duration cut to 64 bits. -/
def tryBatchAddTimers (timers : List (Duration × E)) (order : List ℕ) :
    Option (List TimerEntryId × TimingWheel E) :=
  if timers.isEmpty then some ([], w)
  else if w.slotDuration % u64Size = 0 then none
  else some (w.batchAddTimers timers order)

def tryAdvance (now : Instant) : Option (List (TimerEntry E) × TimingWheel E) :=
  if w.slotDuration = 0 then none else some (w.advance now)

end Panics

namespace WheelOp

/-- Carries out an operation on a wheel; `none` is a panic. -/
def carryOut (w : TimingWheel E) : WheelOp E → Option (TimingWheel E)
  | addTimer delay event => (w.tryAddTimer delay event).map Prod.snd
  | batchAddTimers timers order => (w.tryBatchAddTimers timers order).map Prod.snd
  | cancelTimer entryId => some (w.cancelTimer entryId).2
  | batchCancelTimers entryIds order => some (w.batchCancelTimers entryIds order).2
  | advance now => (w.tryAdvance now).map Prod.snd
  | nextExpiryTime => some w.nextExpiryTime.2

/-- The slots of a batch come in some order. -/
def Ordered (w : TimingWheel E) : WheelOp E → Prop
  | batchAddTimers timers order => IsOrder order ((w.batchEntries timers).map (·.1))
  | batchCancelTimers entryIds order => IsOrder order ((w.findPlaces entryIds).map (·.2.1))
  | _ => True

instance (w : TimingWheel E) : DecidablePred (Ordered w)
  | batchAddTimers .. | batchCancelTimers .. => inferInstanceAs (Decidable (IsOrder _ _))
  | addTimer .. | cancelTimer _ | advance _ | nextExpiryTime => .isTrue trivial

/-- A batch of cancellations takes out no timer that it does not name. -/
def Spares (w : TimingWheel E) : WheelOp E → Prop
  | batchCancelTimers entryIds _ => w.Harmless entryIds
  | _ => True

instance (w : TimingWheel E) : DecidablePred (Spares w)
  | batchCancelTimers entryIds _ => inferInstanceAs (Decidable (w.Harmless entryIds))
  | addTimer .. | batchAddTimers .. | cancelTimer _ | advance _ | nextExpiryTime => .isTrue trivial

end WheelOp

/-- All runs of a new wheel, whatever the times; the slot count is a 64-bit number. -/
def runs (E : Type) : TransitionSystem (TimingWheel E) (WheelOp E) :=
  .ofNext
    (fun w => ∃ slotCount slotDuration now, slotCount < u64Size ∧
      TimingWheel.new slotCount slotDuration now = some w)
    fun w op => if op.Ordered w then op.carryOut w else none

section Runs

variable {op : WheelOp E}

theorem WheelOp.carryOut_cases {P : TimingWheel E → Prop} (h : op.carryOut w = some w')
    (hadd : ∀ delay event, op = .addTimer delay event → P (w.addTimer delay event).2)
    (hbatch : ∀ timers order, op = .batchAddTimers timers order →
      P (w.batchAddTimers timers order).2)
    (hcancel : ∀ id, op = .cancelTimer id → P (w.cancelTimer id).2)
    (hcancels : ∀ ids order, op = .batchCancelTimers ids order →
      P (w.batchCancelTimers ids order).2)
    (hadvance : ∀ now, op = .advance now → P (w.advance now).2)
    (hnext : op = .nextExpiryTime → P w.nextExpiryTime.2) : P w' := by
  cases op with
  | addTimer delay event =>
    obtain ⟨x, hx, rfl⟩ := Option.map_eq_some_iff.mp h
    obtain ⟨-, he⟩ := Option.ite_none_left_eq_some.mp hx
    cases he
    exact hadd delay event rfl
  | batchAddTimers timers order =>
    obtain ⟨x, hx, rfl⟩ := Option.map_eq_some_iff.mp h
    rw [tryBatchAddTimers] at hx
    split at hx
    · rename_i hnil
      cases hx
      have hp := hbatch timers order rfl
      rwa [TimingWheel.batchAddTimers, if_pos hnil] at hp
    · obtain ⟨-, he⟩ := Option.ite_none_left_eq_some.mp hx
      cases he
      exact hbatch timers order rfl
  | cancelTimer id =>
    cases h
    exact hcancel id rfl
  | batchCancelTimers ids order =>
    cases h
    exact hcancels ids order rfl
  | advance now =>
    obtain ⟨x, hx, rfl⟩ := Option.map_eq_some_iff.mp h
    obtain ⟨-, he⟩ := Option.ite_none_left_eq_some.mp hx
    cases he
    exact hadvance now rfl
  | nextExpiryTime =>
    cases h
    exact hnext rfl

theorem Geared.carryOut (h : Geared w) (hc : op.carryOut w = some w') : Geared w' := by
  apply WheelOp.carryOut_cases hc
  · rintro delay event -
    exact { h with }
  · rintro timers order -
    exact h.batchAddTimers timers order
  · rintro id -
    exact h.cancelTimer id
  · rintro ids order -
    exact h.batchCancelTimers ids order
  · rintro now -
    exact h.advance now
  · rintro -
    exact h.nextExpiryTime

theorem Held.carryOut (h : Held w) (ho : op.Ordered w) (hs : op.Spares w)
    (hc : op.carryOut w = some w') : Held w' := by
  apply WheelOp.carryOut_cases hc
  · rintro delay event -
    exact h.addTimer delay event
  · rintro timers order rfl
    exact h.batchAddTimers timers ho
  · rintro id -
    rcases h.cancelTimer id with ⟨-, hc⟩ | ⟨s, e, w', -, -, hst, hc⟩
    · rw [hc]
      exact h
    · rw [hc]
      dsimp only
      split
      · exact hst.held.cached none
      · exact hst.held
  · rintro ids order rfl
    obtain ⟨stale, w', hst, hc, -⟩ := h.batchCancelTimers (List.nodup_dedup ids) ho.1
      fun x hx => (isOrder_dedup ho).2.2 _ (List.mem_map_of_mem hx)
    rw [batchCancelTimers_dedup h hs ho.1, hc]
    dsimp only
    split
    · exact hst.held.cached none
    · exact hst.held
  · rintro now -
    exact h.advance now
  · rintro -
    exact h.nextExpiryTime

theorem held_new {slotCount : ℕ} {slotDuration : Duration}
    (h : TimingWheel.new slotCount slotDuration now = some w) : Held w := by
  rw [TimingWheel.new] at h
  split at h
  · rename_i hpow
    cases h
    exact
      { slotMask_lt := Nat.sub_lt (Nat.pos_of_isPowerOfTwo hpow) Nat.one_pos
        indexed := by
          intro k s p
          simp
        slot_lt := fun s e he => absurd he List.not_mem_nil
        id_lt := fun s e he => absurd he List.not_mem_nil }
  · cases h

/-- In every run the slots and the mask fit together. -/
theorem geared (h : (runs E).Reachable w) : Geared w := by
  have hinv : (runs E).Invariant Geared :=
    { init := by
        rintro w ⟨slotCount, slotDuration, now, hlt, hnew⟩
        exact geared_new hlt hnew
      step := by
        rintro w op w' - hw hstep
        exact hw.carryOut (Option.ite_none_right_eq_some.mp hstep).2 }
  exact hinv.holds h

/-- In every run in which no batch takes out timers that it does not name, the map finds every
timer. -/
theorem held (h : ((runs E).restrict fun w op _ => op.Spares w).Reachable w) : Held w := by
  have hinv : ((runs E).restrict fun w op _ => op.Spares w).Invariant Held :=
    { init := by
        rintro w ⟨slotCount, slotDuration, now, -, hnew⟩
        exact held_new hnew
      step := by
        rintro w op w' - hw ⟨hstep, hs⟩
        obtain ⟨ho, hc⟩ := Option.ite_none_right_eq_some.mp hstep
        exact hw.carryOut ho hs hc }
  exact hinv.holds h

theorem runs_init_sampleWheel (slotDuration : Duration) :
    (runs Unit).init (WheelRun.sampleWheel slotDuration).wheel :=
  ⟨2, slotDuration, 0, by decide, rfl⟩

end Runs

end TimingWheel

end Kestrel
