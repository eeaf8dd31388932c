import Kestrel.Timer.Cancellation
import Kestrel.Timer.Task

/-! # Timers and real time

A delay counts from the time at which the wheel stands, which only an advance moves. A timer that
is registered while the wheel stands behind the clock therefore expires too early; one that is
registered on time does not, whatever becomes of the wheel.
-/

namespace Kestrel

open Std (ExtTreeMap)

namespace TimingWheel

variable {E : Type} {w w' : TimingWheel E} {e : TimerEntry E} {s p : ℕ} {now : Instant}

/-- An entry lies in some slot. -/
def Has (w : TimingWheel E) (e : TimerEntry E) : Prop := ∃ s, e ∈ w.slots s

/-- No entry is new, no identifier was given out, and the wheel does not go back in time. -/
structure Ages (w w' : TimingWheel E) : Prop where
  has : ∀ e, w'.Has e → w.Has e
  nextEntryId_eq : w'.nextEntryId = w.nextEntryId
  startTime_eq : w'.startTime = w.startTime
  currentTime_le : w.currentTime ≤ w'.currentTime

theorem Ages.refl (w : TimingWheel E) : Ages w w := ⟨fun _ h => h, rfl, rfl, le_rfl⟩

theorem Ages.trans {w'' : TimingWheel E} (h : Ages w w') (h' : Ages w' w'') : Ages w w'' where
  has e he := h.has e (h'.has e he)
  nextEntryId_eq := h'.nextEntryId_eq.trans h.nextEntryId_eq
  startTime_eq := h'.startTime_eq.trans h.startTime_eq
  currentTime_le := h.currentTime_le.trans h'.currentTime_le

theorem Ages.of_maps (h : Ages w w') (places : ExtTreeMap TimerEntryId (ℕ × ℕ))
    (c : Option Instant) : Ages w { w' with timerMap := places, cachedNextExpiry := c } :=
  ⟨h.has, h.nextEntryId_eq, h.startTime_eq, h.currentTime_le⟩

theorem Ages.shrinkSlot {l : List (TimerEntry E)} (h : ∀ e ∈ l, e ∈ w.slots s) :
    Ages w { w with slots := Function.update w.slots s l } := by
  refine ⟨?_, rfl, rfl, le_rfl⟩
  rintro e ⟨s', he⟩
  dsimp only at he
  by_cases hs : s' = s
  · subst hs
    rw [Function.update_self] at he
    exact ⟨s', h e he⟩
  · rw [Function.update_of_ne hs] at he
    exact ⟨s', he⟩

section Cancel

theorem ages_swapRemove : Ages w (w.swapRemove s p) := by
  rw [swapRemove]
  dsimp only
  split
  · exact .shrinkSlot fun e he => List.mem_of_mem_dropLast he
  · exact (Ages.shrinkSlot fun e he => Slots.mem_of_mem_swapPop he).of_maps _ w.cachedNextExpiry

theorem ages_cancelTimer (id : TimerEntryId) : Ages w (w.cancelTimer id).2 := by
  rw [cancelTimer]
  split
  · exact .refl w
  · rename_i s p _
    have hm := (Ages.refl w).of_maps (w.timerMap.erase id) w.cachedNextExpiry
    have hr := hm.trans (ages_swapRemove (s := s) (p := p))
    dsimp only
    split
    · split
      · exact hr.of_maps _ none
      · exact hr
    · exact hm

theorem ages_cancelGroup (l : List (TimerEntryId × ℕ)) : Ages w (cancelGroup s w l).2.2 := by
  induction l generalizing w with
  | nil => exact .refl w
  | cons x l ih =>
    by_cases hx : x.2 < (w.slots s).length
    · rw [cancelGroup_cons_of_lt hx]
      exact (ages_swapRemove.of_maps _ _).trans ih
    · rw [cancelGroup_cons_of_ge (not_lt.mp hx)]
      exact ih

theorem ages_cancelGroups (found : List (TimerEntryId × ℕ × ℕ)) (order : List ℕ) :
    Ages w (cancelGroups found w order).2.2 := by
  induction order generalizing w with
  | nil => exact .refl w
  | cons s order ih =>
    rw [cancelGroups]
    split
    · exact ih
    · exact (ages_cancelGroup _).trans ih

theorem ages_batchCancelTimers (entryIds : List TimerEntryId) (order : List ℕ) :
    Ages w (w.batchCancelTimers entryIds order).2 := by
  rw [batchCancelTimers]
  split
  · exact .refl w
  · dsimp only
    split
    · exact (ages_cancelGroups _ order).of_maps _ none
    · exact ages_cancelGroups _ order

end Cancel

section Advance

theorem checkSlot_lists (now : Instant) (passed rest : List (TimerEntry E))
    (places : ExtTreeMap TimerEntryId (ℕ × ℕ)) :
    (checkSlot now s passed rest places).1 = expired now rest ∧
      (checkSlot now s passed rest places).2.1 = passed ++ pending now rest := by
  induction rest generalizing passed places with
  | nil => exact ⟨rfl, (List.append_nil _).symm⟩
  | cons e rest ih =>
    rw [checkSlot, expired, pending, List.filter_cons, List.filter_cons]
    by_cases he : e.expiryTime ≤ now
    · have hlt : ¬ now < e.expiryTime := not_lt.mpr he
      simp only [he, hlt, decide_true, decide_false, if_true]
      obtain ⟨hex, hs⟩ := ih passed
        (Slots.reindex TimerEntry.id s (places.erase e.id) passed.length rest)
      exact ⟨congrArg _ hex, hs⟩
    · have hlt : now < e.expiryTime := not_le.mp he
      simp only [he, hlt, decide_true, decide_false, if_true]
      obtain ⟨hex, hs⟩ := ih (passed ++ [e]) places
      exact ⟨hex, hs.trans (List.append_assoc ..)⟩

/-- Timers that have expired leave the wheel. -/
structure Expires (now : Instant) (w w' : TimingWheel E) (ex : List (TimerEntry E)) : Prop where
  ages : Ages w w'
  expired : ∀ e ∈ ex, w.Has e ∧ e.expiryTime ≤ now

theorem Expires.trans {w'' : TimingWheel E} {ex ex' : List (TimerEntry E)}
    (h : Expires now w w' ex) (h' : Expires now w' w'' ex') : Expires now w w'' (ex ++ ex') := by
  refine ⟨h.ages.trans h'.ages, ?_⟩
  intro e he
  rcases List.mem_append.mp he with he | he
  · exact h.expired e he
  · exact ⟨h.ages.has e (h'.expired e he).1, (h'.expired e he).2⟩

theorem expires_checkCurrentSlot (now : Instant) :
    Expires now w (w.checkCurrentSlotForExpiredTimers now).2
      (w.checkCurrentSlotForExpiredTimers now).1 := by
  obtain ⟨hex, hs⟩ := checkSlot_lists (s := w.currentSlot) now []
    (w.slots w.currentSlot) w.timerMap
  rw [checkCurrentSlotForExpiredTimers]
  dsimp only
  rw [hex, hs]
  constructor
  · exact (Ages.shrinkSlot fun e he => List.mem_of_mem_filter he).of_maps _ w.cachedNextExpiry
  · intro e he
    obtain ⟨he, hexp⟩ := List.mem_filter.mp he
    exact ⟨⟨_, he⟩, of_decide_eq_true hexp⟩

theorem processEntries_lists (now : Instant) (l : List (TimerEntry E)) :
    (processEntries now w l).1 = expired now l ∧
      (∀ e, (processEntries now w l).2.Has e → w.Has e ∨ e ∈ l) ∧
      (processEntries now w l).2.nextEntryId = w.nextEntryId ∧
      (processEntries now w l).2.startTime = w.startTime ∧
      (processEntries now w l).2.currentTime = w.currentTime := by
  induction l generalizing w with
  | nil => exact ⟨rfl, fun e he => Or.inl he, rfl, rfl, rfl⟩
  | cons e l ih =>
    rw [processEntries, expired, List.filter_cons]
    by_cases hexp : e.expiryTime ≤ now
    · obtain ⟨hex, hhas, hframe⟩ := ih (w := { w with timerMap := w.timerMap.erase e.id })
      simp only [hexp, decide_true, if_true]
      refine ⟨congrArg _ hex, ?_, hframe⟩
      intro e' he'
      exact (hhas e' he').imp_right (List.mem_cons_of_mem _)
    · obtain ⟨hex, hhas, hframe⟩ := ih (w := pushEntry { w with timerMap := w.timerMap.erase e.id }
        (calculateSlotIndex { w with timerMap := w.timerMap.erase e.id } e.expiryTime) e)
      simp only [hexp, decide_false, if_false, Bool.false_eq_true]
      refine ⟨hex, ?_, hframe⟩
      intro e' he'
      rcases hhas e' he' with ⟨s, hs⟩ | hl
      · rcases mem_pushEntry.mp hs with hs | ⟨rfl, -⟩
        · exact Or.inl ⟨s, hs⟩
        · exact Or.inr (List.mem_cons_self ..)
      · exact Or.inr (List.mem_cons_of_mem _ hl)

theorem expires_visitSlot (now : Instant) :
    Expires now w (processEntries now w.nextSlot.2 w.nextSlot.1).2
      (processEntries now w.nextSlot.2 w.nextSlot.1).1 := by
  obtain ⟨hex, hhas, hid, hstart, hcur⟩ :=
    processEntries_lists (w := w.nextSlot.2) now w.nextSlot.1
  constructor
  · refine ⟨?_, hid, hstart, ?_⟩
    · intro e he
      rcases hhas e he with ⟨s, hs⟩ | hl
      · rw [nextSlot] at hs
        dsimp only at hs
        by_cases hne : s = w.currentSlot + 1 &&& w.slotMask
        · rw [hne, Function.update_self] at hs
          cases hs
        · rw [Function.update_of_ne hne] at hs
          exact ⟨s, hs⟩
      · exact ⟨_, hl⟩
    · rw [hcur]
      exact Nat.le_add_right ..
  · intro e he
    rw [hex] at he
    obtain ⟨he, hexp⟩ := List.mem_filter.mp he
    exact ⟨⟨_, he⟩, of_decide_eq_true hexp⟩

theorem expires_advanceSlots (now : Instant) (n : ℕ) :
    Expires now w (advanceSlots now w n).2 (advanceSlots now w n).1 := by
  induction n generalizing w with
  | zero => exact ⟨.refl w, fun e he => absurd he List.not_mem_nil⟩
  | succ n ih => exact (expires_visitSlot now).trans ih

/-- Whatever state the wheel is in, an advance returns entries of the wheel that have expired. -/
theorem expires_advance (now : Instant) :
    Expires now w (w.advance now).2 (w.advance now).1 := by
  have hcheck := expires_checkCurrentSlot (w := w) now
  rw [advance]
  dsimp only
  split
  · exact hcheck
  · have hall := hcheck.trans (expires_advanceSlots now
      (min (w.checkCurrentSlotForExpiredTimers now).2.slotCount
        ((w.checkCurrentSlotForExpiredTimers now).2.slotsToAdvance now)))
    split
    · exact hall
    · exact ⟨hall.ages.of_maps _ none, hall.expired⟩

end Advance

theorem ages_nextExpiryTime : Ages w w.nextExpiryTime.2 := by
  rw [nextExpiryTime]
  split
  · exact .refl w
  · split
    · exact .refl w
    · exact (Ages.refl w).of_maps _ _

section Add

theorem has_addTimer {delay : Duration} {event : E} (h : (w.addTimer delay event).2.Has e) :
    w.Has e ∨ e = ⟨w.nextEntryId, w.currentTime + delay, event⟩ := by
  obtain ⟨s, hs⟩ := h
  rcases mem_pushEntry.mp hs with hs | ⟨rfl, -⟩
  · exact Or.inl ⟨s, hs⟩
  · exact Or.inr rfl

theorem map_snd_batchEntries (w : TimingWheel E) (timers : List (Duration × E)) :
    (w.batchEntries timers).map (·.2) = ((List.range' w.nextEntryId timers.length).zip timers).map
      fun x => ⟨x.1, w.batchExpiry x.2.1, x.2.2⟩ := by
  rw [batchEntries_eq, List.map_map]
  rfl

theorem foldl_pushEntry (l : List (ℕ × TimerEntry E)) :
    ∃ slots places, l.foldl (fun w x => w.pushEntry x.1 x.2) w =
        { w with slots := slots, timerMap := places } ∧
      ∀ s, ∀ e ∈ slots s, w.Has e ∨ e ∈ l.map (·.2) := by
  induction l generalizing w with
  | nil => exact ⟨w.slots, w.timerMap, rfl, fun s e he => Or.inl ⟨s, he⟩⟩
  | cons x l ih =>
    obtain ⟨slots, places, he, hhas⟩ := ih (w := w.pushEntry x.1 x.2)
    refine ⟨slots, places, he, ?_⟩
    intro s e hes
    rw [List.map_cons]
    rcases hhas s e hes with ⟨s', hs'⟩ | hl
    · rcases mem_pushEntry.mp hs' with hs' | ⟨rfl, -⟩
      · exact Or.inl ⟨s', hs'⟩
      · exact Or.inr (List.mem_cons_self ..)
    · exact Or.inr (List.mem_cons_of_mem _ hl)

/-- A batch adds its entries and nothing else, whatever state the wheel is in. -/
theorem batchAddTimers_has (w : TimingWheel E) (timers : List (Duration × E)) (order : List ℕ) :
    (w.batchAddTimers timers order).1 = List.range' w.nextEntryId timers.length ∧
      (w.batchAddTimers timers order).2.nextEntryId = w.nextEntryId + timers.length ∧
      (w.batchAddTimers timers order).2.startTime = w.startTime ∧
      (w.batchAddTimers timers order).2.currentTime = w.currentTime ∧
      ∀ e, (w.batchAddTimers timers order).2.Has e →
        w.Has e ∨ e ∈ (w.batchEntries timers).map (·.2) := by
  rw [batchAddTimers]
  split
  · rename_i hnil
    rw [List.isEmpty_iff.mp hnil]
    exact ⟨rfl, rfl, rfl, rfl, fun e he => Or.inl he⟩
  · obtain ⟨slots, places, he, hhas⟩ := foldl_pushEntry
      (w := { w with nextEntryId := w.nextEntryId + timers.length })
      (order.flatMap fun slot => (w.batchEntries timers).filter (·.1 = slot))
    dsimp only
    rw [he]
    refine ⟨?_, rfl, rfl, rfl, ?_⟩
    · have hids : (w.batchEntries timers).map (·.2.id) =
          ((w.batchEntries timers).map (·.2)).map TimerEntry.id := (List.map_map ..).symm
      rw [hids, map_snd_batchEntries, List.map_map]
      exact List.map_fst_zip List.length_range'.le
    · rintro e ⟨s, hs⟩
      apply (hhas s e hs).imp_right
      intro hl
      obtain ⟨x, hx, rfl⟩ := List.mem_map.mp hl
      obtain ⟨slot, -, hx⟩ := List.mem_flatMap.mp hx
      exact List.mem_map_of_mem (List.mem_of_mem_filter hx)

end Add

end TimingWheel

open TimingWheel

namespace GlobalTimerTask

variable {E : Type} {t : GlobalTimerTask E}

theorem timingWheel_foldl_associate (l : List (TimerEntryId × TimerRegistration E)) :
    (l.foldl (fun t x => t.associate x.1 x.2.connectionId) t).timingWheel =
      t.timingWheel := by
  induction l generalizing t with
  | nil => rfl
  | cons x l ih => exact ih

theorem batchRegisterTimers_wheel (registrations : List (TimerRegistration E)) (order : List ℕ) :
    (t.batchRegisterTimers registrations order).2.timingWheel =
        (t.timingWheel.batchAddTimers (t.batchTimers registrations) order).2 ∧
      (t.batchRegisterTimers registrations order).1.successes =
        (List.range' t.timingWheel.nextEntryId registrations.length).map TimerHandle.mk := by
  rw [batchRegisterTimers]
  split
  · rename_i hnil
    rw [List.isEmpty_iff.mp hnil]
    exact ⟨rfl, rfl⟩
  · have hlen : (t.batchTimers registrations).length = registrations.length := by
      simp [batchTimers, TimerRegistration.batchTimers]
    have hids := (t.timingWheel.batchAddTimers_has (t.batchTimers registrations) order).1
    rw [hlen] at hids
    exact ⟨timingWheel_foldl_associate _, congrArg (List.map TimerHandle.mk) hids⟩

theorem ages_cancelTimer (entryId : TimerEntryId) :
    Ages t.timingWheel (t.cancelTimer entryId).2.timingWheel := by
  have hw := TimingWheel.ages_cancelTimer (w := t.timingWheel) entryId
  rw [cancelTimer]
  dsimp only
  split
  · dsimp only
    split <;> exact hw
  · exact hw

theorem ages_cancelEach (ids : List TimerEntryId) :
    Ages t.timingWheel (cancelEach t ids).2.timingWheel := by
  induction ids generalizing t with
  | nil => exact .refl _
  | cons id ids ih =>
    have hw := TimingWheel.ages_cancelTimer (w := t.timingWheel) id
    rw [cancelEach]
    dsimp only
    split
    · exact hw.trans
        (ih (t := { t with timingWheel := _, entryToConnection := _, cancelledTimers := _ }))
    · exact hw.trans (ih (t := { t with timingWheel := _ }))

theorem ages_batchCancelTimers (entryIds : List TimerEntryId) (slotOrder : List ℕ)
    (order : List ConnectionId) :
    Ages t.timingWheel (t.batchCancelTimers entryIds slotOrder order).2.timingWheel := by
  rw [batchCancelTimers]
  split
  · exact .refl _
  · exact TimingWheel.ages_batchCancelTimers entryIds slotOrder

theorem ages_clearConnectionTimers (connectionId : ConnectionId) (order : List TimerEntryId) :
    Ages t.timingWheel (t.clearConnectionTimers connectionId order).2.timingWheel := by
  rw [clearConnectionTimers]
  split
  · exact ages_cancelEach
      (t := { t with connectionTimers := t.connectionTimers.erase connectionId }) order
  · exact .refl _

theorem timingWheel_advanceTimingWheel (now : Instant) (order : List ConnectionId) :
    (t.advanceTimingWheel now order).2.timingWheel = (t.timingWheel.advance now).2 := by
  rw [advanceTimingWheel]
  dsimp only
  split <;> rfl

theorem ages_getNextWakeupTime (now : Instant) :
    Ages t.timingWheel (t.getNextWakeupTime now).2.timingWheel := by
  have hw := ages_nextExpiryTime (w := t.timingWheel)
  rw [getNextWakeupTime]
  dsimp only
  split
  · split <;> exact hw
  · exact hw

end GlobalTimerTask

/-- A timer without delay may come at any time; for any other one the wheel must not stand behind
the clock, and in a batch the time at which it expires must fit. -/
def TaskOp.OnTime {E : Type} (t : GlobalTimerTask E) : TaskOp E → Prop
  | .registerTimer now registration =>
      registration.delay ≠ 0 → now ≤ t.timingWheel.currentTime
  | .batchRegisterTimers now registrations _ => ∀ registration ∈ registrations,
      registration.delay ≠ 0 → now ≤ t.timingWheel.currentTime ∧
        t.timingWheel.FitsNanos (t.timingWheel.currentTime + registration.delay)
  | _ => True

instance {E : Type} (t : GlobalTimerTask E) : DecidablePred (TaskOp.OnTime t)
  | .registerTimer .. => inferInstanceAs (Decidable (_ → _))
  | .batchRegisterTimers .. => inferInstanceAs (Decidable (∀ _ ∈ _, _))
  | .cancelTimer _ | .batchCancelTimers .. | .clearConnectionTimers .. | .advanceTimingWheel ..
  | .getNextWakeupTime _ => .isTrue trivial

namespace TaskRun

variable {E : Type} {r r' : TaskRun E}

/-- No timer in the wheel expires before it is due, unless it is due already, and none that was
returned was early. -/
structure Timed (r : TaskRun E) : Prop where
  startTime_le : r.task.timingWheel.startTime ≤ r.task.timingWheel.currentTime
  has_lt : ∀ e, r.task.timingWheel.Has e → e.id < r.task.timingWheel.nextEntryId
  registered_lt : ∀ g ∈ r.registered, g.entryId < r.task.timingWheel.nextEntryId
  expired_lt : ∀ x ∈ r.expired, x.1 < r.task.timingWheel.nextEntryId
  has_due : ∀ e, r.task.timingWheel.Has e → ∀ g ∈ r.registered, g.entryId = e.id →
    g.time + g.delay ≤ max e.expiryTime r.now
  expired_due : ∀ x ∈ r.expired, ∀ g ∈ r.registered, g.entryId = x.1 → g.time + g.delay ≤ x.2

theorem Timed.expire (h : Timed r) (r' : TaskRun E)
    (ex : List (TimingWheel.TimerEntry (TimerEvent E)))
    (hw : Expires r'.now r.task.timingWheel r'.task.timingWheel ex) (hnow : r.now ≤ r'.now)
    (hreg : r'.registered = r.registered)
    (hex : r'.expired = r.expired ++ ex.map fun e => (e.id, r'.now)) : Timed r' where
  startTime_le := by
    rw [hw.ages.startTime_eq]
    exact h.startTime_le.trans hw.ages.currentTime_le
  has_lt e he := by
    rw [hw.ages.nextEntryId_eq]
    exact h.has_lt e (hw.ages.has e he)
  registered_lt g hg := by
    rw [hw.ages.nextEntryId_eq]
    exact h.registered_lt g (hreg ▸ hg)
  expired_lt x hx := by
    rw [hw.ages.nextEntryId_eq]
    rw [hex, List.mem_append, List.mem_map] at hx
    rcases hx with hx | ⟨e, he, rfl⟩
    · exact h.expired_lt x hx
    · exact h.has_lt e (hw.expired e he).1
  has_due e he g hg hge := by
    have hdue := h.has_due e (hw.ages.has e he) g (hreg ▸ hg) hge
    exact hdue.trans (max_le_max le_rfl hnow)
  expired_due x hx g hg hgx := by
    rw [hreg] at hg
    rw [hex, List.mem_append, List.mem_map] at hx
    rcases hx with hx | ⟨e, he, rfl⟩
    · exact h.expired_due x hx g hg hgx
    · obtain ⟨hhas, hexp⟩ := hw.expired e he
      exact (h.has_due e hhas g hg hgx).trans (max_le hexp hnow)

/-- Timers are registered under new identifiers, and each expires when it is due or later. -/
theorem Timed.register (h : Timed r) (r' : TaskRun E) (new : List Registered)
    (hstart : r'.task.timingWheel.startTime = r.task.timingWheel.startTime)
    (hcur : r'.task.timingWheel.currentTime = r.task.timingWheel.currentTime)
    (hnext : r.task.timingWheel.nextEntryId ≤ r'.task.timingWheel.nextEntryId)
    (hnow : r.now ≤ r'.now) (hreg : r'.registered = r.registered ++ new)
    (hex : r'.expired = r.expired)
    (hnew : ∀ g ∈ new, r.task.timingWheel.nextEntryId ≤ g.entryId ∧
      g.entryId < r'.task.timingWheel.nextEntryId)
    (hhas : ∀ e, r'.task.timingWheel.Has e → r.task.timingWheel.Has e ∨
      (r.task.timingWheel.nextEntryId ≤ e.id ∧ e.id < r'.task.timingWheel.nextEntryId) ∧
        ∀ g ∈ new, g.entryId = e.id → g.time + g.delay ≤ max e.expiryTime r'.now) : Timed r' where
  startTime_le := by
    rw [hstart, hcur]
    exact h.startTime_le
  has_lt e he := by
    rcases hhas e he with he | he
    · exact (h.has_lt e he).trans_le hnext
    · exact he.1.2
  registered_lt g hg := by
    rw [hreg, List.mem_append] at hg
    rcases hg with hg | hg
    · exact (h.registered_lt g hg).trans_le hnext
    · exact (hnew g hg).2
  expired_lt x hx := (h.expired_lt x (hex ▸ hx)).trans_le hnext
  has_due e he g hg hge := by
    rw [hreg, List.mem_append] at hg
    rcases hhas e he with he | ⟨he, hdue⟩
    · rcases hg with hg | hg
      · exact (h.has_due e he g hg hge).trans (max_le_max le_rfl hnow)
      · have hlt := h.has_lt e he
        exact absurd (hnew g hg).1 (not_le.mpr (hge ▸ hlt))
    · rcases hg with hg | hg
      · have hlt := h.registered_lt g hg
        exact absurd he.1 (not_le.mpr (hge ▸ hlt))
      · exact hdue g hg hge
  expired_due x hx g hg hgx := by
    rw [hex] at hx
    rw [hreg, List.mem_append] at hg
    rcases hg with hg | hg
    · exact h.expired_due x hx g hg hgx
    · have hlt := h.expired_lt x hx
      exact absurd (hnew g hg).1 (not_le.mpr (hgx ▸ hlt))

theorem due_le {now t : Instant} {d : Duration} (h : d ≠ 0 → now + d ≤ t) :
    now + d ≤ max t now := by
  by_cases hd : d = 0
  · rw [hd]
    exact le_max_right ..
  · exact (h hd).trans (le_max_left ..)

theorem Timed.registerTimer (h : Timed r) {now : Instant} {registration : TimerRegistration E}
    (hnow : r.now ≤ now) (ht : TaskOp.OnTime r.task (.registerTimer now registration)) :
    Timed (r.apply (.registerTimer now registration)) := by
  apply h.register (r.apply (.registerTimer now registration))
    [⟨r.task.timingWheel.nextEntryId, now, registration.delay⟩] rfl rfl (Nat.le_succ _) hnow rfl rfl
  · intro g hg
    rw [List.mem_singleton.mp hg]
    exact ⟨le_rfl, Nat.lt_succ_self _⟩
  · intro e he
    apply (has_addTimer he).imp_right
    rintro rfl
    refine ⟨⟨le_rfl, Nat.lt_succ_self _⟩, ?_⟩
    intro g hg _
    rw [List.mem_singleton.mp hg]
    exact due_le fun hd => Nat.add_le_add_right (ht hd) _

theorem Timed.batchRegisterTimers (h : Timed r) {now : Instant}
    {registrations : List (TimerRegistration E)} {order : List ℕ} (hnow : r.now ≤ now)
    (ht : TaskOp.OnTime r.task (.batchRegisterTimers now registrations order)) :
    Timed (r.apply (.batchRegisterTimers now registrations order)) := by
  obtain ⟨hwheel, hsucc⟩ := r.task.batchRegisterTimers_wheel registrations order
  obtain ⟨-, hnext, hstart, hcur, hhas⟩ :=
    r.task.timingWheel.batchAddTimers_has (r.task.batchTimers registrations) order
  have hdelay : (r.task.batchTimers registrations).map (·.1) = registrations.map (·.delay) := by
    rw [GlobalTimerTask.batchTimers, TimerRegistration.batchTimers, List.map_map]
    conv_rhs => rw [← List.zipIdx_map_fst 0 registrations, List.map_map]
    rfl
  have hlen : (r.task.batchTimers registrations).length = registrations.length := by
    rw [← List.length_map (f := (·.1)), hdelay, List.length_map]
  rw [← hwheel, hlen] at hnext
  rw [← hwheel] at hstart hcur hhas
  have hrange {i x : ℕ} (hx : (List.range' r.task.timingWheel.nextEntryId registrations.length)[i]? =
      some x) : x = r.task.timingWheel.nextEntryId + i ∧ i < registrations.length := by
    obtain ⟨hi, hx⟩ := List.getElem?_eq_some_iff.mp hx
    rw [List.length_range'] at hi
    rw [List.getElem_range', Nat.one_mul] at hx
    exact ⟨hx.symm, hi⟩
  -- what is recorded of the registration in each place of the batch
  have hnew : ∀ g ∈ ((r.task.batchRegisterTimers registrations order).1.successes.zip
      registrations).map (fun x => (⟨x.1.entryId, now, x.2.delay⟩ : Registered)),
      ∃ i < registrations.length, g.entryId = r.task.timingWheel.nextEntryId + i ∧ g.time = now ∧
        registrations[i]?.map (·.delay) = some g.delay := by
    intro g hg
    obtain ⟨x, hx, rfl⟩ := List.mem_map.mp hg
    obtain ⟨i, hi⟩ := List.mem_iff_getElem?.mp hx
    rw [List.getElem?_zip_eq_some, hsucc, List.getElem?_map, Option.map_eq_some_iff] at hi
    obtain ⟨⟨id, hid, hx1⟩, hx2⟩ := hi
    obtain ⟨rfl, hlt⟩ := hrange hid
    exact ⟨i, hlt, by rw [← hx1], rfl, by rw [hx2]; rfl⟩
  apply h.register (r.apply (.batchRegisterTimers now registrations order))
    (((r.task.batchRegisterTimers registrations order).1.successes.zip registrations).map
      fun x => ⟨x.1.entryId, now, x.2.delay⟩)
    hstart hcur ((Nat.le_add_right ..).trans_eq hnext.symm) hnow rfl rfl
  · intro g hg
    obtain ⟨i, hi, hgi, -, -⟩ := hnew g hg
    rw [hgi]
    exact ⟨Nat.le_add_right .., hnext ▸ Nat.add_lt_add_left hi _⟩
  · intro e he
    apply (hhas e he).imp_right
    intro hin
    rw [map_snd_batchEntries, hlen] at hin
    obtain ⟨x, hx, rfl⟩ := List.mem_map.mp hin
    obtain ⟨i, hi⟩ := List.mem_iff_getElem?.mp hx
    rw [List.getElem?_zip_eq_some] at hi
    obtain ⟨hid, hx2⟩ := hi
    obtain ⟨hxi, hlt⟩ := hrange hid
    dsimp only
    refine ⟨⟨hxi ▸ Nat.le_add_right .., hnext ▸ hxi ▸ Nat.add_lt_add_left hlt _⟩, ?_⟩
    intro g hg hgx
    obtain ⟨j, hj, hgj, hgt, hgd⟩ := hnew g hg
    have hij : r.task.timingWheel.nextEntryId + j = r.task.timingWheel.nextEntryId + i :=
      hgj.symm.trans (hgx.trans hxi)
    obtain rfl := Nat.add_left_cancel hij
    have hd := congrArg (·[j]?) hdelay
    simp only [List.getElem?_map, hx2, hgd, Option.map_some, Option.some.injEq] at hd
    obtain ⟨registration, hri, hrd⟩ := Option.map_eq_some_iff.mp hgd
    rw [hgt, hd]
    apply due_le
    intro hne
    obtain ⟨hle, hfits⟩ := ht registration (List.mem_of_getElem? hri) (hrd ▸ hne)
    rw [hrd] at hfits
    rw [batchExpiry_eq h.startTime_le hfits]
    exact Nat.add_le_add_right hle _

theorem Timed.apply (h : Timed r) {op : TaskOp E} (ha : r.Admissible op)
    (ht : op.OnTime r.task) : Timed (r.apply op) := by
  -- an operation that neither registers nor returns timers
  have hquiet {r' : TaskRun E} (hw : Ages r.task.timingWheel r'.task.timingWheel)
      (hnow : r.now ≤ r'.now) (hreg : r'.registered = r.registered)
      (hex : r'.expired = r.expired) : Timed r' :=
    h.expire r' [] ⟨hw, fun e he => absurd he List.not_mem_nil⟩ hnow hreg
      (hex.trans (List.append_nil _).symm)
  cases op with
  | registerTimer now registration => exact h.registerTimer ha ht
  | batchRegisterTimers now registrations order => exact h.batchRegisterTimers ha.1 ht
  | cancelTimer entryId => exact hquiet (r.task.ages_cancelTimer entryId) le_rfl rfl rfl
  | batchCancelTimers entryIds slotOrder order =>
    exact hquiet (r.task.ages_batchCancelTimers entryIds slotOrder order) le_rfl rfl rfl
  | clearConnectionTimers connectionId order =>
    exact hquiet (r.task.ages_clearConnectionTimers connectionId order) le_rfl rfl rfl
  | advanceTimingWheel now order =>
    refine h.expire (r.apply (.advanceTimingWheel now order)) _ ?_ ha.1 rfl rfl
    exact (r.task.timingWheel_advanceTimingWheel now order) ▸ expires_advance now
  | getNextWakeupTime now =>
    exact hquiet (r.task.ages_getNextWakeupTime now) ha rfl rfl

/-- In every run in which timers are registered on time, none is returned before its delay has
passed since it was registered. -/
theorem never_early (h : ((system E).restrict fun r op _ => op.OnTime r.task).Reachable r) :
    ∀ x ∈ r.expired, ∀ g ∈ r.registered, g.entryId = x.1 → g.time + g.delay ≤ x.2 := by
  have hinv : ((system E).restrict fun r op _ => op.OnTime r.task).Invariant Timed :=
    { init := by
        rintro r ⟨now, t, hnew, rfl⟩
        obtain ⟨w, hw, rfl⟩ := Option.map_eq_some_iff.mp hnew
        obtain ⟨hp, -, hlive, -⟩ := new_spec (by decide) (by decide) hw
        refine ⟨hp.startTime_le, ?_, ?_, ?_, ?_, ?_⟩
        · rintro e ⟨s, hs⟩
          exact hp.id_lt s e hs
        · exact fun g hg => absurd hg List.not_mem_nil
        · exact fun x hx => absurd hx List.not_mem_nil
        · exact fun e _ g hg => absurd hg List.not_mem_nil
        · exact fun x hx => absurd hx List.not_mem_nil
      step := by
        rintro r op r' - hr ⟨hs, hl⟩
        obtain ⟨hop, he⟩ := Option.ite_none_right_eq_some.mp hs
        cases he
        exact hr.apply hop hl }
  exact (hinv.holds h).expired_due

section Sample

/-- At 50 ms, right after an advance, timers of 10 and 20 ms are registered on time. -/
theorem never_early_sample : ∃ r : TaskRun Unit,
    (r.registered = [⟨1, 50000000, 10000000⟩, ⟨2, 50000000, 20000000⟩] ∧
      r.expired = [(1, 60000000), (2, 71000000)]) ∧
    ∀ x ∈ r.expired, ∀ g ∈ r.registered, g.entryId = x.1 → g.time + g.delay ≤ x.2 := by
  have hrun : ∃ r, ((system Unit).restrict fun r op _ => op.OnTime r.task).Run
      [.advanceTimingWheel 50000000 [], .registerTimer 50000000 ⟨7, 10000000, (), 0⟩,
        .batchRegisterTimers 50000000 [⟨7, 20000000, (), 0⟩] [7],
        .advanceTimingWheel 60000000 [7], .advanceTimingWheel 71000000 [7]] r ∧
      (r.registered = [⟨1, 50000000, 10000000⟩, ⟨2, 50000000, 20000000⟩] ∧
        r.expired = [(1, 60000000), (2, 71000000)]) :=
    TransitionSystem.exists_restrict_run_of_foldlM _ sampleTask_init (by decide +kernel)
  obtain ⟨r, hr, hp⟩ := hrun
  exact ⟨r, hp, never_early hr.reachable⟩

/-- A timer of 10 ms that is registered 50 ms after the last advance expires at once. -/
theorem fires_early : ∃ r : TaskRun Unit, (system Unit).Reachable r ∧
    ∃ x ∈ r.expired, ∃ g ∈ r.registered, g.entryId = x.1 ∧ x.2 < g.time + g.delay := by
  have hrun : ∃ r, (system Unit).Run
      [.registerTimer 50000000 ⟨7, 10000000, (), 0⟩, .advanceTimingWheel 50000000 [7]] r ∧
      ∃ x ∈ r.expired, ∃ g ∈ r.registered, g.entryId = x.1 ∧ x.2 < g.time + g.delay :=
    TransitionSystem.exists_run_of_foldlM _ sampleTask_init (by decide +kernel)
  obtain ⟨r, hr, hp⟩ := hrun
  exact ⟨r, hr.reachable, hp⟩

end Sample

end TaskRun

end Kestrel
