import Kestrel.Timer.Runs

/-! # A batch of new timers and single ones

A batch computes its slots in 64-bit and 32-bit lanes and fills one slot after the other. It leaves
the wheel that adding its timers one by one leaves, exactly when the lanes change the slot of none
of them.
-/

namespace Kestrel

namespace TimingWheel

variable {E : Type} {w : TimingWheel E} {timers : List (Duration × E)} {order : List ℕ}
  {delay : Duration}

/-- Adds timers one after the other. -/
def addEach : TimingWheel E → List (Duration × E) → Option (List TimerEntryId × TimingWheel E)
  | w, [] => some ([], w)
  | w, (delay, event) :: timers => do
    let (entryId, w) ← w.tryAddTimer delay event
    let (entryIds, w) ← addEach w timers
    return (entryId :: entryIds, w)

section Entries

variable {l : List (ℕ × TimerEntry E)} {slot slot' : Duration → ℕ}

/-- A wheel with a new entry at the end of its slot. -/
def withEntry (w : TimingWheel E) (x : ℕ × TimerEntry E) : TimingWheel E :=
  { w.pushEntry x.1 x.2 with
    nextEntryId := w.nextEntryId + 1
    cachedNextExpiry := earlier w.cachedNextExpiry x.2.expiryTime }

/-- New timers with consecutive identifiers, each with a slot. -/
def newEntries (w : TimingWheel E) (slot : Duration → ℕ) (timers : List (Duration × E)) :
    List (ℕ × TimerEntry E) :=
  ((List.range' w.nextEntryId timers.length).zip timers).map fun x =>
    (slot x.2.1, ⟨x.1, w.currentTime + x.2.1, x.2.2⟩)

theorem foldl_withEntry (w : TimingWheel E) {n : TimerEntryId}
    (hn : n = w.nextEntryId + l.length) (c : Option Instant) :
    l.foldl withEntry w =
      { l.foldl (fun w x => w.pushEntry x.1 x.2)
          { w with nextEntryId := n, cachedNextExpiry := c } with
        cachedNextExpiry := l.foldl (fun c x => earlier c x.2.expiryTime) w.cachedNextExpiry } := by
  induction l generalizing w with
  | nil =>
    subst hn
    rfl
  | cons x l ih =>
    rw [List.length_cons, Nat.add_comm l.length, ← Nat.add_assoc] at hn
    exact ih (w.withEntry x) hn

theorem map_id_newEntries (w : TimingWheel E) (slot : Duration → ℕ)
    (timers : List (Duration × E)) :
    (w.newEntries slot timers).map (·.2.id) = List.range' w.nextEntryId timers.length := by
  rw [newEntries, List.map_map]
  exact List.map_fst_zip (by simp)

theorem newEntries_congr (h : ∀ t ∈ timers, slot t.1 = slot' t.1) :
    w.newEntries slot timers = w.newEntries slot' timers := by
  apply List.map_congr_left
  intro x hx
  rw [h x.2 (List.of_mem_zip hx).2]

theorem pushEntry_comm {x y : ℕ × TimerEntry E} (hs : x.1 ≠ y.1) (hid : x.2.id ≠ y.2.id)
    (w : TimingWheel E) :
    (w.pushEntry y.1 y.2).pushEntry x.1 x.2 = (w.pushEntry x.1 x.2).pushEntry y.1 y.2 := by
  simp only [pushEntry, Function.update_of_ne hs, Function.update_of_ne hs.symm]
  congr 1
  · exact Function.update_comm hs.symm _ _ _
  · ext k : 1
    simp only [SortedMap.getElem?_insert]
    split_ifs with hx hy
    · exact absurd (hx.trans hy.symm) hid
    all_goals rfl

theorem timerMap_foldl_withEntry_of_notMem (w : TimingWheel E) {id : TimerEntryId}
    (hid : id ∉ l.map (·.2.id)) : (l.foldl withEntry w).timerMap[id]? = w.timerMap[id]? := by
  induction l generalizing w with
  | nil => rfl
  | cons x l ih =>
    rw [List.map_cons, List.mem_cons, not_or] at hid
    rw [List.foldl_cons, ih _ hid.2]
    exact (SortedMap.getElem?_insert ..).trans (if_neg (Ne.symm hid.1))

theorem timerMap_foldl_withEntry (w : TimingWheel E) (hnd : (l.map (·.2.id)).Nodup)
    {x : ℕ × TimerEntry E} (hx : x ∈ l) :
    ((l.foldl withEntry w).timerMap[x.2.id]?).map Prod.fst = some x.1 := by
  induction l generalizing w with
  | nil => cases hx
  | cons y l ih =>
    rw [List.map_cons, List.nodup_cons] at hnd
    rcases List.mem_cons.mp hx with rfl | hx
    · have hplace : (w.withEntry x).timerMap[x.2.id]? = some (x.1, (w.slots x.1).length) :=
        (SortedMap.getElem?_insert ..).trans (if_pos rfl)
      rw [List.foldl_cons, timerMap_foldl_withEntry_of_notMem _ hnd.1, hplace]
      rfl
    · exact ih _ hnd.2 hx

theorem newEntries_injective
    (h : (w.newEntries slot timers).foldl withEntry w =
      (w.newEntries slot' timers).foldl withEntry w) :
    ∀ t ∈ timers, slot t.1 = slot' t.1 := by
  intro t ht
  have hzip : ((List.range' w.nextEntryId timers.length).zip timers).map Prod.snd = timers :=
    List.map_snd_zip (by simp)
  rw [← hzip] at ht
  obtain ⟨x, hx, rfl⟩ := List.mem_map.mp ht
  have hfst (slot : Duration → ℕ) :
      (((w.newEntries slot timers).foldl withEntry w).timerMap[x.1]?).map Prod.fst =
        some (slot x.2.1) := by
    have hnd : ((w.newEntries slot timers).map (·.2.id)).Nodup := by
      rw [map_id_newEntries]
      exact List.nodup_range'
    exact timerMap_foldl_withEntry w hnd (List.mem_map_of_mem hx)
  have hslot := hfst slot
  rw [h, hfst slot'] at hslot
  exact (Option.some_inj.mp hslot).symm

end Entries

section Each

theorem addEach_eq (hd : w.slotDuration ≠ 0) (timers : List (Duration × E)) :
    w.addEach timers = some (List.range' w.nextEntryId timers.length,
      (w.newEntries (fun d => w.calculateSlotIndex (w.currentTime + d)) timers).foldl
        withEntry w) := by
  induction timers generalizing w with
  | nil => rfl
  | cons t timers ih =>
    obtain ⟨delay, event⟩ := t
    have hone : w.tryAddTimer delay event = some (w.nextEntryId, w.withEntry
        (w.calculateSlotIndex (w.currentTime + delay),
          ⟨w.nextEntryId, w.currentTime + delay, event⟩)) :=
      if_neg hd
    have hrest := ih (w := w.withEntry (w.calculateSlotIndex (w.currentTime + delay),
      ⟨w.nextEntryId, w.currentTime + delay, event⟩)) hd
    simp only [addEach, hone, Option.bind_eq_bind, Option.bind_some, hrest]
    rfl

/-- The groups of a batch may be taken apart again. -/
theorem batchAddTimers_eq (ho : IsOrder order ((w.batchEntries timers).map (·.1))) :
    w.batchAddTimers timers order = (List.range' w.nextEntryId timers.length,
      (w.batchEntries timers).foldl withEntry w) := by
  have hids := map_id_batchEntries w timers
  have hlen : (w.batchEntries timers).length = timers.length := by
    rw [← List.length_map (·.2.id), hids, List.length_range']
  rw [batchAddTimers]
  split
  · rename_i hnil
    rw [List.isEmpty_iff.mp hnil]
    rfl
  · have hnd : ((w.batchEntries timers).map (·.2.id)).Nodup := by
      rw [hids]
      exact List.nodup_range'
    have hgroups := Slots.foldl_flatMap_filter (l := w.batchEntries timers)
      (g := fun (w : TimingWheel E) x => w.pushEntry x.1 x.2) ho.1
      (fun x hx => ho.2.2 _ (List.mem_map_of_mem hx))
      (by
        intro x hx y hy hs
        apply pushEntry_comm hs
        intro hid
        exact hs (congrArg Prod.fst (List.inj_on_of_nodup_map hnd hx hy hid)))
    dsimp only
    rw [hids, hgroups, foldl_withEntry w (congrArg (w.nextEntryId + ·) hlen.symm)]

end Each

section Lanes

/-- The lanes do not change the slot of a timer. A slot duration that fits into 64 bits is not cut,
and the slot has to be one of the first 2^32. One that does not fit is longer than the offset, so
the slot has to be the first one also by what the cut leaves of it. -/
def KeepsSlot (w : TimingWheel E) (delay : Duration) : Prop :=
  if w.slotDuration < u64Size then
    (w.currentTime + delay - w.startTime) / w.slotDuration % w.slotCount < u32Size
  else
    w.slotDuration % u64Size ≠ 0 ∧ min w.slotCount u32Size ∣
      (w.currentTime + delay - w.startTime) / (w.slotDuration % u64Size)

instance (w : TimingWheel E) : DecidablePred w.KeepsSlot := fun _ =>
  inferInstanceAs (Decidable (ite _ _ _))

theorem Geared.min_dvd (h : Geared w) : min w.slotCount u32Size ∣ w.slotCount := by
  obtain ⟨k, hk⟩ := h.isPowerOfTwo
  rw [hk]
  rcases le_total k 32 with hle | hle
  · rw [min_eq_left (Nat.pow_le_pow_right Nat.zero_lt_two hle)]
  · rw [min_eq_right (Nat.pow_le_pow_right Nat.zero_lt_two hle)]
    exact pow_dvd_pow 2 hle

theorem Geared.batchSlot_eq_iff (h : Geared w) (hf : w.FitsNanos (w.currentTime + delay))
    (hc : w.slotDuration % u64Size ≠ 0) :
    w.batchSlot delay = w.calculateSlotIndex (w.currentTime + delay) ↔ w.KeepsSlot delay := by
  have htotal : simdProcessDelays.totalNanos w delay = w.currentTime + delay - w.startTime := by
    rw [← batchExpiry_eq h.startTime_le hf, batchExpiry, Nat.add_sub_cancel_left]
  have hmin : 0 < min w.slotCount u32Size := lt_min h.slotCount_pos (by decide)
  rw [h.batchSlot_eq, h.calculateSlotIndex_eq, simdProcessDelays.slotOffset, htotal, KeepsSlot]
  split
  · rename_i hd
    have hlt := Nat.mod_lt ((w.currentTime + delay - w.startTime) / w.slotDuration) h.slotCount_pos
    rw [Nat.mod_eq_of_lt hd, ← Nat.mod_mod_of_dvd _ h.min_dvd, Nat.mod_eq_iff_lt hmin.ne',
      lt_min_iff]
    exact and_iff_right hlt
  · rename_i hd
    have hzero : (w.currentTime + delay - w.startTime) / w.slotDuration = 0 :=
      Nat.div_eq_of_lt (hf.trans_le (not_lt.mp hd))
    rw [hzero, Nat.zero_mod, ← Nat.dvd_iff_mod_eq_zero]
    exact (and_iff_right hc).symm

theorem batchEntries_eq_newEntries (h : w.startTime ≤ w.currentTime)
    (hfits : ∀ t ∈ timers, w.FitsNanos (w.currentTime + t.1)) :
    w.batchEntries timers = w.newEntries w.batchSlot timers := by
  rw [batchEntries_eq]
  apply List.map_congr_left
  intro x hx
  rw [batchExpiry_eq h (hfits _ (List.of_mem_zip hx).2)]

/-- Where nothing is divided by zero, a batch does what its timers do one by one if the lanes keep
their slots. -/
theorem batchAddTimers_eq_addEach_iff (h : Geared w)
    (hfits : ∀ t ∈ timers, w.FitsNanos (w.currentTime + t.1))
    (ho : IsOrder order ((w.batchEntries timers).map (·.1)))
    (hc : w.slotDuration % u64Size ≠ 0) :
    some (w.batchAddTimers timers order) = w.addEach timers ↔ ∀ t ∈ timers, w.KeepsSlot t.1 := by
  have hd : w.slotDuration ≠ 0 := by
    intro hd
    exact hc (by rw [hd]; rfl)
  have hiff : ∀ t ∈ timers,
      w.batchSlot t.1 = w.calculateSlotIndex (w.currentTime + t.1) ↔ w.KeepsSlot t.1 :=
    fun t ht => h.batchSlot_eq_iff (hfits t ht) hc
  rw [batchAddTimers_eq ho, batchEntries_eq_newEntries h.startTime_le hfits, addEach_eq hd]
  constructor
  · intro he t ht
    simp only [Option.some.injEq, Prod.mk.injEq, true_and] at he
    exact (hiff t ht).mp (newEntries_injective he t ht)
  · intro hall
    have he : w.newEntries w.batchSlot timers =
        w.newEntries (fun d => w.calculateSlotIndex (w.currentTime + d)) timers :=
      newEntries_congr fun t ht => (hiff t ht).mpr (hall t ht)
    rw [he]

theorem keepsSlot_of_zero (hd : w.slotDuration = 0) : w.KeepsSlot delay := by
  rw [KeepsSlot, hd, if_pos (by decide), Nat.div_zero, Nat.zero_mod]
  decide

theorem not_keepsSlot (hd : w.slotDuration ≠ 0) (hc : w.slotDuration % u64Size = 0) :
    ¬ w.KeepsSlot delay := by
  rw [KeepsSlot, if_neg]
  · rintro ⟨hne, -⟩
    exact hne hc
  · intro hlt
    exact hd ((Nat.mod_eq_of_lt hlt).symm.trans hc)

/-- In every state reached, a batch whose times fit does what adding its timers one after the
other does, exactly if the lanes keep the slot of each of them. -/
theorem batchAddTimers_refines (h : (runs E).Reachable w)
    (hfits : ∀ t ∈ timers, w.FitsNanos (w.currentTime + t.1))
    (ho : IsOrder order ((w.batchEntries timers).map (·.1))) :
    w.tryBatchAddTimers timers order = w.addEach timers ↔ ∀ t ∈ timers, w.KeepsSlot t.1 := by
  have hmain := batchAddTimers_eq_addEach_iff (geared h) hfits ho
  cases timers with
  | nil => simp [tryBatchAddTimers, addEach]
  | cons t timers =>
    rw [tryBatchAddTimers, if_neg (by simp)]
    by_cases hd : w.slotDuration = 0
    · have hnone : w.addEach (t :: timers) = none := by
        rw [addEach, tryAddTimer, if_pos hd]
        rfl
      rw [hnone, if_pos (by rw [hd]; rfl)]
      exact iff_of_true rfl fun t _ => keepsSlot_of_zero hd
    · by_cases hc : w.slotDuration % u64Size = 0
      · rw [if_pos hc, addEach_eq hd]
        refine iff_of_false (by simp) fun hall => ?_
        exact not_keepsSlot hd hc (hall t (List.mem_cons_self ..))
      · rw [if_neg hc]
        exact hmain hc

/-- After an advance, a batch of a full group and a rest goes to both slots. -/
theorem batchAddTimers_refines_sample : ∃ w : TimingWheel Unit,
    (w.currentTime = 10 ∧ w.nextEntryId = 3 ∧ (w.slots 1).map (·.id) = [2]) ∧
      w.tryBatchAddTimers [(3, ()), (15, ()), (24, ()), (0, ()), (20, ())] [0, 1] =
        w.addEach [(3, ()), (15, ()), (24, ()), (0, ()), (20, ())] := by
  have hrun : ∃ w, (runs Unit).Run [.addTimer 5 (), .addTimer 31 (), .advance 12] w ∧
      ((w.currentTime = 10 ∧ w.nextEntryId = 3 ∧ (w.slots 1).map (·.id) = [2]) ∧
        (∀ t ∈ [(3, ()), (15, ()), (24, ()), (0, ()), (20, ())],
          w.FitsNanos (w.currentTime + t.1)) ∧
        IsOrder [0, 1] ((w.batchEntries [(3, ()), (15, ()), (24, ()), (0, ()), (20, ())]).map
          (·.1)) ∧
        ∀ t ∈ [(3, ()), (15, ()), (24, ()), (0, ()), (20, ())], w.KeepsSlot t.1) :=
    TransitionSystem.exists_run_of_foldlM _ (runs_init_sampleWheel 10) (by decide)
  obtain ⟨w, hr, hw, hfits, ho, hkeeps⟩ := hrun
  exact ⟨w, hw, (batchAddTimers_refines hr.reachable hfits ho).mpr hkeeps⟩

/-- A slot duration of 2^64 + 1 nanoseconds is cut to one, and a batch of one timer does not go to
the slot to which the timer alone goes. -/
theorem batch_changes_slot : ∃ w : TimingWheel Unit, (runs Unit).Reachable w ∧
    w.FitsNanos (w.currentTime + 1) ∧ IsOrder [1] ((w.batchEntries [(1, ())]).map (·.1)) ∧
    w.tryBatchAddTimers [(1, ())] [1] ≠ w.addEach [(1, ())] := by
  refine ⟨(WheelRun.sampleWheel (u64Size + 1)).wheel, .init (runs_init_sampleWheel _), by decide,
    by decide, ?_⟩
  intro h
  have hplace := congrArg (Option.map fun x => x.2.timerMap[1]?) h
  exact absurd hplace (by decide)

end Lanes

end TimingWheel

end Kestrel
