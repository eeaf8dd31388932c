import Kestrel.Timer.Removal

/-! # What lies where in the wheel

Every entry lies in the slot of its time and the map knows its place; the wheel stands at the slot
of its own time. Adding, cancelling and moving on keep this, and say what becomes of the entries.
-/

namespace Kestrel

open Std (ExtTreeMap)

namespace TimingWheel

variable {E : Type} {w w' : TimingWheel E} {e : TimerEntry E} {s p : ℕ}

/-- The mask belongs to the number of slots, which is a 64-bit power of two, and time has only
gone forward. -/
structure Geared (w : TimingWheel E) : Prop where
  isPowerOfTwo : w.slotCount.isPowerOfTwo
  slotCount_lt : w.slotCount < u64Size
  slotMask_eq : w.slotMask = w.slotCount - 1
  startTime_le : w.startTime ≤ w.currentTime

namespace Geared

variable (h : Geared w)
include h

theorem slotCount_pos : 0 < w.slotCount := Nat.pos_of_isPowerOfTwo h.isPowerOfTwo

theorem and_slotMask (x : ℕ) : x &&& w.slotMask = x % w.slotCount := by
  obtain ⟨k, hk⟩ := h.isPowerOfTwo
  rw [h.slotMask_eq, hk, Nat.and_two_pow_sub_one_eq_mod]

theorem calculateSlotIndex_eq (t : Instant) :
    w.calculateSlotIndex t = (t - w.startTime) / w.slotDuration % w.slotCount := by
  rw [calculateSlotIndex, h.and_slotMask]
  apply Nat.mod_mod_of_dvd
  obtain ⟨k, hk⟩ := h.isPowerOfTwo
  have hlt : 2 ^ k < 2 ^ 64 := by
    rw [← hk]
    exact h.slotCount_lt
  have hle : k ≤ 64 := ((Nat.pow_lt_pow_iff_right (by decide)).mp hlt).le
  rw [hk]
  exact pow_dvd_pow 2 hle

end Geared

/-- The number of slots, the mask and the time of the wheel fit together, and every entry lies in
the slot of its time, where the map finds it. -/
structure Placed (w : TimingWheel E) : Prop where
  isPowerOfTwo : w.slotCount.isPowerOfTwo
  slotCount_lt : w.slotCount < u64Size
  slotMask_eq : w.slotMask = w.slotCount - 1
  slotDuration_pos : 0 < w.slotDuration
  turned : ∃ k : ℕ, w.currentTime = w.startTime + k * w.slotDuration ∧
    w.currentSlot = k % w.slotCount
  indexed : Slots.Indexed TimerEntry.id w.slots w.timerMap
  slot_eq : ∀ s, ∀ e ∈ w.slots s, s = w.calculateSlotIndex e.expiryTime
  id_lt : ∀ s, ∀ e ∈ w.slots s, e.id < w.nextEntryId

/-- No entry expired before the time at which the wheel stands. -/
def Ahead (w : TimingWheel E) : Prop := ∀ s, ∀ e ∈ w.slots s, w.currentTime ≤ e.expiryTime

def live (w : TimingWheel E) : Multiset (TimerEntry E) := Slots.contents w.slots w.slotCount

namespace Placed

variable (h : Placed w)
include h

theorem startTime_le : w.startTime ≤ w.currentTime := by
  obtain ⟨k, ht, -⟩ := h.turned
  rw [ht]
  exact Nat.le_add_right ..

theorem geared : Geared w := { h with startTime_le := h.startTime_le }

theorem slotCount_pos : 0 < w.slotCount := h.geared.slotCount_pos

theorem and_slotMask (x : ℕ) : x &&& w.slotMask = x % w.slotCount := h.geared.and_slotMask x

theorem calculateSlotIndex_eq (t : Instant) :
    w.calculateSlotIndex t = (t - w.startTime) / w.slotDuration % w.slotCount :=
  h.geared.calculateSlotIndex_eq t

theorem calculateSlotIndex_lt (t : Instant) : w.calculateSlotIndex t < w.slotCount := by
  rw [h.calculateSlotIndex_eq]
  exact Nat.mod_lt _ h.slotCount_pos

theorem slot_lt (he : e ∈ w.slots s) : s < w.slotCount := by
  rw [h.slot_eq s e he]
  exact h.calculateSlotIndex_lt _

theorem mem_live : e ∈ w.live ↔ ∃ s, e ∈ w.slots s := by
  rw [live, Slots.mem_contents]
  constructor
  · rintro ⟨s, -, he⟩
    exact ⟨s, he⟩
  · rintro ⟨s, he⟩
    exact ⟨s, h.slot_lt he, he⟩

theorem timerMap_eq_none (hid : w.nextEntryId ≤ e.id) : w.timerMap[e.id]? = none := by
  rw [Option.eq_none_iff_forall_ne_some]
  rintro ⟨s, p⟩ hp
  obtain ⟨e', he', hk⟩ := (h.indexed _ s p).mp hp
  exact (h.id_lt s e' (List.mem_of_getElem? he')).not_ge (hk ▸ hid)

theorem currentSlot_eq :
    w.currentSlot = (w.currentTime - w.startTime) / w.slotDuration &&& w.slotMask := by
  obtain ⟨k, ht, hs⟩ := h.turned
  rw [h.and_slotMask, hs, ht, Nat.add_sub_cancel_left, Nat.mul_div_cancel _ h.slotDuration_pos]

theorem cached (c : Option Instant) : Placed { w with cachedNextExpiry := c } := { h with }

theorem allocate (n : ℕ) : Placed { w with nextEntryId := w.nextEntryId + n } :=
  { h with id_lt := fun s e he => (h.id_lt s e he).trans_le (Nat.le_add_right ..) }

end Placed

theorem new_spec {slotCount : ℕ} {slotDuration : Duration} {now : Instant}
    (hlt : slotCount < u64Size) (hpos : 0 < slotDuration)
    (h : TimingWheel.new slotCount slotDuration now = some w) :
    Placed w ∧ Ahead w ∧ w.live = 0 ∧ w.nextEntryId = 1 ∧ w.slotDuration = slotDuration ∧
      w.slotCount = slotCount := by
  rw [TimingWheel.new] at h
  split at h
  · rename_i hpow
    cases h
    refine ⟨?_, fun s e he => absurd he List.not_mem_nil, ?_, rfl, rfl, rfl⟩
    · exact
        { isPowerOfTwo := hpow
          slotCount_lt := hlt
          slotMask_eq := rfl
          slotDuration_pos := hpos
          turned := ⟨0, by simp, by simp⟩
          indexed := by
            intro k s p
            simp
          slot_eq := fun s e he => absurd he List.not_mem_nil
          id_lt := fun s e he => absurd he List.not_mem_nil }
    · simp [live, Slots.contents]
  · cases h

section Push

theorem mem_pushEntry {e' : TimerEntry E} {s' : ℕ} :
    e' ∈ (w.pushEntry s e).slots s' ↔ e' ∈ w.slots s' ∨ e' = e ∧ s' = s := by
  dsimp only [pushEntry]
  by_cases hs : s' = s
  · subst hs
    simp
  · simp [hs]

theorem Placed.pushEntry (h : Placed w) (hid : w.timerMap[e.id]? = none)
    (hlt : e.id < w.nextEntryId) : Placed (w.pushEntry (w.calculateSlotIndex e.expiryTime) e) := by
  refine { h with indexed := h.indexed.push hid, slot_eq := ?_, id_lt := ?_ }
  · intro s e' he
    rcases mem_pushEntry.mp he with he | ⟨rfl, rfl⟩
    · exact h.slot_eq s e' he
    · rfl
  · intro s e' he
    rcases mem_pushEntry.mp he with he | ⟨rfl, rfl⟩
    · exact h.id_lt s e' he
    · exact hlt

theorem live_pushEntry (hs : s < w.slotCount) : (w.pushEntry s e).live = e ::ₘ w.live := by
  have hc := Slots.contents_update w.slots hs (w.slots s ++ [e])
  rw [← Multiset.coe_add, add_left_comm, add_comm, add_right_inj] at hc
  rw [live, pushEntry, hc]
  exact (add_comm ..).trans (Multiset.singleton_add ..)

theorem Ahead.pushEntry (h : Ahead w) (he : w.currentTime ≤ e.expiryTime) :
    Ahead (w.pushEntry s e) := by
  intro s' e' he'
  rcases mem_pushEntry.mp he' with he' | ⟨rfl, -⟩
  · exact h s' e' he'
  · exact he

theorem Placed.pushEntries (h : Placed w) {l : List (ℕ × TimerEntry E)}
    (hslot : ∀ x ∈ l, x.1 = w.calculateSlotIndex x.2.expiryTime)
    (hnew : ∀ x ∈ l, w.timerMap[x.2.id]? = none) (hlt : ∀ x ∈ l, x.2.id < w.nextEntryId)
    (hnd : (l.map (·.2.id)).Nodup) :
    ∃ slots places, l.foldl (fun w x => w.pushEntry x.1 x.2) w =
        { w with slots := slots, timerMap := places } ∧
      Placed { w with slots := slots, timerMap := places } ∧
      live { w with slots := slots, timerMap := places } = ↑(l.map (·.2)) + w.live ∧
      (Ahead w → (∀ x ∈ l, w.currentTime ≤ x.2.expiryTime) →
        Ahead { w with slots := slots, timerMap := places }) := by
  induction l generalizing w with
  | nil => exact ⟨w.slots, w.timerMap, rfl, h, (zero_add _).symm, fun ha _ => ha⟩
  | cons x l ih =>
    simp only [List.forall_mem_cons, List.map_cons, List.nodup_cons, List.mem_map, not_exists,
      not_and] at hslot hnew hlt hnd
    have hp := h.pushEntry hnew.1 hlt.1
    have hs : x.1 < w.slotCount := by
      rw [hslot.1]
      exact h.calculateSlotIndex_lt _
    rw [← hslot.1] at hp
    obtain ⟨slots, places, he, hp', hl, ha⟩ := ih hp hslot.2 (by
      intro y hy
      rw [TimingWheel.pushEntry]
      dsimp only
      rw [SortedMap.getElem?_insert, if_neg (fun he => hnd.1 y hy he.symm), hnew.2 y hy]) hlt.2 hnd.2
    refine ⟨slots, places, he, hp', ?_, ?_⟩
    · rw [List.map_cons, ← Multiset.cons_coe, Multiset.cons_add, ← Multiset.add_cons,
        ← live_pushEntry hs]
      exact hl
    · intro hah hle
      rw [List.forall_mem_cons] at hle
      exact ha (hah.pushEntry hle.1) hle.2

end Push

/-- A new timer goes to the slot of its time, under a new identifier. -/
theorem addTimer_spec (h : Placed w) (delay : Duration) (event : E) :
    ∃ e, e.id = w.nextEntryId ∧ e.expiryTime = w.currentTime + delay ∧ e.event = event ∧
      (w.addTimer delay event).1 = e.id ∧ Placed (w.addTimer delay event).2 ∧
      (w.addTimer delay event).2.live = e ::ₘ w.live ∧
      (Ahead w → Ahead (w.addTimer delay event).2) := by
  have ha := h.allocate 1
  have hid : w.timerMap[w.nextEntryId]? = none :=
    h.timerMap_eq_none (e := ⟨w.nextEntryId, 0, event⟩) le_rfl
  have hp := ha.pushEntry (e := ⟨w.nextEntryId, w.currentTime + delay, event⟩) hid (by simp)
  refine ⟨⟨w.nextEntryId, w.currentTime + delay, event⟩, rfl, rfl, rfl, rfl, hp.cached _, ?_, ?_⟩
  · exact live_pushEntry (ha.calculateSlotIndex_lt _)
  · intro hah
    exact Ahead.pushEntry (w := { w with nextEntryId := w.nextEntryId + 1 }) hah
      (Nat.le_add_right ..)

section Batch

/-- The hash map of a batch's groups yields the slots of the batch in some order, each once. -/
def IsOrder (order slots : List ℕ) : Prop :=
  order.Nodup ∧ (∀ s ∈ order, s ∈ slots) ∧ ∀ s ∈ slots, s ∈ order

theorem simdEntryIds_eq (startId : TimerEntryId) (len : ℕ) :
    simdEntryIds startId len = List.range' startId len := by
  rw [simdEntryIds, List.range'_eq_map_range]
  apply List.map_congr_left
  intro i hi
  have hi := List.mem_range.mp hi
  split
  · rename_i hc
    exact Nat.mod_eq_of_lt ((Nat.add_lt_add_left hi startId).trans_le (hc.2.1.trans (by decide)))
  · rfl

/-- The nanoseconds since the start of the wheel fit into 64 bits. -/
def FitsNanos (w : TimingWheel E) (t : Instant) : Prop := t - w.startTime < u64Size

instance (w : TimingWheel E) (t : Instant) : Decidable (w.FitsNanos t) :=
  inferInstanceAs (Decidable (_ < _))

instance (order slots : List ℕ) : Decidable (IsOrder order slots) :=
  inferInstanceAs (Decidable (_ ∧ _ ∧ _))

/-- When a timer of a batch expires: its nanoseconds since the start are cut to 64 bits. -/
def batchExpiry (w : TimingWheel E) (delay : Duration) : Instant :=
  w.startTime + simdProcessDelays.totalNanos w delay

/-- The mask cuts the slot offset to 32 bits anyway. -/
theorem lane_eq_tail (w : TimingWheel E) (delay : Duration) :
    simdProcessDelays.lane w delay = simdProcessDelays.tail w delay := by
  have hcut (x m : ℕ) : x % u32Size &&& m % u32Size = x &&& m % u32Size := by
    have hlt : x &&& m % u32Size < u32Size :=
      Nat.and_le_right.trans_lt (Nat.mod_lt _ (by decide))
    have hand : (x &&& m % u32Size) % u32Size = x % u32Size &&& m % u32Size % u32Size :=
      Nat.and_mod_two_pow (n := 32)
    rw [← Nat.mod_eq_of_lt hlt, hand, Nat.mod_mod]
  rw [simdProcessDelays.lane, simdProcessDelays.tail, hcut]

theorem simdProcessDelays_eq (w : TimingWheel E) (delays : List Duration) :
    w.simdProcessDelays delays = delays.map (simdProcessDelays.tail w) := by
  fun_induction simdProcessDelays w delays with
  | case1 d₀ d₁ d₂ d₃ rest ih => simp [ih, lane_eq_tail]
  | case2 rest => rfl

/-- The slot of a timer of a batch. -/
def batchSlot (w : TimingWheel E) (delay : Duration) : ℕ := (simdProcessDelays.tail w delay).2

theorem batchEntries_eq (w : TimingWheel E) (timers : List (Duration × E)) :
    w.batchEntries timers = ((List.range' w.nextEntryId timers.length).zip timers).map fun x =>
      (w.batchSlot x.2.1, ⟨x.1, w.batchExpiry x.2.1, x.2.2⟩) := by
  rw [batchEntries, simdEntryIds_eq, simdProcessDelays_eq, List.map_map, List.zip_map',
    List.zip_map_right, List.map_map]
  rfl

theorem Geared.slotMask_mod (h : Geared w) :
    w.slotMask % u32Size = min w.slotCount u32Size - 1 := by
  obtain ⟨k, hk⟩ := h.isPowerOfTwo
  rw [h.slotMask_eq, hk]
  rcases le_total k 32 with hle | hle
  · have hpow : 2 ^ k ≤ u32Size := Nat.pow_le_pow_right Nat.zero_lt_two hle
    rw [min_eq_left hpow]
    exact Nat.mod_eq_of_lt ((Nat.sub_lt (Nat.two_pow_pos k) Nat.one_pos).trans_le hpow)
  · have hpow : u32Size ≤ 2 ^ k := Nat.pow_le_pow_right Nat.zero_lt_two hle
    have hpos : 0 < u32Size := by decide
    obtain ⟨m, hm⟩ : u32Size ∣ 2 ^ k := pow_dvd_pow 2 hle
    have hmpos : m ≠ 0 := by
      rintro rfl
      exact absurd hm (Nat.two_pow_pos k).ne'
    obtain ⟨n, rfl⟩ := Nat.exists_eq_succ_of_ne_zero hmpos
    rw [min_eq_right hpow, hm, Nat.mul_succ, Nat.add_sub_assoc hpos, Nat.mul_add_mod]
    exact Nat.mod_eq_of_lt (Nat.sub_lt hpos Nat.one_pos)

/-- Slots beyond the first 2^32 are out of reach of a batch. -/
theorem Geared.batchSlot_eq (h : Geared w) (delay : Duration) :
    w.batchSlot delay = simdProcessDelays.slotOffset w delay % min w.slotCount u32Size := by
  obtain ⟨k, hk⟩ := h.isPowerOfTwo
  have hmin : ∃ j, min w.slotCount u32Size = 2 ^ j := by
    rw [hk]
    rcases min_choice (2 ^ k) u32Size with he | he
    · exact ⟨k, he⟩
    · exact ⟨32, he⟩
  obtain ⟨j, hj⟩ := hmin
  rw [batchSlot, simdProcessDelays.tail, h.slotMask_mod, hj]
  exact Nat.and_two_pow_sub_one_eq_mod _ _

/-- While slots last less than 2^64 nanoseconds and there are at most 2^32 of them, every timer of a
batch goes to the slot of its time. -/
theorem Placed.batchSlot_eq (h : Placed w) (hd : w.slotDuration < u64Size)
    (hc : w.slotCount ≤ u32Size) (delay : Duration) :
    w.batchSlot delay = w.calculateSlotIndex (w.batchExpiry delay) := by
  rw [h.geared.batchSlot_eq, min_eq_left hc, h.calculateSlotIndex_eq, batchExpiry,
    Nat.add_sub_cancel_left, simdProcessDelays.slotOffset, Nat.mod_eq_of_lt hd]

theorem batchExpiry_eq (h : w.startTime ≤ w.currentTime) {d : Duration}
    (hf : w.FitsNanos (w.currentTime + d)) : w.batchExpiry d = w.currentTime + d := by
  obtain ⟨k, hk⟩ := Nat.exists_eq_add_of_le h
  rw [FitsNanos, hk, Nat.add_assoc, Nat.add_sub_cancel_left] at hf
  rw [batchExpiry, simdProcessDelays.totalNanos, hk, Nat.add_sub_cancel_left, ← Nat.add_mod,
    Nat.mod_eq_of_lt hf, Nat.add_assoc]

/-- A batch of new timers goes to the slots of their times, whatever the order of the slots. -/
theorem batchAddTimers_placed (h : Placed w) {timers : List (Duration × E)} {order : List ℕ}
    (hb : timers ≠ [] → w.slotDuration < u64Size ∧ w.slotCount ≤ u32Size)
    (ho : IsOrder order ((w.batchEntries timers).map (·.1))) :
    ∃ (l : List (TimerEntry E)) (slots : ℕ → List (TimerEntry E))
      (places : ExtTreeMap TimerEntryId (ℕ × ℕ)) (w' : TimingWheel E),
      w' = { w with slots := slots, timerMap := places, nextEntryId := w.nextEntryId + l.length,
                    cachedNextExpiry := l.foldl (fun c e => earlier c e.expiryTime) w.cachedNextExpiry } ∧
      w.batchAddTimers timers order = (l.map TimerEntry.id, w') ∧
      l.map TimerEntry.id = List.range' w.nextEntryId l.length ∧ Placed w' ∧
      w'.live = ↑l + w.live ∧
      (Ahead w → (∀ t ∈ timers, w.currentTime ≤ w.batchExpiry t.1) → Ahead w') ∧
      l.map TimerEntry.event = timers.map (·.2) ∧
      l.map TimerEntry.expiryTime = timers.map fun t => w.batchExpiry t.1 := by
  rw [batchAddTimers]
  cases hn : timers.isEmpty with
  | true =>
    rw [List.isEmpty_iff.mp hn]
    exact ⟨[], w.slots, w.timerMap, w, rfl, rfl, rfl, h, (zero_add _).symm, fun ha _ => ha, rfl,
      rfl⟩
  | false =>
    obtain ⟨hd, hc⟩ := hb (by
      rintro rfl
      cases hn)
    have hl := batchEntries_eq w timers
    simp only [h.batchSlot_eq hd hc] at hl
    have hlen : (List.range' w.nextEntryId timers.length).length = timers.length :=
      List.length_range'
    have hids : ((w.batchEntries timers).map (·.2)).map TimerEntry.id =
        List.range' w.nextEntryId timers.length := by
      rw [hl, List.map_map, List.map_map]
      exact List.map_fst_zip hlen.le
    have hlength : (w.batchEntries timers).length = timers.length := by
      rw [hl, List.length_map, List.length_zip, hlen, Nat.min_self]
    have hperm := Slots.flatMap_filter_perm (fun x : ℕ × TimerEntry E => x.1) ho.1
      (l := w.batchEntries timers) (fun x hx => ho.2.2 _ (List.mem_map_of_mem hx))
    have hmem {x : ℕ × TimerEntry E} (hx : x ∈ w.batchEntries timers) :
        x.1 = w.calculateSlotIndex x.2.expiryTime ∧ w.nextEntryId ≤ x.2.id ∧
          x.2.id < w.nextEntryId + timers.length ∧
            ∃ t ∈ timers, x.2.expiryTime = w.batchExpiry t.1 := by
      have hid := List.mem_map_of_mem (f := TimerEntry.id)
        (List.mem_map_of_mem (f := Prod.snd) hx)
      rw [hids, List.mem_range'_1] at hid
      rw [hl] at hx
      obtain ⟨y, hy, rfl⟩ := List.mem_map.mp hx
      exact ⟨rfl, hid.1, hid.2, y.2, (List.of_mem_zip hy).2, rfl⟩
    obtain ⟨slots, places, he, hp, hlive, ha⟩ :=
      (h.allocate timers.length).pushEntries
        (l := order.flatMap fun slot => (w.batchEntries timers).filter (·.1 = slot))
        (fun x hx => (hmem (hperm.mem_iff.mp hx)).1)
        (fun x hx => h.timerMap_eq_none (hmem (hperm.mem_iff.mp hx)).2.1)
        (fun x hx => (hmem (hperm.mem_iff.mp hx)).2.2.1)
        (by
          rw [List.map_map] at hids
          have hnd : ((w.batchEntries timers).map (TimerEntry.id ∘ Prod.snd)).Nodup :=
            hids ▸ List.nodup_range'
          exact (hperm.map _).nodup_iff.mpr hnd)
    have hz : ((List.range' w.nextEntryId timers.length).zip timers).map Prod.snd = timers :=
      List.map_snd_zip hlen.ge
    refine ⟨(w.batchEntries timers).map (·.2), slots, places, _, rfl, ?_, ?_, ?_, ?_, ?_, ?_, ?_⟩
    · rw [if_neg (by decide)]
      dsimp only at he ⊢
      rw [he, List.map_map, List.foldl_map, List.length_map, hlength]
      rfl
    · rw [hids, List.length_map, hlength]
    · rw [List.length_map, hlength]
      exact hp.cached _
    · have hco : (↑((order.flatMap fun slot =>
          (w.batchEntries timers).filter (·.1 = slot)).map (·.2)) : Multiset (TimerEntry E)) =
            ↑((w.batchEntries timers).map (·.2)) := Multiset.coe_eq_coe.mpr (hperm.map _)
      rw [hco] at hlive
      exact hlive
    · intro hah hle
      apply ha hah
      intro x hx
      obtain ⟨t, ht, he⟩ := (hmem (hperm.mem_iff.mp hx)).2.2.2
      exact he ▸ hle t ht
    · rw [hl, List.map_map, List.map_map]
      conv_rhs => rw [← hz, List.map_map]
      rfl
    · rw [hl, List.map_map, List.map_map]
      conv_rhs => rw [← hz, List.map_map]
      rfl

/-- If the times of a batch fit, it is placed as single timers are. -/
theorem batchAddTimers_spec (h : Placed w) {timers : List (Duration × E)} {order : List ℕ}
    (hfits : ∀ t ∈ timers, w.FitsNanos (w.currentTime + t.1))
    (hb : timers ≠ [] → w.slotDuration < u64Size ∧ w.slotCount ≤ u32Size)
    (ho : IsOrder order ((w.batchEntries timers).map (·.1))) :
    ∃ (l : List (TimerEntry E)) (slots : ℕ → List (TimerEntry E))
      (places : ExtTreeMap TimerEntryId (ℕ × ℕ)) (w' : TimingWheel E),
      w' = { w with slots := slots, timerMap := places, nextEntryId := w.nextEntryId + l.length,
                    cachedNextExpiry := l.foldl (fun c e => earlier c e.expiryTime) w.cachedNextExpiry } ∧
      w.batchAddTimers timers order = (l.map TimerEntry.id, w') ∧
      l.map TimerEntry.id = List.range' w.nextEntryId l.length ∧ Placed w' ∧
      w'.live = ↑l + w.live ∧ (Ahead w → Ahead w') ∧ l.map TimerEntry.event = timers.map (·.2) ∧
      l.map TimerEntry.expiryTime = timers.map fun t => w.currentTime + t.1 := by
  have hexp {t : Duration × E} (ht : t ∈ timers) : w.batchExpiry t.1 = w.currentTime + t.1 :=
    batchExpiry_eq h.startTime_le (hfits t ht)
  obtain ⟨l, slots, places, w', hw, hret, hid, hp, hlive, ha, hev, htime⟩ :=
    batchAddTimers_placed h hb ho
  refine ⟨l, slots, places, w', hw, hret, hid, hp, hlive, ?_, hev, ?_⟩
  · intro hah
    apply ha hah
    intro t ht
    rw [hexp ht]
    exact Nat.le_add_right ..
  · rw [htime]
    exact List.map_congr_left fun t ht => hexp ht

end Batch

section Remove

/-- Some timers were taken out of the wheel; nothing else changed. -/
structure Removes (w w' : TimingWheel E) (R : Multiset (TimerEntry E)) : Prop where
  frame : ∃ slots places, w' = { w with slots := slots, timerMap := places }
  placed : Placed w'
  ahead : Ahead w → Ahead w'
  live_eq : w.live = R + w'.live

theorem Removes.refl (h : Placed w) : Removes w w 0 :=
  ⟨⟨w.slots, w.timerMap, rfl⟩, h, id, (zero_add _).symm⟩

theorem Removes.cachedNextExpiry_eq {R : Multiset (TimerEntry E)} (h : Removes w w' R) :
    w'.cachedNextExpiry = w.cachedNextExpiry := by
  obtain ⟨slots, places, rfl⟩ := h.frame
  rfl

/-- A slot keeps only some of its entries, in any order. -/
theorem Placed.removes (h : Placed w) (hs : s < w.slotCount) {l : List (TimerEntry E)}
    {R : Multiset (TimerEntry E)} {places : ExtTreeMap TimerEntryId (ℕ × ℕ)}
    (hi : Slots.Indexed TimerEntry.id (Function.update w.slots s l) places)
    (hR : (↑(w.slots s) : Multiset (TimerEntry E)) = R + ↑l) :
    Removes w { w with slots := Function.update w.slots s l, timerMap := places } R := by
  have hmem {s' : ℕ} {e : TimerEntry E} (he : e ∈ Function.update w.slots s l s') :
      e ∈ w.slots s' := by
    by_cases hs' : s' = s
    · subst hs'
      rw [Function.update_self] at he
      rw [← Multiset.mem_coe, hR]
      exact Multiset.mem_add.mpr (Or.inr he)
    · rwa [Function.update_of_ne hs'] at he
  refine ⟨⟨_, _, rfl⟩, ?_, ?_, ?_⟩
  · exact { h with
      indexed := hi
      slot_eq := fun s' e he => h.slot_eq s' e (hmem he)
      id_lt := fun s' e he => h.id_lt s' e (hmem he) }
  · intro ha s' e he
    exact ha s' e (hmem he)
  · have hc := Slots.contents_update w.slots hs l
    rw [hR, ← add_assoc, add_left_inj] at hc
    rw [live, live, add_comm, hc]

theorem Placed.held (h : Placed w) : Held w where
  slotMask_lt := by
    rw [h.slotMask_eq]
    exact Nat.sub_lt h.slotCount_pos Nat.one_pos
  indexed := h.indexed
  slot_lt _ _ he := h.slot_lt he
  id_lt := h.id_lt

theorem Strips.removes {ids : List TimerEntryId} (h : Strips w w' ids) (hp : Placed w) :
    Removes w w' (w.live.filter fun e => e.id ∈ ids) := by
  have hmem {s : ℕ} {e : TimerEntry E} (he : e ∈ w'.slots s) : e ∈ w.slots s :=
    (h.mem_slots.mp he).1
  have hlive : w'.live = w.live.filter fun e => e.id ∉ ids := by
    have hcount : w'.slotCount = w.slotCount := by
      obtain ⟨slots, places, rfl⟩ := h.frame
      rfl
    rw [live, live, ← Slots.contents_filter, hcount, Slots.contents, Slots.contents]
    exact Finset.sum_congr rfl fun s _ => Multiset.coe_eq_coe.mpr (h.slots_perm s)
  have hheld := h.held
  obtain ⟨slots, places, rfl⟩ := h.frame
  refine ⟨⟨slots, places, rfl⟩, ?_, ?_, ?_⟩
  · exact { hp with
      indexed := hheld.indexed
      slot_eq := fun s e he => hp.slot_eq s e (hmem he)
      id_lt := hheld.id_lt }
  · intro ha s e he
    exact ha s e (hmem he)
  · rw [hlive]
    exact (Multiset.filter_add_not ..).symm

theorem Placed.nodup_live (h : Placed w) : w.live.Nodup :=
  (h.indexed.nodup_contents w.slotCount).of_map

theorem Placed.filter_id (h : Placed w) (he : e ∈ w.slots s) :
    (w.live.filter fun a => a.id ∈ [e.id]) = {e} := by
  apply (Multiset.Nodup.ext (h.nodup_live.filter _) (Multiset.nodup_singleton e)).mpr
  intro a
  simp only [Multiset.mem_filter, h.mem_live, List.mem_singleton, Multiset.mem_singleton]
  constructor
  · rintro ⟨⟨s', ha⟩, hid⟩
    obtain ⟨p, hp⟩ := List.mem_iff_getElem?.mp he
    obtain ⟨q, hq⟩ := List.mem_iff_getElem?.mp ha
    obtain ⟨rfl, rfl⟩ := h.indexed.place_unique hq hp hid
    rw [hp] at hq
    cases hq
    rfl
  · rintro rfl
    exact ⟨⟨s, he⟩, rfl⟩

theorem cancelTimer_spec (h : Placed w) (id : TimerEntryId) :
    (w.timerMap[id]? = none ∧ w.cancelTimer id = (false, w)) ∨
      ∃ e w', e.id = id ∧ Removes w w' {e} ∧ w.cancelTimer id =
        (true, if invalidates w.cachedNextExpiry (some e.expiryTime) then
          { w' with cachedNextExpiry := none } else w') := by
  rcases h.held.cancelTimer id with hnone | ⟨s, e, w', he, rfl, hs, hc⟩
  · exact Or.inl hnone
  · have hr := hs.removes h
    rw [h.filter_id he] at hr
    exact Or.inr ⟨e, w', rfl, hr, hc⟩

theorem batchCancelTimers_spec (h : Placed w) {entryIds : List TimerEntryId} {order : List ℕ}
    (hnd : entryIds.Nodup) (ho : IsOrder order ((w.findPlaces entryIds).map (·.2.1))) :
    ∃ stale w' R, Removes w w' R ∧
      R.map TimerEntry.id = ↑(entryIds.filter fun id => w.timerMap[id]?.isSome) ∧
      w.batchCancelTimers entryIds order =
        (R.card, if stale = true then { w' with cachedNextExpiry := none } else w') ∧
      (stale = false → ∀ e ∈ R, invalidates w.cachedNextExpiry (some e.expiryTime) = false) := by
  obtain ⟨stale, w', hs, hc, hst⟩ :=
    h.held.batchCancelTimers hnd ho.1 fun x hx => ho.2.2 _ (List.mem_map_of_mem hx)
  have hids : (w.live.filter fun e => e.id ∈ entryIds).map TimerEntry.id =
      ↑(entryIds.filter fun id => w.timerMap[id]?.isSome) := by
    apply (Multiset.Nodup.ext _ (Multiset.coe_nodup.mpr (hnd.filter _))).mpr
    · intro id
      simp only [Multiset.mem_map, Multiset.mem_filter, h.mem_live, Multiset.mem_coe,
        List.mem_filter, h.held.isSome_timerMap]
      constructor
      · rintro ⟨e, ⟨⟨s, he⟩, hid⟩, rfl⟩
        exact ⟨hid, s, e, he, rfl⟩
      · rintro ⟨hid, s, e, he, rfl⟩
        exact ⟨e, ⟨⟨s, he⟩, hid⟩, rfl⟩
    · exact Multiset.nodup_of_le (Multiset.map_le_map (Multiset.filter_le _ _))
        (h.indexed.nodup_contents w.slotCount)
  refine ⟨stale, w', _, hs.removes h, hids, ?_, ?_⟩
  · have hcard := congrArg Multiset.card hids
    rw [Multiset.card_map, Multiset.coe_card] at hcard
    rw [hc, hcard]
  · intro hfresh e he
    obtain ⟨hl, hid⟩ := Multiset.mem_filter.mp he
    obtain ⟨s, hs⟩ := h.mem_live.mp hl
    rw [← Bool.not_eq_true]
    intro hinv
    rw [hst.mpr ⟨s, e, hs, hid, hinv⟩] at hfresh
    cases hfresh

end Remove

end TimingWheel

end Kestrel
