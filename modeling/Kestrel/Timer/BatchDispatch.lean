import Kestrel.Lib.Dispatch
import Kestrel.Timer.ZeroCopy

/-! # Accounts of a batch

The slots are bounded queues. What becomes of the events of a batch is said by routes: those of a
small batch go to slots with room as long as there are any, those of a large one go as planned.
-/

namespace Kestrel

open Dispatch

namespace RingBuffer

variable {E : Type} (b : RingBuffer E)

def room : ℕ := b.capacity - b.queue.length

variable {b}

theorem tryWrite_error {event event' : TimerEventData E} (h : b.tryWrite event = .error event') :
    b.room = 0 ∧ event' = event := by
  rw [tryWrite] at h
  split at h
  · cases h
  · rename_i hfull
    cases h
    exact ⟨Nat.sub_eq_zero_of_le (not_lt.mp hfull), rfl⟩

theorem tryWrite_ok {b' : RingBuffer E} {event : TimerEventData E} (h : b.tryWrite event = .ok b') :
    0 < b.room ∧ b'.queue = b.queue ++ [event] ∧ b'.capacity = b.capacity := by
  rw [tryWrite] at h
  split at h
  · rename_i hroom
    cases h
    exact ⟨Nat.sub_pos_of_lt hroom, rfl, rfl⟩
  · cases h

theorem batchWrite_eq (events : List (TimerEventData E)) :
    (b.batchWrite events).1 = min b.room events.length ∧
      (b.batchWrite events).2.queue = b.queue ++ events.take b.room ∧
      (b.batchWrite events).2.capacity = b.capacity := by
  induction events generalizing b with
  | nil => simp [batchWrite]
  | cons event events ih =>
    rw [batchWrite]
    cases hwrite : b.tryWrite event with
    | error event' => simp [(tryWrite_error hwrite).1]
    | ok b' =>
      obtain ⟨hpos, hqueue, hcapacity⟩ := tryWrite_ok hwrite
      obtain ⟨hwritten, hqueue', hcapacity'⟩ := ih (b := b')
      have hroom : b.room = b'.room + 1 := by
        rw [room, room, hqueue, hcapacity, List.length_append, List.length_singleton]
        rw [room] at hpos
        omega
      refine ⟨?_, ?_, hcapacity'.trans hcapacity⟩
      · simp only [hwritten, hroom, List.length_cons]
        omega
      · simp [hqueue', hqueue, hroom]

end RingBuffer

namespace SmartZeroCopyDispatcher

variable {E : Type} {n : ℕ} (slots : Fin n → EventSlot E)

def queues : Queues (Fin n) (TimerEventData E) where
  queue i := (slots i).ringBuffer.queue
  capacity i := (slots i).ringBuffer.capacity

variable {slots}

theorem queues_update {i : Fin n} {slot : EventSlot E} {xs : List (TimerEventData E)}
    (hqueue : slot.ringBuffer.queue = (slots i).ringBuffer.queue ++ xs)
    (hcapacity : slot.ringBuffer.capacity = (slots i).ringBuffer.capacity) :
    queues (Function.update slots i slot) = (queues slots).push i xs := by
  ext1
  · funext j
    by_cases hji : j = i
    · subst hji
      simp [queues, Queues.push, hqueue]
    · simp [queues, Queues.push, hji]
  · funext j
    by_cases hji : j = i
    · subst hji
      simp [queues, Queues.push, hcapacity]
    · simp [queues, Queues.push, hji]

variable (slots) in
theorem queues_writeTo (i : Fin n) (batch : List (TimerEventData E)) :
    queues (writeTo slots i batch).2 = (queues slots).write i batch ∧
      (writeTo slots i batch).1 = min ((queues slots).room i) batch.length := by
  obtain ⟨hwritten, hqueue, hcapacity⟩ :=
    RingBuffer.batchWrite_eq (b := (slots i).ringBuffer) batch
  exact ⟨queues_update hqueue hcapacity, hwritten⟩

variable (slots) in
theorem queues_writeTo_unless_empty (i : Fin n) (batch : List (TimerEventData E)) :
    let result := if batch.isEmpty then (0, slots) else writeTo slots i batch
    queues result.2 = (queues slots).write i batch ∧
      result.1 = Routes.accepted (Routes.ofChunk i batch ((queues slots).room i)) := by
  cases batch with
  | nil => simp
  | cons event batch =>
    obtain ⟨hqueues, hwritten⟩ := queues_writeTo slots i (event :: batch)
    exact ⟨hqueues, hwritten.trans (Routes.accepted_ofChunk ..).symm⟩

section Large

variable [NeZero n]

/-- The chunks of the rest of a large batch, each with its slot. -/
def spreadPlan (eventsPerDispatcher : ℕ) (currentDispatcher : Fin n)
    (currentBatch : List (TimerEventData E)) :
    List (TimerEventData E) → List (Fin n × List (TimerEventData E))
  | [] => if currentBatch.isEmpty then [] else [(currentDispatcher, currentBatch)]
  | event :: events =>
    let currentBatch := currentBatch ++ [event]
    if eventsPerDispatcher ≤ currentBatch.length then
      (currentDispatcher, currentBatch) ::
        spreadPlan eventsPerDispatcher (currentDispatcher + 1) [] events
    else spreadPlan eventsPerDispatcher currentDispatcher currentBatch events

/-- The chunks of a large batch, the first for the best slot. -/
def largeBatchPlan (events : List (TimerEventData E)) (bestDispatcher : Fin n) :
    List (Fin n × List (TimerEventData E)) :=
  let eventsPerDispatcher := events.length / n
  let bestBatchSize := min (eventsPerDispatcher * 2) events.length
  (bestDispatcher, events.take bestBatchSize) ::
    spreadPlan eventsPerDispatcher (bestDispatcher + 1) [] (events.drop bestBatchSize)

theorem flatMap_spreadPlan (eventsPerDispatcher : ℕ) (currentDispatcher : Fin n)
    (currentBatch events : List (TimerEventData E)) :
    (spreadPlan eventsPerDispatcher currentDispatcher currentBatch events).flatMap Prod.snd =
      currentBatch ++ events := by
  induction events generalizing currentDispatcher currentBatch with
  | nil =>
    rw [spreadPlan]
    cases currentBatch <;> simp
  | cons event events ih =>
    rw [spreadPlan]
    split <;> simp [ih]

theorem flatMap_largeBatchPlan (events : List (TimerEventData E)) (bestDispatcher : Fin n) :
    (largeBatchPlan events bestDispatcher).flatMap Prod.snd = events := by
  rw [largeBatchPlan]
  simp [flatMap_spreadPlan]

theorem largeBatchPlan_eq_singleton {events : List (TimerEventData E)}
    (h : events.length ≤ events.length / n * 2) (bestDispatcher : Fin n) :
    largeBatchPlan events bestDispatcher = [(bestDispatcher, events)] := by
  rw [largeBatchPlan, min_eq_right h, List.take_length, List.drop_length]
  rfl

/-- The loop writes the chunks of its plan. -/
theorem spread_eq (slots : Fin n → EventSlot E) (eventsPerDispatcher : ℕ)
    (currentDispatcher : Fin n) (currentBatch events : List (TimerEventData E))
    (totalDispatched : ℕ) :
    let plan := spreadPlan eventsPerDispatcher currentDispatcher currentBatch events
    let result := spread eventsPerDispatcher slots currentDispatcher currentBatch totalDispatched
      events
    queues result.2 = (queues slots).writeAll plan ∧
      result.1 = totalDispatched + Routes.accepted ((queues slots).routes plan) := by
  induction events generalizing slots currentDispatcher currentBatch totalDispatched with
  | nil =>
    rw [spread, spreadPlan]
    cases currentBatch with
    | nil => exact ⟨rfl, rfl⟩
    | cons event batch =>
      obtain ⟨hqueues, hwritten⟩ := queues_writeTo slots currentDispatcher
        (event :: batch)
      refine ⟨hqueues, ?_⟩
      simp [hwritten, Queues.routes]
  | cons event events ih =>
    rw [spread, spreadPlan]
    dsimp only
    split
    · obtain ⟨hqueues, hwritten⟩ := queues_writeTo slots currentDispatcher
        (currentBatch ++ [event])
      obtain ⟨hrest, htotal⟩ := ih (writeTo slots currentDispatcher _).2
        (currentDispatcher + 1) [] (totalDispatched + (writeTo slots currentDispatcher
          (currentBatch ++ [event])).1)
      rw [hqueues] at hrest htotal
      refine ⟨hrest, htotal.trans ?_⟩
      rw [Queues.routes, Routes.accepted_append, Routes.accepted_ofChunk, hwritten, Nat.add_assoc]
    · exact ih _ _ _ _

/-- A large batch is written as planned, as far as the chunks fit into their slots. -/
theorem dispatchLargeBatch_eq (slots : Fin n → EventSlot E) (events : List (TimerEventData E))
    (bestDispatcher : Fin n) :
    let plan := largeBatchPlan events bestDispatcher
    let result := dispatchLargeBatch slots events bestDispatcher
    queues result.2 = (queues slots).deliver ((queues slots).routes plan) ∧
      result.1 = Routes.accepted ((queues slots).routes plan) := by
  rw [dispatchLargeBatch, largeBatchPlan]
  dsimp only
  obtain ⟨hfirst, hwritten⟩ := queues_writeTo_unless_empty slots bestDispatcher
    (events.take (min (events.length / n * 2) events.length))
  generalize (if (events.take (min (events.length / n * 2) events.length)).isEmpty = true
    then _ else _) = first at hfirst hwritten ⊢
  obtain ⟨hrest, htotal⟩ := spread_eq first.2 (events.length / n) (bestDispatcher + 1) []
    (events.drop (min (events.length / n * 2) events.length)) first.1
  rw [hfirst] at hrest htotal
  rw [Queues.deliver_routes]
  refine ⟨hrest, htotal.trans ?_⟩
  rw [Queues.routes, Routes.accepted_append, hwritten]

end Large

section Small

variable [NeZero n]

omit [NeZero n] in
theorem queues_tryWriteEvent (slots : Fin n → EventSlot E) (i : Fin n) (event : TimerEventData E) :
    let result := (slots i).tryWriteEvent event
    (result.1 = .ok () ∧ 0 < (queues slots).room i ∧
        queues (Function.update slots i result.2) = (queues slots).push i [event]) ∨
      (result.1 = .error event ∧ (queues slots).room i = 0 ∧
        queues (Function.update slots i result.2) = queues slots) := by
  rw [EventSlot.tryWriteEvent]
  cases hwrite : (slots i).ringBuffer.tryWrite event with
  | ok ringBuffer =>
    obtain ⟨hroom, hqueue, hcapacity⟩ := RingBuffer.tryWrite_ok hwrite
    exact Or.inl ⟨rfl, hroom, queues_update hqueue hcapacity⟩
  | error event' =>
    obtain ⟨hroom, rfl⟩ := RingBuffer.tryWrite_error hwrite
    refine Or.inr ⟨rfl, hroom, (queues_update ?_ ?_).trans (Queues.push_nil i)⟩
    · exact (List.append_nil _).symm
    · rfl

/-- The event goes into a slot with room; if there is none, every slot has been tried. -/
theorem placeEvent_spec (slots : Fin n → EventSlot E) (original : Fin n) {k tries : ℕ}
    (hk : k + tries = n) (hpos : 0 < tries)
    (hfull : ∀ j < k, (queues slots).room (original + Fin.ofNat n j) = 0)
    (event : TimerEventData E) :
    let result := placeEvent original tries slots (original + Fin.ofNat n k) event
    (result.1 = true ∧ ∃ i, 0 < (queues slots).room i ∧
        queues result.2.1 = (queues slots).push i [event]) ∨
      (result.1 = false ∧ (queues slots).Full ∧ queues result.2.1 = queues slots) := by
  induction tries generalizing slots k with
  | zero => exact absurd hpos (lt_irrefl 0)
  | succ tries ih =>
    rw [placeEvent]
    rcases queues_tryWriteEvent slots (original + Fin.ofNat n k) event with
      ⟨hok, hroom, hqueues⟩ | ⟨herr, hroom, hqueues⟩
    · simp only [hok]
      exact Or.inl ⟨trivial, _, hroom, hqueues⟩
    · have hfull' : ∀ j < k + 1, (queues slots).room (original + Fin.ofNat n j) = 0 := by
        intro j hj
        rcases Nat.lt_succ_iff_lt_or_eq.mp hj with hlt | rfl
        · exact hfull j hlt
        · exact hroom
      simp only [herr, add_ofNat_succ, add_ofNat_eq_self k.succ_pos (by omega : k + 1 ≤ n)]
      split
      · rename_i hround
        refine Or.inr ⟨rfl, fun i => ?_, hqueues⟩
        obtain ⟨j, hj, rfl⟩ := exists_add_ofNat original i
        exact hfull' j (by omega)
      · rename_i hround
        have hrest := ih (k := k + 1) _ (by omega) (by omega) (by rwa [hqueues])
        rwa [hqueues] at hrest

/-- A small batch is placed one by one, until every slot is full. -/
theorem dispatchSmallBatch_eq (slots : Fin n → EventSlot E) (currentDispatcher : Fin n)
    (events : List (TimerEventData E)) :
    let result := dispatchSmallBatch slots currentDispatcher events
    ∃ r : Routes (Fin n) (TimerEventData E), r.map Prod.fst = events ∧
      queues result.2 = (queues slots).deliver r ∧ result.1 = r.accepted ∧
        (queues slots).Fits r ∧ (r.refused ≠ [] → ((queues slots).deliver r).Full) := by
  induction events generalizing slots currentDispatcher with
  | nil => exact ⟨[], rfl, Queues.deliver_nil.symm, rfl, Queues.fits_toward_none [], by simp⟩
  | cons event events ih =>
    have hplace := placeEvent_spec slots currentDispatcher (Nat.zero_add n) (NeZero.pos n)
      (by simp) event
    have hfirst : currentDispatcher + Fin.ofNat n 0 = currentDispatcher := by simp
    rw [hfirst] at hplace
    rw [dispatchSmallBatch]
    rcases hplace with ⟨hplaced, i, hroom, hqueues⟩ | ⟨hplaced, hfull, hqueues⟩
    · simp only [hplaced, if_true]
      obtain ⟨r, hfst, hdeliver, haccepted, hle, hrefused⟩ :=
        ih (placeEvent currentDispatcher n slots currentDispatcher event).2.1
          (placeEvent currentDispatcher n slots currentDispatcher event).2.2
      rw [hqueues, ← Queues.deliver_toward_some] at hdeliver hle hrefused
      rw [← Queues.deliver_append] at hdeliver hrefused
      refine ⟨Routes.toward (some i) [event] ++ r, ?_, hdeliver, ?_,
        (Queues.fits_toward_some hroom).append hle, ?_⟩
      · simp [hfst]
      · simp [haccepted, Nat.add_comm]
      · simpa [Routes.refused, Routes.toward] using hrefused
    · simp only [hplaced]
      refine ⟨Routes.toward none (event :: events), by simp, ?_, by simp,
        Queues.fits_toward_none _, ?_⟩
      · rw [Queues.deliver_toward_none]
        exact hqueues
      · intro _
        rwa [Queues.deliver_toward_none]

end Small

section Batch

variable [NeZero n] (d : SmartZeroCopyDispatcher E n) (events : List (TimerEventData E))

/-- The chunks into which a batch is cut if it is large. -/
def plan : List (Fin n × List (TimerEventData E)) := largeBatchPlan events d.bestDispatcher

/-- There is room for a batch: in all slots together for a small one, in each slot for the chunks of
a large one. -/
def HasRoom : Prop :=
  if d.batchThreshold ≤ events.length then
    ∀ i, (Queues.destined i (d.plan events)).length ≤ (queues d.eventSlots).room i
  else events.length ≤ ∑ i, (queues d.eventSlots).room i

/-- The chunks of a large batch fit into every slot, or they fill every slot. -/
def Levels : Prop :=
  d.batchThreshold ≤ events.length →
    (∀ i, (Queues.destined i (d.plan events)).length ≤ (queues d.eventSlots).room i) ∨
      ∀ i, (queues d.eventSlots).room i ≤ (Queues.destined i (d.plan events)).length

/-- What becomes of each event of a batch: an event goes to the end of one slot, in order, or is
rejected, and those that go to a slot are counted. -/
structure Recorded (r : Routes (Fin n) (TimerEventData E)) : Prop where
  map_fst : r.map Prod.fst = events
  delivered : queues (d.batchDispatchEvents events).2.eventSlots = (queues d.eventSlots).deliver r
  counted : (d.batchDispatchEvents events).1 = r.accepted

/-- Large batches go as planned, small ones until all slots are full. -/
structure Routed (r : Routes (Fin n) (TimerEventData E)) : Prop extends d.Recorded events r where
  fits : (queues d.eventSlots).Fits r
  strategy : if d.batchThreshold ≤ events.length then r = (queues d.eventSlots).routes (d.plan events)
    else r.refused ≠ [] → ((queues d.eventSlots).deliver r).Full

/-- Every event of a batch is accounted for, and one is rejected only if every slot is full. -/
structure Accounted (r : Routes (Fin n) (TimerEventData E)) : Prop extends d.Recorded events r where
  full : r.refused ≠ [] → (queues (d.batchDispatchEvents events).2.eventSlots).Full

theorem batchDispatchEvents_of_ne_nil (h : events ≠ []) :
    ((d.batchDispatchEvents events).1, (d.batchDispatchEvents events).2.eventSlots) =
      if d.batchThreshold ≤ events.length then
        dispatchLargeBatch d.eventSlots events d.bestDispatcher
      else dispatchSmallBatch d.eventSlots d.bestDispatcher events := by
  rw [batchDispatchEvents, if_neg (by simpa using h)]

theorem batchDispatchEvents_batchProcessor (p : OptimizedBatchProcessor E) :
    { d with batchProcessor := p }.batchDispatchEvents events =
      ((d.batchDispatchEvents events).1,
        { (d.batchDispatchEvents events).2 with batchProcessor := p }) := by
  rw [batchDispatchEvents, batchDispatchEvents]
  split <;> rfl

theorem createAndDispatchEvents_eq (requests : List (ConnectionId × E)) :
    let dispatched := d.batchDispatchEvents (requests.map fun r => .new r.1 r.2)
    ∃ d', d.createAndDispatchEvents requests = some (dispatched.1, d') ∧
      d'.eventSlots = dispatched.2.eventSlots := by
  rw [createAndDispatchEvents]
  split
  · rename_i hempty
    rw [List.isEmpty_iff.mp hempty]
    exact ⟨d, rfl, rfl⟩
  split
  · exact ⟨_, rfl, rfl⟩
  · obtain ⟨p, hp⟩ := d.batchProcessor.createEventsOptimized_eq requests
    rw [hp, Option.map_some]
    dsimp only
    rw [batchDispatchEvents_batchProcessor]
    exact ⟨_, rfl, rfl⟩

theorem exists_routed : ∃ r, d.Routed events r := by
  cases events with
  | nil =>
    refine ⟨[], ⟨rfl, Queues.deliver_nil.symm, rfl⟩, Queues.fits_toward_none [], ?_⟩
    split
    · have hfst : ((queues d.eventSlots).routes (d.plan [])).map Prod.fst = [] := by
        rw [Queues.map_fst_routes, plan, flatMap_largeBatchPlan]
      exact (List.map_eq_nil_iff.mp hfst).symm
    · simp
  | cons event events =>
    have hresult := d.batchDispatchEvents_of_ne_nil (event :: events) (List.cons_ne_nil _ _)
    by_cases hlarge : d.batchThreshold ≤ (event :: events).length
    · rw [if_pos hlarge, Prod.ext_iff] at hresult
      obtain ⟨hqueues, hcount⟩ :=
        dispatchLargeBatch_eq d.eventSlots (event :: events) d.bestDispatcher
      refine ⟨(queues d.eventSlots).routes (d.plan (event :: events)), ⟨?_, ?_, ?_⟩,
        Queues.fits_routes _, (if_pos hlarge).mpr rfl⟩
      · rw [Queues.map_fst_routes, plan, flatMap_largeBatchPlan]
      · exact (congrArg queues hresult.2).trans hqueues
      · exact hresult.1.trans hcount
    · rw [if_neg hlarge, Prod.ext_iff] at hresult
      obtain ⟨r, hfst, hqueues, hcount, hfits, hfull⟩ :=
        dispatchSmallBatch_eq d.eventSlots d.bestDispatcher (event :: events)
      exact ⟨r, ⟨hfst, (congrArg queues hresult.2).trans hqueues, hresult.1.trans hcount⟩, hfits,
        (if_neg hlarge).mpr hfull⟩

variable {d events} {r r' : Routes (Fin n) (TimerEventData E)}

theorem Routed.refused_eq_nil_iff (h : d.Routed events r) :
    r.refused = [] ↔ d.HasRoom events := by
  have hstrategy := h.strategy
  have hlength : r.length = events.length := by rw [← h.map_fst, List.length_map]
  unfold HasRoom
  split at hstrategy
  · rename_i hlarge
    rw [if_pos hlarge, hstrategy, Queues.refused_routes_eq_nil_iff]
  · rename_i hsmall
    rw [if_neg hsmall, Queues.refused_eq_nil_iff_of_full h.fits hstrategy, hlength]

/-- What is rejected is rejected for want of any room exactly if the chunks fit or fill all. -/
theorem Routed.full_iff (h : d.Routed events r) :
    (r.refused ≠ [] → (queues (d.batchDispatchEvents events).2.eventSlots).Full) ↔
      d.Levels events := by
  have hstrategy := h.strategy
  rw [h.delivered, Levels]
  split at hstrategy
  · rename_i hlarge
    rw [hstrategy, Queues.deliver_routes, Queues.full_writeAll_iff, Ne,
      Queues.refused_routes_eq_nil_iff]
    constructor
    · exact fun h _ => or_iff_not_imp_left.mpr h
    · exact fun h hne => (h hlarge).resolve_left hne
  · rename_i hsmall
    exact iff_of_true hstrategy fun hlarge => absurd hlarge hsmall

theorem Recorded.refused_congr (h : d.Recorded events r) (h' : d.Recorded events r') :
    r.refused = [] ↔ r'.refused = [] := by
  have haccepted : r.accepted = r'.accepted := h.counted.symm.trans h'.counted
  have hlength : r.length = r'.length := by
    rw [← List.length_map (f := Prod.fst), h.map_fst, ← h'.map_fst, List.length_map]
  rw [Routes.refused_eq_nil_iff, Routes.refused_eq_nil_iff, haccepted, hlength]

theorem Routed.accounted (h : d.Routed events r) (hlevels : d.Levels events) :
    d.Accounted events r :=
  ⟨h.toRecorded, h.full_iff.mpr hlevels⟩

theorem Accounted.levels (h : d.Accounted events r) : d.Levels events := by
  obtain ⟨r', hr'⟩ := d.exists_routed events
  have hrefused := h.toRecorded.refused_congr hr'.toRecorded
  exact hr'.full_iff.mp fun hne => h.full fun heq => hne (hrefused.mp heq)

theorem Accounted.refused_eq_nil_iff (h : d.Accounted events r) :
    r.refused = [] ↔ d.HasRoom events := by
  obtain ⟨r', hr'⟩ := d.exists_routed events
  exact (h.toRecorded.refused_congr hr'.toRecorded).trans hr'.refused_eq_nil_iff

/-- A batch is accounted for exactly if its chunks fit into every slot or fill every slot, or it is
small. -/
theorem exists_accounted_iff : (∃ r, d.Accounted events r) ↔ d.Levels events := by
  constructor
  · rintro ⟨r, hr⟩
    exact hr.levels
  · intro h
    obtain ⟨r, hr⟩ := d.exists_routed events
    exact ⟨r, hr.accounted h⟩

theorem hasRoom_iff_of_le (hlarge : d.batchThreshold ≤ events.length)
    (hchunk : events.length ≤ events.length / n * 2) :
    d.HasRoom events ↔ events.length ≤ (queues d.eventSlots).room d.bestDispatcher := by
  rw [HasRoom, if_pos hlarge, plan, largeBatchPlan_eq_singleton hchunk]
  constructor
  · intro h
    have hbest := h d.bestDispatcher
    rwa [Queues.destined_singleton, if_pos rfl] at hbest
  · intro h i
    rw [Queues.destined_singleton]
    split
    · rename_i hi
      rwa [hi]
    · exact Nat.zero_le _

theorem Levels.hasRoom_or (h : d.Levels events) (hlarge : d.batchThreshold ≤ events.length)
    (hchunk : events.length ≤ events.length / n * 2) :
    d.HasRoom events ∨ ∀ i, i ≠ d.bestDispatcher → (queues d.eventSlots).room i = 0 := by
  rcases h hlarge with hfit | hfill
  · left
    rwa [HasRoom, if_pos hlarge]
  · right
    intro i hi
    have hle := hfill i
    rw [plan, largeBatchPlan_eq_singleton hchunk, Queues.destined_singleton, if_neg hi] at hle
    exact Nat.le_zero.mp hle

omit [NeZero n] in
theorem room_new [Inhabited E] (slotCapacity poolSize : ℕ) (i : Fin n) :
    (queues (new slotCapacity n poolSize : SmartZeroCopyDispatcher E n).eventSlots).room i =
      max slotCapacity 1 := rfl

theorem levels_of_hasRoom (h : d.HasRoom events) : d.Levels events := by
  intro hlarge
  rw [HasRoom, if_pos hlarge] at h
  exact Or.inl h

theorem levels_of_full (h : (queues d.eventSlots).Full) : d.Levels events :=
  fun _ => Or.inr fun i => (h i).le.trans (Nat.zero_le _)

theorem Accounted.refused_of_count_eq_zero (h : d.Accounted events r)
    (hcount : (d.batchDispatchEvents events).1 = 0) : r.refused = events := by
  rw [Routes.refused_of_accepted_eq_zero (h.counted.symm.trans hcount), h.map_fst]

/-- To take all rejected events for the whole batch if none is counted, and for none otherwise, is
right exactly if there is room for the batch or none at all. -/
theorem exists_accounted_rest_iff :
    (∃ r, d.Accounted events r ∧
        r.refused = if (d.batchDispatchEvents events).1 = 0 then events else []) ↔
      d.HasRoom events ∨ (queues d.eventSlots).Full := by
  constructor
  · rintro ⟨r, hr, hrefused⟩
    by_cases hnil : r.refused = []
    · exact Or.inl (hr.refused_eq_nil_iff.mp hnil)
    · right
      have hcount : (d.batchDispatchEvents events).1 = 0 := by
        by_contra hcount
        exact hnil (hrefused.trans (if_neg hcount))
      have hfull := hr.full hnil
      rwa [hr.delivered, Queues.deliver_eq_self_iff.mpr (hr.counted.symm.trans hcount)] at hfull
  · obtain ⟨r, hr⟩ := d.exists_routed events
    rintro (hroom | hfull)
    · have haccounted := hr.accounted (levels_of_hasRoom hroom)
      have hnil := hr.refused_eq_nil_iff.mpr hroom
      refine ⟨r, haccounted, ?_⟩
      split
      · rename_i hcount
        exact haccounted.refused_of_count_eq_zero hcount
      · exact hnil
    · have haccounted := hr.accounted (levels_of_full hfull)
      have hcount : (d.batchDispatchEvents events).1 = 0 :=
        hr.counted.trans (Queues.accepted_eq_zero_of_full hr.fits hfull)
      exact ⟨r, haccounted, (haccounted.refused_of_count_eq_zero hcount).trans (if_pos hcount).symm⟩

end Batch

end SmartZeroCopyDispatcher

end Kestrel
