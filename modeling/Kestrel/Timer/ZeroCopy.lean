import Mathlib.Data.Rat.Defs
import Mathlib.Algebra.Order.Ring.Unbundled.Rat
import Kestrel.Timer.EventPool

/-! # The zero-copy dispatcher

Events go into the ring buffers of several slots. A small batch goes to the slots in turn, one event
after the other. A large one is cut into chunks, one for each slot; what does not fit into the slot
of its chunk is dropped.
-/

namespace Kestrel

/-- A bounded queue of events. -/
structure RingBuffer (E : Type) where
  queue : List (TimerEventData E)
  capacity : ℕ
  capacity_pos : 0 < capacity
  length_le : queue.length ≤ capacity

namespace RingBuffer

variable {E : Type} (b : RingBuffer E)

def new (capacity : ℕ) : RingBuffer E where
  queue := []
  capacity := max capacity 1
  capacity_pos := Nat.lt_of_lt_of_le Nat.one_pos (le_max_right _ _)
  length_le := Nat.zero_le _

def tryWrite (event : TimerEventData E) : Except (TimerEventData E) (RingBuffer E) :=
  if h : b.queue.length < b.capacity then
    .ok { b with
      queue := b.queue ++ [event]
      length_le := by
        rw [List.length_append]
        exact h }
  else .error event

/-- Writes events until the buffer is full, and counts them. -/
def batchWrite (b : RingBuffer E) : List (TimerEventData E) → ℕ × RingBuffer E
  | [] => (0, b)
  | event :: events =>
    match b.tryWrite event with
    | .ok b =>
      let (written, b) := b.batchWrite events
      (written + 1, b)
    | .error _ => (0, b)

def batchRead (maxEvents : ℕ) : List (TimerEventData E) × RingBuffer E :=
  (b.queue.take maxEvents,
    { b with
      queue := b.queue.drop maxEvents
      length_le := by
        rw [List.length_drop]
        exact (Nat.sub_le _ _).trans b.length_le })

def utilization : ℚ := b.queue.length / b.capacity

end RingBuffer

structure EventSlot (E : Type) where
  ringBuffer : RingBuffer E
  writtenCount : ℕ
  failedWrites : ℕ

namespace EventSlot

variable {E : Type} (slot : EventSlot E)

def new (capacity : ℕ) : EventSlot E := ⟨.new capacity, 0, 0⟩

def tryWriteEvent (event : TimerEventData E) : Except (TimerEventData E) Unit × EventSlot E :=
  match slot.ringBuffer.tryWrite event with
  | .ok ringBuffer =>
    (.ok (), { slot with ringBuffer, writtenCount := slot.writtenCount + 1 })
  | .error event => (.error event, { slot with failedWrites := slot.failedWrites + 1 })

def batchWriteEvents (events : List (TimerEventData E)) : ℕ × EventSlot E :=
  let (written, ringBuffer) := slot.ringBuffer.batchWrite events
  (written, { slot with ringBuffer, writtenCount := slot.writtenCount + written })

def batchRead (maxEvents : ℕ) : List (TimerEventData E) × EventSlot E :=
  let (events, ringBuffer) := slot.ringBuffer.batchRead maxEvents
  (events, { slot with ringBuffer })

def getStats : ℕ × ℕ × ℚ :=
  (slot.writtenCount, slot.failedWrites, slot.ringBuffer.utilization)

end EventSlot

structure SmartZeroCopyDispatcher (E : Type) (dispatcherCount : ℕ) where
  eventSlots : Fin dispatcherCount → EventSlot E
  batchProcessor : OptimizedBatchProcessor E
  dispatchIndex : ℕ
  batchThreshold : ℕ
  totalDispatched : ℕ
  totalRejected : ℕ

namespace SmartZeroCopyDispatcher

variable {E : Type} {n : ℕ}

def new [Inhabited E] (slotCapacity dispatcherCount poolSize : ℕ) :
    SmartZeroCopyDispatcher E dispatcherCount where
  eventSlots := fun _ => .new slotCapacity
  batchProcessor := .new poolSize 32
  dispatchIndex := 0
  batchThreshold := 32
  totalDispatched := 0
  totalRejected := 0

/-- The largest finite value of a 64-bit float. -/
def f64Max : ℚ := 2 ^ 1024 - 2 ^ 971

section Dispatch

variable [NeZero n]

/-- The least used of the next three slots. -/
def bestDispatcher (d : SmartZeroCopyDispatcher E n) : Fin n :=
  ((List.range (min 3 n)).foldl (fun (best : Fin n × ℚ) i =>
    let idx := Fin.ofNat n (d.dispatchIndex + i)
    let (_, _, utilization) := (d.eventSlots idx).getStats
    if utilization < best.2 then (idx, utilization) else best)
    (Fin.ofNat n d.dispatchIndex, f64Max)).1

variable (slots : Fin n → EventSlot E)

/-- Writes a batch to a slot. -/
def writeTo (i : Fin n) (batch : List (TimerEventData E)) : ℕ × (Fin n → EventSlot E) :=
  let (written, slot) := (slots i).batchWriteEvents batch
  (written, Function.update slots i slot)

/-- The loop over the rest of a large batch: a chunk that has grown to its size is written to the
current slot, and the next chunk is for the next slot. -/
def spread (eventsPerDispatcher : ℕ) (slots : Fin n → EventSlot E) (currentDispatcher : Fin n)
    (currentBatch : List (TimerEventData E)) (totalDispatched : ℕ) :
    List (TimerEventData E) → ℕ × (Fin n → EventSlot E)
  | [] =>
    if currentBatch.isEmpty then (totalDispatched, slots)
    else
      let (written, slots) := writeTo slots currentDispatcher currentBatch
      (totalDispatched + written, slots)
  | event :: events =>
    let currentBatch := currentBatch ++ [event]
    if eventsPerDispatcher ≤ currentBatch.length then
      let (written, slots) := writeTo slots currentDispatcher currentBatch
      spread eventsPerDispatcher slots (currentDispatcher + 1) [] (totalDispatched + written) events
    else spread eventsPerDispatcher slots currentDispatcher currentBatch totalDispatched events

/-- The best slot gets two chunks, the other slots one chunk each. -/
def dispatchLargeBatch (events : List (TimerEventData E)) (bestDispatcher : Fin n) :
    ℕ × (Fin n → EventSlot E) :=
  let eventsPerDispatcher := events.length / n
  let bestBatchSize := min (eventsPerDispatcher * 2) events.length
  let bestBatch := events.take bestBatchSize
  let (totalDispatched, slots) :=
    if bestBatch.isEmpty then (0, slots) else writeTo slots bestDispatcher bestBatch
  spread eventsPerDispatcher slots (bestDispatcher + 1) [] totalDispatched
    (events.drop bestBatchSize)

/-- Tries the slots in turn until the first one comes round again. -/
def placeEvent (originalDispatcher : Fin n) :
    ℕ → (Fin n → EventSlot E) → Fin n → TimerEventData E → Bool × (Fin n → EventSlot E) × Fin n
  | 0, slots, currentDispatcher, _ => (false, slots, currentDispatcher)
  | tries + 1, slots, currentDispatcher, event =>
    let (result, slot) := (slots currentDispatcher).tryWriteEvent event
    let slots := Function.update slots currentDispatcher slot
    match result with
    | .ok () => (true, slots, currentDispatcher + 1)
    | .error event =>
      if currentDispatcher + 1 = originalDispatcher then (false, slots, currentDispatcher + 1)
      else placeEvent originalDispatcher tries slots (currentDispatcher + 1) event

/-- Places the events one after the other, until there is no slot for one of them. -/
def dispatchSmallBatch (slots : Fin n → EventSlot E) (currentDispatcher : Fin n) :
    List (TimerEventData E) → ℕ × (Fin n → EventSlot E)
  | [] => (0, slots)
  | event :: events =>
    let (placed, slots, next) := placeEvent currentDispatcher n slots currentDispatcher event
    if placed then
      let (dispatchedCount, slots) := dispatchSmallBatch slots next events
      (dispatchedCount + 1, slots)
    else (0, slots)

/-- Dispatches a batch and returns the number of events that were enqueued. -/
def batchDispatchEvents (d : SmartZeroCopyDispatcher E n) (events : List (TimerEventData E)) :
    ℕ × SmartZeroCopyDispatcher E n :=
  if events.isEmpty then (0, d)
  else
    let bestDispatcher := d.bestDispatcher
    let (dispatched, eventSlots) :=
      if d.batchThreshold ≤ events.length then dispatchLargeBatch d.eventSlots events bestDispatcher
      else dispatchSmallBatch d.eventSlots bestDispatcher events
    (dispatched,
      { d with
        eventSlots
        totalDispatched := d.totalDispatched + dispatched
        totalRejected := d.totalRejected + (events.length - dispatched)
        dispatchIndex := (bestDispatcher.val + 1) % n })

/-- Makes events for requests and dispatches them; `none` where an index is out of bounds. -/
def createAndDispatchEvents (d : SmartZeroCopyDispatcher E n)
    (requests : List (ConnectionId × E)) : Option (ℕ × SmartZeroCopyDispatcher E n) :=
  if requests.isEmpty then some (0, d)
  else if requests.length ≤ 64 then
    some (d.batchDispatchEvents (requests.map fun r => .new r.1 r.2))
  else
    (d.batchProcessor.createEventsOptimized requests).map fun (events, batchProcessor) =>
      { d with batchProcessor }.batchDispatchEvents events

end Dispatch

/-- Takes events out of every slot. -/
def batchConsumeEvents (d : SmartZeroCopyDispatcher E n) (maxEventsPerSlot : ℕ) :
    List (TimerEventData E) × SmartZeroCopyDispatcher E n :=
  ((List.finRange n).flatMap fun i => ((d.eventSlots i).batchRead maxEventsPerSlot).1,
    { d with eventSlots := fun i => ((d.eventSlots i).batchRead maxEventsPerSlot).2 })

def batchReturnToPool (d : SmartZeroCopyDispatcher E n) (events : List (TimerEventData E)) :
    SmartZeroCopyDispatcher E n :=
  { d with batchProcessor := d.batchProcessor.processCompleted events }

end SmartZeroCopyDispatcher

end Kestrel
