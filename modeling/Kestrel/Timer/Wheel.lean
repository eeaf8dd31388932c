import Mathlib.Data.List.Sort
import Mathlib.Logic.Function.Basic
import Kestrel.Config
import Kestrel.Lib.Slots

/-! # The timing wheel

Timers lie in slots by the time at which they expire, one turn of the wheel over another, and a
map knows where each of them lies. Advancing the wheel visits the slots that time has passed.
-/

namespace Kestrel

open Std (ExtTreeMap)

namespace TimingWheel

abbrev TimerEntryId := ℕ

structure TimerEntry (E : Type) where
  id : TimerEntryId
  expiryTime : Instant
  event : E
  deriving DecidableEq, Repr

end TimingWheel

structure TimingWheel (E : Type) where
  slotCount : ℕ
  slotMask : ℕ
  slotDuration : Duration
  currentSlot : ℕ
  startTime : Instant
  currentTime : Instant
  slots : ℕ → List (TimingWheel.TimerEntry E)
  timerMap : ExtTreeMap TimingWheel.TimerEntryId (ℕ × ℕ)
  nextEntryId : TimingWheel.TimerEntryId
  cachedNextExpiry : Option Instant

namespace TimingWheel

variable {E : Type} (w : TimingWheel E)

/-- A new wheel; `none` is the failed assertion on the slot count. -/
def new (slotCount : ℕ) (slotDuration : Duration) (now : Instant) : Option (TimingWheel E) :=
  if slotCount.isPowerOfTwo then
    some
      { slotCount
        slotMask := slotCount - 1
        slotDuration
        currentSlot := 0
        startTime := now
        currentTime := now
        slots := fun _ => []
        timerMap := ∅
        nextEntryId := 1
        cachedNextExpiry := none }
  else none

/-- The slot for a time. -/
def calculateSlotIndex (expiryTime : Instant) : ℕ :=
  (expiryTime - w.startTime) / w.slotDuration % u64Size &&& w.slotMask

/-- Puts an entry at the end of a slot and notes its place. -/
def pushEntry (slotIndex : ℕ) (entry : TimerEntry E) : TimingWheel E :=
  { w with
    slots := Function.update w.slots slotIndex (w.slots slotIndex ++ [entry])
    timerMap := w.timerMap.insert entry.id (slotIndex, (w.slots slotIndex).length) }

/-- The earlier of a time, if there is one, and another. -/
def earlier : Option Instant → Instant → Option Instant
  | none, t => some t
  | some c, t => if t < c then some t else some c

def addTimer (delay : Duration) (event : E) : TimerEntryId × TimingWheel E :=
  let entryId := w.nextEntryId
  let expiryTime := w.currentTime + delay
  let slotIndex := w.calculateSlotIndex expiryTime
  let w := { w with nextEntryId := w.nextEntryId + 1 }
  let w := w.pushEntry slotIndex ⟨entryId, expiryTime, event⟩
  (entryId, { w with cachedNextExpiry := earlier w.cachedNextExpiry expiryTime })

section Batch

/-- The identifiers of a batch. While they fit, those of each full group of eight go through
32-bit lanes. -/
def simdEntryIds (startId : TimerEntryId) (len : ℕ) : List TimerEntryId :=
  (List.range len).map fun i =>
    if startId ≤ u32Size - 1 ∧ startId + len ≤ u32Size - 1 ∧ i < 8 * (len / 8) then
      (startId + i) % u32Size
    else startId + i

/-- Expiry times and slots of a batch: four at a time with the slot offset cut to 32 bits, the
rest one by one. Times are 64-bit nanoseconds. -/
def simdProcessDelays : List Duration → List (Instant × ℕ)
  | d₀ :: d₁ :: d₂ :: d₃ :: rest =>
    [lane d₀, lane d₁, lane d₂, lane d₃] ++ simdProcessDelays rest
  | rest => rest.map tail
where
  totalNanos (delay : Duration) : ℕ :=
    ((w.currentTime - w.startTime) % u64Size + delay % u64Size) % u64Size
  slotOffset (delay : Duration) : ℕ := totalNanos delay / (w.slotDuration % u64Size)
  lane (delay : Duration) : Instant × ℕ :=
    (w.startTime + totalNanos delay, slotOffset delay % u32Size &&& w.slotMask % u32Size)
  tail (delay : Duration) : Instant × ℕ :=
    (w.startTime + totalNanos delay, slotOffset delay &&& w.slotMask % u32Size)

/-- The entries of a batch, each with its slot. -/
def batchEntries (timers : List (Duration × E)) : List (ℕ × TimerEntry E) :=
  let entryIds := simdEntryIds w.nextEntryId timers.length
  let placed := w.simdProcessDelays (timers.map (·.1))
  (entryIds.zip (placed.zip (timers.map (·.2)))).map fun x => (x.2.1.2, ⟨x.1, x.2.1.1, x.2.2⟩)

/-- Adds a batch of timers slot by slot, in the order in which the hash map of the groups yields
the slots. -/
def batchAddTimers (timers : List (Duration × E)) (order : List ℕ) :
    List TimerEntryId × TimingWheel E :=
  if timers.isEmpty then ([], w)
  else
    let entries := w.batchEntries timers
    let earliestExpiry :=
      entries.foldl (fun c x => earlier c x.2.expiryTime) w.cachedNextExpiry
    let w := { w with nextEntryId := w.nextEntryId + timers.length }
    let groups := order.flatMap fun slot => entries.filter (·.1 = slot)
    let w := groups.foldl (fun w x => w.pushEntry x.1 x.2) w
    (entries.map (·.2.id), { w with cachedNextExpiry := earliestExpiry })

end Batch

section Cancel

/-- Takes an entry out of a slot; unless it is the last one, the last one moves into its place. -/
def swapRemove (slotIndex position : ℕ) : TimingWheel E :=
  let slot := w.slots slotIndex
  if position = slot.length - 1 then
    { w with slots := Function.update w.slots slotIndex slot.dropLast }
  else
    let slot := Slots.swapPop slot position
    { w with
      slots := Function.update w.slots slotIndex slot
      timerMap :=
        match slot[position]? with
        | some swappedEntry => w.timerMap.insert swappedEntry.id (slotIndex, position)
        | none => w.timerMap }

/-- Whether taking out a timer may make the cached time wrong. -/
def invalidates (cached cancelled : Option Instant) : Bool :=
  match cached, cancelled with
  | some cached, some cancelled => cancelled ≤ cached + Duration.fromMillis 1
  | _, _ => false

def cancelTimer (entryId : TimerEntryId) : Bool × TimingWheel E :=
  match w.timerMap[entryId]? with
  | none => (false, w)
  | some (slotIndex, position) =>
    let w := { w with timerMap := w.timerMap.erase entryId }
    if slotIndex < w.slotCount ∧ position < (w.slots slotIndex).length then
      let cancelledExpiry := (w.slots slotIndex)[position]?.map (·.expiryTime)
      let w := w.swapRemove slotIndex position
      if invalidates w.cachedNextExpiry cancelledExpiry then
        (true, { w with cachedNextExpiry := none })
      else (true, w)
    else (false, w)

/-- Takes entries out of one slot; counts them and says whether the cached time may be wrong. -/
def cancelGroup (slotIndex : ℕ) :
    TimingWheel E → List (TimerEntryId × ℕ) → ℕ × Bool × TimingWheel E
  | w, [] => (0, false, w)
  | w, (entryId, position) :: rest =>
    if position < (w.slots slotIndex).length then
      let stale := invalidates w.cachedNextExpiry
        ((w.slots slotIndex)[position]?.map (·.expiryTime))
      let w := w.swapRemove slotIndex position
      let w := { w with timerMap := w.timerMap.erase entryId }
      let (count, stale', w) := cancelGroup slotIndex w rest
      (count + 1, stale || stale', w)
    else cancelGroup slotIndex w rest

/-- The group of a slot, from the back of the slot to its front. -/
def cancelOrder (found : List (TimerEntryId × ℕ × ℕ)) (slotIndex : ℕ) : List (TimerEntryId × ℕ) :=
  ((found.filter (·.2.1 = slotIndex)).map fun x => (x.1, x.2.2)).insertionSort fun a b => b.2 ≤ a.2

def cancelGroups (found : List (TimerEntryId × ℕ × ℕ)) :
    TimingWheel E → List ℕ → ℕ × Bool × TimingWheel E
  | w, [] => (0, false, w)
  | w, slotIndex :: order =>
    if w.slotCount ≤ slotIndex then cancelGroups found w order
    else
      let (count, stale, w) := cancelGroup slotIndex w (cancelOrder found slotIndex)
      let (count', stale', w) := cancelGroups found w order
      (count + count', stale || stale', w)

/-- The places of those of the identifiers that are in the wheel. -/
def findPlaces (entryIds : List TimerEntryId) : List (TimerEntryId × ℕ × ℕ) :=
  entryIds.filterMap fun id => w.timerMap[id]?.map (id, ·)

/-- Cancels a batch of timers slot by slot, in the order in which the hash map of the groups
yields the slots. -/
def batchCancelTimers (entryIds : List TimerEntryId) (order : List ℕ) : ℕ × TimingWheel E :=
  if entryIds.isEmpty then (0, w)
  else
    let (count, stale, w) := cancelGroups (w.findPlaces entryIds) w order
    if stale then (count, { w with cachedNextExpiry := none }) else (count, w)

end Cancel

section Advance

variable (now : Instant)

/-- Takes the expired entries out of the current slot one by one. The slot is what was passed
over and what is still to come; the position is the length of the first part. -/
def checkSlot (slotIndex : ℕ) :
    List (TimerEntry E) → List (TimerEntry E) → ExtTreeMap TimerEntryId (ℕ × ℕ) →
      List (TimerEntry E) × List (TimerEntry E) × ExtTreeMap TimerEntryId (ℕ × ℕ)
  | passed, [], places => ([], passed, places)
  | passed, entry :: rest, places =>
    if entry.expiryTime ≤ now then
      let places := Slots.reindex TimerEntry.id slotIndex (places.erase entry.id) passed.length rest
      let (expired, slot, places) := checkSlot slotIndex passed rest places
      (entry :: expired, slot, places)
    else checkSlot slotIndex (passed ++ [entry]) rest places

def checkCurrentSlotForExpiredTimers : List (TimerEntry E) × TimingWheel E :=
  let (expired, slot, places) := checkSlot now w.currentSlot [] (w.slots w.currentSlot) w.timerMap
  (expired, { w with slots := Function.update w.slots w.currentSlot slot, timerMap := places })

/-- Returns the expired ones of the entries taken out of a slot and puts the others back. -/
def processEntries : TimingWheel E → List (TimerEntry E) → List (TimerEntry E) × TimingWheel E
  | w, [] => ([], w)
  | w, entry :: rest =>
    let w := { w with timerMap := w.timerMap.erase entry.id }
    if entry.expiryTime ≤ now then
      let (expired, w) := processEntries w rest
      (entry :: expired, w)
    else processEntries (w.pushEntry (w.calculateSlotIndex entry.expiryTime) entry) rest

/-- Moves on to the next slot and empties it. -/
def nextSlot : List (TimerEntry E) × TimingWheel E :=
  let currentSlot := w.currentSlot + 1 &&& w.slotMask
  (w.slots currentSlot,
    { w with
      currentSlot
      currentTime := w.currentTime + w.slotDuration
      slots := Function.update w.slots currentSlot [] })

def advanceSlots : TimingWheel E → ℕ → List (TimerEntry E) × TimingWheel E
  | w, 0 => ([], w)
  | w, n + 1 =>
    let (entries, w) := w.nextSlot
    let (expired, w) := processEntries now w entries
    let (expired', w) := advanceSlots w n
    (expired ++ expired', w)

/-- How many slots the wheel has to move. -/
def slotsToAdvance : ℕ := (now - w.currentTime) / w.slotDuration % u64Size

/-- Advances the wheel and returns the expired timers. If it does not move, the cached time
stays as it is. -/
def advance : List (TimerEntry E) × TimingWheel E :=
  let (expired, w) := w.checkCurrentSlotForExpiredTimers now
  if w.slotsToAdvance now = 0 then (expired, w)
  else
    let (expired', w) := advanceSlots now w (min w.slotCount (w.slotsToAdvance now))
    let expired := expired ++ expired'
    if expired.isEmpty then (expired, w) else (expired, { w with cachedNextExpiry := none })

end Advance

section NextExpiry

/-- The earliest time in a slot. -/
def slotEarliest (slot : List (TimerEntry E)) : Option Instant :=
  slot.foldl (fun c entry => earlier c entry.expiryTime) none

/-- Looks through the slots from an offset on until nothing earlier can follow. -/
def searchEarliest : ℕ → ℕ → Option Instant → Option Instant
  | 0, _, earliestTime => earliestTime
  | n + 1, offset, earliestTime =>
    let slot := w.slots (w.currentSlot + offset &&& w.slotMask)
    match slotEarliest slot with
    | none => searchEarliest n (offset + 1) earliestTime
    | some slotTime =>
      let nextSlotBaseline := w.currentTime + w.slotDuration * (offset % u32Size)
      match earlier earliestTime slotTime with
      | some time =>
        if time ≤ nextSlotBaseline + w.slotDuration then some time
        else searchEarliest n (offset + 1) (some time)
      | none => searchEarliest n (offset + 1) none

/-- The time at which the next timer expires, and the wheel with that time cached. -/
def nextExpiryTime : Option Instant × TimingWheel E :=
  match w.cachedNextExpiry with
  | some cached => (some cached, w)
  | none =>
    if w.timerMap.isEmpty then (none, w)
    else
      let earliestTime := w.searchEarliest w.slotCount 0 none
      (earliestTime, { w with cachedNextExpiry := earliestTime })

end NextExpiry

end TimingWheel

end Kestrel
