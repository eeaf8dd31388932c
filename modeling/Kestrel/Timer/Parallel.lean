import Kestrel.Timer.BatchDispatch

/-! # The hybrid parallel timer system

A batch of expired timers becomes a batch of events for the zero-copy dispatcher. If that takes none
of them, all are handed to the asynchronous dispatcher, which tries to send them on its channels.
-/

namespace Kestrel

open Dispatch

open TimingWheel (TimerEntryId)

structure ProcessedTimerData (E : Type) where
  entryId : TimerEntryId
  connectionId : ConnectionId
  timeoutEvent : E
  expiryTime : Instant
  slotIndex : ℕ
  deriving DecidableEq, Repr

/-- The event for a processed timer. -/
def ProcessedTimerData.event {E : Type} (data : ProcessedTimerData E) : TimerEventData E :=
  .new data.connectionId data.timeoutEvent

/-- Collects the data of the timers; the vector operations on it have no result. -/
def processBatch {E : Type} (timerEntries : List (TimingWheel.TimerEntry (TimerEvent E))) :
    List (ProcessedTimerData E) :=
  timerEntries.mapIdx fun i entry =>
    { entryId := entry.id
      connectionId := entry.event.data.connectionId
      timeoutEvent := entry.event.data.timeoutEvent
      expiryTime := entry.expiryTime
      slotIndex := i }

structure RayonBatchExecutor where
  chunkSize : ℕ
  threadPoolSize : ℕ
  chunkSize_pos : 0 < chunkSize

namespace RayonBatchExecutor

def new (cpuCores : ℕ) : RayonBatchExecutor where
  chunkSize := max 512 (cpuCores * 64)
  threadPoolSize := cpuCores
  chunkSize_pos := Nat.lt_of_lt_of_le (by decide) (le_max_left _ _)

/-- The chunks of a list, all but the last of the given size. -/
def parChunks {α : Type} (r : RayonBatchExecutor) : List α → List (List α)
  | [] => []
  | a :: l => (a :: l).take r.chunkSize :: r.parChunks ((a :: l).drop r.chunkSize)
termination_by l => l.length
decreasing_by
  have hpos := r.chunkSize_pos
  simp only [List.length_drop, List.length_cons]
  omega

/-- Processes the chunks, each by a thread of its own, and joins the results in order. -/
def parallelProcessWithSimdSync {E : Type} (r : RayonBatchExecutor)
    (timerEntries : List (TimingWheel.TimerEntry (TimerEvent E))) : List (ProcessedTimerData E) :=
  (r.parChunks timerEntries).flatMap processBatch

theorem flatten_parChunks {α : Type} (r : RayonBatchExecutor) (l : List α) :
    (r.parChunks l).flatten = l := by
  fun_induction parChunks r l with
  | case1 => rfl
  | case2 a l ih => rw [List.flatten_cons, ih, List.take_append_drop]

end RayonBatchExecutor

/-- A channel for events. Once its receiver is gone nothing can be sent on it. -/
structure EventChannel (E : Type) where
  queue : List (TimerEventData E)
  capacity : ℕ
  receiverDropped : Bool

/-- Sends an event without waiting; `none` where the channel is full or closed. -/
def EventChannel.trySend {E : Type} (c : EventChannel E) (event : TimerEventData E) :
    Option (EventChannel E) :=
  if c.receiverDropped || decide (c.capacity ≤ c.queue.length) then none
  else some { c with queue := c.queue ++ [event] }

/-- The asynchronous dispatcher, with a record of what it has been handed. It drops the receivers of
its channels when it makes them. -/
structure AsyncEventDispatcher (E : Type) (channelCount : ℕ) where
  eventChannels : Fin channelCount → EventChannel E
  roundRobinIndex : ℕ
  handed : List (ProcessedTimerData E)
  receiverDropped : ∀ i, (eventChannels i).receiverDropped = true

namespace AsyncEventDispatcher

variable {E : Type} {m : ℕ}

def new (channelCount : ℕ) : AsyncEventDispatcher E channelCount where
  eventChannels := fun _ => ⟨[], 1024, true⟩
  roundRobinIndex := 0
  handed := []
  receiverDropped := fun _ => rfl

variable [NeZero m]

/-- One task for each event, which tries to send it on the next channel. The tasks are taken in the
order in which they are spawned. -/
def sendAll (channels : Fin m → EventChannel E) (roundRobinIndex : ℕ) :
    List (ProcessedTimerData E) → ℕ × (Fin m → EventChannel E)
  | [] => (0, channels)
  | data :: processedData =>
    let channelIndex := Fin.ofNat m roundRobinIndex
    match (channels channelIndex).trySend data.event with
    | some channel =>
      let (dispatchCount, channels) := sendAll (Function.update channels channelIndex channel)
        (roundRobinIndex + 1) processedData
      (dispatchCount + 1, channels)
    | none => sendAll channels (roundRobinIndex + 1) processedData

theorem sendAll_eq {channels : Fin m → EventChannel E}
    (h : ∀ i, (channels i).receiverDropped = true) (roundRobinIndex : ℕ)
    (processedData : List (ProcessedTimerData E)) :
    sendAll channels roundRobinIndex processedData = (0, channels) := by
  induction processedData generalizing roundRobinIndex with
  | nil => rfl
  | cons data processedData ih =>
    rw [sendAll]
    simp only [EventChannel.trySend, h, Bool.true_or, if_true]
    exact ih _

/-- Tries to send each event and returns how many were sent. -/
def dispatchTimerEvents (d : AsyncEventDispatcher E m)
    (processedData : List (ProcessedTimerData E)) : ℕ × AsyncEventDispatcher E m :=
  let sent := sendAll d.eventChannels d.roundRobinIndex processedData
  (sent.1,
    { eventChannels := sent.2
      roundRobinIndex := d.roundRobinIndex + processedData.length
      handed := d.handed ++ processedData
      receiverDropped := by
        intro i
        have hsent : sent = (0, d.eventChannels) := sendAll_eq d.receiverDropped _ _
        rw [hsent]
        exact d.receiverDropped i })

end AsyncEventDispatcher

variable {E : Type} {m : ℕ}

def AsyncEventDispatcher.queues (d : AsyncEventDispatcher E m) :
    Queues (Fin m) (TimerEventData E) where
  queue i := (d.eventChannels i).queue
  capacity i := (d.eventChannels i).capacity

theorem AsyncEventDispatcher.queues_dispatchTimerEvents [NeZero m] (d : AsyncEventDispatcher E m)
    (processedData : List (ProcessedTimerData E)) :
    (d.dispatchTimerEvents processedData).2.queues = d.queues := by
  rw [queues, dispatchTimerEvents]
  dsimp only
  rw [sendAll_eq d.receiverDropped]
  rfl

inductive OptimalParallelStrategy where
  | simdOnly
  | simdWithRayon
  | fullHybrid
  deriving DecidableEq, Repr

structure DetailedProcessingStats where
  simdOperations : ℕ := 0
  rayonChunksProcessed : ℕ := 0
  asyncDispatches : ℕ := 0
  cacheHits : ℕ := 0
  memoryAllocations : ℕ := 0
  deriving DecidableEq, Repr

structure ProcessingResult where
  processedCount : ℕ
  detailedStats : DetailedProcessingStats
  deriving DecidableEq, Repr

structure HybridParallelTimerSystem (E : Type) (n m : ℕ) where
  rayonExecutor : RayonBatchExecutor
  asyncDispatcher : AsyncEventDispatcher E m
  zeroCopyDispatcher : SmartZeroCopyDispatcher E n
  cpuCores : ℕ

namespace HybridParallelTimerSystem

variable {E : Type} {n m : ℕ}

/-- A new system for a number of cores. -/
def new [Inhabited E] (cpuCores : ℕ) :
    HybridParallelTimerSystem E cpuCores (max cpuCores 4) where
  rayonExecutor := .new cpuCores
  asyncDispatcher := .new _
  zeroCopyDispatcher := .new 1024 cpuCores 1000
  cpuCores := cpuCores

instance neZero_channelCount (cpuCores : ℕ) : NeZero (max cpuCores 4) :=
  ⟨Nat.ne_of_gt (lt_max_of_lt_right (by decide))⟩

/-- Takes some of the events out of the slots again and gives them back to the pool. -/
def recycle (dispatchCount : ℕ) (d : SmartZeroCopyDispatcher E n) : SmartZeroCopyDispatcher E n :=
  if 0 < dispatchCount then
    let (consumedEvents, d) := d.batchConsumeEvents (dispatchCount / 2)
    if consumedEvents.isEmpty then d else d.batchReturnToPool consumedEvents
  else d

variable (s : HybridParallelTimerSystem E n m)

def chooseOptimalStrategy (batchSize : ℕ) : OptimalParallelStrategy :=
  if batchSize ≤ 1023 then .simdOnly
  else if 2 ≤ s.cpuCores then .fullHybrid
  else .simdOnly

variable [NeZero n] [NeZero m]

/-- If the zero-copy dispatcher has taken nothing, the asynchronous one is handed everything. -/
def fallBack (dispatchCount : ℕ) (processedData : List (ProcessedTimerData E)) :
    ℕ × AsyncEventDispatcher E m :=
  if dispatchCount = 0 then s.asyncDispatcher.dispatchTimerEvents processedData
  else (dispatchCount, s.asyncDispatcher)

def processSimdOnlyOptimized (timerEntries : List (TimingWheel.TimerEntry (TimerEvent E))) :
    Option (ProcessingResult × HybridParallelTimerSystem E n m) := do
  let processedData := processBatch timerEntries
  let eventRequests := processedData.map fun data => (data.connectionId, data.timeoutEvent)
  let (dispatchCount, zeroCopyDispatcher) ←
    s.zeroCopyDispatcher.createAndDispatchEvents eventRequests
  let zeroCopyDispatcher := recycle dispatchCount zeroCopyDispatcher
  let (finalDispatchCount, asyncDispatcher) := s.fallBack dispatchCount processedData
  return (
    { processedCount := timerEntries.length
      detailedStats :=
        { simdOperations := timerEntries.length / 8 + 1
          asyncDispatches := finalDispatchCount
          memoryAllocations := 1 } },
    { s with zeroCopyDispatcher, asyncDispatcher })

def processSimdWithRayonOptimized (timerEntries : List (TimingWheel.TimerEntry (TimerEvent E))) :
    Option (ProcessingResult × HybridParallelTimerSystem E n m) := do
  let processedData := s.rayonExecutor.parallelProcessWithSimdSync timerEntries
  let events := processedData.map ProcessedTimerData.event
  let (dispatchCount, zeroCopyDispatcher) := s.zeroCopyDispatcher.batchDispatchEvents events
  let (finalDispatchCount, asyncDispatcher) := s.fallBack dispatchCount processedData
  return (
    { processedCount := processedData.length
      detailedStats :=
        { simdOperations := processedData.length / 8 + 1
          rayonChunksProcessed := (processedData.length + 511) / 512
          asyncDispatches := finalDispatchCount
          memoryAllocations := 1 } },
    { s with zeroCopyDispatcher, asyncDispatcher })

/-- A large batch is processed on a thread for blocking work, with the same result. -/
def processFullHybridOptimized (timerEntries : List (TimingWheel.TimerEntry (TimerEvent E))) :
    Option (ProcessingResult × HybridParallelTimerSystem E n m) := do
  let batchSize := timerEntries.length
  let processedData := s.rayonExecutor.parallelProcessWithSimdSync timerEntries
  let eventRequests := processedData.map fun data => (data.connectionId, data.timeoutEvent)
  let (dispatchCount, zeroCopyDispatcher) ←
    s.zeroCopyDispatcher.createAndDispatchEvents eventRequests
  let zeroCopyDispatcher := recycle dispatchCount zeroCopyDispatcher
  let (totalDispatches, asyncDispatcher) := s.fallBack dispatchCount processedData
  return (
    { processedCount := processedData.length
      detailedStats :=
        { simdOperations := processedData.length / 8 + 1
          rayonChunksProcessed := (processedData.length + 511) / 512
          asyncDispatches := totalDispatches
          memoryAllocations := if batchSize ≤ 4095 then 1 else 2 } },
    { s with zeroCopyDispatcher, asyncDispatcher })

/-- Processes a batch with a strategy; `none` where an index is out of bounds. -/
def process : OptimalParallelStrategy → List (TimingWheel.TimerEntry (TimerEvent E)) →
    Option (ProcessingResult × HybridParallelTimerSystem E n m)
  | .simdOnly => s.processSimdOnlyOptimized
  | .simdWithRayon => s.processSimdWithRayonOptimized
  | .fullHybrid => s.processFullHybridOptimized

section Accounting

def events (timerEntries : List (TimingWheel.TimerEntry (TimerEvent E))) :
    List (TimerEventData E) :=
  timerEntries.map fun entry => entry.event.data

/-- The zero-copy dispatcher accounts for every event of the batch, and exactly the rejected ones
are handed to the asynchronous dispatcher. -/
def HandsOverRest (strategy : OptimalParallelStrategy)
    (timerEntries : List (TimingWheel.TimerEntry (TimerEvent E))) : Prop :=
  ∃ r result s', s.zeroCopyDispatcher.Accounted (events timerEntries) r ∧
    s.process strategy timerEntries = some (result, s') ∧
      s'.asyncDispatcher.handed.map ProcessedTimerData.event =
        s.asyncDispatcher.handed.map ProcessedTimerData.event ++ r.refused

/-- Besides, each event that is handed over is sent on one channel, so that every event of the batch
is dispatched once. -/
def AccountsForEveryEvent (strategy : OptimalParallelStrategy)
    (timerEntries : List (TimingWheel.TimerEntry (TimerEvent E))) : Prop :=
  ∃ r result s', s.zeroCopyDispatcher.Accounted (events timerEntries) r ∧
    s.process strategy timerEntries = some (result, s') ∧
      s'.asyncDispatcher.handed.map ProcessedTimerData.event =
        s.asyncDispatcher.handed.map ProcessedTimerData.event ++ r.refused ∧
      ∃ sent : Routes (Fin m) (TimerEventData E), sent.map Prod.fst = r.refused ∧
        sent.refused = [] ∧ s'.asyncDispatcher.queues = s.asyncDispatcher.queues.deliver sent

variable {s}

theorem map_event_processBatch (timerEntries : List (TimingWheel.TimerEntry (TimerEvent E))) :
    (processBatch timerEntries).map ProcessedTimerData.event = events timerEntries := by
  refine List.ext_getElem? fun i => ?_
  rw [processBatch, events, List.getElem?_map, List.getElem?_mapIdx, Option.map_map,
    List.getElem?_map]
  rfl

theorem map_event_parallelProcessWithSimdSync (r : RayonBatchExecutor)
    (timerEntries : List (TimingWheel.TimerEntry (TimerEvent E))) :
    (r.parallelProcessWithSimdSync timerEntries).map ProcessedTimerData.event =
      events timerEntries := by
  rw [RayonBatchExecutor.parallelProcessWithSimdSync, List.map_flatMap]
  simp only [map_event_processBatch, events]
  rw [List.flatMap_def, ← List.map_flatten, RayonBatchExecutor.flatten_parChunks]

omit [NeZero m] in
theorem createAndDispatchEvents_of_map_event (d : SmartZeroCopyDispatcher E n)
    {processedData : List (ProcessedTimerData E)} {events : List (TimerEventData E)}
    (h : processedData.map ProcessedTimerData.event = events) :
    ∃ d', d.createAndDispatchEvents (processedData.map fun data =>
      (data.connectionId, data.timeoutEvent)) = some ((d.batchDispatchEvents events).1, d') := by
  obtain ⟨d', hd', -⟩ := d.createAndDispatchEvents_eq
    (processedData.map fun data => (data.connectionId, data.timeoutEvent))
  rw [List.map_map] at hd'
  subst h
  exact ⟨d', hd'⟩

/-- Whatever the strategy, the batch goes to the zero-copy dispatcher, and its count alone decides
about the fallback. -/
theorem exists_process (s : HybridParallelTimerSystem E n m) (strategy : OptimalParallelStrategy)
    (timerEntries : List (TimingWheel.TimerEntry (TimerEvent E))) :
    ∃ processedData result s', processedData.map ProcessedTimerData.event = events timerEntries ∧
      s.process strategy timerEntries = some (result, s') ∧
        s'.asyncDispatcher = (s.fallBack
          (s.zeroCopyDispatcher.batchDispatchEvents (events timerEntries)).1 processedData).2 := by
  have hparallel := map_event_parallelProcessWithSimdSync s.rayonExecutor timerEntries
  cases strategy with
  | simdOnly =>
    have hevents := map_event_processBatch timerEntries
    obtain ⟨d, hd⟩ := createAndDispatchEvents_of_map_event s.zeroCopyDispatcher hevents
    rw [process, processSimdOnlyOptimized]
    simp only [hd]
    exact ⟨_, _, _, hevents, rfl, rfl⟩
  | simdWithRayon =>
    rw [process, processSimdWithRayonOptimized]
    simp only [hparallel]
    exact ⟨_, _, _, hparallel, rfl, rfl⟩
  | fullHybrid =>
    obtain ⟨d, hd⟩ := createAndDispatchEvents_of_map_event s.zeroCopyDispatcher hparallel
    rw [process, processFullHybridOptimized]
    simp only [hd]
    exact ⟨_, _, _, hparallel, rfl, rfl⟩

/-- The asynchronous dispatcher is handed the whole batch or nothing, and sends nothing. -/
theorem process_spec (s : HybridParallelTimerSystem E n m) (strategy : OptimalParallelStrategy)
    (timerEntries : List (TimingWheel.TimerEntry (TimerEvent E))) :
    ∃ result s', s.process strategy timerEntries = some (result, s') ∧
      s'.asyncDispatcher.handed.map ProcessedTimerData.event =
        s.asyncDispatcher.handed.map ProcessedTimerData.event ++
          (if (s.zeroCopyDispatcher.batchDispatchEvents (events timerEntries)).1 = 0
            then events timerEntries else []) ∧
      s'.asyncDispatcher.queues = s.asyncDispatcher.queues := by
  obtain ⟨processedData, result, s', hevents, hprocess, hasync⟩ :=
    s.exists_process strategy timerEntries
  refine ⟨result, s', hprocess, ?_⟩
  rw [hasync, fallBack]
  split
  · refine ⟨?_, AsyncEventDispatcher.queues_dispatchTimerEvents _ _⟩
    rw [← hevents]
    exact List.map_append
  · exact ⟨(List.append_nil _).symm, rfl⟩

/-- What is rejected is handed over exactly if the count tells that. -/
theorem handsOverRest_iff_refused {strategy : OptimalParallelStrategy}
    {timerEntries : List (TimingWheel.TimerEntry (TimerEvent E))} :
    s.HandsOverRest strategy timerEntries ↔
      ∃ r, s.zeroCopyDispatcher.Accounted (events timerEntries) r ∧
        r.refused = if (s.zeroCopyDispatcher.batchDispatchEvents (events timerEntries)).1 = 0
          then events timerEntries else [] := by
  obtain ⟨result, s', hprocess, hhanded, -⟩ := s.process_spec strategy timerEntries
  constructor
  · rintro ⟨r, result', s'', hr, hprocess', hhanded'⟩
    obtain ⟨rfl, rfl⟩ := Prod.ext_iff.mp (Option.some.inj (hprocess.symm.trans hprocess'))
    exact ⟨r, hr, List.append_cancel_left (hhanded'.symm.trans hhanded)⟩
  · rintro ⟨r, hr, hrefused⟩
    exact ⟨r, result, s', hr, hprocess, by rw [hhanded, hrefused]⟩

/-- Nothing is ever sent, so that only a batch without rejections is accounted for. -/
theorem accountsForEveryEvent_iff_hasRoom {strategy : OptimalParallelStrategy}
    {timerEntries : List (TimingWheel.TimerEntry (TimerEvent E))} :
    s.AccountsForEveryEvent strategy timerEntries ↔
      s.zeroCopyDispatcher.HasRoom (events timerEntries) := by
  obtain ⟨result, s', hprocess, hhanded, hqueues⟩ := s.process_spec strategy timerEntries
  constructor
  · rintro ⟨r, result', s'', hr, hprocess', -, sent, hfst, hsent, hqueues'⟩
    obtain ⟨rfl, rfl⟩ := Prod.ext_iff.mp (Option.some.inj (hprocess.symm.trans hprocess'))
    have haccepted : sent.accepted = 0 :=
      Queues.deliver_eq_self_iff.mp (hqueues'.symm.trans hqueues)
    refine hr.refused_eq_nil_iff.mp ?_
    rw [← hfst, ← Routes.refused_of_accepted_eq_zero haccepted, hsent]
  · intro hroom
    obtain ⟨r, hr⟩ := SmartZeroCopyDispatcher.exists_accounted_iff.mpr
      (SmartZeroCopyDispatcher.levels_of_hasRoom hroom)
    have hnil := hr.refused_eq_nil_iff.mpr hroom
    refine ⟨r, result, s', hr, hprocess, ?_, [], hnil.symm, rfl,
      hqueues.trans Queues.deliver_nil.symm⟩
    rw [hhanded]
    split
    · rename_i hcount
      rw [hr.refused_of_count_eq_zero hcount]
    · rw [hnil]

/-- Which batches are accounted for: by the zero-copy dispatcher alone, those that it spreads level;
with the fallback, those for which there is room or no room at all; and of these every event is
dispatched only if there is room. -/
theorem accountsForEveryEvent_iff (s : HybridParallelTimerSystem E n m)
    (strategy : OptimalParallelStrategy)
    (timerEntries : List (TimingWheel.TimerEntry (TimerEvent E))) :
    ((∃ r, s.zeroCopyDispatcher.Accounted (events timerEntries) r) ↔
        s.zeroCopyDispatcher.Levels (events timerEntries)) ∧
      (s.HandsOverRest strategy timerEntries ↔
        s.zeroCopyDispatcher.HasRoom (events timerEntries) ∨
          (SmartZeroCopyDispatcher.queues s.zeroCopyDispatcher.eventSlots).Full) ∧
      (s.AccountsForEveryEvent strategy timerEntries ↔
        s.zeroCopyDispatcher.HasRoom (events timerEntries)) :=
  ⟨SmartZeroCopyDispatcher.exists_accounted_iff,
    handsOverRest_iff_refused.trans SmartZeroCopyDispatcher.exists_accounted_rest_iff,
    accountsForEveryEvent_iff_hasRoom⟩

def sampleTimers (count : ℕ) : List (TimingWheel.TimerEntry (TimerEvent ℕ)) :=
  (List.range count).map fun i => ⟨i, 100, ⟨i, ⟨7, i⟩, i⟩⟩

/-- Batches of the given sizes, one after the other, in a new system on two cores. -/
def sampleSystem (counts : List ℕ) : Option (HybridParallelTimerSystem ℕ 2 (max 2 4)) :=
  counts.foldlM (fun (s : HybridParallelTimerSystem ℕ 2 (max 2 4)) count =>
    (s.process .simdOnly (sampleTimers count)).map Prod.snd) (new 2)

/-- Beside what small batches have left in both slots there is room for a batch of sixty-four. -/
theorem accountsForEveryEvent_new : ∃ s, sampleSystem [1, 1, 1, 1, 1] = some s ∧
    (SmartZeroCopyDispatcher.queues s.zeroCopyDispatcher.eventSlots).room 0 = 1021 ∧
      (SmartZeroCopyDispatcher.queues s.zeroCopyDispatcher.eventSlots).room 1 = 1022 ∧
        s.AccountsForEveryEvent .simdOnly (sampleTimers 64) := by
  obtain ⟨s, hs, hp⟩ := Option.map_eq_some_iff.mp (show
    (sampleSystem [1, 1, 1, 1, 1]).map (fun s => decide (
      (SmartZeroCopyDispatcher.queues s.zeroCopyDispatcher.eventSlots).room 0 = 1021 ∧
        (SmartZeroCopyDispatcher.queues s.zeroCopyDispatcher.eventSlots).room 1 = 1022 ∧
        s.zeroCopyDispatcher.batchThreshold = 32 ∧
        s.zeroCopyDispatcher.bestDispatcher = 1)) = some true by decide +kernel)
  obtain ⟨hfirst, hsecond, hthreshold, hbest⟩ := of_decide_eq_true hp
  have hlength : (events (sampleTimers 64)).length = 64 := by simp [events, sampleTimers]
  refine ⟨s, hs, hfirst, hsecond, (accountsForEveryEvent_iff _ _ _).2.2.mpr ?_⟩
  refine (SmartZeroCopyDispatcher.hasRoom_iff_of_le ?_ ?_).mpr ?_
  · rw [hlength, hthreshold]
    decide
  · rw [hlength]
  · rw [hlength, hbest, hsecond]
    decide

/-- Of two new slots one gets the whole batch, and stays with what fits. -/
theorem not_accounted_new {events : List (TimerEventData ℕ)} (h : events.length = 2048) :
    ¬ ∃ r, (.new 1024 2 1000 : SmartZeroCopyDispatcher ℕ 2).Accounted events r := by
  rw [SmartZeroCopyDispatcher.exists_accounted_iff]
  intro hlevels
  have hlarge : 32 ≤ events.length := by omega
  have hchunk : events.length ≤ events.length / 2 * 2 := by omega
  rcases hlevels.hasRoom_or hlarge hchunk with hroom | hfull
  · rw [SmartZeroCopyDispatcher.hasRoom_iff_of_le hlarge hchunk,
      SmartZeroCopyDispatcher.room_new] at hroom
    omega
  · obtain ⟨i, hi⟩ := exists_ne (.new 1024 2 1000 : SmartZeroCopyDispatcher ℕ 2).bestDispatcher
    have hother := hfull i hi
    rw [SmartZeroCopyDispatcher.room_new] at hother
    omega

/-- On one core there is one slot, and of a batch that it cannot hold the rest is handed to
nobody. -/
theorem not_handsOverRest_new {timerEntries : List (TimingWheel.TimerEntry (TimerEvent ℕ))}
    (h : 1024 < timerEntries.length) :
    ¬ (new 1 : HybridParallelTimerSystem ℕ 1 _).HandsOverRest .simdOnly timerEntries := by
  have hlength : (events timerEntries).length = timerEntries.length := List.length_map _
  have hlarge : 32 ≤ (events timerEntries).length := by omega
  have hchunk : (events timerEntries).length ≤ (events timerEntries).length / 1 * 2 := by omega
  rw [handsOverRest_iff_refused, SmartZeroCopyDispatcher.exists_accounted_rest_iff,
    SmartZeroCopyDispatcher.hasRoom_iff_of_le hlarge hchunk, new,
    SmartZeroCopyDispatcher.room_new]
  rintro (hroom | hfull)
  · omega
  · have hfirst := hfull 0
    rw [SmartZeroCopyDispatcher.room_new] at hfirst
    omega

/-- Two new slots drop half of a batch that they could hold, and on one core a batch that is too
large by one event is lost in part. -/
theorem rest_of_large_batch_lost :
    (¬ ∃ r, (.new 1024 2 1000 :
        SmartZeroCopyDispatcher ℕ 2).Accounted (List.replicate 2048 ⟨7, 0⟩) r) ∧
      let s : HybridParallelTimerSystem ℕ 1 _ := new 1
      let timerEntries : List (TimingWheel.TimerEntry (TimerEvent ℕ)) :=
        List.replicate 1025 ⟨0, 100, ⟨0, ⟨7, 0⟩, 0⟩⟩
      s.chooseOptimalStrategy 1025 = .simdOnly ∧
        ¬ s.HandsOverRest .simdOnly timerEntries ∧
          ¬ s.AccountsForEveryEvent .simdOnly timerEntries := by
  have hrest : ¬ (new 1 : HybridParallelTimerSystem ℕ 1 _).HandsOverRest .simdOnly
      (List.replicate 1025 ⟨0, 100, ⟨0, ⟨7, 0⟩, 0⟩⟩) := by
    apply not_handsOverRest_new
    rw [List.length_replicate]
    decide
  refine ⟨not_accounted_new List.length_replicate, rfl, hrest, ?_⟩
  rintro ⟨r, result, s', hr, hprocess, hhanded, -⟩
  exact hrest ⟨r, result, s', hr, hprocess, hhanded⟩

end Accounting

end HybridParallelTimerSystem

end Kestrel
