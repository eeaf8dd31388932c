import Kestrel.Lib.Groups
import Kestrel.Lib.Transition
import Kestrel.Timer.Placement

/-! # The timer task

One task holds the timers of all connections in a timing wheel. It keeps for each timer the
connection that it belongs to, and for each connection the set of its timers.
-/

namespace Kestrel

open Std (ExtTreeMap)

open TimingWheel (TimerEntryId IsOrder)

abbrev TimerEventId := ℕ
abbrev ConnectionId := ℕ

structure TimerEventData (E : Type) where
  connectionId : ConnectionId
  timeoutEvent : E
  deriving DecidableEq, Repr

/-- The channel to the one who registered the timer is a number. -/
structure TimerEvent (E : Type) where
  id : TimerEventId
  data : TimerEventData E
  callbackTx : ℕ
  deriving DecidableEq, Repr

structure TimerRegistration (E : Type) where
  connectionId : ConnectionId
  delay : Duration
  timeoutEvent : E
  callbackTx : ℕ
  deriving DecidableEq, Repr

structure TimerHandle where
  entryId : TimerEntryId
  deriving DecidableEq, Repr

inductive TimerError where
  | taskShutdown
  | channelError (message : String)
  | timerNotFound
  deriving DecidableEq, Repr

/-- What became of each request of a batch; failures come with the position of the request. -/
structure BatchTimerResult (α : Type) where
  successes : List α
  failures : List (ℕ × TimerError)
  deriving DecidableEq, Repr

namespace BatchTimerResult

def new {α : Type} : BatchTimerResult α := ⟨[], []⟩

def successCount {α : Type} (result : BatchTimerResult α) : ℕ := result.successes.length

end BatchTimerResult

namespace TimerRegistration

variable {E : Type}

def event (registration : TimerRegistration E) (id : TimerEventId) : TimerEvent E :=
  ⟨id, ⟨registration.connectionId, registration.timeoutEvent⟩, registration.callbackTx⟩

/-- The timers of a batch, with consecutive event identifiers. -/
def batchTimers (startId : TimerEventId) (registrations : List (TimerRegistration E)) :
    List (Duration × TimerEvent E) :=
  registrations.zipIdx.map fun x => (x.1.delay, x.1.event (startId + x.2))

end TimerRegistration

structure GlobalTimerTask (E : Type) where
  timingWheel : TimingWheel (TimerEvent E)
  connectionTimers : ExtTreeMap ConnectionId (Finset TimerEntryId)
  entryToConnection : ExtTreeMap TimerEntryId ConnectionId
  nextEventId : TimerEventId
  processedTimers : ℕ
  cancelledTimers : ℕ

namespace GlobalTimerTask

variable {E : Type} (task : GlobalTimerTask E)

/-- A new task; its wheel has 512 slots of 10 ms. -/
def new (now : Instant) : Option (GlobalTimerTask E) :=
  (TimingWheel.new 512 (Duration.fromMillis 10) now).map fun timingWheel =>
    ⟨timingWheel, ∅, ∅, 1, 0, 0⟩

/-- Records that a timer belongs to a connection. -/
def associate (entryId : TimerEntryId) (connectionId : ConnectionId) : GlobalTimerTask E :=
  { task with
    connectionTimers := Groups.join task.connectionTimers connectionId entryId
    entryToConnection := task.entryToConnection.insert entryId connectionId }

def registerTimer (registration : TimerRegistration E) : TimerHandle × GlobalTimerTask E :=
  let eventId := task.nextEventId
  let task := { task with nextEventId := task.nextEventId + 1 }
  let (entryId, timingWheel) :=
    task.timingWheel.addTimer registration.delay (registration.event eventId)
  (⟨entryId⟩, { task with timingWheel }.associate entryId registration.connectionId)

/-- The timers that a batch of registrations puts into the wheel. -/
def batchTimers (registrations : List (TimerRegistration E)) : List (Duration × TimerEvent E) :=
  TimerRegistration.batchTimers task.nextEventId registrations

/-- Registers a batch; the slots come in the order in which the wheel's hash map yields them. -/
def batchRegisterTimers (registrations : List (TimerRegistration E)) (order : List ℕ) :
    BatchTimerResult TimerHandle × GlobalTimerTask E :=
  if registrations.isEmpty then (.new, task)
  else
    let (entryIds, timingWheel) :=
      task.timingWheel.batchAddTimers (task.batchTimers registrations) order
    let task := { task with timingWheel, nextEventId := task.nextEventId + registrations.length }
    (⟨entryIds.map TimerHandle.mk, []⟩,
      (entryIds.zip registrations).foldl (fun task x => task.associate x.1 x.2.connectionId) task)

def cancelTimer (entryId : TimerEntryId) : Bool × GlobalTimerTask E :=
  let (cancelled, timingWheel) := task.timingWheel.cancelTimer entryId
  let task := { task with timingWheel }
  if cancelled then
    let task := match task.entryToConnection[entryId]? with
      | some connectionId =>
        { task with
          entryToConnection := task.entryToConnection.erase entryId
          connectionTimers := Groups.leave task.connectionTimers connectionId [entryId] }
      | none => task
    (true, { task with cancelledTimers := task.cancelledTimers + 1 })
  else (false, task)

/-- Takes the timers of a batch out of the reverse mapping: those that were there count as
cancelled, with their connections, and the others have failed. -/
def collectCancelled : ℕ → List TimerEntryId → ExtTreeMap TimerEntryId ConnectionId →
    BatchTimerResult Bool × List (TimerEntryId × ConnectionId) ×
      ExtTreeMap TimerEntryId ConnectionId
  | _, [], owners => (.new, [], owners)
  | index, entryId :: entryIds, owners =>
    match owners[entryId]? with
    | some connectionId =>
      let (result, removed, owners) :=
        collectCancelled (index + 1) entryIds (owners.erase entryId)
      ({ result with successes := true :: result.successes },
        (entryId, connectionId) :: removed, owners)
    | none =>
      let (result, removed, owners) := collectCancelled (index + 1) entryIds owners
      ({ result with failures := (index, .timerNotFound) :: result.failures }, removed, owners)

/-- Cancels a batch; slots and connections come in the order in which hash maps yield them. -/
def batchCancelTimers (entryIds : List TimerEntryId) (slotOrder : List ℕ)
    (order : List ConnectionId) : BatchTimerResult Bool × GlobalTimerTask E :=
  if entryIds.isEmpty then (.new, task)
  else
    let timingWheel := (task.timingWheel.batchCancelTimers entryIds slotOrder).2
    let (result, removed, entryToConnection) := collectCancelled 0 entryIds task.entryToConnection
    (result,
      { task with
        timingWheel, entryToConnection
        connectionTimers := Groups.leaveAll task.connectionTimers removed order
        cancelledTimers := task.cancelledTimers + result.successCount })

/-- Cancels the timers of a list that are in the wheel, and counts them. -/
def cancelEach : GlobalTimerTask E → List TimerEntryId → ℕ × GlobalTimerTask E
  | task, [] => (0, task)
  | task, entryId :: entryIds =>
    let (cancelled, timingWheel) := task.timingWheel.cancelTimer entryId
    let task := { task with timingWheel }
    if cancelled then
      let (count, task) := cancelEach
        { task with
          entryToConnection := task.entryToConnection.erase entryId
          cancelledTimers := task.cancelledTimers + 1 } entryIds
      (count + 1, task)
    else cancelEach task entryIds

/-- Clears the timers of a connection, in the order in which the hash set yields them. -/
def clearConnectionTimers (connectionId : ConnectionId) (order : List TimerEntryId) :
    ℕ × GlobalTimerTask E :=
  if task.connectionTimers.contains connectionId then
    cancelEach { task with connectionTimers := task.connectionTimers.erase connectionId } order
  else (0, task)

/-- The expired timers that have an entry in the reverse mapping, with their connections. -/
def expiredByConnection (expired : List (TimingWheel.TimerEntry (TimerEvent E))) :
    List (TimerEntryId × ConnectionId) :=
  expired.filterMap fun entry => task.entryToConnection[entry.id]?.map (entry.id, ·)

/-- Advances the wheel, forgets the expired timers and sends their events, each on its channel. -/
def advanceTimingWheel (now : Instant) (order : List ConnectionId) :
    List (ℕ × TimerEventData E) × GlobalTimerTask E :=
  let (expired, timingWheel) := task.timingWheel.advance now
  let task := { task with timingWheel }
  if expired.isEmpty then ([], task)
  else
    (expired.map fun entry => (entry.event.callbackTx, entry.event.data),
      { task with
        entryToConnection :=
          SortedMap.eraseAll task.entryToConnection (expired.map TimingWheel.TimerEntry.id)
        connectionTimers :=
          Groups.leaveAll task.connectionTimers (task.expiredByConnection expired) order
        processedTimers := task.processedTimers + expired.length })

/-- When the task wakes up by itself. -/
def getNextWakeupTime (now : Instant) : Instant × GlobalTimerTask E :=
  let (nextExpiry, timingWheel) := task.timingWheel.nextExpiryTime
  let task := { task with timingWheel }
  match nextExpiry with
  | some expiry =>
    if expiry ≤ now + Duration.fromMillis 5 then (now + Duration.fromMillis 5, task)
    else (expiry, task)
  | none => (now + Duration.fromSecs 1, task)

end GlobalTimerTask

/-- What the task is asked to do, with the time at which it looks at the clock. -/
inductive TaskOp (E : Type) where
  | registerTimer (now : Instant) (registration : TimerRegistration E)
  | batchRegisterTimers (now : Instant) (registrations : List (TimerRegistration E))
      (order : List ℕ)
  | cancelTimer (entryId : TimerEntryId)
  | batchCancelTimers (entryIds : List TimerEntryId) (slotOrder : List ℕ)
      (order : List ConnectionId)
  | clearConnectionTimers (connectionId : ConnectionId) (order : List TimerEntryId)
  | advanceTimingWheel (now : Instant) (order : List ConnectionId)
  | getNextWakeupTime (now : Instant)

/-- A timer that was registered at some time. -/
structure Registered where
  entryId : TimerEntryId
  time : Instant
  delay : Duration
  deriving DecidableEq, Repr

/-- A task with the time, the timers that were registered, those that were returned as expired and
when, the number of cancellations the task has reported and the number of timers that left the
wheel when something was cancelled. -/
structure TaskRun (E : Type) where
  task : GlobalTimerTask E
  now : Instant
  registered : List Registered
  expired : List (TimerEntryId × Instant)
  reported : ℕ
  cancelled : ℕ

namespace TaskRun

variable {E : Type} (r : TaskRun E)

/-- A cancellation of any kind, with the number of timers it reports. -/
def afterCancel (reported : ℕ) (task : GlobalTimerTask E) : TaskRun E :=
  { r with
    task
    reported := r.reported + reported
    cancelled := r.cancelled + (r.task.timingWheel.live.card - task.timingWheel.live.card) }

def apply : TaskOp E → TaskRun E
  | .registerTimer now registration =>
    let (handle, task) := r.task.registerTimer registration
    { r with
      task, now
      registered := r.registered ++ [⟨handle.entryId, now, registration.delay⟩] }
  | .batchRegisterTimers now registrations order =>
    let (result, task) := r.task.batchRegisterTimers registrations order
    { r with
      task, now
      registered := r.registered ++ (result.successes.zip registrations).map fun x =>
        ⟨x.1.entryId, now, x.2.delay⟩ }
  | .cancelTimer entryId =>
    let (cancelled, task) := r.task.cancelTimer entryId
    r.afterCancel (if cancelled then 1 else 0) task
  | .batchCancelTimers entryIds slotOrder order =>
    let (result, task) := r.task.batchCancelTimers entryIds slotOrder order
    r.afterCancel result.successCount task
  | .clearConnectionTimers connectionId order =>
    let (count, task) := r.task.clearConnectionTimers connectionId order
    r.afterCancel count task
  | .advanceTimingWheel now order =>
    { r with
      task := (r.task.advanceTimingWheel now order).2
      now
      expired := r.expired ++ (r.task.timingWheel.advance now).1.map fun entry => (entry.id, now) }
  | .getNextWakeupTime now => { r with task := (r.task.getNextWakeupTime now).2, now }

/-- The clock does not go back, and hash maps and sets are gone through in some order. -/
def Admissible : TaskOp E → Prop
  | .registerTimer now _ | .getNextWakeupTime now => r.now ≤ now
  | .batchRegisterTimers now registrations order => r.now ≤ now ∧
      IsOrder order ((r.task.timingWheel.batchEntries
        (r.task.batchTimers registrations)).map (·.1))
  | .cancelTimer _ => True
  | .batchCancelTimers entryIds slotOrder order =>
      IsOrder slotOrder ((r.task.timingWheel.findPlaces entryIds).map (·.2.1)) ∧
        IsOrder order ((SortedMap.takeAll r.task.entryToConnection entryIds).1.map (·.2))
  | .clearConnectionTimers connectionId order =>
      ↑order = (Groups.members r.task.connectionTimers connectionId).val
  | .advanceTimingWheel now order => r.now ≤ now ∧
      IsOrder order
        ((r.task.expiredByConnection (r.task.timingWheel.advance now).1).map (·.2))

instance : DecidablePred r.Admissible
  | .registerTimer .. | .getNextWakeupTime _ => inferInstanceAs (Decidable (_ ≤ _))
  | .batchRegisterTimers .. | .batchCancelTimers .. | .advanceTimingWheel .. =>
    inferInstanceAs (Decidable (_ ∧ _))
  | .cancelTimer _ => .isTrue trivial
  | .clearConnectionTimers .. => inferInstanceAs (Decidable (_ = _))

def next (op : TaskOp E) : Option (TaskRun E) := if r.Admissible op then some (r.apply op) else none

def system (E : Type) : TransitionSystem (TaskRun E) (TaskOp E) :=
  .ofNext (fun r => ∃ now task, GlobalTimerTask.new now = some task ∧ r = ⟨task, now, [], [], 0, 0⟩)
    next

def sampleTask : TaskRun Unit := ⟨(GlobalTimerTask.new 0).get rfl, 0, [], [], 0, 0⟩

theorem sampleTask_init : (system Unit).init sampleTask := ⟨0, _, rfl, rfl⟩

end TaskRun

end Kestrel
