import Kestrel.Config
import Mathlib.Logic.Function.Basic

/-! # Timers

An endpoint registers timers with a global timer task, which puts an event into the endpoint's
queue when a timer fires. The endpoint drains the queue when it polls.
-/

namespace Kestrel

inductive TimeoutEvent where
  | idleTimeout
  | pathValidationTimeout
  | retransmissionTimeout
  | connectionTimeout
  deriving DecidableEq, Repr

/-- A timer the global task holds for this connection. -/
structure TimerEntry where
  id : ℕ
  event : TimeoutEvent
  expiry : Instant
  deriving DecidableEq, Repr

/-- The connection's timers: the handles it keeps, the fired events it has not yet read, and
what the global task holds for it. A replaced timer is cancelled later, on its own. -/
structure TimerManager where
  activeTimers : TimeoutEvent → Option ℕ
  timeoutRx : List TimeoutEvent
  registered : List TimerEntry
  pendingCancels : List ℕ
  nextId : ℕ

namespace TimerManager

variable (m : TimerManager)

def new : TimerManager := ⟨fun _ => none, [], [], [], 0⟩

/-- Drains the queue of fired events. -/
def checkTimerEvents : List TimeoutEvent × TimerManager :=
  (m.timeoutRx,
    { m with
      timeoutRx := []
      activeTimers := fun ev => if ev ∈ m.timeoutRx then none else m.activeTimers ev })

/-- Registers a timer that counts from the time of the timer task. -/
def registerTimer (event : TimeoutEvent) (delay : Duration) (wheelTime : Instant) :
    TimerManager :=
  { m with
    activeTimers := Function.update m.activeTimers event (some m.nextId)
    registered := m.registered ++ [⟨m.nextId, event, wheelTime + delay⟩]
    pendingCancels := m.pendingCancels ++ (m.activeTimers event).toList
    nextId := m.nextId + 1 }

/-- Cancels the timer of a kind and waits for the timer task to drop it. -/
def cancelTimer (event : TimeoutEvent) : TimerManager :=
  match m.activeTimers event with
  | some id =>
    { m with
      activeTimers := Function.update m.activeTimers event none
      registered := m.registered.filter fun t => t.id ≠ id }
  | none => m

/-- The timer task drops a timer that was replaced. -/
def dropReplaced (id : ℕ) : TimerManager :=
  if id ∈ m.pendingCancels then
    { m with
      pendingCancels := m.pendingCancels.erase id
      registered := m.registered.filter fun t => t.id ≠ id }
  else m

/-- The timer task fires a timer that has expired; how long after that it does is the timing
wheel's matter. -/
def fire (id : ℕ) (now : Instant) : TimerManager :=
  match m.registered.find? fun t => t.id = id ∧ t.expiry ≤ now with
  | some t =>
    { m with
      timeoutRx := m.timeoutRx ++ [t.event]
      registered := m.registered.filter fun t => t.id ≠ id }
  | none => m

/-- The timer that fires. -/
def expired (id : ℕ) (now : Instant) : Option TimerEntry :=
  m.registered.find? fun t => t.id = id ∧ t.expiry ≤ now

variable {m}

theorem expired_some {id : ℕ} {now : Instant} {en : TimerEntry} (h : m.expired id now = some en) :
    en ∈ m.registered ∧ en.id = id ∧ en.expiry ≤ now := by
  have hp := List.find?_some h
  rw [decide_eq_true_eq] at hp
  exact ⟨List.mem_of_find?_eq_some h, hp⟩

theorem fire_none {id : ℕ} {now : Instant} (h : m.expired id now = none) : m.fire id now = m := by
  unfold fire
  unfold expired at h
  rw [h]

theorem fire_some {id : ℕ} {now : Instant} {en : TimerEntry} (h : m.expired id now = some en) :
    m.fire id now =
      { m with
        timeoutRx := m.timeoutRx ++ [en.event]
        registered := m.registered.filter fun t => t.id ≠ id } := by
  unfold fire
  unfold expired at h
  rw [h]

theorem mem_registered_registerTimer {event : TimeoutEvent} {delay : Duration}
    {wheelTime : Instant} {en : TimerEntry}
    (h : en ∈ (m.registerTimer event delay wheelTime).registered) :
    en ∈ m.registered ∨ en.event = event := by
  rcases List.mem_append.mp h with h | h
  · exact Or.inl h
  · rw [List.mem_singleton.mp h]
    exact Or.inr rfl

theorem mem_registered_cancelTimer {event : TimeoutEvent} {en : TimerEntry}
    (h : en ∈ (m.cancelTimer event).registered) : en ∈ m.registered := by
  unfold cancelTimer at h
  split at h
  · exact (List.mem_filter.mp h).1
  · exact h

@[simp] theorem timeoutRx_cancelTimer (event : TimeoutEvent) :
    (m.cancelTimer event).timeoutRx = m.timeoutRx := by
  unfold cancelTimer
  split <;> rfl

theorem mem_registered_dropReplaced {id : ℕ} {en : TimerEntry}
    (h : en ∈ (m.dropReplaced id).registered) : en ∈ m.registered := by
  unfold dropReplaced at h
  split at h
  · exact (List.mem_filter.mp h).1
  · exact h

@[simp] theorem timeoutRx_dropReplaced (id : ℕ) :
    (m.dropReplaced id).timeoutRx = m.timeoutRx := by
  unfold dropReplaced
  split <;> rfl

theorem mem_registered_fire {id : ℕ} {now : Instant} {en : TimerEntry}
    (h : en ∈ (m.fire id now).registered) : en ∈ m.registered := by
  unfold fire at h
  split at h
  · exact (List.mem_filter.mp h).1
  · exact h

theorem mem_timeoutRx_fire {id : ℕ} {now : Instant} {event : TimeoutEvent}
    (h : event ∈ (m.fire id now).timeoutRx) :
    event ∈ m.timeoutRx ∨ ∃ en ∈ m.registered, en.event = event ∧ en.expiry ≤ now := by
  unfold fire at h
  split at h
  · rename_i en hf
    rcases List.mem_append.mp h with h | h
    · exact Or.inl h
    · have hen := List.find?_some hf
      rw [decide_eq_true_eq] at hen
      exact Or.inr ⟨en, List.mem_of_find?_eq_some hf, (List.mem_singleton.mp h).symm, hen.2⟩
  · exact Or.inl h

end TimerManager

structure TimingManager where
  startTime : Instant
  lastRecvTime : Instant
  finPendingEof : Bool
  timerManager : TimerManager

namespace TimingManager

variable (m : TimingManager)

def new (now : Instant) : TimingManager := ⟨now, now, false, .new⟩

def onPacketReceived (now : Instant) : TimingManager := { m with lastRecvTime := now }

def registerTimer (event : TimeoutEvent) (delay : Duration) (wheelTime : Instant) :
    TimingManager :=
  { m with timerManager := m.timerManager.registerTimer event delay wheelTime }

def cancelTimer (event : TimeoutEvent) : TimingManager :=
  { m with timerManager := m.timerManager.cancelTimer event }

end TimingManager

end Kestrel
