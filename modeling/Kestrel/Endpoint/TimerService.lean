import Kestrel.Endpoint.Expirations
import Kestrel.Timer.Punctual
import Kestrel.Timer.Tables

/-! # One timer task for all connections

The timer managers of all connections share one timer task, which sends the events of expired timers
on the channels of the managers and waits for room in them. To each connection this looks like a
task of its own: what its manager is told is what a run of its timers alone would tell it.
-/

namespace Kestrel

open TimingWheel (TimerEntryId IsOrder)

/-- The room in the channel of a timer manager. -/
def timeoutChannelSize : ℕ := 32

/-- A timer manager as a client of the task: its handles, its channel and the tasks it has spawned
to cancel replaced timers. Beside these stand whether it was dropped, the timers it has registered,
what happened to them, and the events it has reported. -/
structure TimerClient where
  connectionId : ConnectionId
  activeTimers : TimeoutEvent → Option TimerHandle
  timeoutRx : List (TimerEventData TimeoutEvent)
  spawned : List TimerHandle
  dropped : Bool
  entries : List TimerEntryId
  log : List TimerOp
  reported : List TimeoutEvent

namespace TimerClient

def new (connectionId : ConnectionId) : TimerClient :=
  ⟨connectionId, fun _ => none, [], [], false, [], [], []⟩

variable (c : TimerClient)

/-- The number of a timer among those that were registered. -/
def number (handle : TimerHandle) : ℕ := c.entries.idxOf handle.entryId

def checkTimerEvents : TimerClient :=
  let events := c.timeoutRx.map (·.timeoutEvent)
  { c with
    timeoutRx := []
    activeTimers := fun event => if event ∈ events then none else c.activeTimers event
    log := c.log ++ [.check]
    reported := c.reported ++ events }

/-- Takes the handle of a new timer, and spawns a task to cancel the one it replaces. -/
def registered (event : TimeoutEvent) (delay : Duration) (wheelTime : Instant)
    (handle : TimerHandle) : TimerClient :=
  { c with
    activeTimers := Function.update c.activeTimers event (some handle)
    spawned := c.spawned ++ (c.activeTimers event).toList
    entries := c.entries ++ [handle.entryId]
    log := c.log ++ [.register event delay wheelTime] }

def cancelled (event : TimeoutEvent) : TimerClient :=
  { c with
    activeTimers := Function.update c.activeTimers event none
    log := c.log ++ [.cancel event] }

/-- A spawned task is done. -/
def cancelDone (handle : TimerHandle) : TimerClient :=
  { c with
    spawned := c.spawned.erase handle
    log := c.log ++ [.dropReplaced (c.number handle)] }

/-- The event of a timer arrives, unless the manager is gone. -/
def receive (entry : TimingWheel.TimerEntry (TimerEvent TimeoutEvent)) (now : Instant) :
    TimerClient :=
  { c with
    timeoutRx := if c.dropped then c.timeoutRx else c.timeoutRx ++ [entry.event.data]
    log := c.log ++ [.fire (c.number ⟨entry.id⟩) now] }

end TimerClient

/-- The timer task, its clients, each with the channel of its position, the expired timers whose
events the task is sending, and the time at which it found them. -/
structure TimerService where
  task : GlobalTimerTask TimeoutEvent
  clients : List TimerClient
  sending : List (TimingWheel.TimerEntry (TimerEvent TimeoutEvent))
  now : Instant

/-- What can happen next: a manager is made, does something or goes, a spawned task runs, or the
timer task looks at the clock or gets rid of an event. -/
inductive ServiceEvent where
  | connect (connectionId : ConnectionId)
  | registerTimer (i : ℕ) (event : TimeoutEvent) (delay : Duration)
  | cancelTimer (i : ℕ) (event : TimeoutEvent)
  | checkTimerEvents (i : ℕ)
  | cancelReplaced (i : ℕ) (handle : TimerHandle)
  | drop (i : ℕ)
  | advanceTimingWheel (now : Instant) (order : List ConnectionId)
  | send (k : ℕ)
  | getNextWakeupTime (now : Instant)
  deriving DecidableEq, Repr

namespace TimerService

variable (s : TimerService)

def setClient (i : ℕ) (c : TimerClient) : TimerService :=
  { s with clients := s.clients.set i c }

/-- The task serves commands when it is not sending. A manager waits for the answer, so it is one
step. -/
def next : ServiceEvent → Option TimerService
  | .connect connectionId => some { s with clients := s.clients ++ [.new connectionId] }
  | .registerTimer i event delay => do
    let c ← s.clients[i]?
    if s.sending = [] ∧ c.dropped = false then
      let (handle, task) := s.task.registerTimer ⟨c.connectionId, delay, event, i⟩
      return { s with task }.setClient i
        (c.registered event delay s.task.timingWheel.currentTime handle)
    else none
  | .cancelTimer i event => do
    let c ← s.clients[i]?
    match c.activeTimers event with
    | some handle =>
      if s.sending = [] ∧ c.dropped = false then
        return { s with task := (s.task.cancelTimer handle.entryId).2 }.setClient i
          (c.cancelled event)
      else none
    | none => if c.dropped = false then return s.setClient i (c.cancelled event) else none
  | .checkTimerEvents i => do
    let c ← s.clients[i]?
    if c.dropped = false then return s.setClient i c.checkTimerEvents else none
  | .cancelReplaced i handle => do
    let c ← s.clients[i]?
    if s.sending = [] ∧ handle ∈ c.spawned then
      return { s with task := (s.task.cancelTimer handle.entryId).2 }.setClient i
        (c.cancelDone handle)
    else none
  | .drop i => do
    let c ← s.clients[i]?
    return s.setClient i { c with dropped := true }
  | .advanceTimingWheel now order =>
    if s.sending = [] ∧ IsOrder order
        ((s.task.expiredByConnection (s.task.timingWheel.advance now).1).map (·.2)) then
      some { s with
        task := (s.task.advanceTimingWheel now order).2
        sending := (s.task.timingWheel.advance now).1
        now }
    else none
  | .send k => do
    let entry ← s.sending[k]?
    let c ← s.clients[entry.event.callbackTx]?
    -- events for one channel wait in line
    if (∀ earlier ∈ s.sending.take k, earlier.event.callbackTx ≠ entry.event.callbackTx) ∧
        (c.dropped = true ∨ c.timeoutRx.length < timeoutChannelSize) then
      return { s with sending := s.sending.eraseIdx k }.setClient entry.event.callbackTx
        (c.receive entry s.now)
    else none
  | .getNextWakeupTime now =>
    if s.sending = [] then some { s with task := (s.task.getNextWakeupTime now).2 } else none

def system : TransitionSystem TimerService ServiceEvent :=
  .ofNext (fun s => ∃ task, GlobalTimerTask.new s.now = some task ∧ s = ⟨task, [], [], s.now⟩) next

/-- The timers that the task holds, in its wheel or on their way to the channels. -/
def held : Multiset (TimingWheel.TimerEntry (TimerEvent TimeoutEvent)) :=
  s.task.timingWheel.live + ↑s.sending

end TimerService

namespace TimerRun

/-- The timers of a connection after some operations. -/
def replay (ops : List TimerOp) : TimerRun :=
  ops.foldl TimerRun.next ⟨.new, fun _ => none, [], [], []⟩

/-- What a check reports. -/
def report (x : TimerRun) : TimerOp → List TimeoutEvent
  | .check => x.manager.checkTimerEvents.1
  | _ => []

/-- What the checks among some operations report. -/
def reports (x : TimerRun) : List TimerOp → List TimeoutEvent
  | [] => []
  | op :: ops => x.report op ++ (x.next op).reports ops

variable {ops : List TimerOp} {op : TimerOp}

theorem replay_concat : replay (ops ++ [op]) = (replay ops).next op := by
  rw [replay, List.foldl_append]
  rfl

theorem reports_concat (x : TimerRun) :
    x.reports (ops ++ [op]) = x.reports ops ++ (ops.foldl TimerRun.next x).report op := by
  induction ops generalizing x with
  | nil => simp [reports]
  | cons op' ops ih =>
    rw [List.cons_append, reports, reports, ih, List.append_assoc]
    rfl

theorem run_replay (ops : List TimerOp) : system.Run ops (replay ops) := by
  induction ops using List.reverseRecOn with
  | nil => exact .init rfl
  | append_singleton ops op ih =>
    rw [replay_concat]
    exact ih.step rfl

end TimerRun

namespace TimerClient

/-- A timer of the task as its client sees it. -/
def view (c : TimerClient) (entry : TimingWheel.TimerEntry (TimerEvent TimeoutEvent)) :
    TimerEntry :=
  ⟨c.number ⟨entry.id⟩, entry.event.data.timeoutEvent, entry.expiryTime⟩

/-- The client on a channel has the handles and the channel that the timers of a connection have
alone, and the task holds the timers that are registered there. -/
structure Mirrors (c : TimerClient) (i : ℕ)
    (held : Multiset (TimingWheel.TimerEntry (TimerEvent TimeoutEvent))) (m : TimerManager) :
    Prop where
  timeoutRx_eq : c.dropped = false → c.timeoutRx.map (·.timeoutEvent) = m.timeoutRx
  activeTimers_eq : ∀ event, (c.activeTimers event).map c.number = m.activeTimers event
  pendingCancels_eq : c.spawned.map c.number = m.pendingCancels
  mem_registered_iff : ∀ timer, timer ∈ m.registered ↔
    ∃ entry ∈ held, entry.event.callbackTx = i ∧ c.view entry = timer

/-- A client that mirrors the timers of a connection, with its handles in order. -/
structure Served (c : TimerClient) (i : ℕ) (nextEntryId : TimerEntryId)
    (held : Multiset (TimingWheel.TimerEntry (TimerEvent TimeoutEvent))) : Prop where
  nodup_entries : c.entries.Nodup
  entries_lt : ∀ id ∈ c.entries, id < nextEntryId
  active_mem : ∀ event, ∀ handle ∈ c.activeTimers event, handle.entryId ∈ c.entries
  spawned_mem : ∀ handle ∈ c.spawned, handle.entryId ∈ c.entries
  mem_entries_iff : ∀ entry ∈ held, entry.id ∈ c.entries ↔ entry.event.callbackTx = i
  nextId_eq : (TimerRun.replay c.log).manager.nextId = c.entries.length
  reported_eq : c.reported = TimerRun.reports ⟨.new, fun _ => none, [], [], []⟩ c.log
  mirrors : c.Mirrors i held (TimerRun.replay c.log).manager

variable {c : TimerClient} {i : ℕ} {nextEntryId : TimerEntryId}
  {held held' : Multiset (TimingWheel.TimerEntry (TimerEvent TimeoutEvent))}
  {handle handle' : TimerHandle}

theorem served_new {connectionId : ConnectionId} (h : ∀ entry ∈ held, entry.event.callbackTx ≠ i) :
    (new connectionId).Served i nextEntryId held where
  nodup_entries := List.nodup_nil
  entries_lt := by simp [new]
  active_mem := by simp [new]
  spawned_mem := by simp [new]
  mem_entries_iff entry he := iff_of_false List.not_mem_nil (h entry he)
  nextId_eq := rfl
  reported_eq := rfl
  mirrors :=
    { timeoutRx_eq := fun _ => rfl
      activeTimers_eq := fun _ => rfl
      pendingCancels_eq := rfl
      mem_registered_iff := fun timer => by
        constructor
        · intro ht
          cases ht
        · rintro ⟨entry, he, hi, -⟩
          exact absurd hi (h entry he) }

/-- What happens on other channels is none of a client's business. -/
theorem Served.frame (h : c.Served i nextEntryId held) {nextEntryId' : TimerEntryId}
    (hle : nextEntryId ≤ nextEntryId')
    (hold : ∀ entry ∈ held', entry ∈ held ∨ nextEntryId ≤ entry.id)
    (hkept : ∀ entry, entry.event.callbackTx = i → (entry ∈ held' ↔ entry ∈ held)) :
    c.Served i nextEntryId' held' :=
  { h with
    entries_lt := fun id hid => (h.entries_lt id hid).trans_le hle
    mem_entries_iff := by
      intro entry he
      rcases hold entry he with hin | hnew
      · exact h.mem_entries_iff entry hin
      · constructor
        · intro hid
          exact absurd (h.entries_lt _ hid) (not_lt.mpr hnew)
        · intro hi
          exact (h.mem_entries_iff entry ((hkept entry hi).mp he)).mpr hi
    mirrors := { h.mirrors with
      mem_registered_iff := by
        intro timer
        rw [h.mirrors.mem_registered_iff]
        constructor
        · rintro ⟨entry, he, hi, hv⟩
          exact ⟨entry, (hkept entry hi).mpr he, hi, hv⟩
        · rintro ⟨entry, he, hi, hv⟩
          exact ⟨entry, (hkept entry hi).mp he, hi, hv⟩ } }

theorem number_inj (hh : handle.entryId ∈ c.entries) :
    c.number handle = c.number handle' ↔ handle = handle' := by
  rw [number, number, List.idxOf_inj hh]
  cases handle
  cases handle'
  simp

section Register

variable {event : TimeoutEvent} {delay : Duration} {wheelTime : Instant}
  {entry : TimingWheel.TimerEntry (TimerEvent TimeoutEvent)}

theorem number_registered (hh : handle'.entryId ∈ c.entries) :
    (c.registered event delay wheelTime handle).number handle' = c.number handle' :=
  List.idxOf_append_of_mem hh

theorem number_registered_self (hh : handle.entryId ∉ c.entries) :
    (c.registered event delay wheelTime handle).number handle = c.entries.length := by
  rw [number, registered, List.idxOf_append_of_notMem hh, List.idxOf_cons_self, Nat.add_zero]

theorem view_registered (hid : handle.entryId ∉ c.entries) (hentry : entry.id = handle.entryId)
    (htime : entry.expiryTime = wheelTime + delay)
    (hevent : entry.event.data.timeoutEvent = event) :
    (c.registered event delay wheelTime handle).view entry =
      ⟨c.entries.length, event, wheelTime + delay⟩ := by
  rw [view, hentry, number_registered_self hid, hevent, htime]

theorem view_registered_of_mem (hid : entry.id ∈ c.entries) :
    (c.registered event delay wheelTime handle).view entry = c.view entry := by
  rw [view, view, number_registered hid]

theorem Served.mirrors_registered (h : c.Served i nextEntryId held)
    (hnew : handle.entryId ∉ c.entries) (hid : entry.id = handle.entryId)
    (htime : entry.expiryTime = wheelTime + delay) (hi : entry.event.callbackTx = i)
    (hevent : entry.event.data.timeoutEvent = event) :
    (c.registered event delay wheelTime handle).Mirrors i (entry ::ₘ held)
      ((TimerRun.replay c.log).manager.registerTimer event delay wheelTime) := by
  constructor
  · exact h.mirrors.timeoutRx_eq
  · intro event'
    rw [TimerManager.registerTimer, h.nextId_eq]
    dsimp only
    by_cases he : event' = event
    · subst he
      have hhandle : (c.registered event' delay wheelTime handle).activeTimers event' =
          some handle := Function.update_self ..
      rw [hhandle, Function.update_self, Option.map_some, number_registered_self hnew]
    · have hhandle : (c.registered event delay wheelTime handle).activeTimers event' =
          c.activeTimers event' := Function.update_of_ne he ..
      rw [hhandle, Function.update_of_ne he, ← h.mirrors.activeTimers_eq]
      exact Option.map_congr fun handle' hh => number_registered (h.active_mem event' handle' hh)
  · have hactive : (c.activeTimers event).toList.map
        (c.registered event delay wheelTime handle).number =
          ((TimerRun.replay c.log).manager.activeTimers event).toList := by
      rw [← h.mirrors.activeTimers_eq, Option.toList_map]
      refine List.map_congr_left fun handle' hh => number_registered ?_
      exact h.active_mem event handle' (Option.mem_toList.mp hh)
    change (c.spawned ++ (c.activeTimers event).toList).map _ = _
    rw [TimerManager.registerTimer, List.map_append, hactive, ← h.mirrors.pendingCancels_eq]
    congr 1
    exact List.map_congr_left fun handle' hh => number_registered (h.spawned_mem handle' hh)
  · intro timer
    have hviews (other) (ho : other ∈ held) (hoi : other.event.callbackTx = i) :
        (c.registered event delay wheelTime handle).view other = c.view other :=
      view_registered_of_mem ((h.mem_entries_iff other ho).mpr hoi)
    rw [TimerManager.registerTimer, List.mem_append, List.mem_singleton, h.nextId_eq,
      ← view_registered hnew hid htime hevent, h.mirrors.mem_registered_iff]
    constructor
    · rintro (⟨other, ho, hoi, rfl⟩ | rfl)
      · exact ⟨other, Multiset.mem_cons_of_mem ho, hoi, hviews other ho hoi⟩
      · exact ⟨entry, Multiset.mem_cons_self _ _, hi, rfl⟩
    · rintro ⟨other, ho, hoi, rfl⟩
      rcases Multiset.mem_cons.mp ho with rfl | hold
      · exact Or.inr rfl
      · exact Or.inl ⟨other, hold, hoi, (hviews other hold hoi).symm⟩

/-- A timer is registered with the task, and is the latest among those of its client. -/
theorem Served.registered (h : c.Served i nextEntryId held)
    (hlt : ∀ entry ∈ held, entry.id < nextEntryId) (hid : entry.id = nextEntryId)
    (htime : entry.expiryTime = wheelTime + delay) (hi : entry.event.callbackTx = i)
    (hevent : entry.event.data.timeoutEvent = event) :
    (c.registered event delay wheelTime ⟨nextEntryId⟩).Served i (nextEntryId + 1)
      (entry ::ₘ held) := by
  have hnew : nextEntryId ∉ c.entries := fun hin => lt_irrefl _ (h.entries_lt _ hin)
  have hreplay : (TimerRun.replay (c.registered event delay wheelTime ⟨nextEntryId⟩).log).manager =
      (TimerRun.replay c.log).manager.registerTimer event delay wheelTime :=
    congrArg TimerRun.manager TimerRun.replay_concat
  constructor
  · exact List.nodup_append.mpr ⟨h.nodup_entries, List.nodup_singleton _,
      fun id hid other ho => (List.mem_singleton.mp ho) ▸ ne_of_mem_of_not_mem hid hnew⟩
  · intro id hmem
    rcases List.mem_append.mp hmem with hold | hlast
    · exact (h.entries_lt id hold).trans (Nat.lt_succ_self _)
    · rw [List.mem_singleton.mp hlast]
      exact Nat.lt_succ_self _
  · intro event' handle' hh
    simp only [TimerClient.registered, Function.update_apply] at hh
    split at hh
    · cases hh
      exact List.mem_append_right _ (List.mem_singleton_self _)
    · exact List.mem_append_left _ (h.active_mem event' handle' hh)
  · intro handle' hh
    rcases List.mem_append.mp hh with hold | hreplaced
    · exact List.mem_append_left _ (h.spawned_mem handle' hold)
    · exact List.mem_append_left _ (h.active_mem event handle' (Option.mem_toList.mp hreplaced))
  · intro other ho
    change other.id ∈ c.entries ++ [nextEntryId] ↔ _
    rw [List.mem_append, List.mem_singleton]
    rcases Multiset.mem_cons.mp ho with rfl | hold
    · exact iff_of_true (Or.inr hid) hi
    · rw [or_iff_left (hlt other hold).ne, h.mem_entries_iff other hold]
  · rw [hreplay, TimerManager.registerTimer, TimerClient.registered, List.length_append,
      ← h.nextId_eq]
    rfl
  · rw [TimerClient.registered, TimerRun.reports_concat, ← h.reported_eq]
    exact (List.append_nil _).symm
  · rw [hreplay]
    exact h.mirrors_registered hnew hid htime hi hevent

end Register

section Remove

/-- Exactly the timer with an identifier has gone. -/
def Removed (held held' : Multiset (TimingWheel.TimerEntry (TimerEvent TimeoutEvent)))
    (id : TimerEntryId) : Prop :=
  ∀ entry, entry ∈ held' ↔ entry ∈ held ∧ entry.id ≠ id

variable {event : TimeoutEvent}

theorem Served.mem_registered_removed (h : c.Served i nextEntryId held)
    (hr : Removed held held' handle.entryId) (hh : handle.entryId ∈ c.entries)
    (timer : TimerEntry) :
    timer ∈ (TimerRun.replay c.log).manager.registered.filter (fun t => t.id ≠ c.number handle) ↔
      ∃ entry ∈ held', entry.event.callbackTx = i ∧ c.view entry = timer := by
  rw [List.mem_filter, h.mirrors.mem_registered_iff, decide_eq_true_eq]
  have hne (entry : TimingWheel.TimerEntry (TimerEvent TimeoutEvent)) :
      (c.view entry).id ≠ c.number handle ↔ entry.id ≠ handle.entryId := by
    rw [view, ne_comm, Ne, number_inj hh, ne_comm]
    cases handle
    simp
  constructor
  · rintro ⟨⟨entry, he, hi, rfl⟩, hid⟩
    exact ⟨entry, (hr entry).mpr ⟨he, (hne entry).mp hid⟩, hi, rfl⟩
  · rintro ⟨entry, he, hi, rfl⟩
    obtain ⟨hin, hid⟩ := (hr entry).mp he
    exact ⟨⟨entry, hin, hi, rfl⟩, (hne entry).mpr hid⟩

theorem Removed.frame (hr : Removed held held' handle.entryId) (h : c.Served i nextEntryId held)
    (hnot : ∀ entry ∈ held, entry.event.callbackTx = i → entry.id ≠ handle.entryId) :
    c.Served i nextEntryId held' := by
  apply h.frame le_rfl
  · exact fun entry he => Or.inl ((hr entry).mp he).1
  · intro entry hi
    exact ⟨fun he => ((hr entry).mp he).1, fun he => (hr entry).mpr ⟨he, hnot entry he hi⟩⟩

/-- Apart from a registration nothing gives a client another timer. -/
theorem Served.after {op : TimerOp} (h : c.Served i nextEntryId held) (c' : TimerClient)
    (hin : ∀ entry ∈ held', entry ∈ held) (hlog : c'.log = c.log ++ [op])
    (hentries : c'.entries = c.entries)
    (hactive : ∀ event, ∀ handle ∈ c'.activeTimers event, handle ∈ c.activeTimers event)
    (hspawned : ∀ handle ∈ c'.spawned, handle ∈ c.spawned)
    (hnext : ((TimerRun.replay c.log).next op).manager.nextId =
      (TimerRun.replay c.log).manager.nextId)
    (hreported : c'.reported = c.reported ++ (TimerRun.replay c.log).report op)
    (hmirrors : c'.Mirrors i held' ((TimerRun.replay c.log).next op).manager) :
    c'.Served i nextEntryId held' where
  nodup_entries := hentries ▸ h.nodup_entries
  entries_lt := hentries ▸ h.entries_lt
  active_mem event handle hh := hentries ▸ h.active_mem event handle (hactive event handle hh)
  spawned_mem handle hh := hentries ▸ h.spawned_mem handle (hspawned handle hh)
  mem_entries_iff entry he := hentries ▸ h.mem_entries_iff entry (hin entry he)
  nextId_eq := by rw [hlog, TimerRun.replay_concat, hnext, h.nextId_eq, hentries]
  reported_eq := by rw [hlog, TimerRun.reports_concat, hreported, h.reported_eq]; rfl
  mirrors := by rwa [hlog, TimerRun.replay_concat]

theorem Served.cancelled (h : c.Served i nextEntryId held)
    (hh : c.activeTimers event = some handle) (hr : Removed held held' handle.entryId) :
    (c.cancelled event).Served i nextEntryId held' := by
  have hactive : (TimerRun.replay c.log).manager.activeTimers event = some (c.number handle) := by
    rw [← h.mirrors.activeTimers_eq, hh, Option.map_some]
  have hm : ((TimerRun.replay c.log).next (.cancel event)).manager =
      { (TimerRun.replay c.log).manager with
        activeTimers := Function.update (TimerRun.replay c.log).manager.activeTimers event none
        registered := (TimerRun.replay c.log).manager.registered.filter
          fun t => t.id ≠ c.number handle } := by
    rw [TimerRun.next, TimerManager.cancelTimer, hactive]
  have hless (event' : TimeoutEvent) : (c.cancelled event).activeTimers event' =
      if event' = event then none else c.activeTimers event' := Function.update_apply ..
  apply h.after (c.cancelled event) (fun entry he => ((hr entry).mp he).1) rfl rfl
  · intro event' handle' hh'
    rw [hless] at hh'
    split at hh'
    · cases hh'
    · exact hh'
  · exact fun _ => id
  · rw [hm]
  · exact (List.append_nil _).symm
  · rw [hm]
    constructor
    · exact h.mirrors.timeoutRx_eq
    · intro event'
      rw [hless]
      dsimp only
      rw [Function.update_apply]
      split
      · rfl
      · exact h.mirrors.activeTimers_eq event'
    · exact h.mirrors.pendingCancels_eq
    · exact h.mem_registered_removed hr (h.active_mem event handle hh)

theorem Served.cancelled_none (h : c.Served i nextEntryId held)
    (hh : c.activeTimers event = none) : (c.cancelled event).Served i nextEntryId held := by
  have hactive : (TimerRun.replay c.log).manager.activeTimers event = none := by
    rw [← h.mirrors.activeTimers_eq, hh, Option.map_none]
  have hm : ((TimerRun.replay c.log).next (.cancel event)).manager =
      (TimerRun.replay c.log).manager := by
    rw [TimerRun.next, TimerManager.cancelTimer, hactive]
  have hsame : (c.cancelled event).activeTimers = c.activeTimers :=
    Function.update_eq_self_iff.mpr hh.symm
  apply h.after (c.cancelled event) (fun _ => id) rfl rfl
  · rw [hsame]
    exact fun _ _ => id
  · exact fun _ => id
  · rw [hm]
  · exact (List.append_nil _).symm
  · rw [hm]
    exact { h.mirrors with activeTimers_eq := hsame ▸ h.mirrors.activeTimers_eq }

theorem Served.checkTimerEvents (h : c.Served i nextEntryId held) (hd : c.dropped = false) :
    c.checkTimerEvents.Served i nextEntryId held := by
  have hrx := h.mirrors.timeoutRx_eq hd
  have hless (event : TimeoutEvent) : c.checkTimerEvents.activeTimers event =
      if event ∈ (TimerRun.replay c.log).manager.timeoutRx then none
      else c.activeTimers event := by
    rw [← hrx]
    rfl
  apply h.after c.checkTimerEvents (fun _ => id) rfl rfl
  · intro event handle hh
    rw [hless] at hh
    split at hh
    · cases hh
    · exact hh
  · exact fun _ => id
  · rfl
  · exact congrArg (c.reported ++ ·) hrx
  · constructor
    · exact fun _ => rfl
    · intro event
      rw [hless]
      change _ = if event ∈ (TimerRun.replay c.log).manager.timeoutRx then none
        else (TimerRun.replay c.log).manager.activeTimers event
      split
      · rfl
      · exact h.mirrors.activeTimers_eq event
    · exact h.mirrors.pendingCancels_eq
    · exact h.mirrors.mem_registered_iff

theorem map_erase_number (hh : handle.entryId ∈ c.entries) (handles : List TimerHandle) :
    (handles.erase handle).map c.number = (handles.map c.number).erase (c.number handle) := by
  induction handles with
  | nil => rfl
  | cons other handles ih =>
    rw [List.map_cons, List.erase_cons, List.erase_cons]
    by_cases he : other = handle
    · simp [he]
    · have hne : c.number other ≠ c.number handle := fun hn => he ((number_inj hh).mp hn.symm).symm
      simp [he, hne, ih]

theorem Served.cancelDone (h : c.Served i nextEntryId held) (hh : handle ∈ c.spawned)
    (hr : Removed held held' handle.entryId) :
    (c.cancelDone handle).Served i nextEntryId held' := by
  have hin := h.spawned_mem handle hh
  have hpending : c.number handle ∈ (TimerRun.replay c.log).manager.pendingCancels := by
    rw [← h.mirrors.pendingCancels_eq]
    exact List.mem_map_of_mem hh
  have hm : ((TimerRun.replay c.log).next (.dropReplaced (c.number handle))).manager =
      { (TimerRun.replay c.log).manager with
        pendingCancels := (TimerRun.replay c.log).manager.pendingCancels.erase (c.number handle)
        registered := (TimerRun.replay c.log).manager.registered.filter
          fun t => t.id ≠ c.number handle } := by
    rw [TimerRun.next, TimerManager.dropReplaced, if_pos hpending]
  apply h.after (c.cancelDone handle) (fun entry he => ((hr entry).mp he).1) rfl rfl
  · exact fun _ _ => id
  · exact fun _ => List.mem_of_mem_erase
  · rw [hm]
  · exact (List.append_nil _).symm
  · rw [hm]
    constructor
    · exact h.mirrors.timeoutRx_eq
    · exact h.mirrors.activeTimers_eq
    · dsimp only
      rw [← h.mirrors.pendingCancels_eq]
      exact map_erase_number hin c.spawned
    · exact h.mem_registered_removed hr hin

/-- A timer that has expired in the task has done so among those of its client. -/
theorem Served.expired_eq (h : c.Served i nextEntryId held) (hnd : (held.map (·.id)).Nodup)
    {entry : TimingWheel.TimerEntry (TimerEvent TimeoutEvent)} (he : entry ∈ held)
    (hi : entry.event.callbackTx = i) {now : Instant} (hnow : entry.expiryTime ≤ now) :
    (TimerRun.replay c.log).manager.expired (c.number ⟨entry.id⟩) now = some (c.view entry) := by
  have hin : entry.id ∈ c.entries := (h.mem_entries_iff entry he).mpr hi
  have hmem := (h.mirrors.mem_registered_iff _).mpr ⟨entry, he, hi, rfl⟩
  obtain ⟨timer, htimer⟩ : ∃ timer,
      (TimerRun.replay c.log).manager.expired (c.number ⟨entry.id⟩) now = some timer :=
    Option.isSome_iff_exists.mp (List.find?_isSome.mpr
      ⟨c.view entry, hmem, decide_eq_true ⟨rfl, hnow⟩⟩)
  obtain ⟨hreg, hid, -⟩ := TimerManager.expired_some htimer
  obtain ⟨other, ho, -, rfl⟩ := (h.mirrors.mem_registered_iff timer).mp hreg
  have hsame : other.id = entry.id :=
    congrArg TimerHandle.entryId ((number_inj hin).mp hid.symm).symm
  rw [htimer, Multiset.inj_on_of_nodup_map hnd other ho entry he hsame]

theorem Served.receive (h : c.Served i nextEntryId held) (hnd : (held.map (·.id)).Nodup)
    {entry : TimingWheel.TimerEntry (TimerEvent TimeoutEvent)} (he : entry ∈ held)
    (hi : entry.event.callbackTx = i) {now : Instant} (hnow : entry.expiryTime ≤ now)
    (hr : Removed held held' entry.id) : (c.receive entry now).Served i nextEntryId held' := by
  have hin : entry.id ∈ c.entries := (h.mem_entries_iff entry he).mpr hi
  have hexpired := h.expired_eq hnd he hi hnow
  have hm : ((TimerRun.replay c.log).next (.fire (c.number ⟨entry.id⟩) now)).manager =
      { (TimerRun.replay c.log).manager with
        timeoutRx := (TimerRun.replay c.log).manager.timeoutRx ++ [entry.event.data.timeoutEvent]
        registered := (TimerRun.replay c.log).manager.registered.filter
          fun t => t.id ≠ c.number ⟨entry.id⟩ } :=
    TimerManager.fire_some hexpired
  apply h.after (c.receive entry now) (fun other ho => ((hr other).mp ho).1) rfl rfl
  · exact fun _ _ => id
  · exact fun _ => id
  · rw [hm]
  · exact (List.append_nil _).symm
  · rw [hm]
    constructor
    · intro hd
      have hd' : c.dropped = false := hd
      simp only [TimerClient.receive, hd', Bool.false_eq_true, if_false, List.map_append,
        List.map_singleton, h.mirrors.timeoutRx_eq hd']
    · exact h.mirrors.activeTimers_eq
    · exact h.mirrors.pendingCancels_eq
    · exact h.mem_registered_removed hr hin

end Remove

end TimerClient

end Kestrel
