import Kestrel.Endpoint.Commands
import Kestrel.Endpoint.Scheduler
import Kestrel.Lib.Transition

/-! # The event loop

An iteration of the loop takes a batch of frames, a batch of commands or a timer poll and then
follows up: it reassembles, sends what waits and closes the connection when nothing is left to
do. A machine is an endpoint with the place of its loop; its steps are the frames, commands and
polls one by one, the follow-up, and what the timer task does meanwhile.
-/

namespace Kestrel

namespace Endpoint

variable {C : Type} (t : Tick) (e : Endpoint C)

/-- The connection stays with the old address. -/
def handlePathValidationTimeout : Outcome C (Endpoint C) :=
  match e.state.clone with
  | .validatingPath _ _ notifier =>
    transitionTo
      { e with
        timing := e.timing.cancelTimer .pathValidationTimeout
        notified := e.notified ++
          notifier.toList.map fun n => (n, Except.error .pathValidationTimeout) }
      .established
  | _ => .ok e

def handleTimeoutEvent : TimeoutEvent → Outcome C (Endpoint C)
  | .idleTimeout | .connectionTimeout => do
    let e ← e.transitionTo .closed
    .error (.connectionTimeout, e)
  | .pathValidationTimeout => e.handlePathValidationTimeout
  | .retransmissionTimeout => .ok e

/-- Hands what can be reassembled to the user's stream; says whether the FIN was reached. -/
def deliver : Bool × Endpoint C :=
  let (data, finSeen, reliability) := e.reliability.reassemble
  let e := { e with
    reliability
    timing := { e.timing with finPendingEof := e.timing.finPendingEof || finSeen } }
  let dataVec := data.getD []
  if dataVec.isEmpty || !e.txToStream then (finSeen, e)
  else if t.streamOpen then (finSeen, { e with toStream := e.toStream ++ [dataVec] })
  else (finSeen, { e with txToStream := false })

/-- The change of state after the FIN was reached. -/
def finTransition (finSeen : Bool) : Endpoint C :=
  if finSeen then
    match e.state with
    | .established | .synReceived => e.tryTransition .finWait
    | .closing => e.tryTransition .closingWait
    | _ => e
  else e

/-- Ends the user's stream when everything before the FIN has been handed over. -/
def sendEof : Endpoint C :=
  if e.timing.finPendingEof && e.reliability.isRecvBufferEmpty && e.txToStream then
    { e with txToStream := false, timing := { e.timing with finPendingEof := false } }
  else e

/-- Closes a connection that was being closed and has nothing in flight. -/
def shouldClose : Bool × Endpoint C :=
  if (e.state = .closing ∨ e.state = .closingWait) ∧ e.reliability.isInFlightEmpty = true then
    match e.transitionTo .closed with
    | .ok e => (true, e.release)
    | .error (_, e) => (e.state = .closed, e)
  else (e.state = .closed, e)

variable {e} in
/-- The copied state has no notifier, so a timed-out validation tells nobody. -/
theorem handlePathValidationTimeout_eq :
    e.handlePathValidationTimeout =
      if e.state.isValidatingPath then
        .ok { e with
          timing := e.timing.cancelTimer .pathValidationTimeout, state := .established }
      else .ok e := by
  unfold handlePathValidationTimeout
  cases hs : e.state with
  | validatingPath a c n =>
    simp [ConnectionState.clone, ConnectionState.isValidatingPath, transitionTo_eq,
      ConnectionState.isValidTransition]
  | _ => rfl

section

variable {t e}

theorem deliver_eq : ∃ data held, e.deliver t = (e.reliability.reassemble.2.1,
    { e with
      reliability := e.reliability.reassemble.2.2
      timing := { e.timing with
        finPendingEof := e.timing.finPendingEof || e.reliability.reassemble.2.1 }
      toStream := data, txToStream := held }) := by
  unfold deliver
  dsimp only
  split
  · exact ⟨_, _, rfl⟩
  · split
    · exact ⟨_, _, rfl⟩
    · exact ⟨_, _, rfl⟩

end

variable [CongestionControl C]

/-- The steps of a poll up to the timeouts and the frames that are due. -/
def handleTimeouts : Outcome C (Endpoint C) := do
  let (events, timerManager) := e.timing.timerManager.checkTimerEvents
  let e := { e with timing := { e.timing with timerManager } }
  let (framesToRetx, e) :=
    if e.reliability.hasRetransmissionTimeout t.now then
      let (frames, reliability) := e.reliability.checkRetransmissions t.now
        e.createRetransmissionContext
      (frames, { e with reliability })
    else ([], e)
  let e ← events.foldlM (fun e event => e.handleTimeoutEvent event) e
  e.sendFrames t framesToRetx

/-- The loop never asks the scheduler for a deadline or for events, so that it is always a new
one. -/
def cleanupUnifiedScheduler : Outcome C (Endpoint C) :=
  match (UnifiedTimeoutScheduler.new e.timing.startTime).cleanupExpiredData t.now with
  | some _ => .ok e
  | none => .error (.panic "overflow when subtracting duration from instant", e)

def checkAllTimeouts : Outcome C (Endpoint C) := do
  let e ← e.handleTimeouts t
  e.cleanupUnifiedScheduler t

section

variable {t e}

omit [CongestionControl C] in
theorem cleanupUnifiedScheduler_eq : e.cleanupUnifiedScheduler t =
    if Duration.fromSecs 3600 ≤ t.now then .ok e
    else .error (.panic "overflow when subtracting duration from instant", e) := by
  unfold cleanupUnifiedScheduler
  by_cases h : Duration.fromSecs 3600 ≤ t.now
  · rw [UnifiedTimeoutScheduler.cleanupExpiredData_new h, if_pos h]
  · rw [UnifiedTimeoutScheduler.cleanupExpiredData, lookBack, if_neg h, if_neg h]
    rfl

theorem last_checkAllTimeouts :
    Outcome.last (e.checkAllTimeouts t) = Outcome.last (e.handleTimeouts t) := by
  unfold checkAllTimeouts
  cases e.handleTimeouts t with
  | error r => rfl
  | ok e' =>
    change Outcome.last (e'.cleanupUnifiedScheduler t) = e'
    rw [cleanupUnifiedScheduler_eq]
    split <;> rfl

theorem checkAllTimeouts_eq_ok {e' : Endpoint C} : e.checkAllTimeouts t = .ok e' ↔
    e.handleTimeouts t = .ok e' ∧ Duration.fromSecs 3600 ≤ t.now := by
  unfold checkAllTimeouts
  cases e.handleTimeouts t with
  | error r => exact ⟨(fun h => by cases h), (fun h => by cases h.1)⟩
  | ok e₁ =>
    change e₁.cleanupUnifiedScheduler t = .ok e' ↔ _
    rw [cleanupUnifiedScheduler_eq]
    split
    · rename_i h
      exact ⟨fun he => ⟨he, h⟩, fun he => he.1⟩
    · rename_i h
      exact ⟨(fun he => by cases he), (fun he => absurd he.2 h)⟩

end

/-- Sends waiting data in the states in which the follow-up does so. -/
def packetizeIfOpen : Outcome C (Endpoint C) :=
  match e.state with
  | .established | .finWait | .closing => e.packetizeAndSend t
  | _ => .ok e

/-- What follows every batch; says whether the loop ends. -/
def followUp : Outcome C (Bool × Endpoint C) := do
  let (finSeen, e) := e.deliver t
  let e ← (e.finTransition finSeen).packetizeIfOpen t
  return e.sendEof.shouldClose

/-- The first action of the loop: a client sends its SYN. -/
def begin : Outcome C (Endpoint C) :=
  match e.state with
  | .connecting => e.sendInitialSyn t
  | _ => .ok e

/-- A newly created endpoint. -/
inductive Created : Endpoint C → Prop where
  | client (config : Config) (remoteAddr : SocketAddr) (localCid : ℕ) (cc : C)
      (initialData : Option Bytes) (t : Tick) :
    Created (newClient config remoteAddr localCid cc initialData t)
  | server (config : Config) (remoteAddr : SocketAddr) (localCid peerCid : ℕ) (cc : C)
      (t : Tick) :
    Created (newServer config remoteAddr localCid peerCid cc t)

end Endpoint

/-- The place of the loop: before its first action, between iterations, within a batch or after
a poll, or at its end. -/
inductive Phase where
  | created
  | waiting
  | frames
  | commands
  | polled
  | finished
  | failed (error : Error)
  deriving DecidableEq, Repr

structure Machine (C : Type) where
  endpoint : Endpoint C
  phase : Phase

/-- What a machine can do next. -/
inductive Label where
  | begin (t : Tick)
  | frame (t : Tick) (frame : Frame) (srcAddr : SocketAddr)
  | command (t : Tick) (command : StreamCommand)
  | poll (t : Tick)
  | followUp (t : Tick)
  | fire (id : ℕ) (now : Instant)
  | dropReplaced (id : ℕ)
  deriving DecidableEq, Repr

namespace Machine

variable {C : Type} (m : Machine C)

def Running : Prop :=
  m.phase = .waiting ∨ m.phase = .frames ∨ m.phase = .commands ∨ m.phase = .polled

instance : Decidable m.Running := inferInstanceAs (Decidable (_ ∨ _ ∨ _ ∨ _))

/-- The machine after an operation: in the given phase, or failed. -/
def settle (phase : Phase) : Outcome C (Endpoint C) → Machine C
  | .ok e => ⟨e, phase⟩
  | .error (err, e) => ⟨e, .failed err⟩

/-- The machine after a follow-up: waiting again, or at its end. -/
def resume : Outcome C (Bool × Endpoint C) → Machine C
  | .ok (close, e) => ⟨e, if close then .finished else .waiting⟩
  | .error (err, e) => ⟨e, .failed err⟩

/-- The timers of the endpoint after an action of the timer task. -/
def mapTimers (f : TimerManager → TimerManager) : Machine C :=
  { m with
    endpoint := { m.endpoint with
      timing := { m.endpoint.timing with timerManager := f m.endpoint.timing.timerManager } } }

variable [CongestionControl C]

def next : Label → Option (Machine C)
  | .begin t =>
    if m.phase = .created then some (settle .waiting (m.endpoint.begin t)) else none
  | .frame t frame srcAddr =>
    if m.phase = .waiting ∨ m.phase = .frames then
      some (settle .frames (m.endpoint.routeFrame t frame srcAddr))
    else none
  | .command t command =>
    if m.phase = .waiting ∨ m.phase = .commands then
      some (settle .commands (m.endpoint.handleStreamCommand t command))
    else none
  | .poll t =>
    if m.phase = .waiting then some (settle .polled (m.endpoint.checkAllTimeouts t)) else none
  | .followUp t =>
    if m.phase = .frames ∨ m.phase = .commands ∨ m.phase = .polled then
      some (resume (m.endpoint.followUp t))
    else none
  | .fire id now => some (m.mapTimers (·.fire id now))
  | .dropReplaced id => some (m.mapTimers (·.dropReplaced id))

def system (C : Type) [CongestionControl C] : TransitionSystem (Machine C) Label :=
  .ofNext (fun m => m.phase = .created ∧ m.endpoint.Created) fun m l => m.next l

variable {m}

theorem running_of_next {m' : Machine C} {l : Label} (h : m.next l = some m')
    (hr : m'.Running) :
    m.Running ∨ ∃ t, l = .begin t := by
  cases l with
  | begin t => exact Or.inr ⟨t, rfl⟩
  | frame t f a | command t c | poll t | followUp t =>
    left
    simp only [next, Option.ite_none_right_eq_some] at h
    simp only [Running]
    tauto
  | fire id now | dropReplaced id =>
    left
    simp only [next, Option.some.injEq] at h
    rw [← h] at hr
    exact hr

theorem exists_step (ls : List Label) (l : Label) (P : Machine C → Machine C → Prop)
    [DecidableRel P] (h : m.phase = .created ∧ m.endpoint.Created)
    (hp : (ls.foldlM (fun (m : Machine C) l => m.next l) m).map
      (fun m => decide (∃ m' ∈ m.next l, P m m')) = some true) :
    ∃ m₁ m₂, (system C).Run ls m₁ ∧ m₁.next l = some m₂ ∧ P m₁ m₂ := by
  obtain ⟨m₁, hr, m₂, hn, hp⟩ : ∃ m₁, (system C).Run ls m₁ ∧ ∃ m₂ ∈ m₁.next l, P m₁ m₂ :=
    TransitionSystem.exists_run_of_foldlM ls h hp
  exact ⟨m₁, m₂, hr, hn, hp⟩

/-- The runs of an endpoint whose steps all meet a condition. -/
def systemWith (G : Machine C → Label → Prop) : TransitionSystem (Machine C) Label :=
  (system C).restrict fun m l _ => G m l

section Sample

/-- Packets of one byte and a window of one packet, which small runs fill. -/
def tinyConfig : Config :=
  { congestionControl := { initialCwndPackets := 1 }, connection := { maxPayloadSize := 1 } }

/-- A moment at which everything is open. -/
def tick (n : ℕ) : Tick := ⟨n, n, 0, true, true⟩

def tinyClient : Machine Vegas :=
  ⟨Endpoint.newClient tinyConfig 80 1 (Vegas.new tinyConfig) none (tick 0), .created⟩

theorem tinyClient_created : tinyClient.phase = .created ∧ tinyClient.endpoint.Created :=
  ⟨rfl, .client tinyConfig 80 1 (Vegas.new tinyConfig) none (tick 0)⟩

end Sample

end Machine

end Kestrel
