import Kestrel.Endpoint.Closing

/-! # The time of the last receipt

Every frame sets the time at which something was last received. Nothing that an endpoint does
depends on it.
-/

namespace Kestrel

namespace Endpoint

variable {C : Type} {t : Tick} {e : Endpoint C}

def heard (x : Instant) (e : Endpoint C) : Endpoint C :=
  { e with timing := e.timing.onPacketReceived x }

def heardOutcome (x : Instant) : Outcome C (Endpoint C) → Outcome C (Endpoint C)
  | .ok e => .ok (e.heard x)
  | .error (r, e) => .error (r, e.heard x)

variable {x : Instant}

theorem bind_heardOutcome {o : Outcome C (Endpoint C)} {f : Endpoint C → Outcome C (Endpoint C)}
    (h : ∀ e, f (e.heard x) = heardOutcome x (f e)) :
    (heardOutcome x o >>= f) = heardOutcome x (o >>= f) := by
  cases o with
  | ok e => exact h e
  | error r => rfl

theorem heard_sending (bs : List FrameBatch) :
    sending t (e.heard x) bs = heardOutcome x (sending t e bs) := by
  unfold sending
  split <;> rfl

theorem heard_sendFrames (frames : List Frame) :
    (e.heard x).sendFrames t frames = heardOutcome x (e.sendFrames t frames) := by
  rw [sendFrames_eq, sendFrames_eq]
  exact heard_sending _

theorem heard_createFin :
    (e.heard x).createFin t = ((e.createFin t).1, (e.createFin t).2.heard x) := by
  by_cases h : e.state = .closing ∧ e.reliability.hasFinInFlight = false
  · have h' : (e.heard x).state = .closing ∧ (e.heard x).reliability.hasFinInFlight = false := h
    rw [createFin, if_pos h', createFin, if_pos h]
    rfl
  · have h' : ¬ ((e.heard x).state = .closing ∧ (e.heard x).reliability.hasFinInFlight = false) := h
    rw [createFin, if_neg h', createFin, if_neg h]

theorem heard_transitionTo (s : ConnectionState) :
    (e.heard x).transitionTo s = heardOutcome x (e.transitionTo s) := by
  rw [transitionTo_eq, transitionTo_eq]
  change (if e.state.isValidTransition s then _ else _) = _
  split <;> rfl

theorem heard_deliver : (e.heard x).deliver t = ((e.deliver t).1, (e.deliver t).2.heard x) := by
  unfold deliver
  dsimp only [heard]
  split
  · rfl
  · split <;> rfl

theorem heard_finTransition (finSeen : Bool) :
    (e.heard x).finTransition finSeen = (e.finTransition finSeen).heard x := by
  rw [finTransition_eq, finTransition_eq]
  rfl

theorem heard_sendEof : (e.heard x).sendEof = e.sendEof.heard x := by
  unfold sendEof
  change (if (e.timing.finPendingEof && e.reliability.isRecvBufferEmpty && e.txToStream) = true
    then _ else _) = _
  split <;> rfl

theorem heard_shouldClose :
    (e.heard x).shouldClose = (e.shouldClose.1, e.shouldClose.2.heard x) := by
  unfold shouldClose
  rw [heard_transitionTo]
  change (if (e.state = .closing ∨ e.state = .closingWait) ∧
    e.reliability.isInFlightEmpty = true then _ else _) = _
  split
  · rw [transitionTo_eq, if_pos (by cases e.state <;> rfl)]
    rfl
  · rfl

theorem heard_shutdownGracefully :
    (e.heard x).shutdownGracefully = e.shutdownGracefully.heard x := by
  unfold shutdownGracefully
  dsimp only
  change (if e.beginGracefulShutdown.state = .closed then _ else _) = _
  split <;> rfl

theorem shutdown_eq : e.shutdown =
    if e.state = .connecting ∧ e.reliability.isSendBufferEmpty = true then
      release { e with state := .closed }
    else if e.state = .synReceived ∧ e.reliability.isSendBufferEmpty = true then
      shutdownGracefully { e with txToStream := false }
    else e.shutdownGracefully := by
  unfold shutdown
  split <;> rename_i hs
  · simp only [hs, reduceCtorEq, false_and, if_false, true_and]
    split <;> rfl
  · have hclosed : e.transitionTo .closed = .ok { e with state := .closed } := by
      rw [transitionTo_eq, if_pos (by rw [hs]; rfl)]
    simp only [hs, hclosed, true_and, reduceCtorEq, false_and, if_false]
  · rename_i hc
    rw [if_neg fun h => hs h.1, if_neg fun h => hc h.1]

theorem heard_shutdown : (e.heard x).shutdown = e.shutdown.heard x := by
  rw [shutdown_eq, shutdown_eq]
  change (if e.state = .connecting ∧ e.reliability.isSendBufferEmpty = true then _ else
    if e.state = .synReceived ∧ e.reliability.isSendBufferEmpty = true then _ else _) = _
  split
  · rfl
  · split
    · exact heard_shutdownGracefully (e := { e with txToStream := false })
    · exact heard_shutdownGracefully

theorem heard_migrate (a : SocketAddr) (n : Notifier) :
    (e.heard x).migrate t a n = heardOutcome x (e.migrate t a n) := by
  have hs : (e.heard x).startPathValidation a t.challenge n =
      heardOutcome x (e.startPathValidation a t.challenge n) := by
    rw [startPathValidation_eq, startPathValidation_eq]
    change (if e.state = .established then _ else _) = _
    split <;> rfl
  unfold migrate
  rw [hs]
  cases e.startPathValidation a t.challenge n with
  | error r => rfl
  | ok e₁ =>
    have hsend (f : Frame) (e : Endpoint C) :
        (e.heard x).sendFrameTo t f a = heardOutcome x (e.sendFrameTo t f a) := by
      rw [sendFrameTo_eq, sendFrameTo_eq]
      exact heard_sending _
    exact hsend _ (e₁.numberChallenge t.challenge).2

theorem heard_handleTimeoutEvent (event : TimeoutEvent) :
    (e.heard x).handleTimeoutEvent event = heardOutcome x (e.handleTimeoutEvent event) := by
  cases event with
  | idleTimeout | connectionTimeout =>
    unfold handleTimeoutEvent
    rw [heard_transitionTo, transitionTo_eq, if_pos (by cases e.state <;> rfl)]
    rfl
  | retransmissionTimeout => rfl
  | pathValidationTimeout =>
    unfold handleTimeoutEvent
    rw [handlePathValidationTimeout_eq, handlePathValidationTimeout_eq]
    change (if e.state.isValidatingPath = true then _ else _) = _
    split <;> rfl

theorem heard_handleTimeoutEvents (events : List TimeoutEvent) :
    events.foldlM (fun e event => e.handleTimeoutEvent event) (e.heard x) =
      heardOutcome x (events.foldlM (fun e event => e.handleTimeoutEvent event) e) := by
  induction events generalizing e with
  | nil => rfl
  | cons event events ih =>
    rw [List.foldlM_cons, List.foldlM_cons, heard_handleTimeoutEvent]
    exact bind_heardOutcome fun e => ih

variable [CongestionControl C]

theorem heard_packetizeAndSend :
    (e.heard x).packetizeAndSend t = heardOutcome x (e.packetizeAndSend t) := by
  have hp : (e.heard x).packetizeStream t =
      ((e.packetizeStream t).1, (e.packetizeStream t).2.heard x) := rfl
  unfold packetizeAndSend
  rw [hp]
  dsimp only
  rw [heard_createFin]
  exact heard_sendFrames _

theorem heard_packetizeIfOpen :
    (e.heard x).packetizeIfOpen t = heardOutcome x (e.packetizeIfOpen t) := by
  have hopen (e : Endpoint C) : e.packetizeIfOpen t =
      if e.state = .established ∨ e.state = .finWait ∨ e.state = .closing then
        e.packetizeAndSend t
      else .ok e := by
    unfold packetizeIfOpen
    cases hs : e.state <;> simp
  rw [hopen, hopen, heard_packetizeAndSend]
  change (if e.state = .established ∨ e.state = .finWait ∨ e.state = .closing then _ else _) = _
  split <;> rfl

theorem heard_sendZeroRttPackets :
    (e.heard x).sendZeroRttPackets t = heardOutcome x (e.sendZeroRttPackets t) := by
  have hsend (e : Endpoint C) (packets : List (List Frame)) :
      (e.heard x).sendPackets t packets = heardOutcome x (e.sendPackets t packets) := by
    rw [sendPackets_eq, sendPackets_eq]
    exact heard_sending _
  have hz : (e.heard x).reliability.packetizeZeroRttStreamData (e.heard x).peerCid
      (e.heard x).peerRecvWindow t.now (e.heard x).timing.startTime (e.heard x).createSynAckFrame
        (e.heard x).config.connection.maxPacketSize =
      e.reliability.packetizeZeroRttStreamData e.peerCid e.peerRecvWindow t.now
        e.timing.startTime e.createSynAckFrame e.config.connection.maxPacketSize := rfl
  unfold sendZeroRttPackets
  rw [hz]
  cases e.reliability.packetizeZeroRttStreamData e.peerCid e.peerRecvWindow t.now
      e.timing.startTime e.createSynAckFrame e.config.connection.maxPacketSize with
  | some r =>
    exact hsend { e with
      reliability := r.2
      history := { e.history with
        numbered := e.history.numbered ++ (payloadsOf r.1.flatten).map .push } } r.1
  | none => rfl

theorem heard_handleStreamCommand (c : StreamCommand) :
    (e.heard x).handleStreamCommand t c = heardOutcome x (e.handleStreamCommand t c) := by
  cases c with
  | sendData data =>
    unfold handleStreamCommand sendData
    rw [heard_transitionTo]
    change (if e.state = .synReceived then _ else _) = _
    split
    · apply bind_heardOutcome
      intro e
      exact heard_sendZeroRttPackets (e := e.writeToStream data)
    · rfl
  | close =>
    change (e.heard x).close t = heardOutcome x (e.close t)
    unfold close
    dsimp only
    rw [heard_shutdown]
    change (if e.shutdown.state = .closed then _ else _) = _
    split
    · rfl
    · exact heard_packetizeAndSend
  | migrate a n => exact heard_migrate a n

theorem heard_handleTimeouts :
    (e.heard x).handleTimeouts t = heardOutcome x (e.handleTimeouts t) := by
  have hfold (events : List TimeoutEvent) (frames : List Frame) (e : Endpoint C) :
      (events.foldlM (fun e event => e.handleTimeoutEvent event) (e.heard x) >>= fun e =>
        e.sendFrames t frames) =
      heardOutcome x (events.foldlM (fun e event => e.handleTimeoutEvent event) e >>= fun e =>
        e.sendFrames t frames) := by
    rw [heard_handleTimeoutEvents]
    exact bind_heardOutcome fun e => heard_sendFrames frames
  let e₀ : Endpoint C := { e with
    timing := { e.timing with timerManager := e.timing.timerManager.checkTimerEvents.2 } }
  let r := e.reliability.checkRetransmissions t.now e₀.createRetransmissionContext
  unfold handleTimeouts
  dsimp only
  by_cases hr : e.reliability.hasRetransmissionTimeout t.now = true
  · have hr' : (e.heard x).reliability.hasRetransmissionTimeout t.now = true := hr
    rw [if_pos hr, if_pos hr']
    exact hfold e.timing.timerManager.checkTimerEvents.1 r.1 { e₀ with reliability := r.2 }
  · have hr' : ¬ (e.heard x).reliability.hasRetransmissionTimeout t.now = true := hr
    rw [if_neg hr, if_neg hr']
    exact hfold e.timing.timerManager.checkTimerEvents.1 [] e₀

theorem heard_checkAllTimeouts :
    (e.heard x).checkAllTimeouts t = heardOutcome x (e.checkAllTimeouts t) := by
  unfold checkAllTimeouts
  rw [heard_handleTimeouts]
  apply bind_heardOutcome
  intro e
  rw [cleanupUnifiedScheduler_eq, cleanupUnifiedScheduler_eq]
  split <;> rfl

theorem heard_followUp : (e.heard x).followUp t =
    match e.followUp t with
    | .ok (close, e) => .ok (close, e.heard x)
    | .error (r, e) => .error (r, e.heard x) := by
  unfold followUp
  dsimp only
  rw [heard_deliver]
  dsimp only
  rw [heard_finTransition, heard_packetizeIfOpen]
  cases packetizeIfOpen t ((e.deliver t).2.finTransition (e.deliver t).1) with
  | error r => rfl
  | ok e₂ =>
    change Except.ok (e₂.heard x).sendEof.shouldClose = _
    rw [heard_sendEof, heard_shouldClose]
    rfl

theorem heard_begin : (e.heard x).begin t = heardOutcome x (e.begin t) := by
  have hp : (e.heard x).packetizeStream t =
      ((e.packetizeStream t).1, (e.packetizeStream t).2.heard x) := rfl
  have hsend (frames : List Frame) (e : Endpoint C) :
      (e.heard x).sendRawFrames t frames = heardOutcome x (e.sendRawFrames t frames) := by
    rw [sendRawFrames_eq, sendRawFrames_eq]
    exact heard_sending _
  by_cases hs : e.state = .connecting
  · have hs' : (e.heard x).state = .connecting := hs
    unfold Endpoint.begin
    rw [hs, hs']
    dsimp only
    unfold sendInitialSyn
    rw [hp]
    dsimp only
    change (if ((e.createSynFrame :: (e.packetizeStream t).1).map Frame.encodedSize).sum ≤
      e.config.connection.maxPacketSize then _ else _) = _
    split
    · exact hsend _ _
    · rfl
  · have hskip (e : Endpoint C) (h : e.state ≠ .connecting) : e.begin t = .ok e := by
      unfold Endpoint.begin
      split
      · contradiction
      · rfl
    rw [hskip e hs, hskip (e.heard x) hs]
    rfl

theorem routeFrame_ping {header : ShortHeader} {a : SocketAddr}
    (h : a = e.remoteAddr ∨ e.state ≠ .established) :
    e.routeFrame t (.ping header) a = .ok (e.heard t.now) := by
  have hpath : (e.heard t.now).checkPathMigration t a = .ok (e.heard t.now) := by
    rw [checkPathMigration, if_neg]
    rintro ⟨ha, hs⟩
    exact h.elim ha fun hn => hn hs
  change ((e.heard t.now).checkPathMigration t a >>= fun e => e.processFrame t (.ping header) a) = _
  rw [hpath]
  rfl

end Endpoint

namespace Machine

open Endpoint

variable {C : Type} {m : Machine C} {l : Label} {x : Instant}

def heard (x : Instant) (m : Machine C) : Machine C := { m with endpoint := m.endpoint.heard x }

theorem settle_heardOutcome (phase : Phase) (o : Outcome C (Endpoint C)) :
    settle phase (heardOutcome x o) = (settle phase o).heard x := by
  cases o <;> rfl

variable [CongestionControl C]

theorem next_heard_frame (t : Tick) (f : Frame) (a : SocketAddr) :
    (m.heard x).next (.frame t f a) = m.next (.frame t f a) := rfl

theorem next_heard (hl : ∀ t f a, l ≠ .frame t f a) :
    (m.heard x).next l = (m.next l).map (heard x) := by
  cases l with
  | frame t f a => exact absurd rfl (hl t f a)
  | begin t =>
    simp only [next]
    change (if m.phase = .created then some (settle .waiting ((m.endpoint.heard x).begin t)) else
      none) = _
    rw [heard_begin, settle_heardOutcome]
    split <;> rfl
  | command t c =>
    simp only [next]
    change (if m.phase = .waiting ∨ m.phase = .commands then
      some (settle .commands ((m.endpoint.heard x).handleStreamCommand t c)) else none) = _
    rw [heard_handleStreamCommand, settle_heardOutcome]
    split <;> rfl
  | poll t =>
    simp only [next]
    change (if m.phase = .waiting then
      some (settle .polled ((m.endpoint.heard x).checkAllTimeouts t)) else none) = _
    rw [heard_checkAllTimeouts, settle_heardOutcome]
    split <;> rfl
  | followUp t =>
    have hr : resume ((m.endpoint.heard x).followUp t) =
        (resume (m.endpoint.followUp t)).heard x := by
      rw [heard_followUp]
      cases m.endpoint.followUp t <;> rfl
    simp only [next]
    change (if m.phase = .frames ∨ m.phase = .commands ∨ m.phase = .polled then
      some (resume ((m.endpoint.heard x).followUp t)) else none) = _
    rw [hr]
    split <;> rfl
  | fire id now => rfl
  | dropReplaced id => rfl

end Machine

end Kestrel
