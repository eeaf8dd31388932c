import Kestrel.Endpoint.EventLoop
import Kestrel.Endpoint.Actions

/-! # The timer of a path validation

A validation that an address change starts registers a timer of its own, one that a command starts
registers none, and a completed validation leaves its timer behind. As long as validations are
started only by address changes, and neither a waiting event nor a replaced timer is left over from
an earlier one, every validation is ended by its own timer or not by a timer.
-/

namespace Kestrel

namespace Endpoint

variable {C : Type} {t : Tick} {e e' e'' : Endpoint C}

/-- The timers are the same, and no validation begins. -/
structure Keeps (e e' : Endpoint C) : Prop where
  timers_eq : e'.timing.timerManager = e.timing.timerManager
  state_eq : e'.state.isValidatingPath = true → e'.state = e.state

theorem Keeps.refl (e : Endpoint C) : Keeps e e := ⟨rfl, fun _ => rfl⟩

theorem Keeps.trans (h : Keeps e e') (h' : Keeps e' e'') : Keeps e e'' := by
  refine ⟨h'.timers_eq.trans h.timers_eq, fun hv => ?_⟩
  have hs := h'.state_eq hv
  rw [hs]
  exact h.state_eq (hs ▸ hv)

theorem Keeps.of_eq (ht : e'.timing.timerManager = e.timing.timerManager)
    (hs : e'.state = e.state) : Keeps e e' := ⟨ht, fun _ => hs⟩

theorem Keeps.leave (ht : e'.timing.timerManager = e.timing.timerManager)
    (hs : e'.state.isValidatingPath = false) : Keeps e e' :=
  ⟨ht, fun hv => by rw [hs] at hv; cases hv⟩

theorem keeps_sending (bs : List FrameBatch) : Keeps e (Outcome.last (sending t e bs)) := by
  rw [last_sending]
  exact .of_eq rfl rfl

theorem keeps_sendFrames (frames : List Frame) :
    Keeps e (Outcome.last (e.sendFrames t frames)) := by
  rw [sendFrames_eq]
  exact keeps_sending _

theorem keeps_sendRawFrames (frames : List Frame) :
    Keeps e (Outcome.last (e.sendRawFrames t frames)) := by
  rw [sendRawFrames_eq]
  exact keeps_sending _

theorem keeps_sendFrameTo (f : Frame) (a : SocketAddr) :
    Keeps e (Outcome.last (e.sendFrameTo t f a)) := by
  rw [sendFrameTo_eq]
  exact keeps_sending _

theorem keeps_sendStandaloneAck : Keeps e (Outcome.last (e.sendStandaloneAck t)) := by
  unfold sendStandaloneAck
  split
  · have hk : Keeps e { e with reliability := e.reliability.onAckSent } := .of_eq rfl rfl
    exact hk.trans (keeps_sendRawFrames _)
  · exact .refl e

theorem keeps_tryTransition (s : ConnectionState) (hs : s.isValidatingPath = false) :
    Keeps e (e.tryTransition s) := by
  rw [tryTransition_eq]
  split
  · exact .leave rfl hs
  · exact .refl e

theorem keeps_createFin : Keeps e (e.createFin t).2 := by
  unfold createFin
  split
  · exact .of_eq rfl rfl
  · exact .refl e

theorem keeps_handlePushFrame (header : ShortHeader) (payload : Bytes) :
    Keeps e (Outcome.last (e.handlePushFrame t header payload)) := by
  have hr (r : ReliabilityLayer C) : Keeps e { e with reliability := r } := .of_eq rfl rfl
  have hack :
      Keeps e (Outcome.last (e.receiveDataAndMaybeAck t header.sequenceNumber payload)) := by
    unfold receiveDataAndMaybeAck
    split
    · exact (hr _).trans keeps_sendStandaloneAck
    · exact hr _
  unfold handlePushFrame
  split
  · exact hr _
  · exact hack
  · exact hack
  · exact hack
  · exact hack
  · exact hack
  · exact .refl e
  · exact .refl e

theorem keeps_receiveFinThen (seq : ℕ) {next : Endpoint C → Endpoint C}
    (hn : ∀ e, Keeps e (next e)) : Keeps e (Outcome.last (e.receiveFinThen t seq next)) := by
  have hr (r : ReliabilityLayer C) : Keeps e { e with reliability := r } := .of_eq rfl rfl
  unfold receiveFinThen receiveFinAndAck
  split
  · rename_i r _
    have hk := (hr r).trans (keeps_sendStandaloneAck (t := t))
    dsimp only [bind, Except.bind]
    generalize sendStandaloneAck t { e with reliability := r } = x at hk ⊢
    cases x with
    | error r => exact hk
    | ok e' => exact hk.trans (hn e')
  · exact hr _

theorem keeps_handleFinFrame (header : ShortHeader) :
    Keeps e (Outcome.last (e.handleFinFrame t header)) := by
  unfold handleFinFrame
  split
  · exact keeps_receiveFinThen _ fun e => keeps_tryTransition _ rfl
  · exact keeps_receiveFinThen _ .refl
  · exact keeps_receiveFinThen _ fun e => keeps_tryTransition _ rfl
  · exact keeps_receiveFinThen _ .refl
  · refine keeps_receiveFinThen _ fun e => ?_
    split
    · exact keeps_tryTransition _ rfl
    · exact .refl e
  · exact .refl e
  · exact .refl e
  · exact .refl e

theorem keeps_handlePathResponseFrame (c : ℕ) (a : SocketAddr) :
    Keeps e (Outcome.last (e.handlePathResponseFrame c a)) := by
  unfold handlePathResponseFrame
  split
  · split
    · rw [completePathValidation_eq]
      split
      · exact .leave rfl rfl
      · exact .refl e
    · exact .refl e
  · exact .refl e

variable [CongestionControl C]

theorem keeps_packetizeAndSend : Keeps e (Outcome.last (e.packetizeAndSend t)) := by
  have hp : Keeps e (e.packetizeStream t).2 := .of_eq rfl rfl
  exact (hp.trans keeps_createFin).trans (keeps_sendFrames _)

theorem keeps_processAckCommon (header : ShortHeader) (payload : Bytes) :
    Keeps e (Outcome.last (e.processAckCommon t header payload)) := by
  unfold processAckCommon
  refine Keeps.trans ?_ (keeps_sendFrames _)
  exact .of_eq rfl rfl

/-- What a frame does to the timers: nothing, except that a SYN-ACK cancels that of the handshake.
-/
theorem processFrame_timers (f : Frame) (a : SocketAddr) :
    Keeps e (Outcome.last (e.processFrame t f a)) ∨
      (Outcome.last (e.processFrame t f a)).timing.timerManager =
          e.timing.timerManager.cancelTimer .connectionTimeout ∧
        (Outcome.last (e.processFrame t f a)).state.isValidatingPath = false := by
  cases f with
  | push header payload => exact Or.inl (keeps_handlePushFrame header payload)
  | ack header payload =>
    left
    change Keeps e (Outcome.last (e.handleAckFrame t header payload))
    unfold handleAckFrame
    split <;> first | exact keeps_processAckCommon header payload | exact .refl e
  | ping header => exact Or.inl (.refl e)
  | fin header => exact Or.inl (keeps_handleFinFrame header)
  | syn header =>
    left
    change Keeps e (Outcome.last (e.handleSynFrame t))
    unfold handleSynFrame
    split
    · split
      · exact keeps_sendRawFrames _
      · exact .refl e
    · exact .refl e
  | synAck header =>
    unfold processFrame handleSynAckFrame
    dsimp only
    split
    · rename_i hs
      right
      rw [transitionTo_eq, if_pos (by dsimp only; rw [hs]; rfl)]
      dsimp only [bind, Except.bind]
      set e₁ : Endpoint C := { e with
        state := .established
        timing := e.timing.cancelTimer .connectionTimeout
        peerCid := header.sourceCid } with he₁
      have hk (x : Outcome C (Endpoint C)) (h : Keeps e₁ (Outcome.last x)) :
          (Outcome.last x).timing.timerManager =
              e.timing.timerManager.cancelTimer .connectionTimeout ∧
            (Outcome.last x).state.isValidatingPath = false := by
        refine ⟨h.timers_eq, ?_⟩
        by_contra hv
        rw [Bool.not_eq_false] at hv
        rw [h.state_eq hv] at hv
        cases hv
      split
      · exact hk _ keeps_packetizeAndSend
      · exact hk _ keeps_sendStandaloneAck
    · exact Or.inl (.refl e)
  | pathChallenge header challengeData =>
    left
    change Keeps e (Outcome.last (e.handlePathChallengeFrame t header challengeData a))
    unfold handlePathChallengeFrame
    split
    · exact .refl e
    · exact keeps_sendFrameTo _ _
  | pathResponse header challengeData => exact Or.inl (keeps_handlePathResponseFrame challengeData a)

/-- An address change in the established state registers a timer before the frame is processed. -/
theorem routeFrame_timers (f : Frame) (a : SocketAddr) (m : TimerManager)
    (hm : m = if a ≠ e.remoteAddr ∧ e.state = .established then
      e.timing.timerManager.registerTimer .pathValidationTimeout (Duration.fromSecs 30) t.wheelTime
      else e.timing.timerManager) :
    (Outcome.last (e.routeFrame t f a)).timing.timerManager = m ∧
        ((Outcome.last (e.routeFrame t f a)).state.isValidatingPath = true →
          (a ≠ e.remoteAddr ∧ e.state = .established) ∨ e.state.isValidatingPath = true) ∨
      (Outcome.last (e.routeFrame t f a)).timing.timerManager = m.cancelTimer .connectionTimeout ∧
        (Outcome.last (e.routeFrame t f a)).state.isValidatingPath = false := by
  unfold routeFrame
  dsimp only
  set e₀ : Endpoint C := { e with timing := e.timing.onPacketReceived t.now } with he₀
  by_cases hstart : a ≠ e.remoteAddr ∧ e.state = .established
  · rw [if_pos hstart] at hm
    have hcheck : (Outcome.last (e₀.checkPathMigration t a)).timing.timerManager = m := by
      have hs₀ : a ≠ e₀.remoteAddr ∧ e₀.state = .established := hstart
      rw [checkPathMigration, if_pos hs₀, startPathValidation_eq, if_pos hs₀.2, hm]
      dsimp only [bind, Except.bind]
      exact (keeps_sendFrameTo _ _).timers_eq
    cases hx : e₀.checkPathMigration t a with
    | error r =>
      rw [hx] at hcheck
      exact Or.inl ⟨hcheck, fun _ => Or.inl hstart⟩
    | ok e₁ =>
      rw [hx] at hcheck
      have hcheck : e₁.timing.timerManager = m := hcheck
      rw [← hcheck]
      rcases processFrame_timers (t := t) (e := e₁) f a with hk | hc
      · exact Or.inl ⟨hk.timers_eq, fun _ => Or.inl hstart⟩
      · exact Or.inr hc
  · rw [if_neg hstart] at hm
    have hcheck : e₀.checkPathMigration t a = .ok e₀ := by
      rw [checkPathMigration]
      exact if_neg hstart
    rw [hcheck, hm]
    rcases processFrame_timers (t := t) (e := e₀) f a with hk | hc
    · refine Or.inl ⟨hk.timers_eq, fun hv => Or.inr ?_⟩
      have hs := hk.state_eq hv
      exact hs ▸ hv
    · exact Or.inr hc

theorem keeps_begin : Keeps e (Outcome.last (e.begin t)) := by
  unfold Endpoint.begin
  split
  · unfold sendInitialSyn
    have hp : Keeps e (e.packetizeStream t).2 := .of_eq rfl rfl
    dsimp only
    split
    · exact hp.trans (keeps_sendRawFrames _)
    · exact .refl e
  · exact .refl e

theorem keeps_sendData (data : Bytes) : Keeps e (Outcome.last (e.sendData t data)) := by
  unfold sendData
  split
  · rename_i hs
    rw [transitionTo_eq, if_pos (by rw [hs]; rfl)]
    dsimp only [bind, Except.bind]
    have hw : Keeps e (writeToStream { e with state := .established } data) := .leave rfl rfl
    refine hw.trans ?_
    unfold sendZeroRttPackets
    split
    · rw [sendPackets_eq, last_sending]
      exact .of_eq rfl rfl
    · exact .refl _
  · exact .of_eq rfl rfl

omit [CongestionControl C] in
theorem keeps_shutdown : Keeps e e.shutdown := by
  have hgrace (e : Endpoint C) : Keeps e e.shutdownGracefully := by
    have hb : Keeps e e.beginGracefulShutdown := by
      have hv : e.state.gracefulShutdown.isValidatingPath = false := by
        cases e.state <;> rfl
      exact .leave rfl hv
    unfold shutdownGracefully
    dsimp only
    split
    · exact hb.trans (.of_eq rfl rfl)
    · exact hb
  rcases shutdown_cases (e := e) with ⟨-, he⟩ | ⟨-, -, he⟩ | ⟨-, -, he⟩
  · rw [he]
    exact hgrace e
  · have heof : Keeps e { e with txToStream := false } := .of_eq rfl rfl
    rw [he]
    exact heof.trans (hgrace _)
  · rw [he]
    exact .leave rfl rfl

theorem keeps_close : Keeps e (Outcome.last (e.close t)) := by
  unfold close
  dsimp only
  split
  · exact keeps_shutdown
  · exact keeps_shutdown.trans keeps_packetizeAndSend

theorem keeps_followUp : Keeps e (Machine.resume (e.followUp t)).endpoint := by
  obtain ⟨data, held, hd⟩ := deliver_eq (t := t) (e := e)
  have hdel : Keeps e (e.deliver t).2 := by
    rw [hd]
    exact .of_eq rfl rfl
  have hfin (e : Endpoint C) (b : Bool) : Keeps e (e.finTransition b) := by
    unfold finTransition
    split
    · split <;> first | exact keeps_tryTransition _ rfl | exact .refl e
    · exact .refl e
  have hopen (e : Endpoint C) : Keeps e (Outcome.last (e.packetizeIfOpen t)) := by
    unfold packetizeIfOpen
    split <;> first | exact keeps_packetizeAndSend | exact .refl e
  have hend (e : Endpoint C) : Keeps e e.sendEof.shouldClose.2 := by
    have heof : Keeps e e.sendEof := by
      unfold Endpoint.sendEof
      split
      · exact .of_eq rfl rfl
      · exact .refl e
    refine heof.trans ?_
    unfold shouldClose
    split
    · rw [transitionTo_eq, if_pos (by cases e.sendEof.state <;> rfl)]
      exact .leave rfl rfl
    · exact .refl _
  have hp := (hdel.trans (hfin _ (e.deliver t).1)).trans (hopen _)
  unfold followUp
  dsimp only
  generalize ((e.deliver t).2.finTransition (e.deliver t).1).packetizeIfOpen t = x at hp
  cases x with
  | error r => exact hp
  | ok e' => exact hp.trans (hend e')

omit [CongestionControl C] in
/-- The events of a poll end a validation if its timeout is among them, and leave the timers alone.
-/
theorem handleTimeoutEvents_timers (events : List TimeoutEvent)
    (h : .pathValidationTimeout ∈ events →
      e.timing.timerManager.activeTimers .pathValidationTimeout = none) :
    (Outcome.last (events.foldlM (fun e event => e.handleTimeoutEvent event) e)).timing.timerManager
        = e.timing.timerManager ∧
      ((Outcome.last (events.foldlM (fun e event => e.handleTimeoutEvent event)
          e)).state.isValidatingPath = true →
        (Outcome.last (events.foldlM (fun e event => e.handleTimeoutEvent event) e)).state = e.state ∧
          .pathValidationTimeout ∉ events) := by
  induction events generalizing e with
  | nil => exact ⟨rfl, fun _ => ⟨rfl, by simp⟩⟩
  | cons event events ih =>
    rw [List.foldlM_cons]
    cases event with
    | idleTimeout | connectionTimeout =>
      rw [handleTimeoutEvent, transitionTo_eq, if_pos (by cases e.state <;> rfl)]
      refine ⟨rfl, fun hv => ?_⟩
      cases hv
    | retransmissionTimeout =>
      obtain ⟨ht, hv⟩ := ih (e := e) fun hm => h (List.mem_cons_of_mem _ hm)
      refine ⟨ht, fun hval => ?_⟩
      obtain ⟨hs, hn⟩ := hv hval
      exact ⟨hs, by simp [hn]⟩
    | pathValidationTimeout =>
      have hnone := h List.mem_cons_self
      rw [handleTimeoutEvent, handlePathValidationTimeout_eq]
      split
      · have hcancel : e.timing.cancelTimer .pathValidationTimeout = e.timing := by
          rw [TimingManager.cancelTimer, TimerManager.cancelTimer, hnone]
        rw [hcancel]
        obtain ⟨ht, hv⟩ := ih (e := { e with state := .established }) fun _ => hnone
        refine ⟨ht, fun hval => ?_⟩
        have hst := congrArg ConnectionState.isValidatingPath (hv hval).1
        cases hst.symm.trans hval
      · rename_i hnot
        obtain ⟨ht, hv⟩ := ih (e := e) fun _ => hnone
        refine ⟨ht, fun hval => ?_⟩
        have hst := congrArg ConnectionState.isValidatingPath (hv hval).1
        exact absurd (hst.symm.trans hval) hnot

omit [CongestionControl C] in
theorem handleTimeoutEvents_state (events : List TimeoutEvent)
    (h : .pathValidationTimeout ∉ events) :
    (Outcome.last (events.foldlM (fun e event => e.handleTimeoutEvent event) e)).state = e.state ∨
      (Outcome.last (events.foldlM (fun e event => e.handleTimeoutEvent event) e)).state =
        .closed := by
  induction events generalizing e with
  | nil => exact Or.inl rfl
  | cons event events ih =>
    rw [List.foldlM_cons]
    cases event with
    | idleTimeout | connectionTimeout =>
      rw [handleTimeoutEvent, transitionTo_eq, if_pos (by cases e.state <;> rfl)]
      exact Or.inr rfl
    | retransmissionTimeout => exact ih (e := e) fun hm => h (List.mem_cons_of_mem _ hm)
    | pathValidationTimeout => exact absurd List.mem_cons_self h

theorem checkAllTimeouts_state (h : .pathValidationTimeout ∉ e.timing.timerManager.timeoutRx) :
    (Outcome.last (e.checkAllTimeouts t)).state = e.state ∨
      (Outcome.last (e.checkAllTimeouts t)).state = .closed := by
  have hend (e₁ : Endpoint C) (frames : List Frame) (hs : e₁.state = e.state)
      (x : Outcome C (Endpoint C))
      (hx : x = e.timing.timerManager.timeoutRx.foldlM
        (fun e event => e.handleTimeoutEvent event) e₁ >>= fun e => e.sendFrames t frames) :
      (Outcome.last x).state = e.state ∨ (Outcome.last x).state = .closed := by
    have hf := handleTimeoutEvents_state (e := e₁) _ h
    subst hx
    rw [hs] at hf
    generalize e.timing.timerManager.timeoutRx.foldlM
      (fun e event => e.handleTimeoutEvent event) e₁ = y at hf
    cases y with
    | error r => exact hf
    | ok e₂ =>
      change (Outcome.last (e₂.sendFrames t frames)).state = _ ∨
        (Outcome.last (e₂.sendFrames t frames)).state = _
      rw [sendFrames_eq, last_sending]
      exact hf
  set e₀ : Endpoint C := { e with
    timing := { e.timing with timerManager := e.timing.timerManager.checkTimerEvents.2 } }
  rw [last_checkAllTimeouts]
  unfold handleTimeouts
  dsimp only
  split
  · set r := e₀.reliability.checkRetransmissions t.now e₀.createRetransmissionContext
    exact hend { e₀ with reliability := r.2 } r.1 rfl _ rfl
  · exact hend e₀ [] rfl _ rfl

/-- What a poll does to the timers and to a validation. -/
theorem checkAllTimeouts_timers :
    (Outcome.last (e.checkAllTimeouts t)).timing.timerManager =
        e.timing.timerManager.checkTimerEvents.2 ∧
      ((Outcome.last (e.checkAllTimeouts t)).state.isValidatingPath = true →
        (Outcome.last (e.checkAllTimeouts t)).state = e.state ∧
          .pathValidationTimeout ∉ e.timing.timerManager.timeoutRx) := by
  have hend (e₁ : Endpoint C) (frames : List Frame) (hs : e₁.state = e.state)
      (ht : e₁.timing.timerManager = e.timing.timerManager.checkTimerEvents.2)
      (x : Outcome C (Endpoint C))
      (hx : x = e.timing.timerManager.timeoutRx.foldlM
        (fun e event => e.handleTimeoutEvent event) e₁ >>= fun e => e.sendFrames t frames) :
      (Outcome.last x).timing.timerManager = e.timing.timerManager.checkTimerEvents.2 ∧
        ((Outcome.last x).state.isValidatingPath = true →
          (Outcome.last x).state = e.state ∧
            .pathValidationTimeout ∉ e.timing.timerManager.timeoutRx) := by
    obtain ⟨htf, hvf⟩ := handleTimeoutEvents_timers (e := e₁) e.timing.timerManager.timeoutRx
      fun hm => by rw [ht]; exact if_pos hm
    subst hx
    generalize e.timing.timerManager.timeoutRx.foldlM
      (fun e event => e.handleTimeoutEvent event) e₁ = y at htf hvf
    have hk : Keeps (Outcome.last y) (Outcome.last (y >>= fun e => e.sendFrames t frames)) := by
      cases y with
      | ok e₂ => exact keeps_sendFrames frames
      | error r => exact .refl _
    refine ⟨hk.timers_eq.trans (htf.trans ht), fun hval => ?_⟩
    have hst := hk.state_eq hval
    obtain ⟨hs₂, hn⟩ := hvf (hst ▸ hval)
    exact ⟨hst.trans (hs₂.trans hs), hn⟩
  set e₀ : Endpoint C := { e with
    timing := { e.timing with timerManager := e.timing.timerManager.checkTimerEvents.2 } }
  rw [last_checkAllTimeouts]
  unfold handleTimeouts
  dsimp only
  split
  · set r := e₀.reliability.checkRetransmissions t.now e₀.createRetransmissionContext
    exact hend { e₀ with reliability := r.2 } r.1 rfl rfl _ rfl
  · exact hend e₀ [] rfl rfl _ rfl

end Endpoint

/-- A machine with a record of its latest path validation: the timer that was registered for it, the
time of the timer task when it began, and the validation timers whose events wait, with the times
they fired at. -/
structure ValidationRun (C : Type) where
  machine : Machine C
  own : Option ℕ
  since : Instant
  fired : List (ℕ × Instant)

namespace ValidationRun

variable {C : Type}

section Timers

variable {own : Option ℕ} {since now : Instant} {fired : List (ℕ × Instant)} {m : TimerManager}
  {id : ℕ}

/-- What the record says about the timers. Every validation timer that is registered is the own one
of the latest validation or was replaced, and every one whose event waits is the own one. -/
structure Tracked (own : Option ℕ) (since : Instant) (fired : List (ℕ × Instant))
    (m : TimerManager) : Prop where
  queued_iff : .pathValidationTimeout ∈ m.timeoutRx ↔ fired ≠ []
  fired_own : ∀ r ∈ fired, own = some r.1 ∧ since + Duration.fromSecs 30 ≤ r.2
  fired_removed : ∀ r ∈ fired, ∀ en ∈ m.registered, en.id ≠ r.1
  registered : ∀ en ∈ m.registered, en.event = .pathValidationTimeout →
    (own = some en.id ∧ m.activeTimers .pathValidationTimeout = some en.id ∧
      en.expiry = since + Duration.fromSecs 30) ∨ en.id ∈ m.pendingCancels
  own_kept : ∀ id ∈ own, id ∉ m.pendingCancels
  active_own : ∀ id ∈ m.activeTimers .pathValidationTimeout, own = some id
  registered_lt : ∀ en ∈ m.registered, en.id < m.nextId
  pending_lt : ∀ id ∈ m.pendingCancels, id < m.nextId
  own_lt : ∀ id ∈ own, id < m.nextId
  unique : (m.registered.map (·.id)).Nodup

/-- The own timer is registered, or its event waits. -/
def HasOwn (own : Option ℕ) (fired : List (ℕ × Instant)) (m : TimerManager) : Prop :=
  ∃ id, own = some id ∧
    ((∃ en ∈ m.registered, en.id = id ∧ en.event = .pathValidationTimeout) ∨ ∃ τ, (id, τ) ∈ fired)

theorem Tracked.eq_of_id (h : Tracked own since fired m) {en en' : TimerEntry}
    (hen : en ∈ m.registered) (hen' : en' ∈ m.registered) (he : en.id = en'.id) : en = en' :=
  List.inj_on_of_nodup_map h.unique hen hen' he

/-- The start of a validation registers its own timer. -/
theorem Tracked.register (h : Tracked own since [] m) (wheelTime : Instant) :
    Tracked (some m.nextId) wheelTime []
        (m.registerTimer .pathValidationTimeout (Duration.fromSecs 30) wheelTime) ∧
      HasOwn (some m.nextId) []
        (m.registerTimer .pathValidationTimeout (Duration.fromSecs 30) wheelTime) := by
  have hreg {en : TimerEntry} (hen : en ∈ (m.registerTimer .pathValidationTimeout
      (Duration.fromSecs 30) wheelTime).registered) : en ∈ m.registered ∨
        en = ⟨m.nextId, .pathValidationTimeout, wheelTime + Duration.fromSecs 30⟩ := by
    simpa [TimerManager.registerTimer] using hen
  have hact : (m.registerTimer .pathValidationTimeout (Duration.fromSecs 30)
      wheelTime).activeTimers .pathValidationTimeout = some m.nextId := by
    simp [TimerManager.registerTimer]
  have hpend {i : ℕ} (hi : i ∈ (m.registerTimer .pathValidationTimeout (Duration.fromSecs 30)
      wheelTime).pendingCancels) : i < m.nextId := by
    simp only [TimerManager.registerTimer, List.mem_append, Option.mem_toList] at hi
    rcases hi with hi | hi
    · exact h.pending_lt i hi
    · exact h.own_lt i (h.active_own i hi)
  refine ⟨?_, ⟨m.nextId, rfl, Or.inl ⟨_, List.mem_append_right _ (List.mem_singleton_self _),
    rfl, rfl⟩⟩⟩
  constructor
  · exact h.queued_iff
  · simp
  · simp
  · intro en hen hev
    rcases hreg hen with hen | rfl
    · right
      simp only [TimerManager.registerTimer, List.mem_append, Option.mem_toList]
      rcases h.registered en hen hev with ⟨-, ha, -⟩ | hp
      · exact Or.inr ha
      · exact Or.inl hp
    · exact Or.inl ⟨rfl, hact, rfl⟩
  · rintro i hi hp
    cases hi
    exact Nat.lt_irrefl _ (hpend hp)
  · intro i hi
    rw [hact] at hi
    exact hi
  · intro en hen
    rcases hreg hen with hen | rfl
    · exact Nat.lt_succ_of_lt (h.registered_lt en hen)
    · exact Nat.lt_succ_self _
  · exact fun i hi => Nat.lt_succ_of_lt (hpend hi)
  · rintro i hi
    cases hi
    exact Nat.lt_succ_self _
  · simp only [TimerManager.registerTimer, List.map_append, List.map_cons, List.map_nil]
    refine List.Nodup.append h.unique (by simp) ?_
    intro i hi hi'
    obtain ⟨en, hen, rfl⟩ := List.mem_map.mp hi
    rw [List.mem_singleton] at hi'
    exact Nat.ne_of_lt (h.registered_lt en hen) hi'

theorem Tracked.cancel (h : Tracked own since fired m) :
    Tracked own since fired (m.cancelTimer .connectionTimeout) := by
  unfold TimerManager.cancelTimer
  split
  · refine
      { h with
        fired_removed := ?_, registered := ?_, active_own := ?_, registered_lt := ?_, unique := ?_ }
    · exact fun r hr en hen => h.fired_removed r hr en (List.mem_filter.mp hen).1
    · exact fun en hen hev => h.registered en (List.mem_filter.mp hen).1 hev
    · exact h.active_own
    · exact fun en hen => h.registered_lt en (List.mem_filter.mp hen).1
    · exact h.unique.sublist (List.filter_sublist.map _)
  · exact h

/-- A poll takes the waiting events. The own timer, if it was among them, is no longer registered.
-/
theorem Tracked.check (h : Tracked own since fired m) :
    Tracked own since [] m.checkTimerEvents.2 := by
  refine
    { h with
      queued_iff := by simp [TimerManager.checkTimerEvents], fired_own := by simp
      fired_removed := by simp, registered := ?_, active_own := ?_ }
  · intro en hen hev
    rcases h.registered en hen hev with ⟨ho, ha, hx⟩ | hp
    · left
      refine ⟨ho, ?_, hx⟩
      simp only [TimerManager.checkTimerEvents]
      rw [if_neg]
      · exact ha
      · rw [h.queued_iff]
        intro hne
        obtain ⟨r, hr⟩ := List.exists_mem_of_ne_nil _ hne
        have hr' := (h.fired_own r hr).1
        exact h.fired_removed r hr en hen (Option.some.inj (ho.symm.trans hr'))
    · exact Or.inr hp
  · intro i hi
    simp only [TimerManager.checkTimerEvents] at hi
    split at hi
    · cases hi
    · exact h.active_own i hi

/-- The validation timers that fire. -/
def firing (m : TimerManager) (id : ℕ) (now : Instant) : List (ℕ × Instant) :=
  (m.expired id now).toList.filterMap fun en =>
    if en.event = .pathValidationTimeout then some (en.id, now) else none

/-- A timer fires that was not replaced, if it is one of a validation. -/
theorem Tracked.fire (h : Tracked own since fired m)
    (hin : ∀ en ∈ m.expired id now, en.event = .pathValidationTimeout →
      en.id ∉ m.pendingCancels) :
    Tracked own since (fired ++ firing m id now) (m.fire id now) ∧
      (HasOwn own fired m → HasOwn own (fired ++ firing m id now) (m.fire id now)) := by
  cases hex : m.expired id now with
  | none =>
    rw [TimerManager.fire_none hex, firing, hex]
    simpa using h
  | some en =>
    obtain ⟨hen, rfl, hexp⟩ := TimerManager.expired_some hex
    rw [TimerManager.fire_some hex]
    have hsub {en' : TimerEntry} (hen' : en' ∈ m.registered.filter fun t => t.id ≠ en.id) :
        en' ∈ m.registered ∧ en'.id ≠ en.id := by
      simpa using hen'
    by_cases hev : en.event = .pathValidationTimeout
    · have hf : firing m en.id now = [(en.id, now)] := by
        simp [firing, hex, hev]
      obtain ⟨ho, -, hx⟩ := (h.registered en hen hev).resolve_right (hin en hex hev)
      rw [hf]
      constructor
      · refine
          { h with
            queued_iff := by simp [hev], fired_own := ?_, fired_removed := ?_, registered := ?_
            registered_lt := ?_, unique := h.unique.sublist (List.filter_sublist.map _) }
        · intro r hr
          rcases List.mem_append.mp hr with hr | hr
          · exact h.fired_own r hr
          · rw [List.mem_singleton.mp hr]
            exact ⟨ho, hx ▸ hexp⟩
        · intro r hr en' hen'
          rcases List.mem_append.mp hr with hr | hr
          · exact h.fired_removed r hr en' (hsub hen').1
          · rw [List.mem_singleton.mp hr]
            exact (hsub hen').2
        · exact fun en' hen' => h.registered en' (hsub hen').1
        · exact fun en' hen' => h.registered_lt en' (hsub hen').1
      · intro _
        exact ⟨en.id, ho, Or.inr ⟨now, by simp⟩⟩
    · have hf : firing m en.id now = [] := by
        simp [firing, hex, hev]
      rw [hf, List.append_nil]
      constructor
      · refine
          { h with
            queued_iff := ?_, fired_removed := ?_, registered := ?_
            registered_lt := ?_, unique := h.unique.sublist (List.filter_sublist.map _) }
        · rw [← h.queued_iff, List.mem_append, List.mem_singleton]
          exact or_iff_left (Ne.symm hev)
        · exact fun r hr en' hen' => h.fired_removed r hr en' (hsub hen').1
        · exact fun en' hen' => h.registered en' (hsub hen').1
        · exact fun en' hen' => h.registered_lt en' (hsub hen').1
      · rintro ⟨id, ho, ⟨en', hen', rfl, hev'⟩ | hτ⟩
        · refine ⟨_, ho, Or.inl ⟨en', ?_, rfl, hev'⟩⟩
          refine List.mem_filter.mpr ⟨hen', decide_eq_true fun he => hev ?_⟩
          rw [← h.eq_of_id hen' hen he]
          exact hev'
        · exact ⟨id, ho, Or.inr hτ⟩

theorem Tracked.dropReplaced (h : Tracked own since fired m) (id : ℕ) :
    Tracked own since fired (m.dropReplaced id) ∧
      (HasOwn own fired m → HasOwn own fired (m.dropReplaced id)) := by
  unfold TimerManager.dropReplaced
  split
  · rename_i hid
    have hsub {en : TimerEntry} (hen : en ∈ m.registered.filter fun t => t.id ≠ id) :
        en ∈ m.registered ∧ en.id ≠ id := by
      simpa using hen
    constructor
    · refine
        { h with
          fired_removed := ?_, registered := ?_, own_kept := ?_, registered_lt := ?_
          pending_lt := ?_, unique := h.unique.sublist (List.filter_sublist.map _) }
      · exact fun r hr en hen => h.fired_removed r hr en (hsub hen).1
      · intro en hen hev
        obtain ⟨hen, hne⟩ := hsub hen
        exact (h.registered en hen hev).imp_right (List.mem_erase_of_ne hne).mpr
      · exact fun i hi hp => h.own_kept i hi (List.mem_of_mem_erase hp)
      · exact fun en hen => h.registered_lt en (hsub hen).1
      · exact fun i hi => h.pending_lt i (List.mem_of_mem_erase hi)
    · rintro ⟨i, ho, ⟨en, hen, rfl, hev⟩ | hτ⟩
      · refine ⟨_, ho, Or.inl ⟨en, ?_, rfl, hev⟩⟩
        refine List.mem_filter.mpr ⟨hen, decide_eq_true ?_⟩
        rintro rfl
        exact h.own_kept _ ho hid
      · exact ⟨i, ho, Or.inr hτ⟩
  · exact ⟨h, fun ho => ho⟩

end Timers

variable (x : ValidationRun C)

/-- What a step does to the record: an address change begins a validation and registers a timer for
it, a command begins one without. -/
def note : Label → ValidationRun C
  | .frame t _ a =>
    if a ≠ x.machine.endpoint.remoteAddr ∧ x.machine.endpoint.state = .established then
      { x with
        own := some x.machine.endpoint.timing.timerManager.nextId
        since := t.wheelTime }
    else x
  | .command t (.migrate _ _) =>
    if x.machine.endpoint.state = .established then
      { x with own := none, since := t.wheelTime }
    else x
  | .poll _ => { x with fired := [] }
  | .fire id now =>
    { x with fired := x.fired ++ firing x.machine.endpoint.timing.timerManager id now }
  | _ => x

variable [CongestionControl C]

def next (l : Label) : Option (ValidationRun C) :=
  (x.machine.next l).map fun machine => { x.note l with machine }

def system (C : Type) [CongestionControl C] : TransitionSystem (ValidationRun C) Label :=
  .ofNext (fun x => x.machine.phase = .created ∧ x.machine.endpoint.Created ∧ x.own = none ∧
    x.fired = []) fun x l => x.next l

omit [CongestionControl C] in
/-- No command begins a validation, none begins while an event of an earlier one waits, and no
validation timer fires that was replaced. -/
def InTurn (x : ValidationRun C) : Label → Prop
  | .frame _ _ a =>
    a ≠ x.machine.endpoint.remoteAddr ∧ x.machine.endpoint.state = .established →
      .pathValidationTimeout ∉ x.machine.endpoint.timing.timerManager.timeoutRx
  | .command _ (.migrate _ _) => x.machine.endpoint.state ≠ .established
  | .fire id now => ∀ en ∈ x.machine.endpoint.timing.timerManager.expired id now,
    en.event = .pathValidationTimeout →
      en.id ∉ x.machine.endpoint.timing.timerManager.pendingCancels
  | _ => True

omit [CongestionControl C] in
/-- The record is right, and a validation in progress has its own timer. -/
structure Owned (x : ValidationRun C) : Prop where
  tracked : Tracked x.own x.since x.fired x.machine.endpoint.timing.timerManager
  hasOwn : x.machine.endpoint.state.isValidatingPath = true →
    HasOwn x.own x.fired x.machine.endpoint.timing.timerManager

variable {x} {x' : ValidationRun C} {l : Label}

omit [CongestionControl C] in
theorem Owned.keeps (h : Owned x) {m : Machine C} (hk : Endpoint.Keeps x.machine.endpoint m.endpoint) :
    Owned { x with machine := m } where
  tracked := by
    dsimp only
    rw [hk.timers_eq]
    exact h.tracked
  hasOwn hv := by
    dsimp only at hv ⊢
    rw [hk.timers_eq]
    exact h.hasOwn (hk.state_eq hv ▸ hv)

theorem Owned.frame (h : Owned x) {t : Tick} {f : Frame} {a : SocketAddr}
    (hin : x.InTurn (.frame t f a)) (hs : x.next (.frame t f a) = some x') : Owned x' := by
  obtain ⟨m, hm, rfl⟩ := Option.map_eq_some_iff.mp hs
  simp only [Machine.next, Option.ite_none_right_eq_some, Option.some.injEq] at hm
  obtain ⟨-, rfl⟩ := hm
  have ht := Endpoint.routeFrame_timers (t := t) (e := x.machine.endpoint) f a _ rfl
  by_cases hstart : a ≠ x.machine.endpoint.remoteAddr ∧ x.machine.endpoint.state = .established
  · have hf : x.fired = [] := by
      by_contra hne
      exact hin hstart (h.tracked.queued_iff.mpr hne)
    have htr := h.tracked
    rw [hf] at htr
    obtain ⟨hreg, hown⟩ := htr.register t.wheelTime
    have hnote : x.note (.frame t f a) =
        { x with
          own := some x.machine.endpoint.timing.timerManager.nextId
          since := t.wheelTime } := if_pos hstart
    rw [if_pos hstart] at ht
    rw [hnote]
    rcases ht with ⟨ht, -⟩ | ⟨ht, hv⟩
    · constructor
      · dsimp only
        rw [Machine.settle_endpoint, ht, hf]
        exact hreg
      · intro _
        dsimp only
        rw [Machine.settle_endpoint, ht, hf]
        exact hown
    · constructor
      · dsimp only
        rw [Machine.settle_endpoint, ht, hf]
        exact hreg.cancel
      · intro hval
        dsimp only at hval
        rw [Machine.settle_endpoint, hv] at hval
        cases hval
  · have hnote : x.note (.frame t f a) = x := if_neg hstart
    rw [if_neg hstart] at ht
    rw [hnote]
    rcases ht with ⟨ht, hv⟩ | ⟨ht, hv⟩
    · constructor
      · dsimp only
        rw [Machine.settle_endpoint, ht]
        exact h.tracked
      · intro hval
        dsimp only at hval ⊢
        rw [Machine.settle_endpoint] at hval ⊢
        rw [ht]
        exact h.hasOwn ((hv hval).resolve_left hstart)
    · constructor
      · dsimp only
        rw [Machine.settle_endpoint, ht]
        exact h.tracked.cancel
      · intro hval
        dsimp only at hval
        rw [Machine.settle_endpoint, hv] at hval
        cases hval

theorem Owned.command (h : Owned x) {t : Tick} {c : StreamCommand}
    (hin : x.InTurn (.command t c)) (hs : x.next (.command t c) = some x') : Owned x' := by
  obtain ⟨m, hm, rfl⟩ := Option.map_eq_some_iff.mp hs
  simp only [Machine.next, Option.ite_none_right_eq_some, Option.some.injEq] at hm
  obtain ⟨-, rfl⟩ := hm
  cases c with
  | sendData data =>
    apply h.keeps
    rw [Machine.settle_endpoint]
    exact Endpoint.keeps_sendData data
  | close =>
    apply h.keeps
    rw [Machine.settle_endpoint]
    exact Endpoint.keeps_close
  | migrate a n =>
    have hne : x.machine.endpoint.state ≠ .established := hin
    have hnote : x.note (.command t (.migrate a n)) = x := if_neg hne
    rw [hnote]
    apply h.keeps
    rw [Machine.settle_endpoint]
    change Endpoint.Keeps _ (Outcome.last (x.machine.endpoint.migrate t a n))
    rw [Endpoint.migrate, Endpoint.startPathValidation_eq, if_neg hne]
    exact .refl _

theorem Owned.poll (h : Owned x) {t : Tick} (hs : x.next (.poll t) = some x') : Owned x' := by
  obtain ⟨m, hm, rfl⟩ := Option.map_eq_some_iff.mp hs
  simp only [Machine.next, Option.ite_none_right_eq_some, Option.some.injEq] at hm
  obtain ⟨-, rfl⟩ := hm
  obtain ⟨ht, hv⟩ := Endpoint.checkAllTimeouts_timers (t := t) (e := x.machine.endpoint)
  constructor
  · change Tracked x.own x.since [] _
    rw [Machine.settle_endpoint, ht]
    exact h.tracked.check
  · intro hval
    change HasOwn x.own [] _
    dsimp only at hval
    rw [Machine.settle_endpoint] at hval ⊢
    rw [ht]
    obtain ⟨hst, hnot⟩ := hv hval
    obtain ⟨id, ho, hreg | ⟨τ, hτ⟩⟩ := h.hasOwn (hst ▸ hval)
    · exact ⟨id, ho, Or.inl hreg⟩
    · exact absurd (h.tracked.queued_iff.mpr (List.ne_nil_of_mem hτ)) hnot

theorem Owned.step (h : Owned x) (hin : x.InTurn l) (hs : x.next l = some x') : Owned x' := by
  cases l with
  | frame t f a => exact h.frame hin hs
  | command t c => exact h.command hin hs
  | poll t => exact h.poll hs
  | begin t =>
    obtain ⟨m, hm, rfl⟩ := Option.map_eq_some_iff.mp hs
    simp only [Machine.next, Option.ite_none_right_eq_some, Option.some.injEq] at hm
    obtain ⟨-, rfl⟩ := hm
    apply h.keeps
    rw [Machine.settle_endpoint]
    exact Endpoint.keeps_begin
  | followUp t =>
    obtain ⟨m, hm, rfl⟩ := Option.map_eq_some_iff.mp hs
    simp only [Machine.next, Option.ite_none_right_eq_some, Option.some.injEq] at hm
    obtain ⟨-, rfl⟩ := hm
    exact h.keeps Endpoint.keeps_followUp
  | fire id now =>
    cases hs
    obtain ⟨htr, hown⟩ := h.tracked.fire hin
    exact ⟨htr, fun hv => hown (h.hasOwn hv)⟩
  | dropReplaced id =>
    cases hs
    obtain ⟨htr, hown⟩ := h.tracked.dropReplaced id
    exact ⟨htr, fun hv => hown (h.hasOwn hv)⟩

theorem owned (h : ((system C).restrict fun x l _ => x.InTurn l).Reachable x) : Owned x := by
  have hinv : ((system C).restrict fun x l _ => x.InTurn l).Invariant Owned :=
    { init := by
        rintro ⟨⟨e, phase⟩, own, since, fired⟩ ⟨-, he, ho, hf⟩
        dsimp only at he ho hf
        subst ho
        subst hf
        have hstate : e.state.isValidatingPath = false := by
          cases he with
          | client config remoteAddr localCid cc initialData t => cases initialData <;> rfl
          | server => rfl
        refine ⟨?_, fun hv => ?_⟩
        · cases he with
          | client config remoteAddr localCid cc initialData t =>
            cases initialData <;>
              constructor <;>
                simp [Endpoint.newClient, Endpoint.newIn, Endpoint.writeToStream,
                  TimingManager.registerTimer, TimingManager.new, TimerManager.registerTimer,
                  TimerManager.new, Function.update]
          | server config remoteAddr localCid peerCid cc t =>
            constructor <;>
              simp [Endpoint.newServer, Endpoint.newIn, TimingManager.registerTimer,
                TimingManager.new, TimerManager.registerTimer, TimerManager.new, Function.update]
        · dsimp only at hv
          rw [hstate] at hv
          cases hv
      step := fun x l x' _ hx hs => hx.step hs.2 hs.1 }
  exact hinv.holds h

/-- A validation has a timer that was registered when it began and waits to end it, a poll aborts it
only on account of that timer, and does so as soon as it has fired. -/
structure OwnsTimeout (x : ValidationRun C) : Prop where
  timer : ∃ id, x.own = some id ∧
    ((∃ en ∈ x.machine.endpoint.timing.timerManager.registered, en.id = id ∧
        en.event = .pathValidationTimeout ∧ en.expiry = x.since + Duration.fromSecs 30) ∨
      ∃ τ, (id, τ) ∈ x.fired)
  aborted : ∀ t x', x.next (.poll t) = some x' → x'.machine.endpoint.state = .established →
    x.fired ≠ [] ∧ ∀ r ∈ x.fired, x.own = some r.1 ∧ x.since + Duration.fromSecs 30 ≤ r.2
  aborts : ∀ t x', x.next (.poll t) = some x' → x.fired ≠ [] →
    x'.machine.endpoint.state.isValidatingPath = false

/-- In every run whose steps are all in turn, every validation owns its timeout. -/
theorem validation_owns_timeout (x : ValidationRun C)
    (h : ((system C).restrict fun x l _ => x.InTurn l).Reachable x)
    (hv : x.machine.endpoint.state.isValidatingPath = true) : OwnsTimeout x := by
  have hx := owned h
  constructor
  · obtain ⟨id, ho, ⟨en, hen, rfl, hev⟩ | hτ⟩ := hx.hasOwn hv
    · rcases hx.tracked.registered en hen hev with ⟨-, -, he⟩ | hp
      · exact ⟨_, ho, Or.inl ⟨en, hen, rfl, hev, he⟩⟩
      · exact absurd hp (hx.tracked.own_kept _ ho)
    · exact ⟨id, ho, Or.inr hτ⟩
  · intro t x' hs he
    refine ⟨?_, hx.tracked.fired_own⟩
    intro hnil
    have hnot : .pathValidationTimeout ∉ x.machine.endpoint.timing.timerManager.timeoutRx :=
      fun hm => hx.tracked.queued_iff.mp hm hnil
    obtain ⟨m, hm, rfl⟩ := Option.map_eq_some_iff.mp hs
    simp only [Machine.next, Option.ite_none_right_eq_some, Option.some.injEq] at hm
    obtain ⟨-, rfl⟩ := hm
    dsimp only at he
    rw [Machine.settle_endpoint] at he
    rcases Endpoint.checkAllTimeouts_state (t := t) hnot with hst | hst
    · rw [he] at hst
      rw [← hst] at hv
      cases hv
    · rw [he] at hst
      cases hst
  · intro t x' hs hne
    obtain ⟨m, hm, rfl⟩ := Option.map_eq_some_iff.mp hs
    simp only [Machine.next, Option.ite_none_right_eq_some, Option.some.injEq] at hm
    obtain ⟨-, rfl⟩ := hm
    obtain ⟨-, hend⟩ := Endpoint.checkAllTimeouts_timers (t := t) (e := x.machine.endpoint)
    dsimp only
    rw [Machine.settle_endpoint]
    by_contra hval
    exact (hend (by simpa using hval)).2 (hx.tracked.queued_iff.mpr hne)

section Sample

open Machine

def tinyRun : ValidationRun Vegas := ⟨tinyClient, none, 0, []⟩

theorem tinyRun_created : tinyRun.machine.phase = .created ∧ tinyRun.machine.endpoint.Created ∧
    tinyRun.own = none ∧ tinyRun.fired = [] :=
  ⟨tinyClient_created.1, tinyClient_created.2, rfl, rfl⟩

/-- A client gets established and hears from another address, which it validates. -/
def validatingRun (rest : List Label) : List Label :=
  .begin (tick 0) :: .frame (tick 1) (.newSynAck 1 2 1) 80 ::
    .frame (tick 2) (.ping ⟨.ping, 1, 0, 256, 0, 0, 0⟩) 81 :: .followUp (tick 2) :: rest

instance (x : ValidationRun C) : DecidablePred x.InTurn
  | .frame _ _ _ => inferInstanceAs (Decidable (_ → _))
  | .command _ (.migrate _ _) => inferInstanceAs (Decidable (_ ≠ _))
  | .command _ (.sendData _) | .command _ .close => isTrue trivial
  | .fire id now => inferInstanceAs (Decidable
      (∀ en ∈ x.machine.endpoint.timing.timerManager.expired id now, _ → _))
  | .begin _ | .poll _ | .followUp _ | .dropReplaced _ => isTrue trivial

/-- The validation of an address that does not answer is ended by its own timer. -/
theorem validation_owns_timeout_sample : ∃ x : ValidationRun Vegas,
    x.fired ≠ [] ∧ OwnsTimeout x := by
  obtain ⟨x, hr, hf, hv⟩ : ∃ x, ((system Vegas).restrict fun x l _ => x.InTurn l).Run
      (validatingRun [.fire 2 (Duration.fromSecs 31)]) x ∧
      x.fired ≠ [] ∧ x.machine.endpoint.state.isValidatingPath = true :=
    TransitionSystem.exists_restrict_run_of_foldlM (s := tinyRun) _ tinyRun_created (by decide)
  exact ⟨x, hf, validation_owns_timeout x hr.reachable hv⟩

/-- The timer of a validation that was completed aborts the next one. -/
theorem leftover_timer_aborts : ∃ x x' : ValidationRun Vegas, (system Vegas).Reachable x ∧
    x.machine.endpoint.state.isValidatingPath = true ∧ x.own = some 3 ∧
      x.next (.poll (tick (Duration.fromSecs 3600))) = some x' ∧
        x'.machine.endpoint.state = .established ∧
        ¬ OwnsTimeout x := by
  obtain ⟨x, x', hr, hs, hv, ho, hf, he⟩ : ∃ x x' : ValidationRun Vegas, (system Vegas).Run
      (validatingRun [.frame (tick 3) (.newPathResponse 1 0 0 0) 81, .followUp (tick 3),
        .frame (tick 5) (.ping ⟨.ping, 1, 0, 256, 0, 0, 0⟩) 82, .followUp (tick 5),
        .fire 2 (Duration.fromSecs 31)]) x ∧
      x.next (.poll (tick (Duration.fromSecs 3600))) = some x' ∧
      x.machine.endpoint.state.isValidatingPath = true ∧ x.own = some 3 ∧
        (2, Duration.fromSecs 31) ∈ x.fired ∧ x'.machine.endpoint.state = .established :=
    TransitionSystem.exists_step_of_foldlM (s := tinyRun) _ _ tinyRun_created (by decide)
  refine ⟨x, x', hr.reachable, hv, ho, hs, he, ?_⟩
  intro hown
  have h := ((hown.aborted _ x' hs he).2 _ hf).1
  rw [ho] at h
  cases h

end Sample

end ValidationRun

end Kestrel
