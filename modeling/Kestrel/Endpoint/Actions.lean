import Kestrel.Endpoint.EventLoop

/-! # Actions

Every step of an endpoint is a sequence of a few kinds of actions. What each kind preserves,
every step preserves.
-/

namespace Kestrel

/-- Handshake frames and path responses. -/
def Frame.isControl : Frame → Bool
  | .syn _ | .synAck _ | .pathResponse .. => true
  | _ => false

/-- The item of the stream that a frame brings, with its sequence number. -/
def Frame.item? : Frame → Option (ℕ × PacketOrFin)
  | .push h payload => some (h.sequenceNumber, .push payload)
  | .fin h => some (h.sequenceNumber, .fin)
  | _ => none

theorem Frame.item?_of_isControl {f : Frame} (h : f.isControl = true) : f.item? = none := by
  cases f <;> first | rfl | cases h

def Label.tick? : Label → Option Tick
  | .begin t | .frame t .. | .command t _ | .poll t | .followUp t => some t
  | .fire .. | .dropReplaced _ => none

/-- In which states a step packetizes. -/
def Label.PacketizesIn : Label → ConnectionState → Prop
  | .begin _, s => s = .connecting
  | .frame _ (.synAck _) _, s | .command _ (.sendData _), s => s = .established
  | .command _ .close, s => s = .closing ∨ s = .closingWait
  | .followUp _, s => s = .established ∨ s = .finWait ∨ s = .closing
  | _, _ => False

namespace Endpoint

open Relation (ReflTransGen)

variable {C : Type}

/-- In which states an item of the stream is taken. -/
def takes (s : ConnectionState) : PacketOrFin → Bool
  | .push _ => s ≠ .connecting ∧ s ≠ .closed
  | .fin => s ≠ .connecting ∧ s ≠ .closingWait ∧ s ≠ .closed

/-- The change of state when a FIN arrives outside the established state. -/
def arrival : ConnectionState → ConnectionState
  | .synReceived | .validatingPath .. => .finWait
  | .closing => .closingWait
  | s => s

/-- The change of state when reassembly reaches the FIN. -/
def consumption : ConnectionState → ConnectionState
  | .established | .synReceived => .finWait
  | .closing => .closingWait
  | s => s

variable [CongestionControl C]

def packetizerContext (t : Tick) (e : Endpoint C) : PacketizerContext :=
  e.reliability.packetizerContext e.peerCid e.peerRecvWindow t.now e.timing.startTime

/-- The PUSH frames for payloads under the next sequence numbers. -/
def pushes (t : Tick) (e : Endpoint C) (chunks : List Bytes) : List Frame :=
  pushFrames (e.packetizerContext t) e.reliability.sequenceNumberCounter chunks

/-- The endpoint after payloads were cut off its send buffer. -/
def cut (t : Tick) (e : Endpoint C) (chunks : List Bytes) (b : SendBuffer) : Endpoint C :=
  { e with
    reliability := { e.reliability with
      sendBuffer := b
      sequenceNumberCounter := counterAfter e.reliability.sequenceNumberCounter chunks.length
      packetized := e.reliability.packetized ++ chunks
      retransmissionManager :=
        e.reliability.retransmissionManager.addAll (e.pushes t chunks) t.now }
    history := { e.history with
      numbered := e.history.numbered ++ chunks.map .push } }

/-- The actions an endpoint takes in a step with the given label. -/
inductive Act (t : Tick) (l : Label) (e : Endpoint C) : Endpoint C → Prop where
  | received : Act t l e { e with timing := e.timing.onPacketReceived t.now }
  | registerValidation :
    Act t l e { e with
      timing := e.timing.registerTimer .pathValidationTimeout (Duration.fromSecs 30)
        t.wheelTime }
  | cancel (event : TimeoutEvent) (h : event ≠ .idleTimeout) :
    Act t l e { e with timing := e.timing.cancelTimer event }
  | drainTimers :
    Act t l e { e with
      timing := { e.timing with timerManager := e.timing.timerManager.checkTimerEvents.2 } }
  | challenge (a : SocketAddr) (n : Notifier) (h : e.state = .established)
      (hl : (∃ f, l = .frame t f a ∧ a ≠ e.remoteAddr) ∨ l = .command t (.migrate a n)) :
    Act t l e (emit t
      { (e.numberChallenge t.challenge).2 with
        state := .validatingPath a t.challenge (some n) }
      [⟨a, [e.createPathChallengeFrame t e.reliability.sequenceNumberCounter t.challenge]⟩])
  | receive (f : Frame) (a : SocketAddr) (q : ℕ) (p : PacketOrFin) (hl : l = .frame t f a)
      (hf : f.item? = some (q, p)) (h : takes e.state p = true) :
    Act t l e { e with reliability := (e.reliability.receive q p).2 }
  | acknowledge (h : e.reliability.ackPending = true) :
    Act t l e (emit t { e with reliability := e.reliability.onAckSent }
      [⟨e.remoteAddr, [e.createAckFrame t]⟩])
  | control (bs : List FrameBatch) (h : ∀ f ∈ bs.flatMap (·.frames), f.isControl = true) :
    Act t l e (e.emit t bs)
  | processAck (header : ShortHeader) (payload : Bytes) (a : SocketAddr) (r : RttEstimator)
      (cc : C) (hl : l = .frame t (.ack header payload) a)
      (h : e.state ≠ .connecting ∧ e.state ≠ .closed) :
    Act t l e { e with
      peerRecvWindow := header.recvWindowSize
      reliability := { e.reliability with
        retransmissionManager :=
          (e.reliability.retransmissionManager.processAck header.recvNextSequence
            (decodeSackRanges payload) t.now e.createRetransmissionContext).2
        rtoEstimator := r
        congestionControl := cc }
      history := { e.history with
        acks := e.history.acks ++ [(header.recvNextSequence, decodeSackRanges payload)] } }
  | checkRetransmissions (r : RttEstimator) (cc : C) (hl : l = .poll t) :
    Act t l e { e with
      reliability := { e.reliability with
        retransmissionManager :=
          (e.reliability.retransmissionManager.checkForRetransmissions
            e.reliability.rtoEstimator.rto t.now e.createRetransmissionContext).2
        rtoEstimator := r
        congestionControl := cc } }
  | resend (bs : List FrameBatch)
      (h : ∀ f ∈ bs.flatMap (·.frames), ∃ q i c, e.reliability.retransmissionManager.Keeps q i ∧
        f = i.reconstructFrame c t.now) :
    Act t l e (e.emit t bs)
  | write (data : Bytes) (hl : l = .command t (.sendData data)) :
    Act t l e (e.writeToStream data)
  | packetize (chunks : List Bytes) (b : SendBuffer) (lead : List Frame) (bs : List FrameBatch)
      (hs : l.PacketizesIn e.state)
      (hp : Packetized (e.packetizerContext t) e.reliability.sendBuffer chunks b)
      (hlead : ∀ f ∈ lead, f.isControl = true)
      (hb : bs.flatMap (·.frames) =
        lead ++ e.pushes t chunks ++ ((e.cut t chunks b).createFin t).1) :
    Act t l e (((e.cut t chunks b).createFin t).2.emit t bs)
  | establish (header : LongHeader) (a : SocketAddr) (hl : l = .frame t (.synAck header) a)
      (h : e.state = .connecting) :
    Act t l e { e with state := .established, peerCid := header.sourceCid }
  | accept (data : Bytes) (hl : l = .command t (.sendData data)) (h : e.state = .synReceived) :
    Act t l e { e with state := .established }
  | pathValidated (header : ShortHeader) (challenge : ℕ) (a : SocketAddr) (n : Option Notifier)
      (hl : l = .frame t (.pathResponse header challenge) a)
      (h : e.state = .validatingPath a challenge n) :
    Act t l e { e with
      state := .established
      remoteAddr := a
      socketCommands := e.socketCommands ++ [.updateAddr e.localCid a] }
  | validationTimeout (h : e.state.isValidatingPath = true) :
    Act t l e { e with state := .established }
  | finArrived (header : ShortHeader) (a : SocketAddr) (hl : l = .frame t (.fin header) a)
      (h : e.reliability.recvBuffer.received[header.sequenceNumber]? = some .fin) :
    Act t l e { e with state := arrival e.state }
  | finReached (hl : l = .followUp t) (h : e.reliability.recvBuffer.finReached = true) :
    Act t l e { e with state := consumption e.state }
  | shutdown (hl : l = .command t .close) : Act t l e e.beginGracefulShutdown
  | endStream (hl : l = .command t .close) (h : e.state = .synReceived)
      (hb : e.reliability.isSendBufferEmpty = true) :
    Act t l e { e with txToStream := false }
  | forceClose (hl : l = .poll t) : Act t l e { e with state := .closed }
  | close
      (h : e.state = .closed ∨
        l = .command t .close ∧ e.state = .connecting ∧ e.reliability.isSendBufferEmpty = true ∨
        l = .followUp t ∧ (e.state = .closing ∨ e.state = .closingWait) ∧
          e.reliability.isInFlightEmpty = true) :
    Act t l e (release { e with state := .closed })
  | sendEof (hl : l = .followUp t) : Act t l e e.sendEof

def Acts (t : Tick) (l : Label) : Endpoint C → Endpoint C → Prop := ReflTransGen (Act t l)

theorem Acts.preserves {t : Tick} {l : Label} {e e' : Endpoint C} {P : Endpoint C → Prop}
    (h : Acts t l e e') (hact : ∀ e₁ e₂, P e₁ → Act t l e₁ e₂ → P e₂) (he : P e) : P e' := by
  induction h with
  | refl => exact he
  | tail _ ha ih => exact hact _ _ ih ha

section Operations

variable {t : Tick} {l : Label} {e e' : Endpoint C}

theorem Acts.bind {x : Outcome C (Endpoint C)} {f : Endpoint C → Outcome C (Endpoint C)}
    (hx : Acts t l e (Outcome.last x))
    (hf : ∀ e', x = .ok e' → Acts t l e' (Outcome.last (f e'))) :
    Acts t l e (Outcome.last (x >>= f)) := by
  cases x with
  | ok e' => exact hx.trans (hf e' rfl)
  | error r => exact hx

theorem acts_sendStandaloneAck : Acts t l e (Outcome.last (e.sendStandaloneAck t)) := by
  unfold sendStandaloneAck
  split
  · rw [sendRawFrames_eq, last_sending]
    exact .single (.acknowledge ‹_›)
  · exact .refl

theorem acts_checkPathMigration {f : Frame} {a : SocketAddr} (hl : l = .frame t f a) :
    Acts t l e (Outcome.last (e.checkPathMigration t a)) := by
  unfold checkPathMigration
  split
  · rename_i h
    rw [startPathValidation_eq, if_pos h.2]
    have hr : Acts t l e { e with
      timing := e.timing.registerTimer .pathValidationTimeout (Duration.fromSecs 30)
        t.wheelTime } := .single .registerValidation
    refine hr.tail ?_
    have hc := Act.challenge (t := t) (l := l) (e := { e with
      timing := e.timing.registerTimer .pathValidationTimeout (Duration.fromSecs 30)
        t.wheelTime }) a .detached h.2 (Or.inl ⟨f, hl, h.1⟩)
    simp only [bind, Except.bind, sendFrameTo_eq, last_sending]
    exact hc
  · exact .refl

theorem acts_receive {f : Frame} {a : SocketAddr} {q : ℕ} {p : PacketOrFin}
    (hl : l = .frame t f a) (hf : f.item? = some (q, p)) (h : takes e.state p = true) :
    Acts t l e { e with reliability := (e.reliability.receive q p).2 } :=
  .single (.receive f a q p hl hf h)

theorem acts_handlePushFrame {header : ShortHeader} {payload : Bytes} {a : SocketAddr}
    (hl : l = .frame t (.push header payload) a) :
    Acts t l e (Outcome.last (e.handlePushFrame t header payload)) := by
  have hr (h : takes e.state (.push payload) = true) :
      Acts t l e { e with
        reliability := (e.reliability.receivePush header.sequenceNumber payload).2 } :=
    acts_receive hl rfl h
  have hack (h : takes e.state (.push payload) = true) : Acts t l e
      (Outcome.last (e.receiveDataAndMaybeAck t header.sequenceNumber payload)) := by
    have hr := hr h
    unfold receiveDataAndMaybeAck
    split
    · rename_i heq
      rw [heq] at hr
      exact hr.trans acts_sendStandaloneAck
    · rename_i heq
      rw [heq] at hr
      exact hr
  unfold handlePushFrame
  split <;> rename_i hs
  · exact hr (by simp [takes, hs])
  all_goals first
    | exact hack (by simp [takes, hs])
    | exact .refl

theorem acts_receiveFinThen {header : ShortHeader} {a : SocketAddr}
    (hl : l = .frame t (.fin header) a) (h : takes e.state .fin = true)
    {next : Endpoint C → Endpoint C}
    (hn : ∀ e' : Endpoint C, e'.state = e.state →
      e'.reliability.recvBuffer.received[header.sequenceNumber]? = some .fin →
        Acts t l e' (next e')) :
    Acts t l e (Outcome.last (e.receiveFinThen t header.sequenceNumber next)) := by
  have hr : Acts t l e { e with
      reliability := (e.reliability.receiveFin header.sequenceNumber).2 } :=
    acts_receive hl rfl h
  unfold receiveFinThen receiveFinAndAck
  cases ha : e.reliability.recvBuffer.accepts header.sequenceNumber with
  | false =>
    rw [ReliabilityLayer.receiveFin, ReliabilityLayer.receive_eq_of_not_accepts ha] at hr ⊢
    exact hr
  | true =>
    rw [ReliabilityLayer.receiveFin, ReliabilityLayer.receive_eq_of_accepts ha] at hr ⊢
    dsimp only at hr ⊢
    have hk := hr.trans (acts_sendStandaloneAck (t := t) (l := l))
    generalize hx : sendStandaloneAck t { e with reliability := _ } = x at hk ⊢
    cases x with
    | error r => exact hk
    | ok e' =>
      obtain ⟨hs, hb⟩ := eq_of_sendStandaloneAck_eq_ok hx
      refine hk.trans (hn e' hs ?_)
      rw [hb]
      simp [ReliabilityLayer.onAccepted]

theorem acts_handleFinFrame {header : ShortHeader} {a : SocketAddr}
    (hl : l = .frame t (.fin header) a) :
    Acts t l e (Outcome.last (e.handleFinFrame t header)) := by
  have harr (e' : Endpoint C) (s : ConnectionState) (ha : arrival e'.state = s)
      (hv : e'.state.isValidTransition s = true)
      (h : e'.reliability.recvBuffer.received[header.sequenceNumber]? = some .fin) :
      Acts t l e' (e'.tryTransition s) := by
    rw [tryTransition_eq, if_pos hv, ← ha]
    exact .single (.finArrived header a hl h)
  unfold handleFinFrame
  split <;> rename_i hs
  · refine acts_receiveFinThen hl (by simp [takes, hs]) fun e' he h => harr e' _ ?_ ?_ h
    · rw [he, hs]; rfl
    · rw [he, hs]; rfl
  · exact acts_receiveFinThen hl (by simp [takes, hs]) fun e' _ _ => .refl
  · refine acts_receiveFinThen hl (by simp [takes, hs]) fun e' he h => harr e' _ ?_ ?_ h
    · rw [he, hs]; rfl
    · rw [he, hs]; rfl
  · exact acts_receiveFinThen hl (by simp [takes, hs]) fun e' _ _ => .refl
  · refine acts_receiveFinThen hl (by simp [takes, hs]) fun e' he h => ?_
    rw [if_pos (he.trans hs)]
    refine harr e' _ ?_ ?_ h
    · rw [he, hs]; rfl
    · rw [he, hs]; rfl
  all_goals exact .refl

theorem acts_resend {frames : List Frame} (h : ∀ f ∈ frames, ∃ q i c,
    e.reliability.retransmissionManager.Keeps q i ∧ f = i.reconstructFrame c t.now) :
    Acts t l e (Outcome.last (e.sendFrames t frames)) := by
  rw [sendFrames_eq, last_sending]
  refine .single (.resend _ ?_)
  rwa [frames_batches, flatten_buildPackets]

theorem acts_processAckCommon {header : ShortHeader} {payload : Bytes} {a : SocketAddr}
    (hl : l = .frame t (.ack header payload) a)
    (h : e.state ≠ .connecting ∧ e.state ≠ .closed) :
    Acts t l e (Outcome.last (e.processAckCommon t header payload)) := by
  unfold processAckCommon
  obtain ⟨r, cc, he⟩ := ReliabilityLayer.handleAck_eq (l := e.reliability)
    header.recvNextSequence (decodeSackRanges payload) t.now e.createRetransmissionContext
  have hc : createRetransmissionContext { e with peerRecvWindow := header.recvWindowSize } =
    e.createRetransmissionContext := rfl
  dsimp only
  rw [hc, he]
  have ha : Acts t l e _ := .single (.processAck header payload a r cc hl h)
  refine ha.trans (acts_resend fun f hf => ?_)
  obtain ⟨q, i, hi, hr⟩ := RetransmissionManager.rebuilds_processAck hf
  exact ⟨q, i, _, hi, hr⟩

theorem acts_handleAckFrame {header : ShortHeader} {payload : Bytes} {a : SocketAddr}
    (hl : l = .frame t (.ack header payload) a) :
    Acts t l e (Outcome.last (e.handleAckFrame t header payload)) := by
  unfold handleAckFrame
  split <;> rename_i hs
  all_goals first
    | exact acts_processAckCommon hl (by simp [hs])
    | exact .refl

theorem packetizeStream_eq : ∃ chunks b,
    Packetized (e.packetizerContext t) e.reliability.sendBuffer chunks b ∧
      e.packetizeStream t = (e.pushes t chunks, e.cut t chunks b) := by
  obtain ⟨chunks, b, hp, he⟩ := ReliabilityLayer.packetizeStreamData_eq (l := e.reliability)
    e.peerCid e.peerRecvWindow t.now e.timing.startTime
  refine ⟨chunks, b, hp, ?_⟩
  rw [packetizeStream, he]
  dsimp only
  rw [payloadsOf_pushFrames]
  rfl

theorem packetizeAndSend_eq : ∃ chunks b bs,
    Packetized (e.packetizerContext t) e.reliability.sendBuffer chunks b ∧
      bs.flatMap (·.frames) = e.pushes t chunks ++ ((e.cut t chunks b).createFin t).1 ∧
      e.packetizeAndSend t = sending t ((e.cut t chunks b).createFin t).2 bs := by
  obtain ⟨chunks, b, hp, he⟩ := packetizeStream_eq (t := t) (e := e)
  have hs : e.packetizeAndSend t =
      sendFrames t ((e.cut t chunks b).createFin t).2
        (e.pushes t chunks ++ ((e.cut t chunks b).createFin t).1) := by
    rw [packetizeAndSend, he]
  rw [sendFrames_eq] at hs
  refine ⟨chunks, b, _, hp, ?_, hs⟩
  rw [frames_batches, flatten_buildPackets]

theorem acts_packetizeAndSend (hs : l.PacketizesIn e.state) :
    Acts t l e (Outcome.last (e.packetizeAndSend t)) := by
  obtain ⟨chunks, b, bs, hp, hb, he⟩ := packetizeAndSend_eq (t := t) (e := e)
  rw [he, last_sending]
  exact .single (.packetize chunks b [] bs hs hp (by simp) hb)

theorem acts_sendInitialSyn (hl : l = .begin t) (h : e.state = .connecting) :
    Acts t l e (Outcome.last (e.sendInitialSyn t)) := by
  obtain ⟨chunks, b, hp, he⟩ := packetizeStream_eq (t := t) (e := e)
  rw [sendInitialSyn, he]
  dsimp only
  split
  · rw [sendRawFrames_eq, last_sending]
    have hf := createFin_of_not_closing (t := t) (e := e.cut t chunks b) (by simp [cut, h])
    have ha := Act.packetize (t := t) (l := l) (e := e) chunks b [e.createSynFrame]
      ((e.cut t chunks b).batches [e.createSynFrame :: e.pushes t chunks])
      (by subst hl; exact h) hp
      (by simp [createSynFrame, Frame.newSyn, Frame.isControl]) (by rw [hf]; simp)
    rw [hf] at ha
    exact .single ha
  · exact .refl

theorem acts_sendZeroRttPackets {data : Bytes} (hl : l = .command t (.sendData data))
    (h : e.state = .established) :
    Acts t l e (Outcome.last (e.sendZeroRttPackets t)) := by
  unfold sendZeroRttPackets
  split
  · rename_i packets reliability heq
    obtain ⟨chunks, b, hp, hf, rfl⟩ :=
      ReliabilityLayer.packetizeZeroRttStreamData_eq (by rfl) heq
    rw [sendPackets_eq, last_sending, hf]
    have hpay : payloadsOf (e.createSynAckFrame :: e.pushes t chunks) = chunks :=
      payloadsOf_pushFrames _ _ _
    have hfin := createFin_of_not_closing (t := t) (e := e.cut t chunks b) (by simp [cut, h])
    have ha := Act.packetize (t := t) (l := l) (e := e) chunks b [e.createSynAckFrame]
      ((e.cut t chunks b).batches packets) (by subst hl; exact h) hp
      (by simp [createSynAckFrame, Frame.newSynAck, Frame.isControl])
      (by rw [hfin, frames_batches, hf]; simp [pushes, packetizerContext])
    rw [hfin] at ha
    change Acts t l e (emit t { e with
      reliability := _
      history := { e.history with
        numbered := e.history.numbered ++
          (payloadsOf (e.createSynAckFrame :: e.pushes t chunks)).map .push } } _)
    rw [hpay]
    exact .single ha
  · exact .refl

theorem acts_processFrame {f : Frame} {a : SocketAddr} (hl : l = .frame t f a) :
    Acts t l e (Outcome.last (e.processFrame t f a)) := by
  cases f with
  | push header payload => exact acts_handlePushFrame hl
  | ack header payload => exact acts_handleAckFrame hl
  | ping header => exact .refl
  | fin header => exact acts_handleFinFrame hl
  | syn header =>
    change Acts t l e (Outcome.last (e.handleSynFrame t))
    unfold handleSynFrame
    split
    · split
      · rw [sendSynAck, sendRawFrames_eq, last_sending]
        refine .single (.control _ ?_)
        simp [createSynAckFrame, Frame.newSynAck, Frame.isControl]
      · exact .refl
    · exact .refl
  | synAck header =>
    change Acts t l e (Outcome.last (e.handleSynAckFrame t header))
    unfold handleSynAckFrame
    split
    · rename_i hs
      dsimp only
      rw [transitionTo_eq, if_pos (by dsimp only; rw [hs]; rfl)]
      have hc : Acts t l e { e with timing := e.timing.cancelTimer .connectionTimeout } :=
        .single (.cancel _ (by decide))
      refine (hc.tail (.establish header a hl hs)).trans ?_
      simp only [bind, Except.bind]
      split
      · exact acts_packetizeAndSend (by subst hl; rfl)
      · exact acts_sendStandaloneAck
    · exact .refl
  | pathChallenge header challengeData =>
    change Acts t l e (Outcome.last (e.handlePathChallengeFrame t header challengeData a))
    unfold handlePathChallengeFrame
    split
    · exact .refl
    · rw [sendPathResponse, sendFrameTo_eq, last_sending]
      refine .single (.control _ ?_)
      simp [createPathResponseFrame, Frame.newPathResponse, Frame.isControl]
  | pathResponse header challengeData =>
    change Acts t l e (Outcome.last (e.handlePathResponseFrame challengeData a))
    unfold handlePathResponseFrame
    cases hs : e.state with
    | validatingPath newAddr challenge n =>
      simp only [ConnectionState.clone]
      split
      · rename_i hm
        obtain ⟨rfl, rfl⟩ := hm
        rw [completePathValidation_eq, if_pos (by rw [hs]; rfl)]
        simp only [bind, Except.bind, Option.toList_none, List.map_nil, List.append_nil]
        exact .single (.pathValidated header challengeData a n hl hs)
      · exact .refl
    | _ => exact .refl

theorem acts_routeFrame {f : Frame} {a : SocketAddr} (hl : l = .frame t f a) :
    Acts t l e (Outcome.last (e.routeFrame t f a)) := by
  have hr : Acts t l e { e with timing := e.timing.onPacketReceived t.now } := .single .received
  exact hr.trans ((acts_checkPathMigration hl).bind fun e' _ => acts_processFrame hl)

theorem acts_release (h : e.state = .closed) : Acts t l e e.release := by
  have ha : Act t l e (release { e with state := .closed }) := .close (Or.inl h)
  rw [← h] at ha
  exact .single ha

theorem acts_shutdownGracefully (hl : l = .command t .close) :
    Acts t l e e.shutdownGracefully := by
  have hs : Acts t l e e.beginGracefulShutdown := .single (.shutdown hl)
  unfold shutdownGracefully
  dsimp only
  split
  · exact hs.trans (acts_release ‹_›)
  · exact hs

theorem acts_shutdown (hl : l = .command t .close) : Acts t l e e.shutdown := by
  rcases shutdown_cases (e := e) with ⟨-, he⟩ | ⟨hs, hb, he⟩ | ⟨hs, hb, he⟩
  · rw [he]
    exact acts_shutdownGracefully hl
  · rw [he]
    exact .head (.endStream hl hs hb) (acts_shutdownGracefully hl)
  · rw [he]
    exact .single (.close (Or.inr (Or.inl ⟨hl, hs, hb⟩)))

omit [CongestionControl C] in
theorem shutdown_state : (e.shutdown.state = .closing ∨ e.shutdown.state = .closingWait) ∨
    e.shutdown.state = .closed := by
  have hgrace (e : Endpoint C) :
      (e.shutdownGracefully.state = .closing ∨ e.shutdownGracefully.state = .closingWait) ∨
        e.shutdownGracefully.state = .closed := by
    unfold shutdownGracefully beginGracefulShutdown
    cases e.state <;> simp [ConnectionState.gracefulShutdown, ConnectionState.clone, release]
  rcases shutdown_cases (e := e) with ⟨-, he⟩ | ⟨-, -, he⟩ | ⟨-, -, he⟩
  · rw [he]
    exact hgrace e
  · rw [he]
    exact hgrace _
  · rw [he]
    exact Or.inr rfl

theorem acts_handleStreamCommand {c : StreamCommand} (hl : l = .command t c) :
    Acts t l e (Outcome.last (e.handleStreamCommand t c)) := by
  cases c with
  | sendData data =>
    change Acts t l e (Outcome.last (e.sendData t data))
    unfold sendData
    split
    · rename_i hs
      rw [transitionTo_eq, if_pos (by rw [hs]; rfl)]
      have ha : Acts t l e { e with state := .established } := .single (.accept data hl hs)
      exact (ha.tail (.write data hl)).trans (acts_sendZeroRttPackets hl rfl)
    · exact .single (.write data hl)
  | close =>
    change Acts t l e (Outcome.last (e.close t))
    unfold close
    dsimp only
    split
    · exact acts_shutdown hl
    · rename_i hs
      refine (acts_shutdown hl).trans (acts_packetizeAndSend ?_)
      subst hl
      exact shutdown_state.resolve_right hs
  | migrate a n =>
    change Acts t l e (Outcome.last (e.migrate t a n))
    unfold migrate
    by_cases hs : e.state = .established
    · rw [startPathValidation_eq, if_pos hs]
      have hc := Act.challenge (t := t) (l := l) (e := e) a n hs (Or.inr hl)
      dsimp only
      rw [sendFrameTo_eq, last_sending]
      exact .single hc
    · rw [startPathValidation_eq, if_neg hs]
      exact .refl

theorem acts_handleTimeoutEvent (hl : l = .poll t) (event : TimeoutEvent) :
    Acts t l e (Outcome.last (e.handleTimeoutEvent event)) := by
  have hclose : Acts t l e { e with state := .closed } := .single (.forceClose hl)
  cases event with
  | idleTimeout =>
    rw [handleTimeoutEvent, transitionTo_eq, if_pos (by cases e.state <;> rfl)]
    exact hclose
  | connectionTimeout =>
    rw [handleTimeoutEvent, transitionTo_eq, if_pos (by cases e.state <;> rfl)]
    exact hclose
  | retransmissionTimeout => exact .refl
  | pathValidationTimeout =>
    rw [handleTimeoutEvent, handlePathValidationTimeout_eq]
    split
    · rename_i hs
      have hc : Acts t l e { e with timing := e.timing.cancelTimer .pathValidationTimeout } :=
        .single (.cancel _ (by decide))
      exact hc.tail (.validationTimeout hs)
    · exact .refl

omit [CongestionControl C] in
theorem reliability_of_handleTimeoutEvent {event : TimeoutEvent}
    (h : e.handleTimeoutEvent event = .ok e') : e'.reliability = e.reliability := by
  cases event with
  | idleTimeout | connectionTimeout =>
    rw [handleTimeoutEvent, transitionTo_eq, if_pos (by cases e.state <;> rfl)] at h
    cases h
  | retransmissionTimeout =>
    cases h
    rfl
  | pathValidationTimeout =>
    rw [handleTimeoutEvent, handlePathValidationTimeout_eq] at h
    split at h <;> cases h <;> rfl

theorem acts_handleTimeoutEvents (hl : l = .poll t) {frames : List Frame}
    (h : ∀ f ∈ frames, ∃ q i c,
      e.reliability.retransmissionManager.Keeps q i ∧ f = i.reconstructFrame c t.now)
    (events : List TimeoutEvent) :
    Acts t l e (Outcome.last
      (events.foldlM (fun e event => e.handleTimeoutEvent event) e >>= fun e =>
        e.sendFrames t frames)) := by
  induction events generalizing e with
  | nil => exact acts_resend h
  | cons event events ih =>
    rw [List.foldlM_cons, bind_assoc]
    refine (acts_handleTimeoutEvent hl event).bind fun e' he => ih ?_
    rw [reliability_of_handleTimeoutEvent he]
    exact h

theorem acts_checkAllTimeouts (hl : l = .poll t) :
    Acts t l e (Outcome.last (e.checkAllTimeouts t)) := by
  have hd : Acts t l e { e with
      timing := { e.timing with timerManager := e.timing.timerManager.checkTimerEvents.2 } } :=
    .single .drainTimers
  rw [last_checkAllTimeouts]
  unfold handleTimeouts
  refine hd.trans ?_
  dsimp only
  split
  · obtain ⟨r, cc, he⟩ := ReliabilityLayer.checkRetransmissions_eq (l := e.reliability) t.now
      e.createRetransmissionContext
    have hc : createRetransmissionContext { e with
        timing := { e.timing with timerManager := e.timing.timerManager.checkTimerEvents.2 } } =
      e.createRetransmissionContext := rfl
    rw [hc, he]
    refine .head (.checkRetransmissions r cc hl) (acts_handleTimeoutEvents hl ?_ _)
    intro f hf
    obtain ⟨q, i, hi, hr⟩ := RetransmissionManager.rebuilds_checkForRetransmissions hf
    exact ⟨q, i, _, hi, hr⟩
  · exact acts_handleTimeoutEvents hl (by simp) _

theorem acts_begin (hl : l = .begin t) : Acts t l e (Outcome.last (e.begin t)) := by
  unfold Endpoint.begin
  split
  · rename_i hs
    exact acts_sendInitialSyn hl hs
  · exact .refl

theorem acts_packetizeIfOpen (hl : l = .followUp t) :
    Acts t l e (Outcome.last (e.packetizeIfOpen t)) := by
  unfold packetizeIfOpen
  subst hl
  split <;> rename_i hs
  · exact acts_packetizeAndSend (Or.inl hs)
  · exact acts_packetizeAndSend (Or.inr (Or.inl hs))
  · exact acts_packetizeAndSend (Or.inr (Or.inr hs))
  · exact .refl

omit [CongestionControl C] in
theorem finTransition_eq (finSeen : Bool) :
    e.finTransition finSeen =
      { e with state := if finSeen then consumption e.state else e.state } := by
  unfold finTransition
  cases finSeen with
  | false => rfl
  | true =>
    rw [if_pos rfl, if_pos rfl]
    split
    · rename_i hs
      rw [tryTransition_eq, if_pos (by rw [hs]; rfl), hs]
      rfl
    · rename_i hs
      rw [tryTransition_eq, if_pos (by rw [hs]; rfl), hs]
      rfl
    · rename_i hs
      rw [tryTransition_eq, if_pos (by rw [hs]; rfl), hs]
      rfl
    · have hs : consumption e.state = e.state := by
        unfold consumption
        split <;> first | rfl | contradiction
      rw [hs]

theorem acts_finTransition (hl : l = .followUp t) {finSeen : Bool}
    (h : finSeen = true → e.reliability.recvBuffer.finReached = true) :
    Acts t l e (e.finTransition finSeen) := by
  rw [finTransition_eq]
  cases finSeen with
  | false => exact .refl
  | true => exact .single (.finReached hl (h rfl))

theorem acts_shouldClose (hl : l = .followUp t) : Acts t l e e.shouldClose.2 := by
  unfold shouldClose
  split
  · rename_i h
    rw [transitionTo_eq, if_pos (by cases e.state <;> rfl)]
    exact .single (.close (Or.inr (Or.inr ⟨hl, h⟩)))
  · exact .refl

omit [CongestionControl C] in
theorem finReached_of_deliver (h : (e.deliver t).1 = true) :
    (e.deliver t).2.reliability.recvBuffer.finReached = true := by
  obtain ⟨data, held, hd⟩ := deliver_eq (t := t) (e := e)
  rw [hd] at h ⊢
  have hs : e.reliability.recvBuffer.reassemble.2.1 = true := h
  exact ReceiveBuffer.reassemble_fin.1.trans (by rw [hs, Bool.or_true])

theorem acts_afterFin (hl : l = .followUp t) :
    Acts t l ((e.deliver t).2.finTransition (e.deliver t).1)
      (Machine.resume (e.followUp t)).endpoint := by
  have hp : Acts t l ((e.deliver t).2.finTransition (e.deliver t).1) _ :=
    acts_packetizeIfOpen hl
  unfold followUp
  dsimp only
  generalize hx : ((e.deliver t).2.finTransition (e.deliver t).1).packetizeIfOpen t = x at hp
  cases x with
  | error r => exact hp
  | ok e' => exact (hp.tail (.sendEof hl)).trans (acts_shouldClose hl)

theorem acts_followUp (hl : l = .followUp t) :
    Acts t l (e.deliver t).2 (Machine.resume (e.followUp t)).endpoint :=
  (acts_finTransition hl finReached_of_deliver).trans (acts_afterFin hl)

end Operations

end Endpoint

namespace Machine

open Endpoint

variable {C : Type} {m m' : Machine C} {l : Label}

@[simp] theorem settle_endpoint (phase : Phase) (x : Outcome C (Endpoint C)) :
    (settle phase x).endpoint = Outcome.last x := by
  cases x <;> rfl

/-- The endpoint at the start of a step: a follow-up first hands over what it can. -/
def opening (m : Machine C) : Label → Endpoint C
  | .followUp t => (m.endpoint.deliver t).2
  | _ => m.endpoint

variable [CongestionControl C]

/-- A step is a sequence of actions, or something the timer task does. -/
theorem acts_of_next (h : m.next l = some m') :
    (∃ t, l.tick? = some t ∧ Acts t l (m.opening l) m'.endpoint) ∨
      (∃ id now, l = .fire id now ∧ m' = m.mapTimers (·.fire id now)) ∨
      ∃ id, l = .dropReplaced id ∧ m' = m.mapTimers (·.dropReplaced id) := by
  cases l with
  | begin t | poll t | frame t f a | command t c =>
    left
    refine ⟨t, rfl, ?_⟩
    simp only [next, Option.ite_none_right_eq_some, Option.some.injEq] at h
    rw [← h.2, settle_endpoint]
    first
      | exact acts_begin rfl
      | exact acts_checkAllTimeouts rfl
      | exact acts_routeFrame rfl
      | exact acts_handleStreamCommand rfl
  | followUp t =>
    left
    refine ⟨t, rfl, ?_⟩
    simp only [next, Option.ite_none_right_eq_some, Option.some.injEq] at h
    rw [← h.2]
    exact acts_followUp rfl
  | fire id now =>
    simp only [next, Option.some.injEq] at h
    exact Or.inr (Or.inl ⟨id, now, rfl, h.symm⟩)
  | dropReplaced id =>
    simp only [next, Option.some.injEq] at h
    exact Or.inr (Or.inr ⟨id, rfl, h.symm⟩)

/-- What holds of new endpoints and is preserved by actions, by delivering and by the timer task
holds of every reachable endpoint. -/
theorem invariant {P : Endpoint C → Prop} (hcreated : ∀ e, e.Created → P e)
    (hact : ∀ t l e e', P e → Act t l e e' → P e')
    (hdeliver : ∀ t e, P e → P (e.deliver t).2)
    (htimers : ∀ (e : Endpoint C) (f : TimerManager → TimerManager), P e →
      P { e with timing := { e.timing with timerManager := f e.timing.timerManager } }) :
    (system C).Invariant fun m => P m.endpoint where
  init m h := hcreated _ h.2
  step m l m' _ hm h := by
    rcases acts_of_next h with ⟨t, -, ha⟩ | ⟨id, now, -, rfl⟩ | ⟨id, -, rfl⟩
    · have hopen : P (m.opening l) := by
        cases l with
        | followUp t => exact hdeliver t _ hm
        | _ => exact hm
      exact ha.preserves (fun e e' => hact t l e e') hopen
    · exact htimers _ (·.fire id now) hm
    · exact htimers _ (·.dropReplaced id) hm

end Machine

end Kestrel
