import Kestrel.Endpoint.Numbering
import Kestrel.Packet.Codec
import Kestrel.Reliability.Range

/-! # Ranges of an endpoint

What every action of an endpoint keeps about its counters: the packets received since the last
acknowledgment, the retries and the size of the send buffer, and the congestion window.
-/

namespace Kestrel

/-- The largest congestion window that a connection starts with or a loss leaves. -/
def Config.leastReach (config : Config) : ℕ :=
  max config.congestionControl.initialCwndPackets config.congestionControl.minCwndPackets

theorem SendBuffer.writeToStream_size {b : SendBuffer} (buf : Bytes) :
    (b.writeToStream buf).2.streamBufferSize =
      b.streamBufferSize + (buf.take (b.writeToStream buf).1).length := by
  unfold writeToStream
  split
  · simp
  · simp

namespace Endpoint

variable {C : Type} {t : Tick} {l : Label} {config : Config}

/-- The two counts of the packets received since the last acknowledgment agree and are within the
smaller type. -/
structure Counted (e : Endpoint C) : Prop where
  count_eq : e.reliability.retransmissionManager.sackManager.ackElicitingPacketsCount =
    e.reliability.ackElicitingPacketsSinceLastAck
  lt : e.reliability.ackElicitingPacketsSinceLastAck < u16Size

/-- The retry counters, the size of the send buffer and the numbers received are within their
types. -/
structure Sized (config : Config) (e : Endpoint C) : Prop where
  config_eq : e.config = config
  retransmission : e.reliability.retransmissionManager.InRange
  within : e.reliability.sendBuffer.Within
  capacity_eq : e.reliability.sendBuffer.streamBufferCapacity =
    config.connection.sendBufferCapacityBytes
  size_eq : e.reliability.packetized.flatten.length + e.reliability.sendBuffer.streamBufferSize =
    e.history.written.length
  keys : e.reliability.recvBuffer.KeysFit

/-- The congestion window has grown by one at most for every packet no longer in flight. -/
structure Windowed (config : Config) (e : Endpoint Vegas) : Prop where
  vegas : e.reliability.congestionControl.InRange
  reach_le : e.reliability.congestionControl.reach +
      e.reliability.retransmissionManager.sackInFlightCount ≤
    config.leastReach + e.history.numbered.length

section

variable {e e' : Endpoint C}

theorem Sized.createFin (h : e.Sized config) : (e.createFin t).2.Sized config := by
  unfold Endpoint.createFin
  split
  · exact { h with retransmission := h.retransmission.addInFlightPacket _ _ }
  · exact h

theorem Sized.write (h : e.Sized config) (data : Bytes) :
    (e.writeToStream data).Sized config where
  config_eq := h.config_eq
  retransmission := h.retransmission
  within := h.within.writeToStream data
  capacity_eq := (SendBuffer.writeToStream_capacity data).trans h.capacity_eq
  size_eq := by
    have hs := SendBuffer.writeToStream_size (b := e.reliability.sendBuffer) data
    dsimp only [writeToStream, ReliabilityLayer.writeToStream]
    rw [hs, ← Nat.add_assoc, h.size_eq, List.length_append]
  keys := h.keys

theorem Sized.deliver (h : e.Sized config) : (e.deliver t).2.Sized config := by
  obtain ⟨data, held, hd⟩ := deliver_eq (t := t) (e := e)
  rw [hd]
  exact { h with keys := h.keys.reassemble }

theorem Counted.createFin (h : e.Counted) : (e.createFin t).2.Counted := by
  unfold Endpoint.createFin
  split
  · refine ⟨?_, h.lt⟩
    exact (RetransmissionManager.ackElicitingPacketsCount_addInFlightPacket _ _).trans h.count_eq
  · exact h

theorem Counted.deliver (h : e.Counted) : (e.deliver t).2.Counted := by
  obtain ⟨data, held, hd⟩ := deliver_eq (t := t) (e := e)
  rw [hd]
  exact { h with }

variable [CongestionControl C]

theorem Act.sized (h : Act t l e e') (hs : e.Sized config)
    (hl : ∀ f a, l = .frame t f a → f.Fits) : e'.Sized config := by
  cases h with
  | receive f a q p hl' hf ht =>
    have hq : q < u32Size := by
      have hfit := hl f a hl'
      cases f <;> cases hf <;> exact hfit.sequenceNumber
    have hk := hs.keys.receive hq p
    cases ha : e.reliability.recvBuffer.accepts q with
    | false =>
      rw [ReliabilityLayer.receive_eq_of_not_accepts ha]
      exact hs
    | true =>
      rw [ReliabilityLayer.receive_eq_of_accepts ha]
      rw [ReceiveBuffer.receive_of_accepts ha] at hk
      refine { hs with retransmission := ?_, keys := hk }
      exact ⟨⟨hs.retransmission.sack.threshold_lt, hs.retransmission.sack.skipped⟩,
        hs.retransmission.simple⟩
  | acknowledge hp =>
    refine { hs with retransmission := ?_ }
    exact ⟨⟨hs.retransmission.sack.threshold_lt, hs.retransmission.sack.skipped⟩,
      hs.retransmission.simple⟩
  | processAck header payload a r cc hl' ht =>
    exact { hs with retransmission := hs.retransmission.processAck _ _ _ _ }
  | checkRetransmissions r cc hl' =>
    have hretx := hs.retransmission.checkForRetransmissions e.reliability.rtoEstimator.rto t.now
      e.createRetransmissionContext
    exact { hs with retransmission := hretx }
  | write data hl' => exact hs.write data
  | packetize chunks b lead bs ht hp hlead hb =>
    have hcut : (e.cut t chunks b).Sized config := by
      obtain ⟨hw, hsize⟩ := hp.room hs.within
      refine { hs with
        retransmission := hs.retransmission.addAll _ _
        within := hw
        capacity_eq := hp.capacity_eq.trans hs.capacity_eq
        size_eq := ?_ }
      have hold := hs.size_eq
      dsimp only [cut]
      rw [List.flatten_append, List.length_append]
      omega
    have hfin := hcut.createFin (t := t)
    exact { hfin with }
  | close ht => exact { hs with retransmission := hs.retransmission.clear }
  | sendEof hl' =>
    unfold Endpoint.sendEof
    split
    · exact { hs with }
    · exact hs
  | _ => exact { hs with }

theorem Act.counted (h : Act t l e e') (hc : e.Counted)
    (hl : ∀ f a, l = .frame t f a → f.item? = none) : e'.Counted := by
  cases h with
  | receive f a q p hl' hf ht =>
    rw [hl f a hl'] at hf
    cases hf
  | acknowledge hp => exact ⟨rfl, Nat.zero_lt_succ _⟩
  | processAck header payload a r cc hl' ht =>
    refine ⟨?_, hc.lt⟩
    exact (SackManager.ackElicitingPacketsCount_processAck _ _ _ _).trans hc.count_eq
  | packetize chunks b lead bs ht hp hlead hb =>
    have hcut : (e.cut t chunks b).Counted := by
      refine ⟨?_, hc.lt⟩
      exact (RetransmissionManager.ackElicitingPacketsCount_addAll _ _).trans hc.count_eq
    have hfin := hcut.createFin (t := t)
    exact { hfin with }
  | sendEof hl' =>
    unfold Endpoint.sendEof
    split
    · exact { hc with }
    · exact hc
  | _ => exact { hc with }

end

theorem Act.windowed {e e' : Endpoint Vegas} (h : Act t l e e') (hw : e.Windowed config)
    (hack : ∀ header payload a, l ≠ .frame t (.ack header payload) a) (hpoll : l ≠ .poll t) :
    e'.Windowed config := by
  obtain ⟨hv, hle⟩ := hw
  cases h with
  | challenge a n hs hl =>
    refine ⟨hv, hle.trans ?_⟩
    simp [emit, numberChallenge]
  | receive f a q p hl' hf ht =>
    cases ha : e.reliability.recvBuffer.accepts q with
    | false =>
      rw [ReliabilityLayer.receive_eq_of_not_accepts ha]
      exact ⟨hv, hle⟩
    | true =>
      rw [ReliabilityLayer.receive_eq_of_accepts ha]
      exact ⟨hv, hle⟩
  | processAck header payload a r cc hl ht => exact absurd hl (hack header payload a)
  | checkRetransmissions r cc hl => exact absurd hl hpoll
  | packetize chunks b lead bs ht hp hlead hb =>
    have hcut : (e.cut t chunks b).Windowed config := by
      have hadd := RetransmissionManager.sackInFlightCount_addAll_le
        (m := e.reliability.retransmissionManager) (e.pushes t chunks) t.now
      have hlen : (e.pushes t chunks).length = chunks.length := length_pushFrames _ _ _
      refine ⟨hv, ?_⟩
      dsimp only [cut]
      rw [List.length_append, List.length_map]
      omega
    have hfin : ((e.cut t chunks b).createFin t).2.Windowed config := by
      unfold Endpoint.createFin
      split
      · have hadd (f : Frame) := RetransmissionManager.sackInFlightCount_addInFlightPacket_le
          (m := (e.cut t chunks b).reliability.retransmissionManager) f t.now
        refine ⟨hcut.vegas, ?_⟩
        have hle := hcut.reach_le
        dsimp only [ReliabilityLayer.trackFrameInFlight, ReliabilityLayer.nextSequenceNumber]
        rw [List.length_append, List.length_singleton]
        exact (Nat.add_le_add_left (hadd _) _).trans (Nat.add_le_add_right hle 1)
      · exact hcut
    exact ⟨hfin.vegas, hfin.reach_le⟩
  | close ht =>
    refine ⟨hv, le_trans ?_ hle⟩
    exact Nat.add_le_add_left (Nat.zero_le _) _
  | sendEof hl =>
    unfold Endpoint.sendEof
    split <;> exact ⟨hv, hle⟩
  | _ => exact ⟨hv, hle⟩

theorem Act.synReceived [CongestionControl C] {e e' : Endpoint C} (h : Act t l e e')
    (hs : e'.state = .synReceived) : e.state = .synReceived := by
  cases h with
  | challenge a n hs' hl => cases hs
  | establish header a hl hs' => cases hs
  | accept data hl hs' => cases hs
  | pathValidated header challenge a n hl hs' => cases hs
  | validationTimeout hs' => cases hs
  | finArrived header a hl hr =>
    cases h : e.state <;> simp [arrival, h] at hs ⊢
  | finReached hl hr =>
    cases h : e.state <;> simp [consumption, h] at hs ⊢
  | shutdown hl =>
    cases h : e.state <;>
      simp [beginGracefulShutdown, ConnectionState.gracefulShutdown, ConnectionState.clone, h]
        at hs ⊢
  | packetize chunks b lead bs hs' hp hlead hb =>
    rw [← hs]
    exact (createFin_state (t := t) (e := e.cut t chunks b)).symm
  | sendEof hl =>
    unfold Endpoint.sendEof at hs
    split at hs <;> exact hs
  | forceClose hl => cases hs
  | close hs' => cases hs
  | _ => exact hs

theorem routeFrame_push_of_synReceived [CongestionControl C] {e : Endpoint C} {a : SocketAddr}
    (header : ShortHeader) (payload : Bytes) (hs : e.state = .synReceived) :
    e.routeFrame t (.push header payload) a = handlePushInSynReceived
      { e with timing := e.timing.onPacketReceived t.now } header payload := by
  have hpath : checkPathMigration t { e with timing := e.timing.onPacketReceived t.now } a =
    .ok { e with timing := e.timing.onPacketReceived t.now } :=
    if_neg fun hc => by simp [hs] at hc
  unfold routeFrame
  dsimp only
  rw [hpath]
  change handlePushFrame t { e with timing := e.timing.onPacketReceived t.now } header payload = _
  unfold handlePushFrame
  dsimp only
  rw [hs]

section

variable {e : Endpoint C}

theorem counted_sendStandaloneAck (h : e.reliability.ackPending = true) :
    (Outcome.last (e.sendStandaloneAck t)).Counted := by
  rw [sendStandaloneAck, ReliabilityLayer.isAckPending, if_pos h, sendRawFrames_eq, last_sending]
  exact ⟨rfl, Nat.zero_lt_succ _⟩

theorem Counted.receiveDataAndMaybeAck (h : e.Counted) (q : ℕ) (payload : Bytes) :
    (Outcome.last (e.receiveDataAndMaybeAck t q payload)).Counted := by
  unfold Endpoint.receiveDataAndMaybeAck ReliabilityLayer.receivePush
  cases ha : e.reliability.recvBuffer.accepts q with
  | false =>
    rw [ReliabilityLayer.receive_eq_of_not_accepts ha]
    exact h
  | true =>
    rw [ReliabilityLayer.receive_eq_of_accepts ha]
    exact counted_sendStandaloneAck rfl

theorem Counted.receiveFinThen (h : e.Counted) (q : ℕ) {next : Endpoint C → Endpoint C}
    (hn : ∀ e', (next e').reliability = e'.reliability) :
    (Outcome.last (e.receiveFinThen t q next)).Counted := by
  unfold Endpoint.receiveFinThen receiveFinAndAck ReliabilityLayer.receiveFin
  cases ha : e.reliability.recvBuffer.accepts q with
  | false =>
    rw [ReliabilityLayer.receive_eq_of_not_accepts ha]
    exact h
  | true =>
    rw [ReliabilityLayer.receive_eq_of_accepts ha]
    dsimp only
    have hack := counted_sendStandaloneAck (t := t)
      (e := { e with
        reliability := e.reliability.onAccepted { e.reliability.recvBuffer with
          received := e.reliability.recvBuffer.received.insert q .fin } }) rfl
    generalize hx : sendStandaloneAck t { e with reliability := _ } = x at hack ⊢
    cases x with
    | error r => exact hack
    | ok e' =>
      have hr : (if true then next e' else e').reliability = e'.reliability := hn e'
      have hc : (if true then next e' else e').Counted := by
        refine ⟨?_, ?_⟩
        · rw [hr]
          exact hack.count_eq
        · rw [hr]
          exact hack.lt
      exact hc

theorem Counted.handleFinFrame (h : e.Counted) (header : ShortHeader) :
    (Outcome.last (e.handleFinFrame t header)).Counted := by
  have htry (e' : Endpoint C) (s : ConnectionState) :
      (e'.tryTransition s).reliability = e'.reliability := by
    rw [tryTransition_eq]
    split <;> rfl
  unfold Endpoint.handleFinFrame
  split
  · exact h.receiveFinThen _ fun e' => htry e' _
  · exact h.receiveFinThen _ fun e' => rfl
  · exact h.receiveFinThen _ fun e' => htry e' _
  · exact h.receiveFinThen _ fun e' => rfl
  · refine h.receiveFinThen _ fun e' => ?_
    split
    · exact htry e' _
    · rfl
  · exact h
  · exact h
  · exact h

theorem Counted.handlePushInSynReceived (h : e.Counted) {header : ShortHeader} (payload : Bytes)
    (hq : e.reliability.recvBuffer.accepts header.sequenceNumber = true →
      e.reliability.ackElicitingPacketsSinceLastAck + 1 < u16Size) :
    (Outcome.last (e.handlePushInSynReceived header payload)).Counted := by
  unfold Endpoint.handlePushInSynReceived ReliabilityLayer.receivePush
  cases ha : e.reliability.recvBuffer.accepts header.sequenceNumber with
  | false =>
    rw [ReliabilityLayer.receive_eq_of_not_accepts ha]
    exact h
  | true =>
    have hlt := hq ha
    have hc := h.count_eq
    rw [ReliabilityLayer.receive_eq_of_accepts ha]
    have hmod : (e.reliability.ackElicitingPacketsSinceLastAck + 1) % u16Size =
        e.reliability.ackElicitingPacketsSinceLastAck + 1 := Nat.mod_eq_of_lt hlt
    constructor
    · change (e.reliability.retransmissionManager.sackManager.ackElicitingPacketsCount + 1) %
        u32Size = (e.reliability.ackElicitingPacketsSinceLastAck + 1) % u16Size
      rw [hmod, hc, Nat.mod_eq_of_lt (by simp only [u16Size, u32Size] at hlt ⊢; omega)]
    · exact Nat.mod_lt _ (by decide)

theorem Counted.handlePushFrame (h : e.Counted) (header : ShortHeader) (payload : Bytes)
    (hs : e.state ≠ .synReceived) :
    (Outcome.last (e.handlePushFrame t header payload)).Counted := by
  unfold Endpoint.handlePushFrame
  split
  · exact absurd ‹_› hs
  · exact h.receiveDataAndMaybeAck _ _
  · exact h.receiveDataAndMaybeAck _ _
  · exact h.receiveDataAndMaybeAck _ _
  · exact h.receiveDataAndMaybeAck _ _
  · exact h.receiveDataAndMaybeAck _ _
  · exact h
  · exact h

end

section

variable {e : Endpoint Vegas}

/-- The samples of an acknowledgment fit, as many as there are packets it takes out of flight. -/
theorem Windowed.samplesFit (h : e.Windowed config)
    (hlen : config.leastReach + e.history.numbered.length < u32Size) (n : ℕ)
    (rs : List SackRange) (now : Instant) (c : RetransmissionContext) :
    e.reliability.congestionControl.SamplesFit
      (e.reliability.retransmissionManager.sackManager.processAck n rs now c).1.rttSamples := by
  have hcount := SackManager.inFlightCount_processAck
    (m := e.reliability.retransmissionManager.sackManager) n rs now c
  have hle := h.reach_le
  unfold RetransmissionManager.sackInFlightCount at hle
  exact (h.vegas.samplesFit _ (by omega)).1

theorem Windowed.processAckCommon (h : e.Windowed config)
    (hlen : config.leastReach + e.history.numbered.length < u32Size) (header : ShortHeader)
    (payload : Bytes) : (Outcome.last (e.processAckCommon t header payload)).Windowed config := by
  have hcount := SackManager.inFlightCount_processAck
    (m := e.reliability.retransmissionManager.sackManager) header.recvNextSequence
    (decodeSackRanges payload) t.now e.createRetransmissionContext
  have hle := h.reach_le
  unfold RetransmissionManager.sackInFlightCount at hle
  obtain ⟨-, hrange, hreach⟩ := h.vegas.samplesFit
    (e.reliability.retransmissionManager.sackManager.processAck header.recvNextSequence
      (decodeSackRanges payload) t.now e.createRetransmissionContext).1.rttSamples (by omega)
  have hcc := ReliabilityLayer.congestionControl_handleAck (l := e.reliability)
    header.recvNextSequence (decodeSackRanges payload) t.now e.createRetransmissionContext
  obtain ⟨r, cc, he⟩ := ReliabilityLayer.handleAck_eq (l := e.reliability)
    header.recvNextSequence (decodeSackRanges payload) t.now e.createRetransmissionContext
  have hc : createRetransmissionContext { e with peerRecvWindow := header.recvWindowSize } =
    e.createRetransmissionContext := rfl
  rw [he] at hcc
  have hvegas : cc.InRange ∧ cc.reach ≤ e.reliability.congestionControl.reach +
      (e.reliability.retransmissionManager.sackManager.processAck header.recvNextSequence
        (decodeSackRanges payload) t.now e.createRetransmissionContext).1.rttSamples.length := by
    rcases hcc with rfl | rfl
    · exact ⟨hrange, hreach⟩
    · exact ⟨hrange.onPacketLoss.1, hrange.onPacketLoss.2.trans hreach⟩
  unfold Endpoint.processAckCommon
  dsimp only
  rw [hc, he, sendFrames_eq, last_sending]
  refine ⟨hvegas.1, ?_⟩
  change cc.reach + (e.reliability.retransmissionManager.sackManager.processAck
    header.recvNextSequence (decodeSackRanges payload) t.now
      e.createRetransmissionContext).2.inFlightCount ≤ config.leastReach + e.history.numbered.length
  omega

theorem Windowed.handleAckFrame (h : e.Windowed config)
    (hlen : config.leastReach + e.history.numbered.length < u32Size) (header : ShortHeader)
    (payload : Bytes) : (Outcome.last (e.handleAckFrame t header payload)).Windowed config := by
  unfold Endpoint.handleAckFrame
  split <;> first | exact h.processAckCommon hlen header payload | exact h

end

section

variable {e : Endpoint C}

theorem kept_handleTimeoutEvent (event : TimeoutEvent) :
    (Outcome.last (e.handleTimeoutEvent event)).reliability = e.reliability ∧
      (Outcome.last (e.handleTimeoutEvent event)).history = e.history := by
  cases event with
  | idleTimeout | connectionTimeout =>
    rw [handleTimeoutEvent, transitionTo_eq, if_pos (by cases e.state <;> rfl)]
    exact ⟨rfl, rfl⟩
  | retransmissionTimeout => exact ⟨rfl, rfl⟩
  | pathValidationTimeout =>
    rw [handleTimeoutEvent, handlePathValidationTimeout_eq]
    split <;> exact ⟨rfl, rfl⟩

theorem kept_handleTimeoutEvents (events : List TimeoutEvent) (frames : List Frame) :
    let e' := Outcome.last (events.foldlM (fun e event => e.handleTimeoutEvent event) e >>=
      fun e => e.sendFrames t frames)
    e'.reliability = e.reliability ∧ e'.history = e.history := by
  induction events generalizing e with
  | nil =>
    change (Outcome.last (e.sendFrames t frames)).reliability = e.reliability ∧
      (Outcome.last (e.sendFrames t frames)).history = e.history
    rw [sendFrames_eq, last_sending]
    exact ⟨rfl, rfl⟩
  | cons event events ih =>
    rw [List.foldlM_cons, bind_assoc]
    have hone := kept_handleTimeoutEvent (e := e) event
    generalize e.handleTimeoutEvent event = x at hone
    cases x with
    | error r => exact hone
    | ok e' =>
      obtain ⟨hr, hh⟩ := ih (e := e')
      exact ⟨hr.trans hone.1, hh.trans hone.2⟩

end

theorem Windowed.checkAllTimeouts {e : Endpoint Vegas} (h : e.Windowed config) :
    (Outcome.last (e.checkAllTimeouts t)).Windowed config := by
  have hsame {e₀ e' : Endpoint Vegas} (h₀ : e₀.Windowed config)
      (hk : e'.reliability = e₀.reliability ∧ e'.history = e₀.history) : e'.Windowed config := by
    refine ⟨?_, ?_⟩
    · rw [hk.1]
      exact h₀.vegas
    · rw [hk.1, hk.2]
      exact h₀.reach_le
  rw [last_checkAllTimeouts]
  unfold handleTimeouts
  dsimp only
  split
  · refine hsame ?_ (kept_handleTimeoutEvents _ _)
    have hc : createRetransmissionContext { e with
        timing := { e.timing with timerManager := e.timing.timerManager.checkTimerEvents.2 } } =
      e.createRetransmissionContext := rfl
    have hcc := ReliabilityLayer.congestionControl_checkRetransmissions (l := e.reliability) t.now
      e.createRetransmissionContext
    obtain ⟨r, cc, he⟩ := ReliabilityLayer.checkRetransmissions_eq (l := e.reliability) t.now
      e.createRetransmissionContext
    have hcount : (e.reliability.retransmissionManager.checkForRetransmissions
        e.reliability.rtoEstimator.rto t.now e.createRetransmissionContext).2.sackInFlightCount =
      e.reliability.retransmissionManager.sackInFlightCount :=
      SackManager.inFlightCount_checkForRto _ _ e.createRetransmissionContext
    rw [he] at hcc
    have hvegas : cc.InRange ∧ cc.reach ≤ e.reliability.congestionControl.reach := by
      rcases hcc with rfl | rfl
      · exact ⟨h.vegas, le_rfl⟩
      · exact h.vegas.onPacketLoss
    have hle := h.reach_le
    rw [hc, he]
    refine ⟨hvegas.1, ?_⟩
    dsimp only
    rw [hcount]
    omega
  · exact hsame h (kept_handleTimeoutEvents _ _)

end Endpoint

end Kestrel
