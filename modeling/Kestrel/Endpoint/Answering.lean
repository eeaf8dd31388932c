import Kestrel.Endpoint.Heard
import Kestrel.Packet.Codec
import Kestrel.Reliability.Range

/-! # Answers

Which steps send acknowledgments, and what these name. An item of the stream is acknowledged when
it is new to the receive buffer, in the states in which it is taken, but for data that comes before
the connection is established; nothing else is.
-/

namespace Kestrel

namespace Frame

def isAck : Frame → Bool
  | .ack .. => true
  | _ => false

/-- The frame is an acknowledgment that names the number. -/
def Acks (q : ℕ) : Frame → Prop
  | .ack header payload => AckNames header.recvNextSequence (decodeSackRanges payload) q
  | _ => False

instance (q : ℕ) : DecidablePred (Acks q)
  | .ack header payload =>
    inferInstanceAs (Decidable (AckNames header.recvNextSequence (decodeSackRanges payload) q))
  | .push .. | .ping _ | .syn _ | .synAck _ | .fin _ | .pathChallenge .. | .pathResponse .. =>
    .isFalse id

theorem isAck_reconstructFrame (i : RetransmissionFrameInfo) (c : RetransmissionContext)
    (now : Instant) : (i.reconstructFrame c now).isAck = false := by
  unfold RetransmissionFrameInfo.reconstructFrame
  cases i.frameType <;> rfl

end Frame

namespace Endpoint

variable {C : Type} {t : Tick} {l : Label} {e e₁ e' : Endpoint C} {q : ℕ}

def acksSent (e : Endpoint C) : List Frame := e.framesSent.filter Frame.isAck

/-- In which states an item that is new is acknowledged. -/
def acknowledges (s : ConnectionState) : PacketOrFin → Bool
  | .push _ => s ≠ .connecting ∧ s ≠ .synReceived ∧ s ≠ .closed
  | .fin => s ≠ .connecting ∧ s ≠ .closingWait ∧ s ≠ .closed

/-- The item under a number is new, and the acknowledgment that it leads to names another. -/
def Tells (t : Tick) (e : Endpoint C) (k q : ℕ) : Prop :=
  t.senderOpen = true ∧ e.reliability.recvBuffer.accepts k = true ∧
    (q = k ∨ e.reliability.recvBuffer.Recorded q)

/-- The frame brings an item that is acknowledged, and the acknowledgment names the number. -/
def Prompts (t : Tick) (e : Endpoint C) (f : Frame) (q : ℕ) : Prop :=
  ∃ k p, f.item? = some (k, p) ∧ acknowledges e.state p = true ∧ Tells t e k q

/-- Between the two endpoints acknowledgments were sent, and these numbers are named by them. -/
def SendsAcks (e e' : Endpoint C) (Q : ℕ → Prop) : Prop :=
  ∃ new, e'.acksSent = e.acksSent ++ new ∧ ∀ q, (∃ f ∈ new, f.Acks q) ↔ Q q

theorem SendsAcks.of_eq (h : e'.acksSent = e.acksSent) : SendsAcks e e' fun _ => False :=
  ⟨[], by rw [h, List.append_nil], by simp⟩

theorem SendsAcks.trans {P Q : ℕ → Prop} (h : SendsAcks e e₁ P) (h' : SendsAcks e₁ e' Q) :
    SendsAcks e e' fun q => P q ∨ Q q := by
  obtain ⟨new, hn, hp⟩ := h
  obtain ⟨new', hn', hq⟩ := h'
  refine ⟨new ++ new', by rw [hn', hn, List.append_assoc], fun q => ?_⟩
  change _ ↔ P q ∨ Q q
  rw [← hp, ← hq]
  simp only [List.mem_append, or_and_right, exists_or]

theorem SendsAcks.congr {P Q : ℕ → Prop} (h : SendsAcks e e' P) (hpq : ∀ q, P q ↔ Q q) :
    SendsAcks e e' Q := by
  obtain ⟨new, hn, hp⟩ := h
  exact ⟨new, hn, fun q => (hp q).trans (hpq q)⟩

theorem acksSent_emit (bs : List FrameBatch) : (e.emit t bs).acksSent =
    e.acksSent ++ if t.senderOpen then (bs.flatMap (·.frames)).filter Frame.isAck else [] := by
  rw [acksSent, framesSent_emit, List.filter_append]
  split <;> rfl

theorem acksSent_emit_of_not {bs : List FrameBatch}
    (h : ∀ f ∈ bs.flatMap (·.frames), f.isAck = false) : (e.emit t bs).acksSent = e.acksSent := by
  have hnone : (bs.flatMap (·.frames)).filter Frame.isAck = [] := by
    rw [List.filter_eq_nil_iff]
    intro f hf
    rw [h f hf]
    simp
  rw [acksSent_emit, hnone, ite_self, List.append_nil]

theorem acksSent_bind {x : Outcome C (Endpoint C)} {f : Endpoint C → Outcome C (Endpoint C)}
    (hx : (Outcome.last x).acksSent = e.acksSent)
    (hf : ∀ e', x = .ok e' → (Outcome.last (f e')).acksSent = e'.acksSent) :
    (Outcome.last (x >>= f)).acksSent = e.acksSent := by
  cases x with
  | ok e' => exact (hf e' rfl).trans hx
  | error r => exact hx

theorem acksSent_sendFrames {frames : List Frame} (h : ∀ f ∈ frames, f.isAck = false) :
    (Outcome.last (e.sendFrames t frames)).acksSent = e.acksSent := by
  rw [sendFrames_eq, last_sending]
  apply acksSent_emit_of_not
  rwa [frames_batches, flatten_buildPackets]

theorem acksSent_sendFrameTo {f : Frame} (h : f.isAck = false) (a : SocketAddr) :
    (Outcome.last (e.sendFrameTo t f a)).acksSent = e.acksSent := by
  rw [sendFrameTo_eq, last_sending]
  exact acksSent_emit_of_not (by simpa using h)

theorem acksSent_createFin : (e.createFin t).2.acksSent = e.acksSent ∧
    ∀ f ∈ (e.createFin t).1, f.isAck = false := by
  unfold createFin
  split
  · exact ⟨rfl, by simp [createFinFrame, Frame.newFin, Frame.isAck]⟩
  · exact ⟨rfl, by simp⟩

theorem acksSent_transitionTo (s : ConnectionState) :
    (Outcome.last (e.transitionTo s)).acksSent = e.acksSent := by
  rw [transitionTo_eq]
  split <;> rfl

theorem acksSent_migrate (a : SocketAddr) (n : Notifier) :
    (Outcome.last (e.migrate t a n)).acksSent = e.acksSent := by
  unfold migrate
  rw [startPathValidation_eq]
  split
  · rename_i h
    split at h
    · cases h
    · cases h
      rfl
  · rename_i h
    split at h
    · cases h
      exact acksSent_sendFrameTo rfl a
    · cases h

theorem acksSent_handleTimeoutEvent (event : TimeoutEvent) :
    (Outcome.last (e.handleTimeoutEvent event)).acksSent = e.acksSent := by
  cases event with
  | idleTimeout | connectionTimeout =>
    rw [handleTimeoutEvent, transitionTo_eq, if_pos (by cases e.state <;> rfl)]
    rfl
  | retransmissionTimeout => rfl
  | pathValidationTimeout =>
    rw [handleTimeoutEvent, handlePathValidationTimeout_eq]
    split <;> rfl

theorem acksSent_handleTimeoutEvents (events : List TimeoutEvent) :
    (Outcome.last (events.foldlM (fun e event => e.handleTimeoutEvent event) e)).acksSent =
      e.acksSent := by
  induction events generalizing e with
  | nil => rfl
  | cons event events ih =>
    rw [List.foldlM_cons]
    exact acksSent_bind (acksSent_handleTimeoutEvent event) fun e' _ => ih

section Quiet

theorem acksSent_sendSynAck : (Outcome.last (e.sendSynAck t)).acksSent = e.acksSent := by
  rw [sendSynAck, sendRawFrames_eq, last_sending]
  exact acksSent_emit_of_not (by simp [createSynAckFrame, Frame.newSynAck, Frame.isAck])

theorem acksSent_shutdownGracefully : e.shutdownGracefully.acksSent = e.acksSent := by
  unfold shutdownGracefully
  dsimp only
  split <;> rfl

theorem acksSent_shutdown : e.shutdown.acksSent = e.acksSent := by
  rw [shutdown_eq]
  split
  · rfl
  · split
    · exact acksSent_shutdownGracefully
    · exact acksSent_shutdownGracefully

theorem acksSent_shouldClose : e.sendEof.shouldClose.2.acksSent = e.acksSent := by
  have heof : e.sendEof.acksSent = e.acksSent := by
    unfold sendEof
    split <;> rfl
  refine Eq.trans ?_ heof
  unfold shouldClose
  split
  · rw [transitionTo_eq, if_pos (by cases e.sendEof.state <;> rfl)]
    rfl
  · rfl

variable [CongestionControl C]

theorem isAck_pushes (chunks : List Bytes) : ∀ f ∈ e.pushes t chunks, f.isAck = false := by
  intro f hf
  obtain ⟨n, chunk, -, rfl⟩ := mem_pushFrames.mp hf
  rfl

theorem acksSent_packetizeAndSend :
    (Outcome.last (e.packetizeAndSend t)).acksSent = e.acksSent := by
  obtain ⟨chunks, b, bs, hp, hb, he⟩ := packetizeAndSend_eq (t := t) (e := e)
  obtain ⟨hsent, hfin⟩ := acksSent_createFin (t := t) (e := e.cut t chunks b)
  rw [he, last_sending]
  refine (acksSent_emit_of_not ?_).trans hsent
  intro f hf
  rw [hb] at hf
  rcases List.mem_append.mp hf with hf | hf
  · exact isAck_pushes chunks f hf
  · exact hfin f hf

theorem acksSent_packetizeIfOpen :
    (Outcome.last (e.packetizeIfOpen t)).acksSent = e.acksSent := by
  unfold packetizeIfOpen
  split
  · exact acksSent_packetizeAndSend
  · exact acksSent_packetizeAndSend
  · exact acksSent_packetizeAndSend
  · rfl

theorem acksSent_begin : (Outcome.last (e.begin t)).acksSent = e.acksSent := by
  unfold Endpoint.begin
  split
  · obtain ⟨chunks, b, hp, he⟩ := packetizeStream_eq (t := t) (e := e)
    rw [sendInitialSyn, he]
    dsimp only
    split
    · rw [sendRawFrames_eq, last_sending]
      apply acksSent_emit_of_not (e := e.cut t chunks b)
      rw [frames_batches, List.flatten_singleton]
      intro f hf
      rcases List.mem_cons.mp hf with rfl | hf
      · rfl
      · exact isAck_pushes chunks f hf
    · rfl
  · rfl

theorem acksSent_sendZeroRttPackets :
    (Outcome.last (e.sendZeroRttPackets t)).acksSent = e.acksSent := by
  unfold sendZeroRttPackets
  split
  · rename_i packets reliability heq
    obtain ⟨chunks, b, hp, hf, rfl⟩ :=
      ReliabilityLayer.packetizeZeroRttStreamData_eq (by rfl) heq
    rw [sendPackets_eq, last_sending]
    refine acksSent_emit_of_not ?_
    rw [frames_batches, hf]
    intro f hf
    rcases List.mem_cons.mp hf with rfl | hf
    · rfl
    · exact isAck_pushes chunks f hf
  · rfl

theorem acksSent_handleStreamCommand (c : StreamCommand) :
    (Outcome.last (e.handleStreamCommand t c)).acksSent = e.acksSent := by
  cases c with
  | sendData data =>
    change (Outcome.last (e.sendData t data)).acksSent = e.acksSent
    unfold sendData
    split
    · refine acksSent_bind (acksSent_transitionTo _) fun e' _ => ?_
      exact acksSent_sendZeroRttPackets (e := e'.writeToStream data)
    · rfl
  | close =>
    change (Outcome.last (e.close t)).acksSent = e.acksSent
    unfold close
    dsimp only
    split
    · exact acksSent_shutdown
    · exact acksSent_packetizeAndSend.trans acksSent_shutdown
  | migrate a n => exact acksSent_migrate a n

theorem acksSent_processAckCommon (header : ShortHeader) (payload : Bytes) :
    (Outcome.last (e.processAckCommon t header payload)).acksSent = e.acksSent := by
  unfold processAckCommon
  obtain ⟨r, cc, he⟩ := ReliabilityLayer.handleAck_eq (l := e.reliability)
    header.recvNextSequence (decodeSackRanges payload) t.now
      (createRetransmissionContext { e with peerRecvWindow := header.recvWindowSize })
  dsimp only
  rw [he]
  refine acksSent_sendFrames ?_
  intro f hf
  obtain ⟨q, i, -, rfl⟩ := RetransmissionManager.rebuilds_processAck hf
  exact Frame.isAck_reconstructFrame _ _ _

theorem acksSent_checkAllTimeouts :
    (Outcome.last (e.checkAllTimeouts t)).acksSent = e.acksSent := by
  have hfold {e₀ : Endpoint C} {events : List TimeoutEvent} {frames : List Frame}
      (h : ∀ f ∈ frames, f.isAck = false) :
      (Outcome.last (events.foldlM (fun e event => e.handleTimeoutEvent event) e₀ >>= fun e =>
        e.sendFrames t frames)).acksSent = e₀.acksSent :=
    acksSent_bind (acksSent_handleTimeoutEvents events) fun e' _ => acksSent_sendFrames h
  rw [last_checkAllTimeouts]
  unfold handleTimeouts
  dsimp only
  split
  · refine hfold ?_
    intro f hf
    obtain ⟨r, cc, he⟩ := ReliabilityLayer.checkRetransmissions_eq (l := e.reliability) t.now
      (createRetransmissionContext { e with
        timing := { e.timing with timerManager := e.timing.timerManager.checkTimerEvents.2 } })
    rw [he] at hf
    obtain ⟨q, i, -, rfl⟩ := RetransmissionManager.rebuilds_checkForRetransmissions hf
    exact Frame.isAck_reconstructFrame _ _ _
  · exact hfold (by simp)

theorem acksSent_followUp :
    (Machine.resume (e.followUp t)).endpoint.acksSent = e.acksSent := by
  have hopen : ((e.deliver t).2.finTransition (e.deliver t).1).acksSent = e.acksSent := by
    obtain ⟨data, held, hd⟩ := deliver_eq (t := t) (e := e)
    rw [finTransition_eq, hd]
    rfl
  have hsend := acksSent_packetizeIfOpen (t := t)
    (e := (e.deliver t).2.finTransition (e.deliver t).1)
  unfold followUp
  dsimp only
  generalize packetizeIfOpen t ((e.deliver t).2.finTransition (e.deliver t).1) = x at hsend ⊢
  cases x with
  | error r => exact hsend.trans hopen
  | ok e₂ => exact acksSent_shouldClose.trans (hsend.trans hopen)

end Quiet

section Receiving

theorem acks_createAckFrame (hk : e.reliability.recvBuffer.KeysFit) :
    (e.createAckFrame t).Acks q ↔ e.reliability.recvBuffer.Recorded q := by
  have hd := decode_encodeSackRanges (ReceiveBuffer.getSackRanges_fits hk)
  simp only [createAckFrame, Frame.newAck, Frame.Acks, ReliabilityLayer.getAckInfo]
  rw [hd]
  exact ReceiveBuffer.covered_iff

/-- The acknowledgment of an item that is new, if the socket takes it. -/
def receipt (t : Tick) (e : Endpoint C) (k : ℕ) (p : PacketOrFin) : List Frame :=
  if t.senderOpen = true ∧ e.reliability.recvBuffer.accepts k = true then
    [createAckFrame t { e with reliability := (e.reliability.receive k p).2 }]
  else []

/-- The acknowledgments a frame leads to. -/
def acksFor (t : Tick) (e : Endpoint C) (f : Frame) : List Frame :=
  match f.item? with
  | some (k, p) => if acknowledges e.state p = true then receipt t e k p else []
  | none => []

theorem acksFor_congr {f : Frame} (hs : ∀ p, acknowledges e'.state p = acknowledges e.state p)
    (hc : e'.peerCid = e.peerCid) (ht : e'.timing.startTime = e.timing.startTime)
    (hb : e'.reliability.recvBuffer = e.reliability.recvBuffer) :
    acksFor t e' f = acksFor t e f := by
  unfold acksFor
  split
  · rename_i k p hf
    rw [hs, receipt, receipt, hb]
    unfold createAckFrame ReliabilityLayer.getAckInfo
    simp only [ReliabilityLayer.receive_recvBuffer, hc, ht, hb]
  · rfl

theorem acksSent_receive {k : ℕ} (p : PacketOrFin)
    (ha : e.reliability.recvBuffer.accepts k = true) :
    (Outcome.last (sendStandaloneAck t
      { e with reliability := (e.reliability.receive k p).2 })).acksSent =
        e.acksSent ++ receipt t e k p := by
  have hpending : (e.reliability.receive k p).2.isAckPending = true := by
    rw [ReliabilityLayer.receive_eq_of_accepts ha]
    rfl
  rw [sendStandaloneAck, if_pos hpending, sendRawFrames_eq, last_sending, acksSent_emit, receipt]
  cases t.senderOpen with
  | true =>
    rw [if_pos rfl, if_pos ⟨rfl, ha⟩]
    rfl
  | false => simp [acksSent, framesSent]

theorem receipt_of_not_accepts {k : ℕ} (ha : e.reliability.recvBuffer.accepts k = false)
    (p : PacketOrFin) : receipt t e k p = [] := by
  simp [receipt, ha]

theorem acksSent_receiveDataAndMaybeAck (k : ℕ) (payload : Bytes) :
    (Outcome.last (e.receiveDataAndMaybeAck t k payload)).acksSent =
      e.acksSent ++ receipt t e k (.push payload) := by
  unfold receiveDataAndMaybeAck ReliabilityLayer.receivePush
  cases ha : e.reliability.recvBuffer.accepts k with
  | false =>
    rw [ReliabilityLayer.receive_eq_of_not_accepts ha, receipt_of_not_accepts ha,
      List.append_nil]
    rfl
  | true =>
    have hnew := acksSent_receive (t := t) (.push payload) ha
    rw [ReliabilityLayer.receive_eq_of_accepts ha] at hnew ⊢
    exact hnew

theorem acksSent_receiveFinThen {k : ℕ} {next : Endpoint C → Endpoint C}
    (hn : ∀ e', (next e').acksSent = e'.acksSent) :
    (Outcome.last (e.receiveFinThen t k next)).acksSent = e.acksSent ++ receipt t e k .fin := by
  unfold receiveFinThen receiveFinAndAck ReliabilityLayer.receiveFin
  cases ha : e.reliability.recvBuffer.accepts k with
  | false =>
    rw [ReliabilityLayer.receive_eq_of_not_accepts ha, receipt_of_not_accepts ha,
      List.append_nil]
    rfl
  | true =>
    have hnew := acksSent_receive (t := t) .fin ha
    rw [ReliabilityLayer.receive_eq_of_accepts ha] at hnew ⊢
    dsimp only at hnew ⊢
    generalize sendStandaloneAck t { e with reliability := _ } = x at hnew ⊢
    cases x with
    | error r => exact hnew
    | ok e' => exact (hn e').trans hnew

theorem acksSent_handlePushFrame (header : ShortHeader) (payload : Bytes) :
    (Outcome.last (e.handlePushFrame t header payload)).acksSent =
      e.acksSent ++ acksFor t e (.push header payload) := by
  have hack (hs : acknowledges e.state (.push payload) = true) :
      (Outcome.last (e.receiveDataAndMaybeAck t header.sequenceNumber payload)).acksSent =
        e.acksSent ++ acksFor t e (.push header payload) := by
    rw [acksSent_receiveDataAndMaybeAck]
    simp [acksFor, Frame.item?, hs]
  have hnot (hs : acknowledges e.state (.push payload) = false) :
      e.acksSent = e.acksSent ++ acksFor t e (.push header payload) := by
    simp [acksFor, Frame.item?, hs]
  unfold handlePushFrame
  split <;> rename_i hs
  · exact hnot (by rw [hs]; rfl)
  all_goals first
    | exact hack (by rw [hs]; rfl)
    | exact hnot (by rw [hs]; rfl)

theorem acksSent_handleFinFrame (header : ShortHeader) :
    (Outcome.last (e.handleFinFrame t header)).acksSent =
      e.acksSent ++ acksFor t e (.fin header) := by
  have htry (s : ConnectionState) (e' : Endpoint C) :
      (e'.tryTransition s).acksSent = e'.acksSent := by
    rw [tryTransition_eq]
    split <;> rfl
  have hfin {next : Endpoint C → Endpoint C} (hn : ∀ e', (next e').acksSent = e'.acksSent)
      (hs : acknowledges e.state .fin = true) :
      (Outcome.last (e.receiveFinThen t header.sequenceNumber next)).acksSent =
        e.acksSent ++ acksFor t e (.fin header) := by
    rw [acksSent_receiveFinThen hn]
    simp [acksFor, Frame.item?, hs]
  have hnot (hs : acknowledges e.state .fin = false) :
      e.acksSent = e.acksSent ++ acksFor t e (.fin header) := by
    simp [acksFor, Frame.item?, hs]
  unfold handleFinFrame
  split <;> rename_i hs
  · exact hfin (htry _) (by rw [hs]; rfl)
  · exact hfin (fun _ => rfl) (by rw [hs]; rfl)
  · exact hfin (htry _) (by rw [hs]; rfl)
  · exact hfin (fun _ => rfl) (by rw [hs]; rfl)
  · refine hfin (fun e' => ?_) (by rw [hs]; rfl)
    split
    · exact htry _ e'
    · rfl
  all_goals exact hnot (by rw [hs]; rfl)

theorem acksSent_processFrame [CongestionControl C] (f : Frame) (a : SocketAddr)
    (hc : e.state = .connecting → e.reliability.ackPending = false) :
    (Outcome.last (e.processFrame t f a)).acksSent = e.acksSent ++ acksFor t e f := by
  have hquiet {e' : Endpoint C} (hi : f.item? = none) (h : e'.acksSent = e.acksSent) :
      e'.acksSent = e.acksSent ++ acksFor t e f := by
    rw [h, acksFor, hi, List.append_nil]
  cases f with
  | push header payload => exact acksSent_handlePushFrame header payload
  | fin header => exact acksSent_handleFinFrame header
  | ping header => exact hquiet rfl rfl
  | syn header =>
    refine hquiet rfl ?_
    change (Outcome.last (e.handleSynFrame t)).acksSent = e.acksSent
    unfold handleSynFrame
    split
    · split
      · exact acksSent_sendSynAck
      · rfl
    · rfl
  | ack header payload =>
    refine hquiet rfl ?_
    change (Outcome.last (e.handleAckFrame t header payload)).acksSent = e.acksSent
    unfold handleAckFrame
    split
    iterate 6 exact acksSent_processAckCommon header payload
    all_goals rfl
  | synAck header =>
    refine hquiet rfl ?_
    change (Outcome.last (e.handleSynAckFrame t header)).acksSent = e.acksSent
    unfold handleSynAckFrame
    split
    · rename_i hs
      dsimp only
      rw [transitionTo_eq, if_pos (by dsimp only; rw [hs]; rfl)]
      dsimp only [bind, Except.bind]
      split
      · exact acksSent_packetizeAndSend
      · rw [sendStandaloneAck, ReliabilityLayer.isAckPending, hc hs]
        rfl
    · rfl
  | pathChallenge header challenge =>
    refine hquiet rfl ?_
    change (Outcome.last (e.handlePathChallengeFrame t header challenge a)).acksSent = e.acksSent
    unfold handlePathChallengeFrame
    split
    · rfl
    · exact acksSent_sendFrameTo rfl a
  | pathResponse header challenge =>
    refine hquiet rfl ?_
    change (Outcome.last (e.handlePathResponseFrame challenge a)).acksSent = e.acksSent
    unfold handlePathResponseFrame
    split
    · split
      · rw [completePathValidation_eq]
        split <;> rfl
      · rfl
    · rfl

/-- A frame is processed after the check of its path, which changes neither what is recorded nor
in which kind of state the endpoint is. -/
theorem acksSent_routeFrame [CongestionControl C] (f : Frame) (a : SocketAddr)
    (hc : e.state = .connecting → e.reliability.ackPending = false) :
    (Outcome.last (e.routeFrame t f a)).acksSent = e.acksSent ++ acksFor t e f := by
  change (Outcome.last ((e.heard t.now).checkPathMigration t a >>= fun e =>
    e.processFrame t f a)).acksSent = _
  unfold checkPathMigration
  split
  · rename_i h
    have hs : e.state = .established := h.2
    rw [startPathValidation_eq, if_pos h.2]
    dsimp only [bind, Except.bind]
    rw [sendFrameTo_eq]
    by_cases ho : t.senderOpen = true
    · rw [sending_of_senderOpen ho]
      dsimp only
      generalize he : emit t _ _ = e₁
      have hv : ∃ c n, e₁.state = .validatingPath a c n := ⟨_, _, by rw [← he]; rfl⟩
      have hsent : e₁.acksSent = e.acksSent := by
        rw [← he]
        exact acksSent_emit_of_not (by simp [createPathChallengeFrame, Frame.newPathChallenge,
          Frame.isAck])
      obtain ⟨c, n, hv⟩ := hv
      rw [acksSent_processFrame f a (by simp [hv]), hsent]
      congr 1
      apply acksFor_congr
      · intro p
        rw [hv, hs]
        cases p <;> rfl
      all_goals
        rw [← he]
        rfl
    · have hnone : acksFor t e f = [] := by
        unfold acksFor receipt
        split <;> simp [ho]
      rw [sending, if_neg (by simp [ho]), hnone, List.append_nil]
      rfl
  · have hsame : acksFor t (e.heard t.now) f = acksFor t e f :=
      acksFor_congr (fun _ => rfl) rfl rfl rfl
    have hsent := acksSent_processFrame (t := t) (e := e.heard t.now) f a hc
    rw [hsame] at hsent
    exact hsent

/-- A frame is acknowledged with everything recorded before. -/
theorem acks_acksFor {f : Frame} (hf : f.Fits) (hk : e.reliability.recvBuffer.KeysFit) :
    (∃ g ∈ acksFor t e f, g.Acks q) ↔ Prompts t e f q := by
  unfold acksFor Prompts
  cases hi : f.item? with
  | none => simp
  | some i =>
    obtain ⟨k, p⟩ := i
    have hq : k < u32Size := by
      cases f <;> cases hi <;> exact hf.sequenceNumber
    have hkeys := hk.receive hq p
    rw [← ReliabilityLayer.receive_recvBuffer] at hkeys
    have hack := acks_createAckFrame (t := t) (q := q)
      (e := { e with reliability := (e.reliability.receive k p).2 }) hkeys
    by_cases hs : acknowledges e.state p = true
    · by_cases ha : e.reliability.recvBuffer.accepts k = true
      · have hrec := ReceiveBuffer.recorded_receive_iff (q := q) ha p
        by_cases ho : t.senderOpen = true
        · simp [hs, receipt, Tells, ho, ha, hack, hrec]
        · simp [hs, receipt, Tells, ho]
      · simp [hs, receipt, Tells, ha]
    · simp [hs]

end Receiving

/-- The numbers that are buffered have 32 bits, and before the connection is established nothing
waits to be acknowledged. -/
structure Hears (e : Endpoint C) : Prop where
  keys : e.reliability.recvBuffer.KeysFit
  quiet : e.state = .connecting → e.reliability.ackPending = false

end Endpoint

/-- The numbers of a frame that arrives have their widths. -/
def Label.FrameFits : Label → Prop
  | .frame _ f _ => f.Fits
  | _ => True

namespace Endpoint

variable {C : Type} [CongestionControl C] {t : Tick} {l : Label} {e e' : Endpoint C}

theorem Act.quiet (h : Act t l e e') (he : e.state = .connecting → e.reliability.ackPending = false)
    (hs : e'.state = .connecting) : e'.reliability.ackPending = false := by
  have hc := h.connecting hs
  have hq := he hc
  cases h with
  | receive f a q p hl' hf ht =>
    rw [hc] at ht
    cases p <;> cases ht
  | acknowledge hp => rfl
  | packetize chunks b lead bs hp hb hlead hf =>
    change ((e.cut t chunks b).createFin t).2.reliability.ackPending = false
    unfold Endpoint.createFin
    split <;> exact hq
  | sendEof hl' =>
    unfold Endpoint.sendEof
    split <;> exact hq
  | _ => exact hq

theorem Act.hears (h : Act t l e e') (hl : l.FrameFits) (he : e.Hears) : e'.Hears := by
  refine ⟨?_, h.quiet he.quiet⟩
  cases h with
  | receive f a q p hl' hf ht =>
    have hq : q < u32Size := by
      subst hl'
      cases f <;> cases hf <;> exact hl.sequenceNumber
    rw [ReliabilityLayer.receive_recvBuffer]
    exact he.keys.receive hq p
  | packetize chunks b lead bs hs hp hlead hb =>
    change ((e.cut t chunks b).createFin t).2.reliability.recvBuffer.KeysFit
    unfold Endpoint.createFin
    split <;> exact he.keys
  | sendEof hl' =>
    unfold Endpoint.sendEof
    split <;> exact he.keys
  | _ => exact he.keys

end Endpoint

namespace Machine

open Endpoint

variable {C : Type} {m m' : Machine C} {l : Label} {ls : List Label} {q : ℕ}

/-- The acknowledgments sent between two states of a run. -/
def newAcks (m m' : Machine C) : List Frame :=
  m'.endpoint.acksSent.drop m.endpoint.acksSent.length

/-- The step brings an item whose sender waits for an acknowledgment: a FIN, or data before the
FIN was reached, when the connection is neither still being requested nor closed. -/
def Due (m : Machine C) (q : ℕ) : Label → Prop
  | .frame _ f _ => ∃ i ∈ f.item?, i.1 = q ∧ m.endpoint.state ≠ .connecting ∧
      m.endpoint.state ≠ .closed ∧
      (i.2 = .fin ∨ m.endpoint.reliability.recvBuffer.finReached = false)
  | _ => False

instance : DecidablePred (m.Due q)
  | .frame _ f _ => inferInstanceAs (Decidable (∃ i ∈ f.item?, _))
  | .begin _ | .command .. | .poll _ | .followUp _ | .fire .. | .dropReplaced _ => .isFalse id

/-- The step brings an item whose acknowledgment names the number. -/
def Prompts (m : Machine C) (q : ℕ) : Label → Prop
  | .frame t f _ => m.endpoint.Prompts t f q
  | _ => False

variable [CongestionControl C]

def Meets (P : Machine C → Label → Prop) (m : Machine C) : List Label → Prop
  | [] => False
  | l :: ls => P m l ∨ ∃ m', m.next l = some m' ∧ m'.Meets P ls

theorem hears_step (hn : m.next l = some m') (hl : l.FrameFits) (hm : m.endpoint.Hears) :
    m'.endpoint.Hears := by
  rcases acts_of_next hn with ⟨t, -, ha⟩ | ⟨id, now, -, rfl⟩ | ⟨id, -, rfl⟩
  · have hopen : (m.opening l).Hears := by
      cases l with
      | followUp t =>
        obtain ⟨data, held, hd⟩ := deliver_eq (t := t) (e := m.endpoint)
        change (m.endpoint.deliver t).2.Hears
        rw [hd]
        exact ⟨hm.keys.reassemble, hm.quiet⟩
      | _ => exact hm
    exact ha.preserves (fun e e' he ha => ha.hears hl he) hopen
  · exact ⟨hm.keys, hm.quiet⟩
  · exact ⟨hm.keys, hm.quiet⟩

omit [CongestionControl C] in
theorem hears_created {e : Endpoint C} (h : e.Created) : e.Hears := by
  cases h with
  | client config a cid cc data t =>
    cases data <;> exact ⟨fun q p hq => by simp [newClient, newIn, writeToStream,
      ReliabilityLayer.writeToStream, ReliabilityLayer.new, ReceiveBuffer.new] at hq, fun _ => rfl⟩
  | server config a cid peer cc t =>
    exact ⟨fun q p hq => by simp [newServer, newIn, ReliabilityLayer.new, ReceiveBuffer.new] at hq,
      fun _ => rfl⟩

theorem hears (h : (systemWith (C := C) fun _ l => l.FrameFits).Reachable m) :
    m.endpoint.Hears := by
  have hinv : (systemWith (C := C) fun _ l => l.FrameFits).Invariant fun m => m.endpoint.Hears :=
    { init := fun m hm => hears_created hm.2
      step := fun m l m' _ hm hs => hears_step hs.1 hs.2 hm }
  exact hinv.holds h

theorem quiet (h : (system C).Reachable m) (hs : m.endpoint.state = .connecting) :
    m.endpoint.reliability.ackPending = false := by
  have hinv : (system C).Invariant fun m =>
      m.endpoint.state = .connecting → m.endpoint.reliability.ackPending = false :=
    invariant (P := fun e => e.state = .connecting → e.reliability.ackPending = false)
      (fun e he => (hears_created he).quiet)
      (fun t l e e' he ha => ha.quiet he)
      (fun t e he => by
        obtain ⟨data, held, hd⟩ := deliver_eq (t := t) (e := e)
        rw [hd]
        exact he)
      (fun e f he => he)
  exact hinv.holds h hs

/-- The acknowledgments of a step. -/
def acksFor (m : Machine C) : Label → List Frame
  | .frame t f _ => m.endpoint.acksFor t f
  | _ => []

/-- A step sends the acknowledgment of the frame it handles, and no other. -/
theorem acksSent_step (hn : m.next l = some m')
    (hq : m.endpoint.state = .connecting → m.endpoint.reliability.ackPending = false) :
    m'.endpoint.acksSent = m.endpoint.acksSent ++ m.acksFor l := by
  cases l with
  | frame t f a =>
    simp only [next, Option.ite_none_right_eq_some, Option.some.injEq] at hn
    rw [← hn.2, settle_endpoint]
    exact acksSent_routeFrame f a hq
  | fire id now | dropReplaced id =>
    simp only [next, Option.some.injEq] at hn
    rw [← hn]
    exact (List.append_nil _).symm
  | begin t =>
    simp only [next, Option.ite_none_right_eq_some, Option.some.injEq] at hn
    rw [← hn.2, settle_endpoint]
    exact acksSent_begin.trans (List.append_nil _).symm
  | command t c =>
    simp only [next, Option.ite_none_right_eq_some, Option.some.injEq] at hn
    rw [← hn.2, settle_endpoint]
    exact (acksSent_handleStreamCommand c).trans (List.append_nil _).symm
  | poll t =>
    simp only [next, Option.ite_none_right_eq_some, Option.some.injEq] at hn
    rw [← hn.2, settle_endpoint]
    exact acksSent_checkAllTimeouts.trans (List.append_nil _).symm
  | followUp t =>
    simp only [next, Option.ite_none_right_eq_some, Option.some.injEq] at hn
    rw [← hn.2]
    exact acksSent_followUp.trans (List.append_nil _).symm

theorem sendsAcks_step (hn : m.next l = some m') (hl : l.FrameFits) (hm : m.endpoint.Hears) :
    SendsAcks m.endpoint m'.endpoint fun q => m.Prompts q l := by
  refine ⟨m.acksFor l, acksSent_step hn hm.quiet, fun q => ?_⟩
  cases l with
  | frame t f a => exact acks_acksFor hl hm.keys
  | _ => simp [acksFor, Prompts]

theorem sendsAcks_stretch (hm : m.endpoint.Hears) (hls : ∀ l ∈ ls, l.FrameFits)
    (h : ls.foldlM (fun (m : Machine C) l => m.next l) m = some m') :
    SendsAcks m.endpoint m'.endpoint fun q => m.Meets (·.Prompts q) ls := by
  induction ls generalizing m with
  | nil =>
    cases h
    exact .of_eq rfl
  | cons l ls ih =>
    rw [List.foldlM_cons] at h
    obtain ⟨m₁, hn, h⟩ := Option.bind_eq_some_iff.mp h
    have hl := hls l List.mem_cons_self
    have hrest := ih (hears_step hn hl hm) (fun l hl => hls l (List.mem_cons_of_mem _ hl)) h
    refine ((sendsAcks_step hn hl hm).trans hrest).congr fun q => ?_
    simp [Meets, hn]

/-- Over any stretch of a run, every item that is due is named by an acknowledgment exactly if,
for every such item, some frame of the stretch brought a new item where one is acknowledged, with
the socket open, and the due number is its own or was recorded by then. -/
theorem lost_ack_repaired_iff (hr : (systemWith (C := C) fun _ l => l.FrameFits).Reachable m)
    (hls : ∀ l ∈ ls, l.FrameFits)
    (h : ls.foldlM (fun (m : Machine C) l => m.next l) m = some m') :
    (∀ q, m.Meets (·.Due q) ls → ∃ f ∈ m.newAcks m', f.Acks q) ↔
      ∀ q, m.Meets (·.Due q) ls → m.Meets (·.Prompts q) ls := by
  obtain ⟨new, hsent, hacks⟩ := sendsAcks_stretch (hears hr) hls h
  have hnew : m.newAcks m' = new := by
    rw [newAcks, hsent, List.drop_left]
  refine forall_congr' fun q => imp_congr_right fun _ => ?_
  rw [hnew]
  exact hacks q

section Sample

/-- A FIN to the client under its number 0. -/
def fin : Frame := Frame.newFin 1 0 0 0 256

/-- The client connects and takes the FIN of its peer. -/
def finTaken : List Label :=
  [.begin (tick 0), .frame (tick 1) (Frame.newSynAck 1 2 1) 80, .followUp (tick 1),
    .frame (tick 2) fin 80, .followUp (tick 2)]

/-- The FIN comes again, since its acknowledgment was lost. -/
def finAgain : List Label := [.frame (tick 3) fin 80, .followUp (tick 3)]

theorem fits_fin : (Label.frame t fin 80).FrameFits :=
  ⟨by decide, by decide, by decide, by decide, by decide, by decide⟩

theorem fits_finTaken : ∀ l ∈ finTaken, l.FrameFits := by
  intro l hl
  simp only [finTaken, List.mem_cons, List.not_mem_nil, or_false] at hl
  rcases hl with rfl | rfl | rfl | rfl | rfl
  · trivial
  · exact ⟨by decide, by decide, by decide⟩
  · trivial
  · exact fits_fin
  · trivial

theorem fits_finAgain : ∀ l ∈ finAgain, l.FrameFits := by
  intro l hl
  simp only [finAgain, List.mem_cons, List.not_mem_nil, or_false] at hl
  rcases hl with rfl | rfl
  · exact fits_fin
  · trivial

/-- The iteration in which the FIN comes for the first time. -/
theorem lost_ack_repaired_iff_sample : ∃ m m' : Machine Vegas,
    finAgain.foldlM (fun (m : Machine Vegas) l => m.next l) m = some m' ∧
      (∃ f ∈ m.newAcks m', f.Acks 0) ∧
        ((∀ q, m.Meets (·.Due q) finAgain → ∃ f ∈ m.newAcks m', f.Acks q) ↔
          ∀ q, m.Meets (·.Due q) finAgain → m.Meets (·.Prompts q) finAgain) := by
  obtain ⟨m, hr, m', hn, hp⟩ : ∃ m, (system Vegas).Run (finTaken.take 3) m ∧
      ∃ m' ∈ finAgain.foldlM (fun (m : Machine Vegas) l => m.next l) m,
        ∃ f ∈ m.newAcks m', f.Acks 0 :=
    TransitionSystem.exists_run_of_foldlM _ tinyClient_created (by decide)
  have hr := (hr.restrict_of_labels fun l hl => fits_finTaken l (List.mem_of_mem_take hl)).reachable
  exact ⟨m, m', hn, hp, lost_ack_repaired_iff hr fits_finAgain hn⟩

/-- The FIN that comes again in the finishing state is not acknowledged again. -/
theorem repeated_fin_unanswered : ∃ m m' : Machine Vegas,
    (systemWith fun _ l => l.FrameFits).Run finTaken m ∧ m.phase = .waiting ∧
      m.endpoint.state = .finWait ∧
        finAgain.foldlM (fun (m : Machine Vegas) l => m.next l) m = some m' ∧
          ¬ ∀ q, m.Meets (·.Due q) finAgain → ∃ f ∈ m.newAcks m', f.Acks q := by
  obtain ⟨m, hr, m', hn, hw, hs, hd, hp⟩ : ∃ m, (system Vegas).Run finTaken m ∧
      ∃ m' ∈ finAgain.foldlM (fun (m : Machine Vegas) l => m.next l) m,
        m.phase = .waiting ∧ m.endpoint.state = .finWait ∧ m.Due 0 (.frame (tick 3) fin 80) ∧
          ¬ ∃ f ∈ m.newAcks m', f.Acks 0 :=
    TransitionSystem.exists_run_of_foldlM _ tinyClient_created (by decide)
  exact ⟨m, m', hr.restrict_of_labels fits_finTaken, hw, hs, hn,
    fun hall => hp (hall 0 (Or.inl hd))⟩

end Sample

end Machine

end Kestrel
