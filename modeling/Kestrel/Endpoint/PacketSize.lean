import Kestrel.Endpoint.Answering
import Kestrel.Endpoint.Migration
import Kestrel.Reliability.Sizes

/-! # The size of datagrams

Data, handshake and retransmitted frames are filled into datagrams that keep to the configured
size. An ACK goes out alone and is as long as the gaps in the receive buffer make it.
-/

namespace Kestrel

namespace FrameBatch

def size (b : FrameBatch) : ℕ := totalSize b.frames

/-- A single frame of a path validation, which is sent to an address of its own. -/
def isPath : FrameBatch → Bool
  | ⟨_, [.pathChallenge ..]⟩ | ⟨_, [.pathResponse ..]⟩ => true
  | _ => false

def FitsIn (max : ℕ) (b : FrameBatch) : Prop := b.isPath = true ∨ b.size ≤ max

instance (max : ℕ) (b : FrameBatch) : Decidable (b.FitsIn max) :=
  inferInstanceAs (Decidable (_ ∨ _))

end FrameBatch

namespace Endpoint

open RetransmissionManager

variable {C : Type} {t : Tick} {l : Label} {config : Config} {e e' e'' : Endpoint C}

/-- What the size of a datagram depends on: the layer uses the same configuration, only PUSH and
FIN frames are kept, and nothing waits to be acknowledged before the handshake. -/
structure Packed (config : Config) (e : Endpoint C) : Prop where
  config_eq : e.config = config
  layer_config_eq : e.reliability.config = config
  small : ∀ q i, e.reliability.retransmissionManager.Keeps q i →
    i.Small config.connection.maxPayloadSize
  quiet : e.state = .connecting → e.reliability.ackPending = false

/-- The endpoint has handed over more datagrams, all of which fit. -/
def Emits (max : ℕ) (e e' : Endpoint C) : Prop :=
  ∃ bs, e'.sent = e.sent ++ bs ∧ ∀ b ∈ bs, b.FitsIn max

/-- If this item is new and answered with an ACK, the ACK fits: the stretches it has to name are
few enough. -/
def AckFits (t : Tick) (e : Endpoint C) (q : ℕ) (p : PacketOrFin) : Prop :=
  t.senderOpen = true → acknowledges e.state p = true →
    e.reliability.recvBuffer.accepts q = true →
      ackSize (stretches (e.reliability.recvBuffer.received.insert q p).keys) ≤
        e.config.connection.maxPacketSize

instance (q : ℕ) (p : PacketOrFin) : Decidable (AckFits t e q p) :=
  inferInstanceAs (Decidable (_ → _ → _ → _ ≤ _))

/-- The ACK for the item that a frame brings, if it brings one, fits. -/
def AnswerFits (t : Tick) (e : Endpoint C) (f : Frame) : Prop :=
  ∀ i ∈ f.item?, AckFits t e i.1 i.2

instance (f : Frame) : Decidable (AnswerFits t e f) :=
  inferInstanceAs (Decidable (∀ i ∈ f.item?, AckFits t e i.1 i.2))

theorem Emits.of_eq {max : ℕ} (h : e'.sent = e.sent) : Emits max e e' :=
  ⟨[], by rw [h, List.append_nil], by simp⟩

theorem Emits.refl (max : ℕ) (e : Endpoint C) : Emits max e e := .of_eq rfl

theorem Emits.trans {max : ℕ} (h : Emits max e e') (h' : Emits max e' e'') : Emits max e e'' := by
  obtain ⟨bs, hs, hb⟩ := h
  obtain ⟨bs', hs', hb'⟩ := h'
  refine ⟨bs ++ bs', by rw [hs', hs, List.append_assoc], ?_⟩
  intro b hm
  exact (List.mem_append.mp hm).elim (hb b) (hb' b)

theorem Emits.sent_prefix {max : ℕ} (h : Emits max e e') : e.sent <+: e'.sent := by
  obtain ⟨bs, hs, -⟩ := h
  exact ⟨bs, hs.symm⟩

theorem Emits.fitsIn {max : ℕ} {bs : List FrameBatch} (h : Emits max e e')
    (hs : e'.sent = e.sent ++ bs) : ∀ b ∈ bs, b.FitsIn max := by
  obtain ⟨bs', hs', hb⟩ := h
  rw [hs, List.append_cancel_left_eq] at hs'
  rwa [hs']

theorem Emits.of_prefix {max : ℕ} (h : Emits max e e'') (hs : e.sent <+: e'.sent)
    (hs' : e'.sent <+: e''.sent) : Emits max e' e'' := by
  obtain ⟨bs, hbs⟩ := hs
  obtain ⟨bs', hbs'⟩ := hs'
  have hall : e''.sent = e.sent ++ (bs ++ bs') := by
    rw [← hbs', ← hbs, List.append_assoc]
  refine ⟨bs', hbs'.symm, fun b hb => ?_⟩
  exact h.fitsIn hall b (List.mem_append_right _ hb)

theorem emits_emit {max : ℕ} {bs : List FrameBatch} (h : ∀ b ∈ bs, b.FitsIn max) :
    Emits max e (e.emit t bs) := by
  cases ho : t.senderOpen with
  | true => exact ⟨bs, by rw [emit_of_senderOpen ho], h⟩
  | false =>
    rw [emit_of_not_senderOpen ho]
    exact .refl max e

theorem fitsIn_of_mem_batches {max : ℕ} {packets : List (List Frame)}
    (h : ∀ p ∈ packets, totalSize p ≤ max) {b : FrameBatch} (hb : b ∈ e.batches packets) :
    b.FitsIn max := by
  obtain ⟨p, hp, rfl⟩ := List.mem_map.mp hb
  exact Or.inr (h p (List.mem_of_mem_filter hp))

theorem emits_sendFrames {frames : List Frame} (hc : e.config = config)
    (h : ∀ f ∈ frames, f.encodedSize ≤ config.connection.maxPacketSize) :
    Emits config.connection.maxPacketSize e (Outcome.last (e.sendFrames t frames)) := by
  rw [sendFrames_eq, last_sending, hc]
  refine emits_emit fun b hb => fitsIn_of_mem_batches ?_ hb
  intro p hp
  cases frames with
  | nil => cases hp
  | cons f fs =>
    have hf := h f List.mem_cons_self
    rw [buildPackets, ← totalSize_singleton f] at hp
    exact totalSize_le_of_mem_fillPackets (by simpa using hf)
      (fun g hg => h g (List.mem_cons_of_mem _ hg)) hp

theorem emits_sendRawFrames {max : ℕ} {frames : List Frame} (h : totalSize frames ≤ max) :
    Emits max e (Outcome.last (e.sendRawFrames t frames)) := by
  rw [sendRawFrames_eq, last_sending]
  refine emits_emit fun b hb => fitsIn_of_mem_batches ?_ hb
  intro p hp
  rwa [List.mem_singleton.mp hp]

theorem emits_sendFrameTo {max : ℕ} {f : Frame} {a : SocketAddr}
    (h : FrameBatch.isPath ⟨a, [f]⟩ = true) :
    Emits max e (Outcome.last (e.sendFrameTo t f a)) := by
  rw [sendFrameTo_eq, last_sending]
  refine emits_emit fun b hb => ?_
  rw [List.mem_singleton.mp hb]
  exact Or.inl h

theorem sendStandaloneAck_sent (h : e.reliability.ackPending = true) :
    (Outcome.last (e.sendStandaloneAck t)).sent = e.sent ++
      if t.senderOpen then [⟨e.remoteAddr, [e.createAckFrame t]⟩] else [] := by
  have hp : e.reliability.isAckPending = true := h
  rw [sendStandaloneAck, if_pos hp, sendRawFrames_eq, last_sending]
  rfl

theorem sendStandaloneAck_of_not_pending (h : e.reliability.ackPending = false) :
    e.sendStandaloneAck t = .ok e := by
  rw [sendStandaloneAck, if_neg (by simp [ReliabilityLayer.isAckPending, h])]

theorem size_createAckFrame : (e.createAckFrame t).encodedSize =
    ackSize (stretches e.reliability.recvBuffer.received.keys) := by
  rw [createAckFrame, Frame.encodedSize_newAck]
  exact congrArg ackSize (ReceiveBuffer.length_getSackRanges _)

section Invariant

theorem packed_created (h : e.Created) : e.Packed e.config := by
  have hnone (config : Config) (q : ℕ) (i : RetransmissionFrameInfo) :
      ¬ (RetransmissionManager.new config).Keeps q i := by
    rintro (hk | hk)
    · simp [RetransmissionManager.new] at hk
    · simp [RetransmissionManager.new] at hk
  cases h with
  | client config remoteAddr localCid cc initialData t =>
    cases initialData with
    | none => exact ⟨rfl, rfl, fun q i hk => absurd hk (hnone config q i), fun _ => rfl⟩
    | some data => exact ⟨rfl, rfl, fun q i hk => absurd hk (hnone config q i), fun _ => rfl⟩
  | server config remoteAddr localCid peerCid cc t =>
    exact ⟨rfl, rfl, fun q i hk => absurd hk (hnone config q i), fun _ => rfl⟩

theorem Packed.createFin (h : e.Packed config) : (e.createFin t).2.Packed config := by
  unfold Endpoint.createFin
  split
  · refine ⟨h.config_eq, h.layer_config_eq, ?_, h.quiet⟩
    rintro q i hk
    rcases keeps_addInFlightPacket hk with hk | ⟨-, hi⟩
    · exact h.small q i hk
    · cases hi
      exact Or.inr rfl
  · exact h

theorem Packed.deliver (h : e.Packed config) : (e.deliver t).2.Packed config := by
  obtain ⟨data, held, hd⟩ := deliver_eq (t := t) (e := e)
  rw [hd]
  exact { h with }

variable [CongestionControl C]

theorem Packed.cut (h : e.Packed config) {chunks : List Bytes} {b : SendBuffer}
    (hp : Packetized (e.packetizerContext t) e.reliability.sendBuffer chunks b) :
    (e.cut t chunks b).Packed config := by
  refine ⟨h.config_eq, h.layer_config_eq, ?_, h.quiet⟩
  rintro q i hk
  rcases keeps_addAll hk with hk | ⟨f, hf, -, hi⟩
  · exact h.small q i hk
  · have hs := small_of_mem_pushFrames (fun p hm => (hp.fits p hm).2) hf hi
    rw [← h.layer_config_eq]
    exact hs

theorem Act.packed (h : Act t l e e') (hp : e.Packed config) : e'.Packed config := by
  have hcon := h.connecting
  cases h with
  | receive f a q p hl hf ht =>
    cases ha : e.reliability.recvBuffer.accepts q with
    | false =>
      rw [ReliabilityLayer.receive_eq_of_not_accepts ha]
      exact hp
    | true =>
      rw [ReliabilityLayer.receive_eq_of_accepts ha]
      refine ⟨hp.config_eq, hp.layer_config_eq, hp.small, fun hs => ?_⟩
      change e.state = .connecting at hs
      cases p <;> simp [takes, hs] at ht
  | acknowledge ha => exact ⟨hp.config_eq, hp.layer_config_eq, hp.small, fun _ => rfl⟩
  | processAck header payload a r cc hl hs =>
    exact { hp with small := fun q i hk => hp.small q i (keeps_of_processAck hk) }
  | checkRetransmissions r cc hl =>
    refine { hp with small := fun q i hk => hp.small q i ?_ }
    exact keeps_of_checkForRetransmissions (c := e.createRetransmissionContext) hk
  | packetize chunks b lead bs hs hpk hlead hb => exact { (hp.cut hpk).createFin with }
  | close hs =>
    refine ⟨hp.config_eq, hp.layer_config_eq, ?_, fun hs => ?_⟩
    · rintro q i (hk | hk)
      · simp [release, ReliabilityLayer.clearInFlightPackets, RetransmissionManager.clear] at hk
      · simp [release, ReliabilityLayer.clearInFlightPackets, RetransmissionManager.clear] at hk
    · cases hs
  | sendEof hl =>
    unfold Endpoint.sendEof
    split
    · exact { hp with }
    · exact hp
  | _ => exact { hp with quiet := fun hs => hp.quiet (hcon hs) }

theorem Acts.packed (h : Acts t l e e') (hp : e.Packed config) : e'.Packed config :=
  h.preserves (fun _ _ hp ha => ha.packed hp) hp

end Invariant

section Operations

variable [CongestionControl C]

theorem encodedSize_le_of_mem_pushes {chunks : List Bytes} {b : SendBuffer} (h : e.Packed config)
    (hp : Packetized (e.packetizerContext t) e.reliability.sendBuffer chunks b) {f : Frame}
    (hf : f ∈ e.pushes t chunks) : f.encodedSize ≤ pushSize config.connection.maxPayloadSize := by
  have hle := encodedSize_le_of_mem_pushFrames (fun p hm => (hp.fits p hm).2) hf
  rw [← h.layer_config_eq]
  exact hle

omit [CongestionControl C] in
theorem encodedSize_le_of_mem_createFin {n : ℕ} {f : Frame} (hf : f ∈ (e.createFin t).1) :
    f.encodedSize ≤ pushSize n := by
  unfold createFin at hf
  split at hf
  · rw [List.mem_singleton.mp hf]
    exact Frame.encodedSize_newFin_le ..
  · cases hf

omit [CongestionControl C] in
theorem createFin_sent : (e.createFin t).2.sent = e.sent := by
  unfold createFin
  split <;> rfl

theorem emits_packetizeAndSend (h : e.Packed config) (hc : config.AdmitsPush) :
    Emits config.connection.maxPacketSize e (Outcome.last (e.packetizeAndSend t)) := by
  obtain ⟨chunks, b, hp, he⟩ := packetizeStream_eq (t := t) (e := e)
  have hs : Emits config.connection.maxPacketSize e ((e.cut t chunks b).createFin t).2 :=
    .of_eq createFin_sent
  rw [packetizeAndSend, he]
  refine hs.trans (emits_sendFrames (h.cut hp).createFin.config_eq fun f hf => ?_)
  refine le_trans ?_ hc
  rcases List.mem_append.mp hf with hf | hf
  · exact encodedSize_le_of_mem_pushes h hp hf
  · exact encodedSize_le_of_mem_createFin hf

theorem emits_sendInitialSyn (h : e.config = config) :
    Emits config.connection.maxPacketSize e (Outcome.last (e.sendInitialSyn t)) := by
  obtain ⟨chunks, b, -, he⟩ := packetizeStream_eq (t := t) (e := e)
  rw [sendInitialSyn, he]
  dsimp only
  split
  · rename_i hle
    rw [h] at hle
    have hs : Emits config.connection.maxPacketSize e (e.cut t chunks b) := .of_eq rfl
    exact hs.trans (emits_sendRawFrames hle)
  · exact .refl _ e

theorem emits_sendZeroRttPackets (h : e.Packed config) (hc : config.AdmitsPush) :
    Emits config.connection.maxPacketSize e (Outcome.last (e.sendZeroRttPackets t)) := by
  obtain ⟨chunks, b, hz, hp⟩ := packetize_spec (e.packetizerContext t) e.reliability.sendBuffer
    e.reliability.sequenceNumberCounter none
  unfold sendZeroRttPackets
  split
  · rename_i packets reliability heq
    rw [ReliabilityLayer.packetizeZeroRttStreamData] at heq
    rw [packetizerContext] at hz
    rw [hz] at heq
    obtain ⟨packets', hzero, hpair⟩ := Option.map_eq_some_iff.mp heq
    have hpackets : packets' = packets := congrArg Prod.fst hpair
    subst hpackets
    rw [sendPackets_eq, last_sending]
    refine Emits.trans (.of_eq rfl) (emits_emit fun b hb => fitsIn_of_mem_batches ?_ hb)
    intro p hm
    rw [h.config_eq] at hzero
    refine totalSize_le_of_mem_zeroRttPackets hzero ?_ ?_ hm
    · exact (Frame.encodedSize_newSynAck_le ..).trans hc
    · intro f hf
      exact (encodedSize_le_of_mem_pushes h hp hf).trans hc
  · exact .refl _ e

omit [CongestionControl C] in
theorem shutdown_sent : e.shutdown.sent = e.sent := by
  have hgrace (e : Endpoint C) : e.shutdownGracefully.sent = e.sent := by
    unfold shutdownGracefully
    dsimp only
    split <;> rfl
  rcases shutdown_cases (e := e) with ⟨-, he⟩ | ⟨-, -, he⟩ | ⟨-, -, he⟩
  · rw [he]
    exact hgrace e
  · rw [he]
    exact hgrace _
  · rw [he]
    rfl

theorem emits_handleStreamCommand (c : StreamCommand) (h : e.Packed config)
    (hc : config.AdmitsPush) :
    Emits config.connection.maxPacketSize e (Outcome.last (e.handleStreamCommand t c)) := by
  cases c with
  | sendData data =>
    change Emits _ e (Outcome.last (e.sendData t data))
    unfold sendData
    split
    · rename_i hs
      rw [transitionTo_eq, if_pos (by rw [hs]; rfl)]
      have hw : Acts t (.command t (.sendData data)) e
          (writeToStream { e with state := .established } data) :=
        .tail (.single (.accept data rfl hs)) (.write data rfl)
      have hsame : Emits config.connection.maxPacketSize e
          (writeToStream { e with state := .established } data) := .of_eq rfl
      exact hsame.trans (emits_sendZeroRttPackets (hw.packed h) hc)
    · exact .of_eq rfl
  | close =>
    have hs : Emits config.connection.maxPacketSize e e.shutdown := .of_eq shutdown_sent
    change Emits _ e (Outcome.last (e.close t))
    unfold close
    dsimp only
    split
    · exact hs
    · exact hs.trans (emits_packetizeAndSend ((acts_shutdown (t := t) rfl).packed h) hc)
  | migrate a n =>
    change Emits _ e (Outcome.last (e.migrate t a n))
    unfold migrate
    by_cases hs : e.state = .established
    · rw [startPathValidation_eq, if_pos hs]
      dsimp only
      exact Emits.trans (.of_eq rfl) (emits_sendFrameTo rfl)
    · rw [startPathValidation_eq, if_neg hs]
      exact .refl _ e

theorem emits_begin (h : e.config = config) :
    Emits config.connection.maxPacketSize e (Outcome.last (e.begin t)) := by
  unfold Endpoint.begin
  split
  · exact emits_sendInitialSyn h
  · exact .refl _ e

omit [CongestionControl C] in
theorem emits_handleTimeoutEvents {frames : List Frame} (h : e.config = config)
    (hf : ∀ f ∈ frames, f.encodedSize ≤ config.connection.maxPacketSize)
    (events : List TimeoutEvent) :
    Emits config.connection.maxPacketSize e (Outcome.last
      (events.foldlM (fun e event => e.handleTimeoutEvent event) e >>= fun e =>
        e.sendFrames t frames)) := by
  induction events generalizing e with
  | nil => exact emits_sendFrames h hf
  | cons event events ih =>
    rw [List.foldlM_cons, bind_assoc]
    cases event with
    | idleTimeout | connectionTimeout =>
      rw [handleTimeoutEvent, transitionTo_eq, if_pos (by cases e.state <;> rfl)]
      exact .of_eq rfl
    | retransmissionTimeout => exact ih h
    | pathValidationTimeout =>
      rw [handleTimeoutEvent, handlePathValidationTimeout_eq]
      split
      · exact Emits.trans (.of_eq rfl) (ih h)
      · exact ih h

theorem emits_checkAllTimeouts (h : e.Packed config) (hc : config.AdmitsPush) :
    Emits config.connection.maxPacketSize e (Outcome.last (e.checkAllTimeouts t)) := by
  have hend (e₁ : Endpoint C) (frames : List Frame) (hs : e₁.sent = e.sent)
      (hcfg : e₁.config = config)
      (hf : ∀ f ∈ frames, f.encodedSize ≤ config.connection.maxPacketSize) :
      Emits config.connection.maxPacketSize e (Outcome.last
        (e.timing.timerManager.timeoutRx.foldlM (fun e event => e.handleTimeoutEvent event) e₁ >>=
          fun e => e.sendFrames t frames)) :=
    Emits.trans (.of_eq hs) (emits_handleTimeoutEvents hcfg hf _)
  rw [last_checkAllTimeouts]
  unfold handleTimeouts
  dsimp only
  split
  · obtain ⟨r, cc, he⟩ := ReliabilityLayer.checkRetransmissions_eq (l := e.reliability) t.now
      e.createRetransmissionContext
    have hctx : createRetransmissionContext { e with
        timing := { e.timing with timerManager := e.timing.timerManager.checkTimerEvents.2 } } =
      e.createRetransmissionContext := rfl
    rw [hctx, he]
    apply hend
    · rfl
    · exact h.config_eq
    · intro f hf
      obtain ⟨q, i, hk, rfl⟩ := rebuilds_checkForRetransmissions hf
      have hsmall := h.small q i (keeps_of_checkForRetransmissions hk)
      exact (hsmall.encodedSize_le _ _).trans hc
  · apply hend
    · rfl
    · exact h.config_eq
    · simp

theorem emits_followUp (h : e.Packed config) (hc : config.AdmitsPush) :
    Emits config.connection.maxPacketSize e (Machine.resume (e.followUp t)).endpoint := by
  obtain ⟨data, held, hd⟩ := deliver_eq (t := t) (e := e)
  have hpack := (acts_finTransition (t := t) (e := (e.deliver t).2) rfl
    finReached_of_deliver).packed h.deliver
  have hopen (e : Endpoint C) (h : e.Packed config) :
      Emits config.connection.maxPacketSize e (Outcome.last (e.packetizeIfOpen t)) := by
    unfold packetizeIfOpen
    split <;> first | exact emits_packetizeAndSend h hc | exact .refl _ e
  have hend (e : Endpoint C) : e.sendEof.shouldClose.2.sent = e.sent := by
    have heof : e.sendEof.sent = e.sent := by
      unfold Endpoint.sendEof
      split <;> rfl
    refine Eq.trans ?_ heof
    unfold shouldClose
    split
    · rw [transitionTo_eq, if_pos (by cases e.sendEof.state <;> rfl)]
      rfl
    · rfl
  have hsent : ((e.deliver t).2.finTransition (e.deliver t).1).sent = e.sent := by
    rw [finTransition_eq, hd]
  have hp := Emits.trans (.of_eq hsent) (hopen _ hpack)
  unfold followUp
  dsimp only
  generalize ((e.deliver t).2.finTransition (e.deliver t).1).packetizeIfOpen t = x at hp
  cases x with
  | error r => exact hp
  | ok e' => exact hp.trans (.of_eq (hend e'))

end Operations

section Acknowledging

variable {q : ℕ} {p : PacketOrFin}

/-- A new item is acknowledged at once, and the ACK names it together with what is buffered. -/
theorem emits_acknowledge_iff (max : ℕ) (ha : e.reliability.recvBuffer.accepts q = true) :
    Emits max e (Outcome.last (sendStandaloneAck t
        { e with reliability := (e.reliability.receive q p).2 })) ↔
      (t.senderOpen = true →
        ackSize (stretches (e.reliability.recvBuffer.received.insert q p).keys) ≤ max) := by
  rw [ReliabilityLayer.receive_eq_of_accepts ha]
  set e₁ : Endpoint C := { e with
    reliability := e.reliability.onAccepted
      { e.reliability.recvBuffer with
        received := e.reliability.recvBuffer.received.insert q p } } with he₁
  have hsent := sendStandaloneAck_sent (t := t) (e := e₁) rfl
  have hsize : totalSize [e₁.createAckFrame t] =
      ackSize (stretches (e.reliability.recvBuffer.received.insert q p).keys) :=
    (totalSize_singleton _).trans size_createAckFrame
  constructor
  · intro h ho
    rw [if_pos ho] at hsent
    have hfit := h.fitsIn hsent _ (List.mem_singleton.mpr rfl)
    rcases hfit with hpath | hle
    · cases hpath
    · exact hsize ▸ hle
  · intro h
    refine ⟨_, hsent, fun b hb => ?_⟩
    split at hb
    · rename_i ho
      rw [List.mem_singleton.mp hb]
      exact Or.inr (hsize.trans_le (h ho))
    · cases hb

theorem emits_handlePushFrame_iff (header : ShortHeader) (payload : Bytes) :
    Emits e.config.connection.maxPacketSize e (Outcome.last (e.handlePushFrame t header payload)) ↔
      AckFits t e header.sequenceNumber (.push payload) := by
  have hack (hs : acknowledges e.state (.push payload) = true) :
      Emits e.config.connection.maxPacketSize e
          (Outcome.last (e.receiveDataAndMaybeAck t header.sequenceNumber payload)) ↔
        AckFits t e header.sequenceNumber (.push payload) := by
    unfold receiveDataAndMaybeAck ReliabilityLayer.receivePush
    cases ha : e.reliability.recvBuffer.accepts header.sequenceNumber with
    | false =>
      rw [ReliabilityLayer.receive_eq_of_not_accepts ha]
      exact iff_of_true (.refl _ e) fun _ _ hacc => by rw [ha] at hacc; cases hacc
    | true =>
      have hiff := emits_acknowledge_iff (t := t) (e := e) (p := .push payload)
        e.config.connection.maxPacketSize ha
      rw [ReliabilityLayer.receive_eq_of_accepts ha] at hiff ⊢
      exact hiff.trans ⟨fun h ho _ _ => h ho, fun h ho => h ho hs ha⟩
  have hnot (hs : acknowledges e.state (.push payload) = false) :
      AckFits t e header.sequenceNumber (.push payload) := fun _ hyes => by
    rw [hs] at hyes
    cases hyes
  unfold handlePushFrame
  split <;> rename_i hs
  · exact iff_of_true (.of_eq rfl) (hnot (by rw [hs]; rfl))
  all_goals first
    | exact hack (by rw [hs]; rfl)
    | exact iff_of_true (.refl _ e) (hnot (by rw [hs]; rfl))

theorem emits_handleFinFrame_iff (header : ShortHeader) :
    Emits e.config.connection.maxPacketSize e (Outcome.last (e.handleFinFrame t header)) ↔
      AckFits t e header.sequenceNumber .fin := by
  have htry (s : ConnectionState) (e' : Endpoint C) : (e'.tryTransition s).sent = e'.sent := by
    rw [tryTransition_eq]
    split <;> rfl
  have hfin {next : Endpoint C → Endpoint C} (hn : ∀ e', (next e').sent = e'.sent)
      (hs : acknowledges e.state .fin = true) :
      Emits e.config.connection.maxPacketSize e
          (Outcome.last (e.receiveFinThen t header.sequenceNumber next)) ↔
        AckFits t e header.sequenceNumber .fin := by
    unfold receiveFinThen receiveFinAndAck ReliabilityLayer.receiveFin
    cases ha : e.reliability.recvBuffer.accepts header.sequenceNumber with
    | false =>
      rw [ReliabilityLayer.receive_eq_of_not_accepts ha]
      exact iff_of_true (.refl _ e) fun _ _ hacc => by rw [ha] at hacc; cases hacc
    | true =>
      have hiff := emits_acknowledge_iff (t := t) (e := e) (p := .fin)
        e.config.connection.maxPacketSize ha
      have hfits : (t.senderOpen = true →
          ackSize (stretches (e.reliability.recvBuffer.received.insert header.sequenceNumber
            .fin).keys) ≤ e.config.connection.maxPacketSize) ↔
          AckFits t e header.sequenceNumber .fin :=
        ⟨fun h ho _ _ => h ho, fun h ho => h ho hs ha⟩
      rw [ReliabilityLayer.receive_eq_of_accepts ha] at hiff ⊢
      dsimp only at hiff ⊢
      rw [← hfits, ← hiff]
      generalize sendStandaloneAck t { e with reliability := _ } = x
      cases x with
      | error r => exact Iff.rfl
      | ok e' =>
        change Emits _ e (next e') ↔ Emits _ e e'
        rw [Emits, Emits, hn]
  have hnot (hs : acknowledges e.state .fin = false) :
      AckFits t e header.sequenceNumber .fin := fun _ hyes => by
    rw [hs] at hyes
    cases hyes
  unfold handleFinFrame
  split <;> rename_i hs
  · exact hfin (htry _) (by rw [hs]; rfl)
  · exact hfin (fun _ => rfl) (by rw [hs]; rfl)
  · exact hfin (htry _) (by rw [hs]; rfl)
  · exact hfin (fun _ => rfl) (by rw [hs]; rfl)
  · refine hfin (fun e' => ?_) (by rw [hs]; rfl)
    split
    · exact htry _ e'
    · rfl
  all_goals exact iff_of_true (.refl _ e) (hnot (by rw [hs]; rfl))

variable [CongestionControl C]

/-- A frame that brings no item of the stream is answered with datagrams that fit. -/
theorem emits_processFrame {f : Frame} (a : SocketAddr) (h : e.Packed config)
    (hc : config.AdmitsPush) (hf : f.item? = none) :
    Emits config.connection.maxPacketSize e (Outcome.last (e.processFrame t f a)) := by
  cases f with
  | push header payload => cases hf
  | fin header => cases hf
  | ping header => exact .refl _ e
  | syn header =>
    change Emits _ e (Outcome.last (e.handleSynFrame t))
    unfold handleSynFrame
    split
    · split
      · refine emits_sendRawFrames ?_
        rw [totalSize_singleton]
        exact (Frame.encodedSize_newSynAck_le ..).trans hc
      · exact .refl _ e
    · exact .refl _ e
  | ack header payload =>
    have hcommon : Emits config.connection.maxPacketSize e
        (Outcome.last (e.processAckCommon t header payload)) := by
      unfold processAckCommon
      obtain ⟨r, cc, he⟩ := ReliabilityLayer.handleAck_eq (l := e.reliability)
        header.recvNextSequence (decodeSackRanges payload) t.now e.createRetransmissionContext
      have hctx : createRetransmissionContext { e with peerRecvWindow := header.recvWindowSize } =
        e.createRetransmissionContext := rfl
      dsimp only
      rw [hctx, he]
      refine Emits.trans (.of_eq rfl) (emits_sendFrames h.config_eq fun f hf => ?_)
      obtain ⟨q, i, hk, rfl⟩ := rebuilds_processAck hf
      have hsmall := h.small q i (keeps_of_processAck hk)
      exact (hsmall.encodedSize_le _ _).trans hc
    change Emits _ e (Outcome.last (e.handleAckFrame t header payload))
    unfold handleAckFrame
    split <;> first | exact hcommon | exact .refl _ e
  | synAck header =>
    change Emits _ e (Outcome.last (e.handleSynAckFrame t header))
    unfold handleSynAckFrame
    split
    · rename_i hs
      dsimp only
      rw [transitionTo_eq, if_pos (by dsimp only; rw [hs]; rfl)]
      dsimp only [bind, Except.bind]
      split
      · have he : Packed config { e with
            state := .established
            timing := e.timing.cancelTimer .connectionTimeout
            peerCid := header.sourceCid } := { h with quiet := by simp }
        exact Emits.trans (.of_eq rfl) (emits_packetizeAndSend he hc)
      · rw [sendStandaloneAck_of_not_pending (by exact h.quiet hs)]
        exact .of_eq rfl
    · exact .refl _ e
  | pathChallenge header challengeData =>
    change Emits _ e (Outcome.last (e.handlePathChallengeFrame t header challengeData a))
    unfold handlePathChallengeFrame
    split
    · exact .refl _ e
    · exact emits_sendFrameTo rfl
  | pathResponse header challengeData =>
    change Emits _ e (Outcome.last (e.handlePathResponseFrame challengeData a))
    unfold handlePathResponseFrame
    split
    · split
      · rw [completePathValidation_eq]
        split
        · exact .of_eq rfl
        · exact .refl _ e
      · exact .refl _ e
    · exact .refl _ e

theorem emits_processFrame_iff (f : Frame) (a : SocketAddr) (h : e.Packed config)
    (hc : config.AdmitsPush) :
    Emits config.connection.maxPacketSize e (Outcome.last (e.processFrame t f a)) ↔
      AnswerFits t e f := by
  have hcfg := h.config_eq
  subst hcfg
  have hquiet (hf : f.item? = none) :
      Emits e.config.connection.maxPacketSize e (Outcome.last (e.processFrame t f a)) ↔
        AnswerFits t e f :=
    iff_of_true (emits_processFrame a h hc hf) (by simp [AnswerFits, hf])
  cases f with
  | push header payload =>
    have hone : AnswerFits t e (.push header payload) ↔
        AckFits t e header.sequenceNumber (.push payload) := by simp [AnswerFits, Frame.item?]
    exact (emits_handlePushFrame_iff header payload).trans hone.symm
  | fin header =>
    have hone : AnswerFits t e (.fin header) ↔ AckFits t e header.sequenceNumber .fin := by
      simp [AnswerFits, Frame.item?]
    exact (emits_handleFinFrame_iff header).trans hone.symm
  | _ => exact hquiet rfl

/-- The check of the path before sends at most a challenge, and changes neither what is buffered
nor in which kind of state the endpoint is. -/
theorem emits_routeFrame_iff (f : Frame) (a : SocketAddr) (h : e.Packed config)
    (hc : config.AdmitsPush) :
    Emits config.connection.maxPacketSize e (Outcome.last (e.routeFrame t f a)) ↔
      AnswerFits t e f := by
  change Emits _ e (Outcome.last ((e.heard t.now).checkPathMigration t a >>= fun e =>
    e.processFrame t f a)) ↔ _
  unfold checkPathMigration
  split
  · rename_i hpath
    have hs : e.state = .established := hpath.2
    rw [startPathValidation_eq, if_pos hpath.2]
    dsimp only [bind, Except.bind]
    rw [sendFrameTo_eq]
    by_cases ho : t.senderOpen = true
    · rw [sending_of_senderOpen ho]
      dsimp only
      generalize he : emit t _ _ = e₁
      have hemits : Emits config.connection.maxPacketSize e e₁ := by
        rw [← he]
        refine Emits.trans (.of_eq rfl) (emits_emit fun b hb => ?_)
        rw [List.mem_singleton.mp hb]
        exact Or.inl rfl
      have hb : e₁.reliability.recvBuffer = e.reliability.recvBuffer := by rw [← he]; rfl
      have hv : ∃ c n, e₁.state = .validatingPath a c n := ⟨_, _, by rw [← he]; rfl⟩
      have hpacked : e₁.Packed config := by
        rw [← he]
        exact ⟨h.config_eq, h.layer_config_eq, h.small, fun hs => by cases hs⟩
      obtain ⟨c, n, hv⟩ := hv
      have hsame (p : PacketOrFin) : acknowledges e₁.state p = acknowledges e.state p := by
        rw [hv, hs]
        cases p <;> rfl
      have hanswer : AnswerFits t e₁ f ↔ AnswerFits t e f := by
        simp only [AnswerFits, AckFits, hsame, hb, hpacked.config_eq, h.config_eq]
      rw [← hanswer, ← emits_processFrame_iff f a hpacked hc]
      constructor
      · intro hall
        have hmono := (acts_processFrame (t := t) (e := e₁) (f := f) (a := a) rfl).sent_mono
        exact hall.of_prefix hemits.sent_prefix hmono
      · exact hemits.trans
    · rw [sending, if_neg (by simp [ho])]
      refine iff_of_true (.of_eq rfl) fun i _ hopen => ?_
      exact absurd hopen ho
  · exact emits_processFrame_iff (e := e.heard t.now) f a { h with } hc

end Acknowledging

end Endpoint

namespace Machine

open Endpoint

variable {C : Type} {m m' : Machine C} {l : Label}

/-- If the step brings an item that is answered with an ACK, the ACK fits. -/
def AckFits (m : Machine C) : Label → Prop
  | .frame t f _ => AnswerFits t m.endpoint f
  | _ => True

instance (m : Machine C) : DecidablePred m.AckFits
  | .frame t f _ => inferInstanceAs (Decidable (AnswerFits t m.endpoint f))
  | .begin _ | .command .. | .poll _ | .followUp _ | .fire .. | .dropReplaced _ => .isTrue trivial

variable [CongestionControl C]

theorem packed_of_next {config : Config} (h : m.endpoint.Packed config)
    (hn : m.next l = some m') : m'.endpoint.Packed config := by
  rcases acts_of_next hn with ⟨t, -, ha⟩ | ⟨id, now, -, rfl⟩ | ⟨id, -, rfl⟩
  · apply ha.packed
    cases l with
    | followUp t => exact h.deliver
    | _ => exact h
  · exact { h with }
  · exact { h with }

theorem packed (h : (system C).Reachable m) : m.endpoint.Packed m.endpoint.config := by
  induction h with
  | init h => exact packed_created h.2
  | step _ hn ih =>
    have hp := packed_of_next ih hn
    rwa [← hp.config_eq] at hp

/-- A step hands over datagrams that fit, unless it sends an ACK that does not. -/
theorem emits_iff (h : m.endpoint.Packed m.endpoint.config) (hc : m.endpoint.config.AdmitsPush)
    (hn : m.next l = some m') :
    Emits m.endpoint.config.connection.maxPacketSize m.endpoint m'.endpoint ↔ m.AckFits l := by
  cases l with
  | frame t f a =>
    simp only [next, Option.ite_none_right_eq_some, Option.some.injEq] at hn
    rw [← hn.2, settle_endpoint]
    exact emits_routeFrame_iff f a h hc
  | begin t | poll t | command t c =>
    simp only [next, Option.ite_none_right_eq_some, Option.some.injEq] at hn
    rw [← hn.2, settle_endpoint]
    refine iff_of_true ?_ trivial
    first
      | exact emits_begin h.config_eq
      | exact emits_checkAllTimeouts h hc
      | exact emits_handleStreamCommand c h hc
  | followUp t =>
    simp only [next, Option.ite_none_right_eq_some, Option.some.injEq] at hn
    rw [← hn.2]
    exact iff_of_true (emits_followUp h hc) trivial
  | fire id now | dropReplaced id =>
    simp only [next, Option.some.injEq] at hn
    rw [← hn]
    exact iff_of_true (.of_eq rfl) trivial

/-- As long as no ACK has to name too many stretches, no datagram is larger than the configuration
allows; and the step that answers with such an ACK sends one that is. -/
theorem datagrams_fit (m : Machine C) (hc : m.endpoint.config.AdmitsPush) :
    ((systemWith AckFits).Reachable m →
      ∀ b ∈ m.endpoint.sent, b.FitsIn m.endpoint.config.connection.maxPacketSize) ∧
    ((system C).Reachable m → ∀ l m', m.next l = some m' →
      (Emits m.endpoint.config.connection.maxPacketSize m.endpoint m'.endpoint ↔ m.AckFits l)) := by
  constructor
  · intro h
    induction h with
    | init h => simp [sent_created h.2]
    | @step m l m' hr hn ih =>
      have hp := packed hr.of_restrict
      have hcfg := (packed_of_next hp hn.1).config_eq
      rw [hcfg] at hc ⊢
      obtain ⟨bs, hs, hb⟩ := (emits_iff hp hc hn.1).mpr hn.2
      rintro b hm
      rw [hs] at hm
      exact (List.mem_append.mp hm).elim (ih hc b) (hb b)
  · intro h l m' hn
    exact emits_iff (packed h) hc hn

section Sample

/-- Packets of eight bytes, and datagrams that just hold one. -/
def eightConfig : Config := { connection := { maxPayloadSize := 8, maxPacketSize := 29 } }

def eightClient : Machine Vegas :=
  ⟨Endpoint.newClient eightConfig 80 1 (Vegas.new eightConfig) none (tick 0), .created⟩

theorem eightClient_created : eightClient.phase = .created ∧ eightClient.endpoint.Created :=
  ⟨rfl, .client eightConfig 80 1 (Vegas.new eightConfig) none (tick 0)⟩

/-- The client has connected and receives data under the given numbers. -/
def receivingRun (numbers : List ℕ) : List Label :=
  [.begin (tick 0), .frame (tick 1) (.newSynAck 1 2 1) 80, .followUp (tick 1)] ++
    numbers.map fun q => .frame (tick 2) (.newPush 1 q 0 256 0 [0]) 80

theorem datagrams_fit_sample : ∃ m : Machine Vegas, m.endpoint.sent.length = 3 ∧
    ∀ b ∈ m.endpoint.sent, b.FitsIn 29 := by
  have h : ∃ m : Machine Vegas, (systemWith AckFits).Run (receivingRun [1, 2]) m ∧
      m.endpoint.config.AdmitsPush ∧ m.endpoint.config.connection.maxPacketSize = 29 ∧
        m.endpoint.sent.length = 3 :=
    TransitionSystem.exists_restrict_run_of_foldlM _ eightClient_created (by decide)
  obtain ⟨m, hr, hadmits, hmax, hlen⟩ := h
  refine ⟨m, hlen, fun b hb => ?_⟩
  have hfit := (datagrams_fit m hadmits).1 hr.reachable b hb
  rwa [hmax] at hfit

/-- With two gaps the ACK has more bytes than a datagram may have. -/
theorem oversized_ack : ∃ m : Machine Vegas, (system Vegas).Reachable m ∧
    m.endpoint.config.AdmitsPush ∧
      ∃ b ∈ m.endpoint.sent, ¬ b.FitsIn m.endpoint.config.connection.maxPacketSize := by
  have h : ∃ m : Machine Vegas, (system Vegas).Run (receivingRun [1, 3]) m ∧
      m.endpoint.config.AdmitsPush ∧
        ∃ b ∈ m.endpoint.sent, ¬ b.FitsIn m.endpoint.config.connection.maxPacketSize :=
    TransitionSystem.exists_run_of_foldlM _ eightClient_created (by decide)
  obtain ⟨m, hr, hm⟩ := h
  exact ⟨m, hr.reachable, hm⟩

end Sample

end Machine

end Kestrel
