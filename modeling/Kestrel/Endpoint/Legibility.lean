import Kestrel.Endpoint.PacketSize
import Kestrel.Packet.Codec

/-! # Legible frames

The fields of every frame that an endpoint sends have the widths of their types, the header is one
of the frame's kind, and it declares the payload that is carried, unless an ACK names more ranges
than its length field can count. A peer reads such frames as they were sent. Besides, a frame goes
to a CID that the endpoint has for its peer, and a SYN or SYN-ACK names the endpoint's own.
-/

namespace Kestrel

/-- The configuration and the CID of an endpoint, whether it may name itself to others, and the CIDs
that its peer can have. -/
structure Identity where
  config : Config
  localCid : ℕ
  named : Prop
  peers : ℕ → Prop

namespace Frame

/-- The fields have the widths of their types, and the header is one of the frame's kind. -/
structure Typed (f : Frame) : Prop where
  fits : f.Fits
  command_eq : f.headerCommand = f.command

/-- An ACK with more ranges than its header can declare. -/
def isLongAck : Frame → Bool
  | .ack _ payload => u16Size ≤ payload.length
  | _ => false

/-- A frame as it leaves a connection whose packets have payloads of at most so many bytes. -/
structure Legible (max : ℕ) (f : Frame) : Prop extends Typed f where
  declared : max < u16Size → f.lengthMatches = true ∨ f.isLongAck = true

/-- The CID that a SYN or a SYN-ACK comes from. -/
def sourceCid : Frame → Option ℕ
  | .syn header | .synAck header => some header.sourceCid
  | _ => none

/-- A frame that an endpoint sends. -/
structure SentBy (own : Identity) (f : Frame) : Prop extends
    Legible own.config.connection.maxPayloadSize f where
  origin : ∀ cid, f.sourceCid = some cid → cid = own.localCid ∧ own.named
  destination : own.peers f.destinationCid

/-- A SYN-ACK comes from one of some CIDs. -/
def Introduces (peers : ℕ → Prop) (f : Frame) : Prop :=
  ∀ header, f = .synAck header → peers header.sourceCid

theorem introduces_of_fits {f : Frame} (h : f.Fits) : f.Introduces (· < u32Size) := by
  rintro header rfl
  exact h.sourceCid

theorem Typed.wellFormed {f : Frame} (h : f.Typed) (hl : f.lengthMatches = true) : f.WellFormed :=
  ⟨h.fits, h.command_eq, hl⟩

section Constructors

variable {own : Identity} {peerCid sequenceNumber recvNextSequence recvWindowSize timestamp : ℕ}
  (hwidth : ∀ cid, own.peers cid → cid < u32Size) (hcid : own.peers peerCid)
  (hseq : sequenceNumber < u32Size) (hnext : recvNextSequence < u32Size)
  (hwindow : recvWindowSize < u16Size) (htime : timestamp < u32Size)
include hwidth hcid htime

section
include hnext hwindow

theorem sentBy_newAck (ranges : List SackRange) :
    (newAck peerCid recvNextSequence recvWindowSize ranges timestamp).SentBy own where
  fits := ⟨hwidth _ hcid, Nat.mod_lt _ (by decide), hwindow, htime, Nat.zero_lt_succ _, hnext⟩
  command_eq := rfl
  declared _ := by
    rcases Nat.lt_or_ge (encodeSackRanges ranges).length u16Size with hlt | hge
    · exact Or.inl (decide_eq_true (Nat.mod_eq_of_lt hlt))
    · exact Or.inr (decide_eq_true hge)
  origin _ h := by cases h
  destination := hcid

include hseq

theorem sentBy_newPush {payload : Bytes}
    (hlen : payload.length ≤ own.config.connection.maxPayloadSize) :
    (newPush peerCid sequenceNumber recvNextSequence recvWindowSize timestamp payload).SentBy
      own where
  fits := ⟨hwidth _ hcid, Nat.mod_lt _ (by decide), hwindow, htime, hseq, hnext⟩
  command_eq := rfl
  declared hmax := Or.inl (decide_eq_true (Nat.mod_eq_of_lt (hlen.trans_lt hmax)))
  origin _ h := by cases h
  destination := hcid

theorem sentBy_newFin :
    (newFin peerCid sequenceNumber timestamp recvNextSequence recvWindowSize).SentBy own where
  fits := ⟨hwidth _ hcid, Nat.zero_lt_succ _, hwindow, htime, hseq, hnext⟩
  command_eq := rfl
  declared _ := Or.inl rfl
  origin _ h := by cases h
  destination := hcid

end

include hseq

theorem sentBy_newPathChallenge {challengeData : ℕ} (h : challengeData < 256 ^ 8) :
    (newPathChallenge peerCid sequenceNumber timestamp challengeData).SentBy own where
  fits := ⟨⟨hwidth _ hcid, (by decide : 8 < u16Size), Nat.zero_lt_succ _, htime, hseq,
    Nat.zero_lt_succ _⟩, h⟩
  command_eq := rfl
  declared _ := Or.inl rfl
  origin _ h := by cases h
  destination := hcid

theorem sentBy_newPathResponse {challengeData : ℕ} (h : challengeData < 256 ^ 8) :
    (newPathResponse peerCid sequenceNumber timestamp challengeData).SentBy own where
  fits := ⟨⟨hwidth _ hcid, (by decide : 8 < u16Size), Nat.zero_lt_succ _, htime, hseq,
    Nat.zero_lt_succ _⟩, h⟩
  command_eq := rfl
  declared _ := Or.inl rfl
  origin _ h := by cases h
  destination := hcid

end Constructors

section Handshake

variable {own : Identity} {version destinationCid : ℕ} (hversion : version < 256)
  (hlocal : own.localCid < u32Size) (hnamed : own.named)
include hversion hlocal hnamed

theorem sentBy_newSyn (hzero : own.peers 0) :
    (newSyn version own.localCid 0).SentBy own where
  fits := ⟨hversion, (by decide : 0 < u32Size), hlocal⟩
  command_eq := rfl
  declared _ := Or.inl rfl
  origin _ h := ⟨(Option.some.inj h).symm, hnamed⟩
  destination := hzero

theorem sentBy_newSynAck (hwidth : ∀ cid, own.peers cid → cid < u32Size)
    (hcid : own.peers destinationCid) :
    (newSynAck version own.localCid destinationCid).SentBy own where
  fits := ⟨hversion, hwidth _ hcid, hlocal⟩
  command_eq := rfl
  declared _ := Or.inl rfl
  origin _ h := ⟨(Option.some.inj h).symm, hnamed⟩
  destination := hcid

end Handshake

end Frame

theorem Frame.Legible.lengthMatches_iff {max : ℕ} {f : Frame} (h : f.Legible max)
    (hmax : max < u16Size) : f.lengthMatches = true ↔ f.isLongAck = false := by
  constructor
  · intro hl
    cases f with
    | ack header payload =>
      have hlen : header.payloadLength = payload.length := of_decide_eq_true hl
      have hlt : header.payloadLength < u16Size := h.fits.payloadLength
      exact decide_eq_false (by omega)
    | _ => rfl
  · intro hl
    exact (h.declared hmax).resolve_right (by simp [hl])

section Reading

variable {fs : List Frame}

theorem exists_serializeFrames_iff :
    (∃ bytes, serializeFrames fs = some bytes) ↔ ∀ f ∈ fs, f.lengthMatches = true := by
  induction fs with
  | nil => simp [serializeFrames]
  | cons f fs ih =>
    rw [List.forall_mem_cons, ← ih, serializeFrames, Frame.encode]
    cases f.lengthMatches with
    | false => simp
    | true => cases serializeFrames fs <;> simp

variable (h : ∀ f ∈ fs, f.WellFormed)
include h

/-- The first bytes of a datagram are read as the frames that lie wholly within them. -/
theorem deserializeFrames_take (n : ℕ) : deserializeFrames ((fs.flatMap Frame.bytes).take n) =
    fs.take (Codec.wholeItems Frame.bytes fs n) := by
  have hcut {n : ℕ} (hn : n ≤ (fs.flatMap Frame.bytes).length) :
      deserializeFrames ((fs.flatMap Frame.bytes).take n) =
        fs.take (Codec.wholeItems Frame.bytes fs n) := by
    rw [deserializeFrames, List.length_take_of_le hn]
    exact Frame.selfDelimiting.decodeAll_take h le_rfl
  rcases Nat.le_total n (fs.flatMap Frame.bytes).length with hle | hge
  · exact hcut hle
  · have hall := hcut le_rfl
    rwa [List.take_length, Codec.wholeItems_of_length_le le_rfl,
      ← Codec.wholeItems_of_length_le hge, ← List.take_of_length_le hge] at hall

theorem isGreatest_fitsWithin (n : ℕ) :
    IsGreatest {k | FitsWithin fs n k} (Codec.wholeItems Frame.bytes fs n) := by
  have hwithin (k : ℕ) : FitsWithin fs n k ↔
      k ≤ fs.length ∧ ((fs.take k).flatMap Frame.bytes).length ≤ n := by
    rw [FitsWithin, serializeFrames_of_wellFormed fun f hf => h f (List.mem_of_mem_take hf)]
    simp
  simp only [hwithin]
  exact Codec.wholeItems_isGreatest fs n

end Reading

theorem timestampSince_lt (startTime now : Instant) : timestampSince startTime now < u32Size :=
  Nat.mod_lt _ (by decide)

theorem nextSeq_lt (seq : ℕ) : nextSeq seq < u32Size := Nat.mod_lt _ (by decide)

theorem counterAfter_lt {counter : ℕ} (h : counter < u32Size) (n : ℕ) :
    counterAfter counter n < u32Size := by
  induction n generalizing counter with
  | zero => exact h
  | succ n ih => exact ih (nextSeq_lt counter)

namespace Endpoint

open RetransmissionManager

variable {C : Type} {t : Tick} {own : Identity} {e : Endpoint C}

/-- The identifiers and numbers of an endpoint have the widths of their types, its peer has one of
some CIDs, it keeps PUSH and FIN frames only, and all it has sent is legible and addressed to these.
-/
structure Plain (own : Identity) (e : Endpoint C) : Prop where
  config_eq : e.config = own.config
  layer_config_eq : e.reliability.config = own.config
  version : own.config.protocolVersion < 256
  localCid_eq : e.localCid = own.localCid
  localCid_lt : own.localCid < u32Size
  width : ∀ cid, own.peers cid → cid < u32Size
  peerCid : own.peers e.peerCid
  counter : e.reliability.sequenceNumberCounter < u32Size
  nextSequence : e.reliability.recvBuffer.nextSequence < u32Size
  keeps : ∀ q i, e.reliability.retransmissionManager.Keeps q i →
    i.Small own.config.connection.maxPayloadSize ∧ i.sequenceNumber < u32Size
  sent : ∀ f ∈ e.framesSent, f.SentBy own

/-- The identity of an endpoint with a peer of any CID. -/
def identity (e : Endpoint C) : Identity := ⟨e.config, e.localCid, True, (· < u32Size)⟩

/-- The identifiers that an endpoint starts with have the widths of their types. -/
structure Identified (e : Endpoint C) : Prop where
  protocolVersion : e.config.protocolVersion < 256
  localCid : e.localCid < u32Size
  peerCid : e.peerCid < u32Size

theorem plain_created (h : e.Created) (hi : e.Identified) {named : Prop} {peers : ℕ → Prop}
    (hwidth : ∀ cid, peers cid → cid < u32Size) (hp : peers e.peerCid) :
    e.Plain ⟨e.config, e.localCid, named, peers⟩ := by
  obtain ⟨hv, hl, -⟩ := hi
  have hnone (config : Config) (q : ℕ) (i : RetransmissionFrameInfo) :
      ¬ (RetransmissionManager.new config).Keeps q i := by
    rintro (hk | hk)
    · simp [RetransmissionManager.new] at hk
    · simp [RetransmissionManager.new] at hk
  have hzero : 0 < u32Size := by decide
  cases h with
  | client config remoteAddr localCid cc initialData t =>
    cases initialData <;> exact ⟨rfl, rfl, hv, rfl, hl, hwidth, hp, hzero, hzero,
      fun q i hk => absurd hk (hnone config q i), fun f hf => by cases hf⟩
  | server config remoteAddr localCid peerCid cc t =>
    exact ⟨rfl, rfl, hv, rfl, hl, hwidth, hp, hzero, hzero,
      fun q i hk => absurd hk (hnone config q i), fun f hf => by cases hf⟩

section Sending

theorem Plain.andThen {x : Outcome C (Endpoint C)} {f : Endpoint C → Outcome C (Endpoint C)}
    (hx : (Outcome.last x).Plain own)
    (hf : ∀ e', e'.Plain own → (Outcome.last (f e')).Plain own) :
    (Outcome.last (x >>= f)).Plain own := by
  cases x with
  | ok e' => exact hf e' hx
  | error r => exact hx

theorem Plain.emit (h : e.Plain own) {bs : List FrameBatch}
    (hb : ∀ f ∈ bs.flatMap (·.frames), f.SentBy own) :
    (e.emit t bs).Plain own := by
  refine { h with sent := fun f hf => ?_ }
  rw [framesSent, Endpoint.emit, List.flatMap_append] at hf
  rcases List.mem_append.mp hf with hf | hf
  · exact h.sent f hf
  · split at hf
    · exact hb f hf
    · cases hf

variable (h : e.Plain own) {frames : List Frame}
include h

theorem Plain.sendPackets {packets : List (List Frame)}
    (hf : ∀ f ∈ packets.flatten, f.SentBy own) :
    (Outcome.last (e.sendPackets t packets)).Plain own := by
  rw [sendPackets_eq, last_sending]
  exact h.emit (by rwa [frames_batches])

theorem Plain.sendFrames (hf : ∀ f ∈ frames, f.SentBy own) :
    (Outcome.last (e.sendFrames t frames)).Plain own :=
  h.sendPackets (by rwa [flatten_buildPackets])

theorem Plain.sendRawFrames (hf : ∀ f ∈ frames, f.SentBy own) :
    (Outcome.last (e.sendRawFrames t frames)).Plain own := by
  rw [sendRawFrames_eq, last_sending]
  exact h.emit (by simpa using hf)

theorem Plain.sendFrameTo {f : Frame} {a : SocketAddr}
    (hf : f.SentBy own) :
    (Outcome.last (e.sendFrameTo t f a)).Plain own := by
  rw [sendFrameTo_eq, last_sending]
  exact h.emit (by simpa using hf)

theorem Plain.createAckFrame :
    (e.createAckFrame t).SentBy own :=
  Frame.sentBy_newAck h.width h.peerCid h.nextSequence (Nat.mod_lt _ (by decide))
    (timestampSince_lt ..) _

theorem Plain.createFinFrame {q : ℕ} (hq : q < u32Size) :
    (e.createFinFrame t q).SentBy own :=
  Frame.sentBy_newFin h.width h.peerCid hq h.nextSequence (Nat.mod_lt _ (by decide))
    (timestampSince_lt ..)

theorem Plain.createSynFrame (hnamed : own.named) (hzero : own.peers 0) :
    e.createSynFrame.SentBy own := by
  unfold Endpoint.createSynFrame
  rw [h.localCid_eq]
  exact Frame.sentBy_newSyn (h.config_eq ▸ h.version) h.localCid_lt hnamed hzero

theorem Plain.createSynAckFrame (hnamed : own.named) : e.createSynAckFrame.SentBy own := by
  unfold Endpoint.createSynAckFrame
  rw [h.localCid_eq]
  exact Frame.sentBy_newSynAck (h.config_eq ▸ h.version) h.localCid_lt hnamed h.width
    h.peerCid

theorem Plain.reconstructFrame {q : ℕ} {i : RetransmissionFrameInfo}
    (hk : e.reliability.retransmissionManager.Keeps q i) (now : Instant) :
    (i.reconstructFrame e.createRetransmissionContext now).SentBy own := by
  obtain ⟨hsmall, hq⟩ := h.keeps q i hk
  have hwindow : e.reliability.recvBuffer.windowSize < u16Size := Nat.mod_lt _ (by decide)
  unfold RetransmissionFrameInfo.reconstructFrame
  rcases hsmall with ⟨ht, hlen⟩ | ht
  · rw [ht]
    exact Frame.sentBy_newPush h.width h.peerCid hq h.nextSequence hwindow
      (timestampSince_lt ..) hlen
  · rw [ht]
    exact Frame.sentBy_newFin h.width h.peerCid hq h.nextSequence hwindow (timestampSince_lt ..)

theorem Plain.sendStandaloneAck : (Outcome.last (e.sendStandaloneAck t)).Plain own := by
  unfold Endpoint.sendStandaloneAck
  split
  · have hsent : Plain own { e with reliability := e.reliability.onAckSent } := { h with }
    refine hsent.sendRawFrames fun f hf => ?_
    rw [List.mem_singleton.mp hf]
    exact h.createAckFrame
  · exact h

theorem Plain.sendChallenge (ht : t.challenge < 256 ^ 8) (s : ConnectionState)
    (timing : TimingManager) (a : SocketAddr) :
    (Outcome.last (Endpoint.sendFrameTo t
      (numberChallenge { e with state := s, timing } t.challenge).2
      (createPathChallengeFrame t (numberChallenge { e with state := s, timing } t.challenge).2
        (numberChallenge { e with state := s, timing } t.challenge).1 t.challenge) a)).Plain
      own := by
  have hnumbered : Plain own (numberChallenge { e with state := s, timing } t.challenge).2 :=
    { h with counter := nextSeq_lt _ }
  apply hnumbered.sendFrameTo
  exact Frame.sentBy_newPathChallenge h.width h.peerCid h.counter (timestampSince_lt ..) ht

theorem Plain.checkPathMigration (ht : t.challenge < 256 ^ 8) (a : SocketAddr) :
    (Outcome.last (e.checkPathMigration t a)).Plain own := by
  unfold Endpoint.checkPathMigration
  split
  · rename_i hs
    rw [startPathValidation_eq, if_pos hs.2]
    exact h.sendChallenge ht _ _ a
  · exact h

theorem Plain.tryTransition (s : ConnectionState) : (e.tryTransition s).Plain own := by
  rw [tryTransition_eq]
  split
  · exact { h with }
  · exact h

end Sending

section Receiving

variable (h : e.Plain own)
include h

theorem Plain.receive (q : ℕ) (p : PacketOrFin) :
    Plain own { e with reliability := (e.reliability.receive q p).2 } := by
  cases ha : e.reliability.recvBuffer.accepts q with
  | false =>
    rw [ReliabilityLayer.receive_eq_of_not_accepts ha]
    exact h
  | true =>
    rw [ReliabilityLayer.receive_eq_of_accepts ha]
    exact { h with }

theorem Plain.receiveDataAndMaybeAck (q : ℕ) (payload : Bytes) :
    (Outcome.last (e.receiveDataAndMaybeAck t q payload)).Plain own := by
  have hr := h.receive q (.push payload)
  unfold Endpoint.receiveDataAndMaybeAck
  split
  · rename_i heq
    rw [← ReliabilityLayer.receivePush, heq] at hr
    exact hr.sendStandaloneAck
  · rename_i heq
    rw [← ReliabilityLayer.receivePush, heq] at hr
    exact hr

theorem Plain.receiveFinThen (q : ℕ) {next : Endpoint C → Endpoint C}
    (hn : ∀ e', e'.Plain own → (next e').Plain own) :
    (Outcome.last (e.receiveFinThen t q next)).Plain own := by
  have hr := h.receive q .fin
  unfold Endpoint.receiveFinThen receiveFinAndAck ReliabilityLayer.receiveFin
  generalize e.reliability.receive q .fin = r at hr
  obtain ⟨new, layer⟩ := r
  cases new with
  | false => exact hr
  | true =>
    have hack := hr.sendStandaloneAck (t := t)
    dsimp only at hack ⊢
    generalize Endpoint.sendStandaloneAck t { e with reliability := layer } = x at hack ⊢
    cases x with
    | error r => exact hack
    | ok e' => exact hn e' hack

theorem Plain.handlePushFrame (header : ShortHeader) (payload : Bytes) :
    (Outcome.last (e.handlePushFrame t header payload)).Plain own := by
  unfold Endpoint.handlePushFrame
  split
  · exact h.receive _ _
  all_goals first
    | exact h.receiveDataAndMaybeAck _ _
    | exact h

theorem Plain.handleFinFrame (header : ShortHeader) :
    (Outcome.last (e.handleFinFrame t header)).Plain own := by
  unfold Endpoint.handleFinFrame
  split
  · exact h.receiveFinThen _ fun e' he => he.tryTransition _
  · exact h.receiveFinThen _ fun e' he => he
  · exact h.receiveFinThen _ fun e' he => he.tryTransition _
  · exact h.receiveFinThen _ fun e' he => he
  · refine h.receiveFinThen _ fun e' he => ?_
    split
    · exact he.tryTransition _
    · exact he
  all_goals exact h

end Receiving

section Packetizing

variable [CongestionControl C] (h : e.Plain own)
include h

theorem Plain.pushes {chunks : List Bytes} {b : SendBuffer}
    (hp : Packetized (e.packetizerContext t) e.reliability.sendBuffer chunks b) :
    ∀ f ∈ e.pushes t chunks, f.SentBy own := by
  intro f hf
  obtain ⟨n, p, hn, rfl⟩ := mem_pushFrames.mp hf
  have hlen := (hp.fits p (List.mem_of_getElem? hn)).2
  have hmax : (e.packetizerContext t).maxPayloadSize = own.config.connection.maxPayloadSize :=
    congrArg (·.connection.maxPayloadSize) h.layer_config_eq
  rw [hmax] at hlen
  exact Frame.sentBy_newPush h.width h.peerCid (counterAfter_lt h.counter n) h.nextSequence
    (Nat.mod_lt _ (by decide)) (timestampSince_lt ..) hlen

theorem Plain.cut {chunks : List Bytes} {b : SendBuffer}
    (hp : Packetized (e.packetizerContext t) e.reliability.sendBuffer chunks b) :
    (e.cut t chunks b).Plain own := by
  refine { h with
    counter := counterAfter_lt h.counter _
    keeps := fun q i hk => ?_ }
  rcases keeps_addAll hk with hk | ⟨f, hf, hq, hi⟩
  · exact h.keeps q i hk
  · have hsmall := small_of_mem_pushFrames (fun p hm => (hp.fits p hm).2) hf hi
    have hmax : (e.packetizerContext t).maxPayloadSize = own.config.connection.maxPayloadSize :=
      congrArg (·.connection.maxPayloadSize) h.layer_config_eq
    rw [hmax] at hsmall
    refine ⟨hsmall, ?_⟩
    have hfits := (h.pushes hp f hf).fits
    obtain ⟨n, p, -, rfl⟩ := mem_pushFrames.mp hf
    cases hi
    exact hfits.sequenceNumber

omit [CongestionControl C] in
theorem Plain.createFin : (e.createFin t).2.Plain own ∧
    ∀ f ∈ (e.createFin t).1, f.SentBy own := by
  unfold Endpoint.createFin
  split
  · refine ⟨{ h with counter := nextSeq_lt _, keeps := fun q i hk => ?_ }, fun f hf => ?_⟩
    · rcases keeps_addInFlightPacket hk with hk | ⟨-, hi⟩
      · exact h.keeps q i hk
      · cases hi
        exact ⟨Or.inr rfl, h.counter⟩
    · rw [List.mem_singleton.mp hf]
      have hnumbered : Plain own { e with reliability := e.reliability.nextSequenceNumber.2 } :=
        { h with counter := nextSeq_lt _ }
      exact hnumbered.createFinFrame h.counter
  · exact ⟨h, by simp⟩

theorem Plain.packetizeAndSend : (Outcome.last (e.packetizeAndSend t)).Plain own := by
  obtain ⟨chunks, b, hp, he⟩ := packetizeStream_eq (t := t) (e := e)
  obtain ⟨hplain, hfin⟩ := (h.cut hp).createFin (t := t)
  rw [Endpoint.packetizeAndSend, he]
  refine hplain.sendFrames fun f hf => ?_
  exact (List.mem_append.mp hf).elim (h.pushes hp f) (hfin f)

theorem Plain.sendInitialSyn (hnamed : own.named) (hzero : own.peers 0) :
    (Outcome.last (e.sendInitialSyn t)).Plain own := by
  obtain ⟨chunks, b, hp, he⟩ := packetizeStream_eq (t := t) (e := e)
  rw [Endpoint.sendInitialSyn, he]
  dsimp only
  split
  · refine (h.cut hp).sendRawFrames fun f hf => ?_
    rcases List.mem_cons.mp hf with rfl | hf
    · exact h.createSynFrame hnamed hzero
    · exact h.pushes hp f hf
  · exact h

theorem Plain.sendZeroRttPackets (hnamed : own.named) :
    (Outcome.last (e.sendZeroRttPackets t)).Plain own := by
  unfold Endpoint.sendZeroRttPackets
  split
  · rename_i packets reliability heq
    obtain ⟨chunks, b, hp, hf, rfl⟩ :=
      ReliabilityLayer.packetizeZeroRttStreamData_eq (by rfl) heq
    have hcut := h.cut (t := t) hp
    refine Plain.sendPackets ?_ ?_
    · exact { hcut with }
    · rw [hf]
      intro f hf
      rcases List.mem_cons.mp hf with rfl | hf
      · exact h.createSynAckFrame hnamed
      · exact h.pushes hp f hf
  · exact h

theorem Plain.handleSynAckFrame {header : LongHeader} (hf : own.peers header.sourceCid) :
    (Outcome.last (e.handleSynAckFrame t header)).Plain own := by
  unfold Endpoint.handleSynAckFrame
  split
  · rename_i hs
    have he : Plain own { e with
        state := .established
        timing := e.timing.cancelTimer .connectionTimeout
        peerCid := header.sourceCid } := { h with peerCid := hf }
    dsimp only
    rw [transitionTo_eq, if_pos (by dsimp only; rw [hs]; rfl)]
    dsimp only [bind, Except.bind]
    split
    · exact he.packetizeAndSend
    · exact he.sendStandaloneAck
  · exact h

theorem Plain.processAckCommon (header : ShortHeader) (payload : Bytes) :
    (Outcome.last (e.processAckCommon t header payload)).Plain own := by
  unfold Endpoint.processAckCommon
  obtain ⟨r, cc, he⟩ := ReliabilityLayer.handleAck_eq (l := e.reliability)
    header.recvNextSequence (decodeSackRanges payload) t.now e.createRetransmissionContext
  have hctx : createRetransmissionContext { e with peerRecvWindow := header.recvWindowSize } =
    e.createRetransmissionContext := rfl
  dsimp only
  rw [hctx, he]
  refine Plain.sendFrames ?_ ?_
  · exact { h with keeps := fun q i hk => h.keeps q i (keeps_of_processAck hk) }
  · intro f hf
    obtain ⟨q, i, hk, rfl⟩ := rebuilds_processAck hf
    exact h.reconstructFrame (keeps_of_processAck hk) _

theorem Plain.processFrame {f : Frame} (hf : f.Fits) (hp : f.Introduces own.peers)
    (hnamed : ∀ header, f = .syn header → own.named) (a : SocketAddr) :
    (Outcome.last (e.processFrame t f a)).Plain own := by
  cases f with
  | push header payload => exact h.handlePushFrame header payload
  | fin header => exact h.handleFinFrame header
  | ping header => exact h
  | synAck header => exact h.handleSynAckFrame (hp header rfl)
  | syn header =>
    change (Outcome.last (e.handleSynFrame t)).Plain own
    unfold handleSynFrame
    split
    · split
      · refine h.sendRawFrames fun f hf => ?_
        rw [List.mem_singleton.mp hf]
        exact h.createSynAckFrame (hnamed header rfl)
      · exact h
    · exact h
  | ack header payload =>
    change (Outcome.last (e.handleAckFrame t header payload)).Plain own
    unfold handleAckFrame
    split <;> first | exact h.processAckCommon header payload | exact h
  | pathChallenge header challengeData =>
    change (Outcome.last (e.handlePathChallengeFrame t header challengeData a)).Plain own
    unfold handlePathChallengeFrame
    split
    · exact h
    · exact h.sendFrameTo (Frame.sentBy_newPathResponse h.width h.peerCid hf.1.sequenceNumber
        (timestampSince_lt ..) hf.2)
  | pathResponse header challengeData =>
    change (Outcome.last (e.handlePathResponseFrame challengeData a)).Plain own
    unfold handlePathResponseFrame
    split
    · split
      · rw [completePathValidation_eq]
        split
        · exact { h with }
        · exact h
      · exact h
    · exact h

theorem Plain.routeFrame {f : Frame} (hf : f.Fits) (hp : f.Introduces own.peers)
    (hnamed : ∀ header, f = .syn header → own.named) (ht : t.challenge < 256 ^ 8)
    (a : SocketAddr) :
    (Outcome.last (e.routeFrame t f a)).Plain own := by
  have hheard : Plain own { e with timing := e.timing.onPacketReceived t.now } := { h with }
  exact (hheard.checkPathMigration ht a).andThen fun e' he => he.processFrame hf hp hnamed a

end Packetizing

section Steps

variable (h : e.Plain own)
include h

theorem Plain.release : e.release.Plain own := by
  refine { h with keeps := ?_ }
  rintro q i (hk | hk)
  · simp [Endpoint.release, ReliabilityLayer.clearInFlightPackets, RetransmissionManager.clear] at hk
  · simp [Endpoint.release, ReliabilityLayer.clearInFlightPackets, RetransmissionManager.clear] at hk

theorem Plain.shutdown : e.shutdown.Plain own := by
  have hgrace {e : Endpoint C} (h : e.Plain own) : e.shutdownGracefully.Plain own := by
    have hbegun : e.beginGracefulShutdown.Plain own := { h with }
    unfold shutdownGracefully
    dsimp only
    split
    · exact hbegun.release
    · exact hbegun
  rcases shutdown_cases (e := e) with ⟨-, he⟩ | ⟨-, -, he⟩ | ⟨-, -, he⟩
  · rw [he]
    exact hgrace h
  · rw [he]
    exact hgrace { h with }
  · rw [he]
    exact Plain.release { h with }

theorem Plain.handleTimeoutEvent (event : TimeoutEvent) :
    (Outcome.last (e.handleTimeoutEvent event)).Plain own := by
  cases event with
  | idleTimeout | connectionTimeout =>
    rw [Endpoint.handleTimeoutEvent, transitionTo_eq, if_pos (by cases e.state <;> rfl)]
    exact { h with }
  | retransmissionTimeout => exact h
  | pathValidationTimeout =>
    rw [Endpoint.handleTimeoutEvent, handlePathValidationTimeout_eq]
    split
    · exact { h with }
    · exact h

theorem Plain.handleTimeoutEvents (events : List TimeoutEvent) :
    (Outcome.last (events.foldlM (fun e event => e.handleTimeoutEvent event) e)).Plain own := by
  induction events generalizing e with
  | nil => exact h
  | cons event events ih =>
    rw [List.foldlM_cons]
    exact (h.handleTimeoutEvent event).andThen fun e' he => ih he

theorem Plain.deliver : (e.deliver t).2.Plain own := by
  obtain ⟨data, held, hd⟩ := deliver_eq (t := t) (e := e)
  rw [hd]
  refine { h with nextSequence := ?_ }
  refine ReceiveBuffer.reassemble_rule (P := fun b => b.nextSequence < u32Size) ?_ ?_ h.nextSequence
  · intro c p c' _ hc
    obtain ⟨-, rfl⟩ := ReceiveBuffer.tryPopNextContiguous_eq_some.mp hc
    exact Nat.mod_lt _ (by decide)
  · exact fun c hc => hc

theorem Plain.finTransition (finSeen : Bool) : (e.finTransition finSeen).Plain own := by
  rw [finTransition_eq]
  exact { h with }

theorem Plain.sendEof : e.sendEof.Plain own := by
  unfold Endpoint.sendEof
  split
  · exact { h with }
  · exact h

theorem Plain.shouldClose : e.shouldClose.2.Plain own := by
  unfold Endpoint.shouldClose
  split
  · rw [transitionTo_eq, if_pos (by cases e.state <;> rfl)]
    exact Plain.release { h with }
  · exact h

variable [CongestionControl C]

theorem Plain.checkAllTimeouts : (Outcome.last (e.checkAllTimeouts t)).Plain own := by
  have hend {e₁ : Endpoint C} {frames : List Frame} (h₁ : e₁.Plain own)
      (hf : ∀ f ∈ frames, f.SentBy own) :
      (Outcome.last (e.timing.timerManager.timeoutRx.foldlM
        (fun e event => e.handleTimeoutEvent event) e₁ >>= fun e =>
          e.sendFrames t frames)).Plain own :=
    (h₁.handleTimeoutEvents _).andThen fun e' he => he.sendFrames hf
  rw [last_checkAllTimeouts]
  unfold handleTimeouts
  dsimp only
  split
  · obtain ⟨r, cc, he⟩ := ReliabilityLayer.checkRetransmissions_eq (l := e.reliability) t.now
      e.createRetransmissionContext
    have hctx : createRetransmissionContext { e with
        timing := { e.timing with timerManager := e.timing.timerManager.checkTimerEvents.2 } } =
      e.createRetransmissionContext := rfl
    rw [hctx, he]
    apply hend
    · refine { h with keeps := fun q i hk => h.keeps q i ?_ }
      exact keeps_of_checkForRetransmissions (c := e.createRetransmissionContext) hk
    · intro f hf
      obtain ⟨q, i, hk, rfl⟩ := rebuilds_checkForRetransmissions hf
      exact h.reconstructFrame (keeps_of_checkForRetransmissions hk) _
  · exact hend { h with } (by simp)

theorem Plain.followUp : (Machine.resume (e.followUp t)).endpoint.Plain own := by
  have hopen {e : Endpoint C} (h : e.Plain own) :
      (Outcome.last (e.packetizeIfOpen t)).Plain own := by
    unfold packetizeIfOpen
    split <;> first | exact h.packetizeAndSend | exact h
  have hsent := hopen ((h.deliver (t := t)).finTransition (e.deliver t).1)
  unfold Endpoint.followUp
  dsimp only
  generalize ((e.deliver t).2.finTransition (e.deliver t).1).packetizeIfOpen t = x at hsent
  cases x with
  | error r => exact hsent
  | ok e' => exact hsent.sendEof.shouldClose

theorem Plain.begin (hs : e.state = .connecting → own.named ∧ own.peers 0) :
    (Outcome.last (e.begin t)).Plain own := by
  unfold Endpoint.begin
  split
  · rename_i hcon
    exact h.sendInitialSyn (hs hcon).1 (hs hcon).2
  · exact h

theorem Plain.handleStreamCommand (ht : t.challenge < 256 ^ 8) (c : StreamCommand)
    (hnamed : ∀ data, c = .sendData data → e.state = .synReceived → own.named) :
    (Outcome.last (e.handleStreamCommand t c)).Plain own := by
  cases c with
  | sendData data =>
    change (Outcome.last (e.sendData t data)).Plain own
    unfold sendData
    split
    · rename_i hs
      rw [transitionTo_eq, if_pos (by rw [hs]; rfl)]
      have hw : Plain own (writeToStream { e with state := .established } data) := { h with }
      exact hw.sendZeroRttPackets (hnamed data rfl hs)
    · exact { h with }
  | close =>
    change (Outcome.last (e.close t)).Plain own
    unfold close
    dsimp only
    split
    · exact h.shutdown
    · exact h.shutdown.packetizeAndSend
  | migrate a n =>
    change (Outcome.last (e.migrate t a n)).Plain own
    unfold migrate
    by_cases hs : e.state = .established
    · rw [startPathValidation_eq, if_pos hs]
      exact h.sendChallenge ht _ _ a
    · rw [startPathValidation_eq, if_neg hs]
      exact h

end Steps

end Endpoint

/-- The frame that arrives and the random number of a step have their widths. -/
def Label.Typed (l : Label) : Prop := l.FrameFits ∧ ∀ t, l.tick? = some t → t.challenge < 256 ^ 8

namespace Machine

open Endpoint

variable {C : Type}

/-- A step in which an endpoint may name itself: it starts, accepts or answers another SYN. -/
def Names (m : Machine C) : Label → Prop
  | .begin _ => m.endpoint.state = .connecting
  | .command _ (.sendData _) => m.endpoint.state = .synReceived
  | .frame _ (.syn _) _ => True
  | _ => False

/-- A step that goes with what is known of the connection: the CID of the peer is zero until the
peer has named itself. -/
structure Suits (m : Machine C) (own : Identity) (l : Label) : Prop where
  typed : l.Typed
  names : m.Names l → own.named
  zero : m.endpoint.state = .connecting → own.peers 0
  introduces : ∀ t f a, l = .frame t f a → f.Introduces own.peers

variable [CongestionControl C] {m m' : Machine C} {l : Label} {own : Identity}

theorem plain_step (h : m.endpoint.Plain own) (hl : m.Suits own l) (hn : m.next l = some m') :
    m'.endpoint.Plain own := by
  cases l with
  | frame t f a =>
    simp only [next, Option.ite_none_right_eq_some, Option.some.injEq] at hn
    rw [← hn.2, settle_endpoint]
    refine h.routeFrame hl.typed.1 (hl.introduces t f a rfl) (fun header hf => ?_)
      (hl.typed.2 t rfl) a
    subst hf
    exact hl.names trivial
  | command t c =>
    simp only [next, Option.ite_none_right_eq_some, Option.some.injEq] at hn
    rw [← hn.2, settle_endpoint]
    refine h.handleStreamCommand (hl.typed.2 t rfl) c fun data hc hs => ?_
    subst hc
    exact hl.names hs
  | begin t | poll t =>
    simp only [next, Option.ite_none_right_eq_some, Option.some.injEq] at hn
    rw [← hn.2, settle_endpoint]
    first
      | exact h.begin fun hs => ⟨hl.names hs, hl.zero hs⟩
      | exact h.checkAllTimeouts
  | followUp t =>
    simp only [next, Option.ite_none_right_eq_some, Option.some.injEq] at hn
    rw [← hn.2]
    exact h.followUp
  | fire id now | dropReplaced id =>
    simp only [next, Option.some.injEq] at hn
    rw [← hn]
    exact { h with }

/-- All runs of an endpoint in which every value has the width of its type. -/
def typedSystem (C : Type) [CongestionControl C] : TransitionSystem (Machine C) Label :=
  (TransitionSystem.ofNext
    (fun m => (m.phase = .created ∧ m.endpoint.Created) ∧ m.endpoint.Identified)
    fun m l => m.next l).restrict fun _ l _ => l.Typed

omit [CongestionControl C] in
theorem suits_of_typed (hl : l.Typed) : m.Suits m.endpoint.identity l where
  typed := hl
  names _ := trivial
  zero _ := show 0 < u32Size by decide
  introduces t f a he := by
    subst he
    exact Frame.introduces_of_fits hl.1

theorem plain_of_next (h : m.endpoint.Plain m.endpoint.identity) (hl : l.Typed)
    (hn : m.next l = some m') : m'.endpoint.Plain m'.endpoint.identity := by
  have hp := plain_step h (suits_of_typed hl) hn
  have hidentity : m'.endpoint.identity = m.endpoint.identity := by
    rw [identity, hp.config_eq, hp.localCid_eq]
    rfl
  rwa [hidentity]

theorem plain (h : (typedSystem C).Reachable m) : m.endpoint.Plain m.endpoint.identity := by
  induction h with
  | init h => exact plain_created h.1.2 h.2 (fun _ hc => hc) h.2.peerCid
  | step _ hn ih => exact plain_of_next ih hn.2 hn.1

/-- What it takes for a datagram to be read as it was sent: it is written exactly if none of its
ACKs is too long, and its first bytes are read as the longest prefix of its frames that lies within
them. -/
structure ReadBack (frames : List Frame) : Prop where
  written_iff : (∃ bytes, serializeFrames frames = some bytes) ↔
    ∀ f ∈ frames, f.isLongAck = false
  read : ∀ bytes, serializeFrames frames = some bytes → ∀ n, ∃ k,
    IsGreatest {k | FitsWithin frames n k} k ∧ deserializeFrames (bytes.take n) = frames.take k

omit [CongestionControl C] in
theorem readBack_of_legible {frames : List Frame} {max : ℕ} (hmax : max < u16Size)
    (h : ∀ f ∈ frames, f.Legible max) : ReadBack frames where
  written_iff := by
    rw [exists_serializeFrames_iff]
    exact forall₂_congr fun f hf => (h f hf).lengthMatches_iff hmax
  read bytes hb n := by
    have hwf : ∀ f ∈ frames, f.WellFormed := fun f hf =>
      (h f hf).wellFormed (exists_serializeFrames_iff.mp ⟨bytes, hb⟩ f hf)
    rw [serializeFrames_of_wellFormed hwf] at hb
    cases hb
    exact ⟨_, isGreatest_fitsWithin hwf n, deserializeFrames_take hwf n⟩

/-- Whatever happens to an endpoint, a peer reads every datagram it sends as it was sent, or as much
of it as has arrived, unless an ACK names too many ranges. -/
theorem datagrams_read_back (h : (typedSystem C).Reachable m)
    (hmax : m.endpoint.config.connection.maxPayloadSize < u16Size) {b : FrameBatch}
    (hb : b ∈ m.endpoint.sent) : ReadBack b.frames :=
  readBack_of_legible hmax fun f hf =>
    ((plain h).sent f (List.mem_flatMap.mpr ⟨b, hb, hf⟩)).toLegible

section Sample

theorem typed_receivingRun : ∀ l ∈ receivingRun [1, 2], l.Typed := by
  intro l hl
  have hpush (q : ℕ) (hq : q < u32Size) : (Frame.newPush 1 q 0 256 0 [0]).Fits :=
    ⟨(by decide : 1 < u32Size), (by decide : 1 % u16Size < u16Size), (by decide : 256 < u16Size),
      (by decide : 0 < u32Size), hq, (by decide : 0 < u32Size)⟩
  simp only [receivingRun, List.map_cons, List.map_nil, List.cons_append, List.nil_append,
    List.mem_cons, List.not_mem_nil, or_false] at hl
  rcases hl with rfl | rfl | rfl | rfl | rfl
  · exact ⟨trivial, by rintro t ⟨⟩; decide⟩
  · exact ⟨⟨by decide, by decide, by decide⟩, by rintro t ⟨⟩; decide⟩
  · exact ⟨trivial, by rintro t ⟨⟩; decide⟩
  · exact ⟨hpush 1 (by decide), by rintro t ⟨⟩; decide⟩
  · exact ⟨hpush 2 (by decide), by rintro t ⟨⟩; decide⟩

/-- A client sends a SYN and acknowledges two packets that come out of order. -/
theorem datagrams_read_back_sample : ∃ m : Machine Vegas, m.endpoint.sent.length = 3 ∧
    ∀ b ∈ m.endpoint.sent, ReadBack b.frames := by
  have hinit : (eightClient.phase = .created ∧ eightClient.endpoint.Created) ∧
      eightClient.endpoint.Identified :=
    ⟨eightClient_created, by decide, by decide, by decide⟩
  obtain ⟨m, hr, hlen, hmax⟩ : ∃ m : Machine Vegas,
      (TransitionSystem.ofNext (fun m : Machine Vegas =>
        (m.phase = .created ∧ m.endpoint.Created) ∧ m.endpoint.Identified) fun m l => m.next l).Run
          (receivingRun [1, 2]) m ∧ m.endpoint.sent.length = 3 ∧
        m.endpoint.config.connection.maxPayloadSize < u16Size :=
    TransitionSystem.exists_run_of_foldlM _ hinit (by decide)
  have hreach := (hr.restrict_of_labels typed_receivingRun).reachable
  exact ⟨m, hlen, fun b hb => datagrams_read_back hreach hmax hb⟩

end Sample

end Machine

end Kestrel
