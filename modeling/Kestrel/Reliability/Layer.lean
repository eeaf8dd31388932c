import Kestrel.Reliability.Congestion
import Kestrel.Reliability.Packetizer
import Kestrel.Reliability.ReceiveBuffer
import Kestrel.Reliability.RetransmissionManager

/-! # Reliability layer

The layer joins the send and receive buffers, the retransmission manager, the round-trip
estimator and a congestion controller. It also owns the counter of outgoing sequence numbers.
-/

namespace Kestrel

namespace RetransmissionManager

variable {m : RetransmissionManager} {c : PacketizerContext} {counter : ℕ} {chunks : List Bytes}

theorem info?_addAll_pushFrames_of_lt (h : counter + chunks.length < u32Size) (now : Instant)
    {q : ℕ} (hq : q < counter) :
    (m.addAll (pushFrames c counter chunks) now).sackManager.info? q = m.sackManager.info? q := by
  induction chunks generalizing m counter with
  | nil => rfl
  | cons chunk chunks ih =>
    rw [List.length_cons] at h
    have hn : nextSeq counter = counter + 1 := Nat.mod_eq_of_lt (by omega)
    rw [pushFrames, hn, addAll, List.foldl_cons]
    refine (ih (by omega) (by omega)).trans ?_
    rw [PacketizerContext.frame, Frame.newPush, info?_addInFlightPacket_push, if_neg]
    dsimp only
    omega

theorem info?_addAll_pushFrames (h : counter + chunks.length < u32Size) (now : Instant) {n : ℕ}
    {p : Bytes} (hp : chunks[n]? = some p) :
    (m.addAll (pushFrames c counter chunks) now).sackManager.info? (counter + n) =
      some ⟨.push, counter + n, p, none⟩ := by
  induction chunks generalizing m counter n with
  | nil => cases hp
  | cons chunk chunks ih =>
    rw [List.length_cons] at h
    have hn : nextSeq counter = counter + 1 := Nat.mod_eq_of_lt (by omega)
    rw [pushFrames, hn, addAll, List.foldl_cons]
    cases n with
    | zero =>
      cases hp
      refine (info?_addAll_pushFrames_of_lt (by omega) now (by omega)).trans ?_
      rw [PacketizerContext.frame, Frame.newPush, info?_addInFlightPacket_push, if_pos (by rfl)]
      rfl
    | succ n =>
      have hlen : counter + 1 + chunks.length < u32Size := by omega
      have hi := ih (m := m.addInFlightPacket (c.frame counter chunk) now) hlen hp
      rw [show counter + (n + 1) = counter + 1 + n by omega]
      exact hi

end RetransmissionManager

/-- The field `packetized` records the payloads cut into PUSH frames so far; no operation
reads it. -/
structure ReliabilityLayer (C : Type) where
  sendBuffer : SendBuffer
  recvBuffer : ReceiveBuffer
  rtoEstimator : RttEstimator
  congestionControl : C
  retransmissionManager : RetransmissionManager
  config : Config
  sequenceNumberCounter : ℕ
  ackPending : Bool
  ackElicitingPacketsSinceLastAck : ℕ
  packetized : List Bytes

namespace ReliabilityLayer

variable {C : Type} (l : ReliabilityLayer C)

def new (config : Config) (congestionControl : C) : ReliabilityLayer C :=
  { sendBuffer := .new config.connection.sendBufferCapacityBytes
    recvBuffer := .new config.connection.recvBufferCapacityPackets
    rtoEstimator := .new config.reliability.initialRto
    congestionControl
    retransmissionManager := .new config
    config
    sequenceNumberCounter := 0
    ackPending := false
    ackElicitingPacketsSinceLastAck := 0
    packetized := [] }

def hasRetransmissionTimeout (now : Instant) : Bool :=
  l.retransmissionManager.hasRetransmissionTimeout l.rtoEstimator.rto now

/-- The ranges, the next expected sequence number and the window for an ACK frame. -/
def getAckInfo : List SackRange × ℕ × ℕ :=
  (l.recvBuffer.getSackRanges, l.recvBuffer.nextSequence, l.recvBuffer.windowSize)

/-- Keeps a frame for retransmission. -/
def trackFrameInFlight (frame : Frame) (now : Instant) : ReliabilityLayer C :=
  { l with retransmissionManager := l.retransmissionManager.addInFlightPacket frame now }

def trackAll (frames : List Frame) (now : Instant) : ReliabilityLayer C :=
  frames.foldl (fun l f => l.trackFrameInFlight f now) l

/-- What a packet accepted by the receive buffer leads to. -/
def onAccepted (recvBuffer : ReceiveBuffer) : ReliabilityLayer C :=
  { l with
    recvBuffer
    ackPending := true
    ackElicitingPacketsSinceLastAck := (l.ackElicitingPacketsSinceLastAck + 1) % u16Size
    retransmissionManager := l.retransmissionManager.onAckElicitingPacketReceived }

/-- Receives a packet; says whether it was new. -/
def receive (sequenceNumber : ℕ) (p : PacketOrFin) : Bool × ReliabilityLayer C :=
  match l.recvBuffer.receive sequenceNumber p with
  | (true, recvBuffer) => (true, l.onAccepted recvBuffer)
  | (false, recvBuffer) => (false, { l with recvBuffer })

def receivePush (sequenceNumber : ℕ) (payload : Bytes) : Bool × ReliabilityLayer C :=
  l.receive sequenceNumber (.push payload)

def receiveFin (sequenceNumber : ℕ) : Bool × ReliabilityLayer C :=
  l.receive sequenceNumber .fin

def reassemble : Option (List Bytes) × Bool × ReliabilityLayer C :=
  let (data, finSeen, recvBuffer) := l.recvBuffer.reassemble
  (data, finSeen, { l with recvBuffer })

def isRecvBufferEmpty : Bool := l.recvBuffer.isEmpty

def isAckPending : Bool := l.ackPending

def onAckSent : ReliabilityLayer C :=
  { l with
    ackPending := false
    ackElicitingPacketsSinceLastAck := 0
    retransmissionManager := l.retransmissionManager.onAckSent }

def writeToStream (buf : Bytes) : ℕ × ReliabilityLayer C :=
  let (n, sendBuffer) := l.sendBuffer.writeToStream buf
  (n, { l with sendBuffer })

def isSendBufferEmpty : Bool := l.sendBuffer.isStreamBufferEmpty

def isInFlightEmpty : Bool := l.retransmissionManager.isAllInFlightEmpty

def hasFinInFlight : Bool := l.retransmissionManager.hasFinInFlight

def clearInFlightPackets : ReliabilityLayer C :=
  { l with retransmissionManager := l.retransmissionManager.clear }

/-- Takes the next sequence number of the counter. -/
def nextSequenceNumber : ℕ × ReliabilityLayer C :=
  (l.sequenceNumberCounter,
    { l with sequenceNumberCounter := nextSeq l.sequenceNumberCounter })

section

variable {l}

theorem trackAll_eq (frames : List Frame) (now : Instant) :
    l.trackAll frames now =
      { l with retransmissionManager := l.retransmissionManager.addAll frames now } := by
  induction frames generalizing l with
  | nil => rfl
  | cons f frames ih => exact ih (l := l.trackFrameInFlight f now)

theorem receive_eq_of_accepts {q : ℕ} {p : PacketOrFin} (h : l.recvBuffer.accepts q = true) :
    l.receive q p = (true,
      l.onAccepted { l.recvBuffer with received := l.recvBuffer.received.insert q p }) := by
  rw [receive, ReceiveBuffer.receive_of_accepts h]

theorem receive_eq_of_not_accepts {q : ℕ} {p : PacketOrFin}
    (h : l.recvBuffer.accepts q = false) : l.receive q p = (false, l) := by
  rw [receive, ReceiveBuffer.receive_of_not_accepts h]

@[simp] theorem receive_recvBuffer (q : ℕ) (p : PacketOrFin) :
    (l.receive q p).2.recvBuffer = (l.recvBuffer.receive q p).2 := by
  cases h : l.recvBuffer.accepts q
  · rw [receive_eq_of_not_accepts h, ReceiveBuffer.receive_of_not_accepts h]
  · rw [receive_eq_of_accepts h, ReceiveBuffer.receive_of_accepts h]
    rfl

end

variable [CongestionControl C]

/-- Takes the samples of an acknowledgment into the estimator and the controller. -/
def takeSamples (samples : List Duration) : ReliabilityLayer C :=
  samples.foldl
    (fun l s =>
      { l with
        rtoEstimator := l.rtoEstimator.update s l.config.reliability.minRto
        congestionControl := CongestionControl.onAck l.congestionControl s }) l

/-- Processes an acknowledgment and returns the frames to send again early. -/
def handleAck (recvNextSeq : ℕ) (sackRanges : List SackRange) (now : Instant)
    (c : RetransmissionContext) : List Frame × ReliabilityLayer C :=
  let (result, retransmissionManager) :=
    l.retransmissionManager.processAck recvNextSeq sackRanges now c
  let l := takeSamples { l with retransmissionManager } result.rttSamples
  if result.framesToRetransmit.isEmpty then (result.framesToRetransmit, l)
  else
    (result.framesToRetransmit,
      { l with congestionControl := CongestionControl.onPacketLoss l.congestionControl now })

/-- Returns the frames to send again after a timeout; if there are any, tells the controller and
backs off. -/
def checkRetransmissions (now : Instant) (c : RetransmissionContext) :
    List Frame × ReliabilityLayer C :=
  let (frames, retransmissionManager) :=
    l.retransmissionManager.checkForRetransmissions l.rtoEstimator.rto now c
  let l := { l with retransmissionManager }
  if frames.isEmpty then (frames, l)
  else
    (frames,
      { l with
        congestionControl := CongestionControl.onPacketLoss l.congestionControl now
        rtoEstimator := l.rtoEstimator.backoff })

/-- The context of the packetizer in the current state. -/
def packetizerContext (peerCid peerRecvWindow : ℕ) (now startTime : Instant) :
    PacketizerContext :=
  { peerCid
    timestamp := timestampSince startTime now
    congestionWindow := CongestionControl.congestionWindow l.congestionControl
    inFlightCount := l.retransmissionManager.sackInFlightCount
    peerRecvWindow
    maxPayloadSize := l.config.connection.maxPayloadSize
    ackInfo := (l.getAckInfo.2.1, l.getAckInfo.2.2) }

/-- Cuts PUSH frames off the send buffer and keeps them for retransmission. -/
def packetizeStreamData (peerCid peerRecvWindow : ℕ) (now startTime : Instant)
    (prependFrame : Option Frame) : List Frame × ReliabilityLayer C :=
  let (frames, sendBuffer, sequenceNumberCounter) :=
    packetize (l.packetizerContext peerCid peerRecvWindow now startTime) l.sendBuffer
      l.sequenceNumberCounter prependFrame
  let l := { l with
    sendBuffer, sequenceNumberCounter, packetized := l.packetized ++ payloadsOf frames }
  (frames, l.trackAll frames now)

/-- Like `packetizeStreamData`, with the frames arranged in datagrams after a SYN-ACK; `none`
where the code asserts that the SYN-ACK fits and it does not. -/
def packetizeZeroRttStreamData (peerCid peerRecvWindow : ℕ) (now startTime : Instant)
    (synAckFrame : Frame) (maxPacketSize : ℕ) :
    Option (List (List Frame) × ReliabilityLayer C) :=
  let (frames, sendBuffer, sequenceNumberCounter) :=
    packetize (l.packetizerContext peerCid peerRecvWindow now startTime) l.sendBuffer
      l.sequenceNumberCounter none
  let l := { l with
    sendBuffer, sequenceNumberCounter, packetized := l.packetized ++ payloadsOf frames }
  (zeroRttPackets synAckFrame maxPacketSize frames).map fun packets =>
    (packets, l.trackAll packets.flatten now)

variable {l}

theorem takeSamples_eq (samples : List Duration) : ∃ r cc,
    l.takeSamples samples = { l with rtoEstimator := r, congestionControl := cc } := by
  induction samples generalizing l with
  | nil => exact ⟨_, _, rfl⟩
  | cons s samples ih =>
    obtain ⟨r, cc, h⟩ := ih
      (l := { l with
        rtoEstimator := l.rtoEstimator.update s l.config.reliability.minRto
        congestionControl := CongestionControl.onAck l.congestionControl s })
    exact ⟨r, cc, h⟩

theorem handleAck_eq (n : ℕ) (rs : List SackRange) (now : Instant) (c : RetransmissionContext) :
    ∃ r cc, l.handleAck n rs now c =
      ((l.retransmissionManager.processAck n rs now c).1.framesToRetransmit,
        { l with
          retransmissionManager := (l.retransmissionManager.processAck n rs now c).2
          rtoEstimator := r, congestionControl := cc }) := by
  unfold handleAck
  generalize l.retransmissionManager.processAck n rs now c = result
  obtain ⟨result, m⟩ := result
  obtain ⟨r, cc, h⟩ := takeSamples_eq (l := { l with retransmissionManager := m }) result.rttSamples
  dsimp only
  rw [h]
  split
  · exact ⟨r, cc, rfl⟩
  · exact ⟨r, _, rfl⟩

theorem checkRetransmissions_eq (now : Instant) (c : RetransmissionContext) :
    ∃ r cc, l.checkRetransmissions now c =
      ((l.retransmissionManager.checkForRetransmissions l.rtoEstimator.rto now c).1,
        { l with
          retransmissionManager :=
            (l.retransmissionManager.checkForRetransmissions l.rtoEstimator.rto now c).2
          rtoEstimator := r, congestionControl := cc }) := by
  unfold checkRetransmissions
  dsimp only
  split
  · exact ⟨_, _, rfl⟩
  · exact ⟨_, _, rfl⟩

theorem packetizeStreamData_eq (peerCid window : ℕ) (now start : Instant) :
    ∃ chunks b', Packetized (l.packetizerContext peerCid window now start) l.sendBuffer chunks b' ∧
      l.packetizeStreamData peerCid window now start none =
        (pushFrames (l.packetizerContext peerCid window now start) l.sequenceNumberCounter chunks,
          { l with
            sendBuffer := b'
            sequenceNumberCounter := counterAfter l.sequenceNumberCounter chunks.length
            packetized := l.packetized ++ chunks
            retransmissionManager := l.retransmissionManager.addAll
              (pushFrames (l.packetizerContext peerCid window now start)
                l.sequenceNumberCounter chunks) now }) := by
  obtain ⟨chunks, b', he, hp⟩ := packetize_spec
    (l.packetizerContext peerCid window now start) l.sendBuffer l.sequenceNumberCounter none
  refine ⟨chunks, b', hp, ?_⟩
  rw [packetizeStreamData, he]
  simp only [Option.toList_none, List.nil_append, payloadsOf_pushFrames, trackAll_eq]

/-- With the SYN-ACK in front, packetizing does the same; the SYN-ACK is not tracked. -/
theorem packetizeZeroRttStreamData_eq {peerCid window : ℕ} {now start : Instant} {s : Frame}
    {max : ℕ} {packets : List (List Frame)} {l' : ReliabilityLayer C}
    (hs : s.sequenceNumber = none)
    (h : l.packetizeZeroRttStreamData peerCid window now start s max = some (packets, l')) :
    ∃ chunks b', Packetized (l.packetizerContext peerCid window now start) l.sendBuffer chunks b' ∧
      packets.flatten = s ::
        pushFrames (l.packetizerContext peerCid window now start) l.sequenceNumberCounter chunks ∧
      l' = { l with
        sendBuffer := b'
        sequenceNumberCounter := counterAfter l.sequenceNumberCounter chunks.length
        packetized := l.packetized ++ chunks
        retransmissionManager := l.retransmissionManager.addAll
          (pushFrames (l.packetizerContext peerCid window now start)
            l.sequenceNumberCounter chunks) now } := by
  obtain ⟨chunks, b', he, hp⟩ := packetize_spec
    (l.packetizerContext peerCid window now start) l.sendBuffer l.sequenceNumberCounter none
  rw [packetizeZeroRttStreamData, he] at h
  simp only [Option.toList_none, List.nil_append, payloadsOf_pushFrames] at h
  obtain ⟨packets', hz, heq⟩ := Option.map_eq_some_iff.mp h
  cases heq
  have hf := flatten_zeroRttPackets hz
  refine ⟨chunks, b', hp, hf, ?_⟩
  rw [hf, trackAll_eq, RetransmissionManager.addAll, List.foldl_cons,
    RetransmissionManager.addInFlightPacket_of_sequenceNumber hs]
  rfl

end ReliabilityLayer

end Kestrel
