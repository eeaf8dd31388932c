import Kestrel.Endpoint.Conservation
import Kestrel.Endpoint.Failures
import Kestrel.Endpoint.Range

/-! # Counters

What a peer sends is counted in machine integers. One of them is not reset as long as no
acknowledgment is sent, and before a connection is established none is. Apart from that one the
counters stay within their types as long as the sequence numbers do. And a poll looks back an hour,
which the clock has to have run.
-/

namespace Kestrel

/-- The number of values of a duration, in nanoseconds. -/
def durationSize : ℕ := Duration.fromSecs u64Size

/-- Parameters that have the widths of their types, with a window that cannot vanish and room for
a SYN-ACK in a packet. -/
structure Config.Sound (config : Config) : Prop where
  fastRetxThreshold : config.reliability.fastRetxThreshold < u16Size
  sendBufferCapacityBytes : config.connection.sendBufferCapacityBytes < u64Size
  minCwndPackets : 0 < config.congestionControl.minCwndPackets
  vegasGentleDecreaseFactor : config.congestionControl.vegasGentleDecreaseFactor ≤ 1
  maxPacketSize : 1 + LongHeader.encodedSize ≤ config.connection.maxPacketSize

namespace Machine

open Endpoint

variable {m m' : Machine Vegas} {l : Label} {config : Config}

/-- What holds of the counters between two steps. -/
structure InRange (config : Config) (m : Machine Vegas) : Prop where
  sized : m.endpoint.Sized config
  windowed : m.endpoint.Windowed config
  counted : m.endpoint.Counted

/-- The step drives no counter to its end: a packet that is accepted can be counted, the stream
ends before the sequence numbers do, the timeout can be doubled, and a poll that does not end the
connection comes when the clock has run for an hour. -/
def Moderate (m : Machine Vegas) : Label → Prop
  | .frame _ f _ => f.Fits ∧ ∀ q p, f.item? = some (q, p) → takes m.endpoint.state p = true →
    m.endpoint.reliability.recvBuffer.accepts q = true →
    m.endpoint.reliability.ackElicitingPacketsSinceLastAck + 1 < u16Size
  | .followUp _ => m.endpoint.reliability.recvBuffer.Ends
  | .poll t => (m.endpoint.reliability.hasRetransmissionTimeout t.now = true →
      m.endpoint.reliability.rtoEstimator.rto * 2 < durationSize) ∧
    (.idleTimeout ∉ m.endpoint.timing.timerManager.timeoutRx →
      .connectionTimeout ∉ m.endpoint.timing.timerManager.timeoutRx →
      Duration.fromSecs 3600 ≤ t.now)
  | _ => True

/-- The runs of an endpoint that controls congestion with a new controller of its own. -/
def vegasSystem (config : Config) : TransitionSystem (Machine Vegas) Label :=
  .ofNext (fun m => (m.phase = .created ∧ m.endpoint.Created) ∧ m.endpoint.config = config ∧
    m.endpoint.reliability.congestionControl = .new config) fun m l => m.next l

/-- Every addition and subtraction of the step stays within the type of its counter. A step that
adds to the numbers or takes from the send buffer more than once does it as often as the record
grows. -/
structure Fits (m : Machine Vegas) (l : Label) (m' : Machine Vegas) : Prop where
  sequenceNumberCounter : m.endpoint.reliability.sequenceNumberCounter +
    (m'.endpoint.history.numbered.length - m.endpoint.history.numbered.length) < u32Size
  written : ∀ t data, l = .command t (.sendData data) →
    m.endpoint.reliability.sendBuffer.streamBufferSize +
      min data.length m.endpoint.reliability.sendBuffer.spaceAvailable < u64Size
  packetized : (m'.endpoint.reliability.packetized.drop
      m.endpoint.reliability.packetized.length).flatten.length ≤
    m.endpoint.reliability.sendBuffer.streamBufferSize +
      (m'.endpoint.history.written.length - m.endpoint.history.written.length)
  nextSequence : ∀ t, l = .followUp t → m.endpoint.reliability.recvBuffer.nextSequence +
    m.endpoint.reliability.recvBuffer.popped < u32Size
  sackRanges : ReceiveBuffer.RangesFit none m'.endpoint.reliability.recvBuffer.received.keys
  ackEliciting : ∀ t f a q p, l = .frame t f a → f.item? = some (q, p) →
    takes m.endpoint.state p = true → m.endpoint.reliability.recvBuffer.accepts q = true →
    m.endpoint.reliability.ackElicitingPacketsSinceLastAck + 1 < u16Size ∧
    m.endpoint.reliability.retransmissionManager.sackManager.ackElicitingPacketsCount + 1 < u32Size
  fastRetxCount : ∀ t header payload a, l = .frame t (.ack header payload) a →
    ∀ (q : ℕ) (p : SackInFlightPacket),
      (m.endpoint.reliability.retransmissionManager.sackManager.unnamed header.recvNextSequence
        (decodeSackRanges payload)).inFlightPackets[q]? = some p → p.fastRetxCount + 1 < u16Size
  congestionWindow : ∀ t header payload a, l = .frame t (.ack header payload) a →
    m.endpoint.reliability.congestionControl.SamplesFit
      (m.endpoint.reliability.retransmissionManager.sackManager.processAck header.recvNextSequence
        (decodeSackRanges payload) t.now m.endpoint.createRetransmissionContext).1.rttSamples
  retryCount : ∀ t, l = .poll t → ∀ (q : ℕ) (p : SimpleInFlightPacket),
    m.endpoint.reliability.retransmissionManager.simpleRetxManager.inFlightSimple[q]? = some p →
      p.retryCount < p.maxRetries → p.retryCount + 1 < u8Size
  rto : ∀ t, l = .poll t → m.endpoint.reliability.hasRetransmissionTimeout t.now = true →
    m.endpoint.reliability.rtoEstimator.rto * 2 < durationSize

/-- The step of a peer's frame, a poll, a command or a follow-up does not crash the endpoint, and
a frame is accepted as long as the socket listens. -/
structure Safe (m : Machine Vegas) (l : Label) (m' : Machine Vegas) : Prop
    extends Fits m l m' where
  no_panic : ∀ t, l.tick? = some t → l ≠ .begin t → ∀ message, m'.phase ≠ .failed (.panic message)
  accepted : ∀ t f a, l = .frame t f a → t.senderOpen = true → ∀ err, m'.phase ≠ .failed err

section Sample

/-- A PUSH frame without data arrives under a number. -/
def flood (q : ℕ) : Label := .frame (tick 0) (.newPush 1 q 0 256 0 []) 80

theorem fits_flood {q : ℕ} (h : q < u32Size) : (Frame.newPush 1 q 0 256 0 []).Fits where
  connectionId := show 1 < u32Size by decide
  payloadLength := show 0 < u16Size by decide
  recvWindowSize := show 256 < u16Size by decide
  timestamp := show 0 < u32Size by decide
  sequenceNumber := h
  recvNextSequence := show 0 < u32Size by decide

/-- A server, not established yet, after as many PUSH frames. -/
structure Flooded (k : ℕ) (m : Machine Vegas) : Prop where
  run : ((vegasSystem {}).restrict fun m l _ => m.Moderate l).Run
    (.begin (tick 0) :: (List.range k).map flood) m
  phase : m.phase = .waiting ∨ m.phase = .frames
  state : m.endpoint.state = .synReceived
  numbered : m.endpoint.history.numbered = []
  next_eq : m.endpoint.reliability.recvBuffer.nextSequence = 0
  finReached_eq : m.endpoint.reliability.recvBuffer.finReached = false
  ahead : ∀ q, k ≤ q → m.endpoint.reliability.recvBuffer.received[q]? = none
  count_eq : m.endpoint.reliability.ackElicitingPacketsSinceLastAck = k

theorem Flooded.accepts {k : ℕ} (h : Flooded k m) :
    m.endpoint.reliability.recvBuffer.accepts k = true := by
  rw [ReceiveBuffer.accepts_iff, h.next_eq]
  exact ⟨h.finReached_eq, Nat.zero_le k, h.ahead k le_rfl⟩

theorem Flooded.moderate {k : ℕ} (h : Flooded k m) (hk : k + 1 < u16Size) :
    m.Moderate (flood k) := by
  have hsize : u16Size < u32Size := by decide
  refine ⟨fits_flood (by omega), fun _ _ _ _ _ => ?_⟩
  rw [h.count_eq]
  exact hk

/-- One more PUSH is counted and not acknowledged. -/
theorem Flooded.next {k : ℕ} (h : Flooded k m) :
    ∃ m', m.next (flood k) = some m' ∧ m'.endpoint.history.numbered = [] ∧
      (k + 1 < u16Size → Flooded (k + 1) m') := by
  have hroute := routeFrame_push_of_synReceived (t := tick 0) (a := 80)
    ⟨.push, 1, 0, 256, 0, k, 0⟩ [] h.state
  have hnext : m.next (flood k) = some (settle .frames (handlePushInSynReceived
      { m.endpoint with timing := m.endpoint.timing.onPacketReceived (tick 0).now }
        ⟨.push, 1, 0, 256, 0, k, 0⟩ [])) := by
    rw [flood, Machine.next, if_pos h.phase]
    exact congrArg (fun x => some (settle .frames x)) hroute
  unfold handlePushInSynReceived ReliabilityLayer.receivePush at hnext
  rw [ReliabilityLayer.receive_eq_of_accepts (by exact h.accepts)] at hnext
  refine ⟨_, hnext, h.numbered, fun hk => ?_⟩
  constructor
  · have hrun := h.run.step ⟨hnext, h.moderate hk⟩
    rw [List.range_succ, List.map_append]
    exact hrun
  · exact Or.inr rfl
  · exact h.state
  · exact h.numbered
  · exact h.next_eq
  · exact h.finReached_eq
  · intro q hq
    change (m.endpoint.reliability.recvBuffer.received.insert k (.push []))[q]? = none
    rw [SortedMap.getElem?_insert, if_neg (by omega)]
    exact h.ahead q (by omega)
  · change (m.endpoint.reliability.ackElicitingPacketsSinceLastAck + 1) % u16Size = k + 1
    rw [h.count_eq, Nat.mod_eq_of_lt hk]

end Sample

end Machine

end Kestrel
