import Kestrel.Packet.Sack

/-! # Frames

The frames a connection exchanges, with their headers, their smart constructors and the
facts that retransmission needs about them.
-/

namespace Kestrel

inductive Command where
  | syn
  | synAck
  | fin
  | push
  | ack
  | ping
  | pathChallenge
  | pathResponse
  deriving DecidableEq, Repr

structure ShortHeader where
  command : Command
  connectionId : ℕ
  payloadLength : ℕ
  recvWindowSize : ℕ
  timestamp : ℕ
  sequenceNumber : ℕ
  recvNextSequence : ℕ
  deriving DecidableEq, Repr

/-- The size of the short header on the wire, without the command byte. -/
def ShortHeader.encodedSize : ℕ := 4 + 2 + 2 + 4 + 4 + 4

structure LongHeader where
  command : Command
  protocolVersion : ℕ
  destinationCid : ℕ
  sourceCid : ℕ
  deriving DecidableEq, Repr

/-- The size of the long header on the wire, without the command byte. -/
def LongHeader.encodedSize : ℕ := 1 + 4 + 4

/-- The frame kinds that can be rebuilt for retransmission. -/
inductive FrameType where
  | push
  | syn
  | synAck
  | fin
  | pathChallenge
  | pathResponse
  deriving DecidableEq, Repr

/-- What a retransmission needs to know to rebuild a frame with a fresh header. -/
structure RetransmissionContext where
  startTime : Instant
  currentPeerCid : ℕ
  protocolVersion : ℕ
  localCid : ℕ
  recvNextSequence : ℕ
  recvWindowSize : ℕ
  deriving DecidableEq, Repr

/-- Milliseconds since the start of the connection, as a 32-bit number. -/
def timestampSince (startTime now : Instant) : ℕ := Duration.asMillis (now - startTime) % u32Size

def RetransmissionContext.currentTimestamp (c : RetransmissionContext) (now : Instant) : ℕ :=
  timestampSince c.startTime now

inductive ReliabilityMode where
  | reliable
  | simpleRetransmit (maxRetries : ℕ) (retryInterval : Duration)
  | bestEffort
  deriving DecidableEq, Repr

inductive Frame where
  | push (header : ShortHeader) (payload : Bytes)
  | ack (header : ShortHeader) (payload : Bytes)
  | ping (header : ShortHeader)
  | syn (header : LongHeader)
  | synAck (header : LongHeader)
  | fin (header : ShortHeader)
  | pathChallenge (header : ShortHeader) (challengeData : ℕ)
  | pathResponse (header : ShortHeader) (challengeData : ℕ)
  deriving DecidableEq, Repr

namespace Frame

def newPush (peerCid sequenceNumber recvNextSequence recvWindowSize timestamp : ℕ)
    (payload : Bytes) : Frame :=
  .push
    { command := .push, connectionId := peerCid, payloadLength := payload.length % u16Size,
      recvWindowSize, timestamp, sequenceNumber, recvNextSequence } payload

/-- ACK frames carry the sequence number 0: they have none of their own. -/
def newAck (peerCid recvNextSequence recvWindowSize : ℕ) (sackRanges : List SackRange)
    (timestamp : ℕ) : Frame :=
  let payload := encodeSackRanges sackRanges
  .ack
    { command := .ack, connectionId := peerCid, payloadLength := payload.length % u16Size,
      recvWindowSize, timestamp, sequenceNumber := 0, recvNextSequence } payload

def newFin (peerCid sequenceNumber timestamp recvNextSequence recvWindowSize : ℕ) : Frame :=
  .fin
    { command := .fin, connectionId := peerCid, payloadLength := 0,
      recvWindowSize, timestamp, sequenceNumber, recvNextSequence }

def newSyn (protocolVersion sourceCid destinationCid : ℕ) : Frame :=
  .syn { command := .syn, protocolVersion, destinationCid, sourceCid }

def newSynAck (protocolVersion sourceCid destinationCid : ℕ) : Frame :=
  .synAck { command := .synAck, protocolVersion, destinationCid, sourceCid }

def newPathChallenge (peerCid sequenceNumber timestamp challengeData : ℕ) : Frame :=
  .pathChallenge
    { command := .pathChallenge, connectionId := peerCid, payloadLength := 8,
      recvWindowSize := 0, timestamp, sequenceNumber, recvNextSequence := 0 } challengeData

def newPathResponse (peerCid sequenceNumber timestamp challengeData : ℕ) : Frame :=
  .pathResponse
    { command := .pathResponse, connectionId := peerCid, payloadLength := 8,
      recvWindowSize := 0, timestamp, sequenceNumber, recvNextSequence := 0 } challengeData

def sequenceNumber : Frame → Option ℕ
  | .push h _ | .ack h _ | .ping h | .fin h | .pathChallenge h _ | .pathResponse h _ =>
    some h.sequenceNumber
  | .syn _ | .synAck _ => none

def destinationCid : Frame → ℕ
  | .syn h | .synAck h => h.destinationCid
  | .push h _ | .ack h _ | .ping h | .fin h | .pathChallenge h _ | .pathResponse h _ =>
    h.connectionId

/-- The retransmission strategy with the built-in parameters. -/
def reliabilityMode : Frame → ReliabilityMode
  | .push .. => .reliable
  | .syn _ | .synAck _ | .fin _ => .simpleRetransmit 5 (Duration.fromMillis 500)
  | .ack .. | .ping _ => .bestEffort
  | .pathChallenge .. | .pathResponse .. => .simpleRetransmit 3 (Duration.fromMillis 100)

/-- The retransmission strategy under a configuration. -/
def reliabilityModeWithConfig (config : Config) (f : Frame) : ReliabilityMode :=
  if !config.reliability.enableLayeredRetransmission then
    match f with
    | .ack .. | .ping _ => .bestEffort
    | _ => .reliable
  else
    match f with
    | .push .. => .reliable
    | .syn _ | .synAck _ | .fin _ =>
      .simpleRetransmit config.reliability.controlFrameMaxRetries
        config.reliability.controlFrameRetryInterval
    | .ack .. | .ping _ => .bestEffort
    | .pathChallenge .. | .pathResponse .. => .simpleRetransmit 3 (Duration.fromMillis 100)

def encodedSize (f : Frame) : ℕ :=
  let commandSize := 1
  let headerSize := match f with
    | .syn _ | .synAck _ => LongHeader.encodedSize
    | _ => ShortHeader.encodedSize
  let payloadSize := match f with
    | .push _ payload | .ack _ payload => payload.length
    | .pathChallenge .. | .pathResponse .. => 8
    | _ => 0
  commandSize + headerSize + payloadSize

/-- The kind under which the frame is kept for retransmission; ACK and PING are never kept. -/
def frameType : Frame → Option FrameType
  | .push .. => some .push
  | .syn _ => some .syn
  | .synAck _ => some .synAck
  | .fin _ => some .fin
  | .pathChallenge .. => some .pathChallenge
  | .pathResponse .. => some .pathResponse
  | .ack .. | .ping _ => none

@[simp] theorem reliabilityModeWithConfig_push (config : Config) (h : ShortHeader) (p : Bytes) :
    (Frame.push h p).reliabilityModeWithConfig config = .reliable := by
  unfold reliabilityModeWithConfig
  split <;> rfl

/-- The sequence number and payload of a PUSH frame. -/
def pushData : Frame → Option (ℕ × Bytes)
  | .push h payload => some (h.sequenceNumber, payload)
  | _ => none

@[simp] theorem pushData_newPush (c q n w t : ℕ) (p : Bytes) :
    (newPush c q n w t p).pushData = some (q, p) := rfl

end Frame

end Kestrel
