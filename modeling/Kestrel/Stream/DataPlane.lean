import Kestrel.Reliability.Layer
import Kestrel.Lib.Fifo

/-! # The data plane

One layer sends and one receives. The PUSH and ACK frames put on the network stay there: every
delivery picks any of them, so frames are lost, duplicated and reordered at will.
-/

namespace Kestrel

/-- The two layers, the frames ever sent, the bytes that `writeToStream` accepted and the
payloads that `reassemble` returned. -/
structure DataPlane (S R : Type) where
  sender : ReliabilityLayer S
  receiver : ReliabilityLayer R
  pushes : List Frame
  acks : List Frame
  accepted : Bytes
  delivered : Bytes

namespace DataPlane

inductive Event where
  | write (buf : Bytes)
  | packetize (peerCid window : ℕ) (now start : Instant)
  | receivePush (frame : Frame)
  | reassemble
  | sendAck (peerCid timestamp : ℕ)
  | handleAck (frame : Frame) (now : Instant) (context : RetransmissionContext)
  | timeout (now : Instant) (context : RetransmissionContext)

variable {S R : Type} [CongestionControl S]

/-- The ACK frame for the current state of a receiver. -/
def ackFrame (l : ReliabilityLayer R) (peerCid timestamp : ℕ) : Frame :=
  .newAck peerCid l.getAckInfo.2.1 l.getAckInfo.2.2 l.getAckInfo.1 timestamp

inductive Step : DataPlane S R → Event → DataPlane S R → Prop where
  | write (w : DataPlane S R) (buf : Bytes) :
    Step w (.write buf)
      { w with
        sender := (w.sender.writeToStream buf).2
        accepted := w.accepted ++ buf.take (w.sender.writeToStream buf).1 }
  | packetize (w : DataPlane S R) (peerCid window : ℕ) (now start : Instant) :
    Step w (.packetize peerCid window now start)
      { w with
        sender := (w.sender.packetizeStreamData peerCid window now start none).2
        pushes := w.pushes ++ (w.sender.packetizeStreamData peerCid window now start none).1 }
  | receivePush (w : DataPlane S R) (header : ShortHeader) (payload : Bytes)
      (h : Frame.push header payload ∈ w.pushes) :
    Step w (.receivePush (.push header payload))
      { w with receiver := (w.receiver.receivePush header.sequenceNumber payload).2 }
  | reassemble (w : DataPlane S R) :
    Step w .reassemble
      { w with
        receiver := w.receiver.reassemble.2.2
        delivered := w.delivered ++ (w.receiver.reassemble.1.getD []).flatten }
  | sendAck (w : DataPlane S R) (peerCid timestamp : ℕ) :
    Step w (.sendAck peerCid timestamp)
      { w with
        receiver := w.receiver.onAckSent
        acks := w.acks ++ [ackFrame w.receiver peerCid timestamp] }
  | handleAck (w : DataPlane S R) (header : ShortHeader) (payload : Bytes)
      (h : Frame.ack header payload ∈ w.acks) (now : Instant) (c : RetransmissionContext) :
    Step w (.handleAck (.ack header payload) now c)
      { w with
        sender := (w.sender.handleAck header.recvNextSequence (decodeSackRanges payload) now c).2
        pushes := w.pushes ++
          (w.sender.handleAck header.recvNextSequence (decodeSackRanges payload) now c).1 }
  | timeout (w : DataPlane S R) (now : Instant) (c : RetransmissionContext) :
    Step w (.timeout now c)
      { w with
        sender := (w.sender.checkRetransmissions now c).2
        pushes := w.pushes ++ (w.sender.checkRetransmissions now c).1 }

/-- Two new layers and an empty network. -/
def start (sendConfig recvConfig : Config) (s : S) (r : R) : DataPlane S R :=
  { sender := .new sendConfig s, receiver := .new recvConfig r
    pushes := [], acks := [], accepted := [], delivered := [] }

/-- The data plane of a sender and a receiver under two configurations. -/
def system (sendConfig recvConfig : Config) (s : S) (r : R) :
    TransitionSystem (DataPlane S R) Event where
  init w := w = start sendConfig recvConfig s r
  step := Step

def packets (w : DataPlane S R) : ℕ := w.sender.packetized.length

end DataPlane

end Kestrel
