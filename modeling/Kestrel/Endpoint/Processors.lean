import Kestrel.Endpoint.Sender

/-! # Frame processors

What an endpoint does with one frame from the network, by the kind of the frame and the state of
the connection.
-/

namespace Kestrel.Endpoint

variable {C : Type} (t : Tick) (e : Endpoint C)

/-- A frame from another address starts the validation of that path, if the connection is
established. -/
def checkPathMigration (srcAddr : SocketAddr) : Outcome C (Endpoint C) :=
  if srcAddr ≠ e.remoteAddr ∧ e.state = .established then do
    let e ← e.startPathValidation srcAddr t.challenge .detached
    let e := { e with
      timing := e.timing.registerTimer .pathValidationTimeout (Duration.fromSecs 30)
        t.wheelTime }
    let (seq, e) := e.numberChallenge t.challenge
    e.sendFrameTo t (e.createPathChallengeFrame t seq t.challenge) srcAddr
  else .ok e

def receiveDataAndMaybeAck (seq : ℕ) (payload : Bytes) : Outcome C (Endpoint C) :=
  match e.reliability.receivePush seq payload with
  | (true, reliability) => sendStandaloneAck t { e with reliability }
  | (false, reliability) => .ok { e with reliability }

/-- Data sent along with a SYN is not acknowledged yet. -/
def handlePushInSynReceived (header : ShortHeader) (payload : Bytes) : Outcome C (Endpoint C) :=
  .ok { e with reliability := (e.reliability.receivePush header.sequenceNumber payload).2 }

def handlePushFrame (header : ShortHeader) (payload : Bytes) : Outcome C (Endpoint C) :=
  match e.state with
  | .synReceived => e.handlePushInSynReceived header payload
  | .established | .validatingPath .. | .finWait | .closing | .closingWait =>
    e.receiveDataAndMaybeAck t header.sequenceNumber payload
  | .connecting | .closed => .ok e

/-- Sends the SYN-ACK again if it has been sent before. -/
def handleSynFrame : Outcome C (Endpoint C) :=
  match e.state with
  | .synReceived => if !e.reliability.isSendBufferEmpty then e.sendSynAck t else .ok e
  | _ => .ok e

def receiveFinAndAck (seq : ℕ) : Outcome C (Bool × Endpoint C) :=
  match e.reliability.receiveFin seq with
  | (true, reliability) => do
    let e ← sendStandaloneAck t { e with reliability }
    return (true, e)
  | (false, reliability) => .ok (false, { e with reliability })

/-- Receives a FIN and goes on in some way if it was new. -/
def receiveFinThen (seq : ℕ) (next : Endpoint C → Endpoint C) : Outcome C (Endpoint C) := do
  let (finReceived, e) ← e.receiveFinAndAck t seq
  return if finReceived then next e else e

def handleFinInSynReceived (header : ShortHeader) : Outcome C (Endpoint C) :=
  e.receiveFinThen t header.sequenceNumber (·.tryTransition .finWait)

/-- The state changes later, when reassembly reaches the FIN. -/
def handleFinInEstablished (header : ShortHeader) : Outcome C (Endpoint C) :=
  e.receiveFinThen t header.sequenceNumber id

def handleFinInValidatingPath (header : ShortHeader) : Outcome C (Endpoint C) :=
  e.receiveFinThen t header.sequenceNumber (·.tryTransition .finWait)

def handleFinInFinWait (header : ShortHeader) : Outcome C (Endpoint C) :=
  e.receiveFinThen t header.sequenceNumber id

def handleFinInClosing (header : ShortHeader) : Outcome C (Endpoint C) :=
  e.receiveFinThen t header.sequenceNumber fun e =>
    if e.state = .closing then e.tryTransition .closingWait else e

def handleFinFrame (header : ShortHeader) : Outcome C (Endpoint C) :=
  match e.state with
  | .synReceived => e.handleFinInSynReceived t header
  | .established => e.handleFinInEstablished t header
  | .validatingPath .. => e.handleFinInValidatingPath t header
  | .finWait => e.handleFinInFinWait t header
  | .closing => e.handleFinInClosing t header
  | .connecting | .closingWait | .closed => .ok e

def sendPathResponse (echoSeq challengeData : ℕ) (targetAddr : SocketAddr) :
    Outcome C (Endpoint C) :=
  e.sendFrameTo t (e.createPathResponseFrame t echoSeq challengeData) targetAddr

def handlePathChallengeFrame (header : ShortHeader) (challengeData : ℕ) (srcAddr : SocketAddr) :
    Outcome C (Endpoint C) :=
  match e.state with
  | .closed => .ok e
  | _ => e.sendPathResponse t header.sequenceNumber challengeData srcAddr

/-- The response to the challenge, from the new address, moves the connection there. -/
def handlePathResponseFrame (challengeData : ℕ) (srcAddr : SocketAddr) :
    Outcome C (Endpoint C) :=
  match e.state.clone with
  | .validatingPath newAddr expectedChallenge notifier =>
    if srcAddr = newAddr ∧ challengeData = expectedChallenge then do
      let e ← e.completePathValidation
      let e := { e with
        remoteAddr := newAddr
        notified := e.notified ++ notifier.toList.map fun n => (n, Except.ok ()) }
      return { e with
        socketCommands := e.socketCommands ++ [.updateAddr e.localCid newAddr] }
    else .ok e
  | _ => .ok e

variable [CongestionControl C]

/-- Takes the peer's window and acknowledgments and sends the frames that were skipped. -/
def processAckCommon (header : ShortHeader) (payload : Bytes) : Outcome C (Endpoint C) :=
  let e := { e with peerRecvWindow := header.recvWindowSize }
  let sackRanges := decodeSackRanges payload
  let (framesToRetx, reliability) := e.reliability.handleAck header.recvNextSequence sackRanges
    t.now e.createRetransmissionContext
  let e := { e with
    reliability
    history := { e.history with
      acks := e.history.acks ++ [(header.recvNextSequence, sackRanges)] } }
  e.sendFrames t framesToRetx

def handleAckFrame (header : ShortHeader) (payload : Bytes) : Outcome C (Endpoint C) :=
  match e.state with
  | .synReceived | .established | .validatingPath .. | .finWait | .closing | .closingWait =>
    e.processAckCommon t header payload
  | .connecting | .closed => .ok e

/-- The SYN-ACK establishes the connection; it is answered with the data written so far. -/
def handleSynAckFrame (header : LongHeader) : Outcome C (Endpoint C) :=
  match e.state with
  | .connecting => do
    let e := { e with timing := e.timing.cancelTimer .connectionTimeout }
    let e ← e.transitionTo .established
    let e := { e with peerCid := header.sourceCid }
    if !e.reliability.isSendBufferEmpty then e.packetizeAndSend t else e.sendStandaloneAck t
  | _ => .ok e

def processFrame (frame : Frame) (srcAddr : SocketAddr) : Outcome C (Endpoint C) :=
  match frame with
  | .push header payload => e.handlePushFrame t header payload
  | .ack header payload => e.handleAckFrame t header payload
  | .syn _ => e.handleSynFrame t
  | .synAck header => e.handleSynAckFrame t header
  | .fin header => e.handleFinFrame t header
  | .pathChallenge header challengeData =>
    e.handlePathChallengeFrame t header challengeData srcAddr
  | .pathResponse _ challengeData => e.handlePathResponseFrame challengeData srcAddr
  | .ping _ => .ok e

/-- Routes one frame: the time of receipt, the path, and then the processor of its kind. -/
def routeFrame (frame : Frame) (srcAddr : SocketAddr) : Outcome C (Endpoint C) := do
  let e := { e with timing := e.timing.onPacketReceived t.now }
  let e ← e.checkPathMigration t srcAddr
  e.processFrame t frame srcAddr

end Kestrel.Endpoint
