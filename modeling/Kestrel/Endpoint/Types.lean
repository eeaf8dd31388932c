import Kestrel.Reliability.Layer
import Kestrel.Endpoint.State
import Kestrel.Endpoint.Timing

/-! # Endpoints

One end of a connection: its identity, timers, reliability layer and lifecycle state, with a
record of everything it has put on its channels.
-/

namespace Kestrel

inductive Error where
  | channelClosed
  | connectionClosed
  | connectionTimeout
  | pathValidationTimeout
  | invalidPacket
  | panic (message : String)
  deriving DecidableEq, Repr

/-- The frames of one datagram. -/
structure FrameBatch where
  remoteAddr : SocketAddr
  frames : List Frame
  deriving DecidableEq, Repr

inductive SocketActorCommand where
  | updateAddr (cid : ℕ) (newAddr : SocketAddr)
  deriving DecidableEq, Repr

inductive StreamCommand where
  | sendData (data : Bytes)
  | close
  | migrate (newAddr : SocketAddr) (notifier : Notifier)
  deriving DecidableEq, Repr

/-- What the surroundings provide while an endpoint handles one event: the time, the time the
timer task has reached, a random number, and whether the socket and the user's stream still
listen. -/
structure Tick where
  now : Instant
  wheelTime : Instant
  challenge : ℕ
  senderOpen : Bool
  streamOpen : Bool
  deriving DecidableEq, Repr

/-- What a number of the counter was given to. A FIN is kept with the bytes written before it
and those of them that were still waiting in the send buffer. -/
inductive Numbered where
  | push (payload : Bytes)
  | fin (written waiting : Bytes)
  | pathChallenge (challengeData : ℕ)
  deriving DecidableEq, Repr

/-- What has happened so far: the numbers given out, the bytes the send buffer took and the
acknowledgments processed. No operation reads it. -/
structure History where
  numbered : List Numbered
  written : Bytes
  acks : List (ℕ × List SackRange)
  deriving DecidableEq, Repr

/-- The fields from `sent` on record what was put on the channels; `txToStream` says whether the
channel to the user's stream is still held. -/
structure Endpoint (C : Type) where
  localCid : ℕ
  peerCid : ℕ
  remoteAddr : SocketAddr
  timing : TimingManager
  reliability : ReliabilityLayer C
  peerRecvWindow : ℕ
  state : ConnectionState
  config : Config
  txToStream : Bool
  sent : List FrameBatch
  toStream : List (List Bytes)
  socketCommands : List SocketActorCommand
  notified : List (Notifier × Except Error Unit)
  history : History

/-- The outcome of an operation; a failure keeps the endpoint as the operation left it. -/
abbrev Outcome (C : Type) := Except (Error × Endpoint C)

/-- The endpoint that an operation leaves behind, whether it failed or not. -/
def Outcome.last {C : Type} : Outcome C (Endpoint C) → Endpoint C
  | .ok e => e
  | .error (_, e) => e

namespace Endpoint

variable {C : Type} (e : Endpoint C)

def framesSent : List Frame := e.sent.flatMap (·.frames)

/-- The context for rebuilding frames in the current state. -/
def createRetransmissionContext : RetransmissionContext :=
  { startTime := e.timing.startTime
    currentPeerCid := e.peerCid
    protocolVersion := e.config.protocolVersion
    localCid := e.localCid
    recvNextSequence := e.reliability.getAckInfo.2.1
    recvWindowSize := e.reliability.getAckInfo.2.2 }

/-- Changes the state if the change is legal. A copy of the old state is asked for a notifier
to tell that its path validation was interrupted. -/
def transitionTo (newState : ConnectionState) : Outcome C (Endpoint C) :=
  let interrupted : Error := match newState with
    | .closing | .closed => .connectionClosed
    | _ => .pathValidationTimeout
  let e := match e.state.clone with
    | .validatingPath _ _ (some n) =>
      if newState.isValidatingPath then e
      else { e with notified := e.notified ++ [(n, Except.error interrupted)] }
    | _ => e
  if e.state.isValidTransition newState then .ok { e with state := newState }
  else .error (.invalidPacket, e)

/-- Changes the state if that is legal and goes on otherwise. -/
def tryTransition (newState : ConnectionState) : Endpoint C :=
  match e.transitionTo newState with
  | .ok e => e
  | .error (_, e) => e

def beginGracefulShutdown : Endpoint C := { e with state := e.state.gracefulShutdown }

def startPathValidation (newAddr : SocketAddr) (challengeData : ℕ) (notifier : Notifier) :
    Outcome C (Endpoint C) :=
  if e.state = .established then
    e.transitionTo (.validatingPath newAddr challengeData (some notifier))
  else .error (.invalidPacket, e)

/-- Path validation ends in the established state, whether it succeeded or not. -/
def completePathValidation : Outcome C (Endpoint C) :=
  if e.state.isValidatingPath then e.transitionTo .established else .error (.invalidPacket, e)

/-- Writes the user's data into the send buffer; what does not fit is lost. -/
def writeToStream (data : Bytes) : Endpoint C :=
  let (n, reliability) := e.reliability.writeToStream data
  { e with
    reliability
    history := { e.history with written := e.history.written ++ data.take n } }

/-- A new endpoint in a state, before it has registered timers. -/
def newIn (state : ConnectionState) (config : Config) (remoteAddr : SocketAddr)
    (localCid peerCid : ℕ) (cc : C) (now : Instant) : Endpoint C :=
  { localCid, peerCid, remoteAddr
    timing := .new now
    reliability := .new config cc
    peerRecvWindow := 32
    state, config
    txToStream := true
    sent := [], toStream := [], socketCommands := [], notified := []
    history := ⟨[], [], []⟩ }

def newClient (config : Config) (remoteAddr : SocketAddr) (localCid : ℕ) (cc : C)
    (initialData : Option Bytes) (t : Tick) : Endpoint C :=
  let e := newIn .connecting config remoteAddr localCid 0 cc t.now
  let e := match initialData with
    | some data => e.writeToStream data
    | none => e
  { e with
    timing := (e.timing.registerTimer .idleTimeout config.connection.idleTimeout
      t.wheelTime).registerTimer .connectionTimeout (Duration.fromSecs 30) t.wheelTime }

def newServer (config : Config) (remoteAddr : SocketAddr) (localCid peerCid : ℕ) (cc : C)
    (t : Tick) : Endpoint C :=
  let e := newIn .synReceived config remoteAddr localCid peerCid cc t.now
  { e with
    timing := e.timing.registerTimer .idleTimeout config.connection.idleTimeout t.wheelTime }

variable {e}

/-- The copy never holds a notifier, so a change of state notifies nobody. -/
theorem transitionTo_eq (s : ConnectionState) :
    e.transitionTo s =
      if e.state.isValidTransition s then .ok { e with state := s }
      else .error (.invalidPacket, e) := by
  unfold transitionTo
  cases h : e.state <;> simp only [ConnectionState.clone, h]

theorem tryTransition_eq (s : ConnectionState) :
    e.tryTransition s =
      if e.state.isValidTransition s then { e with state := s } else e := by
  rw [tryTransition, transitionTo_eq]
  by_cases h : e.state.isValidTransition s = true
  · rw [if_pos h, if_pos h]
  · rw [if_neg h, if_neg h]

theorem startPathValidation_eq (a : SocketAddr) (c : ℕ) (n : Notifier) :
    e.startPathValidation a c n =
      if e.state = .established then .ok { e with state := .validatingPath a c (some n) }
      else .error (.invalidPacket, e) := by
  unfold startPathValidation
  split
  · rename_i h
    rw [transitionTo_eq, h]
    rfl
  · rfl

theorem completePathValidation_eq :
    e.completePathValidation =
      if e.state.isValidatingPath then .ok { e with state := .established }
      else .error (.invalidPacket, e) := by
  unfold completePathValidation
  split
  · rename_i h
    cases hs : e.state with
    | validatingPath a c n =>
      rw [transitionTo_eq, hs]
      rfl
    | _ =>
      rw [hs] at h
      cases h
  · rfl

end Endpoint

end Kestrel
