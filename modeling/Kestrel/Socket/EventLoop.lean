import Kestrel.Config
import Kestrel.Socket.Isolation

/-! # The socket's event loop

The loop takes commands and datagrams. A datagram that begins with a SYN asks for a new connection;
the frames of any other are dispatched one by one. Endpoints run as tasks of their own and can stop
at any time.
-/

namespace Kestrel

structure Datagram where
  frames : List Frame
  remoteAddr : SocketAddr
  deriving DecidableEq, Repr

/-- The task of an endpoint. It takes frames from its channel as long as it is running; `zeroRtt`
was put there before it was started. -/
structure EndpointTask where
  sender : ℕ
  localCid : ℕ
  peerCid : ℕ
  remoteAddr : SocketAddr
  zeroRtt : List Frame
  running : Bool
  deriving DecidableEq, Repr

/-- How the creation of a connection goes: the free CID that was found, whether an endpoint can be
created, whether the listener takes the stream, and what the router needs to know. -/
structure Creation where
  localCid : ℕ
  created : Bool
  accepted : Bool
  order : List SocketAddr
  removalOrder : List SocketAddr
  now : Instant
  sends : ℕ
  deriving DecidableEq, Repr

/-- The loop with its session coordinator. All endpoints that were created are kept, and the frames
of the datagram in hand that are still to be dispatched. -/
structure SocketEventLoop where
  config : Config
  frameRouter : FrameRouter
  endpoints : List EndpointTask
  accepted : List ℕ
  datagram : Datagram

inductive SocketEvent where
  | connect (c : Creation) (remoteAddr : SocketAddr)
  | updateAddr (order : List SocketAddr) (cid : ℕ) (newAddr : SocketAddr)
  | removeConnection (order : List SocketAddr) (now : Instant) (cid : ℕ)
  | recvFrames (datagram : Datagram) (c : Creation)
  | dispatch (order : List SocketAddr) (now : Instant)
  | cleanup (now : Instant)
  | stop (sender : ℕ)
  deriving DecidableEq, Repr

namespace SocketEventLoop

variable (s : SocketEventLoop)

def new (config : Config) (frameRouter : FrameRouter) : SocketEventLoop :=
  ⟨config, frameRouter, [], [], ⟨[], 0⟩⟩

def channelCapacity : ℕ := 128

/-- A candidate that no connection has and that is not draining. -/
def uniqueConnectionId (cid : ℕ) : Bool :=
  !s.frameRouter.connectionExists cid && !s.frameRouter.isDraining cid

def validateProtocolVersion (clientVersion : ℕ) : Bool :=
  clientVersion = s.config.protocolVersion

/-- The PUSH frames that came with the SYN, as many as fit into the channel. -/
def handleZeroRttFrames (frames : List Frame) : List Frame :=
  (frames.filter fun f => f.pushData.isSome).take channelCapacity

def createEndpoint (localCid peerCid : ℕ) (remoteAddr : SocketAddr) (zeroRtt : List Frame) :
    EndpointTask :=
  ⟨s.endpoints.length, localCid, peerCid, remoteAddr, zeroRtt, true⟩

variable (addrHash : SocketAddr → ℕ)

/-- The endpoint's task is started, then the connection is registered. -/
def startEndpoint (c : Creation) (e : EndpointTask) : Option SocketEventLoop :=
  (s.frameRouter.next addrHash
    (.register c.order c.now c.sends e.localCid e.remoteAddr ⟨e.sender⟩)).map fun frameRouter =>
      { s with frameRouter, endpoints := s.endpoints ++ [e] }

/-- The stream goes to the listener; if that fails, the connection is forgotten again. -/
def sendConnectionToUser (c : Creation) : Option SocketEventLoop :=
  if c.accepted then some { s with accepted := s.accepted ++ [c.localCid] }
  else (s.frameRouter.next addrHash (.remove c.removalOrder c.now c.localCid)).map
    fun frameRouter => { s with frameRouter }

def handleNewConnection (c : Creation) (frames : List Frame) (remoteAddr : SocketAddr) :
    Option SocketEventLoop :=
  match frames with
  | .syn header :: frames =>
    if s.validateProtocolVersion header.protocolVersion then
      if s.uniqueConnectionId c.localCid then
        if c.created then
          let e := s.createEndpoint c.localCid header.sourceCid remoteAddr
            (handleZeroRttFrames frames)
          (s.startEndpoint addrHash c e).bind fun s => s.sendConnectionToUser addrHash c
        else some s
      else none
    else some s
  | _ => some s

/-- A client does not know the CID of its peer yet. -/
def createClientConnection (c : Creation) (remoteAddr : SocketAddr) : Option SocketEventLoop :=
  if s.uniqueConnectionId c.localCid then
    if c.created then s.startEndpoint addrHash c (s.createEndpoint c.localCid 0 remoteAddr [])
    else some s
  else none

/-- The channel of the connection that the frame is for is still open. -/
def isOpen (frame : Frame) : Bool :=
  match s.frameRouter.lookup frame s.datagram.remoteAddr with
  | some (_, m) => s.endpoints.any fun e => e.sender = m.sender && e.running
  | none => false

/-- The next frame of the datagram goes where the router sends it. -/
def dispatchFrame (order : List SocketAddr) (now : Instant) : Option SocketEventLoop :=
  match s.datagram.frames with
  | frame :: frames =>
    (s.frameRouter.next addrHash
      (.dispatch order now (s.isOpen frame) frame s.datagram.remoteAddr)).map fun frameRouter =>
        { s with frameRouter, datagram := { s.datagram with frames } }
  | [] => none

def startsWithSyn : List Frame → Bool
  | .syn _ :: _ => true
  | _ => false

/-- One branch of the loop, or an endpoint that stops. Nothing else of the loop happens while a
datagram is being dispatched. -/
def next : SocketEvent → Option SocketEventLoop
  | .stop sender =>
    some { s with
      endpoints := s.endpoints.map fun e =>
        if e.sender = sender then { e with running := false } else e }
  | .dispatch order now => s.dispatchFrame addrHash order now
  | .connect c remoteAddr =>
    if s.datagram.frames = [] then s.createClientConnection addrHash c remoteAddr else none
  | .updateAddr order cid newAddr =>
    if s.datagram.frames = [] then
      (s.frameRouter.next addrHash (.updateAddr order cid newAddr)).map
        fun frameRouter => { s with frameRouter }
    else none
  | .removeConnection order now cid =>
    if s.datagram.frames = [] then
      (s.frameRouter.next addrHash (.remove order now cid)).map
        fun frameRouter => { s with frameRouter }
    else none
  | .recvFrames datagram c =>
    if s.datagram.frames = [] then
      if startsWithSyn datagram.frames then
        s.handleNewConnection addrHash c datagram.frames datagram.remoteAddr
      else some { s with datagram }
    else none
  | .cleanup now =>
    if s.datagram.frames = [] then
      some { s with
        frameRouter := (s.frameRouter.cleanupDrainingPool now).cleanupExpiredFrames now
          (Duration.fromSecs 5) }
    else none

def system : TransitionSystem SocketEventLoop SocketEvent :=
  .ofNext (fun s => ∃ config timeout, s = new config (.new (.new timeout)))
    fun s ev => s.next addrHash ev

end SocketEventLoop

end Kestrel
