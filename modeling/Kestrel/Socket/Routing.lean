import Kestrel.Endpoint.State
import Kestrel.Lib.SortedMap
import Kestrel.Lib.Transition
import Kestrel.Packet.Frame

/-! # Frame routing

The socket's tables: which connection has which local CID, which CID an address belongs to, which
CIDs are draining, and the frames that came early. A frame goes to the connection its CID names;
where there is none, to the connection that is registered for the address it came from.
-/

namespace Kestrel

open Std (ExtTreeMap)

/-- CIDs that must not be used again yet, with the time they were put here. -/
structure DrainingPool where
  cids : ExtTreeMap ℕ Instant
  timeout : Duration

namespace DrainingPool

variable (p : DrainingPool)

def new (timeout : Duration) : DrainingPool := ⟨∅, timeout⟩

def insert (cid : ℕ) (now : Instant) : DrainingPool := { p with cids := p.cids.insert cid now }

def contains (cid : ℕ) : Bool := p.cids.contains cid

def cleanup (now : Instant) : DrainingPool :=
  { p with cids := p.cids.filter fun _ start => now - start < p.timeout }

end DrainingPool

/-- The channel to a connection's endpoint, by an identifying number. -/
structure ConnectionMeta where
  sender : ℕ
  deriving DecidableEq, Repr

structure PendingFrame where
  frame : Frame
  remoteAddr : SocketAddr
  arrivalTime : Instant
  deriving DecidableEq, Repr

/-- A frame put on the channel of the connection with a CID. -/
structure Delivery where
  cid : ℕ
  sender : ℕ
  frame : Frame
  remoteAddr : SocketAddr
  deriving DecidableEq, Repr

inductive RoutingResult where
  | dispatched
  | connectionNotFound
  | connectionDraining
  | frameCached
  deriving DecidableEq, Repr

/-- The field `delivered` records what was put on the channels; no operation reads it. -/
structure FrameRouter where
  activeConnections : ExtTreeMap ℕ ConnectionMeta
  addressRouting : ExtTreeMap SocketAddr ℕ
  drainingPool : DrainingPool
  pendingFrames : ExtTreeMap ℕ (List PendingFrame)
  delivered : List Delivery

namespace FrameRouter

variable (r : FrameRouter)

def new (drainingPool : DrainingPool) : FrameRouter := ⟨∅, ∅, drainingPool, ∅, []⟩

/-- The first address that belongs to a CID, in the order in which the table is gone through. -/
def findAddress (order : List SocketAddr) (cid : ℕ) : Option SocketAddr :=
  order.find? fun a => r.addressRouting[a]? = some cid

/-- The table without the first address of a CID. -/
def forgetAddress (order : List SocketAddr) (cid : ℕ) : FrameRouter :=
  match r.findAddress order cid with
  | some addr => { r with addressRouting := r.addressRouting.erase addr }
  | none => r

/-- Removes a connection and puts its CID into the draining pool. -/
def removeConnectionByCid (order : List SocketAddr) (now : Instant) (cid : ℕ) : FrameRouter :=
  if r.activeConnections.contains cid then
    let r := { r with activeConnections := r.activeConnections.erase cid }
    let r := r.forgetAddress order cid
    { r with drainingPool := r.drainingPool.insert cid now }
  else r

/-- Gives a connection a new address. -/
def updateConnectionAddress (order : List SocketAddr) (cid : ℕ) (newAddr : SocketAddr) :
    FrameRouter :=
  let r := r.forgetAddress order cid
  { r with addressRouting := r.addressRouting.insert newAddr cid }

def connectionExists (cid : ℕ) : Bool := r.activeConnections.contains cid

def isDraining (cid : ℕ) : Bool := r.drainingPool.contains cid

def cleanupDrainingPool (now : Instant) : FrameRouter :=
  { r with drainingPool := r.drainingPool.cleanup now }

/-- Drops cached frames of some age, and the entries that become empty. -/
def cleanupExpiredFrames (now : Instant) (maxAge : Duration) : FrameRouter :=
  { r with
    pendingFrames := r.pendingFrames.filterMap fun _ frames =>
      let kept := frames.filter fun p => now - p.arrivalTime < maxAge
      if kept.isEmpty then none else some kept }

def deliver (cid : ℕ) (m : ConnectionMeta) (frame : Frame) (remoteAddr : SocketAddr) :
    FrameRouter :=
  { r with delivered := r.delivered ++ [⟨cid, m.sender, frame, remoteAddr⟩] }

/-- Sends a frame to a connection that was looked up, or removes it if its endpoint is gone. -/
def sendOrRemove (order : List SocketAddr) (now : Instant) (isOpen : Bool) (cid : ℕ)
    (m : ConnectionMeta) (frame : Frame) (remoteAddr : SocketAddr) : RoutingResult × FrameRouter :=
  if isOpen then (.dispatched, r.deliver cid m frame remoteAddr)
  else (.connectionNotFound, r.removeConnectionByCid order now cid)

/-- Frames that match the address are delivered as long as the endpoint takes them; the first that
it does not take ends the forwarding and the rest is dropped. Others are kept. -/
def forwardFrames (remoteAddr : SocketAddr) :
    ℕ → List PendingFrame → List PendingFrame × List PendingFrame × ℕ
  | sends, [] => ([], [], sends)
  | sends, p :: ps =>
    if p.remoteAddr = remoteAddr then
      match sends with
      | 0 => ([], [], 0)
      | sends + 1 =>
        let (forwarded, kept, sends) := forwardFrames remoteAddr sends ps
        (p :: forwarded, kept, sends)
    else
      let (forwarded, kept, sends) := forwardFrames remoteAddr sends ps
      (forwarded, p :: kept, sends)

/-- Forwards the frames cached under one key. -/
def forwardKey (cid : ℕ) (m : ConnectionMeta) (remoteAddr : SocketAddr) (sends key : ℕ) :
    ℕ × FrameRouter :=
  match r.pendingFrames[key]? with
  | some frames =>
    let (forwarded, kept, sends) := forwardFrames remoteAddr sends frames
    (sends,
      { r with
        pendingFrames :=
          if kept.isEmpty then r.pendingFrames.erase key else r.pendingFrames.insert key kept
        delivered := r.delivered ++
          forwarded.map fun p => ⟨cid, m.sender, p.frame, p.remoteAddr⟩ })
  | none => (sends, r)

variable (addrHash : SocketAddr → ℕ)

/-- Early frames are cached under their CID, those without one under the hash of their address, with
the highest of 64 bits set. -/
def getCacheKey (cid : ℕ) (remoteAddr : SocketAddr) : ℕ :=
  if cid ≠ 0 then cid else addrHash remoteAddr ||| 2 ^ 63

def cacheEarlyFrame (now : Instant) (cid : ℕ) (frame : Frame) (remoteAddr : SocketAddr) :
    FrameRouter :=
  let key := getCacheKey addrHash cid remoteAddr
  { r with
    pendingFrames := r.pendingFrames.insert key
      (r.pendingFrames[key]?.getD [] ++ [⟨frame, remoteAddr, now⟩]) }

/-- Forwards the frames cached for a connection: those under its CID and those under its address. -/
def forwardCachedFrames (sends cid : ℕ) (remoteAddr : SocketAddr) : FrameRouter :=
  match r.activeConnections[cid]? with
  | some m =>
    let (sends, r) := if cid ≠ 0 then r.forwardKey cid m remoteAddr sends cid else (sends, r)
    (r.forwardKey cid m remoteAddr sends (getCacheKey addrHash 0 remoteAddr)).2
  | none => r

/-- Registers a connection, in place of another one with the same address, and forwards what came
early for it. -/
def registerConnection (order : List SocketAddr) (now : Instant) (sends cid : ℕ)
    (remoteAddr : SocketAddr) (m : ConnectionMeta) : FrameRouter :=
  let r := match r.addressRouting[remoteAddr]? with
    | some oldCid => if oldCid ≠ cid then r.removeConnectionByCid order now oldCid else r
    | none => r
  let r := { r with
    activeConnections := r.activeConnections.insert cid m
    addressRouting := r.addressRouting.insert remoteAddr cid }
  r.forwardCachedFrames addrHash sends cid remoteAddr

/-- What happens to a frame that belongs to no connection. -/
def dispatchUnroutable (now : Instant) (frame : Frame) (remoteAddr : SocketAddr) :
    RoutingResult × FrameRouter :=
  if r.isDraining frame.destinationCid then (.connectionDraining, r)
  else match frame with
    | .push .. =>
      (.frameCached, r.cacheEarlyFrame addrHash now frame.destinationCid frame remoteAddr)
    | _ => (.connectionNotFound, r)

/-- Looks the connection up by the address the frame came from. -/
def dispatchByAddress (order : List SocketAddr) (now : Instant) (isOpen : Bool) (frame : Frame)
    (remoteAddr : SocketAddr) : RoutingResult × FrameRouter :=
  match r.addressRouting[remoteAddr]? with
  | some existingCid =>
    match r.activeConnections[existingCid]? with
    | some m => r.sendOrRemove order now isOpen existingCid m frame remoteAddr
    | none =>
      dispatchUnroutable { r with addressRouting := r.addressRouting.erase remoteAddr } addrHash now
        frame remoteAddr
  | none => r.dispatchUnroutable addrHash now frame remoteAddr

def dispatchFrame (order : List SocketAddr) (now : Instant) (isOpen : Bool) (frame : Frame)
    (remoteAddr : SocketAddr) : RoutingResult × FrameRouter :=
  if frame.destinationCid ≠ 0 then
    match r.activeConnections[frame.destinationCid]? with
    | some m => r.sendOrRemove order now isOpen frame.destinationCid m frame remoteAddr
    | none => r.dispatchByAddress addrHash order now isOpen frame remoteAddr
  else r.dispatchByAddress addrHash order now isOpen frame remoteAddr

/-- What the socket asks of the router. An `order` is the order in which the address table is gone
through, `sends` the number of frames the new endpoint takes before it is gone, and `isOpen` says
whether the endpoint that is looked up is still there. -/
inductive Op where
  | register (order : List SocketAddr) (now : Instant) (sends cid : ℕ) (remoteAddr : SocketAddr)
      (m : ConnectionMeta)
  | updateAddr (order : List SocketAddr) (cid : ℕ) (newAddr : SocketAddr)
  | remove (order : List SocketAddr) (now : Instant) (cid : ℕ)
  | dispatch (order : List SocketAddr) (now : Instant) (isOpen : Bool) (frame : Frame)
      (remoteAddr : SocketAddr)
  | cleanupDraining (now : Instant)
  | cleanupExpired (now : Instant) (maxAge : Duration)
  deriving DecidableEq, Repr

/-- The order is one of the whole table. -/
def Enumerates (order : List SocketAddr) : Prop := order.Perm r.addressRouting.keys

instance (order : List SocketAddr) : Decidable (r.Enumerates order) :=
  inferInstanceAs (Decidable (order.Perm _))

def next : Op → Option FrameRouter
  | .register order now sends cid remoteAddr m =>
    if r.Enumerates order ∧ cid < u32Size then
      some (r.registerConnection addrHash order now sends cid remoteAddr m)
    else none
  | .updateAddr order cid newAddr =>
    if r.Enumerates order then some (r.updateConnectionAddress order cid newAddr) else none
  | .remove order now cid =>
    if r.Enumerates order then some (r.removeConnectionByCid order now cid) else none
  | .dispatch order now isOpen frame remoteAddr =>
    if r.Enumerates order ∧ frame.destinationCid < u32Size then
      some (r.dispatchFrame addrHash order now isOpen frame remoteAddr).2
    else none
  | .cleanupDraining now => some (r.cleanupDrainingPool now)
  | .cleanupExpired now maxAge => some (r.cleanupExpiredFrames now maxAge)

def system : TransitionSystem FrameRouter Op :=
  .ofNext (fun r => ∃ timeout, r = new (.new timeout)) fun r op => r.next addrHash op

end FrameRouter

end Kestrel
