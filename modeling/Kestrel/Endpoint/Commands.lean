import Kestrel.Endpoint.Processors

/-! # Stream commands

What an endpoint does with the commands of the user's stream: data to send, the request to close
and the request to migrate.
-/

namespace Kestrel.Endpoint

variable {C : Type} (t : Tick) (e : Endpoint C)

/-- Forgets what is in flight and lets go of the user's stream. -/
def release : Endpoint C :=
  { e with reliability := e.reliability.clearInFlightPackets, txToStream := false }

/-- A graceful shutdown; a connection that is closed by it is released at once. -/
def shutdownGracefully : Endpoint C :=
  let e := e.beginGracefulShutdown
  if e.state = .closed then e.release else e

/-- Before the connection is established, a close with nothing to send ends the user's stream at
once; a client then closes without a word. -/
def shutdown : Endpoint C :=
  match e.state with
  | .synReceived =>
    let e := if e.reliability.isSendBufferEmpty then { e with txToStream := false } else e
    e.shutdownGracefully
  | .connecting =>
    if e.reliability.isSendBufferEmpty then
      match e.transitionTo .closed with
      | .ok e => e.release
      | .error (_, e) => e
    else e.shutdownGracefully
  | _ => e.shutdownGracefully

/-- Starts to validate the path to a new address; where that is not possible the command is
dropped, and the waiting caller with it. -/
def migrate (newAddr : SocketAddr) (notifier : Notifier) : Outcome C (Endpoint C) :=
  match e.startPathValidation newAddr t.challenge notifier with
  | .error (_, e) => .ok e
  | .ok e =>
    let (seq, e) := e.numberChallenge t.challenge
    e.sendFrameTo t (e.createPathChallengeFrame t seq t.challenge) newAddr

variable {e} in
/-- A shutdown is graceful, perhaps after the user's stream was let go, but for a client that has
nothing to send. -/
theorem shutdown_cases :
    ¬ (e.state = .connecting ∧ e.reliability.isSendBufferEmpty = true) ∧
        e.shutdown = e.shutdownGracefully ∨
      e.state = .synReceived ∧ e.reliability.isSendBufferEmpty = true ∧
        e.shutdown = shutdownGracefully { e with txToStream := false } ∨
      e.state = .connecting ∧ e.reliability.isSendBufferEmpty = true ∧
        e.shutdown = release { e with state := .closed } := by
  unfold shutdown
  cases hs : e.state with
  | synReceived =>
    by_cases hb : e.reliability.isSendBufferEmpty = true
    · simp [hb]
    · simp [hb]
  | connecting =>
    by_cases hb : e.reliability.isSendBufferEmpty = true
    · have hv : e.state.isValidTransition .closed = true := by
        rw [hs]
        rfl
      simp [hb, transitionTo_eq, hv]
    · simp [hb]
  | _ => simp

variable [CongestionControl C]

/-- The first data of a server establishes the connection and goes out with the SYN-ACK. -/
def sendData (data : Bytes) : Outcome C (Endpoint C) :=
  if e.state = .synReceived then do
    let e ← e.transitionTo .established
    (e.writeToStream data).sendZeroRttPackets t
  else .ok (e.writeToStream data)

def close : Outcome C (Endpoint C) :=
  let e := e.shutdown
  if e.state = .closed then .ok e else e.packetizeAndSend t

def handleStreamCommand : StreamCommand → Outcome C (Endpoint C)
  | .sendData data => e.sendData t data
  | .close => e.close t
  | .migrate newAddr notifier => e.migrate t newAddr notifier

end Kestrel.Endpoint
