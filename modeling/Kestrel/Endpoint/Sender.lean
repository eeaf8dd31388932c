import Kestrel.Endpoint.Types

/-! # Sending

How an endpoint hands frames to the socket: control frames at once, other frames filled into
datagrams of limited size, and stream data after it is cut off the send buffer. Either the
socket takes everything or the first datagram fails.
-/

namespace Kestrel.Endpoint

variable {C : Type} (t : Tick) (e : Endpoint C)

/-- Hands one datagram to the socket. -/
def sendBatch (b : FrameBatch) : Outcome C (Endpoint C) :=
  if t.senderOpen then .ok { e with sent := e.sent ++ [b] } else .error (.channelClosed, e)

def sendRawFrames (frames : List Frame) : Outcome C (Endpoint C) :=
  if frames.isEmpty then .ok e else e.sendBatch t ⟨e.remoteAddr, frames⟩

/-- Sends every list of frames as a datagram of its own and skips empty ones. -/
def sendPackets (packets : List (List Frame)) : Outcome C (Endpoint C) :=
  packets.foldlM (fun e p => e.sendRawFrames t p) e

/-- The datagrams that frames are filled into. A first frame goes into its datagram whatever its
size is. -/
def buildPackets (maxPacketSize : ℕ) : List Frame → List (List Frame)
  | [] => []
  | f :: fs => fillPackets maxPacketSize [f] f.encodedSize fs

def sendFrames (frames : List Frame) : Outcome C (Endpoint C) :=
  e.sendPackets t (buildPackets e.config.connection.maxPacketSize frames)

def sendFrameTo (frame : Frame) (remoteAddr : SocketAddr) : Outcome C (Endpoint C) :=
  e.sendBatch t ⟨remoteAddr, [frame]⟩

def createSynFrame : Frame := .newSyn e.config.protocolVersion e.localCid 0

def createSynAckFrame : Frame := .newSynAck e.config.protocolVersion e.localCid e.peerCid

def createAckFrame : Frame :=
  .newAck e.peerCid e.reliability.getAckInfo.2.1 e.reliability.getAckInfo.2.2
    e.reliability.getAckInfo.1 (timestampSince e.timing.startTime t.now)

def createFinFrame (sequenceNumber : ℕ) : Frame :=
  .newFin e.peerCid sequenceNumber (timestampSince e.timing.startTime t.now)
    e.reliability.getAckInfo.2.1 e.reliability.getAckInfo.2.2

def createPathChallengeFrame (sequenceNumber challengeData : ℕ) : Frame :=
  .newPathChallenge e.peerCid sequenceNumber (timestampSince e.timing.startTime t.now)
    challengeData

def createPathResponseFrame (sequenceNumber challengeData : ℕ) : Frame :=
  .newPathResponse e.peerCid sequenceNumber (timestampSince e.timing.startTime t.now)
    challengeData

def sendSynAck : Outcome C (Endpoint C) := e.sendRawFrames t [e.createSynAckFrame]

/-- Sends an ACK frame if some packet waits to be acknowledged. -/
def sendStandaloneAck : Outcome C (Endpoint C) :=
  if e.reliability.isAckPending then
    sendRawFrames t { e with reliability := e.reliability.onAckSent } [e.createAckFrame t]
  else .ok e

/-- Takes the next sequence number for a path challenge. -/
def numberChallenge (challengeData : ℕ) : ℕ × Endpoint C :=
  let (seq, reliability) := e.reliability.nextSequenceNumber
  (seq,
    { e with
      reliability
      history := { e.history with
        numbered := e.history.numbered ++ [.pathChallenge challengeData] } })

/-- Creates a FIN and keeps it for retransmission, if the connection closes and no FIN is in
flight. -/
def createFin : List Frame × Endpoint C :=
  if e.state = .closing ∧ e.reliability.hasFinInFlight = false then
    let (seq, reliability) := e.reliability.nextSequenceNumber
    let finFrame := createFinFrame t { e with reliability } seq
    ([finFrame],
      { e with
        reliability := reliability.trackFrameInFlight finFrame t.now
        history := { e.history with
          numbered := e.history.numbered ++
            [.fin e.history.written e.reliability.sendBuffer.bytes] } })
  else ([], e)

/-- The datagrams for lists of frames; an empty list makes none. -/
def batches (packets : List (List Frame)) : List FrameBatch :=
  (packets.filter fun p => !p.isEmpty).map fun p => ⟨e.remoteAddr, p⟩

/-- The endpoint after it has handed over datagrams, if the socket takes them. -/
def emit (bs : List FrameBatch) : Endpoint C :=
  { e with sent := e.sent ++ if t.senderOpen then bs else [] }

variable {t e}

@[simp] theorem emit_nil : e.emit t [] = e := by
  simp [emit]

theorem emit_of_senderOpen (h : t.senderOpen = true) (bs : List FrameBatch) :
    e.emit t bs = { e with sent := e.sent ++ bs } := by
  rw [emit, if_pos h]

theorem emit_of_not_senderOpen (h : t.senderOpen = false) (bs : List FrameBatch) :
    e.emit t bs = e := by
  simp [emit, h]

theorem flatten_buildPackets (m : ℕ) (fs : List Frame) : (buildPackets m fs).flatten = fs := by
  cases fs with
  | nil => rfl
  | cons f fs => rw [buildPackets, flatten_fillPackets, List.singleton_append]

@[simp] theorem frames_batches (packets : List (List Frame)) :
    (e.batches packets).flatMap (·.frames) = packets.flatten := by
  induction packets with
  | nil => rfl
  | cons p ps ih =>
    cases p with
    | nil => exact ih
    | cons f p => exact congrArg (f :: p ++ ·) ih

def sending (t : Tick) (e : Endpoint C) (bs : List FrameBatch) : Outcome C (Endpoint C) :=
  if t.senderOpen = true ∨ bs = [] then .ok (e.emit t bs) else .error (.channelClosed, e)

@[simp] theorem last_sending (bs : List FrameBatch) :
    Outcome.last (sending t e bs) = e.emit t bs := by
  unfold sending
  split
  · rfl
  · rename_i h
    rw [not_or, Bool.not_eq_true] at h
    exact (emit_of_not_senderOpen h.1 bs).symm

theorem sending_of_senderOpen (h : t.senderOpen = true) (bs : List FrameBatch) :
    sending t e bs = .ok (e.emit t bs) := if_pos (Or.inl h)

theorem eq_of_sending_eq_ok {e' : Endpoint C} {bs : List FrameBatch}
    (h : sending t e bs = .ok e') : e' = e.emit t bs := by
  have hl := congrArg Outcome.last h
  rw [last_sending] at hl
  exact hl.symm

theorem sendBatch_eq (b : FrameBatch) : e.sendBatch t b = sending t e [b] := by
  unfold sendBatch sending
  by_cases h : t.senderOpen = true
  · simp [h, emit]
  · simp [h]

theorem sendFrameTo_eq (f : Frame) (a : SocketAddr) :
    e.sendFrameTo t f a = sending t e [⟨a, [f]⟩] := sendBatch_eq _

theorem sendRawFrames_eq (frames : List Frame) :
    e.sendRawFrames t frames = sending t e (e.batches [frames]) := by
  cases frames with
  | nil => simp [sendRawFrames, sending, batches]
  | cons f fs => exact sendBatch_eq _

theorem sendPackets_eq (packets : List (List Frame)) :
    e.sendPackets t packets = sending t e (e.batches packets) := by
  induction packets generalizing e with
  | nil => simp [sendPackets, sending, batches, pure, Except.pure]
  | cons p ps ih =>
    have hcons :
        e.sendPackets t (p :: ps) = e.sendRawFrames t p >>= fun e => e.sendPackets t ps := by
      simp only [sendPackets, List.foldlM_cons]
    rw [hcons, sendRawFrames_eq]
    by_cases ho : t.senderOpen = true
    · rw [sending_of_senderOpen ho, sending_of_senderOpen ho]
      change (e.emit t _).sendPackets t ps = _
      rw [ih, sending_of_senderOpen ho]
      simp only [emit_of_senderOpen ho, batches, List.append_assoc, ← List.map_append,
        ← List.filter_append, List.singleton_append]
    · cases p with
      | nil =>
        have hn : e.batches [[]] = [] := rfl
        rw [hn, sending, if_pos (Or.inr rfl), emit_nil]
        exact ih
      | cons f p =>
        rw [sending, if_neg (by simp [ho, batches]), sending, if_neg (by simp [ho, batches])]
        rfl

theorem sendFrames_eq (frames : List Frame) :
    e.sendFrames t frames =
      sending t e (e.batches (buildPackets e.config.connection.maxPacketSize frames)) :=
  sendPackets_eq _

theorem eq_of_sendStandaloneAck_eq_ok {e' : Endpoint C} (h : e.sendStandaloneAck t = .ok e') :
    e'.state = e.state ∧ e'.reliability.recvBuffer = e.reliability.recvBuffer := by
  unfold sendStandaloneAck at h
  split at h
  · rw [sendRawFrames_eq] at h
    rw [eq_of_sending_eq_ok h]
    exact ⟨rfl, rfl⟩
  · cases h
    exact ⟨rfl, rfl⟩

theorem createFin_of_not_closing (h : e.state ≠ .closing) : e.createFin t = ([], e) :=
  if_neg fun hc => h hc.1

variable [CongestionControl C]

variable (t e)

/-- Cuts PUSH frames off the send buffer. -/
def packetizeStream : List Frame × Endpoint C :=
  let (frames, reliability) := e.reliability.packetizeStreamData e.peerCid e.peerRecvWindow t.now
    e.timing.startTime none
  (frames,
    { e with
      reliability
      history := { e.history with
        numbered := e.history.numbered ++ (payloadsOf frames).map .push } })

def packetizeAndSend : Outcome C (Endpoint C) :=
  let (frames, e) := e.packetizeStream t
  let (fin, e) := e.createFin t
  e.sendFrames t (frames ++ fin)

/-- The first packet of a client: the SYN with whatever data was written before. -/
def sendInitialSyn : Outcome C (Endpoint C) :=
  let (pushFrames, packetized) := e.packetizeStream t
  let frames := e.createSynFrame :: pushFrames
  if (frames.map Frame.encodedSize).sum ≤ e.config.connection.maxPacketSize then
    packetized.sendRawFrames t frames
  else
    let message :=
      "Initial packet size exceeded MTU, which should have been caught at the API level!"
    .error (.panic message, e)

/-- Cuts PUSH frames off the send buffer and sends them after a SYN-ACK. -/
def sendZeroRttPackets : Outcome C (Endpoint C) :=
  match e.reliability.packetizeZeroRttStreamData e.peerCid e.peerRecvWindow t.now
      e.timing.startTime e.createSynAckFrame e.config.connection.maxPacketSize with
  | some (packets, reliability) =>
    sendPackets t
      { e with
        reliability
        history := { e.history with
          numbered := e.history.numbered ++ (payloadsOf packets.flatten).map .push } } packets
  | none => .error (.panic "SYN-ACK frame exceeds maximum packet size", e)

end Kestrel.Endpoint
