import Kestrel.Reliability.Window
import Kestrel.Stream.Link

/-! # Flow control and deadlocks

A receiver tells its window in its acknowledgments and builds them before it reassembles. If one is
built while the buffer is full, its sender may wait for room that has been there for long: nothing
tells it of the window again.
-/

namespace Kestrel

namespace Endpoint

variable {C : Type} [CongestionControl C] {t : Tick} {l : Label} {e e' : Endpoint C}

theorem Act.peerRecvWindow (h : Act t l e e') : e'.peerRecvWindow = e.peerRecvWindow ∨
    ∃ header payload a, l = .frame t (.ack header payload) a ∧
      e'.peerRecvWindow = header.recvWindowSize := by
  cases h with
  | processAck header payload a r cc hl hs => exact Or.inr ⟨header, payload, a, hl, rfl⟩
  | packetize chunks b lead bs hs hp hlead hb =>
    left
    change ((e.cut t chunks b).createFin t).2.peerRecvWindow = e.peerRecvWindow
    unfold Endpoint.createFin
    split <;> rfl
  | sendEof hl =>
    unfold Endpoint.sendEof
    split <;> exact Or.inl rfl
  | _ => exact Or.inl rfl

omit [CongestionControl C] in
theorem Created.peerRecvWindow (h : e.Created) : e.peerRecvWindow = 32 := by
  cases h with
  | client config a cid cc data t => cases data <;> rfl
  | server config a cid peer cc t => rfl

/-- One more packet does not fill the receive buffer, as far as its window tells. -/
def LeavesRoom (e : Endpoint C) : Prop :=
  (e.reliability.recvBuffer.capacity - (e.reliability.recvBuffer.received.size + 1)) % u16Size ≠ 0

instance : Decidable e.LeavesRoom := inferInstanceAs (Decidable (_ ≠ _))

/-- The frame brings nothing that is acknowledged while it fills the buffer. -/
def FindsRoom (e : Endpoint C) (f : Frame) : Prop :=
  ∀ i ∈ f.item?, acknowledges e.state i.2 = true →
    e.reliability.recvBuffer.accepts i.1 = true → e.LeavesRoom

instance (f : Frame) : Decidable (e.FindsRoom f) :=
  inferInstanceAs (Decidable (∀ i ∈ f.item?, _))

/-- The frame is not an acknowledgment with a closed window. -/
def Opens : Frame → Prop
  | .ack header _ => header.recvWindowSize ≠ 0
  | _ => True

omit [CongestionControl C] in
theorem opens_acksFor {f g : Frame} (h : e.FindsRoom f) (hg : g ∈ acksFor t e f) : Opens g := by
  unfold acksFor at hg
  cases hi : f.item? with
  | none =>
    rw [hi] at hg
    cases hg
  | some i =>
    obtain ⟨k, p⟩ := i
    rw [hi] at hg
    dsimp only at hg
    split at hg
    · rename_i hs
      unfold receipt at hg
      split at hg
      · rename_i ha
        rw [List.mem_singleton] at hg
        have hroom := h (k, p) hi hs ha.2
        have hwindow : (e.reliability.receive k p).2.recvBuffer.windowSize ≠ 0 := by
          rw [ReliabilityLayer.receive_recvBuffer, ReceiveBuffer.windowSize,
            ReceiveBuffer.receive_capacity, ReceiveBuffer.size_receive, if_pos ha.2]
          exact hroom
        rw [hg]
        exact hwindow
      · cases hg
    · cases hg

end Endpoint

namespace Link

open Endpoint

variable {S R : Type} [CongestionControl S] [CongestionControl R] {x x' : Link S R} {i : Event}

/-- The sender has bytes to send, nothing is in flight or on its way, no timer will send anything,
and the sender believes that the receiver has no room, which has taken out all it got. -/
structure Deadlocked (x : Link S R) : Prop where
  waiting : x.sender.endpoint.reliability.sendBuffer.bytes ≠ []
  nothing_in_flight : x.sender.endpoint.reliability.isInFlightEmpty = true ∧
    x.receiver.endpoint.reliability.isInFlightEmpty = true
  nothing_in_transit : x.sender.endpoint.framesSent.Subperm x.toReceiver ∧
    x.receiver.endpoint.framesSent.Subperm x.toSender
  window : x.sender.endpoint.peerRecvWindow = 0
  drained : x.receiver.endpoint.reliability.isRecvBufferEmpty = true ∧
    0 < x.receiver.endpoint.reliability.recvBuffer.windowSize

/-- What the receiver acknowledges in this step does not fill its buffer. -/
def RoomWhenAcknowledging (x : Link S R) : Event → Prop
  | .receiver (.frame _ f _) => x.receiver.endpoint.FindsRoom f
  | _ => True

instance : Decidable x.Deadlocked :=
  decidable_of_iff
    (x.sender.endpoint.reliability.sendBuffer.bytes ≠ [] ∧
      (x.sender.endpoint.reliability.isInFlightEmpty = true ∧
        x.receiver.endpoint.reliability.isInFlightEmpty = true) ∧
      (x.sender.endpoint.framesSent.Subperm x.toReceiver ∧
        x.receiver.endpoint.framesSent.Subperm x.toSender) ∧
      x.sender.endpoint.peerRecvWindow = 0 ∧
      x.receiver.endpoint.reliability.isRecvBufferEmpty = true ∧
        0 < x.receiver.endpoint.reliability.recvBuffer.windowSize)
    ⟨fun ⟨h₁, h₂, h₃, h₄, h₅⟩ => ⟨h₁, h₂, h₃, h₄, h₅⟩,
      fun ⟨h₁, h₂, h₃, h₄, h₅⟩ => ⟨h₁, h₂, h₃, h₄, h₅⟩⟩

instance : DecidablePred x.RoomWhenAcknowledging
  | .receiver (.frame _ f _) => inferInstanceAs (Decidable (x.receiver.endpoint.FindsRoom f))
  | .receiver (.begin _) | .receiver (.command ..) | .receiver (.poll _)
  | .receiver (.followUp _) | .receiver (.fire ..) | .receiver (.dropReplaced _)
  | .sender _ => .isTrue trivial

/-- Every acknowledgment tells of an open window, and the sender believes in one. -/
structure Open (x : Link S R) : Prop where
  acks : ∀ f ∈ x.receiver.endpoint.framesSent, Opens f
  window : x.sender.endpoint.peerRecvWindow ≠ 0

omit [CongestionControl R] in
theorem Open.sender (h : x.Open) {l : Label} {m : Machine S} (hn : x.sender.next l = some m)
    (hf : ∀ f ∈ l.frame?, f ∈ x.receiver.endpoint.framesSent) :
    m.endpoint.peerRecvWindow ≠ 0 := by
  rcases Machine.acts_of_next hn with ⟨t, -, ha⟩ | ⟨id, now, -, rfl⟩ | ⟨id, -, rfl⟩
  · have hopen : (x.sender.opening l).peerRecvWindow ≠ 0 := by
      cases l with
      | followUp t =>
        obtain ⟨data, held, hd⟩ := deliver_eq (t := t) (e := x.sender.endpoint)
        unfold Machine.opening
        dsimp only
        rw [hd]
        exact h.window
      | _ => exact h.window
    refine ha.preserves (P := fun e => e.peerRecvWindow ≠ 0) (fun e e' he ha => ?_) hopen
    rcases ha.peerRecvWindow with hw | ⟨header, payload, a, rfl, hw⟩
    · rw [hw]
      exact he
    · rw [hw]
      exact h.acks (.ack header payload) (hf _ rfl)
  · exact h.window
  · exact h.window

omit [CongestionControl S] in
theorem Open.receiver (h : x.Open) (hr : (Machine.system R).Reachable x.receiver) {l : Label}
    {m : Machine R} (hn : x.receiver.next l = some m) (hg : x.RoomWhenAcknowledging (.receiver l)) :
    ∀ f ∈ m.endpoint.framesSent, Opens f := by
  intro f hf
  cases f with
  | ack header payload =>
    have hsent := Machine.acksSent_step hn (Machine.quiet hr)
    have hmem : Frame.ack header payload ∈ m.endpoint.acksSent :=
      List.mem_filter.mpr ⟨hf, rfl⟩
    rw [hsent] at hmem
    rcases List.mem_append.mp hmem with hmem | hmem
    · exact h.acks _ (List.mem_filter.mp hmem).1
    · cases l with
      | frame t g a => exact opens_acksFor hg hmem
      | _ => cases hmem
  | _ => trivial

theorem open_of_reachable (h : (systemWith (S := S) (R := R) RoomWhenAcknowledging).Reachable x) :
    x.Open := by
  have hinv : (systemWith (S := S) (R := R) RoomWhenAcknowledging).Invariant Open :=
    { init := fun x hx => by
        constructor
        · intro f hf
          rw [framesSent, sent_created hx.receiver.2] at hf
          cases hf
        · rw [hx.sender.2.peerRecvWindow]
          decide
      step := fun x i x' hr hx hs => by
        obtain ⟨hn, hg⟩ := hs
        cases i with
        | sender l =>
          obtain ⟨hf, m, hm, rfl⟩ := next_sender.mp hn
          exact ⟨hx.acks, hx.sender hm hf⟩
        | receiver l =>
          obtain ⟨hf, m, hm, rfl⟩ := next_receiver.mp hn
          exact ⟨hx.receiver (reachable_parts hr.of_restrict).2 hm hg, hx.window⟩ }
  exact hinv.holds h

/-- In every run in which no acknowledged packet fills the receiver's buffer, flow control never
deadlocks. -/
theorem flow_control_never_deadlocks
    (h : (systemWith (S := S) (R := R) RoomWhenAcknowledging).Reachable x) : ¬ x.Deadlocked :=
  fun hd => (open_of_reachable h).window hd.window

section Sample

open Machine

/-- A server with a receive buffer of the given capacity. -/
def tinyServer (capacity : ℕ) : Machine Vegas :=
  let config := { tinyConfig with
    connection := { tinyConfig.connection with recvBufferCapacityPackets := capacity } }
  ⟨Endpoint.newServer config 81 2 1 (Vegas.new config) (tick 0), .created⟩

/-- A client that sends to that server. -/
def tinyLink (capacity : ℕ) : Link Vegas Vegas := ⟨tinyClient, tinyServer capacity, [], []⟩

theorem tinyLink_created (capacity : ℕ) : (tinyLink capacity).Created :=
  ⟨tinyClient_created, ⟨rfl, .server _ _ _ _ _ _⟩, rfl, rfl⟩

/-- The client sends the first of two bytes and gets its acknowledgment with the window that the
server has then; each frame is handed over once. -/
def twoBytes (capacity : ℕ) : List Event :=
  [.sender (.begin (tick 0)), .receiver (.begin (tick 0)),
    .receiver (.frame (tick 1) (.newSyn 1 1 0) 81), .receiver (.followUp (tick 1)),
    .receiver (.command (tick 2) (.sendData [5])), .receiver (.followUp (tick 2)),
    .sender (.frame (tick 3) (.newSynAck 1 2 1) 80),
    .sender (.frame (tick 3) (.newPush 1 0 0 capacity 0 [5]) 80), .sender (.followUp (tick 3)),
    .receiver (.frame (tick 4) (.newAck 2 0 255 [⟨0, 0⟩] 0) 81), .receiver (.followUp (tick 4)),
    .sender (.command (tick 5) (.sendData [7, 8])), .sender (.followUp (tick 5)),
    .receiver (.frame (tick 6) (.newPush 2 0 1 256 0 [7]) 81), .receiver (.followUp (tick 6)),
    .sender (.frame (tick 7) (.newAck 1 0 (capacity - 1) [⟨0, 0⟩] 0) 80),
    .sender (.followUp (tick 7))]

/-- With room for two packets the second byte follows. -/
theorem flow_control_never_deadlocks_sample : ∃ x : Link Vegas Vegas,
    (x.sender.endpoint.peerRecvWindow = 1 ∧
      x.sender.endpoint.reliability.sendBuffer.bytes = []) ∧ ¬ x.Deadlocked := by
  obtain ⟨x, hr, hx⟩ : ∃ x, (systemWith RoomWhenAcknowledging).Run (twoBytes 2) x ∧
      x.sender.endpoint.peerRecvWindow = 1 ∧
        x.sender.endpoint.reliability.sendBuffer.bytes = [] :=
    TransitionSystem.exists_restrict_run_of_foldlM _ (tinyLink_created 2) (by decide)
  exact ⟨x, hx, flow_control_never_deadlocks hr.reachable⟩

/-- With room for one packet it does not: the window stays closed for the sender, though the
receiver has taken everything out and every frame was handed over once, in order. -/
theorem full_buffer_deadlocks : ∃ x, (system Vegas Vegas).Run (twoBytes 1) x ∧
    x.Deadlocked ∧ x.sender.endpoint.framesSent = x.toReceiver ∧
      x.receiver.endpoint.framesSent = x.toSender ∧ x.sender.phase = .waiting ∧
        x.receiver.phase = .waiting :=
  TransitionSystem.exists_run_of_foldlM _ (tinyLink_created 1) (by decide)

end Sample

end Link

end Kestrel
