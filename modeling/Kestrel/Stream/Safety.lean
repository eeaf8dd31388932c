import Kestrel.Stream.DataPlane
import Kestrel.Stream.Receiver

/-! # Stream safety of the data plane

The invariant joins the send buffer, the packets in flight, the frames on the network, the
receive buffer and the acknowledgments in transit. It makes the data plane an implementation of
a first-in first-out stream.
-/

namespace Kestrel.DataPlane

variable {S R : Type}

/-- The items of the sender so far: its packetized payloads, numbered from zero. -/
def items (w : DataPlane S R) : List PacketOrFin := w.sender.packetized.map .push

/-- The frame carries the payload cut under its sequence number. -/
def Genuine (w : DataPlane S R) (f : Frame) : Prop :=
  ∃ q p, w.sender.packetized[q]? = some p ∧ f.pushData = some (q, p)

structure Safe (w : DataPlane S R) : Prop where
  payload_pos : 1 ≤ w.sender.config.connection.maxPayloadSize
  accepted_eq : w.accepted = w.sender.packetized.flatten ++ w.sender.sendBuffer.bytes
  counter_eq : w.sender.sequenceNumberCounter = w.packets
  kept : ∀ q i, w.sender.retransmissionManager.Keeps q i →
    ∃ p, w.sender.packetized[q]? = some p ∧ i = ⟨.push, q, p, none⟩
  pushes : ∀ f ∈ w.pushes, w.Genuine f
  follows : w.receiver.recvBuffer.Follows w.items
  no_fin : w.receiver.recvBuffer.finReached = false
  delivered_eq : w.delivered =
    (w.sender.packetized.take w.receiver.recvBuffer.nextSequence).flatten
  acks : ∀ h p, Frame.ack h p ∈ w.acks → ∀ q,
    AckNames h.recvNextSequence (decodeSackRanges p) q → w.receiver.recvBuffer.Recorded q

variable {w : DataPlane S R}

theorem payloads_take_items (n : ℕ) :
    payloads (w.items.take n) = w.sender.packetized.take n := by
  rw [items, ← List.map_take, payloads_map_push]

theorem length_items : w.items.length = w.packets := List.length_map _

theorem getElem?_items {q : ℕ} {x : PacketOrFin} (h : w.items[q]? = some x) :
    ∃ p, w.sender.packetized[q]? = some p ∧ x = .push p := by
  rw [items, List.getElem?_map, Option.map_eq_some_iff] at h
  obtain ⟨p, hp, rfl⟩ := h
  exact ⟨p, hp, rfl⟩

theorem safe_start (sendConfig recvConfig : Config) (s : S) (r : R)
    (h : 1 ≤ sendConfig.connection.maxPayloadSize) : (start sendConfig recvConfig s r).Safe where
  payload_pos := h
  accepted_eq := rfl
  counter_eq := rfl
  kept q i hk := by
    rcases hk with hk | hk <;>
      simp [start, ReliabilityLayer.new, RetransmissionManager.new] at hk
  pushes := by simp [start]
  follows := ReceiveBuffer.follows_new _ _
  no_fin := rfl
  delivered_eq := rfl
  acks := by simp [start]

theorem Safe.genuine_reconstruct (h : w.Safe) {q : ℕ} {i : RetransmissionFrameInfo}
    (hi : w.sender.retransmissionManager.Keeps q i) (c : RetransmissionContext) (now : Instant) :
    w.Genuine (i.reconstructFrame c now) := by
  obtain ⟨p, hp, rfl⟩ := h.kept q i hi
  exact ⟨q, p, hp, rfl⟩

theorem Safe.write (h : w.Safe) (buf : Bytes) :
    Safe { w with
      sender := (w.sender.writeToStream buf).2
      accepted := w.accepted ++ buf.take (w.sender.writeToStream buf).1 } := by
  refine { h with accepted_eq := ?_ }
  have hb := SendBuffer.bytes_writeToStream (b := w.sender.sendBuffer) buf
  dsimp only [ReliabilityLayer.writeToStream]
  rw [hb, h.accepted_eq, List.append_assoc]

theorem Safe.genuine_pushFrames (h : w.Safe) {c : PacketizerContext} {chunks : List Bytes}
    (hlen : w.packets + chunks.length < u32Size) {f : Frame}
    (hf : f ∈ pushFrames c w.sender.sequenceNumberCounter chunks) :
    ∃ q p, (w.sender.packetized ++ chunks)[q]? = some p ∧ f.pushData = some (q, p) := by
  obtain ⟨n, p, hp, rfl⟩ := mem_pushFrames.mp hf
  have hn := (List.getElem?_eq_some_iff.mp hp).1
  rw [h.counter_eq, counterAfter_of_lt (by omega)]
  refine ⟨w.packets + n, p, ?_, rfl⟩
  rw [List.getElem?_append_right (by exact Nat.le_add_right _ _), packets,
    Nat.add_sub_cancel_left, hp]

theorem Safe.receivePush (h : w.Safe) {header : ShortHeader} {payload : Bytes}
    (hf : Frame.push header payload ∈ w.pushes) :
    Safe { w with receiver := (w.receiver.receivePush header.sequenceNumber payload).2 } := by
  obtain ⟨q, p, hq, hd⟩ := h.pushes _ hf
  cases hd
  have hi : w.items[header.sequenceNumber]? = some (.push payload) := by
    rw [items, List.getElem?_map, hq]
    rfl
  refine { h with follows := ?_, no_fin := ?_, delivered_eq := ?_, acks := ?_ }
  · dsimp only [ReliabilityLayer.receivePush]
    rw [ReliabilityLayer.receive_recvBuffer]
    exact h.follows.receive hi
  · dsimp only [ReliabilityLayer.receivePush]
    rw [ReliabilityLayer.receive_recvBuffer, ReceiveBuffer.receive_finReached]
    exact h.no_fin
  · dsimp only [ReliabilityLayer.receivePush]
    rw [ReliabilityLayer.receive_recvBuffer, ReceiveBuffer.receive_nextSequence]
    exact h.delivered_eq
  · intro h' p' ha k hk
    dsimp only [ReliabilityLayer.receivePush]
    rw [ReliabilityLayer.receive_recvBuffer]
    exact (h.acks h' p' ha k hk).receive _ _

theorem no_fin_reassemble {b b' : ReceiveBuffer} {data : List Bytes} {finSeen : Bool}
    (h : ReceiveBuffer.Reassembled w.items b data finSeen b') : finSeen = false := by
  cases hs : finSeen with
  | false => rfl
  | true =>
    have hf := h.fin_iff
    rw [hs, Bool.or_true] at hf
    obtain ⟨n, -, hn⟩ := h.follows.fin hf
    obtain ⟨p, -, hp⟩ := getElem?_items hn
    cases hp

theorem Safe.reassemble (h : w.Safe) (hlen : w.packets < u32Size) :
    Safe { w with
      receiver := w.receiver.reassemble.2.2
      delivered := w.delivered ++ (w.receiver.reassemble.1.getD []).flatten } := by
  have hr := h.follows.reassembled (length_items (w := w) ▸ hlen)
  have hfin := no_fin_reassemble hr
  refine { h with follows := hr.follows, no_fin := ?_, delivered_eq := ?_, acks := ?_ }
  · have hf := hr.fin_iff
    rwa [hfin, h.no_fin] at hf
  · have hd := hr.payloads_eq
    rw [payloads_take_items, payloads_take_items] at hd
    dsimp only [ReliabilityLayer.reassemble]
    rw [hd, List.flatten_append, h.delivered_eq]
  · intro h' p' ha k hk
    exact hr.recorded hfin k (h.acks h' p' ha k hk)

theorem ackNames_ackFrame {l : ReliabilityLayer R} {h : ShortHeader} {p : Bytes}
    {peerCid timestamp : ℕ} (hf : ackFrame l peerCid timestamp = .ack h p)
    (hk : ∀ q x, l.recvBuffer.received[q]? = some x → q < u32Size) (q : ℕ) :
    AckNames h.recvNextSequence (decodeSackRanges p) q ↔ l.recvBuffer.Recorded q := by
  cases hf
  have hd := decode_encodeSackRanges (ReceiveBuffer.getSackRanges_fits hk)
  dsimp only [ReliabilityLayer.getAckInfo]
  rw [hd]
  exact ReceiveBuffer.covered_iff

theorem Safe.sendAck (h : w.Safe) (hlen : w.packets < u32Size) (peerCid timestamp : ℕ) :
    Safe { w with
      receiver := w.receiver.onAckSent
      acks := w.acks ++ [ackFrame w.receiver peerCid timestamp] } := by
  refine { h with acks := ?_ }
  intro h' p' ha q hq
  rcases List.mem_append.mp ha with ha | ha
  · exact h.acks h' p' ha q hq
  · refine (ackNames_ackFrame (List.mem_singleton.mp ha).symm (fun k x hk => ?_) q).mp hq
    have hi := (List.getElem?_eq_some_iff.mp (h.follows.buffered k x hk)).1
    rw [length_items] at hi
    omega

variable [CongestionControl S]

theorem Safe.packetize (h : w.Safe) (peerCid window : ℕ) (now start : Instant)
    (hlen : (w.sender.packetizeStreamData peerCid window now start none).2.packetized.length <
      u32Size) :
    Safe { w with
      sender := (w.sender.packetizeStreamData peerCid window now start none).2
      pushes := w.pushes ++ (w.sender.packetizeStreamData peerCid window now start none).1 } := by
  obtain ⟨chunks, b', hp, he⟩ :=
    ReliabilityLayer.packetizeStreamData_eq (l := w.sender) peerCid window now start
  rw [he] at hlen ⊢
  rw [List.length_append] at hlen
  have hgen := fun f => h.genuine_pushFrames hlen (f := f)
    (c := w.sender.packetizerContext peerCid window now start)
  have hold {q : ℕ} {p : Bytes} (hq : w.sender.packetized[q]? = some p) :
      (w.sender.packetized ++ chunks)[q]? = some p := by
    rwa [List.getElem?_append_left (List.getElem?_eq_some_iff.mp hq).1]
  refine { h with
    accepted_eq := ?_, counter_eq := ?_, kept := ?_, pushes := ?_, follows := ?_,
    delivered_eq := ?_ }
  · dsimp only
    rw [h.accepted_eq, hp.bytes_eq h.payload_pos, List.flatten_append, List.append_assoc]
  · dsimp only [packets]
    rw [h.counter_eq, counterAfter_of_lt (by exact hlen), List.length_append, packets]
  · intro q i hk
    rcases RetransmissionManager.keeps_addAll hk with hk | ⟨f, hf, hq, hi⟩
    · obtain ⟨p, hq, hi⟩ := h.kept q i hk
      exact ⟨p, hold hq, hi⟩
    · obtain ⟨q', p', hq', hd⟩ := hgen f hf
      obtain ⟨n, p, -, rfl⟩ := mem_pushFrames.mp hf
      cases hq
      cases hi
      cases hd
      exact ⟨_, hq', rfl⟩
  · intro f hf
    rcases List.mem_append.mp hf with hf | hf
    · obtain ⟨q, p, hq, hd⟩ := h.pushes f hf
      exact ⟨q, p, hold hq, hd⟩
    · exact hgen f hf
  · dsimp only [items]
    rw [List.map_append]
    exact h.follows.append _
  · have hn := h.follows.next_le
    rw [length_items] at hn
    dsimp only
    rw [h.delivered_eq, Fifo.take_append_flatten chunks hn]

theorem Safe.handleAck (h : w.Safe) (n : ℕ) (rs : List SackRange) (now : Instant)
    (c : RetransmissionContext) :
    Safe { w with
      sender := (w.sender.handleAck n rs now c).2
      pushes := w.pushes ++ (w.sender.handleAck n rs now c).1 } := by
  obtain ⟨r, cc, he⟩ := ReliabilityLayer.handleAck_eq (l := w.sender) n rs now c
  rw [he]
  refine { h with kept := ?_, pushes := ?_ }
  · exact fun q i hk => h.kept q i (RetransmissionManager.keeps_of_processAck hk)
  · intro f hf
    rcases List.mem_append.mp hf with hf | hf
    · exact h.pushes f hf
    · obtain ⟨q, i, hi, rfl⟩ := RetransmissionManager.rebuilds_processAck hf
      exact h.genuine_reconstruct (RetransmissionManager.keeps_of_processAck hi) c now

theorem Safe.timeout (h : w.Safe) (now : Instant) (c : RetransmissionContext) :
    Safe { w with
      sender := (w.sender.checkRetransmissions now c).2
      pushes := w.pushes ++ (w.sender.checkRetransmissions now c).1 } := by
  obtain ⟨r, cc, he⟩ := ReliabilityLayer.checkRetransmissions_eq (l := w.sender) now c
  rw [he]
  refine { h with kept := ?_, pushes := ?_ }
  · intro q i hk
    exact h.kept q i (RetransmissionManager.keeps_of_checkForRetransmissions (c := c) hk)
  · intro f hf
    rcases List.mem_append.mp hf with hf | hf
    · exact h.pushes f hf
    · obtain ⟨q, i, hi, rfl⟩ := RetransmissionManager.rebuilds_checkForRetransmissions hf
      exact h.genuine_reconstruct
        (RetransmissionManager.keeps_of_checkForRetransmissions (c := c) hi) c now

variable {e : Event} {w' : DataPlane S R}

theorem Step.packets_le (h : Step w e w') : w.packets ≤ w'.packets := by
  cases h with
  | write buf => exact le_rfl
  | packetize peerCid window now start =>
    obtain ⟨chunks, b', -, he⟩ :=
      ReliabilityLayer.packetizeStreamData_eq (l := w.sender) peerCid window now start
    dsimp only [packets]
    rw [he, List.length_append]
    exact Nat.le_add_right _ _
  | receivePush header payload h => exact le_rfl
  | reassemble => exact le_rfl
  | sendAck peerCid timestamp => exact le_rfl
  | handleAck header payload h now c =>
    obtain ⟨r, cc, he⟩ := ReliabilityLayer.handleAck_eq (l := w.sender) header.recvNextSequence
      (decodeSackRanges payload) now c
    dsimp only [packets]
    rw [he]
  | timeout now c =>
    obtain ⟨r, cc, he⟩ := ReliabilityLayer.checkRetransmissions_eq (l := w.sender) now c
    dsimp only [packets]
    rw [he]

/-- Every step keeps the invariant as long as the sequence numbers do not run out. -/
theorem Safe.step (h : w.Safe) (hs : Step w e w') (hlen : w'.packets < u32Size) : w'.Safe := by
  have hlen₀ : w.packets < u32Size := lt_of_le_of_lt hs.packets_le hlen
  cases hs with
  | write buf => exact h.write buf
  | packetize peerCid window now start => exact h.packetize peerCid window now start hlen
  | receivePush header payload hf => exact h.receivePush hf
  | reassemble => exact h.reassemble hlen₀
  | sendAck peerCid timestamp => exact h.sendAck hlen₀ peerCid timestamp
  | handleAck header payload hf now c => exact h.handleAck _ _ now c
  | timeout now c => exact h.timeout now c

variable {sendConfig recvConfig : Config} {s : S} {r : R}

/-- The runs in which the sequence numbers do not run out. -/
def bounded (sendConfig recvConfig : Config) (s : S) (r : R) :
    TransitionSystem (DataPlane S R) Event :=
  (system sendConfig recvConfig s r).restrict fun _ _ w' => w'.packets < u32Size

theorem safe_invariant (h : 1 ≤ sendConfig.connection.maxPayloadSize) :
    (bounded sendConfig recvConfig s r).Invariant Safe where
  init := by
    rintro _ rfl
    exact safe_start sendConfig recvConfig s r h
  step _ _ _ _ hw hs := hw.step hs.1 hs.2

theorem reachable_bounded (h : (system sendConfig recvConfig s r).Reachable w)
    (hlen : w.packets < u32Size) : (bounded sendConfig recvConfig s r).Reachable w :=
  h.restrict_of_backward (fun _ _ _ hs hb => lt_of_le_of_lt (Step.packets_le hs) hb) hlen

/-- The data plane implements a first-in first-out stream of bytes. -/
theorem bounded_simulates (h : 1 ≤ sendConfig.connection.maxPayloadSize) :
    (bounded sendConfig recvConfig s r).Simulates (Fifo.system UInt8)
      (fun w a => w.Safe ∧ a = ⟨w.accepted, w.delivered⟩) where
  init := by
    rintro _ rfl
    exact ⟨_, rfl, safe_start sendConfig recvConfig s r h, rfl⟩
  step := by
    rintro w e w' _ ⟨hw, rfl⟩ ⟨hs, hlen⟩
    have hw' := hw.step hs hlen
    refine ⟨_, ?_, hw', rfl⟩
    cases hs with
    | write buf => exact .single ⟨_, Fifo.Step.accept _ _⟩
    | reassemble =>
      refine .single ⟨_, Fifo.Step.deliver _ _ ?_⟩
      have hd := hw'.delivered_eq
      have ha := hw'.accepted_eq
      dsimp only at hd ha
      rw [hd, ha]
      exact Fifo.take_flatten_prefix _ _ _
    | packetize | receivePush | sendAck | handleAck | timeout => exact .refl

/-- What the receiver has handed over is a prefix of what the sender has accepted, and an
acknowledgment takes out of flight only what the receiver has recorded. -/
theorem stream_safety (hpay : 1 ≤ sendConfig.connection.maxPayloadSize)
    (h : (system sendConfig recvConfig s r).Reachable w) (hlen : w.packets < u32Size) :
    w.delivered <+: w.accepted ∧
      ∀ header payload now c w', Step w (.handleAck (.ack header payload) now c) w' →
        ∀ q, w.sender.retransmissionManager.sackManager.info? q ≠ none →
          w'.sender.retransmissionManager.sackManager.info? q = none →
            w.receiver.recvBuffer.Recorded q := by
  have hb := reachable_bounded h hlen
  constructor
  · obtain ⟨a, ha, -, rfl⟩ := (bounded_simulates hpay).reachable hb
    exact Fifo.delivered_prefix ha
  · intro header payload now c w' hs q hin hout
    have hw := (safe_invariant hpay).holds hb
    cases hs with
    | handleAck _ _ hf =>
      refine hw.acks header payload hf q ?_
      by_contra hn
      obtain ⟨r, cc, he⟩ := ReliabilityLayer.handleAck_eq (l := w.sender) header.recvNextSequence
        (decodeSackRanges payload) now c
      rw [he] at hout
      dsimp only [RetransmissionManager.processAck] at hout
      rw [SackManager.info?_processAck, if_neg hn] at hout
      exact hin hout

section Sample

/-- Packets of two bytes. -/
def sampleConfig : Config := { connection := { maxPayloadSize := 2 } }

def sampleStart : DataPlane Vegas Vegas :=
  start sampleConfig sampleConfig (Vegas.new sampleConfig) (Vegas.new sampleConfig)

def sampleWritten : DataPlane Vegas Vegas :=
  { sampleStart with
    sender := (sampleStart.sender.writeToStream [7, 8, 9]).2
    accepted := sampleStart.accepted ++
      [7, 8, 9].take (sampleStart.sender.writeToStream [7, 8, 9]).1 }

def samplePacketized : DataPlane Vegas Vegas :=
  { sampleWritten with
    sender := (sampleWritten.sender.packetizeStreamData 1 32 0 0 none).2
    pushes := sampleWritten.pushes ++ (sampleWritten.sender.packetizeStreamData 1 32 0 0 none).1 }

def sampleReceived : DataPlane Vegas Vegas :=
  { samplePacketized with
    receiver := (samplePacketized.receiver.receivePush 0 [7, 8]).2 }

def sampleDelivered : DataPlane Vegas Vegas :=
  { sampleReceived with
    receiver := sampleReceived.receiver.reassemble.2.2
    delivered := sampleReceived.delivered ++
      (sampleReceived.receiver.reassemble.1.getD []).flatten }

def sampleAnswered : DataPlane Vegas Vegas :=
  { sampleDelivered with
    receiver := sampleDelivered.receiver.onAckSent
    acks := sampleDelivered.acks ++ [ackFrame sampleDelivered.receiver 1 0] }

/-- Three bytes go out in two packets, of which the first arrives and is acknowledged. -/
def sampleEvents : List Event :=
  [.write [7, 8, 9], .packetize 1 32 0 0, .receivePush (.newPush 1 0 0 256 0 [7, 8]), .reassemble,
    .sendAck 1 0]

theorem run_sampleEvents : (system sampleConfig sampleConfig (Vegas.new sampleConfig)
    (Vegas.new sampleConfig)).Run sampleEvents sampleAnswered := by
  have hstart : (system sampleConfig sampleConfig (Vegas.new sampleConfig)
      (Vegas.new sampleConfig)).Run [] sampleStart := .init rfl
  have hsent := (hstart.step (Step.write _ [7, 8, 9])).step (Step.packetize _ 1 32 0 0)
  have hcame := hsent.step (Step.receivePush _ ⟨.push, 1, 2, 256, 0, 0, 0⟩ [7, 8] (by decide))
  exact (hcame.step (Step.reassemble _)).step (Step.sendAck _ 1 0)

theorem step_sampleAnswered : ∃ w',
    Step sampleAnswered (.handleAck (.newAck 1 1 256 [] 0) 100 ⟨0, 1, 1, 2, 0, 256⟩) w' ∧
      w'.sender.retransmissionManager.sackManager.info? 0 = none ∧
      w'.sender.retransmissionManager.sackManager.info? 1 ≠ none ∧ w'.packets = 2 :=
  ⟨_, Step.handleAck _ ⟨.ack, 1, 0, 256, 0, 0, 1⟩ [] (by decide) 100 ⟨0, 1, 1, 2, 0, 256⟩,
    by decide, by decide, by decide⟩

/-- Two of three bytes have been delivered, and the packet that the acknowledgment takes out of
flight is the one that brought them. -/
theorem stream_safety_sample : sampleAnswered.delivered = [7, 8] ∧
    sampleAnswered.accepted = [7, 8, 9] ∧ sampleAnswered.delivered <+: sampleAnswered.accepted ∧
      sampleAnswered.receiver.recvBuffer.Recorded 0 := by
  obtain ⟨hread, hack⟩ :=
    stream_safety (by decide) run_sampleEvents.reachable (by decide)
  obtain ⟨w', hs, hout, -⟩ := step_sampleAnswered
  exact ⟨by decide, by decide, hread, hack _ _ _ _ w' hs 0 (by decide) hout⟩

end Sample

end Kestrel.DataPlane
