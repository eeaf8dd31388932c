import Kestrel.Packet.Frame
import Kestrel.Reliability.SendBuffer

/-! # Packetizer

PUSH frames are cut from the send buffer as far as the congestion window and the peer's window
permit. What was waiting before is the payloads cut off followed by what still waits, and the
frames carry consecutive sequence numbers.
-/

namespace Kestrel

structure PacketizerContext where
  peerCid : ℕ
  timestamp : ℕ
  congestionWindow : ℕ
  inFlightCount : ℕ
  peerRecvWindow : ℕ
  maxPayloadSize : ℕ
  ackInfo : ℕ × ℕ
  deriving DecidableEq, Repr

/-- The number of packets both windows permit. The count in flight is cut to 32 bits. -/
def PacketizerContext.permit (c : PacketizerContext) : ℕ :=
  min (c.congestionWindow - c.inFlightCount % u32Size) (c.peerRecvWindow - c.inFlightCount % u32Size)

/-- The PUSH frame for a chunk under a sequence number. -/
def PacketizerContext.frame (c : PacketizerContext) (seq : ℕ) (chunk : Bytes) : Frame :=
  .newPush c.peerCid seq c.ackInfo.1 c.ackInfo.2 c.timestamp chunk

/-- The sequence number after this one, in 32 bits. -/
def nextSeq (seq : ℕ) : ℕ := (seq + 1) % u32Size

/-- The loop of `packetize`: frames, the buffer left and the counter reached. -/
def packetizeLoop (c : PacketizerContext) : ℕ → SendBuffer → ℕ → List Frame × SendBuffer × ℕ
  | 0, b, counter => ([], b, counter)
  | rounds + 1, b, counter =>
    if b.isStreamBufferEmpty then ([], b, counter)
    else
      match b.createChunk c.maxPayloadSize with
      | (none, b) => ([], b, counter)
      | (some chunk, b) =>
        let (frames, b, counter') := packetizeLoop c rounds b (nextSeq counter)
        (c.frame counter chunk :: frames, b, counter')

/-- Cuts as many PUSH frames as permitted, after a given first frame. -/
def packetize (c : PacketizerContext) (b : SendBuffer) (counter : ℕ)
    (prependFrame : Option Frame) : List Frame × SendBuffer × ℕ :=
  let (frames, b, counter) := packetizeLoop c c.permit b counter
  (prependFrame.toList ++ frames, b, counter)

/-- Adds frames to the packet being filled; a full packet is closed and the next one begun. -/
def fillPackets (maxPacketSize : ℕ) : List Frame → ℕ → List Frame → List (List Frame)
  | current, _, [] => if current.isEmpty then [] else [current]
  | current, size, f :: fs =>
    if size + f.encodedSize ≤ maxPacketSize then
      fillPackets maxPacketSize (current ++ [f]) (size + f.encodedSize) fs
    else current :: fillPackets maxPacketSize [f] f.encodedSize fs

/-- The datagrams that carry the SYN-ACK, first, and the PUSH frames; `none` where the code
asserts that the SYN-ACK fits into a packet and it does not. -/
def zeroRttPackets (synAckFrame : Frame) (maxPacketSize : ℕ) (pushFrames : List Frame) :
    Option (List (List Frame)) :=
  if pushFrames.isEmpty then some [[synAckFrame]]
  else if synAckFrame.encodedSize ≤ maxPacketSize then
    some (fillPackets maxPacketSize [synAckFrame] synAckFrame.encodedSize pushFrames)
  else none

theorem packetizeLoop_of_exhausted {c : PacketizerContext} {n : ℕ} {b : SendBuffer}
    (h : n = 0 ∨ b.isStreamBufferEmpty = true) (counter : ℕ) :
    packetizeLoop c n b counter = ([], b, counter) := by
  cases n with
  | zero => rfl
  | succ n => rw [packetizeLoop, if_pos (h.resolve_left n.succ_ne_zero)]

theorem flatten_fillPackets (m : ℕ) (current : List Frame) (size : ℕ) (fs : List Frame) :
    (fillPackets m current size fs).flatten = current ++ fs := by
  induction fs generalizing current size with
  | nil => cases current <;> simp [fillPackets]
  | cons f fs ih =>
    rw [fillPackets]
    split
    · rw [ih, List.append_assoc, List.singleton_append]
    · rw [List.flatten_cons, ih, List.singleton_append]

theorem flatten_zeroRttPackets {s : Frame} {m : ℕ} {fs : List Frame} {ps : List (List Frame)}
    (h : zeroRttPackets s m fs = some ps) : ps.flatten = s :: fs := by
  unfold zeroRttPackets at h
  split at h
  · rename_i he
    cases h
    rw [List.isEmpty_iff.mp he]
    rfl
  · split at h
    · cases h
      rw [flatten_fillPackets, List.singleton_append]
    · cases h

/-- The frames of a packetizer for the given payloads, from a counter on. -/
def pushFrames (c : PacketizerContext) : ℕ → List Bytes → List Frame
  | _, [] => []
  | counter, chunk :: chunks => c.frame counter chunk :: pushFrames c (nextSeq counter) chunks

/-- The counter after a number of frames. -/
def counterAfter (counter : ℕ) : ℕ → ℕ
  | 0 => counter
  | n + 1 => counterAfter (nextSeq counter) n

theorem counterAfter_of_lt {counter n : ℕ} (h : counter + n < u32Size) :
    counterAfter counter n = counter + n := by
  induction n generalizing counter with
  | zero => rfl
  | succ n ih =>
    have hn : nextSeq counter = counter + 1 := Nat.mod_eq_of_lt (by omega)
    rw [counterAfter, hn, ih (by omega)]
    omega

@[simp] theorem length_pushFrames (c : PacketizerContext) (counter : ℕ) (chunks : List Bytes) :
    (pushFrames c counter chunks).length = chunks.length := by
  induction chunks generalizing counter with
  | nil => rfl
  | cons chunk chunks ih => rw [pushFrames, List.length_cons, ih, List.length_cons]

theorem mem_pushFrames {c : PacketizerContext} {counter : ℕ} {chunks : List Bytes} {f : Frame} :
    f ∈ pushFrames c counter chunks ↔
      ∃ n chunk, chunks[n]? = some chunk ∧ f = c.frame (counterAfter counter n) chunk := by
  induction chunks generalizing counter with
  | nil => simp [pushFrames]
  | cons chunk chunks ih =>
    rw [pushFrames, List.mem_cons, ih]
    constructor
    · rintro (rfl | ⟨n, p, hp, rfl⟩)
      · exact ⟨0, chunk, rfl, rfl⟩
      · exact ⟨n + 1, p, hp, rfl⟩
    · rintro ⟨_ | n, p, hp, rfl⟩
      · cases hp
        exact Or.inl rfl
      · exact Or.inr ⟨n, p, hp, rfl⟩

/-- The payloads of the PUSH frames of a list. -/
def payloadsOf (frames : List Frame) : List Bytes :=
  frames.filterMap fun f => f.pushData.map Prod.snd

@[simp] theorem payloadsOf_pushFrames (c : PacketizerContext) (counter : ℕ)
    (chunks : List Bytes) : payloadsOf (pushFrames c counter chunks) = chunks := by
  induction chunks generalizing counter with
  | nil => rfl
  | cons chunk chunks ih =>
    exact congrArg (chunk :: ·) (ih (nextSeq counter))

/-- What packetizing a buffer does, told by the payloads it cuts off. -/
structure Packetized (c : PacketizerContext) (b : SendBuffer) (chunks : List Bytes)
    (b' : SendBuffer) : Prop where
  bytes_eq : 1 ≤ c.maxPayloadSize → b.bytes = chunks.flatten ++ b'.bytes
  length_le : chunks.length ≤ c.permit
  fits : ∀ p ∈ chunks, 0 < p.length ∧ p.length ≤ c.maxPayloadSize
  capacity_eq : b'.streamBufferCapacity = b.streamBufferCapacity
  wf : 1 ≤ c.maxPayloadSize → b.WF → b'.WF
  drained : chunks.length < c.permit → b'.streamBuffer = []
  packets_eq : 1 ≤ c.maxPayloadSize → SendBuffer.packetsOf c.maxPayloadSize b.streamBuffer =
    chunks.length + SendBuffer.packetsOf c.maxPayloadSize b'.streamBuffer
  room : b.Within → b'.Within ∧
    chunks.flatten.length + b'.streamBufferSize = b.streamBufferSize

theorem packetizeLoop_room (c : PacketizerContext) {n : ℕ} {b b' : SendBuffer}
    {counter counter' : ℕ} {frames : List Frame}
    (h : packetizeLoop c n b counter = (frames, b', counter')) (hb : b.Within) :
    b'.Within ∧ (payloadsOf frames).flatten.length + b'.streamBufferSize = b.streamBufferSize := by
  induction n generalizing b counter frames with
  | zero =>
    obtain ⟨rfl, rfl, rfl⟩ := h
    exact ⟨hb, Nat.zero_add _⟩
  | succ n ih =>
    rw [packetizeLoop] at h
    split at h
    · obtain ⟨rfl, rfl, rfl⟩ := h
      exact ⟨hb, Nat.zero_add _⟩
    · split at h
      · rename_i b₁ hc
        obtain ⟨rfl, rfl, rfl⟩ := h
        exact hb.createChunk hc
      · rename_i chunk b₁ hc
        generalize hl : packetizeLoop c n b₁ (nextSeq counter) = r at h
        obtain ⟨frames', b₂, counter''⟩ := r
        obtain ⟨rfl, rfl, rfl⟩ := h
        obtain ⟨hb₁, hsize⟩ := hb.createChunk hc
        obtain ⟨hb₂, hrest⟩ := ih hl hb₁
        have hpay : payloadsOf (c.frame counter chunk :: frames') = chunk :: payloadsOf frames' :=
          rfl
        refine ⟨hb₂, ?_⟩
        rw [hpay, List.flatten_cons, List.length_append]
        simp only [Option.getD_some] at hsize
        omega

theorem packetizeLoop_spec (c : PacketizerContext) {n : ℕ} {b b' : SendBuffer}
    {counter counter' : ℕ} {frames : List Frame}
    (h : packetizeLoop c n b counter = (frames, b', counter')) :
    ∃ chunks, frames = pushFrames c counter chunks ∧
      counter' = counterAfter counter chunks.length ∧
      (1 ≤ c.maxPayloadSize → b.bytes = chunks.flatten ++ b'.bytes) ∧ chunks.length ≤ n ∧
      (∀ p ∈ chunks, 0 < p.length ∧ p.length ≤ c.maxPayloadSize) ∧
      b'.streamBufferCapacity = b.streamBufferCapacity ∧
      (1 ≤ c.maxPayloadSize → b.WF → b'.WF) ∧ (chunks.length < n → b'.streamBuffer = []) ∧
      (1 ≤ c.maxPayloadSize → SendBuffer.packetsOf c.maxPayloadSize b.streamBuffer =
        chunks.length + SendBuffer.packetsOf c.maxPayloadSize b'.streamBuffer) := by
  induction n generalizing b counter frames with
  | zero =>
    obtain ⟨rfl, rfl, rfl⟩ := h
    exact ⟨[], rfl, rfl, by simp, le_rfl, by simp, rfl, fun _ h => h, by simp, by simp⟩
  | succ n ih =>
    rw [packetizeLoop] at h
    split at h
    · rename_i he
      obtain ⟨rfl, rfl, rfl⟩ := h
      exact ⟨[], rfl, rfl, by simp, by simp, by simp, rfl, fun _ h => h,
        fun _ => List.isEmpty_iff.mp he, by simp⟩
    · split at h
      · rename_i b₁ hc
        obtain ⟨rfl, rfl, rfl⟩ := h
        obtain ⟨hn, hb⟩ := SendBuffer.createChunk_none hc
        have hcap := SendBuffer.createChunk_capacity (b := b) c.maxPayloadSize
        have hwf := fun hm (hw : b.WF) => hw.createChunk (m := c.maxPayloadSize) hm
        rw [hc] at hcap hwf
        exact ⟨[], rfl, rfl, fun hm => by rw [hb hm, SendBuffer.bytes, hn]; rfl, by simp,
          by simp, hcap, hwf, fun _ => hn, fun hm => SendBuffer.packetsOf_createChunk hm hc⟩
      · rename_i chunk b₁ hc
        generalize hl : packetizeLoop c n b₁ (nextSeq counter) = r at h
        obtain ⟨frames', b₂, counter''⟩ := r
        obtain ⟨rfl, rfl, rfl⟩ := h
        obtain ⟨chunks, rfl, hcnt, hb, hle, hfit, hcap, hwf, hdr, hpk⟩ := ih hl
        obtain ⟨hp, hm, hb₁⟩ := SendBuffer.createChunk_some hc
        have hcap₁ := SendBuffer.createChunk_capacity (b := b) c.maxPayloadSize
        have hwf₁ := fun hm (hw : b.WF) => hw.createChunk (m := c.maxPayloadSize) hm
        rw [hc] at hcap₁ hwf₁
        refine ⟨chunk :: chunks, rfl, hcnt, fun h1 => ?_, by simpa using hle, ?_,
          hcap.trans hcap₁, fun h1 hw => hwf h1 (hwf₁ h1 hw), fun hlt => hdr ?_,
          fun h1 => ?_⟩
        · rw [hb₁ h1, hb h1, List.flatten_cons, List.append_assoc]
        · rintro p hp'
          rcases List.mem_cons.mp hp' with rfl | hp'
          · exact ⟨hp, hm⟩
          · exact hfit p hp'
        · simpa using hlt
        · have hone := SendBuffer.packetsOf_createChunk h1 hc
          rw [hpk h1] at hone
          rw [hone, List.length_cons]
          change 1 + _ = _
          omega

/-- Packetizing cuts payloads off the front of the buffer and numbers them consecutively. -/
theorem packetize_spec (c : PacketizerContext) (b : SendBuffer) (counter : ℕ)
    (prependFrame : Option Frame) : ∃ chunks b',
      packetize c b counter prependFrame =
        (prependFrame.toList ++ pushFrames c counter chunks, b',
          counterAfter counter chunks.length) ∧
      Packetized c b chunks b' := by
  generalize h : packetizeLoop c c.permit b counter = r
  obtain ⟨frames, b', counter'⟩ := r
  have hroom := packetizeLoop_room c h
  obtain ⟨chunks, rfl, rfl, hb, hle, hfit, hcap, hwf, hdr, hpk⟩ := packetizeLoop_spec c h
  rw [payloadsOf_pushFrames] at hroom
  exact ⟨chunks, b', by rw [packetize, h], ⟨hb, hle, hfit, hcap, hwf, hdr, hpk, hroom⟩⟩

theorem Packetized.bytes_eq_nil {c : PacketizerContext} {b b' : SendBuffer} {chunks : List Bytes}
    (h : Packetized c b chunks b') (hm : 1 ≤ c.maxPayloadSize) :
    b'.bytes = [] ↔ SendBuffer.packetsOf c.maxPayloadSize b.streamBuffer ≤ c.permit := by
  have hle := h.length_le
  rw [SendBuffer.bytes, ← SendBuffer.packetsOf_eq_zero hm, h.packets_eq hm]
  constructor
  · omega
  · intro hp
    rcases hle.lt_or_eq with hlt | heq
    · rw [h.drained hlt]
      rfl
    · omega

end Kestrel
