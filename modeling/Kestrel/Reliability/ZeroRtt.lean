import Kestrel.Reliability.SendWindow
import Kestrel.Reliability.Sizes

/-! # Packetizing with the SYN-ACK

The PUSH frames of a new connection are arranged in datagrams behind the SYN-ACK. They keep their
order, their numbers and their bytes, except where packets may hold no byte at all: then the
waiting chunks are dropped.
-/

namespace Kestrel

theorem exists_zeroRttPackets {s : Frame} {max : ℕ} (hs : s.encodedSize ≤ max) (fs : List Frame) :
    ∃ packets, zeroRttPackets s max fs = some packets := by
  unfold zeroRttPackets
  split_ifs
  · exact ⟨_, rfl⟩
  · exact ⟨_, rfl⟩

theorem begins_of_zeroRttPackets {s : Frame} {max : ℕ} {fs : List Frame}
    {packets : List (List Frame)} (h : zeroRttPackets s max fs = some packets) :
    ∃ first rest, packets = (s :: first) :: rest := by
  unfold zeroRttPackets at h
  split_ifs at h
  · cases h
    exact ⟨[], [], rfl⟩
  · cases h
    rw [← totalSize_singleton s, fillPackets_eq (by simp)]
    obtain ⟨_, gs, hfill, first, rfl⟩ :=
      Packing.exists_cons_fill Frame.encodedSize max [s] fs
    exact ⟨first, gs, by rw [hfill]; rfl⟩

theorem Packetized.chunks_eq_nil {c : PacketizerContext} {b b' : SendBuffer} {chunks : List Bytes}
    (h : Packetized c b chunks b') (hm : c.maxPayloadSize = 0) : chunks = [] := by
  rw [List.eq_nil_iff_forall_not_mem]
  intro p hp
  have hfit := h.fits p hp
  omega

/-- The waiting bytes are conserved exactly if packets may hold a byte, or none is permitted, or
nothing waits. -/
theorem bytes_packetize_iff {c : PacketizerContext} {b b' : SendBuffer} {chunks : List Bytes}
    {counter counter' : ℕ} {frames : List Frame} (h : Packetized c b chunks b')
    (he : packetize c b counter none = (frames, b', counter')) :
    b.bytes = chunks.flatten ++ b'.bytes ↔
      1 ≤ c.maxPayloadSize ∨ c.permit = 0 ∨ b.bytes = [] := by
  rcases Nat.eq_zero_or_pos c.maxPayloadSize with hm | hm
  · have hnil := h.chunks_eq_nil hm
    rcases Nat.eq_zero_or_pos c.permit with hp | hp
    · -- nothing is permitted, so nothing is touched
      rw [packetize, packetizeLoop_of_exhausted (Or.inl hp)] at he
      obtain ⟨-, rfl, -⟩ := he
      simp [hnil, hp]
    · have hdrained : b'.bytes = [] := by
        rw [SendBuffer.bytes, h.drained (by simpa [hnil] using hp), List.flatten_nil]
      simp [hnil, hdrained, hm, hp.ne']
  · exact iff_of_true (h.bytes_eq hm) (Or.inl hm)

namespace ReliabilityLayer

variable {C : Type} [CongestionControl C]

/-- The groups begin with the SYN-ACK; the frames behind it are PUSH frames that are numbered from
the counter on, kept for retransmission, and carry the bytes that left the buffer; no group is too
large. -/
structure ZeroRtt (l l' : ReliabilityLayer C) (synAckFrame : Frame) (maxPacketSize : ℕ)
    (packets : List (List Frame)) (frames : List Frame) : Prop where
  begins : ∃ first rest, packets = (synAckFrame :: first) :: rest
  flatten_eq : packets.flatten = synAckFrame :: frames
  pushes : ∀ f ∈ frames, ∃ header payload, f = .push header payload
  numbered : ∀ n f, frames[n]? = some f →
    f.sequenceNumber = some ((l.sequenceNumberCounter + n) % u32Size)
  counter_eq : l'.sequenceNumberCounter = (l.sequenceNumberCounter + frames.length) % u32Size
  bytes_eq : l.sendBuffer.bytes = (payloadsOf frames).flatten ++ l'.sendBuffer.bytes
  tracked : ∀ f ∈ frames, ∃ q i, f.sequenceNumber = some q ∧
    RetransmissionFrameInfo.fromFrame f = some i ∧
      l'.retransmissionManager.sackManager.info? q = some i
  fits : ∀ p ∈ packets, totalSize p ≤ maxPacketSize

variable {s : Frame} {window max : ℕ}

/-- The frames that are arranged behind the SYN-ACK. -/
def zeroRttFrames (l : ReliabilityLayer C) (peerCid window : ℕ) (now start : Instant) :
    List Frame :=
  (packetize (l.packetizerContext peerCid window now start) l.sendBuffer l.sequenceNumberCounter
    none).1

/-- With a SYN-ACK that fits, packetizing returns datagrams; told by the payloads cut off. -/
theorem exists_packetizeZeroRttStreamData (l : ReliabilityLayer C) (peerCid window : ℕ)
    (now start : Instant) (hq : s.sequenceNumber = none) (hs : s.encodedSize ≤ max) :
    ∃ packets l' chunks b',
      l.packetizeZeroRttStreamData peerCid window now start s max = some (packets, l') ∧
      Packetized (l.packetizerContext peerCid window now start) l.sendBuffer chunks b' ∧
      packetize (l.packetizerContext peerCid window now start) l.sendBuffer
        l.sequenceNumberCounter none = (pushFrames (l.packetizerContext peerCid window now start)
          l.sequenceNumberCounter chunks, b', counterAfter l.sequenceNumberCounter chunks.length) ∧
      zeroRttPackets s max (pushFrames (l.packetizerContext peerCid window now start)
        l.sequenceNumberCounter chunks) = some packets ∧
      l' = { l with
        sendBuffer := b'
        sequenceNumberCounter := counterAfter l.sequenceNumberCounter chunks.length
        packetized := l.packetized ++ chunks
        retransmissionManager := l.retransmissionManager.addAll
          (pushFrames (l.packetizerContext peerCid window now start)
            l.sequenceNumberCounter chunks) now } := by
  obtain ⟨chunks, b', he, hp⟩ := packetize_spec
    (l.packetizerContext peerCid window now start) l.sendBuffer l.sequenceNumberCounter none
  obtain ⟨packets, hz⟩ := exists_zeroRttPackets hs
    (pushFrames (l.packetizerContext peerCid window now start) l.sequenceNumberCounter chunks)
  simp only [Option.toList_none, List.nil_append] at he
  refine ⟨packets, _, chunks, b', ?_, hp, he, hz, rfl⟩
  rw [packetizeZeroRttStreamData, he]
  simp only [payloadsOf_pushFrames, hz, Option.map_some, flatten_zeroRttPackets hz, trackAll_eq]
  rw [RetransmissionManager.addAll, List.foldl_cons,
    RetransmissionManager.addInFlightPacket_of_sequenceNumber hq]
  rfl

/-- If every single frame fits into a packet, packetizing with a SYN-ACK does what it should
exactly if packets may hold a byte, or the windows permit none, or nothing waits. -/
theorem zeroRtt_iff (l : ReliabilityLayer C) (header : LongHeader) (peerCid : ℕ)
    (hc : l.sequenceNumberCounter < u32Size) (hw : window < u32Size) (now start : Instant)
    (hfits : ∀ f ∈ .synAck header :: l.zeroRttFrames peerCid window now start,
      f.encodedSize ≤ max) :
    (∃ packets l' frames,
      l.packetizeZeroRttStreamData peerCid window now start (.synAck header) max =
        some (packets, l') ∧ l.ZeroRtt l' (.synAck header) max packets frames) ↔
      1 ≤ l.config.connection.maxPayloadSize ∨
        min (CongestionControl.congestionWindow l.congestionControl) window ≤
          l.retransmissionManager.sackInFlightCount % u32Size ∨
        l.sendBuffer.bytes = [] := by
  obtain ⟨hs, hfits⟩ := List.forall_mem_cons.mp hfits
  obtain ⟨packets, l', chunks, b', hrun, hp, he, hz, rfl⟩ :=
    exists_packetizeZeroRttStreamData l peerCid window now start rfl hs
  rw [zeroRttFrames, he] at hfits
  have hpermit : (l.packetizerContext peerCid window now start).permit = 0 ↔
      min (CongestionControl.congestionWindow l.congestionControl) window ≤
        l.retransmissionManager.sackInFlightCount % u32Size := by
    simp only [PacketizerContext.permit, packetizerContext]
    omega
  have hconserved := bytes_packetize_iff hp he
  rw [hpermit] at hconserved
  refine Iff.trans ⟨?_, ?_⟩ hconserved
  · rintro ⟨packets', l'', frames, hrun', hzero⟩
    rw [hrun] at hrun'
    cases hrun'
    have hflat := hzero.flatten_eq
    rw [flatten_zeroRttPackets hz, List.cons.injEq] at hflat
    rw [hzero.bytes_eq, ← hflat.2, payloadsOf_pushFrames]
  · intro hbytes
    have hlen : chunks.length ≤ u32Size :=
      (hp.length_le.trans ((min_le_right _ _).trans (Nat.sub_le _ _))).trans hw.le
    refine ⟨packets, _, pushFrames (l.packetizerContext peerCid window now start)
      l.sequenceNumberCounter chunks, hrun, ?_⟩
    constructor
    · exact begins_of_zeroRttPackets hz
    · exact flatten_zeroRttPackets hz
    · intro f hf
      obtain ⟨n, p, -, rfl⟩ := mem_pushFrames.mp hf
      exact ⟨_, p, rfl⟩
    · exact fun n f hf => sequenceNumber_pushFrames hc hf
    · dsimp only
      rw [counterAfter_eq hc, length_pushFrames]
    · rw [payloadsOf_pushFrames]
      exact hbytes
    · exact fun f hf => RetransmissionManager.kept_of_mem_pushFrames hc hlen now hf
    · exact fun p hp => totalSize_le_of_mem_zeroRttPackets hz hs hfits hp

section Sample

/-- Two of three waiting chunks go out behind the SYN-ACK, one in each datagram. -/
theorem zeroRtt_sample :
    (∃ packets l' frames,
      pairLayer.packetizeZeroRttStreamData 1 2 10 0 (.newSynAck 1 2 1) 40 = some (packets, l') ∧
        pairLayer.ZeroRtt l' (.newSynAck 1 2 1) 40 packets frames) ↔
      1 ≤ pairLayer.config.connection.maxPayloadSize ∨
        min (CongestionControl.congestionWindow pairLayer.congestionControl) 2 ≤
          pairLayer.retransmissionManager.sackInFlightCount % u32Size ∨
        pairLayer.sendBuffer.bytes = [] :=
  zeroRtt_iff pairLayer _ 1 (by decide) (by decide) 10 0 (by decide)

def emptyConfig : Config := { connection := { maxPayloadSize := 0 } }

def emptyLayer : ReliabilityLayer Vegas :=
  { new emptyConfig (Vegas.new emptyConfig) with sendBuffer := .after 100 [.writeToStream [7]] }

/-- The byte that waits is dropped. -/
theorem zero_payload_drops_byte :
    emptyLayer.sendBuffer.bytes = [7] ∧
      (emptyLayer.packetizeZeroRttStreamData 1 2 10 0 (.newSynAck 1 2 1) 1350).map
        (fun r => (r.1, r.2.sendBuffer.bytes)) = some ([[.newSynAck 1 2 1]], []) ∧
      ¬ ∃ packets l' frames,
        emptyLayer.packetizeZeroRttStreamData 1 2 10 0 (.newSynAck 1 2 1) 1350 =
          some (packets, l') ∧
        emptyLayer.ZeroRtt l' (.newSynAck 1 2 1) 1350 packets frames := by
  have hwaits : emptyLayer.sendBuffer.bytes = [7] := by decide
  have hrun : (emptyLayer.packetizeZeroRttStreamData 1 2 10 0 (.newSynAck 1 2 1) 1350).map
      (fun r => (r.1, r.2.sendBuffer.bytes)) = some ([[.newSynAck 1 2 1]], []) := by decide
  refine ⟨hwaits, hrun, ?_⟩
  rintro ⟨packets, l', frames, hp, hzero⟩
  rw [hp, Option.map_some, Option.some.injEq, Prod.mk.injEq] at hrun
  obtain ⟨rfl, hempty⟩ := hrun
  have hflat : [Frame.newSynAck 1 2 1] = .newSynAck 1 2 1 :: frames := hzero.flatten_eq
  have hbytes := hzero.bytes_eq
  rw [hwaits, hempty, ← (List.cons.inj hflat).2] at hbytes
  cases hbytes

end Sample

end ReliabilityLayer

end Kestrel
