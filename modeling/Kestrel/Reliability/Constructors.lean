import Kestrel.Packet.Codec
import Kestrel.Reliability.Layer

/-! # Frames of the constructors

The constructors cut the length of a payload to the sixteen bits of its header field. A frame is
read back as itself exactly if that does not change the length; the callers do not see to it.
-/

namespace Kestrel

namespace Frame

/-- The header declares the payload that is written, and what is written is read back with nothing
left over. -/
structure RoundTrips (f : Frame) : Prop where
  length_matches : f.lengthMatches = true
  encode_eq : f.encode = some f.bytes
  decode_eq : decode f.bytes = some (f, [])

section Payload

variable {header : ShortHeader} {payload : Bytes} {frame : Bytes → Frame}

theorem decode_bytes_eq_iff (hf : header.Fits) (hc : header.command.isLongHeader = false)
    (hbytes : (frame payload).bytes = header.encode ++ payload)
    (hbody : ∀ cursor, decodeBody header cursor = some (frame (cursor.take header.payloadLength),
      cursor.drop header.payloadLength))
    (hle : header.payloadLength ≤ payload.length) :
    decode (frame payload).bytes = some (frame payload, []) ↔
      header.payloadLength = payload.length := by
  rw [hbytes, decode_of_short hc hf, if_neg (by omega), hbody]
  constructor
  · intro h
    have hdrop := List.drop_eq_nil_iff.mp (Prod.mk.inj (Option.some.inj h)).2
    omega
  · intro h
    rw [h, List.take_length, List.drop_length]

theorem mod_u16Size_eq_iff {n : ℕ} : n % u16Size = n ↔ n < u16Size := Nat.mod_eq_iff_lt (by decide)

theorem roundTrips_iff_of_decode {f : Frame} (h : decode f.bytes = some (f, []) ↔
    f.lengthMatches = true) : f.RoundTrips ↔ f.lengthMatches = true := by
  constructor
  · exact fun hr => hr.length_matches
  · exact fun hl => ⟨hl, if_pos hl, h.mpr hl⟩

end Payload

section Widths

variable {peerCid sequenceNumber recvNextSequence recvWindowSize timestamp : ℕ}
  (hcid : peerCid < u32Size) (hnext : recvNextSequence < u32Size)
  (hwindow : recvWindowSize < u16Size) (htime : timestamp < u32Size)
include hcid hnext hwindow htime

theorem decode_newPush_iff (hseq : sequenceNumber < u32Size) (payload : Bytes) :
    let f := newPush peerCid sequenceNumber recvNextSequence recvWindowSize timestamp payload
    (decode f.bytes = some (f, []) ↔ f.lengthMatches = true) ∧
      (f.lengthMatches = true ↔ payload.length < u16Size) := by
  have hfits : ShortHeader.Fits ⟨.push, peerCid, payload.length % u16Size, recvWindowSize, timestamp,
      sequenceNumber, recvNextSequence⟩ :=
    ⟨hcid, Nat.mod_lt _ (by decide), hwindow, htime, hseq, hnext⟩
  dsimp only [newPush, lengthMatches]
  rw [decide_eq_true_iff]
  exact ⟨decode_bytes_eq_iff hfits rfl rfl (fun _ => rfl) (Nat.mod_le _ _), mod_u16Size_eq_iff⟩

theorem decode_newAck_iff (ranges : List SackRange) :
    let f := newAck peerCid recvNextSequence recvWindowSize ranges timestamp
    (decode f.bytes = some (f, []) ↔ f.lengthMatches = true) ∧
      (f.lengthMatches = true ↔ ranges.length < 8192) := by
  have hfits : ShortHeader.Fits ⟨.ack, peerCid, (encodeSackRanges ranges).length % u16Size,
      recvWindowSize, timestamp, 0, recvNextSequence⟩ :=
    ⟨hcid, Nat.mod_lt _ (by decide), hwindow, htime, Nat.zero_lt_succ _, hnext⟩
  dsimp only [newAck, lengthMatches]
  rw [decide_eq_true_iff]
  refine ⟨decode_bytes_eq_iff hfits rfl rfl (fun _ => rfl) (Nat.mod_le _ _), ?_⟩
  rw [mod_u16Size_eq_iff, length_encodeSackRanges]
  simp only [u16Size]
  omega

/-- A PUSH of the constructor is read back exactly if its payload has fewer than `2 ^ 16` bytes, an
ACK exactly if it names fewer than `2 ^ 13` ranges; with and without the assertions of the
encoder. -/
theorem constructors_roundTrip_iff :
    (∀ sequenceNumber < u32Size, ∀ payload : Bytes,
      let f := newPush peerCid sequenceNumber recvNextSequence recvWindowSize timestamp payload
      (f.RoundTrips ↔ payload.length < u16Size) ∧
        (decode f.bytes = some (f, []) ↔ payload.length < u16Size)) ∧
    ∀ ranges : List SackRange,
      let f := newAck peerCid recvNextSequence recvWindowSize ranges timestamp
      (f.RoundTrips ↔ ranges.length < 8192) ∧
        (decode f.bytes = some (f, []) ↔ ranges.length < 8192) := by
  constructor
  · intro q hq payload
    obtain ⟨hdecode, hlength⟩ := decode_newPush_iff hcid hnext hwindow htime hq payload
    exact ⟨(roundTrips_iff_of_decode hdecode).trans hlength, hdecode.trans hlength⟩
  · intro ranges
    obtain ⟨hdecode, hlength⟩ := decode_newAck_iff hcid hnext hwindow htime ranges
    exact ⟨(roundTrips_iff_of_decode hdecode).trans hlength, hdecode.trans hlength⟩

end Widths

end Frame

theorem packetize_singleton {c : PacketizerContext} {b : SendBuffer} {p : Bytes}
    (hb : b.streamBuffer = [p]) (hpos : 0 < p.length) (hle : p.length ≤ c.maxPayloadSize)
    (hpermit : 0 < c.permit) (counter : ℕ) :
    (packetize c b counter none).1 = [c.frame counter p] := by
  obtain ⟨n, hn⟩ := Nat.exists_eq_succ_of_ne_zero hpermit.ne'
  have hchunk : b.createChunk c.maxPayloadSize =
      (some p, { b with
        streamBuffer := [], streamBufferSize := b.streamBufferSize - p.length }) := by
    have hmin : min p.length c.maxPayloadSize = p.length := min_eq_left hle
    simp [SendBuffer.createChunk, hb, SendBuffer.cutChunk, hmin, hpos.ne']
  rw [packetize, hn, packetizeLoop, if_neg (by simp [SendBuffer.isStreamBufferEmpty, hb]), hchunk]
  dsimp only
  rw [packetizeLoop_of_exhausted (Or.inr rfl)]
  rfl

theorem streamBuffer_writeToStream_new {capacity : ℕ} {p : Bytes} (hpos : 0 < p.length)
    (hle : p.length ≤ capacity) :
    ((SendBuffer.new capacity).writeToStream p).2.streamBuffer = [p] := by
  have hspace : (SendBuffer.new capacity).spaceAvailable = capacity := rfl
  rw [SendBuffer.writeToStream, hspace, if_neg (by omega)]
  simp [SendBuffer.new, min_eq_left hle]

section Sample

open Kestrel.Frame

/-- A payload of eleven bytes and two ranges are within the limits. -/
theorem constructors_roundTrip_sample :
    (∀ sequenceNumber < u32Size, ∀ payload : Bytes,
      let f := newPush 12345 sequenceNumber 50 1024 54321 payload
      (f.RoundTrips ↔ payload.length < u16Size) ∧
        (decode f.bytes = some (f, []) ↔ payload.length < u16Size)) ∧
    ∀ ranges : List SackRange,
      let f := newAck 12345 50 1024 ranges 54321
      (f.RoundTrips ↔ ranges.length < 8192) ∧
        (decode f.bytes = some (f, []) ↔ ranges.length < 8192) :=
  constructors_roundTrip_iff (by decide) (by decide) (by decide) (by decide)

/-- Packets that may hold one byte more than the header can declare. -/
def jumboConfig : Config := { connection := { maxPayloadSize := u16Size, maxPacketSize := 70000 } }

/-- A layer to which a payload has been written. -/
def jumboLayer (payload : Bytes) : ReliabilityLayer Vegas :=
  ((ReliabilityLayer.new jumboConfig (.new jumboConfig)).writeToStream payload).2

theorem packetizeStreamData_jumboLayer {payload : Bytes} (h : payload.length = u16Size) :
    ((jumboLayer payload).packetizeStreamData 1 1 0 0 none).1 =
      [newPush 1 0 0 256 0 payload] := by
  have hpos : 0 < payload.length := by
    rw [h]
    decide
  have hle : payload.length ≤ jumboConfig.connection.sendBufferCapacityBytes := by
    rw [h]
    decide
  have hbuffer : (jumboLayer payload).sendBuffer.streamBuffer = [payload] :=
    streamBuffer_writeToStream_new hpos hle
  have hpermit : ((jumboLayer payload).packetizerContext 1 1 0 0).permit = 1 := by
    simp [jumboLayer, ReliabilityLayer.writeToStream, ReliabilityLayer.new,
      ReliabilityLayer.packetizerContext, PacketizerContext.permit]
    decide
  exact packetize_singleton hbuffer hpos h.le (by rw [hpermit]; decide) 0

/-- A payload of `2 ^ 16` bytes goes out in one PUSH whose header declares no payload; the
assertion of the encoder fails, and without it the frame is not read back. -/
theorem jumbo_not_read_back : ∃ payload : Bytes, payload.length = u16Size ∧
    ((jumboLayer payload).packetizeStreamData 1 1 0 0 none).1 =
      [newPush 1 0 0 256 0 payload] ∧
    (newPush 1 0 0 256 0 payload).encode = none ∧
    ¬ (newPush 1 0 0 256 0 payload).RoundTrips ∧
    decode (newPush 1 0 0 256 0 payload).bytes ≠ some (newPush 1 0 0 256 0 payload, []) := by
  obtain ⟨payload, hlen⟩ : ∃ payload : Bytes, payload.length = u16Size :=
    ⟨List.replicate u16Size 7, List.length_replicate⟩
  have hread : (decode (newPush 1 0 0 256 0 payload).bytes =
      some (newPush 1 0 0 256 0 payload, []) ↔ _) ∧ _ :=
    decode_newPush_iff (by decide) (by decide) (by decide) (by decide) (by decide) payload
  have hlength : ¬ (newPush 1 0 0 256 0 payload).lengthMatches = true := by
    rw [hread.2, hlen]
    exact lt_irrefl _
  exact ⟨payload, hlen, packetizeStreamData_jumboLayer hlen, if_neg hlength,
    fun h => hlength h.length_matches, fun h => hlength (hread.1.mp h)⟩

end Sample

end Kestrel
