import Kestrel.Endpoint.Actions
import Kestrel.Reliability.Sizes

/-! # Data in the first packet

A client can give data along that is sent with its SYN in one packet. The size of this packet is
checked when the data is wrapped, with the configuration at hand, and asserted when the packet is
sent, with the configuration of the connection. The first packet holds what the windows permit of
what the send buffer took.
-/

namespace Kestrel

inductive InitialDataError where
  | initialDataTooLarge
  | panic (message : String)
  deriving DecidableEq, Repr

structure InitialData where
  bytes : Bytes
  deriving DecidableEq, Repr

/-- Data that fits into one packet together with a SYN, after it was cut into PUSH frames. -/
def InitialData.new (data : Bytes) (config : Config) : Except InitialDataError InitialData :=
  if data.isEmpty then .ok ⟨[]⟩
  else if config.connection.maxPayloadSize = 0 then .error (.panic "attempt to divide by zero")
  else
    let synOverhead := 1 + LongHeader.encodedSize
    let maxPayloadPerPush := config.connection.maxPayloadSize
    let numPushFrames := (data.length + maxPayloadPerPush - 1) / maxPayloadPerPush
    let pushHeaderOverhead := numPushFrames * (1 + ShortHeader.encodedSize)
    let totalSize := synOverhead + pushHeaderOverhead + data.length
    if totalSize > config.connection.maxPacketSize then .error .initialDataTooLarge
    else .ok ⟨data⟩

theorem InitialData.bytes_of_new {data : Bytes} {config : Config} {d : InitialData}
    (h : new data config = .ok d) : d.bytes = data := by
  unfold new at h
  split at h
  · rename_i he
    cases h
    exact (List.isEmpty_iff.mp he).symm
  · split at h
    · cases h
    · dsimp only at h
      split at h <;> cases h
      rfl

theorem totalSize_pushFrames (c : PacketizerContext) (counter : ℕ) (chunks : List Bytes) :
    totalSize (pushFrames c counter chunks) =
      chunks.length * (1 + ShortHeader.encodedSize) + chunks.flatten.length := by
  induction chunks generalizing counter with
  | nil => rfl
  | cons chunk chunks ih =>
    have hcons : totalSize (pushFrames c counter (chunk :: chunks)) =
        pushSize chunk.length + totalSize (pushFrames c (nextSeq counter) chunks) := rfl
    rw [hcons, ih, pushSize, List.length_cons, List.flatten_cons, List.length_append]
    ring

/-- The buffer holds bytes that were written at once, if any. -/
def SendBuffer.HoldsOnce (b : SendBuffer) (d : Bytes) : Prop :=
  b.streamBuffer = [d] ∨ b.streamBuffer = [] ∧ d = []

theorem SendBuffer.HoldsOnce.createChunk {b : SendBuffer} {d : Bytes} (h : b.HoldsOnce d)
    (m : ℕ) : (d = [] ∨ m = 0) ∧ (b.createChunk m).1 = none ∨
      ∃ b', b.createChunk m = (some (d.take m), b') ∧ b'.HoldsOnce (d.drop m) := by
  unfold SendBuffer.createChunk
  rcases h with h | ⟨h, rfl⟩
  · rw [h]
    by_cases hzero : min d.length m = 0
    · left
      constructor
      · simpa [Nat.min_eq_zero_iff] using hzero
      · simp [cutChunk, hzero]
    · right
      by_cases hle : d.length ≤ m
      · have hall : cutChunk m [d] = (some d, []) := by
          rw [cutChunk, if_neg hzero, if_pos (by omega)]
        rw [hall, List.take_of_length_le hle]
        exact ⟨_, rfl, Or.inr ⟨rfl, List.drop_eq_nil_of_le hle⟩⟩
      · have hmin : min d.length m = m := by omega
        have hpart : cutChunk m [d] = (some (d.take m), [d.drop m]) := by
          rw [cutChunk, if_neg hzero, hmin, if_neg hle]
        rw [hpart]
        exact ⟨_, rfl, Or.inl rfl⟩
  · left
    rw [h]
    exact ⟨Or.inl rfl, rfl⟩

/-- Full packets are cut off what was written at once, and then a rest. -/
theorem flatten_packetizeLoop (c : PacketizerContext) (n counter : ℕ) {b : SendBuffer} {d : Bytes}
    (h : b.HoldsOnce d) :
    (payloadsOf (packetizeLoop c n b counter).1).flatten = d.take (n * c.maxPayloadSize) := by
  induction n generalizing b d counter with
  | zero => simp [packetizeLoop, payloadsOf]
  | succ n ih =>
    have hmul : (n + 1) * c.maxPayloadSize = c.maxPayloadSize + n * c.maxPayloadSize := by ring
    rw [packetizeLoop]
    split
    · rename_i he
      have hd : d = [] := by
        rcases h with h | ⟨-, hd⟩
        · simp [SendBuffer.isStreamBufferEmpty, h] at he
        · exact hd
      simp [hd, payloadsOf]
    · rcases h.createChunk c.maxPayloadSize with ⟨hnone, hc⟩ | ⟨b', hc, hb'⟩
      · split
        · rcases hnone with hd | hm
          · simp [hd, payloadsOf]
          · simp [hm, payloadsOf]
        · rename_i heq
          rw [heq] at hc
          cases hc
      · rw [hc]
        have hcons (seq : ℕ) (fs : List Frame) :
            payloadsOf (c.frame seq (d.take c.maxPayloadSize) :: fs) =
              d.take c.maxPayloadSize :: payloadsOf fs := rfl
        dsimp only
        rw [hcons, List.flatten_cons, ih _ hb', hmul, List.take_add]

theorem SendBuffer.HoldsOnce.packetsOf {b : SendBuffer} {d : Bytes} (h : b.HoldsOnce d) {m : ℕ}
    (hm : 1 ≤ m) : packetsOf m b.streamBuffer = (d.length + m - 1) / m := by
  rcases h with h | ⟨h, rfl⟩
  · simp [SendBuffer.packetsOf, h]
  · rw [h, List.length_nil, Nat.zero_add, Nat.div_eq_of_lt (Nat.sub_lt hm one_pos)]
    rfl

theorem Packetized.length_eq {c : PacketizerContext} {b b' : SendBuffer} {chunks : List Bytes}
    (h : Packetized c b chunks b') {d : Bytes} (hb : b.HoldsOnce d) :
    chunks.length = min ((d.length + c.maxPayloadSize - 1) / c.maxPayloadSize) c.permit := by
  have hle := h.length_le
  rcases Nat.eq_zero_or_pos c.maxPayloadSize with hm | hm
  · have hnil : chunks = [] := by
      rw [List.eq_nil_iff_forall_not_mem]
      intro p hp
      have hfits := h.fits p hp
      omega
    rw [hnil, hm, Nat.div_zero]
    simp
  · have hpackets := h.packets_eq hm
    rw [hb.packetsOf hm] at hpackets
    rcases hle.lt_or_eq with hlt | heq
    · have hdrained : SendBuffer.packetsOf c.maxPayloadSize b'.streamBuffer = 0 := by
        rw [h.drained hlt]
        rfl
      omega
    · omega

/-- The size of the first packet of a client for data of a given length: what the send buffer takes
of it is cut into packets as long as the windows permit them. -/
def Config.firstPacketSize (config : Config) (cwnd len : ℕ) : ℕ :=
  let accepted := min len config.connection.sendBufferCapacityBytes
  let m := config.connection.maxPayloadSize
  let window := min cwnd 32
  1 + LongHeader.encodedSize +
    min ((accepted + m - 1) / m) window * (1 + ShortHeader.encodedSize) + min (window * m) accepted

namespace Endpoint

variable {C : Type} {e : Endpoint C} {t : Tick}

/-- The endpoint that is made for a connection with data of its own. -/
def connectWithConfig (remoteAddr : SocketAddr) (config : Config)
    (initialData : Option InitialData) (localCid : ℕ) (cc : C) (t : Tick) : Endpoint C :=
  newClient config remoteAddr localCid cc (initialData.map InitialData.bytes) t

theorem holdsOnce_newClient (config : Config) (remoteAddr : SocketAddr) (localCid : ℕ) (cc : C)
    (data : Bytes) (t : Tick) :
    (newClient config remoteAddr localCid cc (some data) t).reliability.sendBuffer.HoldsOnce
      (data.take config.connection.sendBufferCapacityBytes) := by
  change (SendBuffer.writeToStream (.new config.connection.sendBufferCapacityBytes)
    data).2.HoldsOnce _
  unfold SendBuffer.writeToStream
  split
  · rename_i hz
    right
    have hcap : config.connection.sendBufferCapacityBytes = 0 := hz
    simp [SendBuffer.new, hcap]
  · left
    simp [SendBuffer.new, SendBuffer.spaceAvailable, min_comm]

variable [CongestionControl C]

/-- The SYN and all PUSH frames that are cut go out in one packet of limited size. -/
structure OpensInOnePacket (t : Tick) (e : Endpoint C) : Prop where
  sends : e.sendInitialSyn t = sending t (e.packetizeStream t).2
    [⟨e.remoteAddr, e.createSynFrame :: (e.packetizeStream t).1⟩]
  size_le : totalSize (e.createSynFrame :: (e.packetizeStream t).1) ≤
    e.config.connection.maxPacketSize

theorem packetizeStream_of_holdsOnce {d : Bytes} (h : e.reliability.sendBuffer.HoldsOnce d)
    (m window : ℕ) (hm : (e.packetizerContext t).maxPayloadSize = m)
    (hw : (e.packetizerContext t).permit = window) :
    totalSize (e.packetizeStream t).1 =
        min ((d.length + m - 1) / m) window * (1 + ShortHeader.encodedSize) +
          min (window * m) d.length ∧
      (payloadsOf (e.packetizeStream t).1).flatten = d.take (window * m) := by
  obtain ⟨chunks, b, hp, he⟩ := packetizeStream_eq (t := t) (e := e)
  have hloop : (e.packetizeStream t).1 = (packetizeLoop (e.packetizerContext t)
      (e.packetizerContext t).permit e.reliability.sendBuffer
      e.reliability.sequenceNumberCounter).1 := rfl
  have hflat := flatten_packetizeLoop (e.packetizerContext t) (e.packetizerContext t).permit
    e.reliability.sequenceNumberCounter h
  have hlen := hp.length_eq h
  rw [← hloop, he, pushes, payloadsOf_pushFrames, hw, hm] at hflat
  rw [hm, hw] at hlen
  rw [he]
  dsimp only
  rw [pushes, totalSize_pushFrames, payloadsOf_pushFrames, hlen, hflat, List.length_take]
  exact ⟨rfl, rfl⟩

theorem totalSize_firstPacket (config : Config) (remoteAddr : SocketAddr) (localCid : ℕ) (cc : C)
    (data : Bytes) (t₀ t : Tick)
    (he : newClient config remoteAddr localCid cc (some data) t₀ = e) :
    totalSize (e.createSynFrame :: (e.packetizeStream t).1) =
        config.firstPacketSize (CongestionControl.congestionWindow cc) data.length ∧
      (payloadsOf (e.packetizeStream t).1).flatten =
        (data.take config.connection.sendBufferCapacityBytes).take
          (min (CongestionControl.congestionWindow cc) 32 * config.connection.maxPayloadSize) := by
  subst he
  have hhold := holdsOnce_newClient config remoteAddr localCid cc data t₀
  obtain ⟨hsize, hflat⟩ := packetizeStream_of_holdsOnce (t := t) hhold
    config.connection.maxPayloadSize (min (CongestionControl.congestionWindow cc) 32) rfl rfl
  rw [List.length_take, min_comm config.connection.sendBufferCapacityBytes] at hsize
  refine ⟨?_, hflat⟩
  calc
    _ = 1 + LongHeader.encodedSize + totalSize (packetizeStream t
        (newClient config remoteAddr localCid cc (some data) t₀)).1 := rfl
    _ = _ := by
      rw [hsize, Config.firstPacketSize]
      omega

/-- Data that was accepted with the sizes of the connection fits, unless there is none. -/
theorem firstPacketSize_le_of_new {c₁ c₂ : Config} {data : Bytes} {d : InitialData}
    (h : InitialData.new data c₁ = .ok d) (hne : data ≠ [])
    (hpayload : c₂.connection.maxPayloadSize = c₁.connection.maxPayloadSize)
    (hpacket : c₂.connection.maxPacketSize = c₁.connection.maxPacketSize) (cwnd : ℕ) :
    c₂.firstPacketSize cwnd data.length ≤ c₂.connection.maxPacketSize := by
  have hfits : 1 + LongHeader.encodedSize + (data.length + c₁.connection.maxPayloadSize - 1) /
      c₁.connection.maxPayloadSize * (1 + ShortHeader.encodedSize) + data.length ≤
        c₁.connection.maxPacketSize := by
    unfold InitialData.new at h
    rw [if_neg (by simpa using hne)] at h
    split at h
    · cases h
    · dsimp only at h
      split at h
      · cases h
      · omega
  rw [Config.firstPacketSize, hpayload, hpacket]
  refine le_trans ?_ hfits
  gcongr
  · refine (min_le_left _ _).trans (Nat.div_le_div_right ?_)
    omega
  · omega

theorem opensInOnePacket_iff : e.OpensInOnePacket t ↔
    totalSize (e.createSynFrame :: (e.packetizeStream t).1) ≤
      e.config.connection.maxPacketSize := by
  refine ⟨fun h => h.size_le, fun hle => ⟨?_, hle⟩⟩
  have haddr : (e.packetizeStream t).2.remoteAddr = e.remoteAddr := rfl
  have hsend : e.sendInitialSyn t = (e.packetizeStream t).2.sendRawFrames t
      (e.createSynFrame :: (e.packetizeStream t).1) := if_pos hle
  rw [hsend, sendRawFrames_eq]
  simp [batches, haddr]

theorem sendInitialSyn_aborts (h : ¬ totalSize (e.createSynFrame :: (e.packetizeStream t).1) ≤
    e.config.connection.maxPacketSize) :
    ∃ message, e.sendInitialSyn t = .error (.panic message, e) := by
  unfold sendInitialSyn
  split
  rename_i pushFrames packetized heq
  rw [heq, totalSize] at h
  dsimp only at h ⊢
  rw [if_neg h]
  exact ⟨_, rfl⟩

/-- The first packet of a client with data of its own is sent exactly if its size, by the
configuration of the connection, is within the limit; it carries the first of the data. -/
theorem initial_data_sent_iff (c₁ : Config) (data : Bytes) (d : InitialData)
    (h : InitialData.new data c₁ = .ok d) (remoteAddr : SocketAddr) (c₂ : Config) (localCid : ℕ)
    (cc : C) (t₀ t : Tick) :
    ((connectWithConfig remoteAddr c₂ (some d) localCid cc t₀).OpensInOnePacket t ↔
      c₂.firstPacketSize (CongestionControl.congestionWindow cc) data.length ≤
        c₂.connection.maxPacketSize) ∧
    (payloadsOf ((connectWithConfig remoteAddr c₂ (some d) localCid cc t₀).packetizeStream
        t).1).flatten =
      (data.take c₂.connection.sendBufferCapacityBytes).take
        (min (CongestionControl.congestionWindow cc) 32 * c₂.connection.maxPayloadSize) := by
  rw [← InitialData.bytes_of_new h]
  obtain ⟨hsize, hflat⟩ := totalSize_firstPacket c₂ remoteAddr localCid cc d.bytes t₀ t rfl
  refine ⟨?_, hflat⟩
  rw [opensInOnePacket_iff]
  exact iff_of_eq (congrArg (· ≤ c₂.connection.maxPacketSize) hsize)

section Sample

/-- Packets of eight bytes, and a first packet that holds one. -/
def wrapConfig : Config := { connection := { maxPayloadSize := 8, maxPacketSize := 50 } }

/-- Datagrams of the same size, but packets of four bytes. -/
def splitConfig : Config := { connection := { maxPayloadSize := 4, maxPacketSize := 50 } }

def sampleData : InitialData := ⟨[1, 2, 3, 4, 5, 6, 7, 8]⟩

def startTick : Tick := ⟨0, 0, 0, true, true⟩

def sampleOpening (config : Config) : Endpoint Vegas :=
  connectWithConfig 80 config (some sampleData) 1 (Vegas.new config) startTick

theorem initial_data_sent_sample : (sampleOpening wrapConfig).OpensInOnePacket startTick :=
  (initial_data_sent_iff wrapConfig sampleData.bytes sampleData rfl 80 wrapConfig 1
    (Vegas.new wrapConfig) startTick startTick).1.mpr (by decide)

/-- Data that was accepted with one configuration aborts a client with another one, which cuts it
into two frames. -/
theorem split_data_aborts : InitialData.new sampleData.bytes wrapConfig = .ok sampleData ∧
    ¬ (sampleOpening splitConfig).OpensInOnePacket startTick ∧
      ∃ message, (sampleOpening splitConfig).sendInitialSyn startTick =
        .error (.panic message, sampleOpening splitConfig) := by
  have hsize : ¬ totalSize ((sampleOpening splitConfig).createSynFrame ::
      (packetizeStream startTick (sampleOpening splitConfig)).1) ≤
        (sampleOpening splitConfig).config.connection.maxPacketSize := by decide
  refine ⟨rfl, ?_, ?_⟩
  · rw [opensInOnePacket_iff]
    exact hsize
  · exact sendInitialSyn_aborts hsize

end Sample

end Endpoint

end Kestrel
