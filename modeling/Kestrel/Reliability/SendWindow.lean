import Kestrel.Reliability.Range

/-! # The send window

What is in flight stays within the congestion window and the window of the peer, unless it was
beyond them before. The packets that are cut are numbered one after the other and kept for
retransmission, and no byte of the buffer is lost, however it was filled and cut before.
-/

namespace SortedMap

open Std (ExtTreeMap)

theorem size_le_of_keys_lt {β : Type*} {m : ExtTreeMap ℕ β} {n : ℕ}
    (h : ∀ (k : ℕ) (v : β), m[k]? = some v → k < n) : m.size ≤ n := by
  have hle := size_le_length (l := List.range n) fun k v hk => List.mem_range.mpr (h k v hk)
  rwa [List.length_range] at hle

end SortedMap

namespace Kestrel

open Std (ExtTreeMap)

namespace SendBuffer

variable {b : SendBuffer}

/-- Takes everything out of the buffer. -/
def takeStreamBuffer (b : SendBuffer) : List Bytes × SendBuffer :=
  (b.streamBuffer, { b with streamBuffer := [], streamBufferSize := 0 })

inductive Call where
  | writeToStream (buf : Bytes)
  | createChunk (maxSize : ℕ)
  | takeStreamBuffer
  deriving DecidableEq, Repr

def call (b : SendBuffer) : Call → SendBuffer
  | .writeToStream buf => (b.writeToStream buf).2
  | .createChunk maxSize => (b.createChunk maxSize).2
  | .takeStreamBuffer => b.takeStreamBuffer.2

/-- Chunks are cut for packets of at least one byte. -/
def Call.Cuts : Call → Prop
  | .createChunk maxSize => 1 ≤ maxSize
  | _ => True

instance : DecidablePred Call.Cuts
  | .createChunk maxSize => inferInstanceAs (Decidable (1 ≤ maxSize))
  | .writeToStream _ | .takeStreamBuffer => .isTrue trivial

def after (capacity : ℕ) (calls : List Call) : SendBuffer := calls.foldl call (new capacity)

theorem wf_after (capacity : ℕ) (calls : List Call) (h : ∀ c ∈ calls, c.Cuts) :
    (after capacity calls).WF := by
  induction calls using List.reverseRecOn with
  | nil => exact wf_new capacity
  | append_singleton calls c ih =>
    have hwf := ih fun c' hc' => h c' (List.mem_append_left _ hc')
    have hc := h c (by simp)
    have hlast : after capacity (calls ++ [c]) = (after capacity calls).call c := by simp [after]
    rw [hlast]
    cases c with
    | writeToStream buf => exact hwf.writeToStream buf
    | createChunk maxSize => exact hwf.createChunk hc
    | takeStreamBuffer => exact ⟨rfl, Nat.zero_le _⟩

end SendBuffer

section Numbers

variable {c : PacketizerContext} {counter : ℕ} {chunks : List Bytes}

theorem counterAfter_eq (h : counter < u32Size) (n : ℕ) :
    counterAfter counter n = (counter + n) % u32Size := by
  induction n generalizing counter with
  | zero => exact (Nat.mod_eq_of_lt h).symm
  | succ n ih =>
    rw [counterAfter, nextSeq, ih (Nat.mod_lt _ (by decide)), Nat.mod_add_mod, Nat.add_assoc,
      Nat.add_comm 1]

theorem counterAfter_ne (h : counter < u32Size) {n : ℕ} (hpos : 0 < n) (hn : n < u32Size) :
    counterAfter counter n ≠ counter := by
  rw [counterAfter_eq h]
  change counter < 4294967296 at h
  change n < 4294967296 at hn
  change (counter + n) % 4294967296 ≠ counter
  omega

theorem getElem?_pushFrames (n : ℕ) : (pushFrames c counter chunks)[n]? =
    chunks[n]?.map (c.frame (counterAfter counter n)) := by
  induction chunks generalizing counter n with
  | nil => rfl
  | cons chunk chunks ih =>
    cases n with
    | zero => rfl
    | succ n => exact ih n

theorem sequenceNumber_pushFrames (h : counter < u32Size) {n : ℕ} {f : Frame}
    (hf : (pushFrames c counter chunks)[n]? = some f) :
    f.sequenceNumber = some ((counter + n) % u32Size) := by
  rw [getElem?_pushFrames] at hf
  obtain ⟨p, -, rfl⟩ := Option.map_eq_some_iff.mp hf
  rw [← counterAfter_eq h]
  rfl

end Numbers

namespace RetransmissionManager

variable {m : RetransmissionManager} {c : PacketizerContext} {counter : ℕ} {chunks : List Bytes}

theorem info?_addAll_pushFrames_of_ne {q : ℕ}
    (h : ∀ n < chunks.length, counterAfter counter n ≠ q) (now : Instant) :
    (m.addAll (pushFrames c counter chunks) now).sackManager.info? q = m.sackManager.info? q := by
  induction chunks generalizing m counter with
  | nil => rfl
  | cons chunk chunks ih =>
    have hfirst : counter ≠ q := h 0 (by simp)
    rw [pushFrames, addAll, List.foldl_cons]
    refine (ih fun n hn => h (n + 1) (by simpa using hn)).trans ?_
    rw [PacketizerContext.frame, Frame.newPush, info?_addInFlightPacket_push, if_neg]
    exact hfirst

theorem info?_addAll_pushFrames_of_length (h : counter < u32Size) (hlen : chunks.length ≤ u32Size)
    (now : Instant) {n : ℕ} {p : Bytes} (hp : chunks[n]? = some p) :
    (m.addAll (pushFrames c counter chunks) now).sackManager.info? (counterAfter counter n) =
      some ⟨.push, counterAfter counter n, p, none⟩ := by
  induction chunks generalizing m counter n with
  | nil => cases hp
  | cons chunk chunks ih =>
    rw [List.length_cons] at hlen
    have hnext : nextSeq counter < u32Size := Nat.mod_lt _ (by decide)
    rw [pushFrames, addAll, List.foldl_cons]
    cases n with
    | zero =>
      cases hp
      refine (info?_addAll_pushFrames_of_ne ?_ now).trans ?_
      · intro i hi
        exact counterAfter_ne h i.succ_pos (by omega)
      · rw [PacketizerContext.frame, Frame.newPush, info?_addInFlightPacket_push, if_pos (by rfl)]
        rfl
    | succ n => exact ih hnext (by omega) hp

theorem kept_of_mem_pushFrames (h : counter < u32Size) (hlen : chunks.length ≤ u32Size)
    (now : Instant) {f : Frame} (hf : f ∈ pushFrames c counter chunks) :
    ∃ q i, f.sequenceNumber = some q ∧ RetransmissionFrameInfo.fromFrame f = some i ∧
      (m.addAll (pushFrames c counter chunks) now).sackManager.info? q = some i := by
  obtain ⟨n, p, hn, rfl⟩ := mem_pushFrames.mp hf
  exact ⟨_, _, rfl, rfl, info?_addAll_pushFrames_of_length h hlen now hn⟩

end RetransmissionManager

namespace RetransmissionManager

variable {m : RetransmissionManager} {c : PacketizerContext} {counter : ℕ} {chunks : List Bytes}

/-- All numbers in flight are of 32 bits. -/
def NumbersFit (m : RetransmissionManager) : Prop :=
  ∀ (q : ℕ) (p : SackInFlightPacket), m.sackManager.inFlightPackets[q]? = some p → q < u32Size

theorem numbersFit_addAll_pushFrames (h : m.NumbersFit) (hc : counter < u32Size) (now : Instant) :
    (m.addAll (pushFrames c counter chunks) now).NumbersFit := by
  intro q p hp
  by_contra hq
  have hne : ∀ n < chunks.length, counterAfter counter n ≠ q := by
    intro n _ he
    rw [counterAfter_eq hc] at he
    exact hq (he ▸ Nat.mod_lt _ (by decide))
  have hinfo := info?_addAll_pushFrames_of_ne (m := m) (c := c) hne now
  rw [SackManager.info?, hp] at hinfo
  obtain ⟨p', hp', -⟩ := Option.map_eq_some_iff.mp hinfo.symm
  exact hq (h q p' hp')

/-- The windows that permit packets bound what is in flight afterwards. -/
theorem sackInFlightCount_addAll_le_max (h : m.NumbersFit) (hc : counter < u32Size)
    (hcount : c.inFlightCount = m.sackInFlightCount) (hlen : chunks.length ≤ c.permit)
    (now : Instant) : (m.addAll (pushFrames c counter chunks) now).sackInFlightCount ≤
      max m.sackInFlightCount (min c.congestionWindow c.peerRecvWindow) := by
  have hle : m.sackInFlightCount ≤ u32Size := SortedMap.size_le_of_keys_lt h
  rcases hle.lt_or_eq with hlt | heq
  · have hadd := sackInFlightCount_addAll_le (m := m) (pushFrames c counter chunks) now
    rw [length_pushFrames] at hadd
    rw [PacketizerContext.permit, hcount, Nat.mod_eq_of_lt hlt] at hlen
    omega
  · -- all numbers are in flight already
    have hfit : (m.addAll (pushFrames c counter chunks) now).NumbersFit :=
      numbersFit_addAll_pushFrames h hc now
    have hle' := SortedMap.size_le_of_keys_lt hfit
    rw [heq]
    exact le_max_of_le_left hle'

end RetransmissionManager

namespace ReliabilityLayer

variable {C : Type} [CongestionControl C] {l : ReliabilityLayer C}

/-- The new frames are PUSH frames with a payload of limited length, numbered one after the other
and kept; they take the first bytes off the buffer, and what is in flight stays within the
windows. -/
structure Packetizes (l l' : ReliabilityLayer C) (peerRecvWindow : ℕ) (frames : List Frame) :
    Prop where
  count_le : l'.retransmissionManager.sackInFlightCount ≤
    max l.retransmissionManager.sackInFlightCount
      (min (CongestionControl.congestionWindow l.congestionControl) peerRecvWindow)
  numbered : ∀ n f, frames[n]? = some f →
    f.sequenceNumber = some ((l.sequenceNumberCounter + n) % u32Size)
  counter_eq : l'.sequenceNumberCounter = (l.sequenceNumberCounter + frames.length) % u32Size
  pushes : ∀ f ∈ frames, ∃ header payload, f = .push header payload ∧
    header.payloadLength = payload.length ∧ 0 < payload.length ∧
      payload.length ≤ l.config.connection.maxPayloadSize
  tracked : ∀ f ∈ frames, ∃ q i, f.sequenceNumber = some q ∧
    RetransmissionFrameInfo.fromFrame f = some i ∧
      l'.retransmissionManager.sackManager.info? q = some i
  bytes_eq : l.sendBuffer.bytes = (payloadsOf frames).flatten ++ l'.sendBuffer.bytes
  wf : l'.sendBuffer.WF

/-- Packetizing keeps to both windows and conserves the bytes. -/
theorem packetizes (calls : List SendBuffer.Call) (capacity : ℕ) (hcuts : ∀ c ∈ calls, c.Cuts)
    (hbuffer : l.sendBuffer = .after capacity calls)
    (hm : 1 ≤ l.config.connection.maxPayloadSize)
    (hm' : l.config.connection.maxPayloadSize < u16Size) (hc : l.sequenceNumberCounter < u32Size)
    (hfit : l.retransmissionManager.NumbersFit) (peerCid peerRecvWindow : ℕ)
    (hw : peerRecvWindow < u32Size) (now startTime : Instant) (frames : List Frame)
    (l' : ReliabilityLayer C)
    (h : l.packetizeStreamData peerCid peerRecvWindow now startTime none = (frames, l')) :
    l.Packetizes l' peerRecvWindow frames := by
  have hwf := SendBuffer.wf_after capacity calls hcuts
  rw [← hbuffer] at hwf
  obtain ⟨chunks, b, hp, he⟩ := packetizeStreamData_eq (l := l) peerCid peerRecvWindow now startTime
  rw [h] at he
  obtain ⟨rfl, rfl⟩ := Prod.mk.inj he
  have hlen : chunks.length ≤ u32Size := by
    have hpermit : (l.packetizerContext peerCid peerRecvWindow now startTime).permit ≤
        peerRecvWindow := (min_le_right _ _).trans (Nat.sub_le _ _)
    exact (hp.length_le.trans hpermit).trans hw.le
  constructor
  · exact RetransmissionManager.sackInFlightCount_addAll_le_max hfit hc rfl hp.length_le now
  · exact fun n f hf => sequenceNumber_pushFrames hc hf
  · dsimp only
    rw [counterAfter_eq hc, length_pushFrames]
  · intro f hf
    obtain ⟨n, p, hn, rfl⟩ := mem_pushFrames.mp hf
    obtain ⟨hpos, hle⟩ := hp.fits p (List.mem_of_getElem? hn)
    exact ⟨_, p, rfl, Nat.mod_eq_of_lt (hle.trans_lt hm'), hpos, hle⟩
  · exact fun f hf => RetransmissionManager.kept_of_mem_pushFrames hc hlen now hf
  · rw [payloadsOf_pushFrames]
    exact hp.bytes_eq hm
  · exact hp.wf hm hwf

section Sample

def mixedCalls : List SendBuffer.Call :=
  [.writeToStream [1, 2, 3, 4, 5], .createChunk 2, .writeToStream [6, 7]]

/-- Packets of two bytes. -/
def pairConfig : Config := { connection := { maxPayloadSize := 2 } }

def pairLayer : ReliabilityLayer Vegas :=
  { new pairConfig (Vegas.new pairConfig) with sendBuffer := .after 100 mixedCalls }

/-- The window of the peer is for two packets, and three are waiting. -/
theorem packetizes_sample :
    pairLayer.Packetizes (pairLayer.packetizeStreamData 1 2 10 0 none).2 2
        (pairLayer.packetizeStreamData 1 2 10 0 none).1 ∧
      payloadsOf (pairLayer.packetizeStreamData 1 2 10 0 none).1 = [[3, 4], [5]] :=
  ⟨packetizes mixedCalls 100 (by decide) rfl (by decide) (by decide) (by decide)
    (by intro q p hp; simp [pairLayer, new, RetransmissionManager.new, SackManager.new] at hp)
    1 2 (by decide) 10 0 _ _ rfl, by decide⟩

end Sample

end ReliabilityLayer

end Kestrel
