import Kestrel.Packet.Frame
import Kestrel.Lib.SortedMap

/-! # Selective acknowledgment manager

Sent frames are kept until an acknowledgment names them. A kept frame is stored without its
header and rebuilt when it is sent again, after a timeout or after being skipped too often.
-/

namespace Kestrel

open Std (ExtTreeMap)

structure RetransmissionFrameInfo where
  frameType : FrameType
  sequenceNumber : ℕ
  payload : Bytes
  additionalData : Option ℕ
  deriving DecidableEq, Repr

namespace RetransmissionFrameInfo

def fromFrame : Frame → Option RetransmissionFrameInfo
  | .push h payload => some ⟨.push, h.sequenceNumber, payload, none⟩
  | .syn _ => some ⟨.syn, 0, [], none⟩
  | .synAck _ => some ⟨.synAck, 0, [], none⟩
  | .fin h => some ⟨.fin, h.sequenceNumber, [], none⟩
  | .pathChallenge h data => some ⟨.pathChallenge, h.sequenceNumber, [], some data⟩
  | .pathResponse h data => some ⟨.pathResponse, h.sequenceNumber, [], some data⟩
  | .ack .. | .ping _ => none

/-- Rebuilds the frame with a fresh header. -/
def reconstructFrame (i : RetransmissionFrameInfo) (c : RetransmissionContext) (now : Instant) :
    Frame :=
  let timestamp := c.currentTimestamp now
  match i.frameType with
  | .push => .newPush c.currentPeerCid i.sequenceNumber c.recvNextSequence c.recvWindowSize
      timestamp i.payload
  | .syn => .newSyn c.protocolVersion c.localCid c.currentPeerCid
  | .synAck => .newSynAck c.protocolVersion c.localCid c.currentPeerCid
  | .fin => .newFin c.currentPeerCid i.sequenceNumber timestamp c.recvNextSequence
      c.recvWindowSize
  | .pathChallenge => .newPathChallenge c.currentPeerCid i.sequenceNumber timestamp
      (i.additionalData.getD 0)
  | .pathResponse => .newPathResponse c.currentPeerCid i.sequenceNumber timestamp
      (i.additionalData.getD 0)

end RetransmissionFrameInfo

structure SackInFlightPacket where
  lastSentAt : Instant
  frameInfo : RetransmissionFrameInfo
  fastRetxCount : ℕ
  deriving DecidableEq, Repr

structure SackProcessResult where
  framesToRetransmit : List Frame
  rttSamples : List Duration
  newlyAckedSequences : List ℕ

/-- The sequence numbers an acknowledgment names: those below the next expected one and those
in its ranges. -/
def AckNames (recvNextSeq : ℕ) (sackRanges : List SackRange) (q : ℕ) : Prop :=
  q < recvNextSeq ∨ ∃ r ∈ sackRanges, q ∈ r.seqs

instance (recvNextSeq : ℕ) (sackRanges : List SackRange) (q : ℕ) :
    Decidable (AckNames recvNextSeq sackRanges q) :=
  inferInstanceAs (Decidable (q < recvNextSeq ∨ ∃ r ∈ sackRanges, q ∈ r.seqs))

structure SackManager where
  fastRetxThreshold : ℕ
  inFlightPackets : ExtTreeMap ℕ SackInFlightPacket
  ackElicitingPacketsCount : ℕ

namespace SackManager

variable (m : SackManager)

def new (fastRetxThreshold : ℕ) : SackManager := ⟨fastRetxThreshold, ∅, 0⟩

def addInFlightPacket (frame : Frame) (now : Instant) : SackManager :=
  match frame.sequenceNumber, RetransmissionFrameInfo.fromFrame frame with
  | some seq, some frameInfo =>
    { m with inFlightPackets := m.inFlightPackets.insert seq ⟨now, frameInfo, 0⟩ }
  | _, _ => m

def inFlightCount : ℕ := m.inFlightPackets.size

def isInFlightEmpty : Bool := m.inFlightPackets.isEmpty

def hasFinInFlight : Bool := m.inFlightPackets.toList.any fun e => e.2.frameInfo.frameType = .fin

def onAckElicitingPacketReceived : SackManager :=
  { m with ackElicitingPacketsCount := (m.ackElicitingPacketsCount + 1) % u32Size }

def onAckSent : SackManager := { m with ackElicitingPacketsCount := 0 }

/-- Rebuilds every packet sent longer than the timeout ago. -/
def checkForRto (rto : Duration) (now : Instant) (c : RetransmissionContext) :
    List Frame × SackManager :=
  let late (p : SackInFlightPacket) : Bool := now - p.lastSentAt > rto
  ((m.inFlightPackets.toList.filter fun e => late e.2).map
      fun e => e.2.frameInfo.reconstructFrame c now,
    { m with
      inFlightPackets := m.inFlightPackets.map fun _ p =>
        if late p then { p with lastSentAt := now } else p })

def nextRtoDeadline (rto : Duration) : Option Instant :=
  (m.inFlightPackets.toList.map fun e => e.2.lastSentAt + rto).min?

/-- Counts the packets skipped by an acknowledgment and rebuilds those skipped too often. -/
def checkFastRetransmission (sackAckedSequences : List ℕ) (now : Instant)
    (c : RetransmissionContext) : List Frame × SackManager :=
  match sackAckedSequences.max? with
  | none => ([], m)
  | some highestSacked =>
    let count (p : SackInFlightPacket) : ℕ := (p.fastRetxCount + 1) % u16Size
    let lost (p : SackInFlightPacket) : Bool := count p ≥ m.fastRetxThreshold
    ((m.inFlightPackets.toList.filter fun e => decide (e.1 < highestSacked) && lost e.2).map
        fun e => e.2.frameInfo.reconstructFrame c now,
      { m with
        inFlightPackets := m.inFlightPackets.map fun q p =>
          if q < highestSacked then
            if lost p then { p with lastSentAt := now, fastRetxCount := 0 }
            else { p with fastRetxCount := count p }
          else p })

/-- Removes what the acknowledgment names and looks for packets to send again early. -/
def processAck (recvNextSeq : ℕ) (sackRanges : List SackRange) (now : Instant)
    (c : RetransmissionContext) : SackProcessResult × SackManager :=
  let (cumulative, rest) := SortedMap.takeAll m.inFlightPackets
    (m.inFlightPackets.keys.takeWhile (· < recvNextSeq))
  let (sackAcked, rest) := SortedMap.takeAll rest (sackRanges.flatMap SackRange.seqs)
  let m' := { m with inFlightPackets := rest }
  let (framesToRetransmit, m') :=
    if sackAcked.isEmpty then ([], m')
    else m'.checkFastRetransmission (sackAcked.map Prod.fst) now c
  ({ framesToRetransmit
     rttSamples := (cumulative ++ sackAcked).map fun e => now - e.2.lastSentAt
     newlyAckedSequences := (cumulative ++ sackAcked).map Prod.fst }, m')

def clear : SackManager := { m with inFlightPackets := ∅ }

/-- What is kept for a sequence number. -/
def info? (q : ℕ) : Option RetransmissionFrameInfo := m.inFlightPackets[q]?.map (·.frameInfo)

variable {m}

@[simp] theorem info?_new (n q : ℕ) : (new n).info? q = none := by simp [info?, new]

@[simp] theorem info?_clear (q : ℕ) : m.clear.info? q = none := by simp [info?, clear]

theorem info?_addInFlightPacket {f : Frame} {seq : ℕ} {i : RetransmissionFrameInfo}
    (hs : f.sequenceNumber = some seq) (hi : RetransmissionFrameInfo.fromFrame f = some i)
    (now : Instant) (q : ℕ) :
    (m.addInFlightPacket f now).info? q = if seq = q then some i else m.info? q := by
  simp only [addInFlightPacket, hs, hi, info?, SortedMap.getElem?_insert]
  split <;> rfl

theorem info?_addInFlightPacket_cases (f : Frame) (now : Instant) (q : ℕ) :
    (m.addInFlightPacket f now).info? q = m.info? q ∨
      f.sequenceNumber = some q ∧
        (m.addInFlightPacket f now).info? q = RetransmissionFrameInfo.fromFrame f := by
  cases hs : f.sequenceNumber with
  | none => exact Or.inl (by rw [addInFlightPacket, hs])
  | some seq =>
    cases hi : RetransmissionFrameInfo.fromFrame f with
    | none => exact Or.inl (by rw [addInFlightPacket, hs, hi])
    | some i =>
      rw [info?_addInFlightPacket hs hi]
      split
      · rename_i hq
        exact Or.inr ⟨by rw [hq], rfl⟩
      · exact Or.inl rfl

theorem info?_map {f : ℕ → SackInFlightPacket → SackInFlightPacket}
    (hf : ∀ q p, (f q p).frameInfo = p.frameInfo) (q : ℕ) :
    ({ m with inFlightPackets := m.inFlightPackets.map f } : SackManager).info? q = m.info? q := by
  simp only [info?, ExtTreeMap.getElem?_map, Option.map_map]
  exact congrArg (fun g => m.inFlightPackets[q]?.map g) (funext fun p => hf q p)

@[simp] theorem info?_checkForRto (rto : Duration) (now : Instant) (c : RetransmissionContext)
    (q : ℕ) : (m.checkForRto rto now c).2.info? q = m.info? q :=
  info?_map (fun _ p => by dsimp only; split <;> rfl) q

/-- Every frame sent again is rebuilt from what is kept. -/
def Rebuilds (c : RetransmissionContext) (now : Instant) (m : SackManager) (f : Frame) : Prop :=
  ∃ q i, m.info? q = some i ∧ f = i.reconstructFrame c now

theorem rebuilds_of_mem {c : RetransmissionContext} {now : Instant} {f : Frame}
    {keep : ℕ × SackInFlightPacket → Bool}
    (h : f ∈ (m.inFlightPackets.toList.filter keep).map
      fun e => e.2.frameInfo.reconstructFrame c now) : Rebuilds c now m f := by
  obtain ⟨⟨q, p⟩, he, rfl⟩ := List.mem_map.mp h
  have hp := SortedMap.mem_toList.mp (List.mem_filter.mp he).1
  exact ⟨q, p.frameInfo, by rw [info?, hp]; rfl, rfl⟩

theorem rebuilds_checkForRto {rto : Duration} {now : Instant} {c : RetransmissionContext}
    {f : Frame} (h : f ∈ (m.checkForRto rto now c).1) : Rebuilds c now m f :=
  rebuilds_of_mem h

@[simp] theorem info?_checkFastRetransmission (l : List ℕ) (now : Instant)
    (c : RetransmissionContext) (q : ℕ) :
    (m.checkFastRetransmission l now c).2.info? q = m.info? q := by
  unfold checkFastRetransmission
  split
  · rfl
  · exact info?_map (fun _ p => by dsimp only; split_ifs <;> rfl) q

theorem rebuilds_checkFastRetransmission {l : List ℕ} {now : Instant}
    {c : RetransmissionContext} {f : Frame} (h : f ∈ (m.checkFastRetransmission l now c).1) :
    Rebuilds c now m f := by
  unfold checkFastRetransmission at h
  split at h
  · cases h
  · exact rebuilds_of_mem h

theorem mem_cumulative {recvNextSeq q : ℕ} :
    q ∈ m.inFlightPackets.keys.takeWhile (· < recvNextSeq) ↔
      q < recvNextSeq ∧ ∃ p, m.inFlightPackets[q]? = some p := by
  rw [SortedMap.mem_takeWhile_lt (SortedMap.keys_sorted _), SortedMap.mem_keys]

/-- An acknowledgment removes exactly what it names. -/
theorem info?_processAck (recvNextSeq : ℕ) (ranges : List SackRange) (now : Instant)
    (c : RetransmissionContext) (q : ℕ) :
    (m.processAck recvNextSeq ranges now c).2.info? q =
      if AckNames recvNextSeq ranges q then none else m.info? q := by
  have hrest : (SackManager.mk m.fastRetxThreshold
      (SortedMap.takeAll (SortedMap.takeAll m.inFlightPackets
        (m.inFlightPackets.keys.takeWhile (· < recvNextSeq))).2
        (ranges.flatMap SackRange.seqs)).2 m.ackElicitingPacketsCount).info? q =
      if AckNames recvNextSeq ranges q then none else m.info? q := by
    simp only [info?, SortedMap.takeAll_snd, SortedMap.getElem?_eraseAll, List.mem_flatMap]
    by_cases hr : ∃ r ∈ ranges, q ∈ r.seqs
    · rw [if_pos hr, if_pos (show AckNames recvNextSeq ranges q from Or.inr hr)]
      rfl
    · rw [if_neg hr]
      by_cases hq : q < recvNextSeq
      · rw [if_pos (show AckNames recvNextSeq ranges q from Or.inl hq)]
        split
        · rfl
        · rename_i hn
          rw [mem_cumulative, not_and] at hn
          rw [Option.eq_none_iff_forall_ne_some.mpr fun p hp => hn hq ⟨p, hp⟩]
          rfl
      · rw [if_neg (fun h => hq (mem_cumulative.mp h).1),
          if_neg (show ¬ AckNames recvNextSeq ranges q from fun h => h.elim hq hr)]
  unfold processAck
  dsimp only
  split
  · exact hrest
  · rw [info?_checkFastRetransmission]
    exact hrest

theorem rebuilds_processAck {recvNextSeq : ℕ} {ranges : List SackRange} {now : Instant}
    {c : RetransmissionContext} {f : Frame}
    (h : f ∈ (m.processAck recvNextSeq ranges now c).1.framesToRetransmit) :
    Rebuilds c now (m.processAck recvNextSeq ranges now c).2 f := by
  unfold processAck at h ⊢
  dsimp only at h ⊢
  split at h
  · cases h
  · rename_i hne
    obtain ⟨q, i, hi, rfl⟩ := rebuilds_checkFastRetransmission h
    refine ⟨q, i, ?_, rfl⟩
    rw [if_neg hne, info?_checkFastRetransmission]
    exact hi

theorem isInFlightEmpty_iff : m.isInFlightEmpty = true ↔ ∀ q, m.info? q = none := by
  rw [isInFlightEmpty, SortedMap.eq_empty_iff]
  simp only [info?, Option.map_eq_none_iff]

theorem hasFinInFlight_iff :
    m.hasFinInFlight = true ↔ ∃ q i, m.info? q = some i ∧ i.frameType = .fin := by
  rw [hasFinInFlight, SortedMap.any_toList]
  simp only [info?, Option.map_eq_some_iff, decide_eq_true_eq]
  constructor
  · rintro ⟨q, p, hp, hf⟩
    exact ⟨q, _, ⟨p, hp, rfl⟩, hf⟩
  · rintro ⟨q, _, ⟨p, hp, rfl⟩, hf⟩
    exact ⟨q, p, hp, hf⟩

end SackManager

end Kestrel
