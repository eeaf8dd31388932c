import Kestrel.Reliability.SackManager

/-! # Retransmission manager

Control frames are sent again a limited number of times by a manager of their own; the unified
manager chooses between it and the selective acknowledgment manager by the kind of frame.
-/

namespace Kestrel

open Std (ExtTreeMap)

structure SimpleInFlightPacket where
  frameInfo : RetransmissionFrameInfo
  lastSentAt : Instant
  retryCount : ℕ
  maxRetries : ℕ
  retryInterval : Duration
  deriving DecidableEq, Repr

structure SimpleRetransmissionManager where
  inFlightSimple : ExtTreeMap ℕ SimpleInFlightPacket

namespace SimpleRetransmissionManager

variable (m : SimpleRetransmissionManager)

def new : SimpleRetransmissionManager := ⟨∅⟩

/-- Frames are kept under the built-in parameters of their kind. -/
def addPacket (frame : Frame) (now : Instant) : SimpleRetransmissionManager :=
  match frame.sequenceNumber, frame.reliabilityMode, RetransmissionFrameInfo.fromFrame frame with
  | some seq, .simpleRetransmit maxRetries retryInterval, some frameInfo =>
    ⟨m.inFlightSimple.insert seq ⟨frameInfo, now, 0, maxRetries, retryInterval⟩⟩
  | _, _, _ => m

def acknowledgeUpTo (recvNextSeq : ℕ) : List ℕ × SimpleRetransmissionManager :=
  let (acked, rest) := SortedMap.takeAll m.inFlightSimple
    (m.inFlightSimple.keys.takeWhile (· < recvNextSeq))
  (acked.map Prod.fst, ⟨rest⟩)

def acknowledgeSackRanges (sackRanges : List SackRange) : List ℕ × SimpleRetransmissionManager :=
  let (acked, rest) := SortedMap.takeAll m.inFlightSimple (sackRanges.flatMap SackRange.seqs)
  (acked.map Prod.fst, ⟨rest⟩)

/-- Rebuilds every packet whose interval is over and gives up on those out of retries. -/
def checkForRetransmissions (now : Instant) (c : RetransmissionContext) :
    List Frame × SimpleRetransmissionManager :=
  let due (p : SimpleInFlightPacket) : Bool := now - p.lastSentAt ≥ p.retryInterval
  let again (p : SimpleInFlightPacket) : Bool := due p && decide (p.retryCount < p.maxRetries)
  let expired (p : SimpleInFlightPacket) : Bool := due p && !decide (p.retryCount < p.maxRetries)
  ((m.inFlightSimple.toList.filter fun e => again e.2).map
      fun e => e.2.frameInfo.reconstructFrame c now,
    ⟨SortedMap.eraseAll
      (m.inFlightSimple.map fun _ p =>
        if again p then { p with lastSentAt := now, retryCount := p.retryCount + 1 } else p)
      ((m.inFlightSimple.toList.filter fun e => expired e.2).map Prod.fst)⟩)

def nextRetransmissionDeadline : Option Instant :=
  (m.inFlightSimple.toList.map fun e => e.2.lastSentAt + e.2.retryInterval).min?

def isEmpty : Bool := m.inFlightSimple.isEmpty

def hasFrameTypeInFlight (t : FrameType) : Bool :=
  m.inFlightSimple.toList.any fun e => e.2.frameInfo.frameType = t

def clear (_ : SimpleRetransmissionManager) : SimpleRetransmissionManager := ⟨∅⟩

/-- What is kept for a sequence number. -/
def info? (q : ℕ) : Option RetransmissionFrameInfo := m.inFlightSimple[q]?.map (·.frameInfo)

variable {m}

@[simp] theorem info?_new (q : ℕ) : new.info? q = none := by simp [info?, new]

@[simp] theorem info?_clear (q : ℕ) : m.clear.info? q = none := by simp [info?, clear]

theorem info?_eraseAll {ks : List ℕ} {q : ℕ} {i : RetransmissionFrameInfo}
    (h : info? ⟨SortedMap.eraseAll m.inFlightSimple ks⟩ q = some i) : m.info? q = some i := by
  rw [info?, SortedMap.getElem?_eraseAll] at h
  split at h
  · cases h
  · exact h

theorem info?_acknowledgeUpTo {n q : ℕ} {i : RetransmissionFrameInfo}
    (h : (m.acknowledgeUpTo n).2.info? q = some i) : m.info? q = some i :=
  info?_eraseAll (by rw [← SortedMap.takeAll_snd]; exact h)

theorem info?_acknowledgeSackRanges {rs : List SackRange} {q : ℕ} {i : RetransmissionFrameInfo}
    (h : (m.acknowledgeSackRanges rs).2.info? q = some i) : m.info? q = some i :=
  info?_eraseAll (by rw [← SortedMap.takeAll_snd]; exact h)

theorem info?_map {f : ℕ → SimpleInFlightPacket → SimpleInFlightPacket}
    (hf : ∀ q p, (f q p).frameInfo = p.frameInfo) (q : ℕ) :
    info? ⟨m.inFlightSimple.map f⟩ q = m.info? q := by
  simp only [info?, ExtTreeMap.getElem?_map, Option.map_map]
  exact congrArg (fun g => m.inFlightSimple[q]?.map g) (funext fun p => hf q p)

theorem info?_checkForRetransmissions {now : Instant} {c : RetransmissionContext} {q : ℕ}
    {i : RetransmissionFrameInfo}
    (h : (m.checkForRetransmissions now c).2.info? q = some i) : m.info? q = some i := by
  have h := info?_eraseAll (m := ⟨m.inFlightSimple.map _⟩) h
  rwa [info?_map fun _ p => by dsimp only; split <;> rfl] at h

theorem rebuilds_checkForRetransmissions {now : Instant} {c : RetransmissionContext} {f : Frame}
    (h : f ∈ (m.checkForRetransmissions now c).1) :
    ∃ q i, (m.checkForRetransmissions now c).2.info? q = some i ∧
      f = i.reconstructFrame c now := by
  obtain ⟨⟨q, p⟩, he, rfl⟩ := List.mem_map.mp h
  obtain ⟨hp, hagain⟩ := List.mem_filter.mp he
  have hp := SortedMap.mem_toList.mp hp
  refine ⟨q, p.frameInfo, ?_, rfl⟩
  dsimp only at hagain
  rw [Bool.and_eq_true] at hagain
  -- A packet that is sent again has retries left, so it is not given up on.
  have hkeep : q ∉ (m.inFlightSimple.toList.filter fun e =>
      decide (now - e.2.lastSentAt ≥ e.2.retryInterval) &&
        !decide (e.2.retryCount < e.2.maxRetries)).map Prod.fst := by
    intro hq
    obtain ⟨⟨q', p'⟩, hf, rfl⟩ := List.mem_map.mp hq
    obtain ⟨hp', hexp⟩ := List.mem_filter.mp hf
    rw [SortedMap.mem_toList] at hp'
    rw [hp] at hp'
    cases hp'
    rw [Bool.and_eq_true, hagain.2] at hexp
    cases hexp.2
  rw [info?, checkForRetransmissions]
  dsimp only
  rw [SortedMap.getElem?_eraseAll, if_neg hkeep, ExtTreeMap.getElem?_map, hp]
  dsimp only [Option.map_some]
  split <;> rfl

theorem isEmpty_iff : m.isEmpty = true ↔ ∀ q, m.info? q = none := by
  rw [isEmpty, SortedMap.eq_empty_iff]
  simp only [info?, Option.map_eq_none_iff]

theorem hasFrameTypeInFlight_iff {t : FrameType} :
    m.hasFrameTypeInFlight t = true ↔ ∃ q i, m.info? q = some i ∧ i.frameType = t := by
  rw [hasFrameTypeInFlight, SortedMap.any_toList]
  simp only [info?, Option.map_eq_some_iff, decide_eq_true_eq]
  constructor
  · rintro ⟨q, p, hp, hf⟩
    exact ⟨q, _, ⟨p, hp, rfl⟩, hf⟩
  · rintro ⟨q, _, ⟨p, hp, rfl⟩, hf⟩
    exact ⟨q, p, hp, hf⟩

/-- A frame that is not kept by this manager's own rules leaves it unchanged; another one is
kept under its sequence number. -/
theorem info?_addPacket (f : Frame) (now : Instant) (q : ℕ) :
    (m.addPacket f now).info? q = m.info? q ∨
      (f.sequenceNumber = some q ∧
        (m.addPacket f now).info? q = RetransmissionFrameInfo.fromFrame f) := by
  unfold addPacket
  split
  · rename_i seq maxRetries interval i hs _ hi
    simp only [info?, SortedMap.getElem?_insert]
    split
    · rename_i hq
      exact Or.inr ⟨by rw [hs, hq], by rw [hi]; rfl⟩
    · exact Or.inl rfl
  · exact Or.inl rfl

end SimpleRetransmissionManager

structure RetransmissionManager where
  sackManager : SackManager
  simpleRetxManager : SimpleRetransmissionManager
  config : Config

namespace RetransmissionManager

variable (m : RetransmissionManager)

def new (config : Config) : RetransmissionManager :=
  { sackManager := .new config.reliability.fastRetxThreshold
    simpleRetxManager := .new
    config }

def addInFlightPacket (frame : Frame) (now : Instant) : RetransmissionManager :=
  match frame.reliabilityModeWithConfig m.config with
  | .reliable => { m with sackManager := m.sackManager.addInFlightPacket frame now }
  | .simpleRetransmit _ _ =>
    { m with simpleRetxManager := m.simpleRetxManager.addPacket frame now }
  | .bestEffort => m

def addAll (frames : List Frame) (now : Instant) : RetransmissionManager :=
  frames.foldl (fun m f => m.addInFlightPacket f now) m

def processAck (recvNextSeq : ℕ) (sackRanges : List SackRange) (now : Instant)
    (c : RetransmissionContext) : SackProcessResult × RetransmissionManager :=
  let (sackResult, sackManager) := m.sackManager.processAck recvNextSeq sackRanges now c
  let (simpleAcked, simple) := m.simpleRetxManager.acknowledgeUpTo recvNextSeq
  let (sackAcked, simple) := simple.acknowledgeSackRanges sackRanges
  ({ sackResult with
      newlyAckedSequences := sackResult.newlyAckedSequences ++ (simpleAcked ++ sackAcked) },
    { m with sackManager, simpleRetxManager := simple })

/-- The frames to send again after a timeout, from both managers. -/
def checkForRetransmissions (rto : Duration) (now : Instant) (c : RetransmissionContext) :
    List Frame × RetransmissionManager :=
  let (sackRetx, sackManager) := m.sackManager.checkForRto rto now c
  let (simpleRetx, simpleRetxManager) := m.simpleRetxManager.checkForRetransmissions now c
  (sackRetx ++ simpleRetx, { m with sackManager, simpleRetxManager })

def sackInFlightCount : ℕ := m.sackManager.inFlightCount

def isAllInFlightEmpty : Bool := m.sackManager.isInFlightEmpty && m.simpleRetxManager.isEmpty

def hasFinInFlight : Bool :=
  m.sackManager.hasFinInFlight || m.simpleRetxManager.hasFrameTypeInFlight .fin

def onAckElicitingPacketReceived : RetransmissionManager :=
  { m with sackManager := m.sackManager.onAckElicitingPacketReceived }

def onAckSent : RetransmissionManager := { m with sackManager := m.sackManager.onAckSent }

def clear : RetransmissionManager :=
  { m with sackManager := m.sackManager.clear, simpleRetxManager := m.simpleRetxManager.clear }

/-- Some kept packet has reached its deadline. -/
def hasRetransmissionTimeout (rto : Duration) (now : Instant) : Bool :=
  (m.sackManager.nextRtoDeadline rto).any (now ≥ ·) ||
    m.simpleRetxManager.nextRetransmissionDeadline.any (now ≥ ·)

/-- The manager keeps a frame with this description under this sequence number. -/
def Keeps (q : ℕ) (i : RetransmissionFrameInfo) : Prop :=
  m.sackManager.info? q = some i ∨ m.simpleRetxManager.info? q = some i

variable {m}

theorem isAllInFlightEmpty_iff : m.isAllInFlightEmpty = true ↔ ∀ q i, ¬ m.Keeps q i := by
  rw [isAllInFlightEmpty, Bool.and_eq_true, SackManager.isInFlightEmpty_iff,
    SimpleRetransmissionManager.isEmpty_iff]
  simp only [Keeps, not_or, forall_and, Option.eq_none_iff_forall_ne_some, ne_eq]

theorem hasFinInFlight_iff :
    m.hasFinInFlight = true ↔ ∃ q i, m.Keeps q i ∧ i.frameType = .fin := by
  rw [hasFinInFlight, Bool.or_eq_true, SackManager.hasFinInFlight_iff,
    SimpleRetransmissionManager.hasFrameTypeInFlight_iff]
  simp only [Keeps, or_and_right, exists_or]

theorem keeps_of_processAck {n : ℕ} {rs : List SackRange} {now : Instant}
    {c : RetransmissionContext} {q : ℕ} {i : RetransmissionFrameInfo}
    (h : (m.processAck n rs now c).2.Keeps q i) : m.Keeps q i := by
  rcases h with h | h
  · left
    rw [processAck, SackManager.info?_processAck] at h
    split at h
    · cases h
    · exact h
  · exact Or.inr (SimpleRetransmissionManager.info?_acknowledgeUpTo
      (SimpleRetransmissionManager.info?_acknowledgeSackRanges h))

theorem keeps_of_checkForRetransmissions {rto : Duration} {now : Instant}
    {c : RetransmissionContext} {q : ℕ} {i : RetransmissionFrameInfo}
    (h : (m.checkForRetransmissions rto now c).2.Keeps q i) : m.Keeps q i := by
  rcases h with h | h
  · exact Or.inl (by rwa [checkForRetransmissions, SackManager.info?_checkForRto] at h)
  · exact Or.inr (SimpleRetransmissionManager.info?_checkForRetransmissions (c := c) h)

theorem rebuilds_processAck {n : ℕ} {rs : List SackRange} {now : Instant}
    {c : RetransmissionContext} {f : Frame}
    (h : f ∈ (m.processAck n rs now c).1.framesToRetransmit) :
    ∃ q i, (m.processAck n rs now c).2.Keeps q i ∧ f = i.reconstructFrame c now := by
  obtain ⟨q, i, hi, rfl⟩ := SackManager.rebuilds_processAck (m := m.sackManager) h
  exact ⟨q, i, Or.inl hi, rfl⟩

theorem rebuilds_checkForRetransmissions {rto : Duration} {now : Instant}
    {c : RetransmissionContext} {f : Frame} (h : f ∈ (m.checkForRetransmissions rto now c).1) :
    ∃ q i, (m.checkForRetransmissions rto now c).2.Keeps q i ∧ f = i.reconstructFrame c now := by
  rcases List.mem_append.mp h with h | h
  · obtain ⟨q, i, hi, rfl⟩ := SackManager.rebuilds_checkForRto h
    exact ⟨q, i, Or.inl (by rwa [checkForRetransmissions, SackManager.info?_checkForRto]), rfl⟩
  · obtain ⟨q, i, hi, rfl⟩ := SimpleRetransmissionManager.rebuilds_checkForRetransmissions h
    exact ⟨q, i, Or.inr hi, rfl⟩

theorem addInFlightPacket_of_sequenceNumber {f : Frame} (h : f.sequenceNumber = none)
    (now : Instant) : m.addInFlightPacket f now = m := by
  unfold addInFlightPacket
  split
  · rw [SackManager.addInFlightPacket, h]
  · rw [SimpleRetransmissionManager.addPacket, h]
  · rfl

theorem keeps_addInFlightPacket {f : Frame} {now : Instant} {q : ℕ}
    {i : RetransmissionFrameInfo} (h : (m.addInFlightPacket f now).Keeps q i) :
    m.Keeps q i ∨ f.sequenceNumber = some q ∧ RetransmissionFrameInfo.fromFrame f = some i := by
  unfold addInFlightPacket at h
  split at h
  · rcases h with h | h
    · rcases SackManager.info?_addInFlightPacket_cases f now q with he | ⟨hs, he⟩
      · exact Or.inl (Or.inl (he ▸ h))
      · exact Or.inr ⟨hs, he ▸ h⟩
    · exact Or.inl (Or.inr h)
  · rcases h with h | h
    · exact Or.inl (Or.inl h)
    · rcases SimpleRetransmissionManager.info?_addPacket f now q with he | ⟨hs, he⟩
      · exact Or.inl (Or.inr (he ▸ h))
      · exact Or.inr ⟨hs, he ▸ h⟩
  · exact Or.inl h

theorem info?_addInFlightPacket_of_ne {f : Frame} {q : ℕ} (h : f.sequenceNumber ≠ some q)
    (now : Instant) :
    (m.addInFlightPacket f now).sackManager.info? q = m.sackManager.info? q := by
  unfold addInFlightPacket
  split
  · rcases SackManager.info?_addInFlightPacket_cases (m := m.sackManager) f now q with he | ⟨hs, -⟩
    · exact he
    · exact absurd hs h
  · rfl
  · rfl

theorem keeps_addAll {frames : List Frame} {now : Instant} {q : ℕ} {i : RetransmissionFrameInfo}
    (h : (m.addAll frames now).Keeps q i) :
    m.Keeps q i ∨ ∃ f ∈ frames, f.sequenceNumber = some q ∧
      RetransmissionFrameInfo.fromFrame f = some i := by
  induction frames generalizing m with
  | nil => exact Or.inl h
  | cons f frames ih =>
    rcases ih h with h | ⟨g, hg, hq, hi⟩
    · rcases keeps_addInFlightPacket h with h | ⟨hq, hi⟩
      · exact Or.inl h
      · exact Or.inr ⟨f, List.mem_cons_self .., hq, hi⟩
    · exact Or.inr ⟨g, List.mem_cons_of_mem _ hg, hq, hi⟩

theorem Keeps.addInFlightPacket {f : Frame} {q : ℕ} {i : RetransmissionFrameInfo}
    (hk : m.Keeps q i) (h : f.sequenceNumber ≠ some q) (now : Instant) :
    (m.addInFlightPacket f now).Keeps q i := by
  rcases hk with hk | hk
  · left
    rw [info?_addInFlightPacket_of_ne h, hk]
  · right
    unfold RetransmissionManager.addInFlightPacket
    split
    · exact hk
    · rcases SimpleRetransmissionManager.info?_addPacket f now q with he | ⟨hs, -⟩
      · exact he.trans hk
      · exact absurd hs h
    · exact hk

theorem Keeps.addAll {frames : List Frame} {q : ℕ} {i : RetransmissionFrameInfo}
    (hk : m.Keeps q i) (h : ∀ f ∈ frames, f.sequenceNumber ≠ some q) (now : Instant) :
    (m.addAll frames now).Keeps q i := by
  induction frames generalizing m with
  | nil => exact hk
  | cons f frames ih =>
    rw [List.forall_mem_cons] at h
    exact ih (hk.addInFlightPacket h.1 now) h.2

theorem keeps_addInFlightPacket_fin (h : ShortHeader) (now : Instant) :
    (m.addInFlightPacket (.fin h) now).Keeps h.sequenceNumber
      ⟨.fin, h.sequenceNumber, [], none⟩ := by
  unfold addInFlightPacket Frame.reliabilityModeWithConfig
  dsimp only
  split
  · rename_i hm
    left
    rw [SackManager.info?_addInFlightPacket rfl rfl, if_pos rfl]
  · right
    simp [SimpleRetransmissionManager.addPacket, SimpleRetransmissionManager.info?,
      Frame.sequenceNumber, Frame.reliabilityMode, RetransmissionFrameInfo.fromFrame]
  · rename_i hm
    split at hm <;> cases hm

theorem hasFinInFlight_addInFlightPacket (h : ShortHeader) (now : Instant) :
    (m.addInFlightPacket (.fin h) now).hasFinInFlight = true :=
  hasFinInFlight_iff.mpr ⟨_, _, keeps_addInFlightPacket_fin h now, rfl⟩

theorem info?_addInFlightPacket_push {h : ShortHeader} {p : Bytes} (now : Instant) (q : ℕ) :
    (m.addInFlightPacket (.push h p) now).sackManager.info? q =
      if h.sequenceNumber = q then some ⟨.push, h.sequenceNumber, p, none⟩
      else m.sackManager.info? q := by
  rw [addInFlightPacket, Frame.reliabilityModeWithConfig_push]
  exact SackManager.info?_addInFlightPacket rfl rfl now q

@[simp] theorem addInFlightPacket_push_simple {h : ShortHeader} {p : Bytes} (now : Instant) :
    (m.addInFlightPacket (.push h p) now).simpleRetxManager = m.simpleRetxManager := by
  rw [addInFlightPacket, Frame.reliabilityModeWithConfig_push]

end RetransmissionManager

end Kestrel
