import Kestrel.Reliability.FastRetransmission

/-! # Round-trip samples

Every packet that an acknowledgment removes from the selective acknowledgment manager gives the
estimator a sample: the time since the packet was sent last. A packet that has been sent again gives
one too, although the acknowledgment may answer any of its transmissions.
-/

namespace Kestrel

open Std (ExtTreeMap)

namespace Frame

variable (config : Config)

/-- The number under which the selective acknowledgment manager keeps a frame. -/
def reliableNumber (f : Frame) : Option ℕ :=
  if f.reliabilityModeWithConfig config = .reliable then f.trackedNumber else none

/-- The selective acknowledgment manager keeps one of the frames under the number. -/
def SentReliably (frames : List Frame) (q : ℕ) : Prop :=
  ∃ f ∈ frames, f.reliableNumber config = some q

instance (frames : List Frame) : DecidablePred (SentReliably config frames) := fun q =>
  inferInstanceAs (Decidable (∃ f ∈ frames, f.reliableNumber config = some q))

variable {config} {f g : Frame} {q : ℕ} {i : RetransmissionFrameInfo}

theorem reliableNumber_eq_some : f.reliableNumber config = some q ↔
    f.reliabilityModeWithConfig config = .reliable ∧ f.trackedNumber = some q := by
  simp [reliableNumber]

theorem exists_fromFrame (hq : f.trackedNumber = some q) :
    ∃ i, RetransmissionFrameInfo.fromFrame f = some i := by
  cases f with
  | push | fin | pathChallenge | pathResponse => exact ⟨_, rfl⟩
  | ack | ping | syn | synAck => cases hq

theorem SameContent.reliableNumber_eq (h : g.SameContent f) :
    g.reliableNumber config = f.reliableNumber config := by
  have ht := h.frameType_eq
  have hs := h.sequenceNumber_eq
  cases f <;> cases g <;>
    simp_all [frameType, sequenceNumber, reliableNumber, reliabilityModeWithConfig, trackedNumber]

end Frame

namespace RetransmissionManager

variable {m : RetransmissionManager} {f : Frame} {frames : List Frame} {now : Instant} {q : ℕ}
  {p : SackInFlightPacket}

theorem getElem?_addInFlightPacket_of_ne (h : f.reliableNumber m.config ≠ some q) :
    (m.addInFlightPacket f now).sackManager.inFlightPackets[q]? =
      m.sackManager.inFlightPackets[q]? := by
  rw [addInFlightPacket]
  split
  · rename_i hm
    refine SackManager.getElem?_addInFlightPacket_of_ne ?_ now
    exact fun hq => h (Frame.reliableNumber_eq_some.mpr ⟨hm, hq⟩)
  · rfl
  · rfl

theorem getElem?_addInFlightPacket {i : RetransmissionFrameInfo}
    (h : f.reliableNumber m.config = some q) (hi : RetransmissionFrameInfo.fromFrame f = some i) :
    (m.addInFlightPacket f now).sackManager.inFlightPackets[q]? = some ⟨now, i, 0⟩ := by
  obtain ⟨hm, hq⟩ := Frame.reliableNumber_eq_some.mp h
  rw [addInFlightPacket, hm]
  exact SackManager.getElem?_addInFlightPacket hq hi now

@[simp] theorem config_addInFlightPacket :
    (m.addInFlightPacket f now).config = m.config :=
  config_apply (.addInFlightPacket f now)

@[simp] theorem config_addAll : (m.addAll frames now).config = m.config := by
  induction frames generalizing m with
  | nil => rfl
  | cons f frames ih => exact ih.trans config_addInFlightPacket

theorem getElem?_addAll (h : (m.addAll frames now).sackManager.inFlightPackets[q]? = some p) :
    (∃ f ∈ frames, f.reliableNumber m.config = some q ∧
        RetransmissionFrameInfo.fromFrame f = some p.frameInfo ∧ p.lastSentAt = now) ∨
      ¬ Frame.SentReliably m.config frames q ∧ m.sackManager.inFlightPackets[q]? = some p := by
  induction frames generalizing m with
  | nil => exact Or.inr ⟨by simp [Frame.SentReliably], h⟩
  | cons f frames ih =>
    rcases ih h with ⟨g, hg, hr, hi, ht⟩ | ⟨hnot, hp⟩
    · rw [config_addInFlightPacket] at hr
      exact Or.inl ⟨g, List.mem_cons_of_mem _ hg, hr, hi, ht⟩
    · rw [config_addInFlightPacket] at hnot
      by_cases hf : f.reliableNumber m.config = some q
      · obtain ⟨i, hi⟩ := Frame.exists_fromFrame (Frame.reliableNumber_eq_some.mp hf).2
        rw [getElem?_addInFlightPacket hf hi] at hp
        cases hp
        exact Or.inl ⟨f, List.mem_cons_self .., hf, hi, rfl⟩
      · rw [getElem?_addInFlightPacket_of_ne hf] at hp
        refine Or.inr ⟨?_, hp⟩
        rintro ⟨g, hg, hr⟩
        rcases List.mem_cons.mp hg with rfl | hg
        · exact hf hr
        · exact hnot ⟨g, hg, hr⟩

/-- What each of the two managers keeps was stored from a frame that is kept there. -/
structure Assigned (m : RetransmissionManager) : Prop where
  sack : ∀ q i, m.sackManager.info? q = some i → ∃ f, Frame.reliableNumber m.config f = some q ∧
    RetransmissionFrameInfo.fromFrame f = some i
  simple : ∀ q i, m.simpleRetxManager.info? q = some i → ∃ f, Frame.trackedNumber f = some q ∧
    Frame.reliableNumber m.config f = none ∧ RetransmissionFrameInfo.fromFrame f = some i

theorem assigned_new (config : Config) : (new config).Assigned := by
  constructor <;> simp [new]

theorem Assigned.addInFlightPacket (h : m.Assigned) (f : Frame) (now : Instant) :
    (m.addInFlightPacket f now).Assigned := by
  unfold RetransmissionManager.addInFlightPacket
  split
  · rename_i hm
    constructor
    · intro q i hi
      rcases SackManager.info?_addInFlightPacket_cases f now q with he | ⟨hs, he⟩
      · exact h.sack q i (he ▸ hi)
      · have hf := he ▸ hi
        exact ⟨f, Frame.reliableNumber_eq_some.mpr
          ⟨hm, Frame.trackedNumber_of_sequenceNumber hs hf⟩, hf⟩
    · exact h.simple
  · rename_i hm
    constructor
    · exact h.sack
    · intro q i hi
      rcases SimpleRetransmissionManager.info?_addPacket f now q with he | ⟨hs, he⟩
      · exact h.simple q i (he ▸ hi)
      · have hf := he ▸ hi
        exact ⟨f, Frame.trackedNumber_of_sequenceNumber hs hf,
          by simp [Frame.reliableNumber, hm], hf⟩
  · exact h

theorem Assigned.addAll (h : m.Assigned) (frames : List Frame) (now : Instant) :
    (m.addAll frames now).Assigned := by
  induction frames generalizing m with
  | nil => exact h
  | cons f frames ih => exact ih (h.addInFlightPacket f now)

theorem Assigned.of_info? (h : m.Assigned) {m' : RetransmissionManager} (hc : m'.config = m.config)
    (hsack : ∀ q i, m'.sackManager.info? q = some i → m.sackManager.info? q = some i)
    (hsimple : ∀ q i, m'.simpleRetxManager.info? q = some i →
      m.simpleRetxManager.info? q = some i) : m'.Assigned := by
  constructor
  · intro q i hi
    rw [hc]
    exact h.sack q i (hsack q i hi)
  · intro q i hi
    rw [hc]
    exact h.simple q i (hsimple q i hi)

variable {n : ℕ} {rs : List SackRange} {c : RetransmissionContext} {rto : Duration}

theorem Assigned.processAck (h : m.Assigned) : (m.processAck n rs now c).2.Assigned := by
  refine h.of_info? rfl ?_ ?_
  · intro q i hi
    rw [RetransmissionManager.processAck, SackManager.info?_processAck] at hi
    split at hi
    · cases hi
    · exact hi
  · exact fun q i hi => SimpleRetransmissionManager.info?_acknowledgeUpTo
      (SimpleRetransmissionManager.info?_acknowledgeSackRanges hi)

theorem Assigned.checkForRetransmissions (h : m.Assigned) :
    (m.checkForRetransmissions rto now c).2.Assigned := by
  refine h.of_info? rfl ?_ ?_
  · intro q i hi
    rwa [RetransmissionManager.checkForRetransmissions, SackManager.info?_checkForRto] at hi
  · exact fun q i hi => SimpleRetransmissionManager.info?_checkForRetransmissions (c := c) hi

theorem Assigned.hasNumber (h : m.Assigned) {i : RetransmissionFrameInfo}
    (hi : m.sackManager.info? q = some i) : i.HasNumber q := by
  obtain ⟨f, hf, hfrom⟩ := h.sack q i hi
  exact RetransmissionFrameInfo.hasNumber_fromFrame
    (Frame.sequenceNumber_of_trackedNumber (Frame.reliableNumber_eq_some.mp hf).2) hfrom

theorem Assigned.reliableNumber_of_rebuilds (h : m.Assigned) {m' : SackManager}
    (hm : ∀ q i, m'.info? q = some i → m.sackManager.info? q = some i)
    (hg : SackManager.Rebuilds c now m' f) : f.reliableNumber m.config = f.sequenceNumber := by
  obtain ⟨q, i, hi, rfl⟩ := hg
  obtain ⟨f, hf, hfrom⟩ := h.sack q i (hm q i hi)
  have hq := (Frame.reliableNumber_eq_some.mp hf).2
  have hsame := Frame.sameContent_reconstructFrame hq hfrom c now
  rw [hsame.reliableNumber_eq, hsame.sequenceNumber_eq, hf, Frame.sequenceNumber_of_trackedNumber hq]

theorem sentReliably_iff_sendsNumber
    (h : ∀ f ∈ frames, f.reliableNumber m.config = f.sequenceNumber) :
    Frame.SentReliably m.config frames q ↔ SendsNumber frames q := by
  simp only [Frame.SentReliably, SendsNumber]
  constructor
  · rintro ⟨f, hf, hq⟩
    exact ⟨f, hf, h f hf ▸ hq⟩
  · rintro ⟨f, hf, hq⟩
    exact ⟨f, hf, (h f hf).trans hq⟩

theorem Assigned.sentReliably_processAck (h : m.Assigned) :
    Frame.SentReliably m.config (m.processAck n rs now c).1.framesToRetransmit q ↔
      ¬ AckNames n rs q ∧ ∃ p, m.sackManager.inFlightPackets[q]? = some p ∧
        0 < m.sackManager.sackedAbove n rs q ∧ m.sackManager.Lost p := by
  rw [← SackManager.sendsNumber_processAck (fun k j hj => h.hasNumber hj)]
  refine sentReliably_iff_sendsNumber fun f hf => ?_
  refine h.reliableNumber_of_rebuilds ?_ (SackManager.rebuilds_processAck hf)
  intro q i hi
  rw [SackManager.info?_processAck] at hi
  split at hi
  · cases hi
  · exact hi

theorem Assigned.sentReliably_checkForRetransmissions (h : m.Assigned) :
    Frame.SentReliably m.config (m.checkForRetransmissions rto now c).1 q ↔
      ∃ p, m.sackManager.inFlightPackets[q]? = some p ∧ now - p.lastSentAt > rto := by
  rw [← SackManager.sendsNumber_checkForRto (fun k j hj => h.hasNumber hj)]
  have hsack : ∀ f ∈ (m.sackManager.checkForRto rto now c).1,
      f.reliableNumber m.config = f.sequenceNumber :=
    fun f hf => h.reliableNumber_of_rebuilds (fun _ _ hi => hi) (SackManager.rebuilds_checkForRto hf)
  rw [← sentReliably_iff_sendsNumber hsack]
  -- A frame that the other manager rebuilds is not kept by this one.
  constructor
  · rintro ⟨f, hf, hq⟩
    rcases List.mem_append.mp hf with hf | hf
    · exact ⟨f, hf, hq⟩
    · obtain ⟨k, i, hi, rfl⟩ := SimpleRetransmissionManager.rebuilds_checkForRetransmissions hf
      obtain ⟨g, hg, hnone, hfrom⟩ :=
        h.simple k i (SimpleRetransmissionManager.info?_checkForRetransmissions (c := c) hi)
      rw [(Frame.sameContent_reconstructFrame hg hfrom c now).reliableNumber_eq, hnone] at hq
      cases hq
  · rintro ⟨f, hf, hq⟩
    exact ⟨f, List.mem_append_left _ hf, hq⟩

end RetransmissionManager

/-- What the estimator takes in: a sample, with the times at which the packet was sent and the time
of the acknowledgment, or a timeout. -/
inductive Measurement where
  | sample (sends : List Instant) (ackedAt : Instant) (rtt : Duration)
  | timeout
  deriving DecidableEq, Repr

namespace Measurement

/-- A sample is unambiguous if the packet was sent only once and the time is counted from then. -/
def Unambiguous : Measurement → Prop
  | .sample sends ackedAt rtt => ∃ t, sends = [t] ∧ rtt = ackedAt - t
  | .timeout => True

def takeIn (minRto : Duration) (e : RttEstimator) : Measurement → RttEstimator
  | .sample _ _ rtt => e.update rtt minRto
  | .timeout => e.backoff

/-- The estimator that has taken in these measurements. -/
def estimate (config : Config) (measured : List Measurement) : RttEstimator :=
  measured.foldl (takeIn config.reliability.minRto) (.new config.reliability.initialRto)

end Measurement

namespace LayerRun

/-- When an operation takes place; the others send nothing. -/
def Op.time : Op → Instant
  | .packetize _ _ now _ _ | .packetizeZeroRtt _ _ now _ _ _ | .track _ now | .handleAck _ _ now _
  | .checkRetransmissions now _ => now
  | .write _ | .nextSequenceNumber | .clear | .receive .. | .reassemble | .ackSent => 0

variable {C : Type} [CongestionControl C]

/-- The frames that an operation of a layer tracks. -/
def tracks (l : ReliabilityLayer C) (op : Op) : List Frame :=
  (apply ⟨l, []⟩ op).2.events.filterMap fun
    | .tracked frame => some frame
    | .acknowledged .. => none

end LayerRun

namespace ReliabilityLayer

variable {C : Type} [CongestionControl C] {l : ReliabilityLayer C}

theorem rtoEstimator_takeSamples (samples : List Duration) :
    (l.takeSamples samples).rtoEstimator =
      samples.foldl (fun e s => e.update s l.config.reliability.minRto) l.rtoEstimator := by
  induction samples generalizing l with
  | nil => rfl
  | cons s samples ih => exact ih

theorem rtoEstimator_handleAck (n : ℕ) (rs : List SackRange) (now : Instant)
    (c : RetransmissionContext) : (l.handleAck n rs now c).2.rtoEstimator =
      (l.retransmissionManager.processAck n rs now c).1.rttSamples.foldl
        (fun e s => e.update s l.config.reliability.minRto) l.rtoEstimator := by
  unfold handleAck
  dsimp only
  split <;> exact rtoEstimator_takeSamples _

theorem rtoEstimator_checkRetransmissions (now : Instant) (c : RetransmissionContext) :
    (l.checkRetransmissions now c).2.rtoEstimator =
      if (l.checkRetransmissions now c).1.isEmpty then l.rtoEstimator
      else l.rtoEstimator.backoff := by
  unfold checkRetransmissions
  dsimp only
  split <;> simp [*]

end ReliabilityLayer

/-- A layer beside the times at which the packet under each number was sent, whether that packet has
timed out at a check or was skipped too often since it was tracked, and what was measured. -/
structure SampleRun (C : Type) where
  layer : ReliabilityLayer C
  sends : ℕ → List Instant
  overdue : ℕ → Bool
  measured : List Measurement

namespace SampleRun

open LayerRun (Op)

variable {C : Type} [CongestionControl C] (w : SampleRun C)

/-- The packet kept under a number has timed out at the check, or is skipped too often by the
acknowledgment. -/
def FallsDue (q : ℕ) : Op → Prop
  | .handleAck recvNextSeq sackRanges _ _ =>
    ¬ AckNames recvNextSeq sackRanges q ∧
      ∃ p ∈ w.layer.retransmissionManager.sackManager.inFlightPackets[q]?,
        0 < w.layer.retransmissionManager.sackManager.sackedAbove recvNextSeq sackRanges q ∧
          w.layer.retransmissionManager.sackManager.Lost p
  | .checkRetransmissions now _ =>
    ∃ p ∈ w.layer.retransmissionManager.sackManager.inFlightPackets[q]?,
      now - p.lastSentAt > w.layer.rtoEstimator.rto
  | _ => False

instance (q : ℕ) : DecidablePred (w.FallsDue q)
  | .handleAck recvNextSeq sackRanges _ _ => inferInstanceAs (Decidable
      (¬ AckNames recvNextSeq sackRanges q ∧
        ∃ p ∈ w.layer.retransmissionManager.sackManager.inFlightPackets[q]?,
          0 < w.layer.retransmissionManager.sackManager.sackedAbove recvNextSeq sackRanges q ∧
            w.layer.retransmissionManager.sackManager.Lost p))
  | .checkRetransmissions now _ => inferInstanceAs (Decidable
      (∃ p ∈ w.layer.retransmissionManager.sackManager.inFlightPackets[q]?,
        now - p.lastSentAt > w.layer.rtoEstimator.rto))
  | .write _ | .packetize .. | .packetizeZeroRtt .. | .nextSequenceNumber | .track .. | .clear
  | .receive .. | .reassemble | .ackSent => .isFalse id

/-- What an operation gives the estimator. -/
def measures : Op → List Measurement
  | .handleAck recvNextSeq sackRanges now context =>
    let result :=
      (w.layer.retransmissionManager.processAck recvNextSeq sackRanges now context).1
    List.zipWith (fun q rtt => .sample (w.sends q) now rtt)
      result.newlyAckedSequences result.rttSamples
  | .checkRetransmissions now context =>
    if (w.layer.checkRetransmissions now context).1.isEmpty then [] else [.timeout]
  | _ => []

/-- Carries out an operation. A frame that is tracked is sent for the first time, and one that comes
back is sent again. -/
def apply (op : Op) : SampleRun C :=
  let (frames, run) := LayerRun.apply ⟨w.layer, []⟩ op
  let tracked := LayerRun.tracks w.layer op
  { layer := run.layer
    sends := fun q =>
      if Frame.SentReliably w.layer.config tracked q then [op.time]
      else if Frame.SentReliably w.layer.config frames q then w.sends q ++ [op.time]
      else w.sends q
    overdue := fun q =>
      !decide (Frame.SentReliably w.layer.config tracked q) && (w.overdue q || w.FallsDue q op)
    measured := w.measured ++ w.measures op }

def system (config : Config) (cc : C) : TransitionSystem (SampleRun C) Op where
  init w := w = ⟨.new config cc, fun _ => [], fun _ => false, []⟩
  step w op w' := w.apply op = w'

/-- An acknowledgment names no packet that has timed out or was skipped too often. -/
def InTime : Op → Prop
  | .handleAck recvNextSeq sackRanges _ _ => ∀ (q : ℕ) (p : SackInFlightPacket),
    w.layer.retransmissionManager.sackManager.inFlightPackets[q]? = some p →
      AckNames recvNextSeq sackRanges q → w.overdue q = false
  | _ => True

/-- The record of the packets that are kept is right, and so is what was measured. -/
structure Recorded (config : Config) : Prop where
  config_eq : w.layer.config = config
  manager_config : w.layer.retransmissionManager.config = config
  assigned : w.layer.retransmissionManager.Assigned
  last_sent : ∀ (q : ℕ) (p : SackInFlightPacket),
    w.layer.retransmissionManager.sackManager.inFlightPackets[q]? = some p →
      (w.sends q).getLast? = some p.lastSentAt
  once_iff : ∀ (q : ℕ) (p : SackInFlightPacket),
    w.layer.retransmissionManager.sackManager.inFlightPackets[q]? = some p →
      ((w.sends q).length = 1 ↔ w.overdue q = false)
  estimator_eq : w.layer.rtoEstimator = Measurement.estimate config w.measured

variable {w} {config : Config}

omit [CongestionControl C] in
theorem Recorded.track (h : w.Recorded config) {w' : SampleRun C} {frames : List Frame}
    {now : Instant} (hc : w'.layer.config = w.layer.config)
    (hm : w'.layer.retransmissionManager = w.layer.retransmissionManager.addAll frames now)
    (he : w'.layer.rtoEstimator = w.layer.rtoEstimator)
    (hs : ∀ q, w'.sends q =
      if Frame.SentReliably w.layer.config frames q then [now] else w.sends q)
    (ho : ∀ q, w'.overdue q =
      (!decide (Frame.SentReliably w.layer.config frames q) && w.overdue q))
    (hmeasured : w'.measured = w.measured) : w'.Recorded config := by
  have hcases (q : ℕ) (p : SackInFlightPacket)
      (hp : w'.layer.retransmissionManager.sackManager.inFlightPackets[q]? = some p) :
      Frame.SentReliably w.layer.config frames q ∧ p.lastSentAt = now ∨
        ¬ Frame.SentReliably w.layer.config frames q ∧
          w.layer.retransmissionManager.sackManager.inFlightPackets[q]? = some p := by
    rw [hm] at hp
    rw [h.config_eq, ← h.manager_config]
    rcases RetransmissionManager.getElem?_addAll hp with ⟨f, hf, hq, -, ht⟩ | hold
    · exact Or.inl ⟨⟨f, hf, hq⟩, ht⟩
    · exact Or.inr hold
  constructor
  · rw [hc, h.config_eq]
  · rw [hm, RetransmissionManager.config_addAll, h.manager_config]
  · rw [hm]
    exact h.assigned.addAll frames now
  · intro q p hp
    rcases hcases q p hp with ⟨hnew, ht⟩ | ⟨hnew, hp⟩
    · simp [hs, hnew, ht]
    · simp [hs, hnew, h.last_sent q p hp]
  · intro q p hp
    rcases hcases q p hp with ⟨hnew, -⟩ | ⟨hnew, hp⟩
    · simp [hs, ho, hnew]
    · simp [hs, ho, hnew, h.once_iff q p hp]
  · rw [he, hmeasured, h.estimator_eq]

omit [CongestionControl C] in
theorem Recorded.resend (h : w.Recorded config) {w' : SampleRun C} (again : ℕ → Prop)
    [DecidablePred again] (now : Instant) (hc : w'.layer.config = w.layer.config)
    (hmc : w'.layer.retransmissionManager.config = w.layer.retransmissionManager.config)
    (ha : w'.layer.retransmissionManager.Assigned)
    (hkept : ∀ (q : ℕ) (p' : SackInFlightPacket),
      w'.layer.retransmissionManager.sackManager.inFlightPackets[q]? = some p' →
        ∃ p, w.layer.retransmissionManager.sackManager.inFlightPackets[q]? = some p ∧
          p'.lastSentAt = if again q then now else p.lastSentAt)
    (hs : ∀ q, w'.sends q = if again q then w.sends q ++ [now] else w.sends q)
    (ho : ∀ q, w'.overdue q = (w.overdue q || decide (again q)))
    (he : w'.layer.rtoEstimator = Measurement.estimate config w'.measured) :
    w'.Recorded config := by
  constructor
  · rw [hc, h.config_eq]
  · rw [hmc, h.manager_config]
  · exact ha
  · intro q p' hp'
    obtain ⟨p, hp, ht⟩ := hkept q p' hp'
    rw [hs, ht]
    split
    · simp
    · exact h.last_sent q p hp
  · intro q p' hp'
    obtain ⟨p, hp, -⟩ := hkept q p' hp'
    have hone := h.once_iff q p hp
    rw [hs, ho]
    by_cases hq : again q
    · have hpos : w.sends q ≠ [] := by
        intro hnil
        have hlast := h.last_sent q p hp
        rw [hnil] at hlast
        cases hlast
      simp [hq, hpos]
    · simpa [hq] using hone
  · exact he

theorem measures_handleAck (n : ℕ) (rs : List SackRange) (now : Instant)
    (c : RetransmissionContext) : w.measures (.handleAck n rs now c) =
      (w.layer.retransmissionManager.sackManager.acked n rs).map fun e =>
        .sample (w.sends e.1) now (now - e.2.lastSentAt) := by
  have hacked : (w.layer.retransmissionManager.processAck n rs now c).1.newlyAckedSequences =
      (w.layer.retransmissionManager.sackManager.acked n rs).map Prod.fst ++
        w.layer.retransmissionManager.simpleRetxManager.acked n rs := by
    rw [← SackManager.newlyAckedSequences_processAck now c]
    rfl
  have hsamples : (w.layer.retransmissionManager.processAck n rs now c).1.rttSamples =
      (w.layer.retransmissionManager.sackManager.acked n rs).map fun e => now - e.2.lastSentAt :=
    SackManager.rttSamples_processAck (c := c)
  rw [measures, hacked, hsamples]
  induction w.layer.retransmissionManager.sackManager.acked n rs with
  | nil => simp
  | cons e es ih => simpa using ih

/-- The samples of an acknowledgment are unambiguous exactly if it names no packet that has timed
out or was skipped too often. -/
theorem Recorded.unambiguous_iff (h : w.Recorded config) (op : Op) :
    (∀ e ∈ w.measures op, e.Unambiguous) ↔ w.InTime op := by
  cases op with
  | handleAck n rs now c =>
    rw [measures_handleAck, List.forall_mem_map]
    constructor
    · intro hall q p hp hn
      obtain ⟨t, ht, -⟩ := hall (q, p) (SackManager.mem_acked.mpr ⟨hn, hp⟩)
      rw [← h.once_iff q p hp, ht, List.length_singleton]
    · rintro htime ⟨q, p⟩ hqp
      obtain ⟨hn, hp⟩ := SackManager.mem_acked.mp hqp
      have hone := (h.once_iff q p hp).mpr (htime q p hp hn)
      have hlast := h.last_sent q p hp
      obtain ⟨t, ht⟩ := List.length_eq_one_iff.mp hone
      rw [ht, List.getLast?_singleton] at hlast
      cases hlast
      exact ⟨_, ht, rfl⟩
  | checkRetransmissions now c =>
    refine iff_of_true ?_ trivial
    intro e he
    rw [measures] at he
    split at he
    · cases he
    · rw [List.mem_singleton.mp he]
      trivial
  | _ => exact iff_of_true (by simp [measures]) trivial

@[simp] theorem sentReliably_nil {q : ℕ} : ¬ Frame.SentReliably config [] q := by
  simp [Frame.SentReliably]

theorem sends_of_tracks_nil {op : Op} (h : LayerRun.tracks w.layer op = []) (q : ℕ) :
    (w.apply op).sends q =
      if Frame.SentReliably w.layer.config (LayerRun.apply ⟨w.layer, []⟩ op).1 q then
        w.sends q ++ [op.time]
      else w.sends q := by
  simp [apply, h]

theorem overdue_of_tracks_nil {op : Op} (h : LayerRun.tracks w.layer op = []) (q : ℕ) :
    (w.apply op).overdue q = (w.overdue q || decide (w.FallsDue q op)) := by
  simp [apply, h]

theorem Recorded.handleAck (h : w.Recorded config) (n : ℕ) (rs : List SackRange) (now : Instant)
    (c : RetransmissionContext) : (w.apply (.handleAck n rs now c)).Recorded config := by
  obtain ⟨r, cc, he⟩ := ReliabilityLayer.handleAck_eq (l := w.layer) n rs now c
  have hlayer : (w.apply (.handleAck n rs now c)).layer = (w.layer.handleAck n rs now c).2 := rfl
  have hframes : (w.layer.handleAck n rs now c).1 =
      (w.layer.retransmissionManager.processAck n rs now c).1.framesToRetransmit := by rw [he]
  have hmanager : (w.layer.handleAck n rs now c).2.retransmissionManager =
      (w.layer.retransmissionManager.processAck n rs now c).2 := by rw [he]
  have hconfig : w.layer.config = w.layer.retransmissionManager.config := by
    rw [h.config_eq, h.manager_config]
  have hagain (q : ℕ) : Frame.SentReliably w.layer.config (w.layer.handleAck n rs now c).1 q ↔
      w.FallsDue q (.handleAck n rs now c) := by
    rw [hframes, hconfig, h.assigned.sentReliably_processAck]
    rfl
  refine h.resend (fun q => w.FallsDue q (.handleAck n rs now c)) now ?_ ?_ ?_ ?_ ?_ ?_ ?_
  · rw [hlayer, he]
  · rw [hlayer, hmanager]
    rfl
  · rw [hlayer, hmanager]
    exact h.assigned.processAck
  · intro q p' hp'
    rw [hlayer, hmanager] at hp'
    change (w.layer.retransmissionManager.sackManager.processAck n rs now c).2.inFlightPackets[q]? =
      some p' at hp'
    have hn : ¬ AckNames n rs q := by
      intro hn
      have hi := SackManager.info?_processAck
        (m := w.layer.retransmissionManager.sackManager) n rs now c q
      simp [if_pos hn, SackManager.info?, hp'] at hi
    rw [SackManager.getElem?_processAck hn] at hp'
    obtain ⟨p, hp, rfl⟩ := Option.map_eq_some_iff.mp hp'
    refine ⟨p, hp, ?_⟩
    by_cases hpos : 0 < w.layer.retransmissionManager.sackManager.sackedAbove n rs q
    · by_cases hl : w.layer.retransmissionManager.sackManager.Lost p <;>
        simp [FallsDue, SackManager.skip, hn, hp, hpos, hl]
    · simp [FallsDue, hpos]
  · intro q
    rw [sends_of_tracks_nil rfl]
    exact if_congr (hagain q) rfl rfl
  · exact overdue_of_tracks_nil rfl
  · have hmeasured : (w.apply (.handleAck n rs now c)).measured =
        w.measured ++ w.measures (.handleAck n rs now c) := rfl
    rw [hlayer, ReliabilityLayer.rtoEstimator_handleAck, hmeasured, measures_handleAck,
      Measurement.estimate, List.foldl_append, ← Measurement.estimate, ← h.estimator_eq,
      List.foldl_map, h.config_eq]
    have hsamples : (w.layer.retransmissionManager.processAck n rs now c).1.rttSamples =
        (w.layer.retransmissionManager.sackManager.acked n rs).map fun e => now - e.2.lastSentAt :=
      SackManager.rttSamples_processAck (c := c)
    rw [hsamples, List.foldl_map]
    rfl

theorem Recorded.checkRetransmissions (h : w.Recorded config) (now : Instant)
    (c : RetransmissionContext) : (w.apply (.checkRetransmissions now c)).Recorded config := by
  obtain ⟨r, cc, he⟩ := ReliabilityLayer.checkRetransmissions_eq (l := w.layer) now c
  have hlayer : (w.apply (.checkRetransmissions now c)).layer =
      (w.layer.checkRetransmissions now c).2 := rfl
  have hframes : (w.layer.checkRetransmissions now c).1 =
      (w.layer.retransmissionManager.checkForRetransmissions w.layer.rtoEstimator.rto now c).1 := by
    rw [he]
  have hmanager : (w.layer.checkRetransmissions now c).2.retransmissionManager =
      (w.layer.retransmissionManager.checkForRetransmissions w.layer.rtoEstimator.rto now c).2 := by
    rw [he]
  have hconfig : w.layer.config = w.layer.retransmissionManager.config := by
    rw [h.config_eq, h.manager_config]
  have hagain (q : ℕ) : Frame.SentReliably w.layer.config (w.layer.checkRetransmissions now c).1 q ↔
      w.FallsDue q (.checkRetransmissions now c) := by
    rw [hframes, hconfig, h.assigned.sentReliably_checkForRetransmissions]
    rfl
  refine h.resend (fun q => w.FallsDue q (.checkRetransmissions now c)) now ?_ ?_ ?_ ?_ ?_ ?_ ?_
  · rw [hlayer, he]
  · rw [hlayer, hmanager]
    rfl
  · rw [hlayer, hmanager]
    exact h.assigned.checkForRetransmissions
  · intro q p' hp'
    rw [hlayer, hmanager] at hp'
    change (w.layer.retransmissionManager.sackManager.checkForRto w.layer.rtoEstimator.rto now
      c).2.inFlightPackets[q]? = some p' at hp'
    rw [SackManager.getElem?_checkForRto] at hp'
    obtain ⟨p, hp, rfl⟩ := Option.map_eq_some_iff.mp hp'
    refine ⟨p, hp, ?_⟩
    by_cases hlate : now - p.lastSentAt > w.layer.rtoEstimator.rto <;> simp [FallsDue, hp, hlate]
  · intro q
    rw [sends_of_tracks_nil rfl]
    exact if_congr (hagain q) rfl rfl
  · exact overdue_of_tracks_nil rfl
  · have hmeasured : (w.apply (.checkRetransmissions now c)).measured =
        w.measured ++ w.measures (.checkRetransmissions now c) := rfl
    rw [hlayer, ReliabilityLayer.rtoEstimator_checkRetransmissions, hmeasured, measures,
      Measurement.estimate, List.foldl_append, ← Measurement.estimate, ← h.estimator_eq]
    split <;> rfl

theorem Recorded.tracking (h : w.Recorded config) {op : Op} (frames : List Frame)
    {layer : ReliabilityLayer C}
    (hop : LayerRun.apply ⟨w.layer, []⟩ op = ([], ⟨layer, frames.map .tracked⟩))
    (hdue : ∀ q, ¬ w.FallsDue q op) (hmeasures : w.measures op = [])
    (hc : layer.config = w.layer.config) (he : layer.rtoEstimator = w.layer.rtoEstimator)
    (hm : layer.retransmissionManager = w.layer.retransmissionManager.addAll frames op.time) :
    (w.apply op).Recorded config := by
  have ht : LayerRun.tracks w.layer op = frames := by
    simp [LayerRun.tracks, hop, List.filterMap_map]
  have hlayer : (w.apply op).layer = layer := congrArg (fun r => r.2.layer) hop
  refine h.track (hlayer ▸ hc) (hlayer ▸ hm) (hlayer ▸ he) ?_ ?_ ?_
  · intro q
    simp [SampleRun.apply, ht, hop]
  · intro q
    simp [SampleRun.apply, ht, hdue]
  · simp [SampleRun.apply, hmeasures]

theorem Recorded.keeping (h : w.Recorded config) {op : Op} {layer : ReliabilityLayer C}
    (hop : LayerRun.apply ⟨w.layer, []⟩ op = ([], ⟨layer, []⟩))
    (hdue : ∀ q, ¬ w.FallsDue q op) (hmeasures : w.measures op = [])
    (hc : layer.config = w.layer.config) (he : layer.rtoEstimator = w.layer.rtoEstimator)
    (hmc : layer.retransmissionManager.config = w.layer.retransmissionManager.config)
    (hsack : ∀ (q : ℕ) p, layer.retransmissionManager.sackManager.inFlightPackets[q]? = some p →
      w.layer.retransmissionManager.sackManager.inFlightPackets[q]? = some p)
    (hsimple : ∀ q i, layer.retransmissionManager.simpleRetxManager.info? q = some i →
      w.layer.retransmissionManager.simpleRetxManager.info? q = some i) :
    (w.apply op).Recorded config := by
  have ht : LayerRun.tracks w.layer op = [] := by
    simp [LayerRun.tracks, hop]
  have hlayer : (w.apply op).layer = layer := congrArg (fun r => r.2.layer) hop
  refine h.resend (fun _ => False) 0 (hlayer ▸ hc) (hlayer ▸ hmc) ?_ ?_ ?_ ?_ ?_
  · rw [hlayer]
    refine h.assigned.of_info? hmc ?_ hsimple
    intro q i hi
    obtain ⟨p, hp, hpi⟩ := Option.map_eq_some_iff.mp hi
    rw [SackManager.info?, hsack q p hp]
    exact congrArg some hpi
  · intro q p hp
    rw [hlayer] at hp
    exact ⟨p, hsack q p hp, rfl⟩
  · intro q
    simp [sends_of_tracks_nil ht, hop]
  · intro q
    simp [overdue_of_tracks_nil ht, hdue]
  · simp [SampleRun.apply, hmeasures, hop, he, h.estimator_eq]

theorem Recorded.apply (h : w.Recorded config) (op : Op) : (w.apply op).Recorded config := by
  cases op with
  | handleAck n rs now c => exact h.handleAck n rs now c
  | checkRetransmissions now c => exact h.checkRetransmissions now c
  | track frame now => exact h.tracking [frame] rfl (fun _ => id) rfl rfl rfl rfl
  | packetize peerCid window now start prependFrame =>
    obtain ⟨frames, b, n, d, hp⟩ : ∃ frames b n d,
        w.layer.packetizeStreamData peerCid window now start prependFrame =
          (frames, { w.layer with
            sendBuffer := b
            sequenceNumberCounter := n
            packetized := d
            retransmissionManager := w.layer.retransmissionManager.addAll frames now }) := by
      rw [ReliabilityLayer.packetizeStreamData]
      dsimp only
      rw [ReliabilityLayer.trackAll_eq]
      exact ⟨_, _, _, _, rfl⟩
    have hop : LayerRun.apply ⟨w.layer, []⟩ (.packetize peerCid window now start prependFrame) =
        ([], ⟨(w.layer.packetizeStreamData peerCid window now start prependFrame).2,
          frames.map .tracked⟩) := by
      rw [LayerRun.apply, hp]
      rfl
    refine h.tracking frames hop (fun _ => id) rfl ?_ ?_ ?_ <;> rw [hp]
    rfl
  | packetizeZeroRtt peerCid window now start synAckFrame maxPacketSize =>
    cases hz : w.layer.packetizeZeroRttStreamData peerCid window now start synAckFrame
        maxPacketSize with
    | none =>
      have hop : LayerRun.apply ⟨w.layer, []⟩
          (.packetizeZeroRtt peerCid window now start synAckFrame maxPacketSize) =
            ([], ⟨w.layer, [].map .tracked⟩) := by
        simp [LayerRun.apply, hz]
      exact h.tracking [] hop (fun _ => id) rfl rfl rfl rfl
    | some r =>
      obtain ⟨packets, layer⟩ := r
      have hop : LayerRun.apply ⟨w.layer, []⟩
          (.packetizeZeroRtt peerCid window now start synAckFrame maxPacketSize) =
            ([], ⟨layer, packets.flatten.map .tracked⟩) := by
        simp [LayerRun.apply, hz]
      rw [ReliabilityLayer.packetizeZeroRttStreamData] at hz
      obtain ⟨packets', -, he⟩ := Option.map_eq_some_iff.mp hz
      rw [ReliabilityLayer.trackAll_eq] at he
      cases he
      exact h.tracking packets.flatten hop (fun _ => id) rfl rfl rfl rfl
  | write | nextSequenceNumber | reassemble | ackSent =>
    exact h.keeping rfl (fun _ => id) rfl rfl rfl rfl (fun _ _ => id) (fun _ _ => id)
  | clear =>
    refine h.keeping rfl (fun _ => id) rfl rfl rfl rfl ?_ ?_ <;>
      simp [ReliabilityLayer.clearInFlightPackets, RetransmissionManager.clear, SackManager.clear]
  | receive q p =>
    cases ha : w.layer.recvBuffer.accepts q with
    | false =>
      have hr := ReliabilityLayer.receive_eq_of_not_accepts (p := p) ha
      have hop : LayerRun.apply ⟨w.layer, []⟩ (.receive q p) = ([], ⟨w.layer, []⟩) := by
        simp [LayerRun.apply, hr]
      exact h.keeping hop (fun _ => id) rfl rfl rfl rfl (fun _ _ => id) (fun _ _ => id)
    | true =>
      have hr := ReliabilityLayer.receive_eq_of_accepts (p := p) ha
      have hop : LayerRun.apply ⟨w.layer, []⟩ (.receive q p) =
          ([], ⟨(w.layer.receive q p).2, []⟩) := rfl
      rw [hr] at hop
      exact h.keeping hop (fun _ => id) rfl rfl rfl rfl (fun _ _ => id) (fun _ _ => id)

variable {cc : C}

theorem recorded (h : (system config cc).Reachable w) : w.Recorded config := by
  have hinv : (system config cc).Invariant fun w => w.Recorded config :=
    { init := by
        rintro _ rfl
        refine ⟨rfl, rfl, RetransmissionManager.assigned_new config, ?_, ?_, rfl⟩ <;>
          simp [ReliabilityLayer.new, RetransmissionManager.new, SackManager.new]
      step := by
        rintro w op _ - hw rfl
        exact hw.apply op }
  exact hinv.holds h

/-- In every run the estimator is what the measurements make of a new one. All of them are
unambiguous exactly if no acknowledgment of the run names a packet that had timed out at a check or
was skipped too often. -/
theorem samples_unambiguous_iff {ops : List Op} (h : (system config cc).Run ops w) :
    w.layer.rtoEstimator = Measurement.estimate config w.measured ∧
      ((∀ e ∈ w.measured, e.Unambiguous) ↔
        ((system config cc).restrict fun w op _ => w.InTime op).Run ops w) := by
  refine ⟨(recorded h.reachable).estimator_eq, ?_, ?_⟩
  · intro hall
    induction h with
    | init h => exact .init h
    | @step ops w _ op hr hstep ih =>
      obtain rfl := hstep
      obtain ⟨hold, hnew⟩ := List.forall_mem_append.mp hall
      exact .step (ih hold) ⟨rfl, ((recorded hr.reachable).unambiguous_iff op).mp hnew⟩
  · intro hrun
    have hinv : ((system config cc).restrict fun w op _ => w.InTime op).Invariant
        fun w => ∀ e ∈ w.measured, e.Unambiguous :=
      { init := by
          rintro _ rfl
          simp
        step := by
          rintro w op _ hr hw ⟨rfl, htime⟩
          exact List.forall_mem_append.mpr
            ⟨hw, ((recorded hr.of_restrict).unambiguous_iff op).mpr htime⟩ }
    exact hinv.holds hrun.reachable

section Sample

/-- A PUSH is tracked, checked and acknowledged at these times. -/
def samplePush (checkedAt ackedAt : Instant) : List Op :=
  [.track (.newPush 2 0 0 9 0 [7]) 0, .checkRetransmissions checkedAt ⟨0, 2, 1, 1, 0, 9⟩,
    .handleAck 1 [] ackedAt ⟨0, 2, 1, 1, 0, 9⟩]

def after (ops : List Op) : SampleRun Vegas :=
  ops.foldl apply ⟨.new {} (.new {}), fun _ => [], fun _ => false, []⟩

theorem run_after (ops : List Op) : (system {} (Vegas.new {})).Run ops (after ops) := by
  induction ops using List.reverseRecOn with
  | nil => exact .init rfl
  | append_singleton ops op ih =>
    refine .step ih ?_
    simp [after, system]

/-- Without a timeout the sample is unambiguous. -/
theorem samples_unambiguous_sample :
    (after (samplePush 100 200)).layer.rtoEstimator =
        Measurement.estimate {} (after (samplePush 100 200)).measured ∧
      ((∀ e ∈ (after (samplePush 100 200)).measured, e.Unambiguous) ↔
        ((system {} (Vegas.new {})).restrict fun w op _ => w.InTime op).Run (samplePush 100 200)
          (after (samplePush 100 200))) :=
  samples_unambiguous_iff (run_after _)

/-- An acknowledgment that arrives just after the PUSH was sent again gives a sample of one
nanosecond, which brings the timeout from two seconds down to its minimum. -/
theorem late_ack_sampled :
    (after (samplePush 1000000001 1000000002)).measured =
        [.timeout, .sample [0, 1000000001] 1000000002 1] ∧
      (after ((samplePush 1000000001 1000000002).take 2)).layer.rtoEstimator.rto = 2000000000 ∧
      (after (samplePush 1000000001 1000000002)).layer.rtoEstimator.rto = 500000000 ∧
      ¬ ∀ e ∈ (after (samplePush 1000000001 1000000002)).measured, e.Unambiguous := by
  have hmeasured : (after (samplePush 1000000001 1000000002)).measured =
      [.timeout, .sample [0, 1000000001] 1000000002 1] := by decide +kernel
  refine ⟨hmeasured, by decide +kernel, by decide +kernel, ?_⟩
  intro hall
  rw [hmeasured] at hall
  obtain ⟨t, ht, -⟩ := hall _ (List.mem_cons_of_mem _ (List.mem_singleton_self _))
  simp at ht

end Sample

end SampleRun

end Kestrel
