import Kestrel.Reliability.CongestionWindow
import Kestrel.Reliability.Deadlines
import Kestrel.Reliability.Layer

/-! # Losses

Retransmissions of both managers come back in one list, and the layer reports a loss and backs off
whenever that list is not empty. So a control frame that is sent again moves the congestion state,
unless it already is where a loss would move it.
-/

namespace Kestrel

namespace RetransmissionManager

variable (m : RetransmissionManager)

/-- Some packet of the first manager has timed out. -/
def SackTimedOut (rto : Duration) (now : Instant) : Prop :=
  ∃ (q : ℕ) (p : SackInFlightPacket), m.sackManager.inFlightPackets[q]? = some p ∧
    now - p.lastSentAt > rto

/-- Some packet of the second manager is due and has retries left. -/
def RetriesControl (now : Instant) : Prop :=
  ∃ (q : ℕ) (p : SimpleInFlightPacket), m.simpleRetxManager.inFlightSimple[q]? = some p ∧
    now - p.lastSentAt ≥ p.retryInterval ∧ p.retryCount < p.maxRetries

variable {m}

theorem frames_checkForRetransmissions_ne_nil {rto : Duration} {now : Instant}
    {c : RetransmissionContext} :
    (m.checkForRetransmissions rto now c).1 ≠ [] ↔
      m.SackTimedOut rto now ∨ m.RetriesControl now :=
  frames_checkRetransmissionTimeouts_ne_nil

end RetransmissionManager

namespace Vegas

variable (v : Vegas)

/-- A loss would find the controller where it leaves it: in slow start with the window and the
threshold at the minimum if it counts as congestive, else at a window that the gentle factor does
not lower, or lowers below the minimum at which the window is. -/
def AtRest : Prop :=
  if v.CongestiveLoss then
    v.state = .slowStart ∧ v.slowStartThreshold = v.config.congestionControl.minCwndPackets ∧
      v.congestionWindow = v.config.congestionControl.minCwndPackets
  else
    v.config.congestionControl.minCwndPackets ≤ v.congestionWindow ∧
      (v.scaledWindow = v.congestionWindow ∨
        v.scaledWindow ≤ v.congestionWindow ∧
          v.congestionWindow = v.config.congestionControl.minCwndPackets)

instance : Decidable v.AtRest := by
  unfold AtRest
  infer_instance

/-- The window, the threshold and the state are the same. -/
def Agrees (v' : Vegas) : Prop :=
  v'.congestionWindow = v.congestionWindow ∧ v'.slowStartThreshold = v.slowStartThreshold ∧
    v'.state = v.state

variable {v}

theorem agrees_onPacketLoss_iff : v.Agrees v.onPacketLoss ↔ v.AtRest := by
  by_cases h : v.CongestiveLoss
  · rw [Agrees, AtRest, onPacketLoss_of_congestive h, if_pos h]
    dsimp only [halvedWindow]
    constructor
    · rintro ⟨hw, ht, hs⟩
      exact ⟨hs.symm, by omega, by omega⟩
    · rintro ⟨hs, ht, hw⟩
      exact ⟨by omega, by omega, hs.symm⟩
  · rw [Agrees, AtRest, onPacketLoss_of_not_congestive h, if_neg h]
    dsimp only [gentleWindow]
    simp only [and_self, and_true]
    omega

end Vegas

namespace ReliabilityLayer

variable (l : ReliabilityLayer Vegas)

/-- The congestion window, the slow-start threshold, the congestion state and the timeout are the
same. -/
def SameCongestion (l' : ReliabilityLayer Vegas) : Prop :=
  l.congestionControl.Agrees l'.congestionControl ∧ l'.rtoEstimator.rto = l.rtoEstimator.rto

variable {l} {now : Instant} {c : RetransmissionContext}

theorem checkRetransmissions_of_nil
    (h : (l.retransmissionManager.checkForRetransmissions l.rtoEstimator.rto now c).1 = []) :
    (l.checkRetransmissions now c).2 = { l with
      retransmissionManager :=
        (l.retransmissionManager.checkForRetransmissions l.rtoEstimator.rto now c).2 } := by
  unfold checkRetransmissions
  simp [h]

theorem checkRetransmissions_of_ne_nil
    (h : (l.retransmissionManager.checkForRetransmissions l.rtoEstimator.rto now c).1 ≠ []) :
    (l.checkRetransmissions now c).2 = { l with
      retransmissionManager :=
        (l.retransmissionManager.checkForRetransmissions l.rtoEstimator.rto now c).2
      congestionControl := l.congestionControl.onPacketLoss
      rtoEstimator := l.rtoEstimator.backoff } := by
  unfold checkRetransmissions
  simp [h, CongestionControl.onPacketLoss]

theorem sameCongestion_iff_of_ne_nil
    (h : (l.retransmissionManager.checkForRetransmissions l.rtoEstimator.rto now c).1 ≠ []) :
    l.SameCongestion (l.checkRetransmissions now c).2 ↔
      l.rtoEstimator.rto = 0 ∧ l.congestionControl.AtRest := by
  rw [SameCongestion, checkRetransmissions_of_ne_nil h, Vegas.agrees_onPacketLoss_iff, and_comm]
  have hdouble {n : ℕ} : n * 2 = n ↔ n = 0 := by omega
  exact and_congr_left' hdouble

/-- A check that finds no packet of the first manager timed out keeps the congestion state exactly
if no packet of the second manager is sent again either, or the layer is at rest with a timeout of
zero. -/
theorem sameCongestion_iff
    (h : ¬ l.retransmissionManager.SackTimedOut l.rtoEstimator.rto now)
    (c : RetransmissionContext) :
    l.SameCongestion (l.checkRetransmissions now c).2 ↔
      (l.retransmissionManager.RetriesControl now →
        l.rtoEstimator.rto = 0 ∧ l.congestionControl.AtRest) := by
  have hframes :
      (l.retransmissionManager.checkForRetransmissions l.rtoEstimator.rto now c).1 ≠ [] ↔
        l.retransmissionManager.RetriesControl now :=
    RetransmissionManager.frames_checkForRetransmissions_ne_nil.trans (or_iff_right h)
  by_cases hretry : l.retransmissionManager.RetriesControl now
  · rw [sameCongestion_iff_of_ne_nil (hframes.mpr hretry)]
    simp [hretry]
  · rw [checkRetransmissions_of_nil (not_not.mp (hframes.not.mpr hretry))]
    simp [SameCongestion, Vegas.Agrees, hretry]

section Sample

/-- A layer that has kept a FIN since the beginning. -/
def finKept : ReliabilityLayer Vegas :=
  (new {} (.new {})).trackFrameInFlight (.fin ⟨.fin, 1, 0, 0, 0, 0, 0⟩) 0

theorem not_sackTimedOut_finKept (rto : Duration) (now : Instant) :
    ¬ finKept.retransmissionManager.SackTimedOut rto now := by
  rintro ⟨q, p, hp, -⟩
  cases hp

/-- When the FIN is due, the check changes the congestion state. -/
theorem sameCongestion_sample : finKept.retransmissionManager.RetriesControl 500000000 ∧
    ¬ finKept.SameCongestion (finKept.checkRetransmissions 500000000 ⟨0, 1, 1, 2, 0, 0⟩).2 := by
  have hdue : finKept.retransmissionManager.RetriesControl 500000000 :=
    ⟨0, ⟨⟨.fin, 0, [], none⟩, 0, 0, 5, 500000000⟩, by decide, by decide, by decide⟩
  refine ⟨hdue, fun hsame => ?_⟩
  have hrest := (sameCongestion_iff (not_sackTimedOut_finKept _ _) ⟨0, 1, 1, 2, 0, 0⟩).mp hsame hdue
  exact absurd hrest.1 (by decide)

/-- Sending the FIN again halves the congestion window, sets the threshold and doubles the
timeout. -/
theorem control_frame_reported_as_loss :
    ¬ finKept.retransmissionManager.SackTimedOut finKept.rtoEstimator.rto 500000000 ∧
      finKept.congestionControl.congestionWindow = 32 ∧
      finKept.rtoEstimator.rto = 1000000000 ∧
      (finKept.checkRetransmissions 500000000 ⟨0, 1, 1, 2, 0, 0⟩).2.congestionControl.congestionWindow
        = 16 ∧
      (finKept.checkRetransmissions 500000000 ⟨0, 1, 1, 2, 0, 0⟩).2.rtoEstimator.rto
        = 2000000000 ∧
      ¬ finKept.SameCongestion (finKept.checkRetransmissions 500000000 ⟨0, 1, 1, 2, 0, 0⟩).2 := by
  have hwindow : (finKept.checkRetransmissions 500000000
      ⟨0, 1, 1, 2, 0, 0⟩).2.congestionControl.congestionWindow = 16 := by decide +kernel
  refine ⟨not_sackTimedOut_finKept _ _, by decide, by decide, hwindow, by decide +kernel, ?_⟩
  rintro ⟨⟨hsame, -⟩, -⟩
  rw [hwindow] at hsame
  exact absurd hsame (by decide)

end Sample

end ReliabilityLayer

end Kestrel
