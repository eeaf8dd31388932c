import Kestrel.Lib.Transition
import Kestrel.Reliability.Congestion

/-! # The congestion window

An ack moves the window by at most one packet, a loss never raises it, and neither lets it fall
below the minimum. So few acks cannot carry it out of its range, and the unsigned arithmetic of
the controller never wraps.
-/

namespace Kestrel

/-- The bounds a configuration has to keep for the window to be safe. -/
structure CongestionControlConfig.WindowValid (c : CongestionControlConfig) : Prop where
  one_le_min : 1 ≤ c.minCwndPackets
  min_le_initial : c.minCwndPackets ≤ c.initialCwndPackets
  initial_le : c.initialCwndPackets ≤ 2 ^ 31
  factor_nonneg : 0 ≤ c.vegasGentleDecreaseFactor
  factor_le_one : c.vegasGentleDecreaseFactor ≤ 1

namespace Vegas

inductive Op where
  | onAck (rtt : Duration)
  | onPacketLoss
  deriving DecidableEq, Repr

def Op.isAck : Op → Bool
  | .onAck _ => true
  | .onPacketLoss => false

variable (v : Vegas)

def apply : Op → Vegas
  | .onAck rtt => v.onAck rtt
  | .onPacketLoss => v.onPacketLoss

def system (config : Config) : TransitionSystem Vegas Op where
  init v := v = .new config
  step v op v' := v.apply op = v'

/-- A loss would count as congestive. -/
def CongestiveLoss : Prop := v.lastRtt = unmeasured ∨ v.lastRtt > v.minRtt + v.minRtt / 5

instance : Decidable v.CongestiveLoss := inferInstanceAs (Decidable (_ ∨ _))

/-- Half the window, and the minimum at least. -/
def halvedWindow : ℕ := max (v.congestionWindow / 2) v.config.congestionControl.minCwndPackets

/-- The window times the gentle factor, converted to 32 bits. -/
def scaledWindow : ℕ :=
  min ⌊(v.congestionWindow : ℚ) * v.config.congestionControl.vegasGentleDecreaseFactor⌋.toNat
    (u32Size - 1)

/-- The scaled window, and the minimum at least. -/
def gentleWindow : ℕ := max v.scaledWindow v.config.congestionControl.minCwndPackets

/-- The arithmetic of the operation stays in range, and the operation moves the window only as far
as it may. -/
def StepSafe : Op → Prop
  | .onAck rtt =>
    1 ≤ v.congestionWindow ∧ v.congestionWindow + 1 < u32Size ∧
      (v.onAck rtt).congestionWindow ≤ v.congestionWindow + 1 ∧
      v.congestionWindow ≤ (v.onAck rtt).congestionWindow + 1
  | .onPacketLoss =>
    (v.congestionWindow : ℚ) * v.config.congestionControl.vegasGentleDecreaseFactor < u32Size ∧
      v.onPacketLoss.congestionWindow ≤ v.congestionWindow ∧
      (v.CongestiveLoss →
        v.onPacketLoss.slowStartThreshold = v.onPacketLoss.congestionWindow ∧
          v.config.congestionControl.minCwndPackets ≤ v.onPacketLoss.slowStartThreshold)

variable {v}

theorem onPacketLoss_of_congestive (h : v.CongestiveLoss) :
    v.onPacketLoss = { v with
      slowStartThreshold := v.halvedWindow
      congestionWindow := v.halvedWindow
      state := .slowStart } :=
  if_pos h

theorem onPacketLoss_of_not_congestive (h : ¬ v.CongestiveLoss) :
    v.onPacketLoss = { v with congestionWindow := v.gentleWindow } :=
  if_neg h

@[simp] theorem config_onPacketLoss : v.onPacketLoss.config = v.config := by
  by_cases h : v.CongestiveLoss
  · rw [onPacketLoss_of_congestive h]
  · rw [onPacketLoss_of_not_congestive h]

@[simp] theorem config_onAck (rtt : Duration) : (v.onAck rtt).config = v.config := by
  unfold onAck
  dsimp only
  split
  · rfl
  · split
    · rfl
    · split_ifs <;> rfl

@[simp] theorem slowStartThreshold_onAck (rtt : Duration) :
    (v.onAck rtt).slowStartThreshold = v.slowStartThreshold := by
  unfold onAck
  dsimp only
  split
  · rfl
  · split
    · rfl
    · split_ifs <;> rfl

@[simp] theorem config_apply (op : Op) : (v.apply op).config = v.config := by
  cases op <;> simp [apply]

theorem congestionWindow_onAck (rtt : Duration) :
    (v.onAck rtt).congestionWindow = (v.congestionWindow + 1) % u32Size ∨
      (v.onAck rtt).congestionWindow = max ((v.congestionWindow + (u32Size - 1)) % u32Size)
        v.config.congestionControl.minCwndPackets ∨
      (v.onAck rtt).congestionWindow = v.congestionWindow := by
  unfold onAck
  dsimp only
  split
  · exact Or.inl rfl
  · split
    · exact Or.inr (Or.inr rfl)
    · split_ifs
      · exact Or.inl rfl
      · exact Or.inr (Or.inl rfl)
      · exact Or.inr (Or.inr rfl)

theorem onAck_bounds (hmin : v.config.congestionControl.minCwndPackets ≤ v.congestionWindow)
    (hone : 1 ≤ v.congestionWindow) (hsize : v.congestionWindow + 1 < u32Size) (rtt : Duration) :
    v.config.congestionControl.minCwndPackets ≤ (v.onAck rtt).congestionWindow ∧
      (v.onAck rtt).congestionWindow ≤ v.congestionWindow + 1 ∧
      v.congestionWindow ≤ (v.onAck rtt).congestionWindow + 1 := by
  have hless : (v.congestionWindow + (u32Size - 1)) % u32Size = v.congestionWindow - 1 := by
    rw [show v.congestionWindow + (u32Size - 1) = v.congestionWindow - 1 + u32Size by omega,
      Nat.add_mod_right, Nat.mod_eq_of_lt (by omega)]
  rcases congestionWindow_onAck (v := v) rtt with h | h | h
  · rw [Nat.mod_eq_of_lt hsize] at h
    omega
  · rw [hless] at h
    omega
  · omega

section Loss

variable (hmin : v.config.congestionControl.minCwndPackets ≤ v.congestionWindow)
include hmin

theorem halvedWindow_le : v.halvedWindow ≤ v.congestionWindow :=
  max_le (Nat.div_le_self _ _) hmin

theorem gentleWindow_le (hf : v.config.congestionControl.vegasGentleDecreaseFactor ≤ 1) :
    v.gentleWindow ≤ v.congestionWindow := by
  refine max_le (min_le_of_left_le ?_) hmin
  rw [Int.toNat_le]
  have hle : (v.congestionWindow : ℚ) * v.config.congestionControl.vegasGentleDecreaseFactor ≤
      v.congestionWindow := mul_le_of_le_one_right (Nat.cast_nonneg _) hf
  exact Int.floor_le_iff.mpr (hle.trans_lt (by simp))

theorem onPacketLoss_bounds (hf : v.config.congestionControl.vegasGentleDecreaseFactor ≤ 1) :
    v.config.congestionControl.minCwndPackets ≤ v.onPacketLoss.congestionWindow ∧
      v.onPacketLoss.congestionWindow ≤ v.congestionWindow := by
  by_cases h : v.CongestiveLoss
  · rw [onPacketLoss_of_congestive h]
    exact ⟨le_max_right _ _, halvedWindow_le hmin⟩
  · rw [onPacketLoss_of_not_congestive h]
    exact ⟨le_max_right _ _, gentleWindow_le hmin hf⟩

end Loss

variable {config : Config} {ops : List Op}

/-- The acks of a run bound how far the window has grown. -/
theorem window_bounds (hc : config.congestionControl.WindowValid) (h : (system config).Run ops v)
    (hacks : ops.countP Op.isAck < 2 ^ 31) :
    v.config = config ∧ config.congestionControl.minCwndPackets ≤ v.congestionWindow ∧
      v.congestionWindow ≤ config.congestionControl.initialCwndPackets + ops.countP Op.isAck := by
  induction h with
  | init h =>
    subst h
    exact ⟨rfl, hc.min_le_initial, Nat.le_add_right _ _⟩
  | @step ops v _ op _ h ih =>
    subst h
    rw [List.countP_append, List.countP_singleton] at hacks ⊢
    obtain ⟨rfl, hlow, hhigh⟩ := ih (by omega)
    have hone := hc.one_le_min
    have hinit := hc.initial_le
    refine ⟨config_apply op, ?_⟩
    cases op with
    | onAck rtt =>
      rw [if_pos (by rfl)] at hacks ⊢
      obtain ⟨hlow', hup, -⟩ := onAck_bounds hlow (by omega) (by simp only [u32Size]; omega) rtt
      exact ⟨hlow', by rw [apply]; omega⟩
    | onPacketLoss =>
      rw [if_neg (by decide)] at hacks ⊢
      obtain ⟨hlow', hup⟩ := onPacketLoss_bounds hlow hc.factor_le_one
      exact ⟨hlow', by rw [apply]; omega⟩

theorem slowStartThreshold_cases (h : (system config).Run ops v) :
    v.config = config ∧
      (v.slowStartThreshold = config.congestionControl.initialSsthresh ∨
        config.congestionControl.minCwndPackets ≤ v.slowStartThreshold) := by
  induction h with
  | init h =>
    subst h
    exact ⟨rfl, Or.inl rfl⟩
  | @step ops v _ op _ h ih =>
    subst h
    obtain ⟨rfl, hthreshold⟩ := ih
    refine ⟨config_apply op, ?_⟩
    cases op with
    | onAck rtt => rwa [apply, slowStartThreshold_onAck]
    | onPacketLoss =>
      rw [apply]
      by_cases hloss : v.CongestiveLoss
      · rw [onPacketLoss_of_congestive hloss]
        exact Or.inr (le_max_right _ _)
      · rwa [onPacketLoss_of_not_congestive hloss]

/-- Over fewer than `2 ^ 31` acks and any losses the window never falls below the minimum, and
every operation is safe. The threshold is the configured one or not below the minimum either. -/
theorem window_safe (hc : config.congestionControl.WindowValid) (h : (system config).Run ops v)
    (op : Op) (hacks : (ops ++ [op]).countP Op.isAck < 2 ^ 31) :
    config.congestionControl.minCwndPackets ≤ v.congestionWindow ∧
      config.congestionControl.minCwndPackets ≤ (v.apply op).congestionWindow ∧
      v.StepSafe op ∧
      ((v.apply op).slowStartThreshold = config.congestionControl.initialSsthresh ∨
        config.congestionControl.minCwndPackets ≤ (v.apply op).slowStartThreshold) := by
  have hthreshold := (slowStartThreshold_cases (.step h (i := op) rfl)).2
  have hnext := (window_bounds hc (.step h rfl) hacks).2.1
  rw [List.countP_append, List.countP_singleton] at hacks
  obtain ⟨rfl, hlow, hhigh⟩ := window_bounds hc h (by omega)
  have hone := hc.one_le_min
  have hinit := hc.initial_le
  refine ⟨hlow, hnext, ?_, hthreshold⟩
  cases op with
  | onAck rtt =>
    rw [if_pos (by rfl)] at hacks
    have hsize : v.congestionWindow + 1 < u32Size := by
      simp only [u32Size]
      omega
    obtain ⟨-, hup, hdown⟩ := onAck_bounds hlow (hone.trans hlow) hsize rtt
    exact ⟨hone.trans hlow, hsize, hup, hdown⟩
  | onPacketLoss =>
    have hwindow : v.congestionWindow < u32Size := by
      simp only [u32Size]
      omega
    have hproduct : (v.congestionWindow : ℚ) *
        v.config.congestionControl.vegasGentleDecreaseFactor ≤ v.congestionWindow :=
      mul_le_of_le_one_right (Nat.cast_nonneg _) hc.factor_le_one
    refine ⟨hproduct.trans_lt (by exact_mod_cast hwindow),
      (onPacketLoss_bounds hlow hc.factor_le_one).2, fun hloss => ?_⟩
    rw [onPacketLoss_of_congestive hloss]
    exact ⟨rfl, le_max_right _ _⟩

section Sample

theorem windowValid_default : ({} : CongestionControlConfig).WindowValid :=
  ⟨by decide, by decide, by decide, by decide +kernel, by decide +kernel⟩

theorem run_sample : (system {}).Run [.onAck 5, .onPacketLoss] ((new {}).onAck 5).onPacketLoss :=
  .step (l := [.onAck 5]) (i := Op.onPacketLoss)
    (.step (l := []) (i := Op.onAck 5) (.init rfl) rfl) rfl

/-- After an ack and a loss another ack is safe. -/
theorem window_safe_sample :
    4 ≤ ((new {}).onAck 5).onPacketLoss.congestionWindow ∧
      4 ≤ (((new {}).onAck 5).onPacketLoss.onAck 7).congestionWindow ∧
      ((new {}).onAck 5).onPacketLoss.StepSafe (.onAck 7) ∧
      ((((new {}).onAck 5).onPacketLoss.onAck 7).slowStartThreshold = u32Size - 1 ∨
        4 ≤ (((new {}).onAck 5).onPacketLoss.onAck 7).slowStartThreshold) :=
  window_safe windowValid_default run_sample (.onAck 7) (by decide)

end Sample

end Vegas

end Kestrel
