import Kestrel.Config
import Mathlib.Data.Rat.Floor

/-! # Congestion control

The interface of a congestion controller, the Vegas-like controller connections use, and the
round-trip estimator. Floating-point numbers are rational here.
-/

namespace Kestrel

class CongestionControl (C : Type) where
  onAck : C → Duration → C
  onPacketLoss : C → Instant → C
  congestionWindow : C → ℕ

namespace Vegas

inductive State where
  | slowStart
  | congestionAvoidance
  deriving DecidableEq, Repr

end Vegas

structure Vegas where
  congestionWindow : ℕ
  slowStartThreshold : ℕ
  state : Vegas.State
  minRtt : Duration
  lastRtt : Duration
  config : Config
  deriving DecidableEq, Repr

namespace Vegas

/-- The stand-in for a round-trip time not measured yet. -/
def unmeasured : Duration := Duration.fromSecs 18446744073709551615

def new (config : Config) : Vegas :=
  { congestionWindow := config.congestionControl.initialCwndPackets
    slowStartThreshold := config.congestionControl.initialSsthresh
    state := .slowStart
    minRtt := unmeasured
    lastRtt := unmeasured
    config }

variable (v : Vegas)

/-- The estimated number of queued packets; undefined for a round trip of no time at all, where
the quotient is not a number and passes neither comparison. -/
def diffPackets (minRtt rtt : Duration) : Option ℚ :=
  if minRtt = 0 then none
  else
    let expectedThroughput : ℚ := v.congestionWindow / (minRtt / 1000000000)
    let actualThroughput : ℚ := v.congestionWindow / (rtt / 1000000000)
    some ((expectedThroughput - actualThroughput) * (minRtt / 1000000000))

def onAck (rtt : Duration) : Vegas :=
  let minRtt := min v.minRtt rtt
  let v := { v with lastRtt := rtt, minRtt }
  match v.state with
  | .slowStart =>
    let congestionWindow := (v.congestionWindow + 1) % u32Size
    { v with
      congestionWindow
      state := if congestionWindow ≥ v.slowStartThreshold then .congestionAvoidance
        else .slowStart }
  | .congestionAvoidance =>
    match v.diffPackets minRtt rtt with
    | none => v
    | some diff =>
      if diff < v.config.congestionControl.vegasAlphaPackets then
        { v with congestionWindow := (v.congestionWindow + 1) % u32Size }
      else if diff > v.config.congestionControl.vegasBetaPackets then
        { v with
          congestionWindow := max ((v.congestionWindow + (u32Size - 1)) % u32Size)
            v.config.congestionControl.minCwndPackets }
      else v

def onPacketLoss : Vegas :=
  if v.lastRtt = unmeasured ∨ v.lastRtt > v.minRtt + v.minRtt / 5 then
    let threshold := max (v.congestionWindow / 2) v.config.congestionControl.minCwndPackets
    { v with slowStartThreshold := threshold, congestionWindow := threshold, state := .slowStart }
  else
    let reduced : ℚ := v.congestionWindow * v.config.congestionControl.vegasGentleDecreaseFactor
    { v with
      congestionWindow := max (min ⌊reduced⌋.toNat (u32Size - 1))
        v.config.congestionControl.minCwndPackets }

end Vegas

instance : CongestionControl Vegas where
  onAck := Vegas.onAck
  onPacketLoss v _ := v.onPacketLoss
  congestionWindow := Vegas.congestionWindow

/-- Seconds as a duration, rounded to the nearest nanosecond with ties to even. -/
def Duration.fromSecsF64 (secs : ℚ) : Duration :=
  let nanos := secs * 1000000000
  let low := ⌊nanos⌋.toNat
  let rest := nanos - low
  if rest < 1 / 2 then low
  else if rest > 1 / 2 then low + 1
  else if low % 2 = 0 then low else low + 1

structure RttEstimator where
  srtt : ℚ
  rttvar : ℚ
  rto : Duration
  deriving DecidableEq, Repr

namespace RttEstimator

def new (initialRto : Duration) : RttEstimator := ⟨0, 0, initialRto⟩

def update (e : RttEstimator) (rttSample minRto : Duration) : RttEstimator :=
  let sample : ℚ := rttSample / 1000000000
  let rttvar := if e.srtt = 0 then sample / 2 else 3 / 4 * e.rttvar + 1 / 4 * |e.srtt - sample|
  let srtt := if e.srtt = 0 then sample else 7 / 8 * e.srtt + 1 / 8 * sample
  { srtt, rttvar, rto := max (Duration.fromSecsF64 (srtt + 4 * rttvar)) minRto }

/-- Doubles the timeout. -/
def backoff (e : RttEstimator) : RttEstimator := { e with rto := e.rto * 2 }

end RttEstimator

end Kestrel
