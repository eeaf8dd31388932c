import Kestrel.Endpoint.Overflow
import Kestrel.Endpoint.Scheduler
import Kestrel.Reliability.Losses
import Kestrel.Reliability.Samples

/-! # Time arithmetic

The retransmission timeout is the one that the last sample left, doubled for each timeout since
then: nothing bounds it as long as no acknowledgment gives a sample. And the scheduler looks back an
hour at every poll, however long its clock has run. Within bounds on both, no addition, doubling or
subtraction of times panics.
-/

namespace Kestrel

/-- The number of values of an instant, in nanoseconds: its seconds have 63 bits. -/
def instantSize : ℕ := Duration.fromSecs (u64Size / 2)

theorem instantSize_le : instantSize ≤ durationSize := by decide

theorem Duration.fromSecsF64_le {secs : ℚ} {n : ℕ} (h : secs * 1000000000 ≤ n) :
    Duration.fromSecsF64 secs ≤ n := by
  have hfloor : ⌊secs * 1000000000⌋.toNat ≤ n := by
    have hle : ⌊secs * 1000000000⌋ ≤ (n : ℤ) := Int.floor_le_iff.mpr (by push_cast; linarith)
    omega
  -- A value above the whole number below it is below the bound.
  have hup (hrest : 1 / 2 ≤ secs * 1000000000 - (⌊secs * 1000000000⌋.toNat : ℚ)) :
      ⌊secs * 1000000000⌋.toNat + 1 ≤ n := by
    have hlt : ((⌊secs * 1000000000⌋.toNat : ℕ) : ℚ) < n := by linarith
    exact_mod_cast hlt
  unfold Duration.fromSecsF64
  dsimp only
  split
  · exact hfloor
  · rename_i hrest
    split
    · exact hup (not_lt.mp hrest)
    · split
      · exact hfloor
      · exact hup (not_lt.mp hrest)

namespace RttEstimator

variable {e : RttEstimator} {limit : ℕ}

/-- The smoothed round-trip time and its variation are at most this many nanoseconds. -/
structure Within (limit : ℕ) (e : RttEstimator) : Prop where
  srtt_nonneg : 0 ≤ e.srtt
  rttvar_nonneg : 0 ≤ e.rttvar
  srtt_le : e.srtt * 1000000000 ≤ limit
  rttvar_le : e.rttvar * 1000000000 ≤ limit

theorem Within.update (h : e.Within limit) {rttSample : Duration} (hs : rttSample ≤ limit)
    (minRto : Duration) : (e.update rttSample minRto).Within limit := by
  have hsrtt₀ := h.srtt_nonneg
  have hsrtt := h.srtt_le
  have hvar₀ := h.rttvar_nonneg
  have hvar := h.rttvar_le
  have hsample₀ : (0 : ℚ) ≤ rttSample / 1000000000 := by positivity
  have hsample : (rttSample / 1000000000 : ℚ) * 1000000000 ≤ limit := by
    rw [div_mul_cancel₀ _ (by norm_num)]
    exact_mod_cast hs
  unfold RttEstimator.update
  generalize (rttSample / 1000000000 : ℚ) = sample at hsample₀ hsample
  by_cases hzero : e.srtt = 0
  · constructor <;> simp only [hzero, if_true] <;> linarith
  · have habs₀ := abs_nonneg (e.srtt - sample)
    have habs : |e.srtt - sample| * 1000000000 ≤ limit := by
      rcases abs_cases (e.srtt - sample) with ⟨ha, -⟩ | ⟨ha, -⟩ <;> rw [ha] <;> linarith
    constructor <;> simp only [hzero, if_false] <;> linarith

theorem Within.rto_update_le (h : e.Within limit) {rttSample : Duration} (hs : rttSample ≤ limit)
    (minRto : Duration) : (e.update rttSample minRto).rto ≤ max (5 * limit) minRto := by
  have hnew := h.update hs minRto
  have hrto : (e.update rttSample minRto).rto =
      max (Duration.fromSecsF64 ((e.update rttSample minRto).srtt +
        4 * (e.update rttSample minRto).rttvar)) minRto := rfl
  rw [hrto]
  refine max_le_max (Duration.fromSecsF64_le ?_) le_rfl
  have hsrtt := hnew.srtt_le
  have hrttvar := hnew.rttvar_le
  push_cast
  linarith

end RttEstimator

namespace Measurement

variable {config : Config} {measured : List Measurement} {limit : ℕ}

/-- The number of timeouts since the last sample. -/
def timeouts (measured : List Measurement) : ℕ :=
  (measured.reverse.takeWhile fun e => e = .timeout).length

@[simp] theorem timeouts_nil : timeouts [] = 0 := rfl

@[simp] theorem timeouts_append_sample (sends : List Instant) (ackedAt : Instant)
    (rtt : Duration) : timeouts (measured ++ [.sample sends ackedAt rtt]) = 0 := by
  simp [timeouts]

@[simp] theorem timeouts_append_timeout :
    timeouts (measured ++ [.timeout]) = timeouts measured + 1 := by
  simp [timeouts]

theorem timeouts_eq_zero (h : .timeout ∉ measured) : timeouts measured = 0 := by
  induction measured using List.reverseRecOn with
  | nil => rfl
  | append_singleton measured e _ =>
    cases e with
    | sample => exact timeouts_append_sample ..
    | timeout => simp at h

theorem timeouts_append_le (measured more : List Measurement) :
    timeouts (measured ++ more) ≤ timeouts measured + timeouts more := by
  unfold timeouts
  rw [List.reverse_append, List.takeWhile_append]
  split
  · rename_i h
    rw [List.length_append, h, Nat.add_comm]
  · exact Nat.le_add_left _ _

/-- A sample is at most this long. -/
def AtMost (limit : ℕ) : Measurement → Prop
  | .sample _ _ rtt => rtt ≤ limit
  | .timeout => True

theorem estimate_append (config : Config) (measured : List Measurement) (e : Measurement) :
    estimate config (measured ++ [e]) =
      takeIn config.reliability.minRto (estimate config measured) e := by
  simp [estimate]

theorem within_estimate (config : Config) (h : ∀ e ∈ measured, e.AtMost limit) :
    (estimate config measured).Within limit := by
  induction measured using List.reverseRecOn with
  | nil => constructor <;> simp [estimate, RttEstimator.new]
  | append_singleton measured e ih =>
    obtain ⟨hold, hnew⟩ := List.forall_mem_append.mp h
    rw [estimate_append]
    cases e with
    | sample sends ackedAt rtt => exact (ih hold).update (hnew _ (List.mem_singleton_self _)) _
    | timeout => exact { ih hold with }

end Measurement

/-- The largest timeout after samples of limited length and a limited number of timeouts in a
row. -/
def Config.maxRto (config : Config) (retries limit : ℕ) : Duration :=
  max (max (5 * limit) config.reliability.minRto) config.reliability.initialRto * 2 ^ retries

theorem Config.maxRto_mono (config : Config) {k retries : ℕ} (h : k ≤ retries) (limit : ℕ) :
    config.maxRto k limit ≤ config.maxRto retries limit :=
  Nat.mul_le_mul_left _ (Nat.pow_le_pow_right (by decide) h)

namespace Measurement

variable {config : Config} {measured : List Measurement} {limit : ℕ}

theorem rto_estimate_le (config : Config) (h : ∀ e ∈ measured, e.AtMost limit) :
    (estimate config measured).rto ≤ config.maxRto (timeouts measured) limit := by
  induction measured using List.reverseRecOn with
  | nil => simp [estimate, RttEstimator.new, Config.maxRto]
  | append_singleton measured e ih =>
    obtain ⟨hold, hnew⟩ := List.forall_mem_append.mp h
    rw [estimate_append]
    cases e with
    | sample sends ackedAt rtt =>
      have hle := (within_estimate config hold).rto_update_le
        (hnew _ (List.mem_singleton_self _)) config.reliability.minRto
      rw [timeouts_append_sample, Config.maxRto, pow_zero, mul_one]
      exact hle.trans (le_max_left _ _)
    | timeout =>
      have hle := ih hold
      rw [timeouts_append_timeout, Config.maxRto, pow_succ, ← mul_assoc]
      exact Nat.mul_le_mul_right 2 hle

theorem minRto_le_estimate (h : ∃ e ∈ measured, e ≠ .timeout) :
    config.reliability.minRto ≤ (estimate config measured).rto := by
  induction measured using List.reverseRecOn with
  | nil => simp at h
  | append_singleton measured e ih =>
    rw [estimate_append]
    cases e with
    | sample sends ackedAt rtt => exact le_max_right _ _
    | timeout =>
      have hold : ∃ e ∈ measured, e ≠ .timeout := by simpa using h
      have hle := ih hold
      have hrto : (takeIn config.reliability.minRto (estimate config measured) .timeout).rto =
          (estimate config measured).rto * 2 := rfl
      rw [hrto]
      have hnat {a b : ℕ} (hab : a ≤ b) : a ≤ b * 2 := by omega
      exact hnat hle

end Measurement

namespace SampleRun

open LayerRun (Op)

variable {C : Type} [CongestionControl C] (w : SampleRun C) {op : Op} {limit : ℕ}

/-- Every timeout that the operation computes is a duration. -/
def Fits (op : Op) : Prop :=
  ∀ n ≤ (w.measures op).length, (((w.measures op).take n).foldl
    (Measurement.takeIn w.layer.config.reliability.minRto) w.layer.rtoEstimator).rto < durationSize

instance : DecidablePred w.Fits := fun op =>
  inferInstanceAs (Decidable (∀ n ≤ (w.measures op).length, _))

variable {w}

theorem atMost_measures (h : op.time ≤ limit) : ∀ e ∈ w.measures op, e.AtMost limit := by
  cases op with
  | handleAck n rs now c =>
    rw [measures_handleAck, List.forall_mem_map]
    intro e _
    exact (Nat.sub_le _ _).trans h
  | checkRetransmissions now c =>
    intro e he
    rw [measures] at he
    split at he
    · cases he
    · rw [List.mem_singleton.mp he]
      trivial
  | _ => simp [measures]

/-- Only a check that sends something again adds a timeout. -/
theorem timeouts_take_measures_le {retries : ℕ}
    (h : Measurement.timeouts w.measured ≤ retries)
    (hop : ∀ now c, op = .checkRetransmissions now c →
      (w.layer.checkRetransmissions now c).1 ≠ [] → Measurement.timeouts w.measured < retries)
    (n : ℕ) : Measurement.timeouts (w.measured ++ (w.measures op).take n) ≤ retries := by
  have hle := Measurement.timeouts_append_le w.measured ((w.measures op).take n)
  cases op with
  | handleAck n' rs now c =>
    have hzero : Measurement.timeouts ((w.measures (.handleAck n' rs now c)).take n) = 0 := by
      refine Measurement.timeouts_eq_zero fun hmem => ?_
      have hmem := List.mem_of_mem_take hmem
      simp [measures_handleAck] at hmem
    omega
  | checkRetransmissions now c =>
    by_cases hframes : (w.layer.checkRetransmissions now c).1 = []
    · simpa [measures, hframes] using h
    · have hlt := hop now c rfl hframes
      have hone : Measurement.timeouts ((w.measures (.checkRetransmissions now c)).take n) ≤ 1 :=
        (List.takeWhile_prefix _).length_le.trans (by simp [measures, hframes])
      omega
  | _ => simpa [measures] using h

theorem sends_le (h : ∀ q, ∀ t ∈ w.sends q, t ≤ limit) (hop : op.time ≤ limit) (q : ℕ) :
    ∀ t ∈ (w.apply op).sends q, t ≤ limit := by
  intro t ht
  simp only [apply] at ht
  split at ht
  · rwa [List.mem_singleton.mp ht]
  · split at ht
    · rcases List.mem_append.mp ht with ht | ht
      · exact h q t ht
      · rwa [List.mem_singleton.mp ht]
    · exact h q t ht

end SampleRun

/-- A layer with the record of its samples, beside the scheduler of its endpoint. -/
structure ClockRun (C : Type) where
  samples : SampleRun C
  scheduler : UnifiedTimeoutScheduler

namespace ClockRun

/-- What computes with times: an operation of the layer, or a call of the scheduler. -/
inductive Op (L : Type) where
  | layer (op : LayerRun.Op)
  | nextRtoDeadline
  | calculateUnifiedDeadline (layers : List L) (realNow : Instant)
  | checkUnifiedTimeoutEvents (layers : List L) (realNow : Instant)
  | cleanupExpiredData (now : Instant)

variable {C L : Type} [CongestionControl C] (w : ClockRun C)

def rto : Duration := w.samples.layer.rtoEstimator.rto

def manager : RetransmissionManager := w.samples.layer.retransmissionManager

/-- Carries out an operation; `none` where it panics. -/
def next [TimeoutLayer L] : Op L → Option (ClockRun C)
  | .layer op => if w.samples.Fits op then some { w with samples := w.samples.apply op } else none
  | .nextRtoDeadline =>
    if w.manager.sackManager.inFlightPackets.toList.all fun e =>
      decide (e.2.lastSentAt + w.rto < instantSize)
    then some w else none
  | .calculateUnifiedDeadline layers realNow =>
    (w.scheduler.calculateUnifiedDeadline layers realNow).map fun r => { w with scheduler := r.2 }
  | .checkUnifiedTimeoutEvents layers realNow =>
    some { w with scheduler := (w.scheduler.checkUnifiedTimeoutEvents layers realNow).2.2 }
  | .cleanupExpiredData now =>
    (w.scheduler.cleanupExpiredData now).map fun scheduler => { w with scheduler }

def system (L : Type) [TimeoutLayer L] (config : Config) (cc : C) :
    TransitionSystem (ClockRun C) (Op L) :=
  .ofNext (fun w => (SampleRun.system config cc).init w.samples ∧
    ∃ realNow, w.scheduler = .new realNow) fun w op => w.next op

/-- The clock has not gone beyond the limit, and far enough for the scheduler to look back; not too
many checks in a row send something again without a sample in between. -/
def Timely (retries limit : ℕ) : Op L → Prop
  | .layer op => op.time ≤ limit ∧ ∀ now c, op = .checkRetransmissions now c →
    w.manager.SackTimedOut w.rto now ∨ w.manager.RetriesControl now →
      Measurement.timeouts w.samples.measured < retries
  | .nextRtoDeadline | .checkUnifiedTimeoutEvents .. => True
  | .calculateUnifiedDeadline _ realNow =>
    (w.scheduler.cachedAnswer (w.scheduler.timeCache.now realNow).1).isSome = true ∨
      w.scheduler.timeoutPatterns.length < 3 ∨
        Duration.fromSecs 300 ≤ (w.scheduler.timeCache.now realNow).1
  | .cleanupExpiredData now => Duration.fromSecs 3600 ≤ now

/-- The record is right and within the limits. -/
structure Limited (config : Config) (retries limit : ℕ) : Prop where
  recorded : w.samples.Recorded config
  measured_le : ∀ e ∈ w.samples.measured, e.AtMost limit
  timeouts_le : Measurement.timeouts w.samples.measured ≤ retries
  sends_le : ∀ q, ∀ t ∈ w.samples.sends q, t ≤ limit

variable {w} {config : Config} {cc : C} {retries limit : ℕ}

omit [CongestionControl C] in
theorem Limited.rto_le (h : w.Limited config retries limit) :
    w.rto ≤ config.maxRto retries limit := by
  have hle := Measurement.rto_estimate_le config h.measured_le
  rw [← h.recorded.estimator_eq] at hle
  exact hle.trans (config.maxRto_mono h.timeouts_le limit)

theorem checkRetransmissions_ne_nil {now : Instant} {c : RetransmissionContext} :
    (w.samples.layer.checkRetransmissions now c).1 ≠ [] ↔
      w.manager.SackTimedOut w.rto now ∨ w.manager.RetriesControl now := by
  obtain ⟨r, cc, he⟩ := ReliabilityLayer.checkRetransmissions_eq (l := w.samples.layer) now c
  rw [he]
  exact RetransmissionManager.frames_checkForRetransmissions_ne_nil

theorem Limited.timeouts_take_le (h : w.Limited config retries limit) {op : LayerRun.Op}
    (hop : w.Timely (L := L) retries limit (.layer op)) (n : ℕ) :
    Measurement.timeouts (w.samples.measured ++ (w.samples.measures op).take n) ≤ retries := by
  refine SampleRun.timeouts_take_measures_le h.timeouts_le ?_ n
  intro now c hcheck hframes
  exact hop.2 now c hcheck (checkRetransmissions_ne_nil.mp hframes)

theorem Limited.layer (h : w.Limited config retries limit) {op : LayerRun.Op}
    (hop : w.Timely (L := L) retries limit (.layer op)) {w' : ClockRun C}
    (hs : w'.samples = w.samples.apply op) : w'.Limited config retries limit := by
  constructor <;> rw [hs]
  · exact h.recorded.apply op
  · exact List.forall_mem_append.mpr ⟨h.measured_le, SampleRun.atMost_measures hop.1⟩
  · have hle := h.timeouts_take_le hop (w.samples.measures op).length
    rwa [List.take_length] at hle
  · exact SampleRun.sends_le h.sends_le hop.1

theorem Limited.fits (h : w.Limited config retries limit) {op : LayerRun.Op}
    (hop : w.Timely (L := L) retries limit (.layer op))
    (hfit : limit + config.maxRto retries limit < instantSize) : w.samples.Fits op := by
  intro n _
  have hall : ∀ e ∈ w.samples.measured ++ (w.samples.measures op).take n, e.AtMost limit := by
    refine List.forall_mem_append.mpr ⟨h.measured_le, fun e he => ?_⟩
    exact SampleRun.atMost_measures hop.1 e (List.mem_of_mem_take he)
  have hle := Measurement.rto_estimate_le config hall
  have hfold : Measurement.estimate config (w.samples.measured ++ (w.samples.measures op).take n) =
      ((w.samples.measures op).take n).foldl
        (Measurement.takeIn w.samples.layer.config.reliability.minRto)
        w.samples.layer.rtoEstimator := by
    rw [h.recorded.estimator_eq, h.recorded.config_eq, Measurement.estimate, List.foldl_append]
    rfl
  rw [hfold] at hle
  have hmax := config.maxRto_mono (h.timeouts_take_le hop n) limit
  exact (hle.trans (hmax.trans (Nat.le_add_left _ limit))).trans_lt (hfit.trans_le instantSize_le)

omit [CongestionControl C] in
theorem Limited.fits_nextRtoDeadline (h : w.Limited config retries limit)
    (hfit : limit + config.maxRto retries limit < instantSize) {q : ℕ} {p : SackInFlightPacket}
    (hp : w.manager.sackManager.inFlightPackets[q]? = some p) :
    p.lastSentAt + w.rto < instantSize := by
  have hsent : p.lastSentAt ≤ limit :=
    h.sends_le q _ (List.mem_of_getLast? (h.recorded.last_sent q p hp))
  exact (Nat.add_le_add hsent h.rto_le).trans_lt hfit

variable [TimeoutLayer L]

/-- No timely operation panics. -/
theorem Limited.isSome_next (h : w.Limited config retries limit)
    (hfit : limit + config.maxRto retries limit < instantSize) {op : Op L}
    (hop : w.Timely retries limit op) : (w.next op).isSome = true := by
  cases op with
  | layer op => simp [next, h.fits hop hfit]
  | nextRtoDeadline =>
    have hall : ∀ e ∈ w.manager.sackManager.inFlightPackets.toList,
        e.2.lastSentAt + w.rto < instantSize :=
      fun e he => h.fits_nextRtoDeadline hfit (SortedMap.mem_toList.mp he)
    simpa [next] using hall
  | calculateUnifiedDeadline layers realNow =>
    rw [next, Option.isSome_map]
    exact (UnifiedTimeoutScheduler.isSome_calculateUnifiedDeadline layers).mpr hop
  | checkUnifiedTimeoutEvents layers realNow => rfl
  | cleanupExpiredData now =>
    rw [next, Option.isSome_map]
    exact UnifiedTimeoutScheduler.isSome_cleanupExpiredData.mpr hop

theorem samples_of_next {op : Op L} {w' : ClockRun C} (hn : w.next op = some w') :
    w'.samples = w.samples ∨ ∃ o, op = .layer o ∧ w'.samples = w.samples.apply o := by
  cases op with
  | layer op =>
    obtain ⟨-, rfl⟩ : w.samples.Fits op ∧ _ := by simpa [next] using hn
    exact Or.inr ⟨op, rfl, rfl⟩
  | nextRtoDeadline =>
    simp only [next, Option.ite_none_right_eq_some, Option.some.injEq] at hn
    exact Or.inl (hn.2 ▸ rfl)
  | calculateUnifiedDeadline layers realNow | cleanupExpiredData now =>
    obtain ⟨r, -, rfl⟩ := Option.map_eq_some_iff.mp hn
    exact Or.inl rfl
  | checkUnifiedTimeoutEvents layers realNow =>
    cases hn
    exact Or.inl rfl

theorem Limited.next (h : w.Limited config retries limit) {op : Op L}
    (hop : w.Timely retries limit op) {w' : ClockRun C} (hn : w.next op = some w') :
    w'.Limited config retries limit := by
  rcases samples_of_next hn with hs | ⟨o, rfl, hs⟩
  · constructor <;> rw [hs]
    · exact h.recorded
    · exact h.measured_le
    · exact h.timeouts_le
    · exact h.sends_le
  · exact h.layer hop hs

theorem limited (h : ((system L config cc).restrict fun w op _ =>
    w.Timely retries limit op).Reachable w) : w.Limited config retries limit := by
  have hinv : ((system L config cc).restrict fun w op _ => w.Timely retries limit op).Invariant
      fun w => w.Limited config retries limit :=
    { init := by
        rintro ⟨samples, scheduler⟩ ⟨hinit, -⟩
        have hrec := SampleRun.recorded (.init hinit)
        obtain rfl := hinit
        exact ⟨hrec, by simp, Nat.zero_le _, by simp⟩
      step := by
        rintro w op w' - hw ⟨hstep, htimely⟩
        exact hw.next htimely hstep }
  exact hinv.holds h

/-- In every run of timely operations the timeout is at most a fixed maximum, after a sample it is
at least the configured minimum, and no timely operation panics. -/
theorem time_arithmetic_safe (hfit : limit + config.maxRto retries limit < instantSize)
    (h : ((system L config cc).restrict fun w op _ => w.Timely retries limit op).Reachable w) :
    w.rto ≤ config.maxRto retries limit ∧
      ((∃ e ∈ w.samples.measured, e ≠ .timeout) → config.reliability.minRto ≤ w.rto) ∧
        ∀ op : Op L, w.Timely retries limit op → (w.next op).isSome = true := by
  have hw := limited h
  refine ⟨hw.rto_le, ?_, fun op hop => hw.isSome_next hfit hop⟩
  intro hsample
  rw [rto, hw.recorded.estimator_eq]
  exact Measurement.minRto_le_estimate hsample

theorem recorded (h : (system L config cc).Reachable w) : w.samples.Recorded config := by
  have hinv : (system L config cc).Invariant fun w => w.samples.Recorded config :=
    { init := by
        rintro w ⟨hinit, -⟩
        exact SampleRun.recorded (.init hinit)
      step := by
        rintro w op w' - hw hstep
        rcases samples_of_next hstep with hs | ⟨o, -, hs⟩ <;> rw [hs]
        · exact hw
        · exact hw.apply o }
  exact hinv.holds h

omit [TimeoutLayer L] in
theorem timely_layer_iff {op : LayerRun.Op} : w.Timely (L := L) retries limit (.layer op) ↔
    op.time ≤ limit ∧
      (.timeout ∈ w.samples.measures op → Measurement.timeouts w.samples.measured < retries) := by
  refine and_congr_right fun _ => ?_
  cases op with
  | checkRetransmissions now c =>
    have hmem : .timeout ∈ w.samples.measures (.checkRetransmissions now c) ↔
        (w.samples.layer.checkRetransmissions now c).1 ≠ [] := by
      simp [SampleRun.measures]
    rw [hmem, checkRetransmissions_ne_nil]
    exact ⟨fun h => h now c rfl, by rintro h _ _ ⟨⟩; exact h⟩
  | handleAck n rs now c => simp [SampleRun.measures_handleAck]
  | _ => simp [SampleRun.measures]

instance : DecidablePred (w.Timely (L := L) retries limit)
  | .layer _ => decidable_of_iff _ timely_layer_iff.symm
  | .nextRtoDeadline | .checkUnifiedTimeoutEvents .. => isTrue trivial
  | .calculateUnifiedDeadline .. => inferInstanceAs (Decidable (_ ∨ _ ∨ _))
  | .cleanupExpiredData _ => inferInstanceAs (Decidable (_ ≤ _))

section Sample

/-- The layers of an endpoint. -/
abbrev Layers := TimingManager ⊕ ReliabilityLayer Vegas

/-- All runs of an endpoint's layers under a configuration. -/
abbrev vegasSystem (config : Config) : TransitionSystem (ClockRun Vegas) (Op Layers) :=
  system _ config (.new config)

def newRun (config : Config) : ClockRun Vegas :=
  ⟨⟨.new config (.new config), fun _ => [], fun _ => false, []⟩, .new 0⟩

theorem newRun_init (config : Config) : (vegasSystem config).init (newRun config) :=
  ⟨rfl, _, rfl⟩

/-- A moment after the clock has run for an hour, in milliseconds. -/
def moment (n : ℕ) : Instant := Duration.fromSecs 3600 + Duration.fromMillis n

theorem hour_le_moment (n : ℕ) : Duration.fromSecs 3600 ≤ moment n := Nat.le_add_right _ _

def context : RetransmissionContext := ⟨0, 2, 1, 1, 0, 256⟩

/-- A PUSH is acknowledged after a tenth of a second, and the next one is sent three times. -/
def pushRun : List (Op Layers) :=
  [.layer (.track (.newPush 2 0 0 256 0 [7]) (moment 0)), .cleanupExpiredData (moment 50),
    .layer (.handleAck 1 [] (moment 100) context),
    .layer (.track (.newPush 2 1 0 256 0 [8]) (moment 200)), .nextRtoDeadline,
    .layer (.checkRetransmissions (moment 800) context), .cleanupExpiredData (moment 800),
    .calculateUnifiedDeadline [] (moment 900),
    .layer (.checkRetransmissions (moment 2000) context), .cleanupExpiredData (moment 2000)]

theorem exists_pushRun : ∃ w, ((vegasSystem {}).restrict fun w op _ =>
    w.Timely 2 (Duration.fromSecs 4000) op).Run pushRun w ∧
      w.samples.measured = [.sample [moment 0] (moment 100) (Duration.fromMillis 100), .timeout,
        .timeout] ∧ w.rto = Duration.fromSecs 2 :=
  TransitionSystem.exists_restrict_run_of_foldlM pushRun (newRun_init {}) (by decide +kernel)

/-- After a sample and two timeouts the timeout is four times its minimum. -/
theorem time_arithmetic_safe_sample : ∃ w : ClockRun Vegas,
    w.samples.measured = [.sample [moment 0] (moment 100) (Duration.fromMillis 100), .timeout,
      .timeout] ∧ w.rto = Duration.fromSecs 2 ∧
        w.rto ≤ Config.maxRto {} 2 (Duration.fromSecs 4000) ∧
          ((∃ e ∈ w.samples.measured, e ≠ .timeout) → ({} : Config).reliability.minRto ≤ w.rto) ∧
            ∀ op : Op Layers, w.Timely 2 (Duration.fromSecs 4000) op →
              (w.next op).isSome = true := by
  obtain ⟨w, hr, hm, hrto⟩ := exists_pushRun
  exact ⟨w, hm, hrto, time_arithmetic_safe (by decide) hr.reachable⟩

/-- A connection may be silent for a minute. -/
def patientConfig : Config := { connection := { idleTimeout := Duration.fromSecs 60 } }

/-- A connection that is closing sends the FIN of a number. -/
def fin (k : ℕ) : LayerRun.Op := .track (.newFin 2 k 0 0 256) (moment (500 * k))

/-- The check at which that FIN is due. -/
def check (k : ℕ) : LayerRun.Op := .checkRetransmissions (moment (500 * (k + 1))) context

/-- The FIN is acknowledged late. -/
def ackFin (k : ℕ) : LayerRun.Op := .handleAck (k + 1) [] (moment (500 * (k + 1))) context

/-- A FIN is sent, sent again by a poll, and acknowledged; the next one follows. -/
def finRound (k : ℕ) : List (Op Layers) :=
  [.layer .nextSequenceNumber, .layer (fin k), .layer (check k),
    .cleanupExpiredData (moment (500 * (k + 1))), .layer (ackFin k)]

/-- After as many timeouts and no sample, with nothing in flight that would give one. -/
structure Doubled (ls : List (Op Layers)) (k : ℕ) (w : ClockRun Vegas) : Prop where
  run : (vegasSystem patientConfig).Run ls w
  measured_eq : w.samples.measured = List.replicate k .timeout
  count_eq : w.manager.sackInFlightCount = 0
  scheduler_eq : w.scheduler = .new 0

theorem Doubled.rto_eq {ls : List (Op Layers)} {k : ℕ} {w : ClockRun Vegas}
    (h : Doubled ls k w) : w.rto = Duration.fromSecs 1 * 2 ^ k := by
  have hest : w.rto = (Measurement.estimate patientConfig w.samples.measured).rto :=
    congrArg RttEstimator.rto (recorded h.run.reachable).estimator_eq
  rw [hest, h.measured_eq]
  clear hest h
  induction k with
  | zero => rfl
  | succ k ih =>
    rw [List.replicate_succ', Measurement.estimate_append, pow_succ, ← mul_assoc, ← ih]
    rfl

theorem Doubled.rto_lt {ls : List (Op Layers)} {k : ℕ} {w : ClockRun Vegas}
    (h : Doubled ls k w) : w.rto < durationSize ↔ k < 64 := by
  have hsize : durationSize = Duration.fromSecs 1 * 2 ^ 64 := by decide
  rw [h.rto_eq, hsize, Nat.mul_lt_mul_left (by decide), Nat.pow_lt_pow_iff_right (by decide)]

theorem Doubled.layer {ls : List (Op Layers)} {k : ℕ} {w : ClockRun Vegas} (h : Doubled ls k w)
    (hk : k < 64) (op : LayerRun.Op) (hop : w.samples.measures op = [])
    (hcount : (w.samples.apply op).layer.retransmissionManager.sackInFlightCount = 0) :
    Doubled (ls ++ [.layer op]) k { w with samples := w.samples.apply op } := by
  have hfits : w.samples.Fits op := by
    intro n _
    rw [hop, List.take_nil]
    exact h.rto_lt.mpr hk
  refine ⟨h.run.step (if_pos hfits), ?_, hcount, h.scheduler_eq⟩
  have hmeasured : (w.samples.apply op).measured = w.samples.measured ++ w.samples.measures op :=
    rfl
  rw [hmeasured, hop, List.append_nil]
  exact h.measured_eq

theorem Doubled.exists_due {ls : List (Op Layers)} {k : ℕ} {w : ClockRun Vegas}
    (h : Doubled ls k w) (hk : k < 64) : ∃ w',
      Doubled (ls ++ [.layer .nextSequenceNumber] ++ [.layer (fin k)]) k w' ∧
        w'.manager.RetriesControl (moment (500 * (k + 1))) := by
  have hnumber := h.layer hk .nextSequenceNumber rfl h.count_eq
  set w₁ : ClockRun Vegas := { w with samples := w.samples.apply .nextSequenceNumber }
  have hconfig := (recorded hnumber.run.reachable).manager_config
  have hadd : (w₁.samples.apply (fin k)).layer.retransmissionManager =
      { w₁.samples.layer.retransmissionManager with
        simpleRetxManager := w₁.samples.layer.retransmissionManager.simpleRetxManager.addPacket
          (.newFin 2 k 0 0 256) (moment (500 * k)) } := by
    have htrack : (w₁.samples.apply (fin k)).layer.retransmissionManager =
        w₁.samples.layer.retransmissionManager.addInFlightPacket (.newFin 2 k 0 0 256)
          (moment (500 * k)) := rfl
    have hmode : (Frame.newFin 2 k 0 0 256).reliabilityModeWithConfig
        w₁.samples.layer.retransmissionManager.config =
          .simpleRetransmit 5 (Duration.fromMillis 500) := by
      rw [hconfig]
      rfl
    rw [htrack, RetransmissionManager.addInFlightPacket, hmode]
  refine ⟨_, hnumber.layer hk (fin k) rfl ?_, ?_⟩
  · rw [hadd]
    exact hnumber.count_eq
  · refine ⟨k, ⟨⟨.fin, k, [], none⟩, moment (500 * k), 0, 5, Duration.fromMillis 500⟩, ?_, ?_, ?_⟩
    · rw [manager, hadd]
      exact SimpleRetransmissionManager.getElem?_addPacket rfl rfl rfl _
    · have hmoment : moment (500 * (k + 1)) - moment (500 * k) = Duration.fromMillis 500 := by
        rw [moment, moment, Nat.add_sub_add_left, Duration.fromMillis, Duration.fromMillis,
          ← Nat.sub_mul, Nat.mul_add 500 k 1, Nat.add_sub_cancel_left]
        rfl
      exact hmoment.ge
    · exact (by decide : 0 < 5)

theorem measures_check {k : ℕ} {w : ClockRun Vegas}
    (h : w.manager.RetriesControl (moment (500 * (k + 1)))) :
    w.samples.measures (check k) = [.timeout] := by
  have hframes := checkRetransmissions_ne_nil (c := context).mpr (Or.inr h)
  simp [check, SampleRun.measures, hframes]

/-- The sixty-fourth timeout in a row does not fit. -/
theorem Doubled.fits_check {ls : List (Op Layers)} {k : ℕ} {w : ClockRun Vegas}
    (h : Doubled ls k w) (hdue : w.manager.RetriesControl (moment (500 * (k + 1)))) :
    w.samples.Fits (check k) ↔ k < 63 := by
  have hdouble : w.rto * 2 < durationSize ↔ k < 63 := by
    have hsize : durationSize = Duration.fromSecs 1 * 2 ^ 64 := by decide
    rw [h.rto_eq, mul_assoc, ← pow_succ, hsize, Nat.mul_lt_mul_left (by decide),
      Nat.pow_lt_pow_iff_right (by decide)]
    omega
  rw [SampleRun.Fits, measures_check hdue]
  constructor
  · exact fun hall => hdouble.mp (hall 1 le_rfl)
  · rintro hk (_ | _ | n) hn
    · exact h.rto_lt.mpr (by omega)
    · exact hdouble.mpr hk
    · simp at hn

theorem Doubled.poll {ls : List (Op Layers)} {k : ℕ} {w : ClockRun Vegas} (h : Doubled ls k w)
    (hdue : w.manager.RetriesControl (moment (500 * (k + 1)))) (hk : k < 63) :
    Doubled (ls ++ [.layer (check k)] ++ [.cleanupExpiredData (moment (500 * (k + 1)))]) (k + 1)
      { w with samples := w.samples.apply (check k) } := by
  set w' : ClockRun Vegas := { w with samples := w.samples.apply (check k) }
  have hchecked : (vegasSystem patientConfig).Run (ls ++ [.layer (check k)]) w' :=
    h.run.step (if_pos ((h.fits_check hdue).mpr hk))
  have hclean : w'.next (L := Layers) (.cleanupExpiredData (moment (500 * (k + 1)))) = some w' := by
    have hnew : w'.scheduler.cleanupExpiredData (moment (500 * (k + 1))) = some w'.scheduler := by
      rw [show w'.scheduler = .new 0 from h.scheduler_eq]
      exact UnifiedTimeoutScheduler.cleanupExpiredData_new (hour_le_moment _)
    rw [ClockRun.next, hnew, Option.map_some]
  refine ⟨hchecked.step hclean, ?_, ?_, h.scheduler_eq⟩
  · have hmeasured : w'.samples.measured = w.samples.measured ++ w.samples.measures (check k) := rfl
    rw [hmeasured, measures_check hdue, h.measured_eq, List.replicate_succ']
  · obtain ⟨r, cc, he⟩ := ReliabilityLayer.checkRetransmissions_eq (l := w.samples.layer)
      (moment (500 * (k + 1))) context
    have hmanager : w'.manager = (w.manager.checkForRetransmissions w.rto
        (moment (500 * (k + 1))) context).2 := congrArg (·.2.retransmissionManager) he
    rw [hmanager]
    exact (SackManager.inFlightCount_checkForRto _ _ context).trans h.count_eq

theorem Doubled.ackFin {ls : List (Op Layers)} {n : ℕ} {w : ClockRun Vegas} (h : Doubled ls n w)
    (hn : n < 64) (k : ℕ) : Doubled (ls ++ [.layer (ackFin k)]) n
      { w with samples := w.samples.apply (ClockRun.ackFin k) } := by
  have hack := SackManager.inFlightCount_processAck (m := w.manager.sackManager) (k + 1) []
    (moment (500 * (k + 1))) context
  have hcount : w.manager.sackManager.inFlightCount = 0 := h.count_eq
  have hsamples : (w.manager.sackManager.processAck (k + 1) [] (moment (500 * (k + 1)))
      context).1.rttSamples = [] := List.length_eq_zero_iff.mp (by omega)
  apply h.layer hn
  · exact (congrArg (List.zipWith _ _) hsamples).trans List.zipWith_nil_right
  · obtain ⟨r, cc, he⟩ := ReliabilityLayer.handleAck_eq (l := w.samples.layer) (k + 1) []
      (moment (500 * (k + 1))) context
    have hmanager : (w.samples.apply (ClockRun.ackFin k)).layer.retransmissionManager =
        (w.manager.processAck (k + 1) [] (moment (500 * (k + 1))) context).2 :=
      congrArg (·.2.retransmissionManager) he
    have hafter : (w.manager.sackManager.processAck (k + 1) [] (moment (500 * (k + 1)))
        context).2.inFlightCount = 0 := by omega
    rw [hmanager]
    exact hafter

theorem Doubled.round {ls : List (Op Layers)} {k : ℕ} {w : ClockRun Vegas} (h : Doubled ls k w)
    (hk : k < 63) : ∃ w', Doubled (ls ++ finRound k) (k + 1) w' := by
  obtain ⟨w₁, h₁, hdue⟩ := h.exists_due (by omega)
  have hacked := (h₁.poll hdue hk).ackFin (by omega) k
  exact ⟨_, by simpa [finRound] using hacked⟩

theorem exists_doubled {k : ℕ} (hk : k ≤ 63) :
    ∃ w, Doubled ((List.range k).flatMap finRound) k w := by
  induction k with
  | zero => exact ⟨newRun patientConfig, .init (newRun_init _), rfl, rfl, rfl⟩
  | succ k ih =>
    obtain ⟨w, hw⟩ := ih (by omega)
    rw [List.range_succ, List.flatMap_append, List.flatMap_singleton]
    exact hw.round (by omega)

/-- The FINs of a connection that is closing double the timeout until it does not fit its type,
half a minute after the first. And on a clock that has run for five seconds, forgetting old data
panics. -/
theorem time_arithmetic_panics :
    (∀ k ≤ 63, ∃ w, (vegasSystem patientConfig).Run ((List.range k).flatMap finRound) w ∧
      w.rto = Duration.fromSecs 1 * 2 ^ k) ∧
      (∃ w, (vegasSystem patientConfig).Run ((List.range 63).flatMap finRound ++
        [.layer .nextSequenceNumber] ++ [.layer (fin 63)]) w ∧
          w.next (L := Layers) (.layer (check 63)) = none) ∧
        ∃ w, (vegasSystem {}).Reachable w ∧
          w.next (L := Layers) (.cleanupExpiredData (Duration.fromSecs 5)) = none := by
  refine ⟨?_, ?_, ?_⟩
  · intro k hk
    obtain ⟨w, hw⟩ := exists_doubled hk
    exact ⟨w, hw.run, hw.rto_eq⟩
  · obtain ⟨w, hw⟩ := exists_doubled le_rfl
    obtain ⟨w', hw', hdue⟩ := hw.exists_due (by omega)
    exact ⟨w', hw'.run, if_neg ((hw'.fits_check hdue).not.mpr (lt_irrefl 63))⟩
  · exact ⟨newRun {}, .init (newRun_init {}), rfl⟩

end Sample

end ClockRun

end Kestrel
