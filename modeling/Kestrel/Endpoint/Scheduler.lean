import Kestrel.Reliability.Deadlines
import Kestrel.Reliability.Layer

/-! # Unified timeout scheduler

The scheduler asks every layer of a connection for its next deadline and for the events that have
come up. It keeps its last answer for a millisecond, and from the times of earlier events it
predicts the next one. Instants are counted from the origin of the clock, before which there are
none: looking back beyond it panics.
-/

namespace Kestrel

open Std (ExtTreeMap)

inductive TimeoutSource where
  | connection (event : TimeoutEvent)
  | reliability
  | globalTimer
  deriving DecidableEq, Repr

class TimeoutLayer (L : Type) where
  nextDeadline : L → Option Instant
  checkTimeoutEvents : L → Instant → List TimeoutEvent × L

instance : TimeoutLayer TimingManager where
  nextDeadline m := some (m.lastRecvTime + Duration.fromSecs 30)
  checkTimeoutEvents m _ :=
    let (events, timerManager) := m.timerManager.checkTimerEvents
    (events, { m with timerManager })

instance {C : Type} : TimeoutLayer (ReliabilityLayer C) where
  nextDeadline l := l.retransmissionManager.nextRetransmissionDeadline l.rtoEstimator.rto
  checkTimeoutEvents l now :=
    (if l.hasRetransmissionTimeout now then [.retransmissionTimeout] else [], l)

/-- Layers of two kinds side by side. -/
instance {L M : Type} [TimeoutLayer L] [TimeoutLayer M] : TimeoutLayer (L ⊕ M) where
  nextDeadline := Sum.elim TimeoutLayer.nextDeadline TimeoutLayer.nextDeadline
  checkTimeoutEvents layer now := layer.elim
    (fun l => (TimeoutLayer.checkTimeoutEvents l now).map id .inl)
    fun m => (TimeoutLayer.checkTimeoutEvents m now).map id .inr

structure TimeoutPattern where
  timestamp : Instant
  sources : List TimeoutSource
  interval : Duration
  deriving DecidableEq, Repr

structure TimeCache where
  cachedNow : Instant
  cacheValidUntil : Instant
  cacheDuration : Duration
  deriving DecidableEq, Repr

namespace TimeCache

def new (realNow : Instant) : TimeCache := ⟨realNow, realNow, Duration.fromMillis 1⟩

def now (c : TimeCache) (realNow : Instant) : Instant × TimeCache :=
  if realNow < c.cacheValidUntil then (c.cachedNow, c)
  else
    (realNow,
      { c with
        cachedNow := realNow
        cacheValidUntil := realNow + c.cacheDuration })

end TimeCache

/-- The counts of the statistics; how long the checks themselves take is left out. -/
structure SchedulerStats where
  totalChecks : ℕ := 0
  cacheHits : ℕ := 0
  batchChecks : ℕ := 0
  predictionHits : ℕ := 0
  lastCheckTime : Option Instant := none
  deriving DecidableEq, Repr

structure UnifiedTimeoutScheduler where
  nextCheckDeadlines : ExtTreeMap Instant (List TimeoutSource)
  cachedUnifiedDeadline : Option (Instant × Instant)
  timeoutPatterns : List TimeoutPattern
  timeCache : TimeCache
  stats : SchedulerStats

/-- An instant before another one; `none` where there is none. -/
def lookBack (now : Instant) (d : Duration) : Option Instant :=
  if d ≤ now then some (now - d) else none

namespace UnifiedTimeoutScheduler

variable {L : Type} [TimeoutLayer L] (s : UnifiedTimeoutScheduler)

def new (realNow : Instant) : UnifiedTimeoutScheduler := ⟨∅, none, [], .new realNow, {}⟩

/-- The next event if they go on at the average interval of the last five minutes; `none` where the
code panics. -/
def predictNextTimeout (now : Instant) : Option (Option Instant) :=
  if s.timeoutPatterns.length < 3 then some none
  else
    (lookBack now (Duration.fromSecs 300)).map fun recentCutoff =>
      let recentPatterns := s.timeoutPatterns.filter (·.timestamp > recentCutoff)
      if recentPatterns.length < 2 then none
      else
        let intervals := List.zipWith (fun p q => q.timestamp - p.timestamp)
          recentPatterns recentPatterns.tail
        if intervals.isEmpty then none
        else
          let avgInterval := intervals.sum / intervals.length
          recentPatterns.getLast?.bind fun last =>
            let predicted := last.timestamp + avgInterval
            if predicted > now ∧ predicted < now + Duration.fromSecs 60 then some predicted
            else none

/-- The last answer, if it is still kept. -/
def cachedAnswer (now : Instant) : Option Instant :=
  s.cachedUnifiedDeadline.bind fun (computedAt, deadline) =>
    if now - computedAt < Duration.fromMillis 1 then some deadline else none

/-- The earliest deadline of the layers and the prediction. -/
def calculateUnifiedDeadline (layers : List L) (realNow : Instant) :
    Option (Instant × UnifiedTimeoutScheduler) :=
  let (now, timeCache) := s.timeCache.now realNow
  let s := { s with timeCache, stats.totalChecks := s.stats.totalChecks + 1 }
  match s.cachedAnswer now with
  | some deadline =>
    some (deadline, { s with stats.cacheHits := s.stats.cacheHits + 1 })
  | none =>
    (s.predictNextTimeout now).map fun predicted =>
      let allDeadlines := layers.filterMap TimeoutLayer.nextDeadline ++ predicted.toList
      let unifiedDeadline := allDeadlines.min?.getD (now + Duration.fromMillis 50)
      (unifiedDeadline,
        { s with
          cachedUnifiedDeadline := some (now, unifiedDeadline)
          stats.predictionHits := s.stats.predictionHits + predicted.toList.length
          stats.lastCheckTime := some now })

/-- Remembers when events came up, for the last hundred times. -/
def updateTimeoutPatterns (now : Instant) (sources : List TimeoutSource) :
    UnifiedTimeoutScheduler :=
  let interval := (s.timeoutPatterns.getLast?.map fun last => now - last.timestamp).getD 0
  let timeoutPatterns := s.timeoutPatterns ++ [⟨now, sources, interval⟩]
  { s with
    timeoutPatterns :=
      if timeoutPatterns.length > 100 then timeoutPatterns.tail else timeoutPatterns }

/-- Asks every layer for its events. -/
def checkUnifiedTimeoutEvents (layers : List L) (realNow : Instant) :
    List (List TimeoutEvent) × List L × UnifiedTimeoutScheduler :=
  let (now, timeCache) := s.timeCache.now realNow
  let s := { s with timeCache }
  let checked := layers.map fun layer => TimeoutLayer.checkTimeoutEvents layer now
  let results := checked.map Prod.fst
  let detectedSources := results.flatten.map .connection
  let s := if detectedSources.isEmpty then s else s.updateTimeoutPatterns now detectedSources
  (results, checked.map Prod.snd,
    { s with stats.batchChecks := s.stats.batchChecks + 1 })

/-- Forgets what is too old; `none` where the code panics. -/
def cleanupExpiredData (now : Instant) : Option UnifiedTimeoutScheduler :=
  (lookBack now (Duration.fromSecs 3600)).map fun cutoff =>
    { s with
      cachedUnifiedDeadline := s.cachedUnifiedDeadline.filter fun (computedAt, _) =>
        !decide (now - computedAt > Duration.fromMillis 5)
      timeoutPatterns := s.timeoutPatterns.filter (·.timestamp > cutoff)
      nextCheckDeadlines :=
        SortedMap.eraseAll s.nextCheckDeadlines (s.nextCheckDeadlines.keys.takeWhile (· < now)) }

def resetStats : UnifiedTimeoutScheduler := { s with stats := {} }

variable {s} {now realNow : Instant}

theorem isSome_lookBack {d : Duration} : (lookBack now d).isSome = true ↔ d ≤ now := by
  simp [lookBack]

theorem isSome_predictNextTimeout : (s.predictNextTimeout now).isSome = true ↔
    s.timeoutPatterns.length < 3 ∨ Duration.fromSecs 300 ≤ now := by
  unfold predictNextTimeout
  by_cases h : s.timeoutPatterns.length < 3
  · simp [h]
  · simp [h, isSome_lookBack]

/-- The deadline is calculated exactly if the last answer is kept, too few events are known for a
prediction, or the clock has run for five minutes. -/
theorem isSome_calculateUnifiedDeadline (layers : List L) :
    (s.calculateUnifiedDeadline layers realNow).isSome = true ↔
      (s.cachedAnswer (s.timeCache.now realNow).1).isSome = true ∨ s.timeoutPatterns.length < 3 ∨
        Duration.fromSecs 300 ≤ (s.timeCache.now realNow).1 := by
  rw [← isSome_predictNextTimeout]
  unfold calculateUnifiedDeadline
  dsimp only
  split
  · rename_i deadline h
    refine iff_of_true rfl (Or.inl ?_)
    exact Option.isSome_iff_exists.mpr ⟨deadline, h⟩
  · rename_i h
    have hnone : s.cachedAnswer (s.timeCache.now realNow).1 = none := h
    rw [hnone, Option.isSome_map]
    simp [predictNextTimeout]

theorem isSome_cleanupExpiredData :
    (s.cleanupExpiredData now).isSome = true ↔ Duration.fromSecs 3600 ≤ now := by
  simp [cleanupExpiredData, isSome_lookBack]

/-- A scheduler that was never asked has nothing to forget. -/
theorem cleanupExpiredData_new (h : Duration.fromSecs 3600 ≤ now) :
    (new realNow).cleanupExpiredData now = some (new realNow) := by
  have hkeys : (∅ : ExtTreeMap Instant (List TimeoutSource)).keys = [] :=
    ExtTreeMap.keys_eq_nil_iff.mpr rfl
  rw [cleanupExpiredData, lookBack, if_pos h]
  simp [new, SortedMap.eraseAll, hkeys]

end UnifiedTimeoutScheduler

end Kestrel
