import Kestrel.Endpoint.Scheduler

/-! # The unified deadline

The scheduler gives its last answer again for a millisecond, whatever has become of the layers since
then. An answer is never later than the deadlines that the layers had when it was computed, and
that was less than a millisecond ago.
-/

namespace Kestrel

variable {L : Type} {realNow clock : Instant}

namespace TimeCache

variable {c : TimeCache}

/-- The cache has been filled for a millisecond, or it has run out already. -/
structure Filled (clock : Instant) (c : TimeCache) : Prop where
  cacheDuration_eq : c.cacheDuration = Duration.fromMillis 1
  cachedNow_le : c.cachedNow ≤ clock
  valid : c.cacheValidUntil ≤ clock ∨
    c.cacheValidUntil = c.cachedNow + Duration.fromMillis 1

theorem filled_new (realNow : Instant) : (new realNow).Filled realNow :=
  ⟨rfl, le_rfl, Or.inl le_rfl⟩

/-- The time that the cache gives is less than a millisecond old, and it is either the kept one or
later than that was kept for. -/
theorem Filled.now (h : c.Filled clock) (hclock : clock ≤ realNow) :
    (c.now realNow).2.Filled realNow ∧
      (c.now realNow).2.cachedNow = (c.now realNow).1 ∧
      (c.now realNow).2.cacheValidUntil = (c.now realNow).1 + Duration.fromMillis 1 ∧
      realNow < (c.now realNow).1 + Duration.fromMillis 1 ∧
      ((c.now realNow).2 = c ∨ c.cacheValidUntil ≤ (c.now realNow).1) := by
  obtain ⟨hduration, hnow, hvalid⟩ := h
  rw [TimeCache.now]
  split
  · rename_i hlt
    have huntil : c.cacheValidUntil = c.cachedNow + Duration.fromMillis 1 :=
      hvalid.resolve_left fun hle => absurd (hlt.trans_le (hle.trans hclock)) (lt_irrefl _)
    exact ⟨⟨hduration, hnow.trans hclock, Or.inr huntil⟩, rfl, huntil, huntil ▸ hlt, Or.inl rfl⟩
  · rename_i hge
    have huntil : realNow + c.cacheDuration = realNow + Duration.fromMillis 1 := by rw [hduration]
    have hlt : realNow < realNow + Duration.fromMillis 1 := Nat.lt_add_of_pos_right (by decide)
    exact ⟨⟨hduration, le_rfl, Or.inr huntil⟩, rfl, huntil, hlt, Or.inr (not_lt.mp hge)⟩

end TimeCache

namespace UnifiedTimeoutScheduler

variable [TimeoutLayer L] {s s' : UnifiedTimeoutScheduler} {layers : List L} {deadline : Instant}

/-- A call gives the last answer again if that is less than a millisecond old; otherwise it keeps a
new answer, at most the deadlines of all layers. -/
theorem calculateUnifiedDeadline_cases
    (h : s.calculateUnifiedDeadline layers realNow = some (deadline, s')) :
    s'.timeCache = (s.timeCache.now realNow).2 ∧
      ((∃ computedAt, s.cachedUnifiedDeadline = some (computedAt, deadline) ∧
          (s.timeCache.now realNow).1 - computedAt < Duration.fromMillis 1 ∧
          s'.cachedUnifiedDeadline = s.cachedUnifiedDeadline) ∨
        (s'.cachedUnifiedDeadline = some ((s.timeCache.now realNow).1, deadline) ∧
          ∀ t ∈ layers.filterMap TimeoutLayer.nextDeadline, deadline ≤ t)) := by
  rw [calculateUnifiedDeadline] at h
  dsimp only at h
  split at h
  · rename_i answer hkept
    obtain ⟨rfl, rfl⟩ := Prod.mk.inj (Option.some.inj h)
    obtain ⟨⟨computedAt, answer'⟩, hcached, hans⟩ := Option.bind_eq_some_iff.mp hkept
    obtain ⟨hlt, heq⟩ := Option.ite_none_right_eq_some.mp hans
    obtain rfl := Option.some.inj heq
    exact ⟨rfl, Or.inl ⟨computedAt, hcached, hlt, rfl⟩⟩
  · obtain ⟨predicted, -, heq⟩ := Option.map_eq_some_iff.mp h
    obtain ⟨rfl, rfl⟩ := Prod.mk.inj heq
    refine ⟨rfl, Or.inr ⟨rfl, fun t ht => ?_⟩⟩
    have hmem : t ∈ layers.filterMap TimeoutLayer.nextDeadline ++ predicted.toList :=
      List.mem_append_left _ ht
    obtain ⟨m, hm⟩ := Option.isSome_iff_exists.mp (List.isSome_min?_of_mem hmem)
    rw [hm, Option.getD_some]
    exact (List.min?_eq_some_iff.mp hm).2 t hmem

theorem checkUnifiedTimeoutEvents_frame (layers : List L) (realNow : Instant) :
    (s.checkUnifiedTimeoutEvents layers realNow).2.2.timeCache = (s.timeCache.now realNow).2 ∧
      (s.checkUnifiedTimeoutEvents layers realNow).2.2.cachedUnifiedDeadline =
        s.cachedUnifiedDeadline := by
  rw [checkUnifiedTimeoutEvents]
  dsimp only
  split <;> exact ⟨rfl, rfl⟩

theorem cleanupExpiredData_frame {now : Instant} (h : s.cleanupExpiredData now = some s') :
    s'.timeCache = s.timeCache ∧ ∀ c ∈ s'.cachedUnifiedDeadline, c ∈ s.cachedUnifiedDeadline := by
  obtain ⟨cutoff, -, rfl⟩ := Option.map_eq_some_iff.mp h
  exact ⟨rfl, fun c hc => (Option.mem_filter_iff.mp hc).1⟩

end UnifiedTimeoutScheduler

/-- A call for the unified deadline, with the deadlines of the layers at that time. -/
structure DeadlineCall where
  calledAt : Instant
  deadlines : List Instant
  answer : Instant
  deriving DecidableEq, Repr

/-- The answer is at most each of the deadlines. -/
def DeadlineCall.NotLate (call : DeadlineCall) : Prop := ∀ t ∈ call.deadlines, call.answer ≤ t

instance (call : DeadlineCall) : Decidable call.NotLate :=
  inferInstanceAs (Decidable (∀ t ∈ call.deadlines, call.answer ≤ t))

/-- A scheduler with the calls so far, and the time of the last one to look at the clock. -/
structure DeadlineRun where
  scheduler : UnifiedTimeoutScheduler
  clock : Instant
  calls : List DeadlineCall

namespace DeadlineRun

/-- What is done with the scheduler. The layers are those of the moment, with whatever deadlines. -/
inductive Op (L : Type) where
  | calculateUnifiedDeadline (layers : List L) (realNow : Instant)
  | checkUnifiedTimeoutEvents (layers : List L) (realNow : Instant)
  | cleanupExpiredData (now : Instant)
  | resetStats

variable [TimeoutLayer L] (r : DeadlineRun)

/-- Carries out an operation; `none` where it panics or the clock would go back. -/
def next : Op L → Option DeadlineRun
  | .calculateUnifiedDeadline layers realNow =>
    if r.clock ≤ realNow then
      (r.scheduler.calculateUnifiedDeadline layers realNow).map fun (answer, scheduler) =>
        let call := ⟨realNow, layers.filterMap TimeoutLayer.nextDeadline, answer⟩
        ⟨scheduler, realNow, r.calls ++ [call]⟩
    else none
  | .checkUnifiedTimeoutEvents layers realNow =>
    if r.clock ≤ realNow then
      some { r with
        scheduler := (r.scheduler.checkUnifiedTimeoutEvents layers realNow).2.2
        clock := realNow }
    else none
  | .cleanupExpiredData now =>
    (r.scheduler.cleanupExpiredData now).map fun scheduler => { r with scheduler }
  | .resetStats => some { r with scheduler := r.scheduler.resetStats }

def system (L : Type) [TimeoutLayer L] : TransitionSystem DeadlineRun (Op L) :=
  .ofNext (fun r => ∃ realNow, r = ⟨.new realNow, realNow, []⟩) fun r op => r.next op

/-- The answer that is kept was computed at one of the calls, and not before the time that the
scheduler still takes for the present, or else a millisecond before it. -/
structure Kept (computedAt answer : Instant) : Prop where
  call : ∃ call ∈ r.calls, call.answer = answer ∧ call.NotLate ∧ computedAt ≤ call.calledAt ∧
    call.calledAt ≤ r.clock
  valid : computedAt + Duration.fromMillis 1 ≤ r.scheduler.timeCache.cacheValidUntil
  current : computedAt = r.scheduler.timeCache.cachedNow ∨
    computedAt + Duration.fromMillis 1 ≤ r.scheduler.timeCache.cachedNow

structure Timed : Prop where
  filled : r.scheduler.timeCache.Filled r.clock
  kept : ∀ computedAt answer, r.scheduler.cachedUnifiedDeadline = some (computedAt, answer) →
    r.Kept computedAt answer

variable {r} {r' : DeadlineRun} {computedAt answer : Instant}

theorem Kept.now (h : r.Kept computedAt answer) (hfilled : r.scheduler.timeCache.Filled r.clock)
    (hclock : r.clock ≤ realNow) (hcalls : r.calls ⊆ r'.calls) (hclock' : r'.clock = realNow)
    (hcache : r'.scheduler.timeCache = (r.scheduler.timeCache.now realNow).2) :
    r'.Kept computedAt answer := by
  obtain ⟨⟨call, hmem, hans, hnot, hle, hcalled⟩, hvalid, hcurrent⟩ := h
  obtain ⟨-, hnow, huntil, -, hsame⟩ := hfilled.now hclock
  refine ⟨⟨call, hcalls hmem, hans, hnot, hle, hclock' ▸ hcalled.trans hclock⟩, ?_, ?_⟩
  · rw [hcache]
    rcases hsame with heq | hlate
    · rwa [heq]
    · rw [huntil]
      exact (hvalid.trans hlate).trans (Nat.le_add_right _ _)
  · rw [hcache]
    rcases hsame with heq | hlate
    · rwa [heq]
    · rw [hnow]
      exact Or.inr (hvalid.trans hlate)

/-- An answer that is given again was computed at the time that the scheduler takes for the
present. -/
theorem Kept.eq_now (h : r.Kept computedAt answer)
    (hfilled : r.scheduler.timeCache.Filled r.clock) (hclock : r.clock ≤ realNow)
    (hlt : (r.scheduler.timeCache.now realNow).1 - computedAt < Duration.fromMillis 1) :
    computedAt = (r.scheduler.timeCache.now realNow).1 := by
  obtain ⟨-, hvalid, hcurrent⟩ := h
  obtain ⟨-, hnow, -, -, hsame⟩ := hfilled.now hclock
  have hold {a b d : ℕ} (hle : a + d ≤ b) (hlt : b - a < d) : False := by omega
  rcases hsame with heq | hlate
  · rw [heq] at hnow
    rw [← hnow] at hlt ⊢
    exact hcurrent.resolve_right fun hle => hold hle hlt
  · exact (hold (hvalid.trans hlate) hlt).elim

/-- A call gives an answer that is not too late for the deadlines at this call, or that an earlier
one gave less than a millisecond ago. -/
theorem Timed.exists_call (h : r.Timed) {layers : List L} (hclock : r.clock ≤ realNow)
    {deadline : Instant} {s' : UnifiedTimeoutScheduler}
    (hcalc : r.scheduler.calculateUnifiedDeadline layers realNow = some (deadline, s')) :
    ∃ call ∈ r.calls ++ [⟨realNow, layers.filterMap TimeoutLayer.nextDeadline, deadline⟩],
      call.answer = deadline ∧ call.NotLate ∧ call.calledAt ≤ realNow ∧
        realNow < call.calledAt + Duration.fromMillis 1 := by
  obtain ⟨-, -, -, hsoon, -⟩ := h.filled.now hclock
  rcases (UnifiedTimeoutScheduler.calculateUnifiedDeadline_cases hcalc).2 with
    ⟨computedAt, hcached, hlt, -⟩ | ⟨-, hle⟩
  · have hkept := h.kept _ _ hcached
    obtain ⟨call, hmem, hans, hnot, hcomputed, hcalled⟩ := hkept.call
    refine ⟨call, List.mem_append_left _ hmem, hans, hnot, hcalled.trans hclock, ?_⟩
    rw [← hkept.eq_now h.filled hclock hlt] at hsoon
    exact hsoon.trans_le (Nat.add_le_add_right hcomputed _)
  · refine ⟨_, List.mem_append_right _ (List.mem_singleton_self _), rfl, hle, le_rfl, ?_⟩
    exact Nat.lt_add_of_pos_right (by decide)

theorem Timed.calculate (h : r.Timed) {layers : List L} (hclock : r.clock ≤ realNow)
    {deadline : Instant} {s' : UnifiedTimeoutScheduler}
    (hcalc : r.scheduler.calculateUnifiedDeadline layers realNow = some (deadline, s')) :
    Timed ⟨s', realNow,
      r.calls ++ [⟨realNow, layers.filterMap TimeoutLayer.nextDeadline, deadline⟩]⟩ := by
  obtain ⟨hcache, hcases⟩ := UnifiedTimeoutScheduler.calculateUnifiedDeadline_cases hcalc
  obtain ⟨hfilled, hnow, huntil, -, -⟩ := h.filled.now hclock
  refine ⟨hcache ▸ hfilled, fun computedAt answer hkept => ?_⟩
  rcases hcases with ⟨_, -, -, hsame⟩ | ⟨hnew, hle⟩
  · exact (h.kept _ _ (hsame ▸ hkept)).now h.filled hclock (List.subset_append_left _ _) rfl hcache
  · obtain ⟨rfl, rfl⟩ := Prod.mk.inj (Option.some.inj (hnew.symm.trans hkept))
    refine ⟨⟨_, List.mem_append_right _ (List.mem_singleton_self _), rfl, hle, ?_, le_rfl⟩, ?_, ?_⟩
    · exact hnow ▸ hfilled.cachedNow_le
    · exact (hcache ▸ huntil).ge
    · exact Or.inl (hcache ▸ hnow.symm)

theorem Timed.next (h : r.Timed) {op : Op L} (hn : r.next op = some r') : r'.Timed := by
  cases op with
  | calculateUnifiedDeadline layers realNow =>
    obtain ⟨hclock, hn⟩ := Option.ite_none_right_eq_some.mp hn
    obtain ⟨⟨deadline, s'⟩, hcalc, rfl⟩ := Option.map_eq_some_iff.mp hn
    exact h.calculate hclock hcalc
  | checkUnifiedTimeoutEvents layers realNow =>
    obtain ⟨hclock, hn⟩ := Option.ite_none_right_eq_some.mp hn
    obtain ⟨hcache, hcached⟩ :=
      UnifiedTimeoutScheduler.checkUnifiedTimeoutEvents_frame (s := r.scheduler) layers realNow
    cases hn
    refine ⟨hcache ▸ (h.filled.now hclock).1, fun computedAt answer hkept => ?_⟩
    exact (h.kept _ _ (hcached ▸ hkept)).now h.filled hclock (List.Subset.refl _) rfl hcache
  | cleanupExpiredData now =>
    obtain ⟨s', hclean, rfl⟩ := Option.map_eq_some_iff.mp hn
    obtain ⟨hcache, hcached⟩ := UnifiedTimeoutScheduler.cleanupExpiredData_frame hclean
    refine ⟨hcache ▸ h.filled, fun computedAt answer hkept => ?_⟩
    have hold := h.kept _ _ (hcached _ hkept)
    exact ⟨hold.call, hcache ▸ hold.valid, hcache ▸ hold.current⟩
  | resetStats =>
    cases hn
    refine ⟨h.filled, fun computedAt answer hkept => ?_⟩
    have hold := h.kept _ _ hkept
    exact ⟨hold.call, hold.valid, hold.current⟩

theorem timed (h : (system L).Reachable r) : r.Timed := by
  have hinv : (system L).Invariant Timed :=
    { init := by
        rintro _ ⟨realNow, rfl⟩
        exact ⟨TimeCache.filled_new realNow, by simp [UnifiedTimeoutScheduler.new]⟩
      step := fun _ _ _ _ hr hstep => hr.next hstep }
  exact hinv.holds h

/-- In every run, the answer of a call is at most each deadline that the layers had at this call, or
at an earlier one that gave the same answer less than a millisecond ago. -/
theorem deadline_of_last_millisecond (h : (system L).Reachable r) {layers : List L}
    (hclock : r.clock ≤ realNow) {deadline : Instant} {s' : UnifiedTimeoutScheduler}
    (hcalc : r.scheduler.calculateUnifiedDeadline layers realNow = some (deadline, s')) :
    ∃ call ∈ r.calls ++ [⟨realNow, layers.filterMap TimeoutLayer.nextDeadline, deadline⟩],
      call.answer = deadline ∧ (∀ t ∈ call.deadlines, deadline ≤ t) ∧
        call.calledAt ≤ realNow ∧ realNow < call.calledAt + Duration.fromMillis 1 := by
  obtain ⟨call, hmem, rfl, hnot, hle, hlt⟩ := (timed h).exists_call hclock hcalc
  exact ⟨call, hmem, rfl, hnot, hle, hlt⟩

section Sample

/-- The layers of a connection: its timing, and the reliability layer with its congestion control. -/
abbrev Layers := TimingManager ⊕ ReliabilityLayer Vegas

def newLayers : List Layers :=
  [.inl (.new 0), .inr (.new {} (.new {}))]

/-- The same connection once it has sent a PUSH. -/
def sentLayers : List Layers :=
  [.inl (.new 0), .inr ((ReliabilityLayer.new {} (.new {})).trackFrameInFlight
    (.newPush 1 0 0 0 0 [7]) 0)]

def newRun : DeadlineRun := ⟨.new 0, 0, []⟩

theorem newRun_init : (system Layers).init newRun := ⟨0, rfl⟩

/-- The answer that was kept is right for the call half a millisecond before: now the PUSH that was
sent in between is due earlier. -/
theorem deadline_of_last_millisecond_sample : ∃ r s',
    (system Layers).Run [.calculateUnifiedDeadline newLayers 0] r ∧
      r.scheduler.calculateUnifiedDeadline sentLayers 500000 = some (Duration.fromSecs 30, s') ∧
      s'.stats.cacheHits = 1 ∧ ∃ call ∈ r.calls, call.answer = Duration.fromSecs 30 ∧
        (∀ t ∈ call.deadlines, Duration.fromSecs 30 ≤ t) ∧
          call.calledAt ≤ 500000 ∧ 500000 < call.calledAt + Duration.fromMillis 1 := by
  obtain ⟨r, hr, hclock, hcalc⟩ : ∃ r, (system Layers).Run
      [.calculateUnifiedDeadline newLayers 0] r ∧ r.clock ≤ 500000 ∧
      (r.scheduler.calculateUnifiedDeadline sentLayers 500000).map
        (fun p => (p.1, p.2.stats.cacheHits)) = some (Duration.fromSecs 30, 1) :=
    TransitionSystem.exists_run_of_foldlM _ newRun_init (by decide)
  obtain ⟨⟨deadline, s'⟩, hcalc, heq⟩ := Option.map_eq_some_iff.mp hcalc
  obtain ⟨rfl, hhits⟩ := Prod.mk.inj heq
  refine ⟨r, s', hr, hcalc, hhits, ?_⟩
  obtain ⟨call, hmem, hanswer, hle, hat⟩ :=
    deadline_of_last_millisecond hr.reachable hclock hcalc
  rcases List.mem_append.mp hmem with hold | hnew
  · exact ⟨call, hold, hanswer, hle, hat⟩
  · have hdue := hle (Duration.fromSecs 1) (by rw [List.mem_singleton.mp hnew]; decide)
    exact absurd hdue (by decide)

/-- Half a millisecond after a call the connection has sent a PUSH, which is due again after a
second; but the next call is answered with the end of the idle timeout again. -/
theorem kept_answer_late : ∃ r, (system Layers).Run
    [.calculateUnifiedDeadline newLayers 0, .calculateUnifiedDeadline sentLayers 500000] r ∧
      r.calls.map DeadlineCall.answer = [Duration.fromSecs 30, Duration.fromSecs 30] ∧
      ∃ call ∈ r.calls, Duration.fromSecs 1 ∈ call.deadlines ∧ ¬ call.NotLate :=
  TransitionSystem.exists_run_of_foldlM _ newRun_init (by decide)

end Sample

end DeadlineRun

end Kestrel
