import Kestrel.Endpoint.Timing
import Kestrel.Lib.Transition

/-! # Expirations

A fired timer leaves only the kind of its event in the queue. A record beside the timers keeps on
whose account each event is there and which timer of each kind is live. What is reported and the
handles that are kept agree with it as long as no timer is cancelled or replaced while an event of
its kind waits, and no replaced timer fires before the timer task has dropped it.
-/

namespace Kestrel

inductive TimerOp where
  | register (event : TimeoutEvent) (delay : Duration) (wheelTime : Instant)
  | cancel (event : TimeoutEvent)
  | check
  | fire (id : ℕ) (now : Instant)
  | dropReplaced (id : ℕ)
  deriving DecidableEq, Repr

/-- The timers of a connection with the record: the live timer of each kind, those that were
cancelled or replaced, the timers whose events wait, and the reports made on account of timers that
were cancelled or replaced before. -/
structure TimerRun where
  manager : TimerManager
  live : TimeoutEvent → Option ℕ
  gone : List ℕ
  queue : List (ℕ × TimeoutEvent)
  misreported : List (ℕ × TimeoutEvent)

namespace TimerRun

variable (x : TimerRun)

def next : TimerOp → TimerRun
  | .register event delay wheelTime =>
    { x with
      manager := x.manager.registerTimer event delay wheelTime
      live := Function.update x.live event (some x.manager.nextId)
      gone := x.gone ++ (x.live event).toList }
  | .cancel event =>
    { x with
      manager := x.manager.cancelTimer event
      live := Function.update x.live event none
      gone := x.gone ++ (x.live event).toList }
  | .check =>
    { x with
      manager := x.manager.checkTimerEvents.2
      live := fun event => if ∃ id ∈ x.live event, (id, event) ∈ x.queue then none else x.live event
      queue := []
      misreported := x.misreported ++ x.queue.filter fun r => r.1 ∈ x.gone }
  | .fire id now =>
    { x with
      manager := x.manager.fire id now
      queue := x.queue ++ (x.manager.expired id now).toList.map fun t => (t.id, t.event) }
  | .dropReplaced id => { x with manager := x.manager.dropReplaced id }

def system : TransitionSystem TimerRun TimerOp :=
  .ofNext (fun x => x = ⟨.new, fun _ => none, [], [], []⟩) fun x op => some (x.next op)

/-- No report was made for a timer that was cancelled or replaced, and the handles are those of the
live timers. -/
structure Faithful (x : TimerRun) : Prop where
  misreported_eq : x.misreported = []
  activeTimers_eq : x.manager.activeTimers = x.live

/-- When a timer is cancelled or replaced, no event of its kind waits, and a timer that fires has
not been replaced. -/
def InTime (x : TimerRun) : TimerOp → Prop
  | .register event _ _ | .cancel event => event ∉ x.manager.timeoutRx
  | .fire id now => ∀ en ∈ x.manager.expired id now, en.id ∉ x.manager.pendingCancels
  | .check | .dropReplaced _ => True

instance : DecidablePred x.InTime
  | .register .. | .cancel _ => inferInstanceAs (Decidable (_ ∉ _))
  | .fire id now => inferInstanceAs (Decidable (∀ en ∈ x.manager.expired id now, _))
  | .check | .dropReplaced _ => .isTrue trivial

/-- What holds as long as every step is in time. -/
structure Settled (x : TimerRun) : Prop extends Faithful x where
  queued_eq : x.queue.map (·.2) = x.manager.timeoutRx
  queued_live : ∀ r ∈ x.queue, x.live r.2 = some r.1
  queued_removed : ∀ r ∈ x.queue, ∀ en ∈ x.manager.registered, en.id ≠ r.1
  registered : ∀ en ∈ x.manager.registered,
    x.live en.event = some en.id ∨ en.id ∈ x.manager.pendingCancels
  live_unique : ∀ event event' id, x.live event = some id → x.live event' = some id →
    event = event'
  live_kept : ∀ event id, x.live event = some id → id ∉ x.gone
  pending_gone : ∀ id ∈ x.manager.pendingCancels, id ∈ x.gone
  registered_lt : ∀ en ∈ x.manager.registered, en.id < x.manager.nextId
  live_lt : ∀ event id, x.live event = some id → id < x.manager.nextId
  gone_lt : ∀ id ∈ x.gone, id < x.manager.nextId

variable {x} {event : TimeoutEvent} {id : ℕ} {now : Instant}

theorem Settled.mem_timeoutRx_iff (h : x.Settled) :
    event ∈ x.manager.timeoutRx ↔ ∃ id, x.live event = some id ∧ (id, event) ∈ x.queue := by
  rw [← h.queued_eq, List.mem_map]
  constructor
  · rintro ⟨⟨id, event⟩, hr, rfl⟩
    exact ⟨id, h.queued_live _ hr, hr⟩
  · rintro ⟨id, -, hr⟩
    exact ⟨_, hr, rfl⟩

theorem Settled.check (h : x.Settled) : (x.next .check).Settled := by
  have hlive {ev : TimeoutEvent} {i : ℕ} (hl : (x.next .check).live ev = some i) :
      x.live ev = some i := by
    simp only [next] at hl
    split at hl
    · cases hl
    · exact hl
  have hkept {ev : TimeoutEvent} {i : ℕ} (hl : x.live ev = some i)
      (hq : (i, ev) ∉ x.queue) : (x.next .check).live ev = some i := by
    simp only [next]
    rw [if_neg]
    · exact hl
    · rintro ⟨j, hj, hr⟩
      cases hl.symm.trans hj
      exact hq hr
  constructor
  · constructor
    · have hnone : x.queue.filter (fun r => r.1 ∈ x.gone) = [] := by
        rw [List.filter_eq_nil_iff]
        intro r hr hg
        exact h.live_kept _ _ (h.queued_live r hr) (of_decide_eq_true hg)
      simp only [next]
      rw [h.misreported_eq, hnone, List.nil_append]
    · funext ev
      simp only [next, TimerManager.checkTimerEvents]
      have hiff : ev ∈ x.manager.timeoutRx ↔ ∃ id ∈ x.live ev, (id, ev) ∈ x.queue :=
        h.mem_timeoutRx_iff
      simp only [hiff, h.activeTimers_eq]
  · rfl
  · simp [next]
  · simp [next]
  · intro en hen
    rcases h.registered en hen with hl | hp
    · left
      apply hkept hl
      intro hr
      exact h.queued_removed _ hr en hen rfl
    · exact Or.inr hp
  · exact fun ev ev' i hl hl' => h.live_unique ev ev' i (hlive hl) (hlive hl')
  · exact fun ev i hl => h.live_kept ev i (hlive hl)
  · exact h.pending_gone
  · exact h.registered_lt
  · exact fun ev i hl => h.live_lt ev i (hlive hl)
  · exact h.gone_lt

theorem Settled.queued_ne (h : x.Settled) (hin : event ∉ x.manager.timeoutRx)
    {r : ℕ × TimeoutEvent} (hr : r ∈ x.queue) : r.2 ≠ event := by
  rintro rfl
  apply hin
  rw [← h.queued_eq]
  exact List.mem_map_of_mem hr

theorem Settled.kept_of_ne (h : x.Settled) {ev : TimeoutEvent} {i : ℕ} (hne : ev ≠ event)
    (hl : x.live ev = some i) : i ∉ x.gone ++ (x.live event).toList := by
  rw [List.mem_append, Option.mem_toList]
  rintro (hg | hg)
  · exact h.live_kept ev i hl hg
  · exact hne (h.live_unique ev event i hl hg)

theorem Settled.gone_lt_append (h : x.Settled) {i : ℕ}
    (hi : i ∈ x.gone ++ (x.live event).toList) : i < x.manager.nextId := by
  rw [List.mem_append, Option.mem_toList] at hi
  rcases hi with hi | hi
  · exact h.gone_lt i hi
  · exact h.live_lt event i hi

/-- A new timer takes the place of the live one, whose event does not wait. -/
theorem Settled.register (h : x.Settled) {delay : Duration} {wheelTime : Instant}
    (hin : event ∉ x.manager.timeoutRx) :
    (x.next (.register event delay wheelTime)).Settled := by
  have hlive (ev : TimeoutEvent) : (x.next (.register event delay wheelTime)).live ev =
      if ev = event then some x.manager.nextId else x.live ev := Function.update_apply ..
  have hreg {en : TimerEntry}
      (hen : en ∈ (x.next (.register event delay wheelTime)).manager.registered) :
      en ∈ x.manager.registered ∨ en = ⟨x.manager.nextId, event, wheelTime + delay⟩ := by
    simpa [next, TimerManager.registerTimer] using hen
  constructor
  · refine ⟨h.misreported_eq, ?_⟩
    simp only [next, TimerManager.registerTimer, h.activeTimers_eq]
  · exact h.queued_eq
  · intro r hr
    rw [hlive, if_neg (h.queued_ne hin hr)]
    exact h.queued_live r hr
  · intro r hr en hen
    rcases hreg hen with hen | rfl
    · exact h.queued_removed r hr en hen
    · exact Nat.ne_of_gt (h.live_lt _ _ (h.queued_live r hr))
  · intro en hen
    simp only [next, TimerManager.registerTimer, List.mem_append, Option.mem_toList]
    rcases hreg hen with hen | rfl
    · rcases h.registered en hen with hl | hp
      · by_cases he : en.event = event
        · right
          right
          rw [h.activeTimers_eq, ← he]
          exact hl
        · left
          rw [Function.update_of_ne he]
          exact hl
      · exact Or.inr (Or.inl hp)
    · exact Or.inl (Function.update_self ..)
  · intro ev ev' i hl hl'
    rw [hlive] at hl hl'
    split at hl <;> split at hl'
    · simp [*]
    · cases hl
      exact absurd (h.live_lt _ _ hl') (Nat.lt_irrefl _)
    · cases hl'
      exact absurd (h.live_lt _ _ hl) (Nat.lt_irrefl _)
    · exact h.live_unique ev ev' i hl hl'
  · intro ev i hl
    rw [hlive] at hl
    split at hl
    · cases hl
      exact fun hg => Nat.lt_irrefl _ (h.gone_lt_append hg)
    · exact h.kept_of_ne ‹_› hl
  · intro i hi
    simp only [next, TimerManager.registerTimer, List.mem_append] at hi ⊢
    rcases hi with hi | hi
    · exact Or.inl (h.pending_gone i hi)
    · exact Or.inr (h.activeTimers_eq ▸ hi)
  · intro en hen
    rcases hreg hen with hen | rfl
    · exact Nat.lt_succ_of_lt (h.registered_lt en hen)
    · exact Nat.lt_succ_self _
  · intro ev i hl
    rw [hlive] at hl
    split at hl
    · cases hl
      exact Nat.lt_succ_self _
    · exact Nat.lt_succ_of_lt (h.live_lt ev i hl)
  · exact fun i hi => Nat.lt_succ_of_lt (h.gone_lt_append hi)

theorem Settled.cancelTimer_eq (h : x.Settled) : x.manager.cancelTimer event =
    { x.manager with
      activeTimers := Function.update x.live event none
      registered := x.manager.registered.filter fun t => some t.id ≠ x.live event } := by
  unfold TimerManager.cancelTimer
  rw [h.activeTimers_eq]
  cases hl : x.live event with
  | some id => simp
  | none =>
    have hu : Function.update x.manager.activeTimers event none = x.manager.activeTimers := by
      rw [h.activeTimers_eq, ← hl, Function.update_eq_self]
    have hf : x.manager.registered.filter (fun t => some t.id ≠ (none : Option ℕ)) =
        x.manager.registered := by
      simp
    rw [hf, ← h.activeTimers_eq, hu]

theorem Settled.cancel (h : x.Settled) (hin : event ∉ x.manager.timeoutRx) :
    (x.next (.cancel event)).Settled := by
  have hlive (ev : TimeoutEvent) : (x.next (.cancel event)).live ev =
      if ev = event then none else x.live ev := Function.update_apply ..
  have hkept {ev : TimeoutEvent} {i : ℕ} (hl : (x.next (.cancel event)).live ev = some i) :
      ev ≠ event ∧ x.live ev = some i := by
    rw [hlive] at hl
    split at hl
    · cases hl
    · exact ⟨‹_›, hl⟩
  have hm : (x.next (.cancel event)).manager = x.manager.cancelTimer event := rfl
  rw [h.cancelTimer_eq] at hm
  have hreg {en : TimerEntry} (hen : en ∈ (x.next (.cancel event)).manager.registered) :
      en ∈ x.manager.registered ∧ some en.id ≠ x.live event := by
    rw [hm] at hen
    simpa using hen
  constructor
  · refine ⟨h.misreported_eq, ?_⟩
    rw [hm]
    rfl
  · rw [hm]
    exact h.queued_eq
  · intro r hr
    rw [hlive, if_neg (h.queued_ne hin hr)]
    exact h.queued_live r hr
  · exact fun r hr en hen => h.queued_removed r hr en (hreg hen).1
  · intro en hen
    obtain ⟨hen, hne⟩ := hreg hen
    rw [hm, hlive]
    rcases h.registered en hen with hl | hp
    · left
      rw [if_neg]
      · exact hl
      · rintro rfl
        exact hne hl.symm
    · exact Or.inr hp
  · exact fun ev ev' i hl hl' => h.live_unique ev ev' i (hkept hl).2 (hkept hl').2
  · exact fun ev i hl => h.kept_of_ne (hkept hl).1 (hkept hl).2
  · intro i hi
    rw [hm] at hi
    exact List.mem_append_left _ (h.pending_gone i hi)
  · intro en hen
    rw [hm]
    exact h.registered_lt en (hreg hen).1
  · intro ev i hl
    rw [hm]
    exact h.live_lt ev i (hkept hl).2
  · intro i hi
    rw [hm]
    exact h.gone_lt_append hi

theorem next_fire_none (hex : x.manager.expired id now = none) :
    x.next (.fire id now) = x := by
  simp only [next, TimerManager.fire_none hex, hex, Option.toList_none, List.map_nil,
    List.append_nil]

theorem next_fire_some {en : TimerEntry} (hex : x.manager.expired id now = some en) :
    x.next (.fire id now) =
      { x with
        manager :=
          { x.manager with
            timeoutRx := x.manager.timeoutRx ++ [en.event]
            registered := x.manager.registered.filter fun t => t.id ≠ id }
        queue := x.queue ++ [(id, en.event)] } := by
  simp only [next, TimerManager.fire_some hex, hex, Option.toList_some, List.map_cons,
    List.map_nil, (TimerManager.expired_some hex).2.1]

theorem Settled.fire (h : x.Settled) (hin : x.InTime (.fire id now)) :
    (x.next (.fire id now)).Settled := by
  cases hex : x.manager.expired id now with
  | none =>
    rw [next_fire_none hex]
    exact h
  | some en =>
    obtain ⟨hen, rfl, -⟩ := TimerManager.expired_some hex
    have hl : x.live en.event = some en.id :=
      (h.registered en hen).resolve_right (hin en hex)
    rw [next_fire_some hex]
    refine
      { h with
        queued_eq := ?_, queued_live := ?_, queued_removed := ?_, registered := ?_
        registered_lt := ?_ }
    · dsimp only
      rw [List.map_append, h.queued_eq]
      rfl
    · intro r hr
      rcases List.mem_append.mp hr with hr | hr
      · exact h.queued_live r hr
      · rw [List.mem_singleton.mp hr]
        exact hl
    · intro r hr en' hen'
      obtain ⟨hen', hne⟩ := List.mem_filter.mp hen'
      rcases List.mem_append.mp hr with hr | hr
      · exact h.queued_removed r hr en' hen'
      · rw [List.mem_singleton.mp hr]
        exact of_decide_eq_true hne
    · exact fun en' hen' => h.registered en' (List.mem_filter.mp hen').1
    · exact fun en' hen' => h.registered_lt en' (List.mem_filter.mp hen').1

theorem Settled.dropReplaced (h : x.Settled) : (x.next (.dropReplaced id)).Settled := by
  have hm : (x.next (.dropReplaced id)).manager = x.manager.dropReplaced id := rfl
  unfold TimerManager.dropReplaced at hm
  by_cases hid : id ∈ x.manager.pendingCancels
  · rw [if_pos hid] at hm
    have hx : x.next (.dropReplaced id) = { x with manager := _ } := congrArg
      (fun m : TimerManager => { x with manager := m }) hm
    rw [hx]
    refine
      { h with
        queued_removed := ?_, registered := ?_, pending_gone := ?_, registered_lt := ?_ }
    · exact fun r hr en hen => h.queued_removed r hr en (List.mem_filter.mp hen).1
    · intro en hen
      obtain ⟨hen, hne⟩ := List.mem_filter.mp hen
      rcases h.registered en hen with hl | hp
      · exact Or.inl hl
      · exact Or.inr ((List.mem_erase_of_ne (of_decide_eq_true hne)).mpr hp)
    · exact fun i hi => h.pending_gone i (List.mem_of_mem_erase hi)
    · exact fun en hen => h.registered_lt en (List.mem_filter.mp hen).1
  · rw [if_neg hid] at hm
    have hx : x.next (.dropReplaced id) = x := congrArg
      (fun m : TimerManager => { x with manager := m }) hm
    rw [hx]
    exact h

theorem Settled.step (h : x.Settled) {op : TimerOp} (hin : x.InTime op) :
    (x.next op).Settled := by
  cases op with
  | register event delay wheelTime => exact h.register hin
  | cancel event => exact h.cancel hin
  | check => exact h.check
  | fire id now => exact h.fire hin
  | dropReplaced id => exact h.dropReplaced

/-- A check reports every waiting event, also on account of a timer that has gone. -/
theorem not_faithful_check {r : ℕ × TimeoutEvent} (hr : r ∈ x.queue) (hg : r.1 ∈ x.gone) :
    ¬ (x.next .check).Faithful := by
  intro hf
  have hnone := (List.append_eq_nil_iff.mp hf.misreported_eq).2
  have hmem : r ∈ x.queue.filter fun r => r.1 ∈ x.gone :=
    List.mem_filter.mpr ⟨hr, decide_eq_true hg⟩
  rw [hnone] at hmem
  cases hmem

/-- If a step is not in time, the next check reports a timer that has gone. -/
theorem Settled.late (h : x.Settled) {op : TimerOp} (hlate : ¬ x.InTime op) :
    ¬ ((x.next op).next .check).Faithful := by
  have hwaits {event : TimeoutEvent} (hw : event ∈ x.manager.timeoutRx) :
      ∃ id, x.live event = some id ∧ (id, event) ∈ x.queue := h.mem_timeoutRx_iff.mp hw
  cases op with
  | register event delay wheelTime =>
    obtain ⟨id, hl, hr⟩ := hwaits (not_not.mp hlate)
    exact not_faithful_check (x := x.next (.register event delay wheelTime)) hr
      (List.mem_append_right _ (Option.mem_toList.mpr hl))
  | cancel event =>
    obtain ⟨id, hl, hr⟩ := hwaits (not_not.mp hlate)
    exact not_faithful_check (x := x.next (.cancel event)) hr
      (List.mem_append_right _ (Option.mem_toList.mpr hl))
  | fire id now =>
    simp only [InTime, not_forall, not_not] at hlate
    obtain ⟨en, hex, hp⟩ := hlate
    obtain ⟨-, rfl, -⟩ := TimerManager.expired_some hex
    rw [next_fire_some hex]
    exact not_faithful_check (List.mem_append_right _ (List.mem_singleton_self _))
      (h.pending_gone _ hp)
  | check | dropReplaced id => exact absurd trivial hlate

theorem settled (h : (system.restrict fun x op _ => x.InTime op).Reachable x) : x.Settled := by
  have hinv : (system.restrict fun x op _ => x.InTime op).Invariant Settled :=
    { init := by
        rintro x rfl
        constructor <;> simp [TimerManager.new]
        exact ⟨rfl, rfl⟩
      step := by
        rintro x op x' - hx ⟨hs, hin⟩
        cases hs
        exact hx.step hin }
  exact hinv.holds h

/-- In every run whose steps are all in time, the reports are made for live timers and the handles
are theirs; and at any point of such a run a step that is not in time makes the next check report
otherwise. -/
theorem expirations_faithful (x : TimerRun)
    (h : (system.restrict fun x op _ => x.InTime op).Reachable x) :
    x.Faithful ∧ x.queue.map (·.2) = x.manager.checkTimerEvents.1 ∧
      ∀ op, (x.next op).Faithful ∧ ((x.next op).next .check).Faithful ↔ x.InTime op := by
  have hx := settled h
  refine ⟨hx.toFaithful, hx.queued_eq, fun op => ⟨?_, ?_⟩⟩
  · rintro ⟨-, hf⟩
    by_contra hlate
    exact hx.late hlate hf
  · intro hin
    have hs := hx.step hin
    exact ⟨hs.toFaithful, hs.check.toFaithful⟩

section Sample

/-- A timer is replaced and the new one fires. -/
theorem expirations_faithful_sample : ∃ x : TimerRun, x.manager.timeoutRx = [.idleTimeout] ∧
    x.Faithful := by
  obtain ⟨x, hr, hp⟩ : ∃ x, (system.restrict fun x op _ => x.InTime op).Run
      [.register .idleTimeout 5 0, .register .idleTimeout 5 2, .dropReplaced 0, .fire 1 7] x ∧
      x.manager.timeoutRx = [.idleTimeout] :=
    TransitionSystem.exists_restrict_run_of_foldlM _ rfl (by decide)
  exact ⟨x, hp, (expirations_faithful x hr.reachable).1⟩

/-- A timer is replaced when it has fired already; the check reports it and loses the handle of the
new one. -/
theorem replaced_timer_reported : ∃ x : TimerRun, system.Reachable x ∧ ¬ x.Faithful ∧
    x.misreported = [(0, .idleTimeout)] ∧ x.live .idleTimeout = some 1 ∧
      x.manager.activeTimers .idleTimeout = none := by
  obtain ⟨x, hr, hm, hl, ha⟩ : ∃ x, system.Run
      [.register .idleTimeout 5 0, .fire 0 5, .register .idleTimeout 5 5, .check] x ∧
      x.misreported = [(0, .idleTimeout)] ∧ x.live .idleTimeout = some 1 ∧
        x.manager.activeTimers .idleTimeout = none :=
    TransitionSystem.exists_run_of_foldlM _ rfl (by decide)
  refine ⟨x, hr.reachable, ?_, hm, hl, ha⟩
  intro hf
  rw [hf.misreported_eq] at hm
  cases hm

end Sample

end TimerRun

end Kestrel
