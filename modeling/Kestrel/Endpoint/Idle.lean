import Kestrel.Endpoint.Actions

/-! # The idle timeout

The idle timer is registered when the endpoint is created and at no other time. When its event is
polled the connection is closed, whatever was received meanwhile. As long as every packet comes
early enough for the timer that is running, that is after a silence.
-/

namespace Kestrel

def Label.time? : Label → Option Instant
  | .fire _ now => some now
  | l => l.tick?.map (·.now)

namespace Endpoint

variable {C : Type} {t : Tick} {l : Label} {e e' : Endpoint C}

/-- Every packet came at least the idle timeout before a moment. -/
def SilentSince (timeout : Duration) (ls : List Label) (τ : Instant) : Prop :=
  ∀ t f a, Label.frame t f a ∈ ls → t.now + timeout ≤ τ

/-- Every packet came early enough for the idle timers that run and for one that has fired. -/
structure Unhurried (ls : List Label) (e : Endpoint C) : Prop where
  running : ∀ en ∈ e.timing.timerManager.registered, en.event = .idleTimeout →
    SilentSince e.config.connection.idleTimeout ls en.expiry
  fired : .idleTimeout ∈ e.timing.timerManager.timeoutRx →
    ∃ id τ, .fire id τ ∈ ls ∧ SilentSince e.config.connection.idleTimeout ls τ

/-- The idle timers of an endpoint are among those of another. -/
structure FewerTimers (e e' : Endpoint C) : Prop where
  config_eq : e'.config = e.config
  running : ∀ en ∈ e'.timing.timerManager.registered, en.event = .idleTimeout →
    en ∈ e.timing.timerManager.registered
  fired : .idleTimeout ∈ e'.timing.timerManager.timeoutRx →
    .idleTimeout ∈ e.timing.timerManager.timeoutRx

theorem FewerTimers.trans {e'' : Endpoint C} (h : FewerTimers e e') (h' : FewerTimers e' e'') :
    FewerTimers e e'' :=
  ⟨h'.config_eq.trans h.config_eq, fun en he hev => h.running en (h'.running en he hev) hev,
    fun hf => h.fired (h'.fired hf)⟩

theorem FewerTimers.of_timerManager (hc : e'.config = e.config)
    (ht : e'.timing.timerManager = e.timing.timerManager) : FewerTimers e e' := by
  refine ⟨hc, ?_, ?_⟩
  · rw [ht]
    exact fun en he _ => he
  · rw [ht]
    exact fun hf => hf

theorem FewerTimers.deliver : FewerTimers e (e.deliver t).2 := by
  obtain ⟨_, _, hd⟩ := deliver_eq (t := t) (e := e)
  rw [hd]
  exact .of_timerManager rfl rfl

variable [CongestionControl C]

theorem Act.fewerTimers (h : Act t l e e') : FewerTimers e e' := by
  cases h with
  | registerValidation =>
    refine ⟨rfl, fun en he hev => ?_, fun h => h⟩
    rcases TimerManager.mem_registered_registerTimer he with he | he
    · exact he
    · rw [hev] at he
      cases he
  | cancel event hne =>
    refine ⟨rfl, fun en he _ => TimerManager.mem_registered_cancelTimer he, fun h => ?_⟩
    have h : .idleTimeout ∈ (e.timing.timerManager.cancelTimer event).timeoutRx := h
    rwa [TimerManager.timeoutRx_cancelTimer] at h
  | drainTimers => exact ⟨rfl, fun en he _ => he, fun h => by cases h⟩
  | packetize chunks b lead bs hs hp hlead hb =>
    have hfin : ((e.cut t chunks b).createFin t).2.config = e.config ∧
        ((e.cut t chunks b).createFin t).2.timing = e.timing := by
      unfold createFin
      split <;> exact ⟨rfl, rfl⟩
    exact .of_timerManager hfin.1 (congrArg (·.timerManager) hfin.2)
  | sendEof hl =>
    unfold Endpoint.sendEof
    split <;> exact .of_timerManager rfl rfl
  | _ => exact .of_timerManager rfl rfl

end Endpoint

namespace Machine

open Endpoint

variable {C : Type} [CongestionControl C] {m m' : Machine C} {l : Label} {ls : List Label}
  {t : Tick}

/-- A packet comes early enough for the idle timer that is running: that one expires no earlier
than one that would be registered now. -/
def KeepsIdleTimer (m : Machine C) : Label → Prop
  | .frame t _ _ => .idleTimeout ∉ m.endpoint.timing.timerManager.timeoutRx ∧
    ∀ en ∈ m.endpoint.timing.timerManager.registered, en.event = .idleTimeout →
      t.now + m.endpoint.config.connection.idleTimeout ≤ en.expiry
  | _ => True

instance : Decidable (KeepsIdleTimer m l) := by
  unfold KeepsIdleTimer
  split <;> infer_instance

/-- A poll of the idle timer's event, which closes the connection. -/
structure IdleClose (m : Machine C) (t : Tick) (m' : Machine C) : Prop where
  next : m.next (.poll t) = some m'
  before : m.endpoint.state ≠ .closed
  fired : .idleTimeout ∈ m.endpoint.timing.timerManager.timeoutRx
  after : m'.endpoint.state = .closed

omit [CongestionControl C] in
theorem silentSince_append {timeout : Duration} {τ : Instant} (h : SilentSince timeout ls τ)
    (hl : ∀ t f a, l = .frame t f a → t.now + timeout ≤ τ) :
    SilentSince timeout (ls ++ [l]) τ := by
  intro t f a hm
  rcases List.mem_append.mp hm with hm | hm
  · exact h t f a hm
  · exact hl t f a (List.mem_singleton.mp hm).symm

omit [CongestionControl C] in
theorem unhurried_fewer (h : m.endpoint.Unhurried ls) (hg : KeepsIdleTimer m l)
    (hf : FewerTimers m.endpoint m'.endpoint) : m'.endpoint.Unhurried (ls ++ [l]) := by
  constructor
  · intro en he hev
    have he := hf.running en he hev
    rw [hf.config_eq]
    apply silentSince_append (h.running en he hev)
    rintro t f a rfl
    exact hg.2 en he hev
  · intro hfired
    have hfired := hf.fired hfired
    obtain ⟨id, τ, hid, hsil⟩ := h.fired hfired
    rw [hf.config_eq]
    refine ⟨id, τ, List.mem_append_left _ hid, silentSince_append hsil ?_⟩
    rintro t f a rfl
    exact absurd hfired hg.1

theorem unhurried_step (h : m.endpoint.Unhurried ls) (hn : m.next l = some m')
    (hg : KeepsIdleTimer m l) : m'.endpoint.Unhurried (ls ++ [l]) := by
  rcases acts_of_next hn with ⟨t, -, ha⟩ | ⟨id, now, rfl, rfl⟩ | ⟨id, rfl, rfl⟩
  · apply unhurried_fewer h hg
    have hopen : FewerTimers m.endpoint (m.opening l) := by
      cases l with
      | followUp t => exact .deliver
      | _ => exact .of_timerManager rfl rfl
    exact ha.preserves (P := FewerTimers m.endpoint) (fun _ _ hf ha => hf.trans ha.fewerTimers)
      hopen
  · constructor
    · intro en he hev
      exact silentSince_append (h.running en (TimerManager.mem_registered_fire he) hev) (by simp)
    · intro hfired
      rcases TimerManager.mem_timeoutRx_fire hfired with hfired | ⟨en, he, hev, hexp⟩
      · obtain ⟨id', τ, hid, hsil⟩ := h.fired hfired
        exact ⟨id', τ, List.mem_append_left _ hid, silentSince_append hsil (by simp)⟩
      · refine ⟨id, now, by simp, silentSince_append (fun t f a hf => ?_) (by simp)⟩
        exact (h.running en he hev t f a hf).trans hexp
  · apply unhurried_fewer h hg
    refine ⟨rfl, fun en he _ => TimerManager.mem_registered_dropReplaced he, fun hf => ?_⟩
    have hf : .idleTimeout ∈ (m.endpoint.timing.timerManager.dropReplaced id).timeoutRx := hf
    rwa [TimerManager.timeoutRx_dropReplaced] at hf

theorem unhurried (h : (systemWith (C := C) KeepsIdleTimer).Run ls m) :
    m.endpoint.Unhurried ls := by
  induction h with
  | init h =>
    obtain ⟨-, hc⟩ := h
    refine ⟨fun en _ _ t f a hm => (by cases hm), fun hf => ?_⟩
    generalize hx : Machine.endpoint _ = e at hc hf
    cases hc with
    | client config a cid cc data t => cases data <;> cases hf
    | server config a cid peer cc t => cases hf
  | step _ hs ih => exact unhurried_step ih hs.1 hs.2

/-- In every run in which each packet comes early enough for the idle timer, and the clock does not
go back, that timer closes the connection only after a silence of its length. -/
theorem idle_close_after_silence (h : (systemWith (C := C) KeepsIdleTimer).Run ls m)
    (hclock : ((ls ++ [Label.poll t]).filterMap Label.time?).Pairwise (· ≤ ·))
    (hi : IdleClose m t m') : SilentSince m.endpoint.config.connection.idleTimeout ls t.now := by
  obtain ⟨id, τ, hid, hsil⟩ := (unhurried h).fired hi.fired
  have hle : τ ≤ t.now := by
    rw [List.filterMap_append, List.pairwise_append] at hclock
    exact hclock.2.2 τ (List.mem_filterMap.mpr ⟨_, hid, rfl⟩) t.now (by simp [Label.time?, Label.tick?])
  intro t' f a hf
  exact (hsil t' f a hf).trans hle

/-- Whenever the idle timer's event is polled first, the connection is closed, whatever was received
before. -/
theorem idle_close_of_fired {events : List TimeoutEvent} (hw : m.phase = .waiting)
    (hs : m.endpoint.state ≠ .closed)
    (hq : m.endpoint.timing.timerManager.timeoutRx = .idleTimeout :: events) (t : Tick) :
    ∃ m', IdleClose m t m' ∧ m'.phase = .failed .connectionTimeout := by
  have hcheck : ∃ e, m.endpoint.handleTimeouts t = .error (.connectionTimeout, e) ∧
      e.state = .closed := by
    have hevent (e : Endpoint C) : e.handleTimeoutEvent .idleTimeout =
        .error (.connectionTimeout, { e with state := .closed }) := by
      rw [handleTimeoutEvent, transitionTo_eq, if_pos (by cases e.state <;> rfl)]
      rfl
    unfold handleTimeouts TimerManager.checkTimerEvents
    dsimp only
    rw [hq, List.foldlM_cons, hevent]
    exact ⟨_, rfl, rfl⟩
  obtain ⟨e, he, hclosed⟩ := hcheck
  have hn : m.next (.poll t) = some ⟨e, .failed .connectionTimeout⟩ := by
    rw [Machine.next, if_pos hw, checkAllTimeouts, he]
    rfl
  exact ⟨_, ⟨hn, hs, by rw [hq]; exact List.mem_cons_self .., hclosed⟩, rfl⟩

section Sample

/-- A client whose peer answers at once and sends data at some time; then the idle timer, of five
seconds by default, fires. -/
def idleRun (n : ℕ) : List Label :=
  [.begin (tick 0), .frame (tick 0) (.newSynAck 1 2 1) 80, .followUp (tick 0),
    .frame (tick n) (.newPush 1 0 0 256 0 [9]) 80, .followUp (tick n), .fire 0 5000000000]

def idleClosed (m m' : Machine C) : Prop :=
  m.endpoint.state = .established ∧ .idleTimeout ∈ m.endpoint.timing.timerManager.timeoutRx ∧
    m'.endpoint.state = .closed ∧ m.endpoint.config.connection.idleTimeout = 5000000000

instance : DecidableRel (idleClosed (C := C)) := fun _ _ => inferInstanceAs (Decidable (_ ∧ _))

theorem idleClosed.idleClose (h : idleClosed m m') (hn : m.next (.poll t) = some m') :
    IdleClose m t m' where
  next := hn
  before := by
    rw [h.1]
    decide
  fired := h.2.1
  after := h.2.2.1

/-- Data that comes at once is five seconds old when the timer closes the connection. -/
theorem idle_close_after_silence_sample : ∃ m m' : Machine Vegas,
    IdleClose m (tick 5000000000) m' ∧
      SilentSince m.endpoint.config.connection.idleTimeout (idleRun 0) 5000000000 := by
  obtain ⟨m, hr, m', hn, hp⟩ : ∃ m, (systemWith (C := Vegas) KeepsIdleTimer).Run (idleRun 0) m ∧
      ∃ m' ∈ m.next (.poll (tick 5000000000)), idleClosed m m' :=
    TransitionSystem.exists_restrict_run_of_foldlM _ tinyClient_created (by decide)
  have hi := hp.idleClose hn
  exact ⟨m, m', hi, idle_close_after_silence hr (by decide) hi⟩

/-- Data that comes after four seconds is one second old when the timer closes the connection. -/
theorem idle_close_after_data : ∃ m m' : Machine Vegas, (system Vegas).Run (idleRun 4000000000) m ∧
    ((idleRun 4000000000 ++ [Label.poll (tick 5000000000)]).filterMap Label.time?).Pairwise (· ≤ ·) ∧
      IdleClose m (tick 5000000000) m' ∧
        ¬ SilentSince m.endpoint.config.connection.idleTimeout (idleRun 4000000000) 5000000000 := by
  obtain ⟨m, m', hr, hn, hp⟩ := exists_step (idleRun 4000000000) (.poll (tick 5000000000))
    idleClosed tinyClient_created (by decide)
  refine ⟨m, m', hr, by decide, hp.idleClose hn, fun hsil => ?_⟩
  have hle := hsil (tick 4000000000) (.newPush 1 0 0 256 0 [9]) 80 (by decide)
  rw [hp.2.2.2] at hle
  exact absurd hle (by decide)

end Sample

end Machine

end Kestrel
