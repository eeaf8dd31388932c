import Kestrel.Endpoint.Numbering

/-! # The lifecycle manager

The state of a connection is kept by a manager that checks every change and tells listeners about
it. What a listener has heard leads from the state in which it was registered to the current one.
The changes of state that an endpoint goes through are the manager's, so no run leads back to an
earlier phase of the connection.
-/

namespace Kestrel

inductive LifecycleEvent where
  | connectionInitialized (localCid : ℕ) (remoteAddr : SocketAddr)
  | connectionEstablishing
  | connectionEstablished
  | connectionClosing
  | connectionClosed
  | pathValidationStarted (newAddr : SocketAddr)
  | pathValidationCompleted (success : Bool)
  | stateTransition (fromState toState : String)
  | connectionTimeout
  | forceClose
  deriving DecidableEq, Repr

/-- A listener, by what it has heard. It remembers the state in which it was registered. -/
structure EventListener where
  registeredIn : ConnectionState
  heard : List LifecycleEvent
  deriving DecidableEq, Repr

namespace ConnectionState

/-- The name of a state in an event. -/
def stateNameFor : ConnectionState → String
  | connecting => "Connecting"
  | synReceived => "SynReceived"
  | established => "Established"
  | validatingPath .. => "ValidatingPath"
  | closing => "Closing"
  | closingWait => "ClosingWait"
  | finWait => "FinWait"
  | closed => "Closed"

/-- Two states of one kind, whatever a path validation carries. -/
def sameDiscriminant : ConnectionState → ConnectionState → Bool
  | connecting, connecting | synReceived, synReceived | established, established
  | validatingPath .., validatingPath .. | closing, closing | closingWait, closingWait
  | finWait, finWait | closed, closed => true
  | _, _ => false

/-- How far the connection has come. -/
def phase : ConnectionState → ℕ
  | connecting | synReceived => 0
  | established | validatingPath .. => 1
  | finWait => 2
  | closing => 3
  | closingWait => 4
  | closed => 5

theorem sameDiscriminant_iff {s s' : ConnectionState} :
    s.sameDiscriminant s' = true ↔ s.stateNameFor = s'.stateNameFor := by
  cases s <;> cases s' <;> simp [sameDiscriminant, stateNameFor]

theorem sameDiscriminant_clone (s : ConnectionState) : s.sameDiscriminant s.clone = true := by
  cases s <;> rfl

theorem eq_closed_of_phase {s : ConnectionState} (h : closed.phase ≤ s.phase) : s = closed := by
  cases s <;> first | rfl | simp [phase] at h

theorem phase_eq_of_sameDiscriminant {s s' : ConnectionState}
    (h : s.sameDiscriminant s' = true) : s.phase = s'.phase := by
  cases s <;> cases s' <;> first | rfl | cases h

end ConnectionState

structure StateTransitionExecutor where
  cid : ℕ
  eventListeners : List EventListener
  deriving DecidableEq, Repr

namespace StateTransitionExecutor

open ConnectionState

variable (x : StateTransitionExecutor)

def triggerEvent (event : LifecycleEvent) : StateTransitionExecutor :=
  { x with
    eventListeners := x.eventListeners.map fun l => { l with heard := l.heard ++ [event] } }

def triggerLifecycleEvent : ConnectionState → StateTransitionExecutor
  | connecting => x.triggerEvent .connectionEstablishing
  | established => x.triggerEvent .connectionEstablished
  | closing | finWait => x.triggerEvent .connectionClosing
  | closed => x.triggerEvent .connectionClosed
  | validatingPath newAddr _ _ => x.triggerEvent (.pathValidationStarted newAddr)
  | _ => x

def executeTransition (currentState newState : ConnectionState) :
    Except Error ConnectionState × StateTransitionExecutor :=
  if currentState.isValidTransition newState then
    let x := if currentState.sameDiscriminant newState then x else
      x.triggerEvent (.stateTransition currentState.stateNameFor newState.stateNameFor)
    (.ok newState, x.triggerLifecycleEvent newState)
  else (.error .invalidPacket, x)

def executeGracefulShutdown (currentState : ConnectionState) :
    Except Error ConnectionState × StateTransitionExecutor :=
  match currentState with
  | connecting | synReceived | established | finWait | validatingPath .. =>
    x.executeTransition currentState closing
  | closing | closingWait | closed => (.ok currentState.clone, x)

end StateTransitionExecutor

/-- The manager of one connection; `notified` records what callers of a path validation were
told. -/
structure DefaultLifecycleManager where
  currentState : ConnectionState
  cid : ℕ
  remoteAddr : Option SocketAddr
  startTime : Instant
  transitionExecutor : StateTransitionExecutor
  notified : List (Notifier × Except Error Unit)

namespace DefaultLifecycleManager

open ConnectionState

variable (m : DefaultLifecycleManager)

def new (initialState : ConnectionState) (now : Instant) : DefaultLifecycleManager :=
  ⟨initialState, 0, none, now, ⟨0, []⟩, []⟩

def trigger (event : LifecycleEvent) : DefaultLifecycleManager :=
  { m with transitionExecutor := m.transitionExecutor.triggerEvent event }

def initializeFor (localCid : ℕ) (remoteAddr : SocketAddr) (now : Instant) :
    DefaultLifecycleManager :=
  trigger
    { m with
      cid := localCid, remoteAddr := some remoteAddr, startTime := now
      transitionExecutor := { m.transitionExecutor with cid := localCid } }
    (.connectionInitialized localCid remoteAddr)

/-- Keeps the state that a transition results in. -/
def settle : Except Error ConnectionState × StateTransitionExecutor →
    Except Error Unit × DefaultLifecycleManager
  | (.ok resultingState, x) =>
    (.ok (), { m with currentState := resultingState, transitionExecutor := x })
  | (.error err, x) => (.error err, { m with transitionExecutor := x })

/-- Changes the state if the change is legal. A copy of the old state is asked for a notifier to
tell that its path validation was interrupted. -/
def transitionTo (newState : ConnectionState) : Except Error Unit × DefaultLifecycleManager :=
  let interrupted : Error := match newState with
    | closing | closed => .connectionClosed
    | _ => .pathValidationTimeout
  let m := match m.currentState.clone with
    | validatingPath _ _ (some n) =>
      if newState.isValidatingPath then m
      else { m with notified := m.notified ++ [(n, Except.error interrupted)] }
    | _ => m
  m.settle (m.transitionExecutor.executeTransition m.currentState newState)

def beginGracefulShutdown : Except Error Unit × DefaultLifecycleManager :=
  m.settle (m.transitionExecutor.executeGracefulShutdown m.currentState)

def forceClose : Except Error Unit × DefaultLifecycleManager :=
  (m.trigger .forceClose).transitionTo closed

def startPathValidation (newAddr : SocketAddr) (challengeData : ℕ) (notifier : Notifier) :
    Except Error Unit × DefaultLifecycleManager :=
  match m.currentState with
  | established => m.transitionTo (validatingPath newAddr challengeData (some notifier))
  | _ => (.error .invalidPacket, m)

def completePathValidation (success : Bool) : Except Error Unit × DefaultLifecycleManager :=
  if m.currentState.isValidatingPath then
    (m.trigger (.pathValidationCompleted success)).transitionTo established
  else (.error .invalidPacket, m)

def registerEventListener : DefaultLifecycleManager :=
  { m with
    transitionExecutor := { m.transitionExecutor with
      eventListeners := m.transitionExecutor.eventListeners ++ [⟨m.currentState, []⟩] } }

def clearEventListeners : DefaultLifecycleManager :=
  { m with transitionExecutor := { m.transitionExecutor with eventListeners := [] } }

def triggerTimeout : DefaultLifecycleManager := m.trigger .connectionTimeout

inductive Request where
  | initializeFor (localCid : ℕ) (remoteAddr : SocketAddr) (now : Instant)
  | transitionTo (newState : ConnectionState)
  | beginGracefulShutdown
  | forceClose
  | startPathValidation (newAddr : SocketAddr) (challengeData : ℕ) (notifier : Notifier)
  | completePathValidation (success : Bool)
  | registerEventListener
  | clearEventListeners
  | triggerTimeout

/-- A request, answered or refused. -/
def perform : Request → Except Error Unit × DefaultLifecycleManager
  | .initializeFor localCid remoteAddr now => (.ok (), m.initializeFor localCid remoteAddr now)
  | .transitionTo newState => m.transitionTo newState
  | .beginGracefulShutdown => m.beginGracefulShutdown
  | .forceClose => m.forceClose
  | .startPathValidation newAddr challengeData notifier =>
    m.startPathValidation newAddr challengeData notifier
  | .completePathValidation success => m.completePathValidation success
  | .registerEventListener => (.ok (), m.registerEventListener)
  | .clearEventListeners => (.ok (), m.clearEventListeners)
  | .triggerTimeout => (.ok (), m.triggerTimeout)

def system : TransitionSystem DefaultLifecycleManager Request :=
  .ofNext (fun m => ∃ s now, m = new s now) fun m r => some (m.perform r).2

end DefaultLifecycleManager

def transitions (events : List LifecycleEvent) : List (String × String) :=
  events.filterMap fun
    | .stateTransition fromState toState => some (fromState, toState)
    | _ => none

/-- The changes lead from one state to the other: each is legal and told by the names of the states
it leads from and to, and between them only what a path validation carries changes. -/
inductive Leads : ConnectionState → List (String × String) → ConnectionState → Prop where
  | refl (s : ConnectionState) : Leads s [] s
  | renew {s s₁ s₂ : ConnectionState} {ts : List (String × String)} (h : Leads s ts s₁)
      (hs : s₁.sameDiscriminant s₂ = true) : Leads s ts s₂
  | change {s s₁ s₂ : ConnectionState} {ts : List (String × String)} (h : Leads s ts s₁)
      (hv : s₁.isValidTransition s₂ = true) (hs : s₁.sameDiscriminant s₂ = false) :
    Leads s (ts ++ [(s₁.stateNameFor, s₂.stateNameFor)]) s₂

theorem transitions_append (es es' : List LifecycleEvent) :
    transitions (es ++ es') = transitions es ++ transitions es' := List.filterMap_append

namespace Leads

open ConnectionState

variable {s s' : ConnectionState} {ts : List (String × String)}

theorem linked (h : Leads s ts s') :
    ts.map Prod.fst ++ [s'.stateNameFor] = s.stateNameFor :: ts.map Prod.snd := by
  induction h with
  | refl => rfl
  | renew _ hs ih => rw [← ih, sameDiscriminant_iff.mp hs]
  | change _ _ _ ih =>
    rw [List.map_append, List.map_append, ← List.cons_append, ← ih]
    rfl

theorem trans {s'' : ConnectionState} {ts' : List (String × String)}
    (h : Leads s ts s') (h' : Leads s' ts' s'') : Leads s (ts ++ ts') s'' := by
  induction h' with
  | refl => rwa [List.append_nil]
  | renew _ hs ih => exact ih.renew hs
  | change _ hv hs ih =>
    rw [← List.append_assoc]
    exact ih.change hv hs

/-- A change is between an open path and its validation, or the connection enters a later phase. -/
theorem phase_lt_of_change {s₁ s₂ : ConnectionState} (hv : s₁.isValidTransition s₂ = true)
    (hs : s₁.sameDiscriminant s₂ = false) :
    s₁.phase = 1 ∧ s₂.phase = 1 ∨ s₁.phase < s₂.phase := by
  cases s₁ <;> cases s₂ <;> first | (cases hv; done) | (cases hs; done) | simp [phase]

/-- The names of an open path and its validation. -/
def atPath (t : String × String) : Bool :=
  t = ("Established", "ValidatingPath") ∨ t = ("ValidatingPath", "Established")

theorem atPath_of_phase {s₁ s₂ : ConnectionState} (hs : s₁.sameDiscriminant s₂ = false)
    (h : s₁.phase = 1 ∧ s₂.phase = 1) : atPath (s₁.stateNameFor, s₂.stateNameFor) = true := by
  cases s₁ <;> cases s₂ <;> first | (cases hs; done) | simp_all [phase, stateNameFor, atPath]

/-- Apart from validations of paths, every change enters a later phase. -/
theorem length_le (h : Leads s ts s') :
    s.phase + (ts.filter fun t => !atPath t).length ≤ s'.phase := by
  induction h with
  | refl => exact le_rfl
  | renew _ hs ih => exact ih.trans (phase_eq_of_sameDiscriminant hs).le
  | @change s₁ s₂ ts _ hv hs ih =>
    rw [List.filter_append, List.length_append]
    rcases phase_lt_of_change hv hs with hp | hp
    · rw [List.filter_singleton, atPath_of_phase hs hp]
      simpa [hp.2] using hp.1 ▸ ih
    · have hone : ([(s₁.stateNameFor, s₂.stateNameFor)].filter fun t => !atPath t).length ≤ 1 :=
        List.length_filter_le _ _
      omega

end Leads

/-- A listener that hears more events. -/
def EventListener.hear (events : List LifecycleEvent) (l : EventListener) : EventListener :=
  { l with heard := l.heard ++ events }

namespace StateTransitionExecutor

open ConnectionState

variable {x x' x'' : StateTransitionExecutor} {es es' : List LifecycleEvent}
  {s s' : ConnectionState}

/-- All listeners hear the events, and nothing else happens to them. -/
def Tells (x : StateTransitionExecutor) (es : List LifecycleEvent)
    (x' : StateTransitionExecutor) : Prop :=
  x'.eventListeners = x.eventListeners.map (·.hear es)

theorem Tells.refl : x.Tells [] x := by
  have hid : (fun l : EventListener => l.hear []) = id := by
    funext l
    simp [EventListener.hear]
  rw [Tells, hid, List.map_id]

theorem Tells.trans (h : x.Tells es x') (h' : x'.Tells es' x'') : x.Tells (es ++ es') x'' := by
  rw [Tells, h', h, List.map_map]
  congr 1
  funext l
  simp [EventListener.hear]

theorem tells_triggerEvent (event : LifecycleEvent) : x.Tells [event] (x.triggerEvent event) := rfl

/-- The event that goes with the state just reached is no change of state. -/
theorem tells_triggerLifecycleEvent (s : ConnectionState) :
    ∃ es, transitions es = [] ∧ x.Tells es (x.triggerLifecycleEvent s) := by
  cases s with
  | synReceived | closingWait => exact ⟨[], rfl, .refl⟩
  | _ => exact ⟨_, rfl, tells_triggerEvent _⟩

/-- A transition is refused, or told. -/
theorem executeTransition_cases (x : StateTransitionExecutor) (s s' : ConnectionState) :
    s.isValidTransition s' = false ∧ x.executeTransition s s' = (.error .invalidPacket, x) ∨
      s.isValidTransition s' = true ∧ ∃ es x', x.executeTransition s s' = (.ok s', x') ∧
        x.Tells es x' ∧ transitions es =
          if s.sameDiscriminant s' then [] else [(s.stateNameFor, s'.stateNameFor)] := by
  cases hv : s.isValidTransition s' with
  | false => exact Or.inl ⟨rfl, by rw [executeTransition, hv]; rfl⟩
  | true =>
    right
    refine ⟨rfl, ?_⟩
    rw [executeTransition, if_pos hv]
    cases hs : s.sameDiscriminant s' with
    | true =>
      obtain ⟨es, hes, ht⟩ := tells_triggerLifecycleEvent (x := x) s'
      exact ⟨es, _, rfl, ht, hes⟩
    | false =>
      obtain ⟨es, hes, ht⟩ := tells_triggerLifecycleEvent
        (x := x.triggerEvent (.stateTransition s.stateNameFor s'.stateNameFor)) s'
      refine ⟨_, _, rfl, (tells_triggerEvent _).trans ht, ?_⟩
      rw [transitions_append, hes]
      rfl

end StateTransitionExecutor

namespace DefaultLifecycleManager

open ConnectionState

variable {m m' : DefaultLifecycleManager} {s : ConnectionState}

/-- The copy never holds a notifier, so a change of state notifies nobody. -/
theorem transitionTo_eq : m.transitionTo s =
    m.settle (m.transitionExecutor.executeTransition m.currentState s) := by
  unfold transitionTo
  cases h : m.currentState <;> simp only [clone, h]

/-- What a request does: it is refused and changes nothing, or every listener hears of what the
state goes through. -/
inductive Performed (m : DefaultLifecycleManager) :
    Except Error Unit × DefaultLifecycleManager → Prop where
  | refused (err : Error) : Performed m (.error err, m)
  | told (m' : DefaultLifecycleManager) (es : List LifecycleEvent)
      (ht : m.transitionExecutor.Tells es m'.transitionExecutor)
      (hs : m.currentState.sameDiscriminant m'.currentState = true ∧ transitions es = [] ∨
        m.currentState.isValidTransition m'.currentState = true ∧
          m.currentState.sameDiscriminant m'.currentState = false ∧
          transitions es = [(m.currentState.stateNameFor, m'.currentState.stateNameFor)]) :
    Performed m (.ok (), m')
  | listeners (m' : DefaultLifecycleManager) (hs : m'.currentState = m.currentState)
      (hl : ∀ l ∈ m'.transitionExecutor.eventListeners,
        l ∈ m.transitionExecutor.eventListeners ∨ l = ⟨m.currentState, []⟩) :
    Performed m (.ok (), m')

theorem sameDiscriminant_self (s : ConnectionState) : s.sameDiscriminant s = true := by
  cases s <;> rfl

theorem performed_transitionTo {es : List LifecycleEvent} {m₁ : DefaultLifecycleManager}
    (ht : m.transitionExecutor.Tells es m₁.transitionExecutor) (hes : transitions es = [])
    (hc : m₁.currentState = m.currentState) (hv : m₁ = m ∨
      m.currentState.isValidTransition s = true) : m.Performed (m₁.transitionTo s) := by
  rw [transitionTo_eq]
  rcases StateTransitionExecutor.executeTransition_cases m₁.transitionExecutor m₁.currentState
    s with ⟨hno, he⟩ | ⟨hyes, es', x', he, ht', hes'⟩
  · rcases hv with rfl | hv
    · rw [he]
      exact .refused _
    · rw [hc, hv] at hno
      cases hno
  · rw [he]
    refine .told _ (es ++ es') (ht.trans ht') ?_
    rw [hc] at hyes hes'
    rw [transitions_append, hes, hes']
    dsimp only
    cases hs : m.currentState.sameDiscriminant s with
    | true => exact Or.inl ⟨rfl, rfl⟩
    | false => exact Or.inr ⟨hyes, rfl, rfl⟩

theorem performed (m : DefaultLifecycleManager) (r : Request) : m.Performed (m.perform r) := by
  have hquiet (event : LifecycleEvent) (he : transitions [event] = [])
      (m' : DefaultLifecycleManager) (hs : m'.currentState = m.currentState)
      (ht : m.transitionExecutor.Tells [event] m'.transitionExecutor) :
      m.Performed (.ok (), m') := by
    refine .told m' [event] ht (Or.inl ⟨?_, he⟩)
    rw [hs]
    exact sameDiscriminant_self _
  cases r with
  | initializeFor localCid remoteAddr now => exact hquiet _ rfl _ rfl rfl
  | transitionTo newState =>
    exact performed_transitionTo .refl rfl rfl (Or.inl rfl)
  | beginGracefulShutdown =>
    change m.Performed (m.settle (m.transitionExecutor.executeGracefulShutdown m.currentState))
    have hshut : m.transitionExecutor.executeGracefulShutdown m.currentState =
        m.transitionExecutor.executeTransition m.currentState closing ∨
          m.transitionExecutor.executeGracefulShutdown m.currentState =
            (.ok m.currentState.clone, m.transitionExecutor) := by
      cases m.currentState <;> first | exact Or.inl rfl | exact Or.inr rfl
    rcases hshut with he | he
    · rw [he, ← transitionTo_eq]
      exact performed_transitionTo .refl rfl rfl (Or.inl rfl)
    · rw [he]
      exact .told _ [] .refl (Or.inl ⟨sameDiscriminant_clone _, rfl⟩)
  | forceClose =>
    have ht : m.transitionExecutor.Tells [.forceClose] (m.trigger .forceClose).transitionExecutor :=
      rfl
    change m.Performed ((m.trigger .forceClose).transitionTo closed)
    refine performed_transitionTo ht rfl rfl (Or.inr ?_)
    cases m.currentState <;> rfl
  | startPathValidation newAddr challengeData notifier =>
    change m.Performed (m.startPathValidation newAddr challengeData notifier)
    unfold startPathValidation
    split
    · exact performed_transitionTo .refl rfl rfl (Or.inl rfl)
    · exact .refused _
  | completePathValidation success =>
    change m.Performed (m.completePathValidation success)
    unfold completePathValidation
    split
    · rename_i hv
      have ht : m.transitionExecutor.Tells [.pathValidationCompleted success]
          (m.trigger (.pathValidationCompleted success)).transitionExecutor := rfl
      refine performed_transitionTo ht rfl rfl (Or.inr ?_)
      cases hs : m.currentState with
      | validatingPath a c n => rfl
      | _ =>
        rw [hs] at hv
        cases hv
    · exact .refused _
  | registerEventListener =>
    refine .listeners _ rfl fun l hl => ?_
    rcases List.mem_append.mp hl with hl | hl
    · exact Or.inl hl
    · exact Or.inr (List.mem_singleton.mp hl)
  | clearEventListeners => exact .listeners _ rfl fun l hl => absurd hl (List.not_mem_nil)
  | triggerTimeout => exact hquiet _ rfl _ rfl rfl

/-- What every listener has heard leads to the current state. -/
def Told (m : DefaultLifecycleManager) : Prop :=
  ∀ l ∈ m.transitionExecutor.eventListeners,
    Leads l.registeredIn (transitions l.heard) m.currentState

theorem Told.perform (h : m.Told) (r : Request) : (m.perform r).2.Told := by
  generalize hp : m.perform r = x
  have hx := performed m r
  rw [hp] at hx
  intro l hl
  cases hx with
  | refused err => exact h l hl
  | told m' es ht hs =>
    rw [ht] at hl
    obtain ⟨l, hmem, rfl⟩ := List.mem_map.mp hl
    have hold := h l hmem
    change Leads l.registeredIn (transitions (l.heard ++ es)) m'.currentState
    rw [transitions_append]
    rcases hs with ⟨hs, hes⟩ | ⟨hv, hs, hes⟩
    · rw [hes, List.append_nil]
      exact hold.renew hs
    · rw [hes]
      exact hold.change hv hs
  | listeners m' hs hm =>
    rw [hs]
    rcases hm l hl with hl | rfl
    · exact h l hl
    · exact .refl _

/-- In every run a listener has heard of the changes of state that led from where it was registered
to the current state, one after the other; apart from validations of paths each of them entered a
later phase. A refused request changes nothing. -/
theorem listeners_told (h : system.Reachable m) :
    (∀ l ∈ m.transitionExecutor.eventListeners,
      Leads l.registeredIn (transitions l.heard) m.currentState ∧
        (transitions l.heard).map Prod.fst ++ [m.currentState.stateNameFor] =
          l.registeredIn.stateNameFor :: (transitions l.heard).map Prod.snd ∧
        l.registeredIn.phase + ((transitions l.heard).filter fun t => !Leads.atPath t).length ≤
          m.currentState.phase) ∧
      ∀ r err, (m.perform r).1 = .error err → (m.perform r).2 = m := by
  have hinv : system.Invariant Told :=
    { init := by
        rintro m ⟨s, now, rfl⟩ l hl
        cases hl
      step := by
        rintro m r m' - hm hs
        cases hs
        exact hm.perform r }
  constructor
  · intro l hl
    have hleads := hinv.holds h l hl
    exact ⟨hleads, hleads.linked, hleads.length_le⟩
  · intro r err he
    generalize hp : m.perform r = x at he
    have hx := performed m r
    rw [hp] at hx
    cases hx with
    | refused err => rfl
    | told m' es ht hs => cases he
    | listeners m' hs hm => cases he

/-- A listener hears of a connection that is established, validates a path and closes; a path
validation that is asked for after that is refused. -/
theorem listeners_told_sample : ∃ m : DefaultLifecycleManager, ∃ l : EventListener,
    l ∈ m.transitionExecutor.eventListeners ∧ transitions l.heard =
        [("Connecting", "Established"), ("Established", "ValidatingPath"),
          ("ValidatingPath", "Established"), ("Established", "Closing"), ("Closing", "Closed")] ∧
      Leads l.registeredIn (transitions l.heard) m.currentState := by
  obtain ⟨m, hr, l, hl, ht⟩ : ∃ m, system.Run
      [.registerEventListener, .transitionTo .established, .startPathValidation 81 0 .detached,
        .completePathValidation true, .beginGracefulShutdown, .startPathValidation 82 0 .detached,
        .forceClose] m ∧ ∃ l ∈ m.transitionExecutor.eventListeners, transitions l.heard =
        [("Connecting", "Established"), ("Established", "ValidatingPath"),
          ("ValidatingPath", "Established"), ("Established", "Closing"), ("Closing", "Closed")] :=
    TransitionSystem.exists_run_of_foldlM _ ⟨.connecting, 0, rfl⟩ (by decide)
  exact ⟨m, l, hl, ht, ((listeners_told hr.reachable).1 l hl).1⟩

end DefaultLifecycleManager

namespace Endpoint

open ConnectionState

variable {C : Type} {m : DefaultLifecycleManager} {s : ConnectionState} {e e' : Endpoint C}

/-- The endpoint after its manager was asked for something. -/
def follow (e : Endpoint C) : Except Error Unit × DefaultLifecycleManager → Outcome C (Endpoint C)
  | (.ok _, m) => .ok { e with state := m.currentState }
  | (.error err, _) => .error (err, e)

theorem transitionTo_follow (h : m.currentState = e.state) (s : ConnectionState) :
    e.transitionTo s = e.follow (m.transitionTo s) := by
  rw [transitionTo_eq, DefaultLifecycleManager.transitionTo_eq, h]
  rcases StateTransitionExecutor.executeTransition_cases m.transitionExecutor e.state s with
    ⟨hv, he⟩ | ⟨hv, es, x', he, -⟩
  · rw [he, hv]
    rfl
  · rw [he, hv]
    rfl

/-- The endpoint changes its state as its manager does. -/
theorem state_follow (h : m.currentState = e.state) :
    (∀ s, e.transitionTo s = e.follow (m.transitionTo s)) ∧
      .ok e.beginGracefulShutdown = e.follow m.beginGracefulShutdown ∧
      (∀ a c n, e.startPathValidation a c n = e.follow (m.startPathValidation a c n)) ∧
      ∀ success, e.completePathValidation = e.follow (m.completePathValidation success) := by
  refine ⟨transitionTo_follow h, ?_, fun a c n => ?_, fun success => ?_⟩
  · unfold beginGracefulShutdown DefaultLifecycleManager.beginGracefulShutdown
    rw [h]
    cases e.state <;> rfl
  · unfold startPathValidation DefaultLifecycleManager.startPathValidation
    rw [h]
    cases e.state with
    | established => exact (if_pos rfl).trans (transitionTo_follow h _)
    | _ => exact if_neg (by simp)
  · unfold completePathValidation DefaultLifecycleManager.completePathValidation
    rw [h]
    split
    · exact transitionTo_follow (m := m.trigger _) h _
    · rfl

variable [CongestionControl C] {t : Tick} {l : Label}

/-- Every action leaves the state or changes it legally. -/
theorem Act.legal (h : Act t l e e') :
    e.state.isValidTransition e'.state = true ∨ e.state.sameDiscriminant e'.state = true := by
  have hself (s : ConnectionState) : s.sameDiscriminant s = true :=
    DefaultLifecycleManager.sameDiscriminant_self s
  cases h with
  | challenge a n hs hl =>
    left
    rw [hs]
    rfl
  | packetize chunks b lead bs hs hp hlead hb =>
    right
    change e.state.sameDiscriminant ((e.cut t chunks b).createFin t).2.state = true
    rw [createFin_state]
    exact hself _
  | establish header a hl hs =>
    left
    rw [hs]
    rfl
  | accept data hl hs =>
    left
    rw [hs]
    rfl
  | pathValidated header challenge a n hl hs =>
    left
    rw [hs]
    rfl
  | validationTimeout hs =>
    left
    cases he : e.state with
    | validatingPath a c n => rfl
    | _ =>
      rw [he] at hs
      cases hs
  | finArrived header a hl hr => exact Or.inl (by cases e.state <;> rfl)
  | finReached hl hr => exact Or.inl (by cases e.state <;> rfl)
  | shutdown hl => exact Or.inl (isValidTransition_gracefulShutdown e.state)
  | forceClose hl => exact Or.inl (by cases e.state <;> rfl)
  | close hc => exact Or.inl (by cases e.state <;> rfl)
  | sendEof hl =>
    right
    unfold Endpoint.sendEof
    split <;> exact hself _
  | _ => exact Or.inr (hself _)

end Endpoint

namespace Machine

open Endpoint ConnectionState

variable {C : Type} [CongestionControl C] {m m' : Machine C} {l : Label}

/-- The changes of state in one step. -/
theorem leads_step (h : m.next l = some m') :
    ∃ ts, Leads m.endpoint.state ts m'.endpoint.state := by
  rcases acts_of_next h with ⟨t, -, ha⟩ | ⟨id, now, -, rfl⟩ | ⟨id, -, rfl⟩
  · have hopen : (m.opening l).state = m.endpoint.state := by
      cases l with
      | followUp t =>
        obtain ⟨data, held, hd⟩ := deliver_eq (t := t) (e := m.endpoint)
        rw [opening, hd]
      | _ => rfl
    refine ha.preserves (P := fun e => ∃ ts, Leads m.endpoint.state ts e.state) ?_
      ⟨[], hopen ▸ .refl _⟩
    rintro e e' ⟨ts, hts⟩ ha
    cases hs : e.state.sameDiscriminant e'.state with
    | true => exact ⟨ts, hts.renew hs⟩
    | false =>
      rcases ha.legal with hv | hsame
      · exact ⟨_, hts.change hv hs⟩
      · rw [hs] at hsame
        cases hsame
  · exact ⟨[], .refl _⟩
  · exact ⟨[], .refl _⟩

/-- Over any number of steps the state changes only as the manager lets it: apart from validations
of paths it never stays behind a change nor goes back, and a closed connection stays closed. -/
theorem state_leads (h : Relation.ReflTransGen (system C).Next m m') :
    ∃ ts, Leads m.endpoint.state ts m'.endpoint.state ∧
      m.endpoint.state.phase + (ts.filter fun t => !Leads.atPath t).length ≤
        m'.endpoint.state.phase ∧
      (m.endpoint.state = .closed → m'.endpoint.state = .closed) := by
  obtain ⟨ts, hts⟩ : ∃ ts, Leads m.endpoint.state ts m'.endpoint.state := by
    induction h with
    | refl => exact ⟨[], .refl _⟩
    | tail _ hs ih =>
      obtain ⟨l, hl⟩ := hs
      obtain ⟨ts, hts⟩ := ih
      obtain ⟨ts', hts'⟩ := leads_step hl
      exact ⟨ts ++ ts', hts.trans hts'⟩
  refine ⟨ts, hts, hts.length_le, fun hc => ?_⟩
  have hle := hts.length_le
  rw [hc] at hle
  exact eq_closed_of_phase (le_trans (Nat.le_add_right _ _) hle)

/-- A client that is established and told to close. -/
theorem state_leads_sample : ∃ m' : Machine Vegas, m'.endpoint.state = .closing ∧
    ∃ ts, Leads tinyClient.endpoint.state ts m'.endpoint.state := by
  obtain ⟨m', hr, hs⟩ : ∃ m', Relation.ReflTransGen (system Vegas).Next tinyClient m' ∧
      m'.endpoint.state = .closing :=
    TransitionSystem.exists_star_of_foldlM
      [.begin (tick 0), .frame (tick 1) (.newSynAck 1 2 1) 80, .followUp (tick 1),
        .command (tick 2) .close] (by decide)
  obtain ⟨ts, hts, -⟩ := state_leads hr
  exact ⟨m', hs, ts, hts⟩

end Machine

end Kestrel
