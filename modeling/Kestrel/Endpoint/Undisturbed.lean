import Kestrel.Endpoint.Heard
import Kestrel.Endpoint.Interference

/-! # What additional PINGs disturb

Additional PINGs from other addresses change nothing but the time of the last receipt, unless they
come while the connection is established and start a path validation. As long as one goes on, no
data of the user is cut into frames except by a close, and the user cannot migrate.
-/

namespace Kestrel

namespace Endpoint

variable {C : Type} {t : Tick} {l : Label} {e e' : Endpoint C}

section Validation

variable [CongestionControl C]

theorem Act.packetized_eq (h : Act t l e e') (hl : ∀ s, ¬ l.PacketizesIn s) :
    e'.reliability.packetized = e.reliability.packetized := by
  cases h with
  | packetize chunks b lead bs hs hp hlead hb => exact absurd hs (hl _)
  | receive f a q p hl' hf ht =>
    cases ha : e.reliability.recvBuffer.accepts q with
    | false => rw [ReliabilityLayer.receive_eq_of_not_accepts ha]
    | true =>
      rw [ReliabilityLayer.receive_eq_of_accepts ha]
      rfl
  | sendEof hl' =>
    unfold Endpoint.sendEof
    split <;> rfl
  | _ => rfl

theorem Acts.packetized_eq (h : Acts t l e e') (hl : ∀ s, ¬ l.PacketizesIn s) :
    e'.reliability.packetized = e.reliability.packetized :=
  h.preserves (P := fun e₁ => e₁.reliability.packetized = e.reliability.packetized)
    (fun _ _ h₁ ha => (ha.packetized_eq hl).trans h₁) rfl

/-- The follow-up sends nothing while a path is validated. -/
theorem followUp_of_validating (h : e.state.isValidatingPath = true) :
    (Machine.resume (e.followUp t)).endpoint.reliability.packetized =
      e.reliability.packetized := by
  obtain ⟨data, held, hd⟩ := deliver_eq (t := t) (e := e)
  have hopen : packetizeIfOpen t ((e.deliver t).2.finTransition (e.deliver t).1) =
      .ok ((e.deliver t).2.finTransition (e.deliver t).1) := by
    have hs : ((e.deliver t).2.finTransition (e.deliver t).1).state = e.state := by
      rw [finTransition_eq, hd]
      dsimp only
      split
      · cases hs : e.state <;> simp [hs, ConnectionState.isValidatingPath, consumption] at h ⊢
      · rfl
    unfold packetizeIfOpen
    split <;> rename_i hn <;> first
      | rfl
      | (rw [hs] at hn; rw [hn] at h; cases h)
  have hk : ((e.deliver t).2.finTransition (e.deliver t).1).reliability.packetized =
      e.reliability.packetized := by
    rw [finTransition_eq, hd]
    rfl
  have hclose (e : Endpoint C) :
      e.sendEof.shouldClose.2.reliability.packetized = e.reliability.packetized := by
    obtain ⟨τ, held, he⟩ : ∃ τ held, e.sendEof = { e with timing := τ, txToStream := held } := by
      unfold Endpoint.sendEof
      split <;> exact ⟨_, _, rfl⟩
    rw [he]
    unfold shouldClose
    split
    · rw [transitionTo_eq, if_pos (by cases e.state <;> rfl)]
      rfl
    · rfl
  unfold followUp
  dsimp only
  rw [hopen]
  exact (hclose _).trans hk

omit [CongestionControl C] in
theorem migrate_of_validating (h : e.state ≠ .established) (a : SocketAddr) (n : Notifier) :
    e.migrate t a n = .ok e := by
  rw [migrate, startPathValidation_eq, if_neg h]

omit [CongestionControl C] in
/-- After the timeout of the validation, or where none runs, none runs. -/
theorem not_validating_of_handleTimeoutEvents {events : List TimeoutEvent}
    (h : events.foldlM (fun e event => e.handleTimeoutEvent event) e = .ok e')
    (hv : .pathValidationTimeout ∈ events ∨ e.state.isValidatingPath = false) :
    e'.state.isValidatingPath = false := by
  induction events generalizing e with
  | nil =>
    cases h
    exact hv.resolve_left (by simp)
  | cons event events ih =>
    rw [List.foldlM_cons] at h
    cases he : e.handleTimeoutEvent event with
    | error r =>
      rw [he] at h
      cases h
    | ok e₁ =>
      rw [he] at h
      refine ih h ?_
      cases event with
      | idleTimeout | connectionTimeout =>
        rw [handleTimeoutEvent, transitionTo_eq, if_pos (by cases e.state <;> rfl)] at he
        cases he
      | retransmissionTimeout =>
        cases he
        exact hv.imp (fun hm => by simpa using hm) id
      | pathValidationTimeout =>
        right
        rw [handleTimeoutEvent, handlePathValidationTimeout_eq] at he
        split at he <;> cases he
        · rfl
        · simpa using ‹¬ e.state.isValidatingPath = true›

theorem not_validating_of_checkAllTimeouts (h : e.checkAllTimeouts t = .ok e')
    (hv : .pathValidationTimeout ∈ e.timing.timerManager.timeoutRx) :
    e'.state.isValidatingPath = false := by
  have hfold {e₀ : Endpoint C} {frames : List Frame}
      (h : (e.timing.timerManager.timeoutRx.foldlM (fun e event => e.handleTimeoutEvent event) e₀
        >>= fun e => e.sendFrames t frames) = .ok e') : e'.state.isValidatingPath = false := by
    cases he : e.timing.timerManager.timeoutRx.foldlM
        (fun e event => e.handleTimeoutEvent event) e₀ with
    | error r =>
      rw [he] at h
      cases h
    | ok e₁ =>
      rw [he] at h
      have hs : e₁.sendFrames t frames = .ok e' := h
      have hnot := not_validating_of_handleTimeoutEvents he (Or.inl hv)
      rw [sendFrames_eq] at hs
      rw [eq_of_sending_eq_ok hs]
      exact hnot
  obtain ⟨h, -⟩ := checkAllTimeouts_eq_ok.mp h
  unfold handleTimeouts at h
  dsimp only at h
  split at h
  · exact (hfold h :)
  · exact (hfold h :)

/-- A PING from another address starts a validation with a timer of its own and sends no data. -/
theorem routeFrame_ping_of_established {header : ShortHeader} {a : SocketAddr}
    (hs : e.state = .established) (ha : a ≠ e.remoteAddr)
    (h : e.routeFrame t (.ping header) a = .ok e') :
    e'.state = .validatingPath a t.challenge (some .detached) ∧ e'.remoteAddr = e.remoteAddr ∧
      e'.reliability.packetized = e.reliability.packetized ∧
      (⟨e.timing.timerManager.nextId, .pathValidationTimeout,
        t.wheelTime + Duration.fromSecs 30⟩ : TimerEntry) ∈
          e'.timing.timerManager.registered := by
  unfold routeFrame checkPathMigration at h
  dsimp only at h
  rw [if_pos ⟨ha, hs⟩, startPathValidation_eq, if_pos hs] at h
  simp only [bind, Except.bind, sendFrameTo, sendBatch] at h
  cases ho : t.senderOpen with
  | true =>
    rw [ho, if_pos rfl] at h
    cases h
    refine ⟨rfl, rfl, rfl, ?_⟩
    exact List.mem_append_right _ (List.mem_singleton.mpr rfl)
  | false =>
    rw [ho, if_neg (by simp)] at h
    cases h

end Validation

end Endpoint

namespace Machine

open Endpoint TransitionSystem

variable {C : Type} {m m' w w' : Machine C} {l : Label} {t : Tick} {p : Machine C × Machine C}

variable [CongestionControl C]

/-- While a path is validated only a close command sends data of the user. -/
theorem held_back (hv : w.endpoint.state.isValidatingPath = true)
    (hc : ∀ t, l ≠ .command t .close) (h : w.next l = some w') :
    w'.endpoint.reliability.packetized = w.endpoint.reliability.packetized := by
  have hacts (hl : ∀ s, ¬ l.PacketizesIn s) :
      w'.endpoint.reliability.packetized = w.endpoint.reliability.packetized := by
    rcases acts_of_next h with ⟨t, -, ha⟩ | ⟨id, now, -, rfl⟩ | ⟨id, -, rfl⟩
    · have hopen : w.opening l = w.endpoint := by
        cases l with
        | followUp t => exact absurd (Or.inl rfl) (hl .established)
        | _ => rfl
      rw [hopen] at ha
      exact ha.packetized_eq hl
    · rfl
    · rfl
  cases l with
  | begin t =>
    simp only [next, Option.ite_none_right_eq_some, Option.some.injEq] at h
    obtain ⟨-, rfl⟩ := h
    rw [settle_endpoint]
    unfold Endpoint.begin
    split <;> rename_i hs
    · rw [hs] at hv
      cases hv
    · rfl
  | frame t f a =>
    cases f with
    | synAck header =>
      simp only [next, Option.ite_none_right_eq_some, Option.some.injEq] at h
      obtain ⟨-, rfl⟩ := h
      have hpath : (w.endpoint.heard t.now).checkPathMigration t a =
          .ok (w.endpoint.heard t.now) := by
        rw [checkPathMigration, if_neg]
        rintro ⟨-, hs⟩
        have hs : w.endpoint.state = .established := hs
        rw [hs] at hv
        cases hv
      have hroute : w.endpoint.routeFrame t (.synAck header) a =
          (w.endpoint.heard t.now).handleSynAckFrame t header := by
        change ((w.endpoint.heard t.now).checkPathMigration t a >>= _) = _
        rw [hpath]
        rfl
      rw [settle_endpoint, hroute]
      unfold handleSynAckFrame
      split <;> rename_i hs
      · have hs : w.endpoint.state = .connecting := hs
        rw [hs] at hv
        cases hv
      · rfl
    | _ => exact hacts (by simp [Label.PacketizesIn])
  | command t c =>
    cases c with
    | sendData data =>
      simp only [next, Option.ite_none_right_eq_some, Option.some.injEq] at h
      obtain ⟨-, rfl⟩ := h
      rw [settle_endpoint, handleStreamCommand, sendData, if_neg]
      · rfl
      · intro hs
        rw [hs] at hv
        cases hv
    | close => exact absurd rfl (hc t)
    | migrate a n => exact hacts (by simp [Label.PacketizesIn])
  | followUp t =>
    simp only [next, Option.ite_none_right_eq_some, Option.some.injEq] at h
    obtain ⟨-, rfl⟩ := h
    exact followUp_of_validating hv
  | _ => exact hacts (by simp [Label.PacketizesIn])

/-- What the second of two runs keeps of the first, and what a validation that an additional PING
has started holds back until it ends. -/
structure Undisturbed (m w : Machine C) : Prop where
  delivered : w.endpoint.toStream = m.endpoint.toStream
  ended : w.endpoint.txToStream = m.endpoint.txToStream
  stage_eq : w.endpoint.state.stage = m.endpoint.state.stage
  starts : ∀ t header a w', w.endpoint.state = .established → a ≠ w.endpoint.remoteAddr →
    w.next (.frame t (.ping header) a) = some w' → w'.Running →
    w'.endpoint.state = .validatingPath a t.challenge (some .detached) ∧
      w'.endpoint.remoteAddr = w.endpoint.remoteAddr ∧
      w'.endpoint.reliability.packetized = w.endpoint.reliability.packetized ∧
      (⟨w.endpoint.timing.timerManager.nextId, .pathValidationTimeout,
        t.wheelTime + Duration.fromSecs 30⟩ : TimerEntry) ∈
          w'.endpoint.timing.timerManager.registered
  held_back : w.endpoint.state.isValidatingPath = true → ∀ l w', w.next l = some w' →
    (∀ t, l ≠ .command t .close) →
    w'.endpoint.reliability.packetized = w.endpoint.reliability.packetized
  refused : w.endpoint.state.isValidatingPath = true → ∀ t a n w',
    w.next (.command t (.migrate a n)) = some w' → w'.endpoint = w.endpoint
  ends : ∀ t w', .pathValidationTimeout ∈ w.endpoint.timing.timerManager.timeoutRx →
    w.next (.poll t) = some w' → w'.Running → w'.endpoint.state.isValidatingPath = false

/-- The additional PINGs come where the endpoint is not established, and the timer tasks do the
same. -/
def Quiet (p : Machine C × Machine C) : Joint Label → Prop
  | .right (.frame ..) => p.2.endpoint.state ≠ .established
  | .right (.followUp _) => True
  | .both _ => True
  | _ => False

instance (p : Machine C × Machine C) : ∀ i, Decidable (Quiet p i)
  | .both _ => isTrue trivial
  | .left _ => isFalse id
  | .right (.frame ..) => inferInstanceAs (Decidable (_ ≠ _))
  | .right (.followUp _) => isTrue trivial
  | .right (.begin _) => isFalse id
  | .right (.command ..) => isFalse id
  | .right (.poll _) => isFalse id
  | .right (.fire ..) => isFalse id
  | .right (.dropReplaced _) => isFalse id

/-- The pairs of runs in which no additional PING starts a validation. -/
def quietPairs (C : Type) [CongestionControl C] :
    TransitionSystem (Machine C × Machine C) (Joint Label) :=
  (sideBySide C).restrict fun p i _ => Apart p i ∧ Quiet p i

/-- The machines are the same but for the time of the last receipt, and one of them may have a
batch of PINGs to follow up. -/
def Unheard (m w : Machine C) : Prop :=
  ∃ x, w = m.heard x ∨ m.phase = .waiting ∧ w = ⟨m.endpoint.heard x, .frames⟩

theorem Unheard.both (h : Unheard m w) (hl : ∀ t, l ≠ .begin t) (hm : m.next l = some m')
    (hw : w.next l = some w') : Unheard m' w' := by
  obtain ⟨x, rfl | ⟨hp, rfl⟩⟩ := h
  · by_cases hf : ∀ t f a, l ≠ .frame t f a
    · rw [next_heard hf, hm] at hw
      exact ⟨x, Or.inl (Option.some.inj hw).symm⟩
    · push Not at hf
      obtain ⟨t, f, a, rfl⟩ := hf
      rw [next_heard_frame, hm] at hw
      exact ⟨m'.endpoint.timing.lastRecvTime, Or.inl (Option.some.inj hw).symm⟩
  · cases l with
    | begin t => exact absurd rfl (hl t)
    | frame t f a =>
      simp only [next, Option.ite_none_right_eq_some, Option.some.injEq] at hm hw
      obtain ⟨-, rfl⟩ := hm
      obtain ⟨-, rfl⟩ := hw
      exact ⟨_, Or.inl rfl⟩
    | command t c => simp [next] at hw
    | poll t => simp [next] at hw
    | followUp t => simp [next, hp] at hm
    | fire id now | dropReplaced id =>
      simp only [next, Option.some.injEq] at hm hw
      rw [← hm, ← hw]
      exact ⟨x, Or.inr ⟨hp, rfl⟩⟩

theorem Unheard.ping {header : ShortHeader} {a : SocketAddr} (h : Unheard m w)
    (hs : w.endpoint.state ≠ .established)
    (hw : w.next (.frame t (.ping header) a) = some w') : Unheard m w' := by
  simp only [next, Option.ite_none_right_eq_some, Option.some.injEq] at hw
  obtain ⟨hp, rfl⟩ := hw
  rw [routeFrame_ping (Or.inr hs)]
  obtain ⟨x, rfl | ⟨hm, rfl⟩⟩ := h
  · have hp : m.phase = .waiting ∨ m.phase = .frames := hp
    rcases hp with hp | hp
    · exact ⟨t.now, Or.inr ⟨hp, rfl⟩⟩
    · refine ⟨t.now, Or.inl ?_⟩
      change _ = (⟨m.endpoint.heard t.now, m.phase⟩ : Machine C)
      rw [hp]
      rfl
  · exact ⟨t.now, Or.inr ⟨hm, rfl⟩⟩

theorem Unheard.followUp (h : Unheard m w) (hi : m.endpoint.Idle) (hp : m.phase = .waiting)
    (hw : w.next (.followUp t) = some w') : Unheard m w' := by
  obtain ⟨x, rfl | ⟨-, rfl⟩⟩ := h
  · simp [next, heard, hp] at hw
  · simp only [next, Option.ite_none_right_eq_some, Option.some.injEq] at hw
    obtain ⟨-, rfl⟩ := hw
    have hi : (m.endpoint.heard x).Idle := { hi with }
    refine ⟨x, Or.inl ?_⟩
    change _ = (⟨m.endpoint.heard x, m.phase⟩ : Machine C)
    rw [hi.followUp, hp]
    rfl

/-- Two runs whose additional PINGs start no validation do the same. -/
theorem unheard (h : (quietPairs C).Reachable p)
    (hlen : p.1.endpoint.history.numbered.length < u32Size) : Unheard p.1 p.2 := by
  have hinv : (quietPairs C).Invariant fun p =>
      p.1.endpoint.history.numbered.length < u32Size → Unheard p.1 p.2 := by
    constructor
    · rintro p ⟨hp, -⟩ -
      refine ⟨p.1.endpoint.timing.lastRecvTime, Or.inl ?_⟩
      rw [← hp]
      rfl
    · rintro p i p' hr hp ⟨hn, ha, hq⟩ hlen
      cases i with
      | both l =>
        obtain ⟨hm, hw⟩ := jointly_both.mp hn
        have hl : ∀ t, l ≠ .begin t := by
          rintro t rfl
          exact ha
        exact (hp (lt_of_le_of_lt (numbered_mono hm).length_le hlen)).both hl hm hw
      | left l => exact hq.elim
      | right l =>
        obtain ⟨hm, hw⟩ := jointly_right.mp hn
        rw [hm] at hlen ⊢
        cases l with
        | frame t f a =>
          cases f with
          | ping header => exact (hp hlen).ping hq hw
          | _ => exact ha.elim
        | followUp t =>
          have hi := idle (reachable_of_sideBySide hr.of_restrict) ha hlen
          exact (hp hlen).followUp hi ha hw
        | _ => exact hq.elim
  exact hinv.holds h hlen

theorem Alike.undisturbed (h : Alike p) : Undisturbed p.1 p.2 where
  delivered := h.agree.toStream_eq.symm
  ended := h.agree.txToStream_eq.symm
  stage_eq := h.agree.stage_eq.symm
  starts t header a w' hs ha hn hr := by
    simp only [next, Option.ite_none_right_eq_some, Option.some.injEq] at hn
    obtain ⟨-, rfl⟩ := hn
    obtain ⟨e, he⟩ := ok_of_settle hr
    rw [he]
    exact routeFrame_ping_of_established hs ha he
  held_back hv l w' hn hc := held_back hv hc hn
  refused hv t a n w' hn := by
    simp only [next, Option.ite_none_right_eq_some, Option.some.injEq] at hn
    obtain ⟨-, rfl⟩ := hn
    rw [settle_endpoint, handleStreamCommand, migrate_of_validating]
    · rfl
    · intro hs
      rw [hs] at hv
      cases hv
  ends t w' hm hn hr := by
    simp only [next, Option.ite_none_right_eq_some, Option.some.injEq] at hn
    obtain ⟨-, rfl⟩ := hn
    obtain ⟨e, he⟩ := ok_of_settle hr
    rw [he]
    exact not_validating_of_checkAllTimeouts he hm

/-- Additional PINGs from other addresses change neither what the user receives nor how far the
connection is closed. Those that start no validation change nothing that is sent either. -/
theorem pings_disturb_only_by_validation :
    (∀ p, (pairs C).Reachable p → p.1.Live → p.2.Live → Undisturbed p.1 p.2) ∧
      ∀ p, (quietPairs C).Reachable p → p.1.endpoint.history.numbered.length < u32Size →
        Unheard p.1 p.2 :=
  ⟨fun _ h h₁ h₂ => (alike h h₁ h₂).undisturbed, fun _ h hlen => unheard h hlen⟩

section Sample

/-- A client is established. -/
def openingRun : List Label :=
  [.begin (tick 0), .frame (tick 1) (.newSynAck 1 2 1) 80, .followUp (tick 1)]

/-- One of two runs hears a PING from another address before the user writes. -/
def disturbedRun : List (Joint Label) :=
  [.right (.frame (tick 2) (.ping ⟨.ping, 1, 0, 256, 0, 0, 0⟩) 81), .right (.followUp (tick 2)),
    .both (.command (tick 3) (.sendData [9])), .both (.followUp (tick 3))]

/-- One of two runs hears it after the user has closed the connection. -/
def quietRun : List (Joint Label) :=
  [.both (.command (tick 2) .close), .both (.followUp (tick 2)),
    .right (.frame (tick 3) (.ping ⟨.ping, 1, 0, 256, 0, 0, 0⟩) 81), .right (.followUp (tick 3))]

/-- The stream payloads sent to an address. -/
def payloadsTo (m : Machine C) (a : SocketAddr) : List Bytes :=
  payloadsOf ((m.endpoint.sent.filter fun b => b.remoteAddr = a).flatMap (·.frames))

theorem exists_pair {G : Machine Vegas × Machine Vegas → Joint Label → Prop}
    [∀ p i, Decidable (G p i)] (js : List (Joint Label))
    (P : Machine Vegas × Machine Vegas → Prop) [DecidablePred P]
    (h : (openingRun.foldlM (fun (m : Machine Vegas) l => m.next l) tinyClient).map
      (fun m => decide (m.endpoint.state = .established ∧
        (js.foldlM (fun p i => if G p i then jointly (fun m l => m.next l) p i else none)
          (m, m)).map (fun p => decide (P p)) = some true)) = some true) :
    ∃ p, ((sideBySide Vegas).restrict fun p i _ => G p i).Run js p ∧ P p := by
  obtain ⟨m, hr, hs, hp⟩ : ∃ m, (system Vegas).Run openingRun m ∧
      m.endpoint.state = .established ∧
        (js.foldlM (fun p i => if G p i then jointly (fun m l => m.next l) p i else none)
          (m, m)).map (fun p => decide (P p)) = some true :=
    exists_run_of_foldlM openingRun tinyClient_created h
  exact exists_restrict_run_of_foldlM js ⟨rfl, hr.reachable, hs⟩ hp

theorem pings_disturb_only_by_validation_sample :
    (∃ p, (pairs Vegas).Reachable p ∧ p.2.endpoint.state.isValidatingPath = true ∧
      Undisturbed p.1 p.2) ∧
      ∃ p, (quietPairs Vegas).Reachable p ∧ p.2.endpoint.state = .closing ∧ Unheard p.1 p.2 := by
  obtain ⟨p, hr, hs, h₁, h₂⟩ := exists_pair (G := Apart) disturbedRun
    (fun p => p.2.endpoint.state.isValidatingPath = true ∧ p.1.Live ∧ p.2.Live) (by decide)
  obtain ⟨p', hr', hs', hlen⟩ := exists_pair (G := fun p i => Apart p i ∧ Quiet p i) quietRun
    (fun p => p.2.endpoint.state = .closing ∧ p.1.endpoint.history.numbered.length < u32Size)
    (by decide)
  exact ⟨⟨p, hr.reachable, hs, pings_disturb_only_by_validation.1 p hr.reachable h₁ h₂⟩,
    p', hr'.reachable, hs', pings_disturb_only_by_validation.2 p' hr'.reachable hlen⟩

/-- What the user writes is sent in the one run and waits in the other. -/
theorem ping_holds_back_payload : ∃ js p, (pairs Vegas).Run js p ∧
    (∀ t header c a, Joint.both (.frame t (.pathResponse header c) a) ∉ js) ∧
      p.1.Live ∧ p.2.Live ∧ p.1.phase = p.2.phase ∧
        payloadsTo p.1 80 = [[9]] ∧ payloadsTo p.2 80 = [] := by
  obtain ⟨p, hr, h₁, h₂, hp, hm, hw⟩ := exists_pair (G := Apart) disturbedRun
    (fun p => p.1.Live ∧ p.2.Live ∧ p.1.phase = p.2.phase ∧ payloadsTo p.1 80 = [[9]] ∧
      payloadsTo p.2 80 = []) (by decide)
  exact ⟨disturbedRun, p, hr, by simp [disturbedRun], h₁, h₂, hp, hm, hw⟩

end Sample

end Machine

end Kestrel
