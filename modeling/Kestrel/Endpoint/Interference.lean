import Kestrel.Endpoint.Range
import Kestrel.Endpoint.Settled

/-! # Interference

Two runs of an established endpoint, one of which receives additional PING frames from other
addresses. Such a frame may begin a path validation, which holds back the data of the user; what
the endpoint receives and how far it has closed stay the same in both runs.
-/

namespace Kestrel

/-- How far a connection has been opened or closed. -/
inductive Stage where
  | opening
  | transfer
  | closing
  | closingWait
  | closed
  deriving DecidableEq, Repr

namespace ConnectionState

variable {s s' : ConnectionState}

def stage : ConnectionState → Stage
  | connecting | synReceived => .opening
  | established | validatingPath .. | finWait => .transfer
  | closing => .closing
  | closingWait => .closingWait
  | closed => .closed

theorem stage_of_isValidatingPath (h : s.isValidatingPath = true) : s.stage = .transfer := by
  cases s <;> simp [isValidatingPath, stage] at h ⊢

theorem stage_gracefulShutdown (h : s.stage = s'.stage) :
    s.gracefulShutdown.stage = s'.gracefulShutdown.stage := by
  cases s <;> cases s' <;> simp [stage, gracefulShutdown, clone] at h ⊢

theorem stage_consumption (h : s.stage = s'.stage) (ho : s.stage ≠ .opening) :
    (Endpoint.consumption s).stage = (Endpoint.consumption s').stage := by
  cases s <;> cases s' <;> simp [stage, Endpoint.consumption] at h ho ⊢

theorem stage_arrival (h : s.stage = s'.stage) (ho : s.stage ≠ .opening) :
    (Endpoint.arrival s).stage = (Endpoint.arrival s').stage := by
  cases s <;> cases s' <;> simp [stage, Endpoint.arrival] at h ho ⊢

theorem takes_of_stage (h : s.stage = s'.stage) (ho : s.stage ≠ .opening) (p : PacketOrFin) :
    Endpoint.takes s p = Endpoint.takes s' p := by
  cases p <;> cases s <;> cases s' <;> simp [stage, Endpoint.takes] at h ho ⊢

end ConnectionState

namespace Endpoint

open ConnectionState

variable {C : Type} {t : Tick} {l : Label} {e e' w : Endpoint C}

/-- Two endpoints agree on what they have received and on how far they have closed. -/
structure Agree (e w : Endpoint C) : Prop where
  stage_eq : e.state.stage = w.state.stage
  recvBuffer_eq : e.reliability.recvBuffer = w.reliability.recvBuffer
  toStream_eq : e.toStream = w.toStream
  txToStream_eq : e.txToStream = w.txToStream
  finPendingEof_eq : e.timing.finPendingEof = w.timing.finPendingEof

theorem Agree.refl (e : Endpoint C) : Agree e e := ⟨rfl, rfl, rfl, rfl, rfl⟩

theorem Agree.symm (h : Agree e w) : Agree w e :=
  ⟨h.stage_eq.symm, h.recvBuffer_eq.symm, h.toStream_eq.symm, h.txToStream_eq.symm,
    h.finPendingEof_eq.symm⟩

theorem Agree.trans {x : Endpoint C} (h : Agree e w) (h' : Agree w x) : Agree e x :=
  ⟨h.stage_eq.trans h'.stage_eq, h.recvBuffer_eq.trans h'.recvBuffer_eq,
    h.toStream_eq.trans h'.toStream_eq, h.txToStream_eq.trans h'.txToStream_eq,
    h.finPendingEof_eq.trans h'.finPendingEof_eq⟩

theorem Settled.of_agree (h : w.Settled) (ha : Agree e w) : e.Settled := by
  obtain ⟨hr, hn⟩ := h
  refine ⟨?_, ?_⟩
  · rw [ha.recvBuffer_eq]
    exact hr
  · rw [ha.finPendingEof_eq, ha.txToStream_eq, ReliabilityLayer.isRecvBufferEmpty,
      ha.recvBuffer_eq]
    exact hn

section FollowUp

theorem Agree.deliver (h : Agree e w) (t : Tick) :
    (e.deliver t).1 = (w.deliver t).1 ∧ Agree (e.deliver t).2 (w.deliver t).2 := by
  unfold Endpoint.deliver ReliabilityLayer.reassemble
  rw [h.recvBuffer_eq, h.txToStream_eq, h.toStream_eq, h.finPendingEof_eq]
  dsimp only
  split
  · exact ⟨rfl, h.stage_eq, rfl, rfl, rfl, rfl⟩
  · split
    · exact ⟨rfl, h.stage_eq, rfl, rfl, rfl, rfl⟩
    · exact ⟨rfl, h.stage_eq, rfl, rfl, rfl, rfl⟩

theorem Agree.finTransition (h : Agree e w) (ho : e.state.stage ≠ .opening) (finSeen : Bool) :
    Agree (e.finTransition finSeen) (w.finTransition finSeen) := by
  rw [finTransition_eq, finTransition_eq]
  refine ⟨?_, h.recvBuffer_eq, h.toStream_eq, h.txToStream_eq, h.finPendingEof_eq⟩
  dsimp only
  split
  · exact stage_consumption h.stage_eq ho
  · exact h.stage_eq

theorem Agree.sendEof (h : Agree e w) : Agree e.sendEof w.sendEof := by
  unfold Endpoint.sendEof ReliabilityLayer.isRecvBufferEmpty
  rw [h.finPendingEof_eq, h.recvBuffer_eq, h.txToStream_eq]
  split
  · exact ⟨h.stage_eq, h.recvBuffer_eq, h.toStream_eq, rfl, rfl⟩
  · exact h

theorem agree_createFin : Agree (e.createFin t).2 e := by
  unfold createFin
  split
  · exact ⟨rfl, rfl, rfl, rfl, rfl⟩
  · exact Agree.refl e

variable [CongestionControl C]

theorem agree_packetizeAndSend : Agree (Outcome.last (e.packetizeAndSend t)) e := by
  obtain ⟨chunks, b, bs, hp, hb, he⟩ := packetizeAndSend_eq (t := t) (e := e)
  rw [he, last_sending]
  have hfin := agree_createFin (t := t) (e := e.cut t chunks b)
  exact ⟨hfin.stage_eq, hfin.recvBuffer_eq, hfin.toStream_eq, hfin.txToStream_eq,
    hfin.finPendingEof_eq⟩

theorem agree_packetizeIfOpen : Agree (Outcome.last (e.packetizeIfOpen t)) e := by
  unfold packetizeIfOpen
  split <;> first | exact agree_packetizeAndSend | exact Agree.refl _

theorem agree_of_followUp {close : Bool} (h : e.followUp t = .ok (close, e'))
    (hc : e'.state ≠ .closed) :
    close = false ∧ Agree e' ((e.deliver t).2.finTransition (e.deliver t).1).sendEof := by
  obtain ⟨e₂, hx, he⟩ := exists_packetized_of_followUp h
  have ha := agree_packetizeIfOpen (t := t) (e := (e.deliver t).2.finTransition (e.deliver t).1)
  rw [hx] at ha
  have hs : e₂.sendEof.shouldClose.2.state ≠ .closed := by
    rw [← he]
    exact hc
  rw [shouldClose_of_not_closed hs] at he
  obtain ⟨rfl, rfl⟩ := Prod.mk.inj he
  exact ⟨rfl, Agree.sendEof ha⟩

end FollowUp

section Frames

theorem agree_sendStandaloneAck (h : e.sendStandaloneAck t = .ok e') :
    e'.state = e.state ∧ Agree e' e := by
  unfold sendStandaloneAck at h
  split at h
  · rw [sendRawFrames_eq] at h
    rw [eq_of_sending_eq_ok h]
    exact ⟨rfl, rfl, rfl, rfl, rfl, rfl⟩
  · cases h
    exact ⟨rfl, Agree.refl _⟩

/-- The endpoint after an item of the stream has been received, but for its acknowledgment. -/
def received (e : Endpoint C) (q : ℕ) (p : PacketOrFin) : Endpoint C :=
  { e with
    reliability := (e.reliability.receive q p).2
    state := if p = .fin ∧ e.reliability.recvBuffer.accepts q = true then arrival e.state
      else e.state }

theorem Agree.received (h : Agree e w) (ho : e.state.stage ≠ .opening) (q : ℕ) (p : PacketOrFin) :
    Agree (e.received q p) (w.received q p) := by
  refine ⟨?_, ?_, h.toStream_eq, h.txToStream_eq, h.finPendingEof_eq⟩
  · simp only [Endpoint.received]
    rw [h.recvBuffer_eq]
    split
    · exact stage_arrival h.stage_eq ho
    · exact h.stage_eq
  · simp only [Endpoint.received, ReliabilityLayer.receive_recvBuffer]
    rw [h.recvBuffer_eq]

theorem agree_receiveDataAndMaybeAck {q : ℕ} {payload : Bytes}
    (h : e.receiveDataAndMaybeAck t q payload = .ok e') :
    Agree e' (e.received q (.push payload)) := by
  unfold receiveDataAndMaybeAck ReliabilityLayer.receivePush at h
  unfold received
  cases ha : e.reliability.recvBuffer.accepts q with
  | false =>
    rw [ReliabilityLayer.receive_eq_of_not_accepts ha] at h ⊢
    cases h
    exact ⟨rfl, rfl, rfl, rfl, rfl⟩
  | true =>
    rw [ReliabilityLayer.receive_eq_of_accepts ha] at h ⊢
    obtain ⟨-, hk⟩ := agree_sendStandaloneAck h
    exact ⟨hk.stage_eq, hk.recvBuffer_eq, hk.toStream_eq, hk.txToStream_eq, hk.finPendingEof_eq⟩

theorem agree_receiveFinThen {q : ℕ} {next : Endpoint C → Endpoint C}
    (hn : ∀ e₁ : Endpoint C, e₁.state = e.state →
      Agree (next e₁) { e₁ with state := arrival e₁.state })
    (h : e.receiveFinThen t q next = .ok e') : Agree e' (e.received q .fin) := by
  unfold receiveFinThen receiveFinAndAck ReliabilityLayer.receiveFin at h
  unfold received
  cases ha : e.reliability.recvBuffer.accepts q with
  | false =>
    rw [ReliabilityLayer.receive_eq_of_not_accepts ha] at h ⊢
    cases h
    exact ⟨rfl, rfl, rfl, rfl, rfl⟩
  | true =>
    rw [ReliabilityLayer.receive_eq_of_accepts ha] at h ⊢
    dsimp only at h ⊢
    generalize hx : sendStandaloneAck t { e with reliability := _ } = x at h
    cases x with
    | error r => cases h
    | ok e₁ =>
      obtain ⟨hs, hk⟩ := agree_sendStandaloneAck hx
      have he : e' = next e₁ := by
        cases h
        rfl
      rw [he]
      refine (hn e₁ hs).trans ⟨?_, hk.recvBuffer_eq, hk.toStream_eq, hk.txToStream_eq,
        hk.finPendingEof_eq⟩
      rw [if_pos ⟨rfl, rfl⟩]
      exact congrArg (fun s => (arrival s).stage) hs

theorem agree_handlePushFrame {header : ShortHeader} {payload : Bytes}
    (ho : e.state.stage ≠ .opening) (hc : e.state ≠ .closed)
    (h : e.handlePushFrame t header payload = .ok e') :
    Agree e' (e.received header.sequenceNumber (.push payload)) := by
  unfold handlePushFrame at h
  split at h <;> rename_i hs
  · exact absurd (by rw [hs]; rfl) ho
  · exact agree_receiveDataAndMaybeAck h
  · exact agree_receiveDataAndMaybeAck h
  · exact agree_receiveDataAndMaybeAck h
  · exact agree_receiveDataAndMaybeAck h
  · exact agree_receiveDataAndMaybeAck h
  · exact absurd (by rw [hs]; rfl) ho
  · exact absurd hs hc

theorem agree_handleFinFrame {header : ShortHeader} (ht : takes e.state .fin = true)
    (ho : e.state.stage ≠ .opening) (h : e.handleFinFrame t header = .ok e') :
    Agree e' (e.received header.sequenceNumber .fin) := by
  have htry (e₁ : Endpoint C) (s : ConnectionState) (ha : arrival e₁.state = s)
      (hv : e₁.state.isValidTransition s = true) :
      Agree (e₁.tryTransition s) { e₁ with state := arrival e₁.state } := by
    rw [tryTransition_eq, if_pos hv, ha]
    exact Agree.refl _
  have hid (e₁ : Endpoint C) (ha : (arrival e₁.state).stage = e₁.state.stage) :
      Agree (id e₁) { e₁ with state := arrival e₁.state } := ⟨ha.symm, rfl, rfl, rfl, rfl⟩
  unfold handleFinFrame at h
  split at h <;> rename_i hs
  · exact absurd (by rw [hs]; rfl) ho
  · exact agree_receiveFinThen (fun e₁ he => hid e₁ (by rw [he, hs]; rfl)) h
  · refine agree_receiveFinThen (fun e₁ he => htry e₁ _ ?_ ?_) h
    · rw [he, hs]
      rfl
    · rw [he, hs]
      rfl
  · exact agree_receiveFinThen (fun e₁ he => hid e₁ (by rw [he, hs]; rfl)) h
  · refine agree_receiveFinThen (fun e₁ he => ?_) h
    rw [if_pos (he.trans hs)]
    refine htry e₁ _ ?_ ?_
    · rw [he, hs]
      rfl
    · rw [he, hs]
      rfl
  · rw [hs] at ht
    cases ht
  · rw [hs] at ht
    cases ht
  · rw [hs] at ht
    cases ht

theorem handleFinFrame_of_not_takes {header : ShortHeader} (ht : takes e.state .fin = false) :
    e.handleFinFrame t header = .ok e := by
  unfold handleFinFrame
  split <;> rename_i hs <;> first | rfl | (rw [hs] at ht; cases ht)

end Frames

section Acts

variable [CongestionControl C]

/-- Apart from items of the stream, follow-ups and close commands, an action changes nothing of
what endpoints agree on, or closes the connection at once. -/
theorem Act.agree (h : Act t l e e') (ho : e.state.stage ≠ .opening)
    (hitem : ∀ f a, l = .frame t f a → f.item? = none) (hf : l ≠ .followUp t)
    (hc : l ≠ .command t .close) : Agree e' e ∨ e'.state = .closed := by
  cases h with
  | challenge a n hs hl => exact Or.inl ⟨by rw [hs]; rfl, rfl, rfl, rfl, rfl⟩
  | receive f a q p hl hi ht =>
    rw [hitem f a hl] at hi
    cases hi
  | packetize chunks b lead bs hs hp hlead hb =>
    have hfin := agree_createFin (t := t) (e := e.cut t chunks b)
    exact Or.inl ⟨hfin.stage_eq, hfin.recvBuffer_eq, hfin.toStream_eq, hfin.txToStream_eq,
      hfin.finPendingEof_eq⟩
  | establish header a hl hs => exact absurd (by rw [hs]; rfl) ho
  | accept data hl hs => exact absurd (by rw [hs]; rfl) ho
  | pathValidated header challenge a n hl hs => exact Or.inl ⟨by rw [hs]; rfl, rfl, rfl, rfl, rfl⟩
  | validationTimeout hs =>
    exact Or.inl ⟨(stage_of_isValidatingPath hs).symm, rfl, rfl, rfl, rfl⟩
  | finArrived header a hl hr => cases hitem _ _ hl
  | finReached hl hr => exact absurd hl hf
  | shutdown hl => exact absurd hl hc
  | endStream hl hs hb => exact absurd hl hc
  | forceClose hl => exact Or.inr rfl
  | close hs => exact Or.inr rfl
  | sendEof hl => exact absurd hl hf
  | _ => exact Or.inl ⟨rfl, rfl, rfl, rfl, rfl⟩

theorem Acts.agree (h : Acts t l e e') (ho : e.state.stage ≠ .opening)
    (hitem : ∀ f a, l = .frame t f a → f.item? = none) (hf : l ≠ .followUp t)
    (hc : l ≠ .command t .close) (hn : e'.state ≠ .closed) : Agree e' e := by
  refine (h.preserves (P := fun e₂ => Agree e₂ e ∨ e₂.state = .closed) ?_
    (Or.inl (Agree.refl e))).resolve_right hn
  intro e₁ e₂ h₁ ha
  rcases h₁ with h₁ | h₁
  · have ho₁ : e₁.state.stage ≠ .opening := by
      rw [h₁.stage_eq]
      exact ho
    exact (ha.agree ho₁ hitem hf hc).imp (fun h₂ => h₂.trans h₁) id
  · exact Or.inr (ha.closed h₁)

theorem Acts.closed (h : Acts t l e e') (hc : e.state = .closed) : e'.state = .closed :=
  h.preserves (P := fun e => e.state = .closed) (fun _ _ hc ha => ha.closed hc) hc

/-- A frame that is routed without failure is processed by an endpoint that agrees with the one
that received it. -/
theorem exists_processed {f : Frame} {a : SocketAddr} (h : e.routeFrame t f a = .ok e')
    (ho : e.state.stage ≠ .opening) (hn : e'.state ≠ .closed) :
    ∃ e₁, Agree e₁ e ∧ e₁.state ≠ .closed ∧ e₁.processFrame t f a = .ok e' := by
  let ping : ShortHeader := ⟨.ping, 0, 0, 0, 0, 0, 0⟩
  have hpath : Acts t (.frame t (.ping ping) a) e (Outcome.last (checkPathMigration t
      { e with timing := e.timing.onPacketReceived t.now } a)) :=
    .head .received (acts_checkPathMigration rfl)
  change checkPathMigration t { e with timing := e.timing.onPacketReceived t.now } a >>= (fun e =>
    e.processFrame t f a) = .ok e' at h
  generalize checkPathMigration t { e with timing := e.timing.onPacketReceived t.now } a = x
    at h hpath
  cases x with
  | error r => cases h
  | ok e₁ =>
    have h : e₁.processFrame t f a = .ok e' := h
    have hp := acts_processFrame (t := t) (e := e₁) (f := f) (a := a) rfl
    rw [h] at hp
    have hn₁ : e₁.state ≠ .closed := fun hc => hn (hp.closed hc)
    exact ⟨e₁, hpath.agree ho (by rintro f a ⟨⟩; rfl) (by simp) (by simp) hn₁, hn₁, h⟩

/-- An item of the stream does the same to endpoints that agree. -/
theorem Agree.routeFrame {w' : Endpoint C} {f : Frame} {a : SocketAddr} (h : Agree e w)
    (ho : e.state.stage ≠ .opening) (hi : f.item? ≠ none) (he : e.routeFrame t f a = .ok e')
    (hw : w.routeFrame t f a = .ok w') (hen : e'.state ≠ .closed) (hwn : w'.state ≠ .closed) :
    Agree e' w' := by
  obtain ⟨e₁, h₁, hc₁, hp₁⟩ := exists_processed he ho hen
  obtain ⟨w₁, h₂, hc₂, hp₂⟩ := exists_processed hw (by rw [← h.stage_eq]; exact ho) hwn
  have h₁₂ : Agree e₁ w₁ := h₁.trans (h.trans h₂.symm)
  have ho₁ : e₁.state.stage ≠ .opening := by
    rw [h₁.stage_eq]
    exact ho
  have ho₂ : w₁.state.stage ≠ .opening := by
    rw [← h₁₂.stage_eq]
    exact ho₁
  cases f with
  | push header payload =>
    have hl := agree_handlePushFrame ho₁ hc₁ hp₁
    have hr := agree_handlePushFrame ho₂ hc₂ hp₂
    exact hl.trans ((h₁₂.received ho₁ _ _).trans hr.symm)
  | fin header =>
    have hl : e₁.handleFinFrame t header = .ok e' := hp₁
    have hr : w₁.handleFinFrame t header = .ok w' := hp₂
    have htakes := takes_of_stage h₁₂.stage_eq ho₁ .fin
    cases ht : takes e₁.state .fin with
    | true =>
      have hl := agree_handleFinFrame ht ho₁ hl
      have hr := agree_handleFinFrame (htakes.symm.trans ht) ho₂ hr
      exact hl.trans ((h₁₂.received ho₁ _ _).trans hr.symm)
    | false =>
      rw [handleFinFrame_of_not_takes ht] at hl
      rw [handleFinFrame_of_not_takes (htakes.symm.trans ht)] at hr
      cases hl
      cases hr
      exact h₁₂
  | _ => exact absurd rfl hi

theorem agree_close (ho : e.state.stage ≠ .opening)
    (hn : (Outcome.last (e.close t)).state ≠ .closed) :
    Agree (Outcome.last (e.close t)) e.beginGracefulShutdown := by
  have hsh : e.shutdown = e.shutdownGracefully := by
    unfold shutdown
    split
    · exact absurd (by rename_i hs; rw [hs]; rfl) ho
    · exact absurd (by rename_i hs; rw [hs]; rfl) ho
    · rfl
  have hc : e.beginGracefulShutdown.state ≠ .closed := by
    intro hc
    rw [close, hsh, shutdownGracefully, if_pos hc] at hn
    rw [if_pos (by exact hc)] at hn
    exact hn hc
  have hgrace : e.shutdownGracefully = e.beginGracefulShutdown := if_neg hc
  rw [close, hsh, hgrace, if_neg hc]
  exact agree_packetizeAndSend

end Acts

end Endpoint

namespace Machine

open Endpoint TransitionSystem

variable {C : Type} {m m' w w' : Machine C} {l : Label} {t : Tick} {p : Machine C × Machine C}

/-- The loop goes on and the connection is not closed. -/
structure Live (m : Machine C) : Prop where
  running : m.Running
  not_closed : m.endpoint.state ≠ .closed

instance : Decidable m.Live :=
  decidable_of_iff (m.Running ∧ m.endpoint.state ≠ .closed)
    ⟨fun h => ⟨h.1, h.2⟩, fun h => ⟨h.1, h.2⟩⟩

theorem ok_of_settle {phase : Phase} {x : Outcome C (Endpoint C)} (h : (settle phase x).Running) :
    ∃ e, x = .ok e := by
  cases x with
  | ok e => exact ⟨e, rfl⟩
  | error r => simp [settle, Running] at h

theorem ok_of_resume {x : Outcome C (Bool × Endpoint C)} (h : (resume x).Running) :
    ∃ e, x = .ok (false, e) := by
  cases x with
  | ok r =>
    obtain ⟨close, e⟩ := r
    cases close with
    | false => exact ⟨e, rfl⟩
    | true => simp [resume, Running] at h
  | error r => simp [resume, Running] at h

variable [CongestionControl C]

theorem closed_of_next (h : m.next l = some m') (hc : m.endpoint.state = .closed) :
    m'.endpoint.state = .closed := by
  rcases acts_of_next h with ⟨t, -, ha⟩ | ⟨id, now, -, rfl⟩ | ⟨id, -, rfl⟩
  · refine ha.closed ?_
    cases l with
    | followUp t =>
      obtain ⟨data, held, hd⟩ := deliver_eq (t := t) (e := m.endpoint)
      change (m.endpoint.deliver t).2.state = .closed
      rw [hd]
      exact hc
    | _ => exact hc
  · exact hc
  · exact hc

theorem Live.of_next (hl : m'.Live) (h : m.next l = some m') (hb : ∀ t, l ≠ .begin t) : m.Live where
  running := (running_of_next h hl.running).resolve_right fun ⟨t, ht⟩ => hb t ht
  not_closed := fun hc => hl.not_closed (closed_of_next h hc)

/-- Apart from items of the stream, follow-ups and close commands, a step changes nothing of what
endpoints agree on. -/
theorem agree_of_next (h : m.next l = some m') (ho : m.endpoint.state.stage ≠ .opening)
    (hitem : ∀ t f a, l = .frame t f a → f.item? = none) (hf : ∀ t, l ≠ .followUp t)
    (hc : ∀ t, l ≠ .command t .close) (hl : m'.endpoint.state ≠ .closed) :
    Agree m'.endpoint m.endpoint := by
  rcases acts_of_next h with ⟨t, -, ha⟩ | ⟨id, now, -, rfl⟩ | ⟨id, -, rfl⟩
  · have hopen : m.opening l = m.endpoint := by
      cases l with
      | followUp t => exact absurd rfl (hf t)
      | _ => rfl
    rw [hopen] at ha
    exact ha.agree ho (hitem t) (hf t) (hc t) hl
  · exact ⟨rfl, rfl, rfl, rfl, rfl⟩
  · exact ⟨rfl, rfl, rfl, rfl, rfl⟩

/-- What a step of an endpoint that is not opening any more changes of what endpoints agree on
depends on nothing else. -/
theorem agree_step (h : Agree m.endpoint w.endpoint) (ho : m.endpoint.state.stage ≠ .opening)
    (hm : m.next l = some m') (hw : w.next l = some w') (hml : m'.Live) (hwl : w'.Live) :
    Agree m'.endpoint w'.endpoint := by
  have how : w.endpoint.state.stage ≠ .opening := by
    rw [← h.stage_eq]
    exact ho
  have hkept (hitem : ∀ t f a, l = .frame t f a → f.item? = none) (hf : ∀ t, l ≠ .followUp t)
      (hc : ∀ t, l ≠ .command t .close) : Agree m'.endpoint w'.endpoint :=
    (agree_of_next hm ho hitem hf hc hml.not_closed).trans
      (h.trans (agree_of_next hw how hitem hf hc hwl.not_closed).symm)
  cases l with
  | frame t f a =>
    by_cases hi : f.item? = none
    · exact hkept (by rintro t f a ⟨⟩; exact hi) (by simp) (by simp)
    · simp only [next, Option.ite_none_right_eq_some, Option.some.injEq] at hm hw
      obtain ⟨-, rfl⟩ := hm
      obtain ⟨-, rfl⟩ := hw
      obtain ⟨e, he⟩ := ok_of_settle hml.running
      obtain ⟨e', he'⟩ := ok_of_settle hwl.running
      rw [he] at hml ⊢
      rw [he'] at hwl ⊢
      exact h.routeFrame ho hi he he' hml.not_closed hwl.not_closed
  | command t c =>
    cases c with
    | close =>
      simp only [next, Option.ite_none_right_eq_some, Option.some.injEq] at hm hw
      obtain ⟨-, rfl⟩ := hm
      obtain ⟨-, rfl⟩ := hw
      have hmn := hml.not_closed
      have hwn := hwl.not_closed
      rw [settle_endpoint] at hmn hwn
      rw [settle_endpoint, settle_endpoint]
      have hgrace : Agree m.endpoint.beginGracefulShutdown w.endpoint.beginGracefulShutdown :=
        ⟨ConnectionState.stage_gracefulShutdown h.stage_eq, h.recvBuffer_eq, h.toStream_eq,
          h.txToStream_eq, h.finPendingEof_eq⟩
      exact (agree_close ho hmn).trans (hgrace.trans (agree_close how hwn).symm)
    | _ => exact hkept (by simp) (by simp) (by simp)
  | followUp t =>
    simp only [next, Option.ite_none_right_eq_some, Option.some.injEq] at hm hw
    obtain ⟨-, rfl⟩ := hm
    obtain ⟨-, rfl⟩ := hw
    obtain ⟨e, he⟩ := ok_of_resume hml.running
    obtain ⟨e', he'⟩ := ok_of_resume hwl.running
    rw [he] at hml ⊢
    rw [he'] at hwl ⊢
    obtain ⟨hseen, hd⟩ := h.deliver t
    have hod : (m.endpoint.deliver t).2.state.stage ≠ .opening := by
      obtain ⟨data, held, heq⟩ := deliver_eq (t := t) (e := m.endpoint)
      rw [heq]
      exact ho
    have hfin := hd.finTransition hod (m.endpoint.deliver t).1
    have hl := (agree_of_followUp he hml.not_closed).2
    have hr := (agree_of_followUp he' hwl.not_closed).2
    rw [← hseen] at hr
    exact hl.trans (hfin.sendEof.trans hr.symm)
  | _ => exact hkept (by simp) (by simp) (by simp)

theorem stage_ne_of_next (h : m.next l = some m') (ho : m.endpoint.state.stage ≠ .opening) :
    m'.endpoint.state.stage ≠ .opening := by
  have hact {t : Tick} {e₁ e₂ : Endpoint C} (h₁ : e₁.state.stage ≠ .opening)
      (ha : Act t l e₁ e₂) : e₂.state.stage ≠ .opening := by
    intro hs
    cases he : e₂.state with
    | connecting => exact h₁ (by rw [ha.connecting he]; rfl)
    | synReceived => exact h₁ (by rw [ha.synReceived he]; rfl)
    | _ =>
      rw [he] at hs
      cases hs
  rcases acts_of_next h with ⟨t, -, ha⟩ | ⟨id, now, -, rfl⟩ | ⟨id, -, rfl⟩
  · refine ha.preserves (P := fun e => e.state.stage ≠ .opening) (fun _ _ => hact) ?_
    cases l with
    | followUp t =>
      obtain ⟨data, held, hd⟩ := deliver_eq (t := t) (e := m.endpoint)
      change (m.endpoint.deliver t).2.state.stage ≠ .opening
      rw [hd]
      exact ho
    | _ => exact ho
  · exact ho
  · exact ho

theorem phase_eq_of_next (hl : ∀ t, l ≠ .begin t) (ht : l.tick?.isSome = true)
    (hm : m.next l = some m') (hw : w.next l = some w') (h₁ : m'.Running) (h₂ : w'.Running) :
    m'.phase = w'.phase := by
  cases l with
  | begin t => exact absurd rfl (hl t)
  | frame t f a | command t c | poll t =>
    simp only [next, Option.ite_none_right_eq_some, Option.some.injEq] at hm hw
    obtain ⟨-, rfl⟩ := hm
    obtain ⟨-, rfl⟩ := hw
    obtain ⟨e, he⟩ := ok_of_settle h₁
    obtain ⟨e', he'⟩ := ok_of_settle h₂
    rw [he, he']
    rfl
  | followUp t =>
    simp only [next, Option.ite_none_right_eq_some, Option.some.injEq] at hm hw
    obtain ⟨-, rfl⟩ := hm
    obtain ⟨-, rfl⟩ := hw
    obtain ⟨e, he⟩ := ok_of_resume h₁
    obtain ⟨e', he'⟩ := ok_of_resume h₂
    rw [he, he']
    rfl
  | fire id now => cases ht
  | dropReplaced id => cases ht

/-- Two runs take the same frames, commands, polls and follow-ups. Their timer tasks may go on by
themselves, and one of the runs receives additional PING frames from other addresses, with a
follow-up of their own where the other run waits. -/
def Apart (p : Machine C × Machine C) : Joint Label → Prop
  | .both (.begin _) => False
  | .both _ => True
  | .left (.fire ..) | .left (.dropReplaced _) => True
  | .right (.fire ..) | .right (.dropReplaced _) => True
  | .right (.frame _ (.ping _) a) => a ≠ p.2.endpoint.remoteAddr
  | .right (.followUp _) => p.1.phase = .waiting
  | _ => False

instance (p : Machine C × Machine C) (i : Joint Label) : Decidable (Apart p i) := by
  unfold Apart
  split <;> infer_instance

/-- Two runs of one established endpoint, side by side. -/
def sideBySide (C : Type) [CongestionControl C] :
    TransitionSystem (Machine C × Machine C) (Joint Label) :=
  .ofNext (fun p => p.1 = p.2 ∧ (system C).Reachable p.1 ∧ p.1.endpoint.state = .established)
    (jointly fun m l => m.next l)

/-- The pairs of runs that differ only in additional PINGs. -/
def pairs (C : Type) [CongestionControl C] :
    TransitionSystem (Machine C × Machine C) (Joint Label) :=
  (sideBySide C).restrict fun p i _ => Apart p i

theorem reachable_of_sideBySide (h : (sideBySide C).Reachable p) : (system C).Reachable p.1 :=
  (h.of_jointly fun _ hp => ⟨hp.2.1, hp.1 ▸ hp.2.1⟩).1

/-- What holds of the two runs as long as both go on. -/
structure Alike (p : Machine C × Machine C) : Prop where
  agree : Agree p.1.endpoint p.2.endpoint
  stage_ne : p.1.endpoint.state.stage ≠ .opening
  phase : p.1.phase = p.2.phase ∨ p.1.phase = .waiting ∧ p.2.phase = .frames

theorem Alike.init (h : p.1 = p.2 ∧ (system C).Reachable p.1 ∧ p.1.endpoint.state = .established) :
    Alike p where
  agree := by
    rw [h.1]
    exact Agree.refl _
  stage_ne := by
    rw [h.2.2]
    decide
  phase := Or.inl (by rw [h.1])

omit [CongestionControl C] in
theorem Alike.timers_left (h : Alike p) (f : TimerManager → TimerManager) :
    Alike (p.1.mapTimers f, p.2) :=
  ⟨⟨h.agree.stage_eq, h.agree.recvBuffer_eq, h.agree.toStream_eq, h.agree.txToStream_eq,
    h.agree.finPendingEof_eq⟩, h.stage_ne, h.phase⟩

omit [CongestionControl C] in
theorem Alike.timers_right (h : Alike p) (f : TimerManager → TimerManager) :
    Alike (p.1, p.2.mapTimers f) :=
  ⟨⟨h.agree.stage_eq, h.agree.recvBuffer_eq, h.agree.toStream_eq, h.agree.txToStream_eq,
    h.agree.finPendingEof_eq⟩, h.stage_ne, h.phase⟩

theorem Alike.both {p' : Machine C × Machine C} (h : Alike p) (hl : ∀ t, l ≠ .begin t)
    (hm : p.1.next l = some p'.1) (hw : p.2.next l = some p'.2) (h₁ : p'.1.Live)
    (h₂ : p'.2.Live) : Alike p' := by
  cases ht : l.tick? with
  | some t =>
    have hagree := agree_step h.agree h.stage_ne hm hw h₁ h₂
    refine ⟨hagree, stage_ne_of_next hm h.stage_ne, Or.inl ?_⟩
    exact phase_eq_of_next hl (by rw [ht]; rfl) hm hw h₁.running h₂.running
  | none =>
    obtain ⟨m, w⟩ := p'
    cases l with
    | fire id now =>
      simp only [next, Option.some.injEq] at hm hw
      rw [← hm, ← hw]
      exact (h.timers_left (·.fire id now)).timers_right (·.fire id now)
    | dropReplaced id =>
      simp only [next, Option.some.injEq] at hm hw
      rw [← hm, ← hw]
      exact (h.timers_left (·.dropReplaced id)).timers_right (·.dropReplaced id)
    | _ => cases ht

theorem Alike.ping {header : ShortHeader} {a : SocketAddr} (h : Alike p)
    (hw : p.2.next (.frame t (.ping header) a) = some w') (h₂ : w'.Live) : Alike (p.1, w') := by
  have how : p.2.endpoint.state.stage ≠ .opening := by
    rw [← h.agree.stage_eq]
    exact h.stage_ne
  have hk : Agree w'.endpoint p.2.endpoint :=
    agree_of_next hw how (by rintro t f a ⟨⟩; rfl) (by simp) (by simp) h₂.not_closed
  refine ⟨h.agree.trans hk.symm, h.stage_ne, ?_⟩
  simp only [next, Option.ite_none_right_eq_some, Option.some.injEq] at hw
  obtain ⟨hp, rfl⟩ := hw
  obtain ⟨e, he⟩ := ok_of_settle h₂.running
  have hph := h.phase
  rw [he]
  dsimp only [settle]
  rcases hp with hp | hp <;> rw [hp] at hph
  · exact Or.inr ⟨hph.resolve_right (by simp), rfl⟩
  · exact hph.imp id fun h => ⟨h.1, rfl⟩

theorem Alike.followUp (h : Alike p) (hr : (system C).Reachable p.1) (h₁ : p.1.phase = .waiting)
    (hw : p.2.next (.followUp t) = some w') (h₂ : w'.Live) : Alike (p.1, w') := by
  have hset : p.2.endpoint.Settled := (settled hr h₁).of_agree h.agree.symm
  simp only [next, Option.ite_none_right_eq_some, Option.some.injEq] at hw
  obtain ⟨-, rfl⟩ := hw
  obtain ⟨e, he⟩ := ok_of_resume h₂.running
  rw [he] at h₂ ⊢
  have ha := (agree_of_followUp he h₂.not_closed).2
  have hfin : p.2.endpoint.finTransition false = p.2.endpoint := rfl
  rw [hset.deliver, hfin, hset.sendEof] at ha
  exact ⟨h.agree.trans ha.symm, h.stage_ne, Or.inl h₁⟩

theorem Alike.left {p' : Machine C × Machine C} (h : Alike p) (ha : Apart p (.left l))
    (hm : p.1.next l = some p'.1) (hw : p'.2 = p.2) : Alike p' := by
  obtain ⟨m, w⟩ := p'
  cases hw
  cases l with
  | fire id now =>
    simp only [next, Option.some.injEq] at hm
    cases hm
    exact h.timers_left _
  | dropReplaced id =>
    simp only [next, Option.some.injEq] at hm
    cases hm
    exact h.timers_left _
  | _ => exact ha.elim

theorem Alike.right {p' : Machine C × Machine C} (h : Alike p) (hr : (system C).Reachable p.1)
    (ha : Apart p (.right l)) (hm : p'.1 = p.1) (hw : p.2.next l = some p'.2) (h₂ : p'.2.Live) :
    Alike p' := by
  obtain ⟨m, w⟩ := p'
  cases hm
  cases l with
  | fire id now =>
    simp only [next, Option.some.injEq] at hw
    cases hw
    exact h.timers_right _
  | dropReplaced id =>
    simp only [next, Option.some.injEq] at hw
    cases hw
    exact h.timers_right _
  | frame t f a =>
    cases f with
    | ping header => exact h.ping hw h₂
    | _ => exact ha.elim
  | followUp t => exact h.followUp hr ha hw h₂
  | _ => exact ha.elim

theorem alike (h : (pairs C).Reachable p) (h₁ : p.1.Live) (h₂ : p.2.Live) : Alike p := by
  have hinv : (pairs C).Invariant fun p => p.1.Live → p.2.Live → Alike p := by
    constructor
    · intro p hp _ _
      exact Alike.init hp
    · rintro p i p' hr hp ⟨hn, ha⟩ h₁ h₂
      cases i with
      | both l =>
        obtain ⟨hm, hw⟩ := jointly_both.mp hn
        have hl : ∀ t, l ≠ .begin t := by
          rintro t rfl
          exact ha
        exact (hp (h₁.of_next hm hl) (h₂.of_next hw hl)).both hl hm hw h₁ h₂
      | left l =>
        obtain ⟨hm, hw⟩ := jointly_left.mp hn
        have hl : ∀ t, l ≠ .begin t := by
          rintro t rfl
          exact ha
        rw [hw] at h₂
        exact (hp (h₁.of_next hm hl) h₂).left ha hm hw
      | right l =>
        obtain ⟨hm, hw⟩ := jointly_right.mp hn
        have hl : ∀ t, l ≠ .begin t := by
          rintro t rfl
          exact ha
        rw [hm] at h₁
        exact (hp h₁ (h₂.of_next hw hl)).right (reachable_of_sideBySide hr.of_restrict) ha hm hw h₂
  exact hinv.holds h h₁ h₂

end Machine

end Kestrel
