import Kestrel.Endpoint.Numbering

/-! # Closing

Which steps close a connection gracefully, and what they discard. A follow-up closes only in the
closing-wait state: in the closing state a FIN is always in flight after the endpoint has sent
what it can.
-/

namespace Kestrel

namespace Endpoint

variable {C : Type} {t : Tick} {l : Label} {e e' : Endpoint C}

/-- Before the connection is established nothing was acknowledged and no FIN was numbered. -/
structure Fresh (e : Endpoint C) : Prop where
  acks_eq : e.history.acks = []
  no_fin : ∀ b w, Numbered.fin b w ∉ e.history.numbered

theorem hasFinInFlight_createFin (h : e.state = .closing) :
    (e.createFin t).2.reliability.hasFinInFlight = true := by
  unfold createFin
  split
  · exact RetransmissionManager.hasFinInFlight_addInFlightPacket _ _
  · rename_i hn
    rw [not_and, Bool.not_eq_false] at hn
    exact hn h

theorem isInFlightEmpty_eq_false (h : e.reliability.hasFinInFlight = true) :
    e.reliability.isInFlightEmpty = false := by
  rw [Bool.eq_false_iff]
  intro he
  obtain ⟨q, i, hk, -⟩ := RetransmissionManager.hasFinInFlight_iff.mp h
  exact RetransmissionManager.isAllInFlightEmpty_iff.mp he q i hk

variable [CongestionControl C]

theorem Act.connecting (h : Act t l e e') (hc : e'.state = .connecting) :
    e.state = .connecting := by
  cases h with
  | challenge a n hs hl => cases hc
  | establish header a hl hs => exact hs
  | accept data hl hs => cases hc
  | pathValidated header challenge a n hl hs => cases hc
  | validationTimeout hs => cases hc
  | finArrived header a hl hr =>
    cases hs : e.state <;> simp [arrival, hs] at hc ⊢
  | finReached hl hr =>
    cases hs : e.state <;> simp [consumption, hs] at hc ⊢
  | shutdown hl =>
    cases hs : e.state <;>
      simp [beginGracefulShutdown, ConnectionState.gracefulShutdown, ConnectionState.clone, hs]
        at hc ⊢
  | packetize chunks b lead bs hs hp hlead hb =>
    rw [← hc]
    exact (createFin_state (t := t) (e := e.cut t chunks b)).symm
  | sendEof hl =>
    unfold Endpoint.sendEof at hc
    split at hc <;> exact hc
  | forceClose hl => cases hc
  | close hs => cases hc
  | _ => exact hc

theorem Act.fresh (h : Act t l e e') (hf : e.state = .connecting → e.Fresh)
    (hc : e'.state = .connecting) : e'.Fresh := by
  have hcon := h.connecting hc
  have hfresh := hf hcon
  cases h with
  | processAck header payload a r cc hl hs => exact absurd hcon hs.1
  | packetize chunks b lead bs hs hp hlead hb =>
    have hne : (e.cut t chunks b).state ≠ .closing := by
      change e.state ≠ .closing
      rw [hcon]
      decide
    rw [createFin_of_not_closing hne]
    refine ⟨hfresh.acks_eq, fun b w hw => ?_⟩
    rcases List.mem_append.mp hw with hw | hw
    · exact hfresh.no_fin b w hw
    · obtain ⟨p, -, hp⟩ := List.mem_map.mp hw
      cases hp
  | challenge a n hs hl => cases hc
  | sendEof hl =>
    unfold Endpoint.sendEof
    split <;> exact ⟨hfresh.acks_eq, hfresh.no_fin⟩
  | _ => exact ⟨hfresh.acks_eq, hfresh.no_fin⟩

theorem Act.not_closed (h : Act t l e e') (hp : l ≠ .poll t) (hf : l ≠ .followUp t)
    (hc : l ≠ .command t .close) (hs : e.state ≠ .closed) : e'.state ≠ .closed := by
  cases h with
  | challenge | establish | accept | pathValidated | validationTimeout => simp [emit]
  | finArrived header a hl hr =>
    cases hst : e.state <;> simp [arrival, hst] at hs ⊢
  | finReached hl hr => exact absurd hl hf
  | shutdown hl => exact absurd hl hc
  | packetize chunks b lead bs _ hp hlead hb =>
    change ((e.cut t chunks b).createFin t).2.state ≠ .closed
    rw [createFin_state]
    exact hs
  | sendEof hl => exact absurd hl hf
  | forceClose hl => exact absurd hl hp
  | close hcl =>
    rcases hcl with hcl | ⟨hcl, -⟩ | ⟨hcl, -⟩
    · exact absurd hcl hs
    · exact absurd hcl hc
    · exact absurd hcl hf
  | _ => exact hs

@[simp] theorem packetizeAndSend_state :
    (Outcome.last (e.packetizeAndSend t)).state = e.state := by
  obtain ⟨chunks, b, bs, -, -, he⟩ := packetizeAndSend_eq (t := t) (e := e)
  rw [he, last_sending]
  exact createFin_state

omit [CongestionControl C] in
theorem state_of_handleTimeoutEvent {event : TimeoutEvent}
    (h : e.handleTimeoutEvent event = .ok e') (hc : e'.state = .closed) : e.state = .closed := by
  cases event with
  | idleTimeout | connectionTimeout =>
    rw [handleTimeoutEvent, transitionTo_eq, if_pos (by cases e.state <;> rfl)] at h
    cases h
  | retransmissionTimeout =>
    cases h
    exact hc
  | pathValidationTimeout =>
    rw [handleTimeoutEvent, handlePathValidationTimeout_eq] at h
    split at h <;> cases h
    · cases hc
    · exact hc

omit [CongestionControl C] in
theorem state_of_handleTimeoutEvents {events : List TimeoutEvent}
    (h : events.foldlM (fun e event => e.handleTimeoutEvent event) e = .ok e')
    (hc : e'.state = .closed) : e.state = .closed := by
  induction events generalizing e with
  | nil =>
    cases h
    exact hc
  | cons event events ih =>
    rw [List.foldlM_cons] at h
    cases he : e.handleTimeoutEvent event with
    | error r =>
      rw [he] at h
      cases h
    | ok e₁ =>
      rw [he] at h
      exact state_of_handleTimeoutEvent he (ih h)

/-- A poll that does not fail closes nothing. -/
theorem state_of_checkAllTimeouts (h : e.checkAllTimeouts t = .ok e') (hc : e'.state = .closed) :
    e.state = .closed := by
  have hfold {e₀ : Endpoint C} {events : List TimeoutEvent} {frames : List Frame}
      (h : (events.foldlM (fun e event => e.handleTimeoutEvent event) e₀ >>= fun e =>
        e.sendFrames t frames) = .ok e') : e₀.state = .closed := by
    cases he : events.foldlM (fun e event => e.handleTimeoutEvent event) e₀ with
    | error r =>
      rw [he] at h
      cases h
    | ok e₁ =>
      rw [he] at h
      have hs : e₁.sendFrames t frames = .ok e' := h
      rw [sendFrames_eq] at hs
      rw [eq_of_sending_eq_ok hs] at hc
      exact state_of_handleTimeoutEvents he hc
  obtain ⟨h, -⟩ := checkAllTimeouts_eq_ok.mp h
  unfold handleTimeouts at h
  dsimp only at h
  split at h
  · exact (hfold h :)
  · exact (hfold h :)

/-- A close command closes the connection only before it is established and with nothing to
send. -/
theorem close_closed (h : (Outcome.last (e.close t)).state = .closed) (hs : e.state ≠ .closed) :
    e.state = .connecting ∧ e.reliability.isSendBufferEmpty = true ∧
      e.close t = .ok (release { e with state := .closed }) := by
  have hgrace {e₀ : Endpoint C} (h₀ : e₀.state ≠ .closed) :
      e₀.shutdownGracefully.state ≠ .closed := by
    unfold shutdownGracefully beginGracefulShutdown
    cases hst : e₀.state <;>
      simp [ConnectionState.gracefulShutdown, ConnectionState.clone, hst] at h₀ ⊢
  have hopen (hsh : e.shutdown.state ≠ .closed) : False := by
    rw [close, if_neg hsh, packetizeAndSend_state] at h
    exact hsh h
  rcases shutdown_cases (e := e) with ⟨-, he⟩ | ⟨-, -, he⟩ | ⟨hst, hb, he⟩
  · refine (hopen ?_).elim
    rw [he]
    exact hgrace hs
  · refine (hopen ?_).elim
    rw [he]
    exact hgrace (by exact hs)
  · refine ⟨hst, hb, ?_⟩
    rw [close, he]
    rfl

omit [CongestionControl C] in
/-- The end of a follow-up closes the connection only when it waits for its last
acknowledgments and nothing is in flight. -/
theorem shouldClose_closed (h : e.sendEof.shouldClose.2.state = .closed) (hs : e.state ≠ .closed) :
    (e.state = .closing ∨ e.state = .closingWait) ∧ e.reliability.isInFlightEmpty = true ∧
      ∃ τ held, e.sendEof.shouldClose.2 =
        release { e with state := .closed, timing := τ, txToStream := held } := by
  have heof : ∃ τ held, e.sendEof = { e with timing := τ, txToStream := held } := by
    unfold sendEof
    split
    · exact ⟨_, _, rfl⟩
    · exact ⟨e.timing, e.txToStream, rfl⟩
  obtain ⟨τ, held, heof⟩ := heof
  rw [heof] at h ⊢
  unfold shouldClose at h ⊢
  split at h
  · rename_i hc
    refine ⟨hc.1, hc.2, τ, held, ?_⟩
    rw [if_pos hc, transitionTo_eq, if_pos (by cases e.state <;> rfl)]
  · exact absurd h hs

theorem hasFinInFlight_packetizeAndSend (h : e.state = .closing) :
    (Outcome.last (e.packetizeAndSend t)).reliability.hasFinInFlight = true := by
  obtain ⟨chunks, b, bs, -, -, he⟩ := packetizeAndSend_eq (t := t) (e := e)
  rw [he, last_sending]
  exact hasFinInFlight_createFin (e := e.cut t chunks b) h

/-- The rest of a follow-up closes the connection only in the closing-wait state. -/
theorem rest_closed
    (h : (Machine.resume (e.packetizeIfOpen t >>= fun e => .ok e.sendEof.shouldClose)).endpoint.state
      = .closed) (hs : e.state ≠ .closed) :
    e.state = .closingWait ∧ e.reliability.isInFlightEmpty = true ∧ ∃ τ held,
      (Machine.resume (e.packetizeIfOpen t >>= fun e => .ok e.sendEof.shouldClose)).endpoint =
        release { e with state := .closed, timing := τ, txToStream := held } := by
  have hopen (hw : e.state ≠ .closingWait) (ho : e.packetizeIfOpen t = e.packetizeAndSend t) :
      False := by
    have hstate := packetizeAndSend_state (t := t) (e := e)
    have hfin := hasFinInFlight_packetizeAndSend (t := t) (e := e)
    rw [ho] at h
    cases hx : e.packetizeAndSend t with
    | error r =>
      rw [hx] at h hstate
      exact hs (hstate.symm.trans h)
    | ok e₂ =>
      rw [hx] at h hstate hfin
      have hstate : e₂.state = e.state := hstate
      obtain ⟨hc, hempty, -⟩ := shouldClose_closed h (fun hc => hs (hstate ▸ hc))
      have hclosing : e.state = .closing :=
        hc.elim (fun hc => hstate ▸ hc) fun hc => absurd (hstate ▸ hc) hw
      have hnot : e₂.reliability.isInFlightEmpty = false :=
        isInFlightEmpty_eq_false (hfin hclosing)
      rw [hempty] at hnot
      cases hnot
  cases hst : e.state with
  | established | finWait | closing =>
    exact (hopen (by rw [hst]; simp) (by unfold packetizeIfOpen; rw [hst])).elim
  | connecting | synReceived | validatingPath | closingWait | closed =>
    have hnot : e.packetizeIfOpen t = .ok e := by
      unfold packetizeIfOpen
      rw [hst]
    rw [hnot] at h ⊢
    obtain ⟨hc, hempty, hres⟩ := shouldClose_closed h hs
    rw [hst] at hc
    rcases hc with hc | hc
    · cases hc
    · first
        | cases hc
          exact ⟨rfl, hempty, hres⟩
        | cases hc

theorem followUp_closed (h : (Machine.resume (e.followUp t)).endpoint.state = .closed)
    (hs : e.state ≠ .closed) :
    e.reliability.isInFlightEmpty = true ∧
      (Machine.resume (e.followUp t)).endpoint.reliability.sendBuffer =
        e.reliability.sendBuffer ∧
      (Machine.resume (e.followUp t)).endpoint.history = e.history := by
  obtain ⟨data, held, hd⟩ := deliver_eq (t := t) (e := e)
  have hres : e.followUp t = ((e.deliver t).2.finTransition (e.deliver t).1).packetizeIfOpen t >>=
      fun e => .ok e.sendEof.shouldClose := rfl
  have hne : ((e.deliver t).2.finTransition (e.deliver t).1).state ≠ .closed := by
    rw [finTransition_eq, hd]
    dsimp only
    split
    · cases he : e.state <;> simp [consumption, he] at hs ⊢
    · exact hs
  rw [hres] at h ⊢
  obtain ⟨-, hempty, τ, held', he⟩ := rest_closed h hne
  rw [he]
  rw [finTransition_eq, hd] at hempty ⊢
  exact ⟨hempty, rfl, rfl⟩

omit [CongestionControl C] in
theorem Created.fresh (h : e.Created) : e.Fresh := by
  cases h with
  | client config a cid cc data t =>
    cases data <;> exact ⟨rfl, by simp [newClient, newIn, writeToStream]⟩
  | server config a cid peer cc t => exact ⟨rfl, by simp [newServer, newIn]⟩

/-- The send buffer is empty and every PUSH was acknowledged. -/
def NothingDiscarded (e : Endpoint C) : Prop :=
  e.reliability.sendBuffer.bytes = [] ∧
    ∀ q b, e.history.numbered[q]? = some (.push b) → e.Acked q

/-- What has to be gone before the connection is closed: for a close command whatever is in
flight, for a follow-up whatever waits in the send buffer. -/
def NothingLeft (e : Endpoint C) : Label → Prop
  | .command _ _ => e.reliability.isInFlightEmpty = true
  | _ => e.reliability.sendBuffer.bytes = []

end Endpoint

namespace Machine

open Endpoint

variable {C : Type} [CongestionControl C] {m m' : Machine C} {l : Label}

/-- The step closes the connection, and not with an error. -/
structure GracefulClose (m m' : Machine C) : Prop where
  before : m.endpoint.state ≠ .closed
  after : m'.endpoint.state = .closed
  no_error : ∀ err, m'.phase ≠ .failed err

theorem fresh (h : (system C).Reachable m) (hc : m.endpoint.state = .connecting) :
    m.endpoint.Fresh := by
  have hinv : (system C).Invariant fun m => m.endpoint.state = .connecting → m.endpoint.Fresh :=
    invariant (P := fun e => e.state = .connecting → e.Fresh)
      (fun e he _ => he.fresh)
      (fun t l e e' hf ha => ha.fresh hf)
      (fun t e hf hc => by
        obtain ⟨_, _, hd⟩ := deliver_eq (t := t) (e := e)
        rw [hd] at hc ⊢
        exact ⟨(hf hc).acks_eq, (hf hc).no_fin⟩)
      (fun e f hf hc => ⟨(hf hc).acks_eq, (hf hc).no_fin⟩)
  exact hinv.holds h hc

/-- Only a close command and a follow-up close a connection gracefully. -/
theorem GracefulClose.label (hg : GracefulClose m m') (h : m.next l = some m') :
    (∃ t, l = .command t .close ∧ m'.endpoint = Outcome.last (m.endpoint.close t)) ∨
      ∃ t, l = .followUp t ∧ m'.endpoint = (resume (m.endpoint.followUp t)).endpoint := by
  have hacts := acts_of_next h
  have hopen (hn : ∀ t, l ≠ .poll t ∧ l ≠ .followUp t ∧ l ≠ .command t .close) : False := by
    rcases hacts with ⟨t, -, ha⟩ | ⟨id, now, -, rfl⟩ | ⟨id, -, rfl⟩
    · have hs : (m.opening l).state ≠ .closed := by
        cases l with
        | followUp t => exact absurd rfl (hn t).2.1
        | _ => exact hg.before
      refine ha.preserves (P := fun e => e.state ≠ .closed) (fun e₁ e₂ hs ha => ?_) hs hg.after
      exact ha.not_closed (hn t).1 (hn t).2.1 (hn t).2.2 hs
    · exact hg.before hg.after
    · exact hg.before hg.after
  cases l with
  | followUp t =>
    right
    simp only [next, Option.ite_none_right_eq_some, Option.some.injEq] at h
    exact ⟨t, rfl, by rw [← h.2]⟩
  | poll t =>
    simp only [next, Option.ite_none_right_eq_some, Option.some.injEq] at h
    obtain ⟨-, rfl⟩ := h
    cases hx : m.endpoint.checkAllTimeouts t with
    | error r =>
      rw [hx] at hg
      exact absurd rfl (hg.no_error r.1)
    | ok e' =>
      rw [hx] at hg
      exact absurd (state_of_checkAllTimeouts hx hg.after) hg.before
  | command t c =>
    cases c with
    | close =>
      left
      simp only [next, Option.ite_none_right_eq_some, Option.some.injEq] at h
      exact ⟨t, rfl, by rw [← h.2, settle_endpoint]; rfl⟩
    | _ => exact (hopen (by simp)).elim
  | _ => exact (hopen (by simp)).elim

/-- A graceful close discards nothing exactly when nothing was left of what it does not wait
for. -/
theorem graceful_close_iff (h : (system C).Reachable m)
    (hlen : m.endpoint.history.numbered.length < u32Size) (hn : m.next l = some m')
    (hg : GracefulClose m m') : NothingDiscarded m'.endpoint ↔ NothingLeft m.endpoint l := by
  have hnum := numbering h hlen
  have hacked (he : m.endpoint.reliability.isInFlightEmpty = true) {q : ℕ} {b : Bytes}
      (hq : m.endpoint.history.numbered[q]? = some (.push b)) : m.endpoint.Acked q := by
    rcases hnum.unacked q b hq with hk | ha | hc
    · exact absurd (Or.inl hk) (RetransmissionManager.isAllInFlightEmpty_iff.mp he q _)
    · exact ha
    · exact absurd hc hg.before
  rcases hg.label hn with ⟨t, rfl, he⟩ | ⟨t, rfl, he⟩
  · obtain ⟨hcon, hempty, hclose⟩ := close_closed (he ▸ hg.after) hg.before
    rw [hclose] at he
    have hb := SendBuffer.bytes_of_isStreamBufferEmpty hempty
    have hfresh := fresh h hcon
    rw [he]
    constructor
    · rintro ⟨-, hall⟩
      refine RetransmissionManager.isAllInFlightEmpty_iff.mpr fun q i hk => ?_
      obtain ⟨p, ⟨x, hx, hp⟩, -⟩ := hnum.kept q i hk
      cases x with
      | push b =>
        obtain ⟨a, ha, -⟩ := hall q b hx
        have ha : a ∈ m.endpoint.history.acks := ha
        rw [hfresh.acks_eq] at ha
        cases ha
      | fin b w => exact hfresh.no_fin b w (List.mem_of_getElem? hx)
      | pathChallenge d => cases hp
    · intro hleft
      exact ⟨hb, fun q b hq => hacked hleft hq⟩
  · obtain ⟨hempty, hbuf, hhist⟩ := followUp_closed (he ▸ hg.after) hg.before
    rw [NothingDiscarded, he, hbuf]
    change _ ↔ m.endpoint.reliability.sendBuffer.bytes = []
    constructor
    · exact fun hall => hall.1
    · intro hb
      refine ⟨hb, fun q b hq => ?_⟩
      rw [hhist] at hq
      obtain ⟨a, ha, hqa⟩ := hacked hempty hq
      exact ⟨a, by rw [hhist]; exact ha, hqa⟩

section Sample

/-- A client with one more byte waiting than its window takes closes, the peer closes too and
acknowledges what it got. -/
def closingRun (data : Bytes) : List Label :=
  [.begin (tick 0),
    .frame (tick 1) (.newSynAck 1 2 1) 80, .followUp (tick 1),
    .command (tick 2) (.sendData data), .followUp (tick 2),
    .command (tick 3) .close, .followUp (tick 3),
    .frame (tick 4) (.newFin 1 0 0 0 256) 80,
    .frame (tick 5) (.newAck 1 2 256 [] 0) 80]

/-- Where a follow-up ends that closed the connection, and the bytes it left unsent. -/
def closes (waiting : Bytes) (m m' : Machine C) : Prop :=
  m.endpoint.state = .closingWait ∧ m'.endpoint.state = .closed ∧ m'.phase = .finished ∧
    m.endpoint.history.numbered.length < u32Size ∧
      m'.endpoint.reliability.sendBuffer.bytes = waiting

instance (waiting : Bytes) : DecidableRel (closes (C := C) waiting) :=
  fun _ _ => inferInstanceAs (Decidable (_ ∧ _))

omit [CongestionControl C] in
theorem closes.gracefulClose {waiting : Bytes} (h : closes waiting m m') : GracefulClose m m' where
  before := by
    rw [h.1]
    decide
  after := h.2.1
  no_error err hf := by
    rw [h.2.2.1] at hf
    cases hf

/-- With one byte the last follow-up of that run closes the connection and nothing is lost. -/
theorem graceful_close_iff_sample : ∃ m m' : Machine Vegas,
    m.endpoint.state = .closingWait ∧ m'.endpoint.state = .closed ∧
      (NothingDiscarded m'.endpoint ↔ NothingLeft m.endpoint (.followUp (tick 5))) := by
  obtain ⟨m, m', hr, hn, hc⟩ := exists_step (closingRun [7]) (.followUp (tick 5)) (closes [])
    tinyClient_created (by decide)
  exact ⟨m, m', hc.1, hc.2.1, graceful_close_iff hr.reachable hc.2.2.2.1 hn hc.gracefulClose⟩

/-- With two bytes it closes the connection with a byte unsent. -/
theorem close_discards_waiting : ∃ m m', (system Vegas).Reachable m ∧
    m.next (.followUp (tick 5)) = some m' ∧ GracefulClose m m' ∧
      ¬ NothingDiscarded m'.endpoint := by
  obtain ⟨m, m', hr, hn, hc⟩ := exists_step (closingRun [7, 8]) (.followUp (tick 5)) (closes [8])
    tinyClient_created (by decide)
  refine ⟨m, m', hr.reachable, hn, hc.gracefulClose, ?_⟩
  rintro ⟨hb, -⟩
  rw [hc.2.2.2.2] at hb
  cases hb

end Sample

end Machine

end Kestrel
