import Kestrel.Endpoint.Closing
import Kestrel.Reliability.Range

/-! # Settled endpoints

A follow-up hands over what can be reassembled and sends what the windows permit. Another one right
after it finds nothing to do.
-/

namespace Kestrel

open Std (ExtTreeMap)

namespace RetransmissionManager

variable {m : RetransmissionManager}

theorem sackInFlightCount_le_addInFlightPacket (f : Frame) (now : Instant) :
    m.sackInFlightCount ≤ (m.addInFlightPacket f now).sackInFlightCount := by
  unfold addInFlightPacket
  split
  · unfold sackInFlightCount SackManager.addInFlightPacket
    dsimp only
    split
    · exact ExtTreeMap.size_le_size_insert
    · exact le_rfl
  · exact le_rfl
  · exact le_rfl

theorem sackInFlightCount_addAll_pushFrames (m : RetransmissionManager) (c : PacketizerContext)
    (counter : ℕ) (chunks : List Bytes) (h : counter + chunks.length < u32Size)
    (hnew : ∀ q, counter ≤ q → m.sackManager.info? q = none) (now : Instant) :
    (m.addAll (pushFrames c counter chunks) now).sackInFlightCount =
      m.sackInFlightCount + chunks.length := by
  induction chunks generalizing m counter with
  | nil => rfl
  | cons chunk chunks ih =>
    rw [List.length_cons] at h
    have hn : nextSeq counter = counter + 1 := Nat.mod_eq_of_lt (by omega)
    have hone : (m.addInFlightPacket (c.frame counter chunk) now).sackInFlightCount =
        m.sackInFlightCount + 1 := by
      have hc : m.sackManager.inFlightPackets.contains counter = false := by
        have hi := hnew counter le_rfl
        rw [SackManager.info?, Option.map_eq_none_iff] at hi
        rw [ExtTreeMap.contains_eq_isSome_getElem?, hi]
        rfl
      rw [PacketizerContext.frame, Frame.newPush, addInFlightPacket,
        Frame.reliabilityModeWithConfig_push]
      unfold sackInFlightCount SackManager.inFlightCount
      simp [SackManager.addInFlightPacket, Frame.sequenceNumber, RetransmissionFrameInfo.fromFrame,
        ExtTreeMap.size_insert, hc]
    have hrest := ih (m.addInFlightPacket (c.frame counter chunk) now) (counter + 1) (by omega)
      fun q hq => by
        rw [PacketizerContext.frame, Frame.newPush, info?_addInFlightPacket_push, if_neg]
        · exact hnew q (by omega)
        · dsimp only
          omega
    rw [pushFrames, hn, addAll, List.foldl_cons]
    rw [addAll] at hrest
    rw [hrest, hone, List.length_cons]
    omega

end RetransmissionManager

namespace Endpoint

variable {C : Type} {t : Tick} {e e' : Endpoint C}

/-- Nothing waits to be reassembled, and the end of the user's stream is not due. -/
structure Settled (e : Endpoint C) : Prop where
  reassembled : e.reliability.recvBuffer.reassemble = (none, false, e.reliability.recvBuffer)
  no_eof : (e.timing.finPendingEof && e.reliability.isRecvBufferEmpty && e.txToStream) = false

theorem Settled.deliver (h : e.Settled) (t : Tick) : e.deliver t = (false, e) := by
  unfold Endpoint.deliver ReliabilityLayer.reassemble
  rw [h.reassembled]
  simp

theorem Settled.sendEof (h : e.Settled) : e.sendEof = e := by
  rw [Endpoint.sendEof, h.no_eof]
  rfl

theorem settled_sendEof (h : e.reliability.recvBuffer.reassemble =
    (none, false, e.reliability.recvBuffer)) : e.sendEof.Settled := by
  unfold Endpoint.sendEof
  split
  · exact ⟨h, rfl⟩
  · rename_i hn
    exact ⟨h, Bool.eq_false_iff.mpr hn⟩

theorem shouldClose_of_not_closed (h : e.shouldClose.2.state ≠ .closed) :
    e.shouldClose = (false, e) := by
  unfold shouldClose at h ⊢
  split
  · rename_i hc
    rw [if_pos hc, transitionTo_eq, if_pos (by cases e.state <;> rfl)] at h
    exact absurd rfl h
  · rename_i hc
    rw [if_neg hc] at h
    dsimp only at h
    rw [decide_eq_false h]

variable [CongestionControl C]

theorem exists_packetized_of_followUp {close : Bool} (h : e.followUp t = .ok (close, e')) :
    ∃ e₂, ((e.deliver t).2.finTransition (e.deliver t).1).packetizeIfOpen t = .ok e₂ ∧
      (close, e') = e₂.sendEof.shouldClose := by
  unfold followUp at h
  dsimp only at h
  generalize packetizeIfOpen t ((e.deliver t).2.finTransition (e.deliver t).1) = x at h
  cases x with
  | error r => cases h
  | ok e₂ =>
    have h : (Except.ok e₂.sendEof.shouldClose : Outcome C (Bool × Endpoint C)) =
      .ok (close, e') := h
    injection h with h
    exact ⟨e₂, rfl, h.symm⟩

theorem received_packetizeIfOpen : (Outcome.last (e.packetizeIfOpen t)).reliability.recvBuffer =
      e.reliability.recvBuffer ∧ (Outcome.last (e.packetizeIfOpen t)).state = e.state := by
  have hsend : (Outcome.last (e.packetizeAndSend t)).reliability.recvBuffer =
      e.reliability.recvBuffer := by
    obtain ⟨chunks, b, bs, hp, hb, he⟩ := packetizeAndSend_eq (t := t) (e := e)
    rw [he, last_sending]
    change ((e.cut t chunks b).createFin t).2.reliability.recvBuffer = _
    unfold createFin
    split <;> rfl
  unfold packetizeIfOpen
  split <;> first | exact ⟨hsend, packetizeAndSend_state⟩ | exact ⟨rfl, rfl⟩

theorem settled_of_followUp {close : Bool} (h : e.followUp t = .ok (close, e')) : e'.Settled := by
  obtain ⟨e₂, hx, he⟩ := exists_packetized_of_followUp h
  have hr := (received_packetizeIfOpen (t := t)
    (e := (e.deliver t).2.finTransition (e.deliver t).1)).1
  have hd : ((e.deliver t).2.finTransition (e.deliver t).1).reliability.recvBuffer =
      e.reliability.recvBuffer.reassemble.2.2 := by
    obtain ⟨data, held, hd⟩ := deliver_eq (t := t) (e := e)
    rw [finTransition_eq, hd]
    rfl
  rw [hx, hd] at hr
  have hs : e₂.sendEof.Settled := by
    apply settled_sendEof
    change e₂.reliability.recvBuffer = _ at hr
    rw [hr]
    exact ReceiveBuffer.reassemble_reassemble
  have he : e' = e₂.sendEof.shouldClose.2 := congrArg Prod.snd he
  rw [he]
  unfold shouldClose
  split
  · rw [transitionTo_eq, if_pos (by cases e₂.sendEof.state <;> rfl)]
    exact ⟨hs.reassembled, Bool.and_false _⟩
  · exact hs

theorem settled_begin (h : e.Settled) : (Outcome.last (e.begin t)).Settled := by
  unfold Endpoint.begin
  split
  · obtain ⟨chunks, b, hp, he⟩ := packetizeStream_eq (t := t) (e := e)
    rw [sendInitialSyn, he]
    dsimp only
    split
    · rw [sendRawFrames_eq, last_sending]
      exact ⟨h.reassembled, h.no_eof⟩
    · exact h
  · exact h

/-- The windows permit no packet more, or nothing waits to be sent. -/
def Exhausted (e : Endpoint C) (t : Tick) : Prop :=
  (e.packetizerContext t).permit = 0 ∨ e.reliability.isSendBufferEmpty = true

/-- Settled, and nothing can be sent or closed. -/
structure Idle (e : Endpoint C) : Prop extends Settled e where
  exhausted : e.state = .established ∨ e.state = .finWait ∨ e.state = .closing →
    ∀ t, e.Exhausted t
  fin_kept : e.state = .closing → e.reliability.hasFinInFlight = true
  in_flight : e.state = .closingWait → e.reliability.isInFlightEmpty = false
  not_closed : e.state ≠ .closed

theorem packetizeStream_of_exhausted (h : e.Exhausted t) : e.packetizeStream t = ([], e) := by
  have hl := packetizeLoop_of_exhausted (c := e.packetizerContext t) h
    e.reliability.sequenceNumberCounter
  unfold packetizerContext at hl
  unfold packetizeStream ReliabilityLayer.packetizeStreamData packetize
  dsimp only
  rw [hl]
  simp [payloadsOf, ReliabilityLayer.trackAll]

theorem packetizeAndSend_of_exhausted (h : e.Exhausted t)
    (hf : e.state = .closing → e.reliability.hasFinInFlight = true) :
    e.packetizeAndSend t = .ok e := by
  have hfin : e.createFin t = ([], e) := by
    rw [createFin, if_neg]
    rintro ⟨hs, hn⟩
    rw [hf hs] at hn
    cases hn
  rw [packetizeAndSend, packetizeStream_of_exhausted h]
  dsimp only
  rw [hfin]
  rfl

theorem Idle.packetizeIfOpen (h : e.Idle) (t : Tick) : e.packetizeIfOpen t = .ok e := by
  unfold Endpoint.packetizeIfOpen
  split <;> rename_i hs
  · exact packetizeAndSend_of_exhausted (h.exhausted (Or.inl hs) t) h.fin_kept
  · exact packetizeAndSend_of_exhausted (h.exhausted (Or.inr (Or.inl hs)) t) h.fin_kept
  · exact packetizeAndSend_of_exhausted (h.exhausted (Or.inr (Or.inr hs)) t) h.fin_kept
  · rfl

omit [CongestionControl C] in
theorem shouldClose_of_open (h : (e.state = .closing ∨ e.state = .closingWait) →
    e.reliability.isInFlightEmpty = false) (hc : e.state ≠ .closed) :
    e.shouldClose = (false, e) := by
  rw [shouldClose, if_neg, decide_eq_false hc]
  rintro ⟨hs, hn⟩
  rw [h hs] at hn
  cases hn

theorem Idle.followUp (h : e.Idle) (t : Tick) : e.followUp t = .ok (false, e) := by
  have hclose : e.shouldClose = (false, e) := by
    refine shouldClose_of_open ?_ h.not_closed
    rintro (hs | hs)
    · exact isInFlightEmpty_eq_false (h.fin_kept hs)
    · exact h.in_flight hs
  have hfin : e.finTransition false = e := rfl
  unfold Endpoint.followUp
  rw [h.deliver]
  dsimp only
  rw [hfin, h.packetizeIfOpen]
  change Except.ok e.sendEof.shouldClose = _
  rw [h.sendEof, hclose]

omit [CongestionControl C] in
/-- Every number in flight was given out, so there are not more packets in flight than numbers. -/
theorem Numbering.sackInFlightCount_le (h : e.Numbering) :
    e.reliability.retransmissionManager.sackInFlightCount ≤ e.history.numbered.length := by
  have hle : e.reliability.retransmissionManager.sackInFlightCount ≤
      (List.range e.history.numbered.length).length := by
    refine SortedMap.size_le_length fun q p hp => ?_
    have hk : e.reliability.retransmissionManager.Keeps q p.frameInfo :=
      Or.inl (by rw [SackManager.info?, hp]; rfl)
    obtain ⟨i, ⟨x, hx, -⟩, -⟩ := h.kept q p.frameInfo hk
    exact List.mem_range.mpr (List.getElem?_eq_some_iff.mp hx).1
  rwa [List.length_range] at hle

omit [CongestionControl C] in
theorem Numbering.info?_eq_none (h : e.Numbering) {q : ℕ}
    (hq : e.reliability.sequenceNumberCounter ≤ q) :
    e.reliability.retransmissionManager.sackManager.info? q = none := by
  rw [Option.eq_none_iff_forall_ne_some]
  intro i hi
  obtain ⟨p, ⟨x, hx, -⟩, -⟩ := h.kept q i (Or.inl hi)
  have hlt := (List.getElem?_eq_some_iff.mp hx).1
  rw [h.counter_eq] at hq
  omega

omit [CongestionControl C] in
theorem sackInFlightCount_le_createFin :
    e.reliability.retransmissionManager.sackInFlightCount ≤
      (e.createFin t).2.reliability.retransmissionManager.sackInFlightCount := by
  unfold createFin
  split
  · exact RetransmissionManager.sackInFlightCount_le_addInFlightPacket _ _
  · exact le_rfl

/-- Packetizing goes on until the windows are full or nothing waits. -/
theorem exhausted_packetizeAndSend (h : e.Numbering)
    (h' : (Outcome.last (e.packetizeAndSend t)).Numbering)
    (hlen : (Outcome.last (e.packetizeAndSend t)).history.numbered.length < u32Size) (t' : Tick) :
    (Outcome.last (e.packetizeAndSend t)).Exhausted t' := by
  obtain ⟨chunks, b, bs, hp, -, he⟩ := packetizeAndSend_eq (t := t) (e := e)
  rw [he, last_sending] at h' hlen ⊢
  have hroom := h'.sackInFlightCount_le
  have hcut : e.history.numbered.length + chunks.length ≤
      (((e.cut t chunks b).createFin t).2.emit t bs).history.numbered.length := by
    have hpre := (createFin_numbered (t := t) (e := e.cut t chunks b)).length_le
    have hnum : (e.cut t chunks b).history.numbered.length =
        e.history.numbered.length + chunks.length := by
      change (e.history.numbered ++ chunks.map Numbered.push).length = _
      rw [List.length_append, List.length_map]
    rw [← hnum]
    exact hpre
  have hcount : e.reliability.retransmissionManager.sackInFlightCount + chunks.length ≤
      ((e.cut t chunks b).createFin t).2.reliability.retransmissionManager.sackInFlightCount := by
    have hadd := RetransmissionManager.sackInFlightCount_addAll_pushFrames
      e.reliability.retransmissionManager (e.packetizerContext t)
      e.reliability.sequenceNumberCounter chunks
      (by rw [h.counter_eq]; omega) (fun q hq => h.info?_eq_none hq) t.now
    rw [← hadd]
    exact sackInFlightCount_le_createFin (t := t) (e := e.cut t chunks b)
  have hwindows : ((e.cut t chunks b).createFin t).2.peerRecvWindow = e.peerRecvWindow ∧
      ((e.cut t chunks b).createFin t).2.reliability.congestionControl =
        e.reliability.congestionControl ∧
      ((e.cut t chunks b).createFin t).2.reliability.sendBuffer = b := by
    unfold createFin
    split <;> exact ⟨rfl, rfl, rfl⟩
  change ((e.cut t chunks b).createFin t).2.Exhausted t'
  change ((e.cut t chunks b).createFin t).2.history.numbered.length < u32Size at hlen
  change _ ≤ ((e.cut t chunks b).createFin t).2.history.numbered.length at hroom
  change _ ≤ ((e.cut t chunks b).createFin t).2.history.numbered.length at hcut
  change ((e.cut t chunks b).createFin t).2.reliability.retransmissionManager.sackInFlightCount ≤ _
    at hroom
  generalize ((e.cut t chunks b).createFin t).2 = w at hlen hroom hcut hcount hwindows ⊢
  obtain ⟨hpeer, hcc, hbuf⟩ := hwindows
  rcases hp.length_le.lt_or_eq with hlt | heq
  · right
    change w.reliability.sendBuffer.streamBuffer.isEmpty = true
    rw [hbuf, hp.drained hlt]
    rfl
  · left
    have hm : e.reliability.retransmissionManager.sackInFlightCount % u32Size =
        e.reliability.retransmissionManager.sackInFlightCount := Nat.mod_eq_of_lt (by omega)
    have hm' : w.reliability.retransmissionManager.sackInFlightCount % u32Size =
        w.reliability.retransmissionManager.sackInFlightCount := Nat.mod_eq_of_lt (by omega)
    rw [PacketizerContext.permit] at heq ⊢
    dsimp only [packetizerContext, ReliabilityLayer.packetizerContext] at heq ⊢
    rw [hm] at heq
    rw [hm', hpeer, hcc]
    omega

omit [CongestionControl C] in
theorem Numbering.opened (h : e.Numbering) (t : Tick) :
    ((e.deliver t).2.finTransition (e.deliver t).1).Numbering := by
  obtain ⟨data, held, hd⟩ := deliver_eq (t := t) (e := e)
  rw [finTransition_eq, hd]
  refine ⟨h.counter_eq, h.kept, h.sent, fun q b hq => ?_⟩
  rcases h.unacked q b hq with hk | ha | hc
  · exact Or.inl hk
  · exact Or.inr (Or.inl ha)
  · right
    right
    dsimp only
    rw [hc]
    split <;> rfl

omit [CongestionControl C] in
theorem shouldClose_eq_false (h : e.shouldClose = (false, e')) :
    e' = e ∧ e.state ≠ .closed ∧
      (e.state = .closing ∨ e.state = .closingWait → e.reliability.isInFlightEmpty = false) := by
  unfold shouldClose at h
  split at h
  · rw [transitionTo_eq, if_pos (by cases e.state <;> rfl)] at h
    cases h
  · rename_i hn
    obtain ⟨hs, rfl⟩ := Prod.mk.inj h
    refine ⟨rfl, of_decide_eq_false hs, fun hc => ?_⟩
    rw [Bool.eq_false_iff]
    exact fun he => hn ⟨hc, he⟩

/-- A follow-up after which the loop goes on leaves an idle endpoint. -/
theorem idle_of_followUp (hn : e.Numbering) (h : e.followUp t = .ok (false, e'))
    (hlen : e'.history.numbered.length < u32Size) : e'.Idle := by
  have hset := settled_of_followUp h
  obtain ⟨e₂, hx, he⟩ := exists_packetized_of_followUp h
  have hn₁ := hn.opened t
  generalize (e.deliver t).2.finTransition (e.deliver t).1 = e₁ at hn₁ hx
  obtain ⟨rfl, hopen, hempty⟩ := shouldClose_eq_false he.symm
  have heof : ∃ τ held, e₂.sendEof = { e₂ with timing := τ, txToStream := held } := by
    unfold Endpoint.sendEof
    split <;> exact ⟨_, _, rfl⟩
  obtain ⟨τ, held, heof⟩ := heof
  rw [heof] at hset hlen hopen hempty ⊢
  have hsent (hs : e₂.state = .established ∨ e₂.state = .finWait ∨ e₂.state = .closing) :
      e₁.state = e₂.state ∧ e₂ = Outcome.last (e₁.packetizeAndSend t) := by
    have hlast : e₂ = Outcome.last (e₁.packetizeIfOpen t) := by
      rw [hx]
      rfl
    have hstate : e₁.state = e₂.state := by
      rw [hlast]
      exact received_packetizeIfOpen.2.symm
    refine ⟨hstate, ?_⟩
    rw [← hstate] at hs
    rw [hlast]
    unfold Endpoint.packetizeIfOpen
    rcases hs with hs | hs | hs <;> rw [hs]
  refine { hset with exhausted := ?_, fin_kept := ?_, in_flight := ?_, not_closed := hopen }
  · intro hs t'
    obtain ⟨hstate, rfl⟩ := hsent hs
    have hacts : Acts t (.followUp t) e₁ (Outcome.last (e₁.packetizeAndSend t)) := by
      apply acts_packetizeAndSend
      change e₁.state = .established ∨ e₁.state = .finWait ∨ e₁.state = .closing
      rw [hstate]
      exact hs
    have hn₂ := hacts.preserves
      (P := fun e => e.history.numbered.length < u32Size → e.Numbering)
      (fun _ _ hn ha hlen =>
        ha.numbering (hn (lt_of_le_of_lt ha.numbered_mono.length_le hlen)) hlen)
      (fun _ => hn₁) hlen
    exact exhausted_packetizeAndSend hn₁ hn₂ hlen t'
  · intro hs
    obtain ⟨hstate, hl⟩ := hsent (Or.inr (Or.inr hs))
    have hk := hasFinInFlight_packetizeAndSend (t := t) (hstate.trans hs)
    rw [← hl] at hk
    exact hk
  · exact fun hs => hempty (Or.inr hs)

omit [CongestionControl C] in
theorem Created.settled (h : e.Created) : e.Settled := by
  cases h with
  | client config a cid cc data t => cases data <;> exact ⟨rfl, rfl⟩
  | server config a cid peer cc t => exact ⟨rfl, rfl⟩

omit [CongestionControl C] in
theorem Created.opening (h : e.Created) : e.state = .connecting ∨ e.state = .synReceived := by
  cases h with
  | client config a cid cc data t => cases data <;> exact Or.inl rfl
  | server config a cid peer cc t => exact Or.inr rfl

theorem Settled.idle (h : e.Settled) (hs : e.state = .connecting ∨ e.state = .synReceived) :
    e.Idle := by
  refine { h with exhausted := ?_, fin_kept := ?_, in_flight := ?_, not_closed := ?_ } <;>
    rcases hs with hs | hs <;> rw [hs] <;> simp

theorem begin_state : (Outcome.last (e.begin t)).state = e.state := by
  unfold Endpoint.begin
  split
  · obtain ⟨chunks, b, hp, he⟩ := packetizeStream_eq (t := t) (e := e)
    rw [sendInitialSyn, he]
    dsimp only
    split
    · rw [sendRawFrames_eq, last_sending]
      rfl
    · rfl
  · rfl

end Endpoint

namespace Machine

open Endpoint

variable {C : Type} [CongestionControl C] {m m' : Machine C} {l : Label}

omit [CongestionControl C] in
theorem ok_of_resume_waiting {x : Outcome C (Bool × Endpoint C)}
    (h : (resume x).phase = .waiting) : ∃ e, x = .ok (false, e) := by
  cases x with
  | error r => simp [resume] at h
  | ok r =>
    obtain ⟨close, e⟩ := r
    cases close with
    | false => exact ⟨e, rfl⟩
    | true => simp [resume] at h

theorem of_next_created (h : m.next l = some m') (hw : m'.phase = .created) :
    m.phase = .created ∧ ∃ f, m' = m.mapTimers f := by
  cases l with
  | begin t | frame t f a | command t c | poll t =>
    simp only [next, Option.ite_none_right_eq_some, Option.some.injEq] at h
    obtain ⟨-, rfl⟩ := h
    unfold settle at hw
    split at hw <;> cases hw
  | followUp t =>
    simp only [next, Option.ite_none_right_eq_some, Option.some.injEq] at h
    obtain ⟨-, rfl⟩ := h
    unfold resume at hw
    split at hw
    · dsimp only at hw
      split at hw <;> cases hw
    · cases hw
  | fire id now | dropReplaced id =>
    simp only [next, Option.some.injEq] at h
    rw [← h] at hw ⊢
    exact ⟨hw, _, rfl⟩

/-- The steps after which a loop waits. -/
theorem of_next_waiting (h : m.next l = some m') (hw : m'.phase = .waiting) :
    (∃ t, m.phase = .created ∧ m'.endpoint = Outcome.last (m.endpoint.begin t)) ∨
      (∃ t, m.endpoint.followUp t = .ok (false, m'.endpoint)) ∨
        m.phase = .waiting ∧ ∃ f, m' = m.mapTimers f := by
  cases l with
  | begin t =>
    simp only [next, Option.ite_none_right_eq_some, Option.some.injEq] at h
    obtain ⟨hp, rfl⟩ := h
    exact Or.inl ⟨t, hp, settle_endpoint _ _⟩
  | frame t f a | command t c | poll t =>
    simp only [next, Option.ite_none_right_eq_some, Option.some.injEq] at h
    obtain ⟨-, rfl⟩ := h
    unfold settle at hw
    split at hw <;> cases hw
  | followUp t =>
    simp only [next, Option.ite_none_right_eq_some, Option.some.injEq] at h
    obtain ⟨-, rfl⟩ := h
    obtain ⟨e, he⟩ := ok_of_resume_waiting hw
    rw [he]
    exact Or.inr (Or.inl ⟨t, he⟩)
  | fire id now | dropReplaced id =>
    simp only [next, Option.some.injEq] at h
    rw [← h] at hw ⊢
    exact Or.inr (Or.inr ⟨hw, _, rfl⟩)

theorem of_created (h : (system C).Reachable m) (hw : m.phase = .created) :
    m.endpoint.Settled ∧ (m.endpoint.state = .connecting ∨ m.endpoint.state = .synReceived) := by
  have hinv : (system C).Invariant fun m => m.phase = .created → m.endpoint.Settled ∧
      (m.endpoint.state = .connecting ∨ m.endpoint.state = .synReceived) := by
    constructor
    · rintro m ⟨-, hc⟩ -
      exact ⟨hc.settled, hc.opening⟩
    · rintro m l m' - hm hn hw
      obtain ⟨hw, f, rfl⟩ := of_next_created hn hw
      obtain ⟨hset, hs⟩ := hm hw
      exact ⟨{ hset with }, hs⟩
  exact hinv.holds h hw

/-- Where a loop waits everything has been handed over. -/
theorem settled (h : (system C).Reachable m) (hw : m.phase = .waiting) :
    m.endpoint.Settled := by
  have hinv : (system C).Invariant fun m => m.phase = .waiting → m.endpoint.Settled := by
    constructor
    · rintro m ⟨hp, -⟩ hw
      rw [hp] at hw
      cases hw
    · rintro m l m' hr hm hn hw
      obtain ⟨t, hp, he⟩ | ⟨t, he⟩ | ⟨hw, f, rfl⟩ := of_next_waiting hn hw
      · rw [he]
        exact settled_begin (of_created hr hp).1
      · exact settled_of_followUp he
      · exact { hm hw with }
  exact hinv.holds h hw

/-- Where a loop waits there is nothing left to do until something arrives. -/
theorem idle (h : (system C).Reachable m) (hw : m.phase = .waiting)
    (hlen : m.endpoint.history.numbered.length < u32Size) : m.endpoint.Idle := by
  have hinv : (system C).Invariant fun m => m.phase = .waiting →
      m.endpoint.history.numbered.length < u32Size → m.endpoint.Idle := by
    constructor
    · rintro m ⟨hp, -⟩ hw
      rw [hp] at hw
      cases hw
    · rintro m l m' hr hm hn hw hlen
      have hmono := (numbered_mono hn).length_le
      obtain ⟨t, hp, he⟩ | ⟨t, he⟩ | ⟨hw, f, rfl⟩ := of_next_waiting hn hw
      · obtain ⟨hset, hs⟩ := of_created hr hp
        rw [he]
        refine (settled_begin hset).idle ?_
        rw [begin_state]
        exact hs
      · exact idle_of_followUp (numbering hr (lt_of_le_of_lt hmono hlen)) he hlen
      · exact { hm hw hlen with }
  exact hinv.holds h hw hlen

end Machine

end Kestrel
