import Kestrel.Endpoint.Actions

/-! # Sequence numbers

The record of the numbers given out explains what is in flight and what was sent: a number below
the counter belongs to the item recorded for it, whatever the endpoint did in between. A payload
stays in flight until it is acknowledged or the connection is closed.
-/

namespace Kestrel

/-- The item of the stream that got a number, if any. -/
def Numbered.item? : Numbered → Option PacketOrFin
  | .push payload => some (.push payload)
  | .fin .. => some .fin
  | .pathChallenge _ => none

/-- How an item is kept for retransmission. -/
def RetransmissionFrameInfo.ofItem (q : ℕ) : PacketOrFin → RetransmissionFrameInfo
  | .push payload => ⟨.push, q, payload, none⟩
  | .fin => ⟨.fin, q, [], none⟩

theorem RetransmissionFrameInfo.item?_reconstructFrame (q : ℕ) (p : PacketOrFin)
    (c : RetransmissionContext) (now : Instant) :
    ((ofItem q p).reconstructFrame c now).item? = some (q, p) := by
  cases p <;> rfl

namespace Endpoint

variable {C : Type}

/-- The number belongs to the item. -/
def Gave (e : Endpoint C) (q : ℕ) (p : PacketOrFin) : Prop :=
  ∃ x, e.history.numbered[q]? = some x ∧ x.item? = some p

/-- The number is named by an acknowledgment that was processed. -/
def Acked (e : Endpoint C) (q : ℕ) : Prop := ∃ a ∈ e.history.acks, AckNames a.1 a.2 q

structure Numbering (e : Endpoint C) : Prop where
  counter_eq : e.reliability.sequenceNumberCounter = e.history.numbered.length
  kept : ∀ q i, e.reliability.retransmissionManager.Keeps q i →
    ∃ p, e.Gave q p ∧ i = .ofItem q p
  sent : ∀ f ∈ e.framesSent, ∀ q p, f.item? = some (q, p) → e.Gave q p
  unacked : ∀ q b, e.history.numbered[q]? = some (.push b) →
    e.reliability.retransmissionManager.sackManager.info? q = some (.ofItem q (.push b)) ∨
      e.Acked q ∨ e.state = .closed

@[simp] theorem framesSent_emit (t : Tick) (e : Endpoint C) (bs : List FrameBatch) :
    (e.emit t bs).framesSent =
      e.framesSent ++ if t.senderOpen then bs.flatMap (·.frames) else [] := by
  unfold framesSent emit
  split <;> simp

theorem mem_framesSent_emit {t : Tick} {e : Endpoint C} {bs : List FrameBatch} {f : Frame}
    (h : f ∈ (e.emit t bs).framesSent) : f ∈ e.framesSent ∨ f ∈ bs.flatMap (·.frames) := by
  rw [framesSent_emit, List.mem_append] at h
  rcases h with h | h
  · exact Or.inl h
  · split at h
    · exact Or.inr h
    · cases h

section

variable {e e' : Endpoint C}

theorem Gave.mono {q : ℕ} {p : PacketOrFin} (h : e.Gave q p)
    (hn : e.history.numbered <+: e'.history.numbered) : e'.Gave q p := by
  obtain ⟨x, hx, hp⟩ := h
  obtain ⟨more, hm⟩ := hn
  exact ⟨x, by rwa [← hm, List.getElem?_append_left (List.getElem?_eq_some_iff.mp hx).1], hp⟩

end

section

variable {t : Tick} {e : Endpoint C}

theorem Numbering.emit (h : e.Numbering) {bs : List FrameBatch}
    (hbs : ∀ f ∈ bs.flatMap (·.frames), ∀ q p, f.item? = some (q, p) → e.Gave q p) :
    (e.emit t bs).Numbering where
  counter_eq := h.counter_eq
  kept := h.kept
  sent f hf q p hq := by
    rcases mem_framesSent_emit hf with hf | hf
    · exact h.sent f hf q p hq
    · exact hbs f hf q p hq
  unacked := h.unacked

/-- A FIN takes the next number and is kept under it. -/
theorem Numbering.createFin (h : e.Numbering)
    (hlen : (e.createFin t).2.history.numbered.length < u32Size) :
    (e.createFin t).2.Numbering ∧
      ∀ f ∈ (e.createFin t).1, ∀ q p, f.item? = some (q, p) → (e.createFin t).2.Gave q p := by
  unfold Endpoint.createFin at hlen ⊢
  split
  · rename_i hc
    rw [if_pos hc] at hlen
    dsimp only [ReliabilityLayer.nextSequenceNumber] at hlen ⊢
    rw [List.length_append, List.length_singleton] at hlen
    have hold {q : ℕ} {p : PacketOrFin} (hq : e.Gave q p) :
        ∃ x, (e.history.numbered ++
          [.fin e.history.written e.reliability.sendBuffer.bytes])[q]? = some x ∧
            x.item? = some p := by
      obtain ⟨x, hx, hp⟩ := hq
      exact ⟨x, by rwa [List.getElem?_append_left (List.getElem?_eq_some_iff.mp hx).1], hp⟩
    have hnew : ∃ x, (e.history.numbered ++
        [.fin e.history.written e.reliability.sendBuffer.bytes])[
          e.reliability.sequenceNumberCounter]? = some x ∧ x.item? = some .fin :=
      ⟨_, by rw [h.counter_eq]; exact List.getElem?_concat_length, rfl⟩
    refine ⟨⟨?_, ?_, ?_, ?_⟩, ?_⟩
    · dsimp only [ReliabilityLayer.trackFrameInFlight]
      rw [h.counter_eq, nextSeq, List.length_append, List.length_singleton,
        Nat.mod_eq_of_lt hlen]
    · intro q i hk
      rcases RetransmissionManager.keeps_addInFlightPacket hk with hk | ⟨hq, hi⟩
      · obtain ⟨p, hp, hi⟩ := h.kept q i hk
        exact ⟨p, hold hp, hi⟩
      · cases hq
        cases hi
        exact ⟨.fin, hnew, rfl⟩
    · exact fun f hf q p hq => hold (h.sent f hf q p hq)
    · intro q b hq
      dsimp only [ReliabilityLayer.trackFrameInFlight] at hq ⊢
      rcases lt_or_ge q e.history.numbered.length with hlt | hge
      · rw [List.getElem?_append_left hlt] at hq
        rw [RetransmissionManager.info?_addInFlightPacket_of_ne]
        · exact h.unacked q b hq
        · intro hn
          cases hn
          rw [h.counter_eq] at hlt
          exact absurd hlt (lt_irrefl _)
      · rw [List.getElem?_append_right hge] at hq
        cases hm : q - e.history.numbered.length with
        | zero =>
          rw [hm] at hq
          cases hq
        | succ n =>
          rw [hm] at hq
          cases hq
    · intro f hf q p hq
      rw [List.mem_singleton] at hf
      subst hf
      cases hq
      exact hnew
  · exact ⟨h, by simp⟩

theorem createFin_numbered :
    e.history.numbered <+: (e.createFin t).2.history.numbered := by
  unfold Endpoint.createFin
  split
  · exact List.prefix_append _ _
  · exact List.prefix_rfl

@[simp] theorem createFin_state : (e.createFin t).2.state = e.state := by
  unfold Endpoint.createFin
  split <;> rfl

theorem Numbering.challenge (h : e.Numbering) (data : ℕ) {s : ConnectionState}
    (hs : e.state ≠ .closed)
    (hlen : (e.numberChallenge data).2.history.numbered.length < u32Size) :
    Numbering { (e.numberChallenge data).2 with state := s } := by
  dsimp only [numberChallenge, ReliabilityLayer.nextSequenceNumber] at hlen ⊢
  rw [List.length_append, List.length_singleton] at hlen
  have hpre : e.history.numbered <+: e.history.numbered ++ [.pathChallenge data] :=
    List.prefix_append _ _
  refine ⟨?_, ?_, ?_, ?_⟩
  · dsimp only
    rw [h.counter_eq, nextSeq, List.length_append, List.length_singleton, Nat.mod_eq_of_lt hlen]
  · intro q i hk
    obtain ⟨p, hp, hi⟩ := h.kept q i hk
    exact ⟨p, hp.mono hpre, hi⟩
  · exact fun f hf q p hq => (h.sent f hf q p hq).mono hpre
  · intro q b hq
    dsimp only at hq
    rcases lt_or_ge q e.history.numbered.length with hlt | hge
    · rw [List.getElem?_append_left hlt] at hq
      rcases h.unacked q b hq with hk | ha | hc
      · exact Or.inl hk
      · exact Or.inr (Or.inl ha)
      · exact absurd hc hs
    · rw [List.getElem?_append_right hge, List.getElem?_singleton] at hq
      split at hq <;> cases hq

end

variable [CongestionControl C] {t : Tick} {l : Label} {e e' : Endpoint C}

theorem Act.numbered_mono (h : Act t l e e') : e.history.numbered <+: e'.history.numbered := by
  cases h with
  | challenge a n hs hl => exact List.prefix_append _ _
  | packetize chunks b lead bs hs hp hlead hb =>
    exact (List.prefix_append e.history.numbered (chunks.map .push)).trans
      (createFin_numbered (t := t) (e := e.cut t chunks b))
  | sendEof hl =>
    unfold Endpoint.sendEof
    split <;> exact List.prefix_rfl
  | _ => exact List.prefix_rfl

theorem Act.closed (h : Act t l e e') (hc : e.state = .closed) : e'.state = .closed := by
  cases h with
  | challenge a n hs hl => exact absurd (hc.symm.trans hs) (by simp)
  | establish header a hl hs => exact absurd (hc.symm.trans hs) (by simp)
  | accept data hl hs => exact absurd (hc.symm.trans hs) (by simp)
  | pathValidated header challenge a n hl hs => exact absurd (hc.symm.trans hs) (by simp)
  | validationTimeout hs =>
    rw [hc] at hs
    cases hs
  | finArrived header a hl hr =>
    dsimp only
    rw [hc]
    rfl
  | finReached hl hr =>
    dsimp only
    rw [hc]
    rfl
  | shutdown hl =>
    dsimp only [beginGracefulShutdown]
    rw [hc]
    rfl
  | packetize chunks b lead bs hs hp hlead hb =>
    change ((e.cut t chunks b).createFin t).2.state = .closed
    rw [createFin_state]
    exact hc
  | sendEof hl =>
    unfold Endpoint.sendEof
    split <;> exact hc
  | forceClose hl => rfl
  | close hs => rfl
  | _ => exact hc

/-- Payloads cut off the send buffer take the next numbers and are kept under them. -/
theorem Numbering.cut (h : e.Numbering) {chunks : List Bytes} {b : SendBuffer}
    (hlen : e.history.numbered.length + chunks.length < u32Size) :
    (e.cut t chunks b).Numbering ∧
      ∀ f ∈ e.pushes t chunks, ∀ q p, f.item? = some (q, p) → (e.cut t chunks b).Gave q p := by
  have hcounter : e.reliability.sequenceNumberCounter + chunks.length < u32Size := by
    rw [h.counter_eq]
    exact hlen
  have hpre : e.history.numbered <+: (e.cut t chunks b).history.numbered :=
    List.prefix_append _ _
  have hnew {f : Frame} (hf : f ∈ e.pushes t chunks) : ∃ n p, chunks[n]? = some p ∧
      f = (e.packetizerContext t).frame (e.history.numbered.length + n) p ∧
      (e.cut t chunks b).Gave (e.history.numbered.length + n) (.push p) := by
    obtain ⟨n, p, hp, rfl⟩ := mem_pushFrames.mp hf
    have hn := (List.getElem?_eq_some_iff.mp hp).1
    refine ⟨n, p, hp, ?_, .push p, ?_, rfl⟩
    · rw [counterAfter_of_lt (by omega), h.counter_eq]
    · dsimp only [Endpoint.cut]
      rw [List.getElem?_append_right (Nat.le_add_right _ _), Nat.add_sub_cancel_left,
        List.getElem?_map, hp]
      rfl
  refine ⟨⟨?_, ?_, ?_, ?_⟩, ?_⟩
  · dsimp only [Endpoint.cut]
    rw [counterAfter_of_lt hcounter, h.counter_eq, List.length_append, List.length_map]
  · intro q i hk
    rcases RetransmissionManager.keeps_addAll hk with hk | ⟨f, hf, hq, hi⟩
    · obtain ⟨p, hp, hi⟩ := h.kept q i hk
      exact ⟨p, hp.mono hpre, hi⟩
    · obtain ⟨n, p, -, rfl, hg⟩ := hnew hf
      cases hq
      cases hi
      exact ⟨.push p, hg, rfl⟩
  · exact fun f hf q p hq => (h.sent f hf q p hq).mono hpre
  · intro q b' hq
    dsimp only [Endpoint.cut] at hq ⊢
    rcases lt_or_ge q e.history.numbered.length with hlt | hge
    · rw [List.getElem?_append_left hlt] at hq
      rw [pushes, RetransmissionManager.info?_addAll_pushFrames_of_lt hcounter t.now
        (h.counter_eq ▸ hlt)]
      exact h.unacked q b' hq
    · left
      rw [List.getElem?_append_right hge, List.getElem?_map, Option.map_eq_some_iff] at hq
      obtain ⟨p, hp, hb⟩ := hq
      cases hb
      have hk := RetransmissionManager.info?_addAll_pushFrames
        (m := e.reliability.retransmissionManager) (c := e.packetizerContext t) hcounter t.now hp
      rw [h.counter_eq, Nat.add_sub_cancel' hge] at hk
      rw [pushes, h.counter_eq, hk]
      rfl
  · intro f hf q p hq
    obtain ⟨n, p', -, rfl, hg⟩ := hnew hf
    cases hq
    exact hg

omit [CongestionControl C] in
theorem Numbering.processAck (h : e.Numbering) (n : ℕ) (rs : List SackRange)
    (c : RetransmissionContext) (r : RttEstimator) (cc : C) (w : ℕ) :
    Numbering { e with
      peerRecvWindow := w
      reliability := { e.reliability with
        retransmissionManager := (e.reliability.retransmissionManager.processAck n rs t.now c).2
        rtoEstimator := r
        congestionControl := cc }
      history := { e.history with acks := e.history.acks ++ [(n, rs)] } } := by
  refine { h with kept := ?_, unacked := ?_ }
  · exact fun q i hk => h.kept q i (RetransmissionManager.keeps_of_processAck hk)
  · intro q b hq
    by_cases hn : AckNames n rs q
    · exact Or.inr (Or.inl ⟨(n, rs), by simp, hn⟩)
    · rcases h.unacked q b hq with hk | ⟨a, ha, hq⟩ | hc
      · left
        dsimp only [RetransmissionManager.processAck]
        rw [SackManager.info?_processAck, if_neg hn]
        exact hk
      · exact Or.inr (Or.inl ⟨a, List.mem_append_left _ ha, hq⟩)
      · exact Or.inr (Or.inr hc)

/-- The record stays right as long as it is shorter than the range of the counter. -/
theorem Act.numbering (h : Act t l e e') (hn : e.Numbering)
    (hlen : e'.history.numbered.length < u32Size) : e'.Numbering := by
  have hclosed := h.closed
  cases h with
  | challenge a n hs hl =>
    refine (hn.challenge t.challenge (by rw [hs]; simp) hlen).emit ?_
    intro f hf q p hq
    simp only [List.flatMap_cons, List.flatMap_nil, List.append_nil, List.mem_singleton] at hf
    subst hf
    cases hq
  | acknowledge hp =>
    refine Numbering.emit (e := { e with reliability := e.reliability.onAckSent }) { hn with } ?_
    intro f hf q p hq
    simp only [List.flatMap_cons, List.flatMap_nil, List.append_nil, List.mem_singleton] at hf
    subst hf
    cases hq
  | control bs hc =>
    refine hn.emit fun f hf q p hq => ?_
    rw [Frame.item?_of_isControl (hc f hf)] at hq
    cases hq
  | resend bs hr =>
    refine hn.emit fun f hf q p hq => ?_
    obtain ⟨q', i, c, hk, rfl⟩ := hr f hf
    obtain ⟨p', hg, rfl⟩ := hn.kept q' i hk
    rw [RetransmissionFrameInfo.item?_reconstructFrame] at hq
    cases hq
    exact hg
  | packetize chunks b lead bs hs hp hlead hb =>
    have hlen : ((e.cut t chunks b).createFin t).2.history.numbered.length < u32Size := hlen
    have hpre := (createFin_numbered (t := t) (e := e.cut t chunks b))
    have hcut : e.history.numbered.length + chunks.length < u32Size := by
      have hle := hpre.length_le
      have hc : (e.cut t chunks b).history.numbered.length =
          e.history.numbered.length + chunks.length := by simp [Endpoint.cut]
      omega
    obtain ⟨hn₁, hpush⟩ := hn.cut (t := t) (b := b) hcut
    obtain ⟨hn₂, hfin⟩ := hn₁.createFin hlen
    refine hn₂.emit fun f hf q p hq => ?_
    rw [hb, List.mem_append, List.mem_append] at hf
    rcases hf with (hf | hf) | hf
    · rw [Frame.item?_of_isControl (hlead f hf)] at hq
      cases hq
    · exact (hpush f hf q p hq).mono hpre
    · exact hfin f hf q p hq
  | processAck header payload a r cc hl hs => exact hn.processAck _ _ _ _ _ _
  | checkRetransmissions r cc hl =>
    refine { hn with kept := ?_, unacked := ?_ }
    · intro q i hk
      exact hn.kept q i (RetransmissionManager.keeps_of_checkForRetransmissions
        (c := e.createRetransmissionContext) hk)
    · intro q b hq
      rcases hn.unacked q b hq with hk | ha | hc
      · left
        dsimp only [RetransmissionManager.checkForRetransmissions]
        rw [SackManager.info?_checkForRto]
        exact hk
      · exact Or.inr (Or.inl ha)
      · exact Or.inr (Or.inr hc)
  | receive f a q p hl hf hs =>
    cases ha : e.reliability.recvBuffer.accepts q with
    | false =>
      rw [ReliabilityLayer.receive_eq_of_not_accepts ha]
      exact hn
    | true =>
      rw [ReliabilityLayer.receive_eq_of_accepts ha]
      exact { hn with }
  | close hs =>
    refine { hn with kept := ?_, unacked := fun _ _ _ => Or.inr (Or.inr rfl) }
    intro q i hk
    rcases hk with hk | hk <;>
      simp [release, ReliabilityLayer.clearInFlightPackets, RetransmissionManager.clear] at hk
  | sendEof hl =>
    unfold Endpoint.sendEof
    split
    · exact { hn with }
    · exact hn
  | _ =>
    refine { hn with unacked := ?_ }
    intro q b hq
    rcases hn.unacked q b hq with hk | ha | hc
    · exact Or.inl hk
    · exact Or.inr (Or.inl ha)
    · exact Or.inr (Or.inr (hclosed hc))

omit [CongestionControl C] in
theorem Created.numbering (h : e.Created) : e.Numbering := by
  have hnew (s : ConnectionState) (config : Config) (a : SocketAddr) (cid peer : ℕ) (cc : C)
      (now : Instant) : (newIn s config a cid peer cc now).Numbering :=
    { counter_eq := rfl
      kept := by
        rintro q i (hk | hk) <;> simp [newIn, ReliabilityLayer.new, RetransmissionManager.new] at hk
      sent := fun _ hf => by cases hf
      unacked := fun _ _ hq => by cases hq }
  cases h with
  | client config a cid cc data t =>
    cases data with
    | none => exact { hnew .connecting config a cid 0 cc t.now with }
    | some data => exact { hnew .connecting config a cid 0 cc t.now with }
  | server config a cid peer cc t => exact { hnew .synReceived config a cid peer cc t.now with }

end Endpoint

namespace Machine

open Endpoint

variable {C : Type} [CongestionControl C] {m m' : Machine C} {l : Label}

theorem numbered_mono (h : m.next l = some m') :
    m.endpoint.history.numbered <+: m'.endpoint.history.numbered := by
  have hdeliver (t : Tick) (e : Endpoint C) :
      (e.deliver t).2.history.numbered = e.history.numbered := by
    obtain ⟨_, _, hd⟩ := deliver_eq (t := t) (e := e)
    rw [hd]
  rcases acts_of_next h with ⟨t, -, ha⟩ | ⟨id, now, -, rfl⟩ | ⟨id, -, rfl⟩
  · have hpre : (m.opening l).history.numbered <+: m'.endpoint.history.numbered :=
      ha.preserves (P := fun e => (m.opening l).history.numbered <+: e.history.numbered)
        (fun _ _ hp ha => hp.trans ha.numbered_mono) List.prefix_rfl
    cases l with
    | followUp t =>
      rw [opening, hdeliver] at hpre
      exact hpre
    | _ => exact hpre
  · exact List.prefix_rfl
  · exact List.prefix_rfl

/-- In every run the record explains what is in flight and what was sent. -/
theorem numbering (h : (system C).Reachable m)
    (hlen : m.endpoint.history.numbered.length < u32Size) : m.endpoint.Numbering := by
  have hinv : (system C).Invariant fun m =>
      m.endpoint.history.numbered.length < u32Size → m.endpoint.Numbering :=
    invariant (P := fun e => e.history.numbered.length < u32Size → e.Numbering)
      (fun e he _ => he.numbering)
      (fun t l e e' hn ha hlen =>
        ha.numbering (hn (lt_of_le_of_lt ha.numbered_mono.length_le hlen)) hlen)
      (fun t e hn hlen => by
        obtain ⟨_, _, hd⟩ := deliver_eq (t := t) (e := e)
        rw [hd] at hlen ⊢
        exact { hn hlen with })
      (fun e f hn hlen => { hn hlen with })
  exact hinv.holds h hlen

end Machine

end Kestrel
