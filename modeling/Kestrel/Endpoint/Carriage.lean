import Kestrel.Endpoint.Migration

/-! # What carries a number

A number that goes to an item of the stream is kept for retransmission in the step that gives it
out and goes onto the network with a frame. Only a path challenge takes a number for nothing, and
only a step that starts a path validation sends one.
-/

namespace Kestrel

instance (r : SocketAddr) : DecidablePred (Label.Challenges · r)
  | .frame _ _ a => decidable_of_iff (a ≠ r) (by simp [Label.Challenges])
  | .command _ (.migrate ..) => .isTrue (by simp [Label.Challenges])
  | .command _ (.sendData _) | .command _ .close | .begin _ | .poll _ | .followUp _ | .fire ..
  | .dropReplaced _ => .isFalse (by simp [Label.Challenges])

namespace Endpoint

variable {C : Type} {t : Tick} {l : Label} {e e' : Endpoint C} {a : SocketAddr}

theorem Gave.lt {q : ℕ} {p : PacketOrFin} (h : e.Gave q p) : q < e.history.numbered.length := by
  obtain ⟨x, hx, -⟩ := h
  exact (List.getElem?_eq_some_iff.mp hx).1

theorem Gave.unique {q : ℕ} {p p' : PacketOrFin} (h : e.Gave q p) (h' : e.Gave q p') : p = p' := by
  obtain ⟨x, hx, hp⟩ := h
  obtain ⟨x', hx', hp'⟩ := h'
  rw [hx] at hx'
  cases hx'
  exact Option.some_inj.mp (hp.symm.trans hp')

theorem Gave.of_prefix {q : ℕ} {p : PacketOrFin} (h : e'.Gave q p)
    (hn : e.history.numbered <+: e'.history.numbered) (hq : q < e.history.numbered.length) :
    e.Gave q p := by
  obtain ⟨x, hx, hp⟩ := h
  obtain ⟨more, hm⟩ := hn
  rw [← hm, List.getElem?_append_left hq] at hx
  exact ⟨x, hx, hp⟩

theorem gave_of_challenge {q c : ℕ} {p : PacketOrFin} (h : e'.Gave q p)
    (hn : e'.history.numbered = e.history.numbered ++ [.pathChallenge c]) : e.Gave q p := by
  have hlt := h.lt
  apply h.of_prefix (hn ▸ List.prefix_append _ _)
  by_contra hge
  rw [hn, List.length_append, List.length_singleton] at hlt
  obtain ⟨x, hx, hp⟩ := h
  obtain rfl : q = e.history.numbered.length := by omega
  rw [hn, List.getElem?_concat_length] at hx
  cases hx
  cases hp

/-- Every number belongs to an item, and a frame has been sent that brings it. -/
def Carried (e : Endpoint C) : Prop :=
  ∀ q < e.history.numbered.length, ∃ p, e.Gave q p ∧ ∃ f ∈ e.framesSent, f.item? = some (q, p)

theorem Carried.of_same (h : e.Carried) (hn : e'.history.numbered = e.history.numbered)
    (hs : e.framesSent ⊆ e'.framesSent) : e'.Carried := by
  intro q hq
  rw [hn] at hq
  obtain ⟨p, hp, f, hf, hi⟩ := h q hq
  exact ⟨p, hp.mono (hn ▸ List.prefix_rfl), f, hs hf, hi⟩

theorem Carried.extend (h : e.Carried) (hn : e.history.numbered <+: e'.history.numbered)
    (hs : e.framesSent ⊆ e'.framesSent)
    (hnew : ∀ q, e.history.numbered.length ≤ q → q < e'.history.numbered.length →
      ∃ p, e'.Gave q p ∧ ∃ f ∈ e'.framesSent, f.item? = some (q, p)) : e'.Carried := by
  intro q hq
  rcases lt_or_ge q e.history.numbered.length with hlt | hge
  · obtain ⟨p, hp, f, hf, hi⟩ := h q hlt
    exact ⟨p, hp.mono hn, f, hs hf, hi⟩
  · exact hnew q hge hq

theorem framesSent_subset (h : e.sent <+: e'.sent) : e.framesSent ⊆ e'.framesSent := by
  intro f hf
  obtain ⟨b, hb, hf⟩ := List.mem_flatMap.mp hf
  exact List.mem_flatMap.mpr ⟨b, h.subset hb, hf⟩

theorem exists_push [CongestionControl C] {chunks : List Bytes} {n : ℕ} {chunk : Bytes}
    (hc : e.reliability.sequenceNumberCounter + chunks.length < u32Size)
    (hn : chunks[n]? = some chunk) : ∃ f ∈ e.pushes t chunks,
      f.item? = some (e.reliability.sequenceNumberCounter + n, .push chunk) := by
  have hlt := (List.getElem?_eq_some_iff.mp hn).1
  refine ⟨_, mem_pushFrames.mpr ⟨n, chunk, hn, rfl⟩, ?_⟩
  rw [counterAfter_of_lt (by omega)]
  rfl

theorem createFin_carried (hn : e.Numbering) {q : ℕ} (hge : e.history.numbered.length ≤ q)
    (hlt : q < (e.createFin t).2.history.numbered.length) :
    (e.createFin t).2.Gave q .fin ∧
      (∃ f ∈ (e.createFin t).1, f.item? = some (q, .fin)) ∧
      (e.createFin t).2.reliability.retransmissionManager.Keeps q (.ofItem q .fin) := by
  unfold createFin at hlt ⊢
  split
  · rename_i hc
    rw [if_pos hc] at hlt
    dsimp only at hlt
    rw [List.length_append, List.length_singleton] at hlt
    have hq : q = e.history.numbered.length := by omega
    subst hq
    refine ⟨⟨_, List.getElem?_concat_length, rfl⟩, ⟨_, List.mem_singleton_self _, ?_⟩, ?_⟩
    · rw [← hn.counter_eq]
      rfl
    · rw [← hn.counter_eq]
      exact RetransmissionManager.keeps_addInFlightPacket_fin _ _
  · rename_i hc
    rw [if_neg hc] at hlt
    exact absurd hge (not_le.mpr hlt)

theorem kept_createFin (hn : e.reliability.sequenceNumberCounter = e.history.numbered.length)
    {q : ℕ} {i : RetransmissionFrameInfo} (hq : q < e.history.numbered.length)
    (hk : e.reliability.retransmissionManager.Keeps q i) :
    (e.createFin t).2.reliability.retransmissionManager.Keeps q i := by
  unfold createFin
  split
  · apply hk.addInFlightPacket
    intro he
    cases he
    rw [hn] at hq
    exact absurd hq (lt_irrefl _)
  · exact hk

theorem kept_cut [CongestionControl C] (hn : e.Numbering) {chunks : List Bytes} {b : SendBuffer}
    (hlen : e.history.numbered.length + chunks.length < u32Size) {q : ℕ} {p : PacketOrFin}
    (hg : (e.cut t chunks b).Gave q p)
    (hk : q < e.history.numbered.length →
      e.reliability.retransmissionManager.Keeps q (.ofItem q p)) :
    (e.cut t chunks b).reliability.retransmissionManager.Keeps q (.ofItem q p) := by
  have hcounter : e.reliability.sequenceNumberCounter + chunks.length < u32Size := by
    rw [hn.counter_eq]
    exact hlen
  rcases lt_or_ge q e.history.numbered.length with hlt | hge
  · apply (hk hlt).addAll
    intro f hf he
    obtain ⟨n, chunk, hc, rfl⟩ := mem_pushFrames.mp hf
    have hlt' := (List.getElem?_eq_some_iff.mp hc).1
    rw [counterAfter_of_lt (by omega), hn.counter_eq] at he
    have hq : e.history.numbered.length + n = q := Option.some_inj.mp he
    omega
  · obtain ⟨x, hx, hp⟩ := hg
    have hx : (e.history.numbered ++ chunks.map Numbered.push)[q]? = some x := hx
    rw [List.getElem?_append_right hge, List.getElem?_map, Option.map_eq_some_iff] at hx
    obtain ⟨chunk, hc, rfl⟩ := hx
    cases hp
    left
    have hi := RetransmissionManager.info?_addAll_pushFrames
      (m := e.reliability.retransmissionManager) (c := e.packetizerContext t) hcounter t.now hc
    rw [hn.counter_eq, Nat.add_sub_cancel' hge] at hi
    dsimp only [Endpoint.cut]
    rw [pushes, hn.counter_eq, hi]
    rfl

variable [CongestionControl C]

/-- Over an open socket, what gets a number is sent. -/
theorem Act.carried (h : Act t l e e') (hl : ¬ l.Challenges e.remoteAddr)
    (ho : t.senderOpen = true) (hn : e.Numbering)
    (hlen : e'.history.numbered.length < u32Size) (hc : e.Carried) : e'.Carried := by
  have hsent := framesSent_subset h.sent_mono
  have hnum := h.numbered_mono
  cases h with
  | challenge a n hs hl' =>
    rcases hl' with ⟨f, rfl, ha⟩ | rfl
    · exact absurd (Or.inl ⟨t, f, a, rfl, ha⟩) hl
    · exact absurd (Or.inr ⟨t, a, n, rfl⟩) hl
  | packetize chunks b lead bs hs hp hlead hb =>
    have hpre := createFin_numbered (t := t) (e := e.cut t chunks b)
    have hlen : ((e.cut t chunks b).createFin t).2.history.numbered.length < u32Size := hlen
    have hcut : e.history.numbered.length + chunks.length =
        (e.cut t chunks b).history.numbered.length := by simp [Endpoint.cut]
    have hle := hpre.length_le
    have hbound : e.history.numbered.length + chunks.length < u32Size := by omega
    obtain ⟨hn₁, hpush⟩ := hn.cut (t := t) (b := b) hbound
    have hframe {f : Frame} (hf : f ∈ e.pushes t chunks ∨ f ∈ ((e.cut t chunks b).createFin t).1) :
        f ∈ (((e.cut t chunks b).createFin t).2.emit t bs).framesSent := by
      rw [framesSent_emit, if_pos ho, hb]
      simp only [List.mem_append]
      tauto
    apply hc.extend hnum hsent
    intro q hge hlt
    rcases lt_or_ge q (e.cut t chunks b).history.numbered.length with hq | hq
    · have hin : q - e.history.numbered.length < chunks.length := by omega
      have hcounter : e.reliability.sequenceNumberCounter + chunks.length < u32Size := by
        rw [hn.counter_eq]
        exact hbound
      obtain ⟨f, hf, hi⟩ := exists_push (t := t) hcounter (List.getElem?_eq_getElem hin)
      rw [hn.counter_eq, Nat.add_sub_cancel' hge] at hi
      exact ⟨_, (hpush f hf _ _ hi).mono hpre, f, hframe (Or.inl hf), hi⟩
    · obtain ⟨hg, ⟨f, hf, hi⟩, -⟩ := createFin_carried hn₁ hq hlt
      exact ⟨.fin, hg, f, hframe (Or.inr hf), hi⟩
  | sendEof hl' =>
    refine hc.of_same ?_ hsent
    unfold Endpoint.sendEof
    split <;> rfl
  | _ => exact hc.of_same rfl hsent

/-- In this state the step packetizes nothing, and may let go of what is kept. -/
def Inert (l : Label) (e : Endpoint C) : Prop :=
  e.state = .closed ∨ (∃ t, l = .command t .close) ∧ e.state = .connecting

/-- From a number on, what got one is kept, and nothing got one in a state in which the step may
let go of it. -/
structure KeptFrom (l : Label) (n : ℕ) (e : Endpoint C) : Prop where
  kept : ∀ q p, n ≤ q → e.Gave q p →
    e.reliability.retransmissionManager.Keeps q (.ofItem q p)
  inert : Inert l e → ∀ q p, e.Gave q p → q < n

omit [CongestionControl C] in
theorem not_packetizesIn_of_inert (h : Inert l e) : ¬ l.PacketizesIn e.state := by
  rcases h with hs | ⟨⟨t, rfl⟩, hs⟩
  · rw [hs]
    unfold Label.PacketizesIn
    split <;> simp
  · simp [Label.PacketizesIn, hs]

theorem Act.of_inert (h : Act t l e e') (hl : ∃ s, l.PacketizesIn s) (hi : Inert l e') :
    e'.history.numbered = e.history.numbered ∧
      (Inert l e ∨ e.reliability.isInFlightEmpty = true) := by
  have hne {s : ConnectionState} (hs : e'.state = s)
      (h : s ≠ .closed ∧ s ≠ .connecting) : False := by
    rcases hi with hi | ⟨-, hi⟩
    · exact h.1 (hs.symm.trans hi)
    · exact h.2 (hs.symm.trans hi)
  cases h with
  | challenge a n hs hl' =>
    exact (hne (s := .validatingPath a t.challenge (some n)) rfl (by simp)).elim
  | establish | accept | pathValidated | validationTimeout =>
    exact (hne (s := .established) rfl (by simp)).elim
  | packetize chunks b lead bs hs hp hlead hb =>
    have hstate : (((e.cut t chunks b).createFin t).2.emit t bs).state = e.state :=
      createFin_state
    unfold Inert at hi
    rw [hstate] at hi
    exact absurd hs (not_packetizesIn_of_inert hi)
  | finArrived header a hl' hr =>
    refine ⟨rfl, Or.inl ?_⟩
    unfold Inert at hi ⊢
    revert hi
    cases e.state <;> simp [arrival]
  | finReached hl' hr =>
    refine ⟨rfl, Or.inl ?_⟩
    unfold Inert at hi ⊢
    revert hi
    cases e.state <;> simp [consumption]
  | shutdown hl' =>
    refine ⟨rfl, Or.inl ?_⟩
    unfold Inert beginGracefulShutdown at hi
    unfold Inert
    revert hi
    cases e.state <;> simp [ConnectionState.gracefulShutdown, ConnectionState.clone]
  | forceClose hl' =>
    subst hl'
    obtain ⟨s, hs⟩ := hl
    cases hs
  | close hs =>
    refine ⟨rfl, ?_⟩
    rcases hs with hs | ⟨hc, hs, -⟩ | ⟨-, -, hempty⟩
    · exact Or.inl (Or.inl hs)
    · exact Or.inl (Or.inr ⟨⟨t, hc⟩, hs⟩)
    · exact Or.inr hempty
  | sendEof hl' =>
    unfold Endpoint.sendEof at hi ⊢
    split at hi <;> exact ⟨by split <;> rfl, Or.inl hi⟩
  | _ => exact ⟨rfl, Or.inl hi⟩

theorem Act.keptFrom (h : Act t l e e') (hl : ∃ s, l.PacketizesIn s) (hn : e.Numbering)
    (hlen : e'.history.numbered.length < u32Size) {n : ℕ} (hk : e.KeptFrom l n) :
    e'.KeptFrom l n := by
  have hinert : Inert l e' → ∀ q p, e'.Gave q p → q < n := by
    intro hi q p hg
    obtain ⟨hsame, hi⟩ := h.of_inert hl hi
    have hg : e.Gave q p := hg.of_prefix (hsame ▸ List.prefix_rfl) (hsame ▸ hg.lt)
    rcases hi with hi | hempty
    · exact hk.inert hi q p hg
    · by_contra hge
      exact RetransmissionManager.isAllInFlightEmpty_iff.mp hempty q _
        (hk.kept q p (not_lt.mp hge) hg)
  refine ⟨?_, hinert⟩
  cases h with
  | challenge a c hs hl' => exact fun q p hq hg => hk.kept q p hq (gave_of_challenge hg rfl)
  | processAck header payload a r cc hl' hs =>
    subst hl'
    obtain ⟨s, hs⟩ := hl
    cases hs
  | checkRetransmissions r cc hl' =>
    subst hl'
    obtain ⟨s, hs⟩ := hl
    cases hs
  | packetize chunks b lead bs hs hp hlead hb =>
    intro q p hq hg
    have hlen : ((e.cut t chunks b).createFin t).2.history.numbered.length < u32Size := hlen
    have hg : ((e.cut t chunks b).createFin t).2.Gave q p := hg
    have hpre := createFin_numbered (t := t) (e := e.cut t chunks b)
    have hcut : e.history.numbered.length + chunks.length =
        (e.cut t chunks b).history.numbered.length := by simp [Endpoint.cut]
    have hlt : e.history.numbered.length + chunks.length < u32Size := by
      have hle := hpre.length_le
      omega
    obtain ⟨hn₁, -⟩ := hn.cut (t := t) (b := b) hlt
    rcases lt_or_ge q (e.cut t chunks b).history.numbered.length with hold | hnew
    · have hcutGave := hg.of_prefix hpre hold
      apply kept_createFin hn₁.counter_eq hold
      apply kept_cut hn hlt hcutGave
      intro hq'
      exact hk.kept q p hq (hcutGave.of_prefix (List.prefix_append _ _) hq')
    · obtain ⟨hfin, -, hkeeps⟩ := createFin_carried hn₁ hnew hg.lt
      rw [hg.unique hfin]
      exact hkeeps
  | receive f a k p hl' hf hs =>
    cases ha : e.reliability.recvBuffer.accepts k with
    | false =>
      rw [ReliabilityLayer.receive_eq_of_not_accepts ha]
      exact hk.kept
    | true =>
      rw [ReliabilityLayer.receive_eq_of_accepts ha]
      exact hk.kept
  | close hs => exact fun q p hq hg => absurd (hinert (Or.inl rfl) q p hg) (not_lt.mpr hq)
  | sendEof hl' =>
    unfold Endpoint.sendEof
    split <;> exact hk.kept
  | _ => exact hk.kept

theorem Act.gave_of_not_packetizes (h : Act t l e e') (hl : ∀ s, ¬ l.PacketizesIn s) {q : ℕ}
    {p : PacketOrFin} (hg : e'.Gave q p) : e.Gave q p := by
  cases h with
  | challenge a n hs hl' => exact gave_of_challenge hg rfl
  | packetize chunks b lead bs hs hp hlead hb => exact absurd hs (hl _)
  | sendEof hl' =>
    unfold Endpoint.sendEof at hg
    split at hg <;> exact hg
  | _ => exact hg

/-- The record is right and every number is carried, as long as the numbers do not run out. -/
def Explained (e : Endpoint C) : Prop :=
  e.history.numbered.length < u32Size → e.Numbering ∧ e.Carried

omit [CongestionControl C] in
theorem Explained.timing (h : e.Explained) (x : TimingManager) :
    Explained { e with timing := x } := by
  intro hlen
  obtain ⟨hn, hc⟩ := h hlen
  exact ⟨{ hn with }, hc⟩

/-- Actions over an open socket that start no validation keep every number carried. -/
theorem Acts.explained (h : Acts t l e e') (hl : ¬ l.Challenges e.remoteAddr)
    (hr : ∀ header c a, l ≠ .frame t (.pathResponse header c) a) (ho : t.senderOpen = true)
    (he : e.Explained) : e'.Explained := by
  have hp := h.preserves (P := fun e' => e'.remoteAddr = e.remoteAddr ∧ e'.Explained) (by
    rintro e₁ e₂ ⟨haddr, hi⟩ ha
    refine ⟨(ha.path hr).1.trans haddr, fun hlen => ?_⟩
    obtain ⟨hn, hc⟩ := hi (ha.numbered_mono.length_le.trans_lt hlen)
    exact ⟨ha.numbering hn hlen, ha.carried (haddr ▸ hl) ho hn hlen hc⟩)
    ⟨rfl, he⟩
  exact hp.2

theorem Explained.processFrame (h : e.Explained) (ho : t.senderOpen = true) (f : Frame)
    (a : SocketAddr) : (Outcome.last (e.processFrame t f a)).Explained := by
  -- without a path frame the address does not matter, so it may as well be the peer's
  have hacts (f : Frame) (hsame : e.processFrame t f a = e.processFrame t f e.remoteAddr)
      (hr : ∀ header c, f ≠ .pathResponse header c) :
      (Outcome.last (e.processFrame t f a)).Explained := by
    rw [hsame]
    apply (acts_processFrame rfl).explained _ _ ho h
    · rintro (⟨t, f, a, he, ha⟩ | ⟨t, a, n, he⟩)
      · cases he
        exact ha rfl
      · cases he
    · rintro header c a he
      cases he
      exact hr _ _ rfl
  cases f with
  | pathResponse header c =>
    change (Outcome.last (e.handlePathResponseFrame c a)).Explained
    rcases handlePathResponseFrame_cases (e := e) c a with ⟨n, hs, he⟩ | ⟨-, he⟩
    · rw [he]
      intro hlen
      obtain ⟨hn, hc⟩ := h hlen
      refine ⟨{ hn with unacked := fun q b hq => ?_ }, hc⟩
      refine (hn.unacked q b hq).imp id (Or.imp id fun hclosed => ?_)
      rw [hs] at hclosed
      cases hclosed
    · rw [he]
      exact h
  | pathChallenge header c =>
    change (Outcome.last (e.handlePathChallengeFrame t header c a)).Explained
    unfold handlePathChallengeFrame
    split
    · exact h
    · rw [sendPathResponse, sendFrameTo_eq, last_sending]
      have ha : Acts t (.poll t) e (e.emit t [⟨a, [e.createPathResponseFrame t
          header.sequenceNumber c]⟩]) := .single (.control _ (by
        simp [createPathResponseFrame, Frame.newPathResponse, Frame.isControl]))
      exact ha.explained (by simp [Label.Challenges]) (by simp) ho h
  | push | ack | ping | fin | syn | synAck => exact hacts _ rfl (by simp)

end Endpoint

namespace Machine

open Endpoint

variable {C : Type} [CongestionControl C] {m m' : Machine C} {l : Label}

/-- The socket takes what the step sends, and the step starts no path validation. -/
def Unhindered (m : Machine C) (l : Label) : Prop :=
  (∀ t ∈ l.tick?, t.senderOpen = true) ∧
    (m.endpoint.state = .established → ¬ l.Challenges m.endpoint.remoteAddr)

instance (m : Machine C) (l : Label) : Decidable (Unhindered m l) :=
  inferInstanceAs (Decidable (_ ∧ (_ → ¬ (Label.Challenges · m.endpoint.remoteAddr) l)))

omit [CongestionControl C] in
theorem opening_explained (h : m.endpoint.Explained) (l : Label) : (m.opening l).Explained := by
  cases l with
  | followUp t =>
    obtain ⟨_, _, hd⟩ := deliver_eq (t := t) (e := m.endpoint)
    unfold opening
    dsimp only
    rw [hd]
    intro hlen
    obtain ⟨hn, hc⟩ := h hlen
    exact ⟨{ hn with }, hc⟩
  | _ => exact h

omit [CongestionControl C] in
theorem opening_history (l : Label) : (m.opening l).history = m.endpoint.history := by
  cases l with
  | followUp t =>
    obtain ⟨_, _, hd⟩ := deliver_eq (t := t) (e := m.endpoint)
    unfold opening
    dsimp only
    rw [hd]
  | _ => rfl

theorem kept_of_next (h : m.next l = some m') (he : m.endpoint.Explained)
    (hlen : m'.endpoint.history.numbered.length < u32Size) {q : ℕ} {p : PacketOrFin}
    (hq : m.endpoint.history.numbered.length ≤ q) (hp : m'.endpoint.Gave q p) :
    m'.endpoint.reliability.retransmissionManager.Keeps q (.ofItem q p) := by
  have hold {e : Endpoint C} (hh : e.history = m.endpoint.history) :
      ∀ q p, e.Gave q p → q < m.endpoint.history.numbered.length := by
    intro q p hg
    rw [← hh]
    exact hg.lt
  rcases acts_of_next h with ⟨t, -, ha⟩ | ⟨id, now, -, rfl⟩ | ⟨id, -, rfl⟩
  · by_cases hl : ∃ s, l.PacketizesIn s
    · have hkept := ha.preserves
        (P := fun e => e.history.numbered.length < u32Size →
          e.Numbering ∧ e.KeptFrom l m.endpoint.history.numbered.length) (by
        intro e e' hi ha hlen
        obtain ⟨hn, hk⟩ := hi (ha.numbered_mono.length_le.trans_lt hlen)
        exact ⟨ha.numbering hn hlen, ha.keptFrom hl hn hlen hk⟩)
        (by
          intro hlen
          have hnone := hold (opening_history l)
          refine ⟨(opening_explained he l hlen).1, ?_, fun _ => hnone⟩
          exact fun q p hq hg => absurd (hnone q p hg) (not_lt.mpr hq))
      exact (hkept hlen).2.kept q p hq hp
    · have hnone := ha.preserves
        (P := fun e => ∀ q p, e.Gave q p → q < m.endpoint.history.numbered.length)
        (fun e e' hi ha q p hg => hi q p (ha.gave_of_not_packetizes (not_exists.mp hl) hg))
        (hold (opening_history l))
      exact absurd (hnone q p hp) (not_lt.mpr hq)
  · exact absurd (hold rfl q p hp) (not_lt.mpr hq)
  · exact absurd (hold rfl q p hp) (not_lt.mpr hq)

theorem explained_step (h : m.next l = some m') (hu : Unhindered m l)
    (he : m.endpoint.Explained) : m'.endpoint.Explained := by
  have hacts (hl : ¬ l.Challenges m.endpoint.remoteAddr)
      (hr : ∀ t header c a, l ≠ .frame t (.pathResponse header c) a) :
      m'.endpoint.Explained := by
    rcases acts_of_next h with ⟨t, ht, ha⟩ | ⟨id, now, -, rfl⟩ | ⟨id, -, rfl⟩
    · have haddr : (m.opening l).remoteAddr = m.endpoint.remoteAddr := by
        cases l with
        | followUp t => exact (deliver_path t m.endpoint).1
        | _ => rfl
      exact ha.explained (haddr ▸ hl) (hr t) (hu.1 t ht) (opening_explained he l)
    · exact he.timing _
    · exact he.timing _
  cases l with
  | frame t f a =>
    simp only [next, Option.ite_none_right_eq_some, Option.some.injEq] at h
    rw [← h.2, settle_endpoint]
    have hpath : checkPathMigration t
        { m.endpoint with timing := m.endpoint.timing.onPacketReceived t.now } a =
          .ok { m.endpoint with timing := m.endpoint.timing.onPacketReceived t.now } :=
      if_neg fun hc => hu.2 hc.2 (Or.inl ⟨t, f, a, rfl, hc.1⟩)
    rw [routeFrame, hpath]
    exact (he.timing _).processFrame (hu.1 t rfl) f a
  | command t c =>
    cases c with
    | migrate a n =>
      simp only [next, Option.ite_none_right_eq_some, Option.some.injEq] at h
      have hs : m.endpoint.state ≠ .established :=
        fun hs => hu.2 hs (Or.inr ⟨t, a, n, rfl⟩)
      have hstays : m.endpoint.handleStreamCommand t (.migrate a n) = .ok m.endpoint := by
        change m.endpoint.migrate t a n = .ok m.endpoint
        rw [migrate, startPathValidation_eq, if_neg hs]
      rw [← h.2, settle_endpoint, hstays]
      exact he
    | sendData | close => exact hacts (by simp [Label.Challenges]) (by simp)
  | _ => exact hacts (by simp [Label.Challenges]) (by simp)

end Machine

end Kestrel
