import Kestrel.Endpoint.Carriage
import Kestrel.Endpoint.EndOfStream
import Kestrel.Endpoint.Fin
import Kestrel.Stream.Deadlock
import Kestrel.Stream.Receiver

/-! # Gaps in the numbers

A receiver takes the numbers one after another, so one that no item has stops the stream for good.
Path challenges take such numbers. In runs without them the receiver has got everything when every
frame has arrived.
-/

namespace Kestrel

namespace Endpoint

variable {C : Type} {t : Tick} {l : Label} {e e' : Endpoint C} {q : ℕ} {p : PacketOrFin}

/-- The items of the stream that got numbers, in order. -/
def itemsGiven (e : Endpoint C) : List PacketOrFin := e.history.numbered.filterMap Numbered.item?

theorem payloads_itemsGiven :
    payloads e.itemsGiven = e.history.numbered.filterMap Numbered.payload? := by
  rw [payloads, itemsGiven, List.filterMap_filterMap]
  congr 1
  ext x
  cases x <;> rfl

theorem itemsGiven_prefix (h : e.history.numbered <+: e'.history.numbered) :
    ∃ more, e'.itemsGiven = e.itemsGiven ++ more := by
  obtain ⟨more, hm⟩ := h
  exact ⟨more.filterMap Numbered.item?, by rw [itemsGiven, ← hm, List.filterMap_append]; rfl⟩

theorem Carried.map_itemsGiven (h : e.Carried) :
    e.itemsGiven.map some = e.history.numbered.map Numbered.item? := by
  rw [itemsGiven, List.map_filterMap_some_eq_filter_map_isSome, List.filter_eq_self]
  intro y hy
  obtain ⟨x, hx, rfl⟩ := List.mem_map.mp hy
  obtain ⟨q, hq⟩ := List.mem_iff_getElem?.mp hx
  obtain ⟨p, ⟨x', hx', hp⟩, -⟩ := h q (List.getElem?_eq_some_iff.mp hq).1
  rw [hq] at hx'
  cases hx'
  rw [hp]
  rfl

theorem Carried.getElem?_itemsGiven (h : e.Carried) : e.itemsGiven[q]? = some p ↔ e.Gave q p := by
  have hmap := congrArg (·[q]?) h.map_itemsGiven
  simp only [List.getElem?_map] at hmap
  constructor
  · intro hq
    rw [hq] at hmap
    exact Option.map_eq_some_iff.mp hmap.symm
  · intro hg
    rw [Option.map_eq_some_iff.mpr hg] at hmap
    obtain ⟨x, hx, hp⟩ := Option.map_eq_some_iff.mp hmap
    rw [hx, hp]

theorem Carried.length_itemsGiven (h : e.Carried) :
    e.itemsGiven.length = e.history.numbered.length := by
  have hlen := congrArg List.length h.map_itemsGiven
  rwa [List.length_map, List.length_map] at hlen

theorem FinLast.last_itemsGiven (h : e.FinLast) (hc : e.Carried) (q : ℕ)
    (hq : e.itemsGiven[q]? = some .fin) : q + 1 = e.itemsGiven.length := by
  obtain ⟨x, hx, hp⟩ := hc.getElem?_itemsGiven.mp hq
  rw [hc.length_itemsGiven]
  cases x with
  | fin b w => exact h.last q b w hx
  | push payload => cases hp
  | pathChallenge c => cases hp

theorem toStream_deliver (h : e.reliability.reassemble.1.isSome = true →
      e.txToStream = true ∧ t.streamOpen = true) :
    (e.deliver t).2.toStream.flatten =
      e.toStream.flatten ++ e.reliability.recvBuffer.reassemble.1.getD [] := by
  have hsame : e.reliability.reassemble.1 = e.reliability.recvBuffer.reassemble.1 := rfl
  unfold Endpoint.deliver
  dsimp only
  rw [hsame] at h ⊢
  cases hd : e.reliability.recvBuffer.reassemble.1 with
  | none => simp
  | some data =>
    rw [hd] at h
    obtain ⟨hheld, hopen⟩ := h rfl
    cases data with
    | nil => simp
    | cons x data => simp [hheld, hopen]

theorem Created.empty (h : e.Created) : e.history.numbered = [] ∧ e.toStream = [] ∧
    ∃ capacity, e.reliability.recvBuffer = .new capacity := by
  cases h with
  | client config a cid cc data t => cases data <;> exact ⟨rfl, rfl, _, rfl⟩
  | server config a cid peer cc t => exact ⟨rfl, rfl, _, rfl⟩

variable [CongestionControl C]

theorem Acts.recvBuffer_eq (h : Acts t l e e') (hl : ∀ f ∈ l.frame?, f.item? = none) :
    e'.reliability.recvBuffer = e.reliability.recvBuffer := by
  apply h.preserves (P := fun e' => e'.reliability.recvBuffer = e.reliability.recvBuffer) _ rfl
  intro e₁ e₂ he ha
  rcases ha.recvBuffer with hb | ⟨f, a, q, p, rfl, hf, -⟩
  · exact hb.trans he
  · rw [hl f rfl] at hf
    cases hf

theorem Acts.toStream_eq (h : Acts t l e e') : e'.toStream = e.toStream :=
  h.preserves (P := fun e' => e'.toStream = e.toStream) (fun _ _ he ha => ha.toStream_eq.trans he)
    rfl

theorem recvBuffer_sendStandaloneAck :
    (Outcome.last (e.sendStandaloneAck t)).reliability.recvBuffer = e.reliability.recvBuffer :=
  (acts_sendStandaloneAck (l := .poll t)).recvBuffer_eq (by simp [Label.frame?])

theorem recvBuffer_receiveFinThen {next : Endpoint C → Endpoint C}
    (hn : ∀ e', (next e').reliability.recvBuffer = e'.reliability.recvBuffer) :
    (Outcome.last (e.receiveFinThen t q next)).reliability.recvBuffer =
      (e.reliability.recvBuffer.receive q .fin).2 := by
  rw [← ReliabilityLayer.receive_recvBuffer]
  unfold receiveFinThen receiveFinAndAck ReliabilityLayer.receiveFin
  generalize e.reliability.receive q .fin = r
  obtain ⟨accepted, layer⟩ := r
  cases accepted with
  | false => rfl
  | true =>
    have hack := recvBuffer_sendStandaloneAck (t := t) (e := { e with reliability := layer })
    dsimp only
    generalize sendStandaloneAck t { e with reliability := layer } = x at hack ⊢
    cases x with
    | error r => exact hack
    | ok e' => exact (hn e').trans hack

theorem recvBuffer_processFrame {f : Frame} (hf : f.item? = some (q, p))
    (h : takes e.state p = true) (a : SocketAddr) :
    (Outcome.last (e.processFrame t f a)).reliability.recvBuffer =
      (e.reliability.recvBuffer.receive q p).2 := by
  have htry (s : ConnectionState) (e' : Endpoint C) :
      (e'.tryTransition s).reliability.recvBuffer = e'.reliability.recvBuffer := by
    rw [tryTransition_eq]
    split <;> rfl
  cases f with
  | push header payload =>
    cases hf
    change (Outcome.last (e.handlePushFrame t header payload)).reliability.recvBuffer = _
    have hack : (Outcome.last (e.receiveDataAndMaybeAck t header.sequenceNumber
        payload)).reliability.recvBuffer =
          (e.reliability.recvBuffer.receive header.sequenceNumber (.push payload)).2 := by
      rw [← ReliabilityLayer.receive_recvBuffer]
      unfold receiveDataAndMaybeAck ReliabilityLayer.receivePush
      generalize e.reliability.receive header.sequenceNumber (.push payload) = r
      obtain ⟨accepted, layer⟩ := r
      cases accepted with
      | false => rfl
      | true => exact recvBuffer_sendStandaloneAck
    unfold handlePushFrame
    split <;> rename_i hs
    · exact ReliabilityLayer.receive_recvBuffer _ _
    all_goals first
      | exact hack
      | simp [takes, hs] at h
  | fin header =>
    cases hf
    change (Outcome.last (e.handleFinFrame t header)).reliability.recvBuffer = _
    unfold handleFinFrame
    split <;> rename_i hs
    · exact recvBuffer_receiveFinThen (htry _)
    · exact recvBuffer_receiveFinThen fun _ => rfl
    · exact recvBuffer_receiveFinThen (htry _)
    · exact recvBuffer_receiveFinThen fun _ => rfl
    · apply recvBuffer_receiveFinThen
      intro e'
      split
      · exact htry _ e'
      · rfl
    all_goals simp [takes, hs] at h
  | _ => cases hf

theorem recvBuffer_routeFrame {f : Frame} (hf : f.item? = some (q, p))
    (h : takes e.state p = true) (ho : t.senderOpen = true) (a : SocketAddr) :
    (Outcome.last (e.routeFrame t f a)).reliability.recvBuffer =
      (e.reliability.recvBuffer.receive q p).2 := by
  unfold routeFrame checkPathMigration
  dsimp only
  split
  · rename_i hc
    rw [startPathValidation_eq, if_pos hc.2]
    dsimp only [bind, Except.bind]
    rw [sendFrameTo_eq, sending_of_senderOpen ho]
    exact recvBuffer_processFrame hf (by cases p <;> rfl) a
  · exact recvBuffer_processFrame (e := e.heard t.now) hf h a

end Endpoint

/-- No batch waits for its follow-up. -/
def Phase.Followed : Phase → Prop
  | .created | .waiting | .finished => True
  | .frames | .commands | .polled | .failed _ => False

namespace Machine

open Endpoint

variable {C : Type} {m m' : Machine C} {l : Label} {items : List PacketOrFin} {seen : List Frame}

/-- An item finds an endpoint that takes items, and what is reassembled finds the user's stream. -/
def Receptive (m : Machine C) : Label → Prop
  | .frame _ f _ =>
    f.item?.isSome = true → m.endpoint.state ≠ .connecting ∧ m.endpoint.state ≠ .closed
  | .followUp t =>
    m.endpoint.reliability.reassemble.1.isSome = true →
      m.endpoint.txToStream = true ∧ t.streamOpen = true
  | _ => True

instance (m : Machine C) : DecidablePred m.Receptive
  | .frame _ f _ => inferInstanceAs (Decidable (f.item?.isSome = true → _ ∧ _))
  | .followUp _ =>
    inferInstanceAs (Decidable (m.endpoint.reliability.reassemble.1.isSome = true → _ ∧ _))
  | .begin _ | .command .. | .poll _ | .fire .. | .dropReplaced _ => .isTrue trivial

/-- The receiver of a list of items holds them under their numbers, has recorded those that the
frames seen have brought, and has handed on everything up to the first one that is missing. -/
structure UpToDate (items : List PacketOrFin) (seen : List Frame) (m : Machine C) : Prop where
  follows : m.endpoint.reliability.recvBuffer.Follows items
  recorded : ∀ f ∈ seen, ∀ q p, f.item? = some (q, p) →
    items[q]? = some p ∧ m.endpoint.reliability.recvBuffer.Recorded q
  stream : m.endpoint.toStream.flatten =
    payloads (items.take m.endpoint.reliability.recvBuffer.nextSequence)
  drained : m.phase.Followed → m.endpoint.reliability.recvBuffer.finReached = false →
    m.endpoint.reliability.recvBuffer.received[
      m.endpoint.reliability.recvBuffer.nextSequence]? = none

theorem UpToDate.append (h : UpToDate items seen m) (more : List PacketOrFin) :
    UpToDate (items ++ more) seen m where
  follows := h.follows.append more
  recorded f hf q p hi := by
    obtain ⟨hq, hr⟩ := h.recorded f hf q p hi
    exact ⟨by rwa [List.getElem?_append_left (List.getElem?_eq_some_iff.mp hq).1], hr⟩
  stream := by rw [h.stream, List.take_append_of_le_length h.follows.next_le]
  drained := h.drained

variable [CongestionControl C]

theorem acts_follows {t : Tick} {e e' : Endpoint C} (ha : Acts t l e e')
    (h : e.reliability.recvBuffer.Follows items)
    (hl : ∀ f ∈ l.frame?, ∀ q p, f.item? = some (q, p) → items[q]? = some p) :
    e'.reliability.recvBuffer.Follows items ∧
      e'.reliability.recvBuffer.nextSequence = e.reliability.recvBuffer.nextSequence ∧
        ∀ q, e.reliability.recvBuffer.Recorded q → e'.reliability.recvBuffer.Recorded q := by
  apply ha.preserves (P := fun e' => e'.reliability.recvBuffer.Follows items ∧
    e'.reliability.recvBuffer.nextSequence = e.reliability.recvBuffer.nextSequence ∧
      ∀ q, e.reliability.recvBuffer.Recorded q → e'.reliability.recvBuffer.Recorded q)
  · rintro e₁ e₂ ⟨hf, hn, hr⟩ ha
    rcases ha.recvBuffer with hb | ⟨f, a, q, p, rfl, hi, hb⟩
    · rw [hb]
      exact ⟨hf, hn, hr⟩
    · rw [hb]
      refine ⟨hf.receive (hl f rfl q p hi), ?_, fun k hk => (hr k hk).receive q p⟩
      rw [ReceiveBuffer.receive_nextSequence, hn]
  · exact ⟨h, rfl, fun _ hq => hq⟩

theorem recorded_of_frame {t : Tick} {f : Frame} {a : SocketAddr} {q : ℕ} {p : PacketOrFin}
    (hr : (system C).Reachable m) (h : m.endpoint.reliability.recvBuffer.Follows items)
    (hfin : ∀ q, items[q]? = some .fin → q + 1 = items.length)
    (hq : items[q]? = some p) (hf : f.item? = some (q, p))
    (hs : m.endpoint.state ≠ .connecting ∧ m.endpoint.state ≠ .closed)
    (ho : t.senderOpen = true) :
    (Outcome.last (m.endpoint.routeFrame t f a)).reliability.recvBuffer.Recorded q := by
  cases htakes : takes m.endpoint.state p with
  | true =>
    rw [recvBuffer_routeFrame hf htakes ho]
    exact h.recorded_receive hfin hq
  | false =>
    obtain ⟨rfl, hwait⟩ : p = .fin ∧ m.endpoint.state = .closingWait := by
      cases p with
      | push payload => simp [takes, hs] at htakes
      | fin => simpa [takes, hs] using htakes
    have hold : m.endpoint.reliability.recvBuffer.Recorded q := by
      rcases finReceived hr (Or.inr hwait) with hreached | ⟨k, hk⟩
      · left
        rw [h.nextSequence_of_finReached hfin hreached]
        exact (List.getElem?_eq_some_iff.mp hq).1
      · have hkq := hfin k (h.buffered k .fin hk)
        rw [← hfin q hq, Nat.add_right_cancel_iff] at hkq
        exact Or.inr ⟨.fin, hkq ▸ hk⟩
    refine (acts_follows (acts_routeFrame rfl) h ?_).2.2 q hold
    intro f' hf' k x hx
    cases hf'
    rw [hf] at hx
    cases hx
    exact hq

/-- A receptive step over an open socket leaves the receiver up to date. -/
theorem UpToDate.step (h : UpToDate items seen m) (hr : (system C).Reachable m)
    (hn : m.next l = some m') (hg : Receptive m l) (ho : ∀ t ∈ l.tick?, t.senderOpen = true)
    (hlen : items.length < u32Size) (hfin : ∀ q, items[q]? = some .fin → q + 1 = items.length)
    (hl : ∀ f ∈ l.frame?, ∀ q p, f.item? = some (q, p) → items[q]? = some p) :
    UpToDate items (seen ++ l.frame?.toList) m' := by
  -- without a frame, acting keeps everything once the phase is known
  have hquiet (hf : l.frame? = none) {t : Tick} {e : Endpoint C} {ph : Phase}
      (he : UpToDate items seen ⟨e, ph⟩) (ha : Acts t l e m'.endpoint)
      (hph : m'.phase.Followed → ph.Followed) : UpToDate items (seen ++ l.frame?.toList) m' := by
    have hb := ha.recvBuffer_eq (by simp [hf])
    rw [hf, Option.toList_none, List.append_nil]
    constructor
    · rw [hb]
      exact he.follows
    · rw [hb]
      exact he.recorded
    · rw [hb, ha.toStream_eq]
      exact he.stream
    · rw [hb]
      exact fun hp => he.drained (hph hp)
  cases l with
  | begin t =>
    simp only [next, Option.ite_none_right_eq_some, Option.some.injEq] at hn
    rw [← hn.2] at hquiet ⊢
    apply hquiet rfl h
    · rw [settle_endpoint]
      exact acts_begin rfl
    · rw [hn.1]
      exact fun _ => trivial
  | command t c =>
    simp only [next, Option.ite_none_right_eq_some, Option.some.injEq] at hn
    rw [← hn.2] at hquiet ⊢
    apply hquiet rfl h
    · rw [settle_endpoint]
      exact acts_handleStreamCommand rfl
    · cases m.endpoint.handleStreamCommand t c <;> exact False.elim
  | poll t =>
    simp only [next, Option.ite_none_right_eq_some, Option.some.injEq] at hn
    rw [← hn.2] at hquiet ⊢
    apply hquiet rfl h
    · rw [settle_endpoint]
      exact acts_checkAllTimeouts rfl
    · cases m.endpoint.checkAllTimeouts t <;> exact False.elim
  | frame t f a =>
    simp only [next, Option.ite_none_right_eq_some, Option.some.injEq] at hn
    have ha : Acts t (.frame t f a) m.endpoint (Outcome.last (m.endpoint.routeFrame t f a)) :=
      acts_routeFrame rfl
    obtain ⟨hfollows, hnext, hrec⟩ := acts_follows ha h.follows hl
    rw [← hn.2]
    constructor
    · rw [settle_endpoint]
      exact hfollows
    · rw [settle_endpoint]
      intro f' hf' q p hi
      rcases List.mem_append.mp hf' with hf' | hf'
      · obtain ⟨hq, hold⟩ := h.recorded f' hf' q p hi
        exact ⟨hq, hrec q hold⟩
      · obtain rfl : f' = f := List.mem_singleton.mp hf'
        have hq := hl f' rfl q p hi
        exact ⟨hq, recorded_of_frame hr h.follows hfin hq hi (hg (by rw [hi]; rfl)) (ho t rfl)⟩
    · rw [settle_endpoint, ha.toStream_eq, hnext]
      exact h.stream
    · cases m.endpoint.routeFrame t f a <;> exact False.elim
  | followUp t =>
    simp only [next, Option.ite_none_right_eq_some, Option.some.injEq] at hn
    have hre := h.follows.reassembled hlen
    have hbuffer : (m.endpoint.deliver t).2.reliability.recvBuffer =
        m.endpoint.reliability.recvBuffer.reassemble.2.2 := by
      obtain ⟨data, held, hd⟩ := deliver_eq (t := t) (e := m.endpoint)
      rw [hd]
      rfl
    have hdelivered : UpToDate items seen ⟨(m.endpoint.deliver t).2, .waiting⟩ := by
      constructor
      · rw [hbuffer]
        exact hre.follows
      · rw [hbuffer]
        intro f hf q p hi
        obtain ⟨hq, hold⟩ := h.recorded f hf q p hi
        have hlt := (List.getElem?_eq_some_iff.mp hq).1
        exact ⟨hq, hre.recorded_of_recorded hfin hlt hold⟩
      · rw [hbuffer, hre.payloads_eq, toStream_deliver hg, h.stream]
      · rw [hbuffer]
        exact fun _ => hre.drained
    rw [← hn.2] at hquiet ⊢
    exact hquiet rfl hdelivered (acts_followUp rfl) fun _ => trivial
  | fire id now | dropReplaced id =>
    simp only [next, Option.some.injEq] at hn
    rw [← hn]
    change UpToDate items (seen ++ []) _
    rw [List.append_nil]
    exact { h with }

end Machine

namespace Link

open Endpoint

variable {S R : Type} [CongestionControl S] [CongestionControl R] {x x' : Link S R} {i : Event}

/-- The sender's socket takes what it is given, no path validation starts there, and its FIN fits.
The receiver's socket takes what it is given, and the receiver takes what arrives. -/
def Unbroken (x : Link S R) : Event → Prop
  | .sender l => x.sender.Unhindered l ∧ x.sender.FinFitsStep l
  | .receiver l => x.receiver.Receptive l ∧ ∀ t ∈ l.tick?, t.senderOpen = true

instance (x : Link S R) : DecidablePred x.Unbroken
  | .sender _ => inferInstanceAs (Decidable (_ ∧ _))
  | .receiver _ => inferInstanceAs (Decidable (_ ∧ ∀ t ∈ _, _))

/-- No number of the sender stops the stream: an item has it, and a frame that was sent brings it;
a step keeps what it gives a number to; the receiver has recorded what has arrived; and when all
that was sent has arrived and been reassembled, the receiver is where the sender is. -/
structure NoGap (x : Link S R) : Prop where
  carried : ∀ q < x.sender.endpoint.reliability.sequenceNumberCounter,
    ∃ p, x.sender.endpoint.Gave q p ∧
      ∃ f ∈ x.sender.endpoint.framesSent, f.item? = some (q, p)
  tracked : ∀ l m, x.sender.next l = some m → x.sender.Unhindered l →
    m.endpoint.history.numbered.length < u32Size →
      ∀ q, x.sender.endpoint.reliability.sequenceNumberCounter ≤ q →
        q < m.endpoint.reliability.sequenceNumberCounter →
          ∃ p, m.endpoint.Gave q p ∧
            m.endpoint.reliability.retransmissionManager.Keeps q (.ofItem q p)
  recorded : ∀ f ∈ x.toReceiver, ∀ q p, f.item? = some (q, p) →
    x.receiver.endpoint.reliability.recvBuffer.Recorded q
  complete : x.receiver.phase.Followed → x.sender.endpoint.framesSent ⊆ x.toReceiver →
    x.receiver.endpoint.reliability.recvBuffer.nextSequence =
        x.sender.endpoint.reliability.sequenceNumberCounter ∧
      x.receiver.endpoint.toStream.flatten = x.sender.endpoint.reliability.packetized

/-- The sender's numbers are carried, and the receiver is up to date with them. -/
structure InOrder (x : Link S R) : Prop where
  explained : x.sender.endpoint.Explained
  upToDate : x.sender.endpoint.history.numbered.length < u32Size →
    Machine.UpToDate x.sender.endpoint.itemsGiven x.toReceiver x.receiver

theorem finLast_of_unbroken (h : (systemWith (S := S) (R := R) Unbroken).Reachable x) :
    x.sender.endpoint.FinLast := by
  have hrun : (Machine.systemWith (C := S) Machine.FinFitsStep).Reachable x.sender := by
    induction h with
    | init h => exact .init h.sender
    | @step x x' i _ hs ih =>
      obtain ⟨hn, hg⟩ := hs
      cases i with
      | sender l =>
        obtain ⟨-, m, hm, rfl⟩ := next_sender.mp hn
        exact ih.step ⟨hm, hg.2⟩
      | receiver l =>
        obtain ⟨-, m, -, rfl⟩ := next_receiver.mp hn
        exact ih
  exact Machine.finLast hrun

omit [CongestionControl S] [CongestionControl R] in
theorem Created.inOrder (h : x.Created) : x.InOrder where
  explained _ := by
    refine ⟨h.sender.2.numbering, ?_⟩
    intro q hq
    rw [h.sender.2.empty.1] at hq
    cases hq
  upToDate _ := by
    obtain ⟨-, hstream, capacity, hbuffer⟩ := h.receiver.2.empty
    constructor
    · rw [hbuffer]
      exact ReceiveBuffer.follows_new _ capacity
    · rw [h.toReceiver]
      simp
    · rw [hbuffer, hstream]
      rfl
    · rw [hbuffer]
      simp [ReceiveBuffer.new]

theorem InOrder.step (h : x.InOrder) (hr : (systemWith Unbroken).Reachable x)
    (hn : x.next i = some x') (hg : x.Unbroken i) : x'.InOrder := by
  cases i with
  | sender l =>
    obtain ⟨-, m, hm, rfl⟩ := next_sender.mp hn
    have hpre := Machine.numbered_mono hm
    constructor
    · exact Machine.explained_step hm hg.1 h.explained
    · intro hlen
      obtain ⟨more, hmore⟩ := itemsGiven_prefix hpre
      dsimp only
      rw [hmore]
      exact (h.upToDate (hpre.length_le.trans_lt hlen)).append more
  | receiver l =>
    obtain ⟨hf, m, hm, rfl⟩ := next_receiver.mp hn
    constructor
    · exact h.explained
    · intro hlen
      obtain ⟨hnum, hc⟩ := h.explained hlen
      apply (h.upToDate hlen).step (reachable_parts hr.of_restrict).2 hm hg.1 hg.2
      · rwa [hc.length_itemsGiven]
      · exact (finLast_of_unbroken hr).last_itemsGiven hc
      · intro f hl q p hi
        exact hc.getElem?_itemsGiven.mpr (hnum.sent f (hf f hl) q p hi)

theorem inOrder (h : (systemWith (S := S) (R := R) Unbroken).Reachable x) : x.InOrder := by
  have hinv : (systemWith (S := S) (R := R) Unbroken).Invariant InOrder :=
    { init := fun x hx => Created.inOrder hx
      step := fun x i x' hr hx hs => hx.step hr hs.1 hs.2 }
  exact hinv.holds h

omit [CongestionControl S] [CongestionControl R] in
theorem InOrder.complete (h : x.InOrder) (hfin : x.sender.endpoint.FinLast)
    (hcons : x.sender.endpoint.Conserved)
    (hlen : x.sender.endpoint.history.numbered.length < u32Size)
    (hphase : x.receiver.phase.Followed) (hall : x.sender.endpoint.framesSent ⊆ x.toReceiver) :
    x.receiver.endpoint.reliability.recvBuffer.nextSequence =
        x.sender.endpoint.reliability.sequenceNumberCounter ∧
      x.receiver.endpoint.toStream.flatten = x.sender.endpoint.reliability.packetized := by
  obtain ⟨hnum, hc⟩ := h.explained hlen
  have hup := h.upToDate hlen
  have hnext : x.receiver.endpoint.reliability.recvBuffer.nextSequence =
      x.sender.endpoint.itemsGiven.length := by
    apply hup.follows.complete (hfin.last_itemsGiven hc) (hup.drained hphase)
    intro q hq
    rw [hc.length_itemsGiven] at hq
    obtain ⟨p, -, f, hf, hi⟩ := hc q hq
    exact (hup.recorded f (hall hf) q p hi).2
  constructor
  · rw [hnext, hc.length_itemsGiven, hnum.counter_eq]
  · rw [hup.stream, hnext, List.take_length, payloads_itemsGiven, hcons.packetized_eq]

/-- In every run in which no validation takes a number, the FIN fits and both sides can work, the
numbers of the sender leave the receiver no gap. -/
theorem numbers_leave_no_gap (h : (systemWith (S := S) (R := R) Unbroken).Reachable x)
    (hlen : x.sender.endpoint.history.numbered.length < u32Size) : x.NoGap := by
  have hi := inOrder h
  obtain ⟨hnum, hc⟩ := hi.explained hlen
  constructor
  · rw [hnum.counter_eq]
    exact hc
  · intro l m hm hu hlen' q hge hlt
    obtain ⟨hnum', hc'⟩ := Machine.explained_step hm hu hi.explained hlen'
    rw [hnum.counter_eq] at hge
    rw [hnum'.counter_eq] at hlt
    obtain ⟨p, hp, -⟩ := hc' q hlt
    exact ⟨p, hp, Machine.kept_of_next hm hi.explained hlen' hge hp⟩
  · intro f hf q p hq
    exact ((hi.upToDate hlen).recorded f hf q p hq).2
  · exact hi.complete (finLast_of_unbroken h)
      (Machine.conserved (reachable_parts h.of_restrict).1) hlen

section Sample

open Machine

def openingRun : List Event :=
  [.sender (.begin (tick 0)), .receiver (.begin (tick 0)),
    .receiver (.frame (tick 1) (.newSyn 1 1 0) 81), .receiver (.followUp (tick 1)),
    .receiver (.command (tick 2) (.sendData [5])), .receiver (.followUp (tick 2)),
    .sender (.frame (tick 3) (.newSynAck 1 2 1) 80), .sender (.followUp (tick 3))]

def sendingRun : List Event :=
  openingRun ++
    [.sender (.command (tick 4) (.sendData [7])), .sender (.followUp (tick 4)),
      .receiver (.frame (tick 5) (.newPush 2 0 0 256 0 [7]) 81), .receiver (.followUp (tick 5))]

/-- The client moves to another path and then sends the byte. -/
def movingThenSending : List Event :=
  openingRun ++
    [.sender (.command (tick 4) (.migrate 82 .detached)), .sender (.followUp (tick 4)),
      .receiver (.frame (tick 5) (.newPathChallenge 2 0 0 0) 81), .receiver (.followUp (tick 5)),
      .sender (.frame (tick 6) (.newPathResponse 1 0 0 0) 82), .sender (.followUp (tick 6)),
      .sender (.command (tick 7) (.sendData [7])), .sender (.followUp (tick 7)),
      .receiver (.frame (tick 8) (.newPush 2 1 0 256 0 [7]) 81), .receiver (.followUp (tick 8))]

/-- Without a change of the path the byte arrives. -/
theorem numbers_leave_no_gap_sample : ∃ x : Link Vegas Vegas,
    x.sender.endpoint.framesSent ⊆ x.toReceiver ∧
      x.receiver.endpoint.toStream.flatten = [[7]] ∧ x.NoGap := by
  obtain ⟨x, hr, hall, hstream, hlen⟩ : ∃ x, (systemWith Unbroken).Run sendingRun x ∧
      x.sender.endpoint.framesSent ⊆ x.toReceiver ∧
        x.receiver.endpoint.toStream.flatten = [[7]] ∧
          x.sender.endpoint.history.numbered.length < u32Size :=
    TransitionSystem.exists_restrict_run_of_foldlM _ (tinyLink_created 8) (by decide)
  exact ⟨x, hall, hstream, numbers_leave_no_gap hr.reachable hlen⟩

/-- With one, the challenge has taken the number before it: every frame has arrived, and the
receiver waits for what no frame brings. -/
theorem challenge_leaves_gap : ∃ x, (system Vegas Vegas).Run movingThenSending x ∧ ¬ x.NoGap ∧
    x.sender.endpoint.framesSent ⊆ x.toReceiver ∧ x.receiver.phase = .waiting ∧
      x.sender.endpoint.history.numbered = [.pathChallenge 0, .push [7]] ∧
        x.receiver.endpoint.reliability.recvBuffer.nextSequence = 0 ∧
          x.receiver.endpoint.toStream = [] := by
  obtain ⟨x, hr, hall, hphase, hnum, hcounter, hnext, hstream⟩ : ∃ x,
      (system Vegas Vegas).Run movingThenSending x ∧
        x.sender.endpoint.framesSent ⊆ x.toReceiver ∧ x.receiver.phase = .waiting ∧
          x.sender.endpoint.history.numbered = [.pathChallenge 0, .push [7]] ∧
            x.sender.endpoint.reliability.sequenceNumberCounter = 2 ∧
              x.receiver.endpoint.reliability.recvBuffer.nextSequence = 0 ∧
                x.receiver.endpoint.toStream = [] :=
    TransitionSystem.exists_run_of_foldlM _ (tinyLink_created 8) (by decide)
  refine ⟨x, hr, ?_, hall, hphase, hnum, hnext, hstream⟩
  intro hno
  have hsame := (hno.complete (by rw [hphase]; trivial) hall).1
  rw [hnext, hcounter] at hsame
  cases hsame

end Sample

end Link

end Kestrel
