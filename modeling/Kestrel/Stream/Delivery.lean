import Kestrel.Endpoint.Closing
import Kestrel.Stream.Gaps
import Kestrel.Stream.LongRuns

/-! # Delivery

What one endpoint has handed to its user and what it has acknowledged, against what the other one
has numbered, in every run of the two: through the handshake, changes of the path, losses of the
user's stream and the end of either side.
-/

namespace Kestrel

/-- The item that comes under a number, with a payload of no bytes for the numbers that no item
has. -/
def Numbered.place (x : Numbered) : PacketOrFin := x.item?.getD (.push [])

namespace Endpoint

variable {C : Type} {t : Tick} {l : Label} {e e' : Endpoint C} {q : ℕ} {p : PacketOrFin}
  {items : List PacketOrFin} {seen : List Frame}

/-- The numbers given out, as places in the peer's receive buffer. -/
def places (e : Endpoint C) : List PacketOrFin := e.history.numbered.map Numbered.place

theorem Gave.place (h : e.Gave q p) : e.places[q]? = some p := by
  obtain ⟨x, hx, hp⟩ := h
  rw [places, List.getElem?_map, hx, Option.map_some, Numbered.place, hp, Option.getD_some]

theorem places_mono (h : e.history.numbered <+: e'.history.numbered) :
    ∃ more, e'.places = e.places ++ more := by
  obtain ⟨more, hm⟩ := h
  exact ⟨more.map Numbered.place, by rw [places, ← hm, List.map_append]; rfl⟩

theorem payloads_take_places {n : ℕ} (h : ∀ q < n, ∃ p, e.Gave q p) :
    payloads (e.places.take n) = (e.history.numbered.take n).filterMap Numbered.payload? := by
  rw [payloads, places, ← List.map_take, List.filterMap_map]
  refine List.filterMap_congr fun x hx => ?_
  obtain ⟨q, hlt, rfl⟩ := List.mem_iff_getElem.mp hx
  rw [List.length_take, lt_min_iff] at hlt
  obtain ⟨p, y, hy, hp⟩ := h q hlt.1
  rw [List.getElem?_eq_getElem hlt.2, Option.some_inj] at hy
  rw [List.getElem_take, hy]
  cases y with
  | pathChallenge c => cases hp
  | _ => rfl

/-- One of the frames brings an item under the number. -/
def Brought (seen : List Frame) (q : ℕ) : Prop := ∃ f ∈ seen, ∃ p, f.item? = some (q, p)

theorem Brought.append (h : Brought seen q) (more : List Frame) : Brought (seen ++ more) q := by
  obtain ⟨f, hf, hi⟩ := h
  exact ⟨f, List.mem_append_left _ hf, hi⟩

/-- A receiver of numbered items, told by the frames it has seen: its buffer holds items under
their numbers and nothing that was not brought, its acknowledgments name what it has recorded, and
its user was given the payloads in order; as long as the user's stream is held, all of them. -/
structure Trails (items : List PacketOrFin) (seen : List Frame) (e : Endpoint C) : Prop where
  follows : e.reliability.recvBuffer.Follows items
  brought : ∀ q, e.reliability.recvBuffer.Recorded q → Brought seen q
  acks : ∀ f ∈ e.acksSent, ∀ q, f.Acks q → Brought seen q ∧
    (e.reliability.recvBuffer.Recorded q ∨ e.reliability.recvBuffer.finReached = true)
  stream : ∃ n ≤ e.reliability.recvBuffer.nextSequence,
    e.toStream.flatten = payloads (items.take n) ∧
      (e.txToStream = true → n = e.reliability.recvBuffer.nextSequence)

theorem Trails.append (h : Trails items seen e) (more : List PacketOrFin) (new : List Frame) :
    Trails (items ++ more) (seen ++ new) e where
  follows := h.follows.append more
  brought q hq := (h.brought q hq).append new
  acks f hf q hq := (h.acks f hf q hq).imp_left (·.append new)
  stream := by
    obtain ⟨n, hn, hs, hheld⟩ := h.stream
    exact ⟨n, hn, by rw [List.take_append_of_le_length (hn.trans h.follows.next_le), hs], hheld⟩

theorem Trails.stream_of_held (h : Trails items seen e) (he : e.txToStream = true) :
    e.toStream.flatten =
      payloads (items.take e.reliability.recvBuffer.nextSequence) := by
  obtain ⟨n, -, hs, hheld⟩ := h.stream
  rw [hs, hheld he]

theorem Trails.keysFit (h : Trails items seen e) (hlen : items.length < u32Size) :
    e.reliability.recvBuffer.KeysFit := by
  intro q p hq
  exact lt_trans (List.getElem?_eq_some_iff.mp (h.follows.buffered q p hq)).1 hlen

theorem toStream_of_not_held (h : (e.deliver t).2.txToStream = false) :
    (e.deliver t).2.toStream = e.toStream := by
  unfold Endpoint.deliver at h ⊢
  dsimp only at h ⊢
  split
  · rfl
  · rename_i hn
    rw [if_neg hn] at h
    split
    · rename_i ho
      simp only [Bool.or_eq_true, Bool.not_eq_true', not_or, Bool.not_eq_false] at hn
      rw [if_pos ho] at h
      exact absurd (hn.2.symm.trans h) (by simp)
    · rfl

/-- Reassembling hands over the payloads that follow, to a user that listens. -/
theorem Trails.deliver (h : Trails items seen e) (hlen : items.length < u32Size) :
    Trails items seen (e.deliver t).2 := by
  have hre := h.follows.reassembled hlen
  have hheld := deliver_stream (t := t) (e := e)
  have hlost := toStream_of_not_held (t := t) (e := e)
  have hbuffer : (e.deliver t).2.reliability.recvBuffer =
      e.reliability.recvBuffer.reassemble.2.2 := by
    obtain ⟨data, held, hd⟩ := deliver_eq (t := t) (e := e)
    rw [hd]
    rfl
  have hsent : (e.deliver t).2.acksSent = e.acksSent := by
    obtain ⟨data, held, hd⟩ := deliver_eq (t := t) (e := e)
    rw [hd]
    rfl
  constructor
  · rw [hbuffer]
    exact hre.follows
  · rw [hbuffer]
    exact fun q hq => h.brought q (ReceiveBuffer.recorded_of_reassemble hq)
  · rw [hbuffer, hsent]
    intro f hf q hq
    obtain ⟨hb, hrec⟩ := h.acks f hf q hq
    refine ⟨hb, ?_⟩
    rw [hre.fin_iff]
    cases hfin : e.reliability.recvBuffer.reassemble.2.1 with
    | true => exact Or.inr (Bool.or_true _)
    | false =>
      rw [Bool.or_false]
      exact hrec.imp_left (hre.recorded hfin q)
  · rw [hbuffer]
    cases hx : (e.deliver t).2.txToStream with
    | true =>
      obtain ⟨he, hs⟩ := hheld hx
      exact ⟨_, le_rfl, by rw [hs, h.stream_of_held he, hre.payloads_eq], fun _ => rfl⟩
    | false =>
      obtain ⟨n, hn, hs, -⟩ := h.stream
      exact ⟨n, hn.trans hre.next_le, by rw [hlost hx, hs], fun hc => by cases hc⟩

theorem Created.acksSent (h : e.Created) : e.acksSent = [] := by
  cases h with
  | client config a cid cc data t => cases data <;> rfl
  | server config a cid peer cc t => rfl

theorem Created.trails (h : e.Created) : Trails items seen e := by
  obtain ⟨-, hstream, capacity, hbuffer⟩ := h.empty
  constructor
  · rw [hbuffer]
    exact ReceiveBuffer.follows_new _ capacity
  · rw [hbuffer]
    intro q hq
    simp [ReceiveBuffer.Recorded, ReceiveBuffer.new] at hq
  · rw [h.acksSent]
    intro f hf
    cases hf
  · rw [hbuffer, hstream]
    exact ⟨0, le_rfl, rfl, fun _ => rfl⟩

variable [CongestionControl C]

/-- The acknowledgments sent in an action name what was recorded before it. -/
theorem Act.acksSent (h : Act t l e e') : e'.acksSent = e.acksSent ∨
    e'.acksSent = e.acksSent ++ [e.createAckFrame t] := by
  cases h with
  | challenge a n hs hl => exact Or.inl (acksSent_emit_of_not (by simp [createPathChallengeFrame,
      Frame.newPathChallenge, Frame.isAck]))
  | acknowledge hp =>
    rw [acksSent_emit]
    split
    · exact Or.inr rfl
    · exact Or.inl (List.append_nil _)
  | control bs hc =>
    left
    apply acksSent_emit_of_not
    intro f hf
    have := hc f hf
    cases f <;> first | rfl | cases this
  | resend bs hr =>
    left
    apply acksSent_emit_of_not
    intro f hf
    obtain ⟨q, i, c, -, rfl⟩ := hr f hf
    exact Frame.isAck_reconstructFrame _ _ _
  | packetize chunks b lead bs hs hp hlead hb =>
    left
    obtain ⟨hsent, hfin⟩ := acksSent_createFin (t := t) (e := e.cut t chunks b)
    refine (acksSent_emit_of_not ?_).trans hsent
    intro f hf
    rw [hb, List.mem_append, List.mem_append] at hf
    rcases hf with (hf | hf) | hf
    · have := hlead f hf
      cases f <;> first | rfl | cases this
    · exact isAck_pushes chunks f hf
    · exact hfin f hf
  | sendEof hl =>
    left
    unfold Endpoint.sendEof
    split <;> rfl
  | _ => exact Or.inl rfl

/-- An action that takes nothing but items under their numbers, seen before, keeps the receiver on
the trail. -/
theorem Act.trails (h : Act t l e e') (hi : Trails items seen e) (hlen : items.length < u32Size)
    (hl : ∀ f ∈ l.frame?, f ∈ seen ∧ ∀ q p, f.item? = some (q, p) → items[q]? = some p) :
    Trails items seen e' := by
  -- what was recorded stays so, and what is new was brought
  have hbuffer : e'.reliability.recvBuffer.Follows items ∧
      e'.reliability.recvBuffer.nextSequence = e.reliability.recvBuffer.nextSequence ∧
        (∀ q, e.reliability.recvBuffer.Recorded q → e'.reliability.recvBuffer.Recorded q) ∧
          ∀ q, e'.reliability.recvBuffer.Recorded q → Brought seen q := by
    rcases h.recvBuffer with hb | ⟨f, a, q, p, rfl, hf, hb⟩
    · rw [hb]
      exact ⟨hi.follows, rfl, fun _ hq => hq, hi.brought⟩
    · obtain ⟨hseen, hitems⟩ := hl f rfl
      rw [hb, ReceiveBuffer.receive_nextSequence]
      refine ⟨hi.follows.receive (hitems q p hf), rfl, fun k hk => hk.receive q p, ?_⟩
      rintro k (hk | ⟨y, hy⟩)
      · rw [ReceiveBuffer.receive_nextSequence] at hk
        exact hi.brought k (Or.inl hk)
      · rcases ReceiveBuffer.receive_getElem? hy with hy | ⟨rfl, rfl, -⟩
        · exact hi.brought k (Or.inr ⟨y, hy⟩)
        · exact ⟨f, hseen, _, hf⟩
  obtain ⟨hfollows, hnext, hkeeps, hbrought⟩ := hbuffer
  refine ⟨hfollows, hbrought, ?_, ?_⟩
  · have hold (f : Frame) (hf : f ∈ e.acksSent) (q : ℕ) (hq : f.Acks q) : Brought seen q ∧
        (e'.reliability.recvBuffer.Recorded q ∨ e'.reliability.recvBuffer.finReached = true) := by
      rw [h.finReached_eq]
      exact (hi.acks f hf q hq).imp_right (Or.imp_left (hkeeps q))
    rcases h.acksSent with ha | ha
    · rw [ha]
      exact hold
    · rw [ha]
      intro f hf q hq
      rcases List.mem_append.mp hf with hf | hf
      · exact hold f hf q hq
      · obtain rfl := List.mem_singleton.mp hf
        have hrec := (acks_createAckFrame (hi.keysFit hlen)).mp hq
        exact ⟨hi.brought q hrec, Or.inl (hkeeps q hrec)⟩
  · obtain ⟨n, hn, hs, hheld⟩ := hi.stream
    rw [hnext, h.toStream_eq]
    exact ⟨n, hn, hs, fun he => hheld (h.held he)⟩

/-- The acknowledgments that were processed come from ACK frames among those seen. -/
def AcksSeen (seen : List Frame) (e : Endpoint C) : Prop :=
  ∀ a ∈ e.history.acks, ∃ header payload, .ack header payload ∈ seen ∧
    a = (header.recvNextSequence, decodeSackRanges payload)

omit [CongestionControl C] in
theorem AcksSeen.acks (h : AcksSeen seen e) (hq : e.Acked q) : ∃ f ∈ seen, f.Acks q := by
  obtain ⟨a, ha, hn⟩ := hq
  obtain ⟨header, payload, hf, rfl⟩ := h a ha
  exact ⟨_, hf, hn⟩

theorem Act.acksSeen (h : Act t l e e') (hi : AcksSeen seen e)
    (hl : ∀ f ∈ l.frame?, f ∈ seen) : AcksSeen seen e' := by
  cases h with
  | processAck header payload a r cc hf hs =>
    subst hf
    intro x hx
    rcases List.mem_append.mp hx with hx | hx
    · exact hi x hx
    · exact ⟨header, payload, hl _ rfl, List.mem_singleton.mp hx⟩
  | packetize chunks b lead bs hs hp hlead hb =>
    change AcksSeen seen ((e.cut t chunks b).createFin t).2
    unfold Endpoint.createFin
    split <;> exact hi
  | sendEof hl =>
    unfold Endpoint.sendEof
    split <;> exact hi
  | _ => exact hi

omit [CongestionControl C] in
theorem Numbering.acked (h : e.Numbering) (hidle : e.reliability.isInFlightEmpty = true)
    (hs : e.state ≠ .closed) {b : Bytes} (hq : e.history.numbered[q]? = some (.push b)) :
    e.Acked q := by
  rcases h.unacked q b hq with hk | ha | hc
  · rw [ReliabilityLayer.isInFlightEmpty, RetransmissionManager.isAllInFlightEmpty_iff] at hidle
    exact absurd (Or.inl hk) (hidle q _)
  · exact ha
  · exact absurd hc hs

/-- What was written before a FIN is in the payloads with smaller numbers and in what waited. -/
def FinsCut (e : Endpoint C) : Prop :=
  ∀ q b w, e.FinAt q b w → 1 ≤ e.reliability.config.connection.maxPayloadSize →
    b = ((e.history.numbered.take q).filterMap Numbered.payload?).flatten ++ w

omit [CongestionControl C] in
theorem FinsCut.append (h : e.FinsCut) {more : List Numbered}
    (hn : e'.history.numbered = e.history.numbered ++ more)
    (hm : ∀ x ∈ more, x.isFin = false)
    (hc : e'.reliability.config = e.reliability.config) : e'.FinsCut := by
  intro q b w hq hpos
  rw [FinAt, hn] at hq
  rcases lt_or_ge q e.history.numbered.length with hlt | hge
  · rw [List.getElem?_append_left hlt] at hq
    rw [hn, List.take_append_of_le_length hlt.le]
    exact h q b w hq (hc ▸ hpos)
  · rw [List.getElem?_append_right hge] at hq
    have := hm _ (List.mem_of_getElem? hq)
    cases this

omit [CongestionControl C] in
theorem FinsCut.createFin (h : e.FinsCut) (hc : e.Conserved) : (e.createFin t).2.FinsCut := by
  unfold Endpoint.createFin
  split
  · intro q b w hq hpos
    rw [FinAt] at hq
    dsimp only at hq ⊢
    rcases lt_or_ge q e.history.numbered.length with hlt | hge
    · rw [List.getElem?_append_left hlt] at hq
      rw [List.take_append_of_le_length hlt.le]
      exact h q b w hq hpos
    · rw [List.getElem?_append_right hge, List.getElem?_singleton] at hq
      split at hq
      · cases hq
        obtain rfl : q = e.history.numbered.length := by omega
        rw [List.take_left, ← hc.packetized_eq]
        exact hc.written_eq hpos
      · cases hq
  · exact h

theorem Act.finsCut (h : Act t l e e') (hi : e.FinsCut) (hc : e.Conserved) : e'.FinsCut := by
  cases h with
  | challenge a n hs hl =>
    have hnew : ∀ x ∈ [Numbered.pathChallenge t.challenge], x.isFin = false := by
      simp [Numbered.isFin]
    exact hi.append rfl hnew rfl
  | packetize chunks b lead bs hs hp hlead hb =>
    have hnew : ∀ x ∈ chunks.map Numbered.push, x.isFin = false := by simp [Numbered.isFin]
    have hcut : (e.cut t chunks b).FinsCut := hi.append rfl hnew rfl
    exact hcut.createFin (hc.cut hp)
  | receive f a q p hl hf hs =>
    cases ha : e.reliability.recvBuffer.accepts q with
    | false =>
      rw [ReliabilityLayer.receive_eq_of_not_accepts ha]
      exact hi
    | true =>
      rw [ReliabilityLayer.receive_eq_of_accepts ha]
      exact hi
  | sendEof hl =>
    unfold Endpoint.sendEof
    split <;> exact hi
  | _ => exact hi

end Endpoint

namespace Machine

open Endpoint

variable {C : Type} [CongestionControl C] {m m' : Machine C} {l : Label}
  {items : List PacketOrFin} {seen : List Frame}

/-- A step that takes nothing but items under their numbers keeps the receiver on the trail. As
long as the user's stream is held when the step starts, the user gets all that is taken out. -/
theorem trails_step (hn : m.next l = some m') (h : Trails items seen m.endpoint)
    (hlen : items.length < u32Size)
    (hl : ∀ f ∈ l.frame?, ∀ q p, f.item? = some (q, p) → items[q]? = some p) :
    Trails items (seen ++ l.frame?.toList) m'.endpoint ∧
      ((m.opening l).txToStream = true → m'.endpoint.toStream.flatten =
        payloads (items.take m'.endpoint.reliability.recvBuffer.nextSequence)) := by
  have hseen := h.append [] l.frame?.toList
  rw [List.append_nil] at hseen
  rcases acts_of_next hn with ⟨t, -, ha⟩ | ⟨id, now, rfl, rfl⟩ | ⟨id, rfl, rfl⟩
  · have hopen : Trails items (seen ++ l.frame?.toList) (m.opening l) := by
      cases l with
      | followUp t => exact hseen.deliver hlen
      | _ => exact hseen
    have hact := ha.preserves
      (P := fun e => Trails items (seen ++ l.frame?.toList) e ∧
        e.toStream = (m.opening l).toStream ∧ e.reliability.recvBuffer.nextSequence =
          (m.opening l).reliability.recvBuffer.nextSequence)
      (fun e e' he ha => by
        refine ⟨ha.trails he.1 hlen fun f hf => ⟨List.mem_append_right _ (by simpa using hf),
          hl f hf⟩, ha.toStream_eq.trans he.2.1, Eq.trans ?_ he.2.2⟩
        rcases ha.recvBuffer with hb | ⟨f, a, q, p, -, -, hb⟩
        · rw [hb]
        · rw [hb, ReceiveBuffer.receive_nextSequence])
      ⟨hopen, rfl, rfl⟩
    refine ⟨hact.1, fun he => ?_⟩
    rw [hact.2.1, hact.2.2]
    exact hopen.stream_of_held he
  · exact ⟨{ hseen with }, h.stream_of_held⟩
  · exact ⟨{ hseen with }, h.stream_of_held⟩

theorem acksSeen_step (hn : m.next l = some m') (h : AcksSeen seen m.endpoint) :
    AcksSeen (seen ++ l.frame?.toList) m'.endpoint := by
  have hseen : AcksSeen (seen ++ l.frame?.toList) m.endpoint := by
    intro a ha
    obtain ⟨header, payload, hf, he⟩ := h a ha
    exact ⟨header, payload, List.mem_append_left _ hf, he⟩
  rcases acts_of_next hn with ⟨t, -, ha⟩ | ⟨id, now, -, rfl⟩ | ⟨id, -, rfl⟩
  · have hopen : AcksSeen (seen ++ l.frame?.toList) (m.opening l) := by
      unfold AcksSeen
      rw [opening_history]
      exact hseen
    exact ha.preserves (fun e e' he ha => ha.acksSeen he fun f hf =>
      List.mem_append_right _ (by simpa using hf)) hopen
  · exact hseen
  · exact hseen

theorem sent_mono (h : m.next l = some m') : m.endpoint.sent <+: m'.endpoint.sent := by
  rcases acts_of_next h with ⟨t, -, ha⟩ | ⟨id, now, -, rfl⟩ | ⟨id, -, rfl⟩
  · have hopen : (m.opening l).sent = m.endpoint.sent := by
      cases l with
      | followUp t =>
        obtain ⟨data, held, hd⟩ := deliver_eq (t := t) (e := m.endpoint)
        rw [opening, hd]
      | _ => rfl
    rw [← hopen]
    exact ha.sent_mono
  · exact List.prefix_rfl
  · exact List.prefix_rfl

theorem finsCut (h : (system C).Reachable m) : m.endpoint.FinsCut := by
  have hinv : (system C).Invariant fun m => m.endpoint.FinsCut ∧ m.endpoint.Conserved :=
    invariant (P := fun e => e.FinsCut ∧ e.Conserved)
      (fun e he => by
        refine ⟨fun q b w hq => ?_, he.conserved⟩
        rw [FinAt, he.empty.1] at hq
        cases hq)
      (fun t l e e' hi ha => ⟨ha.finsCut hi.1 hi.2, ha.conserved hi.2⟩)
      (fun t e hi => by
        obtain ⟨_, _, hd⟩ := deliver_eq (t := t) (e := e)
        rw [hd]
        exact ⟨hi.1, ⟨hi.2.packetized_eq, hi.2.written_eq⟩⟩)
      (fun e f hi => ⟨hi.1, ⟨hi.2.packetized_eq, hi.2.written_eq⟩⟩)
  exact (hinv.holds h).1

/-- A follow-up that closes the connection finds every payload acknowledged. -/
theorem acked_of_followUp {t : Tick} (hr : (system C).Reachable m)
    (hn : m.next (.followUp t) = some m') (hlen : m.endpoint.history.numbered.length < u32Size)
    (hs : m.endpoint.state ≠ .closed) (hs' : m'.endpoint.state = .closed) :
    m'.endpoint.history = m.endpoint.history ∧
      ∀ q b, m.endpoint.history.numbered[q]? = some (.push b) → m.endpoint.Acked q := by
  simp only [next, Option.ite_none_right_eq_some, Option.some.injEq] at hn
  rw [← hn.2] at hs' ⊢
  obtain ⟨hidle, -, hsame⟩ := followUp_closed hs' hs
  exact ⟨hsame, fun q b hq => (numbering hr hlen).acked hidle hs hq⟩

end Machine

namespace Link

open Endpoint

variable {S R : Type} {x x' : Link S R} {q : ℕ}

/-- The link seen from its other end. -/
def swap (x : Link S R) : Link R S := ⟨x.receiver, x.sender, x.toSender, x.toReceiver⟩

def Event.swap : Event → Event
  | .sender l => .receiver l
  | .receiver l => .sender l

/-- What the receiver was given of the stream of the sender: the payloads with the numbers below
some number, each once and in order, where every such number has an item; while the user's stream
is held, all that the receive buffer has passed. -/
structure InSequence (e : Endpoint S) (e' : Endpoint R) : Prop where
  given : ∃ n ≤ e'.reliability.recvBuffer.nextSequence, (∀ q < n, ∃ p, e.Gave q p) ∧
    e'.toStream.flatten = (e.history.numbered.take n).filterMap Numbered.payload? ∧
      (e'.txToStream = true → n = e'.reliability.recvBuffer.nextSequence)
  bytes : 1 ≤ e.reliability.config.connection.maxPayloadSize →
    e'.toStream.flatten.flatten <+: e.history.written

/-- What is acknowledged has come: a frame that was handed to the receiver brought it, and it is
still recorded unless the receiver has stopped at a FIN. -/
def Secured (x : Link S R) (q : ℕ) : Prop :=
  Brought x.toReceiver q ∧ (x.receiver.endpoint.reliability.recvBuffer.Recorded q ∨
    x.receiver.endpoint.reliability.recvBuffer.finReached = true)

/-- The user's stream ends at a FIN of the sender: the user was given every payload with a smaller
number, which is what had been written before the FIN but for the bytes that still waited. -/
def EndsAtFin (e : Endpoint S) (e' : Endpoint R) : Prop :=
  ∃ k written waiting, e.FinAt k written waiting ∧
    e'.toStream.flatten = (e.history.numbered.take k).filterMap Numbered.payload? ∧
      (1 ≤ e.reliability.config.connection.maxPayloadSize →
        written = e'.toStream.flatten.flatten ++ waiting)

variable [CongestionControl S] [CongestionControl R]

theorem next_swap {i : Event} (h : x.next i = some x') : x.swap.next i.swap = some x'.swap := by
  cases i with
  | sender l =>
    obtain ⟨hf, m, hm, rfl⟩ := next_sender.mp h
    exact next_receiver.mpr ⟨hf, m, hm, rfl⟩
  | receiver l =>
    obtain ⟨hf, m, hm, rfl⟩ := next_receiver.mp h
    exact next_sender.mpr ⟨hf, m, hm, rfl⟩

theorem reachable_swap (h : (system S R).Reachable x) : (system R S).Reachable x.swap := by
  induction h with
  | init h => exact .init ⟨h.receiver, h.sender, h.toSender, h.toReceiver⟩
  | step _ hn ih => exact ih.step (next_swap hn)

theorem toReceiver_subset (h : (system S R).Reachable x) :
    x.toReceiver ⊆ x.sender.endpoint.framesSent := by
  induction h with
  | init h => simp [h.toReceiver]
  | @step x x' i _ hn ih =>
    cases i with
    | sender l =>
      obtain ⟨-, m, hm, rfl⟩ := next_sender.mp hn
      exact fun f hf => framesSent_subset (Machine.sent_mono hm) (ih hf)
    | receiver l =>
      obtain ⟨hl, m, hm, rfl⟩ := next_receiver.mp hn
      intro f hf
      rcases List.mem_append.mp hf with hf | hf
      · exact ih hf
      · exact hl f (by simpa using hf)

/-- In every run the receiver is on the trail of the sender. -/
theorem trails (h : (system S R).Reachable x)
    (hlen : x.sender.endpoint.history.numbered.length < u32Size) :
    Trails x.sender.endpoint.places x.toReceiver x.receiver.endpoint := by
  induction h with
  | init h => exact h.receiver.2.trails
  | @step x x' i hr hn ih =>
    cases i with
    | sender l =>
      obtain ⟨-, m, hm, rfl⟩ := next_sender.mp hn
      have hpre := Machine.numbered_mono hm
      obtain ⟨more, hmore⟩ := places_mono hpre
      dsimp only
      rw [hmore, ← List.append_nil x.toReceiver]
      exact (ih (lt_of_le_of_lt hpre.length_le hlen)).append more []
    | receiver l =>
      obtain ⟨hf, m, hm, rfl⟩ := next_receiver.mp hn
      have hnum := Machine.numbering (reachable_parts hr).1 hlen
      refine (Machine.trails_step hm (ih hlen) ?_ ?_).1
      · rwa [places, List.length_map]
      · exact fun f hl q p hi => (hnum.sent f (hf f hl) q p hi).place

theorem gave_of_recorded (h : (system S R).Reachable x)
    (hlen : x.sender.endpoint.history.numbered.length < u32Size)
    (hq : x.receiver.endpoint.reliability.recvBuffer.Recorded q) :
    ∃ p, x.sender.endpoint.Gave q p := by
  obtain ⟨f, hf, p, hi⟩ := (trails h hlen).brought q hq
  have hnum := Machine.numbering (reachable_parts h).1 hlen
  exact ⟨p, hnum.sent f (toReceiver_subset h hf) q p hi⟩

theorem inSequence (h : (system S R).Reachable x)
    (hlen : x.sender.endpoint.history.numbered.length < u32Size) :
    InSequence x.sender.endpoint x.receiver.endpoint := by
  obtain ⟨n, hn, hs, hheld⟩ := (trails h hlen).stream
  have hgave : ∀ q < n, ∃ p, x.sender.endpoint.Gave q p := fun q hq =>
    gave_of_recorded h hlen (Or.inl (lt_of_lt_of_le hq hn))
  rw [payloads_take_places hgave] at hs
  refine ⟨⟨n, hn, hgave, hs, hheld⟩, fun hpos => ?_⟩
  have hcons := Machine.conserved (reachable_parts h).1
  have hpre : x.receiver.endpoint.toStream.flatten <+:
      x.sender.endpoint.reliability.packetized := by
    rw [hs, hcons.packetized_eq]
    exact (List.take_prefix n _).filterMap _
  obtain ⟨more, hmore⟩ := hpre
  rw [hcons.written_eq hpos, ← hmore, List.flatten_append, List.append_assoc]
  exact List.prefix_append _ _

/-- In every run of two endpoints, over a network that loses, repeats and reorders frames, each
user is given the other one's stream in sequence. -/
theorem streams_in_sequence (h : (system S R).Reachable x) :
    (x.sender.endpoint.history.numbered.length < u32Size →
        InSequence x.sender.endpoint x.receiver.endpoint) ∧
      (x.receiver.endpoint.history.numbered.length < u32Size →
        InSequence x.receiver.endpoint x.sender.endpoint) :=
  ⟨inSequence h, fun hlen => inSequence (reachable_swap h) hlen⟩

theorem acksSeen (h : (system S R).Reachable x) : AcksSeen x.toSender x.sender.endpoint := by
  induction h with
  | init h =>
    intro a ha
    rw [h.sender.2.fresh.acks_eq] at ha
    cases ha
  | @step x x' i _ hn ih =>
    cases i with
    | sender l =>
      obtain ⟨-, m, hm, rfl⟩ := next_sender.mp hn
      exact Machine.acksSeen_step hm ih
    | receiver l =>
      obtain ⟨-, m, hm, rfl⟩ := next_receiver.mp hn
      exact ih

/-- In every run an acknowledgment that was processed tells the truth. -/
theorem acknowledged_secured (h : (system S R).Reachable x)
    (hlen : x.sender.endpoint.history.numbered.length < u32Size)
    (hq : x.sender.endpoint.Acked q) : x.Secured q := by
  obtain ⟨f, hf, ha⟩ := (acksSeen h).acks hq
  have hsent := toReceiver_subset (reachable_swap h) hf
  refine (trails h hlen).acks f (List.mem_filter.mpr ⟨hsent, ?_⟩) q ha
  cases f with
  | ack header payload => rfl
  | _ => cases ha

omit [CongestionControl S] [CongestionControl R] in
theorem Secured.of_receiver (h : x.Secured q) (hr : x'.receiver = x.receiver)
    (hs : x'.toReceiver = x.toReceiver) : x'.Secured q := by
  rw [Secured, hr, hs]
  exact h

/-- If a follow-up closes the connection, every payload has come. -/
theorem closed_secured {t : Tick} (h : (system S R).Reachable x)
    (hn : x.next (.sender (.followUp t)) = some x')
    (hlen : x.sender.endpoint.history.numbered.length < u32Size)
    (hs : x.sender.endpoint.state ≠ .closed) (hs' : x'.sender.endpoint.state = .closed)
    {b : Bytes} (hq : x'.sender.endpoint.history.numbered[q]? = some (.push b)) :
    x'.Secured q := by
  obtain ⟨-, m, hm, rfl⟩ := next_sender.mp hn
  obtain ⟨hsame, hacked⟩ := Machine.acked_of_followUp (reachable_parts h).1 hm hlen hs hs'
  dsimp only at hq
  rw [hsame] at hq
  exact (acknowledged_secured h hlen (hacked q b hq)).of_receiver rfl rfl

/-- A step after which the receive buffer has reached a FIN hands over everything before it to a
user that listens. -/
theorem endsAtFin_of_reached {l : Label} (h : (system S R).Reachable x)
    (hlen : x.sender.endpoint.history.numbered.length < u32Size)
    (hn : x.next (.receiver l) = some x') (he : x.receiver.endpoint.txToStream = true)
    (hopen : ∀ t, l = .followUp t → t.streamOpen = true)
    (hreached : x'.receiver.endpoint.reliability.recvBuffer.finReached = true) :
    EndsAtFin x'.sender.endpoint x'.receiver.endpoint := by
  have hx' := h.step hn
  obtain ⟨hf, m, hm, rfl⟩ := next_receiver.mp hn
  have hnum := Machine.numbering (reachable_parts h).1 hlen
  have hheld : (x.receiver.opening l).txToStream = true := by
    cases l with
    | followUp t =>
      rw [← Bool.not_eq_false]
      intro hno
      have hclosed := streamOpen_of_deliver he hno
      rw [hopen t rfl] at hclosed
      cases hclosed
    | _ => exact he
  obtain ⟨htrails, hstream⟩ := Machine.trails_step hm (trails h hlen)
    (by rwa [places, List.length_map]) fun f hl q p hi => (hnum.sent f (hf f hl) q p hi).place
  have hgiven := hstream hheld
  obtain ⟨k, hk, hfin⟩ := htrails.follows.fin hreached
  have hgave : ∀ q < k + 1, ∃ p, x.sender.endpoint.Gave q p := by
    intro q hq
    rw [← hk] at hq
    obtain ⟨p, hp⟩ := gave_of_recorded hx' hlen (Or.inl hq)
    exact ⟨p, hp⟩
  rw [hk, payloads_take_places hgave] at hgiven
  obtain ⟨p, y, hy, hp⟩ := hgave k (Nat.lt_succ_self k)
  rw [places, List.getElem?_map, hy, Option.map_some, Numbered.place, hp, Option.getD_some] at hfin
  cases hfin
  obtain ⟨b, w, rfl⟩ : ∃ b w, y = .fin b w := by
    cases y with
    | fin b w => exact ⟨b, w, rfl⟩
    | _ => cases hp
  rw [List.take_add_one, hy, List.filterMap_append, Option.toList_some] at hgiven
  have hend : m.endpoint.toStream.flatten =
      (x.sender.endpoint.history.numbered.take k).filterMap Numbered.payload? :=
    hgiven.trans (List.append_nil _)
  refine ⟨k, b, w, hy, hend, fun hpos => ?_⟩
  dsimp only
  rw [hend]
  exact Machine.finsCut (reachable_parts h).1 k b w hy hpos

/-- A step that lets go of the user's stream hands over everything before a FIN, unless the user
no longer listens, the connection is closed, or it is closed before anything was sent. -/
theorem stream_ends_at_fin {l : Label} (h : (system S R).Reachable x)
    (hlen : x.sender.endpoint.history.numbered.length < u32Size)
    (hn : x.next (.receiver l) = some x') (he : x.receiver.endpoint.txToStream = true)
    (he' : x'.receiver.endpoint.txToStream = false) :
    EndsAtFin x'.sender.endpoint x'.receiver.endpoint ∨
      (∃ t, l = .followUp t ∧ t.streamOpen = false) ∨ x'.receiver.endpoint.state = .closed ∨
        (∃ t, l = .command t .close) ∧ x.receiver.endpoint.state = .synReceived ∧
          x.receiver.endpoint.reliability.isSendBufferEmpty = true := by
  obtain ⟨-, m, hm, rfl⟩ := next_receiver.mp hn
  obtain ⟨ls, hrun⟩ := (reachable_parts h).2.exists_run
  rcases Machine.ended hrun hm he he' with hcomplete | hother
  · by_cases hopen : ∃ t, l = .followUp t ∧ t.streamOpen = false
    · exact Or.inr (Or.inl hopen)
    · refine Or.inl (endsAtFin_of_reached h hlen hn he (fun t ht => ?_) hcomplete.reached)
      rw [← Bool.not_eq_false]
      exact fun hno => hopen ⟨t, ht, hno⟩
  · exact Or.inr hother

section Sample

open Machine

/-- After the handshake the client gets the server's byte twice and sends one of its own. -/
def bothWays : List Event :=
  openingRun ++
    [.sender (.frame (tick 4) (.newPush 1 0 0 8 0 [5]) 80),
      .sender (.frame (tick 4) (.newPush 1 0 0 8 0 [5]) 80), .sender (.followUp (tick 4)),
      .sender (.command (tick 5) (.sendData [7])), .sender (.followUp (tick 5)),
      .receiver (.frame (tick 6) (.newPush 2 0 1 256 0 [7]) 81), .receiver (.followUp (tick 6))]

/-- The client has sent a byte and closes; the server gets its FIN. -/
def endingRun : List Event :=
  sendingRun ++
    [.sender (.command (tick 6) .close), .sender (.followUp (tick 6)),
      .receiver (.frame (tick 7) (.newFin 2 1 0 0 256) 81)]

/-- The server closes too; the client gets the acknowledgment of its FIN, which names the byte
before it as well, and the server's FIN. -/
def endedRun : List Event :=
  endingRun ++
    [.receiver (.followUp (tick 7)), .receiver (.command (tick 8) .close),
      .receiver (.followUp (tick 8)), .sender (.frame (tick 9) (.newAck 1 1 7 [⟨1, 1⟩] 0) 80),
      .sender (.frame (tick 9) (.newFin 1 1 0 2 8) 80)]

theorem streams_in_sequence_sample : ∃ x : Link Vegas Vegas,
    x.sender.endpoint.toStream = [[[5]]] ∧ x.receiver.endpoint.toStream = [[[7]]] ∧
      InSequence x.sender.endpoint x.receiver.endpoint ∧
        InSequence x.receiver.endpoint x.sender.endpoint := by
  obtain ⟨x, hr, hs, hs', hlen, hlen'⟩ : ∃ x, (system Vegas Vegas).Run bothWays x ∧
      x.sender.endpoint.toStream = [[[5]]] ∧ x.receiver.endpoint.toStream = [[[7]]] ∧
        x.sender.endpoint.history.numbered.length < u32Size ∧
          x.receiver.endpoint.history.numbered.length < u32Size :=
    TransitionSystem.exists_run_of_foldlM _ (tinyLink_created 8) (by decide)
  have hboth := streams_in_sequence hr.reachable
  exact ⟨x, hs, hs', hboth.1 hlen, hboth.2 hlen'⟩

theorem acknowledged_secured_sample : ∃ x : Link Vegas Vegas,
    x.sender.endpoint.Acked 0 ∧ x.Secured 0 := by
  obtain ⟨x, hr, ha, hlen⟩ : ∃ x, (system Vegas Vegas).Run endedRun x ∧
      x.sender.endpoint.history.acks = [(1, [⟨1, 1⟩])] ∧
        x.sender.endpoint.history.numbered.length < u32Size :=
    TransitionSystem.exists_run_of_foldlM _ (tinyLink_created 8) (by decide)
  have hq : x.sender.endpoint.Acked 0 := ⟨_, by rw [ha]; exact List.mem_singleton_self _, by decide⟩
  exact ⟨x, hq, acknowledged_secured hr.reachable hlen hq⟩

theorem closed_secured_sample : ∃ x x' : Link Vegas Vegas,
    x.next (.sender (.followUp (tick 9))) = some x' ∧ x'.sender.endpoint.state = .closed ∧
      x'.Secured 0 := by
  obtain ⟨x, x', hr, hn, hlen, hs, hs', hq⟩ : ∃ x x', (system Vegas Vegas).Run endedRun x ∧
      x.next (.sender (.followUp (tick 9))) = some x' ∧
        x.sender.endpoint.history.numbered.length < u32Size ∧
          x.sender.endpoint.state ≠ .closed ∧ x'.sender.endpoint.state = .closed ∧
            x'.sender.endpoint.history.numbered[0]? = some (.push [7]) :=
    TransitionSystem.exists_step_of_foldlM _ _ (tinyLink_created 8) (by decide)
  exact ⟨x, x', hn, hs', closed_secured hr.reachable hn hlen hs hs' hq⟩

theorem stream_ends_at_fin_sample : ∃ x x' : Link Vegas Vegas,
    x.next (.receiver (.followUp (tick 7))) = some x' ∧
      EndsAtFin x'.sender.endpoint x'.receiver.endpoint := by
  obtain ⟨x, x', hr, hn, hlen, he, he', hs⟩ : ∃ x x', (system Vegas Vegas).Run endingRun x ∧
      x.next (.receiver (.followUp (tick 7))) = some x' ∧
        x.sender.endpoint.history.numbered.length < u32Size ∧
          x.receiver.endpoint.txToStream = true ∧ x'.receiver.endpoint.txToStream = false ∧
            x'.receiver.endpoint.state = .finWait :=
    TransitionSystem.exists_step_of_foldlM _ _ (tinyLink_created 8) (by decide)
  refine ⟨x, x', hn, ?_⟩
  rcases stream_ends_at_fin hr.reachable hlen hn he he' with hend | ⟨t, ht, ho⟩ | hc | ⟨⟨t, ht⟩, -⟩
  · exact hend
  · cases ht
    cases ho
  · rw [hs] at hc
    cases hc
  · cases ht

end Sample

end Link

end Kestrel
