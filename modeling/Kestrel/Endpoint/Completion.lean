import Kestrel.Endpoint.Closing
import Kestrel.Endpoint.Fin

/-! # Completing a close

When everything has been acknowledged, a connection that is being closed is closed by the next
follow-up if the peer's FIN has been taken. Without it the follow-up finds no FIN in flight and
creates another one.
-/

namespace Kestrel

namespace Endpoint

variable {C : Type} {t : Tick} {e : Endpoint C}

/-- The connection is being closed, its FIN has a number, nothing waits to be sent, and the peer
has acknowledged every PUSH and the FIN. The record also holds acknowledgments of numbers that were
given only later, which take nothing out of flight: `settled` says that every packet was
acknowledged after it was sent. A FIN out of retries leaves the flight too, but it is not
`acked`. -/
structure Done (e : Endpoint C) : Prop where
  ending : e.state = .closing ∨ e.state = .closingWait
  fin : e.hasFin = true
  empty : e.reliability.isSendBufferEmpty = true
  acked : ∀ q p, e.Gave q p → e.Acked q
  settled : e.reliability.isInFlightEmpty = true

/-- The peer's FIN has moved the connection to its last waiting state, or reassembly is about to
reach it. -/
def PeerFinished (e : Endpoint C) : Prop :=
  e.state = .closingWait ∨ e.state = .closing ∧ e.reliability.reassemble.2.1 = true

instance : Decidable e.PeerFinished := inferInstanceAs (Decidable (_ ∨ _ ∧ _))

theorem finTransition_closingWait (h : e.state = .closing ∨ e.state = .closingWait) :
    ((e.deliver t).2.finTransition (e.deliver t).1).state = .closingWait ↔ e.PeerFinished := by
  obtain ⟨data, held, hd⟩ := deliver_eq (t := t) (e := e)
  rw [finTransition_eq, hd, PeerFinished]
  dsimp only
  rcases h with h | h <;> cases e.reliability.reassemble.2.1 <;> simp [h, consumption]

variable [CongestionControl C]

theorem rest_closes (h : e.state = .closingWait) (he : e.reliability.isInFlightEmpty = true) :
    e.packetizeIfOpen t = .ok e ∧ e.sendEof.shouldClose.1 = true ∧
      e.sendEof.shouldClose.2.state = .closed := by
  have hopen : e.packetizeIfOpen t = .ok e := by
    unfold packetizeIfOpen
    rw [h]
  have heof : e.sendEof.state = e.state ∧ e.sendEof.reliability = e.reliability := by
    unfold sendEof
    split <;> exact ⟨rfl, rfl⟩
  have hlast : (e.sendEof.state = .closing ∨ e.sendEof.state = .closingWait) ∧
      e.sendEof.reliability.isInFlightEmpty = true :=
    ⟨Or.inr (heof.1.trans h), heof.2 ▸ he⟩
  refine ⟨hopen, ?_⟩
  rw [shouldClose, if_pos hlast, transitionTo_eq, if_pos (by cases e.sendEof.state <;> rfl)]
  exact ⟨rfl, rfl⟩

end Endpoint

namespace Machine

open Endpoint

variable {C : Type} [CongestionControl C] {m m' : Machine C} {t : Tick}

/-- The step ends in the closed state, and with it the loop. -/
def EntersClosed (m' : Machine C) : Prop := m'.endpoint.state = .closed ∧ m'.phase = .finished

/-- With everything acknowledged, the iteration closes the connection exactly when the peer has
finished too. -/
theorem close_completes_iff (hn : m.next (.followUp t) = some m') (hd : Done m.endpoint) :
    EntersClosed m' ↔ m.endpoint.PeerFinished := by
  simp only [next, Option.ite_none_right_eq_some, Option.some.injEq] at hn
  obtain ⟨-, rfl⟩ := hn
  obtain ⟨data, held, hdel⟩ := deliver_eq (t := t) (e := m.endpoint)
  set e₁ := (m.endpoint.deliver t).2.finTransition (m.endpoint.deliver t).1 with he₁
  have hwait := finTransition_closingWait (t := t) hd.ending
  have hrest : m.endpoint.followUp t =
      e₁.packetizeIfOpen t >>= fun e => .ok e.sendEof.shouldClose := rfl
  rw [← he₁] at hwait
  rw [← hwait, EntersClosed, hrest]
  constructor
  · rintro ⟨hclosed, -⟩
    have hne : e₁.state ≠ .closed := by
      rw [he₁, finTransition_eq, hdel]
      dsimp only
      rcases hd.ending with h | h <;> split <;> simp [h, consumption]
    exact (rest_closed hclosed hne).1
  · intro hlast
    have hempty : e₁.reliability.isInFlightEmpty = true := by
      rw [he₁, finTransition_eq, hdel]
      exact hd.settled
    obtain ⟨hopen, hflag, hclosed⟩ := rest_closes (t := t) hlast hempty
    rw [hopen]
    change (resume (.ok e₁.sendEof.shouldClose)).endpoint.state = _ ∧
      (resume (.ok e₁.sendEof.shouldClose)).phase = _
    generalize e₁.sendEof.shouldClose = r at hflag hclosed
    obtain ⟨close, e₂⟩ := r
    cases hflag
    exact ⟨hclosed, rfl⟩

section Sample

omit [CongestionControl C] in
theorem done_of_acks {n : ℕ} (hs : m.endpoint.state = .closing ∨ m.endpoint.state = .closingWait)
    (hf : m.endpoint.hasFin = true) (hb : m.endpoint.reliability.isSendBufferEmpty = true)
    (hlen : m.endpoint.history.numbered.length = n)
    (hacks : (n, []) ∈ m.endpoint.history.acks)
    (hi : m.endpoint.reliability.isInFlightEmpty = true) : Done m.endpoint where
  ending := hs
  fin := hf
  empty := hb
  settled := hi
  acked q p hq := by
    obtain ⟨x, hx, -⟩ := hq
    have hlt := (List.getElem?_eq_some_iff.mp hx).1
    exact ⟨_, hacks, Or.inl (hlen ▸ hlt)⟩

/-- What has been sent and acknowledged when a follow-up begins, and where it ends. -/
def completes (n : ℕ) (before after : ConnectionState) (m m' : Machine C) : Prop :=
  m.endpoint.state = before ∧ m.endpoint.hasFin = true ∧
    m.endpoint.reliability.isSendBufferEmpty = true ∧
      m.endpoint.history.numbered.length = n ∧ (n, []) ∈ m.endpoint.history.acks ∧
        m.endpoint.reliability.isInFlightEmpty = true ∧ m'.endpoint.state = after

instance (n : ℕ) (before after : ConnectionState) :
    DecidableRel (completes (C := C) n before after) :=
  fun _ _ => inferInstanceAs (Decidable (_ ∧ _))

/-- A client whose byte, FIN and the peer's FIN have all arrived closes. -/
theorem close_completes_iff_sample : ∃ m m' : Machine Vegas,
    m.next (.followUp (tick 5)) = some m' ∧ m.endpoint.state = .closingWait ∧
      (EntersClosed m' ↔ m.endpoint.PeerFinished) := by
  obtain ⟨m, m', -, hn, hs, hf, hb, hlen, hacks, hi, -⟩ := exists_step (closingRun [7])
    (.followUp (tick 5)) (completes 2 .closingWait .closed) tinyClient_created (by decide)
  exact ⟨m, m', hn, hs, close_completes_iff hn (done_of_acks (Or.inr hs) hf hb hlen hacks hi)⟩

/-- A client whose FIN is acknowledged before the peer's FIN comes goes on, with another FIN. -/
theorem close_goes_on : ∃ m m' : Machine Vegas, (system Vegas).Reachable m ∧ Done m.endpoint ∧
    m.next (.followUp (tick 3)) = some m' ∧ ¬ EntersClosed m' := by
  obtain ⟨m, m', hr, hn, hs, hf, hb, hlen, hacks, hi, hafter⟩ := exists_step
    [.begin (tick 0), .frame (tick 1) (.newSynAck 1 2 1) 80, .followUp (tick 1),
      .command (tick 2) .close, .followUp (tick 2), .frame (tick 3) (.newAck 1 1 256 [] 0) 80]
    (.followUp (tick 3)) (completes 1 .closing .closing) tinyClient_created (by decide)
  refine ⟨m, m', hr.reachable, done_of_acks (Or.inl hs) hf hb hlen hacks hi, hn, ?_⟩
  rintro ⟨hclosed, -⟩
  rw [hafter] at hclosed
  cases hclosed

end Sample

end Machine

end Kestrel
