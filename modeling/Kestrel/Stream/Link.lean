import Kestrel.Endpoint.Answering
import Kestrel.Endpoint.Migration

/-! # Links

Two endpoints with the network between them. Each goes through its own event loop; a frame reaches
one of them only if the other has sent it, any number of times and in any order.
-/

namespace Kestrel

/-- The frame a step takes from the network. -/
def Label.frame? : Label → Option Frame
  | .frame _ f _ => some f
  | _ => none

/-- An endpoint that sends the data of its user to another one, with the frames that the network
has handed to each so far. -/
structure Link (S R : Type) where
  sender : Machine S
  receiver : Machine R
  toReceiver : List Frame
  toSender : List Frame

namespace Link

/-- A step of either endpoint. -/
inductive Event where
  | sender (l : Label)
  | receiver (l : Label)
  deriving DecidableEq, Repr

variable {S R : Type} [CongestionControl S] [CongestionControl R]

def next (x : Link S R) : Event → Option (Link S R)
  | .sender l =>
    if ∀ f ∈ l.frame?, f ∈ x.receiver.endpoint.framesSent then
      (x.sender.next l).map fun m =>
        { x with sender := m, toSender := x.toSender ++ l.frame?.toList }
    else none
  | .receiver l =>
    if ∀ f ∈ l.frame?, f ∈ x.sender.endpoint.framesSent then
      (x.receiver.next l).map fun m =>
        { x with receiver := m, toReceiver := x.toReceiver ++ l.frame?.toList }
    else none

/-- Two new endpoints and an empty network. -/
structure Created (x : Link S R) : Prop where
  sender : x.sender.phase = .created ∧ x.sender.endpoint.Created
  receiver : x.receiver.phase = .created ∧ x.receiver.endpoint.Created
  toReceiver : x.toReceiver = []
  toSender : x.toSender = []

def system (S R : Type) [CongestionControl S] [CongestionControl R] :
    TransitionSystem (Link S R) Event :=
  .ofNext Created fun x i => x.next i

/-- The runs of a link whose steps all meet a condition. -/
def systemWith (G : Link S R → Event → Prop) : TransitionSystem (Link S R) Event :=
  (system S R).restrict fun x i _ => G x i

variable {x x' : Link S R} {l : Label}

theorem next_sender : x.next (.sender l) = some x' ↔
    (∀ f ∈ l.frame?, f ∈ x.receiver.endpoint.framesSent) ∧ ∃ m, x.sender.next l = some m ∧
      { x with sender := m, toSender := x.toSender ++ l.frame?.toList } = x' := by
  simp only [next, Option.ite_none_right_eq_some, Option.map_eq_some_iff]

theorem next_receiver : x.next (.receiver l) = some x' ↔
    (∀ f ∈ l.frame?, f ∈ x.sender.endpoint.framesSent) ∧ ∃ m, x.receiver.next l = some m ∧
      { x with receiver := m, toReceiver := x.toReceiver ++ l.frame?.toList } = x' := by
  simp only [next, Option.ite_none_right_eq_some, Option.map_eq_some_iff]

theorem reachable_parts (h : (system S R).Reachable x) :
    (Machine.system S).Reachable x.sender ∧ (Machine.system R).Reachable x.receiver := by
  induction h with
  | init h => exact ⟨.init h.sender, .init h.receiver⟩
  | @step x x' i _ hn ih =>
    obtain ⟨hs, hr⟩ := ih
    cases i with
    | sender l =>
      obtain ⟨-, m, hm, rfl⟩ := next_sender.mp hn
      exact ⟨hs.step hm, hr⟩
    | receiver l =>
      obtain ⟨-, m, hm, rfl⟩ := next_receiver.mp hn
      exact ⟨hs, hr.step hm⟩

end Link

end Kestrel
