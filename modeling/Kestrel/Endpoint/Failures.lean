import Kestrel.Endpoint.EventLoop

/-! # Failures

The operations of an endpoint that can fail, and why they do. What a peer sends is never the
reason.
-/

namespace Kestrel.Endpoint

variable {C : Type} {t : Tick} {e : Endpoint C}

/-- The operation fails only because the socket does not listen any more. -/
def FailsClosed (t : Tick) {α : Type} (x : Outcome C α) : Prop :=
  ∀ err e, x = .error (err, e) → err = .channelClosed ∧ t.senderOpen = false

theorem FailsClosed.bind {α β : Type} {x : Outcome C α} {f : α → Outcome C β}
    (hx : FailsClosed t x) (hf : ∀ a, FailsClosed t (f a)) : FailsClosed t (x >>= f) := by
  intro err e h
  cases x with
  | error r =>
    cases h
    exact hx err e rfl
  | ok a => exact hf a err e h

variable [CongestionControl C]

end Kestrel.Endpoint
