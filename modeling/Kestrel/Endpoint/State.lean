import Kestrel.Config

/-! # Connection states

The states of a connection, which changes between them are legal, and where a graceful shutdown
leads.
-/

namespace Kestrel

/-- A socket address, by an identifying number. -/
abbrev SocketAddr := ℕ

/-- The sending half of a one-shot channel: a caller waits on it, or its receiving half has
been dropped at once. -/
inductive Notifier where
  | caller (id : ℕ)
  | detached
  deriving DecidableEq, Repr

inductive ConnectionState where
  | connecting
  | synReceived
  | established
  | validatingPath (newAddr : SocketAddr) (challengeData : ℕ) (notifier : Option Notifier)
  | closing
  | closingWait
  | finWait
  | closed
  deriving DecidableEq, Repr

namespace ConnectionState

/-- A copy; the notifier of a path validation cannot be copied. -/
def clone : ConnectionState → ConnectionState
  | validatingPath newAddr challengeData _ => validatingPath newAddr challengeData none
  | s => s

def isValidatingPath : ConnectionState → Bool
  | validatingPath .. => true
  | _ => false

/-- Which changes of state are legal. -/
def isValidTransition : ConnectionState → ConnectionState → Bool
  | _, closed => true
  | connecting, established | connecting, closing => true
  | synReceived, established | synReceived, finWait | synReceived, closing => true
  | established, finWait | established, closing | established, validatingPath .. => true
  | validatingPath .., established | validatingPath .., finWait
  | validatingPath .., closing => true
  | finWait, closing => true
  | closing, closingWait => true
  | connecting, connecting | synReceived, synReceived | established, established
  | validatingPath .., validatingPath .. | closing, closing | closingWait, closingWait
  | finWait, finWait => true
  | _, _ => false

/-- The state that a graceful shutdown leads to. -/
def gracefulShutdown : ConnectionState → ConnectionState
  | connecting | synReceived | established | finWait | validatingPath .. => closing
  | s => s.clone

theorem isValidTransition_gracefulShutdown (s : ConnectionState) :
    isValidTransition s s.gracefulShutdown = true := by
  cases s <;> rfl

end ConnectionState

end Kestrel
