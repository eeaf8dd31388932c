import Mathlib.Data.Nat.Notation
import Mathlib.Data.Rat.Init

/-! # Configuration

The tunable parameters of a connection with their defaults. Instants and durations are
counted in nanoseconds. The one floating-point parameter is a rational number.
-/

namespace Kestrel

abbrev Duration := ℕ
abbrev Instant := ℕ
abbrev Bytes := List UInt8

/-- The number of values of an unsigned integer of 8 bits. -/
abbrev u8Size : ℕ := 256

/-- The number of values of an unsigned integer of 16 bits. -/
abbrev u16Size : ℕ := 65536

/-- The number of values of an unsigned integer of 32 bits. -/
abbrev u32Size : ℕ := 4294967296

/-- The number of values of an unsigned integer of 64 bits. -/
abbrev u64Size : ℕ := 18446744073709551616

namespace Duration

def fromMillis (n : ℕ) : Duration := n * 1000000
def fromSecs (n : ℕ) : Duration := n * 1000000000
def asMillis (d : Duration) : ℕ := d / 1000000

end Duration

structure ReliabilityConfig where
  initialRto : Duration := Duration.fromMillis 1000
  minRto : Duration := Duration.fromMillis 500
  fastRetxThreshold : ℕ := 3
  ackThreshold : ℕ := 2
  controlFrameMaxRetries : ℕ := 5
  controlFrameRetryInterval : Duration := Duration.fromMillis 500
  enableLayeredRetransmission : Bool := true
  deriving DecidableEq, Repr

structure CongestionControlConfig where
  initialCwndPackets : ℕ := 32
  minCwndPackets : ℕ := 4
  initialSsthresh : ℕ := u32Size - 1
  vegasAlphaPackets : ℕ := 2
  vegasBetaPackets : ℕ := 4
  vegasGentleDecreaseFactor : ℚ := 4 / 5
  deriving DecidableEq, Repr

structure ConnectionConfig where
  maxPayloadSize : ℕ := 1200
  maxPacketSize : ℕ := 1350
  idleTimeout : Duration := Duration.fromSecs 5
  sendBufferCapacityBytes : ℕ := 1024 * 1024
  recvBufferCapacityPackets : ℕ := 256
  drainTimeout : Duration := Duration.fromSecs 3
  drainingCleanupInterval : Duration := Duration.fromSecs 1
  deriving DecidableEq, Repr

structure Config where
  protocolVersion : ℕ := 1
  reliability : ReliabilityConfig := {}
  congestionControl : CongestionControlConfig := {}
  connection : ConnectionConfig := {}
  deriving DecidableEq, Repr

end Kestrel
