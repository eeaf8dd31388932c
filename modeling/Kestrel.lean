import Kestrel.Packet.Codec
import Kestrel.Stream.Safety
import Kestrel.Endpoint.Writer
import Kestrel.Endpoint.Completion
import Kestrel.Endpoint.Idle
import Kestrel.Endpoint.Handshake
import Kestrel.Endpoint.Overflow
import Kestrel.Endpoint.Interference
import Kestrel.Socket.Tables
import Kestrel.Reliability.Retransmissions
import Kestrel.Timer.NextExpiry
import Kestrel.Endpoint.Settled
import Kestrel.Endpoint.Heard
import Kestrel.Endpoint.Undisturbed
import Kestrel.Endpoint.Answering
import Kestrel.Reliability.Window
import Kestrel.Timer.Tables
import Kestrel.Timer.Punctual
import Kestrel.Socket.Draining
import Kestrel.Socket.Duplicates
import Kestrel.Endpoint.Expirations
import Kestrel.Endpoint.Reporting
import Kestrel.Endpoint.Validation
import Kestrel.Endpoint.PacketSize
import Kestrel.Endpoint.InitialData
import Kestrel.Stream.LongRuns
import Kestrel.Endpoint.EndOfStream
import Kestrel.Stream.Link
import Kestrel.Stream.Deadlock
import Kestrel.Reliability.SendWindow
import Kestrel.Reliability.Acknowledgment
import Kestrel.Reliability.Reassembly
import Kestrel.Reliability.Retries
import Kestrel.Reliability.FastRetransmission
import Kestrel.Timer.CancelRefinement
import Kestrel.Timer.AddRefinement
import Kestrel.Endpoint.Carriage
import Kestrel.Stream.Gaps
import Kestrel.Reliability.Deadlines
import Kestrel.Reliability.CongestionWindow
import Kestrel.Reliability.Losses
import Kestrel.Endpoint.PacketBuilder
import Kestrel.Reliability.ZeroRtt
import Kestrel.Endpoint.Reader
import Kestrel.Reliability.Constructors
import Kestrel.Socket.EarlyFrames
import Kestrel.Reliability.Samples
import Kestrel.Endpoint.Clock
import Kestrel.Lib.Stride
import Kestrel.Timer.EventPool
import Kestrel.Endpoint.UnifiedDeadline
import Kestrel.Lib.Dispatch
import Kestrel.Timer.ZeroCopy
import Kestrel.Timer.Parallel
import Kestrel.Stream.Delivery
import Kestrel.Lib.Switch
import Kestrel.Socket.Transport
import Kestrel.Endpoint.Lifecycle
import Kestrel.Endpoint.Legibility
import Kestrel.Socket.Udp
import Kestrel.Stream.Session
import Kestrel.Lib.Relay
import Kestrel.Socket.Conveyance
import Kestrel.Stream.Ending
import Kestrel.Endpoint.Agreement
import Kestrel.Endpoint.SharedTimers
