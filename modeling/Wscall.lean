import Wscall.Lib.RustBytes
import Wscall.Lib.Utf8
import Wscall.Lib.SortedAssoc
import Wscall.Lib.Machine
import Wscall.Lib.History
import Wscall.Lib.Unwind
import Wscall.Lib.Semaphore
import Wscall.Lib.Ledger
import Wscall.Protocol.Json
import Wscall.Protocol.Packet
import Wscall.Protocol.BodyRoundTrip
import Wscall.Protocol.Attachment
import Wscall.Protocol.Codec
import Wscall.Protocol.BodyFields
import Wscall.Protocol.Header
import Wscall.Protocol.Bounds
import Wscall.Protocol.RoundTrip
import Wscall.Protocol.Encoder
import Wscall.Protocol.Corruption
import Wscall.Protocol.TamperEvidence
import Wscall.Protocol.Strictness
import Wscall.Client.Correlation
import Wscall.Client.CorrelationSafety
import Wscall.Client.Lifecycle
import Wscall.Client.Failover
import Wscall.Client.UrlScan
import Wscall.Client.Generations
import Wscall.Client.CloseFinal
import Wscall.Client.Notifications
import Wscall.Client.Traffic
import Wscall.Client.Orphans
import Wscall.Client.AckRouting
import Wscall.Client.Events
import Wscall.Client.Turns
import Wscall.Client.Simulation
import Wscall.Client.Journal
import Wscall.Client.Opening
import Wscall.Server.RateLimiter
import Wscall.Server.ByteBudget
import Wscall.Server.LimiterRun
import Wscall.Server.WindowCounts
import Wscall.Server.Bans
import Wscall.Server.MessageBudget
import Wscall.Server.CleanupSilent
import Wscall.Server.LimiterArithmetic
import Wscall.Server.Isolation
import Wscall.Server.LimiterSteps
import Wscall.Server.LiveBans
import Wscall.Server.IpCount
import Wscall.Server.Types
import Wscall.Server.Dispatch
import Wscall.Server.Answers
import Wscall.Server.FilterChain
import Wscall.Server.EventAcks
import Wscall.Server.ErrorAnswers
import Wscall.Server.Outbound
import Wscall.Server.Runtime
import Wscall.Server.Moves
import Wscall.Server.Invariant
import Wscall.Server.AuthGate
import Wscall.Server.Steps
import Wscall.Server.Announced
import Wscall.Server.Identity
import Wscall.Server.WireCodec
import Wscall.Server.FrameLimit
import Wscall.Server.InFlight
import Wscall.Server.Delivery
import Wscall.Server.Progress
import Wscall.Server.Table
import Wscall.Server.Listen
import Wscall.Server.Farewell
import Wscall.Server.Accounts
import Wscall.Server.Transcript
import Wscall.Server.Opening
import Wscall.Server.Replies
import Wscall.Server.Course
import Wscall.Server.Settling
import Wscall.Server.Exchange
import Wscall.Server.FastReject
import Wscall.Session.Wire
import Wscall.Session.Link
import Wscall.Session.Handshake
import Wscall.Session.Joint
import Wscall.Session.EndToEnd
