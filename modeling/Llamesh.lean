import Llamesh.CircuitBreaker.Window
import Llamesh.CircuitBreaker.Invariant
import Llamesh.CircuitBreaker.Probes
import Llamesh.Instance.Drains
import Llamesh.Library.SelfDelimiting
import Llamesh.Instance.ArgsHash
import Llamesh.Instance.PreArgs
import Llamesh.BinarySwap.Current
import Llamesh.Reload.Consistent
import Llamesh.Slots.Model
import Llamesh.Slots.Conserved
import Llamesh.Slots.Eviction
import Llamesh.Queue.Store
import Llamesh.Queue.Lifecycle
import Llamesh.Queue.Structure
import Llamesh.Queue.Leaks
import Llamesh.Shutdown.Model
import Llamesh.Shutdown.Drained
import Llamesh.Config.Profile
import Llamesh.Config.Cookbook
import Llamesh.Spawn.Reservations
import Llamesh.Spawn.Registry
import Llamesh.Spawn.Accounting
import Llamesh.Spawn.Model
import Llamesh.Spawn.Ownership
import Llamesh.Spawn.Preserved
import Llamesh.Spawn.Counts
import Llamesh.Spawn.Scans
import Llamesh.Spawn.Levels
import Llamesh.Spawn.Memory
import Llamesh.Spawn.MemoryLimits
import Llamesh.Spawn.Victims
import Llamesh.Spawn.Credit
import Llamesh.Waiters.Line
import Llamesh.Waiters.Model
import Llamesh.Waiters.LineSound
import Llamesh.Waiters.Effect
import Llamesh.Waiters.Reading
import Llamesh.Waiters.Refines
import Llamesh.Waiters.Fairness
import Llamesh.Waiters.Ledger
import Llamesh.Waiters.Wakes
import Llamesh.Waiters.Stranded
import Llamesh.Library.HeaderMap
import Llamesh.Router.Headers
import Llamesh.Router.Hops
import Llamesh.Router.Selection
import Llamesh.Router.Reselection
import Llamesh.Router.Responses
import Llamesh.Router.Model
import Llamesh.Router.Accounting
import Llamesh.Router.Drained
import Llamesh.Library.Terminated
import Llamesh.Router.Streaming
import Llamesh.Noise.KnownPeers
import Llamesh.Noise.KeyStability
import Llamesh.Noise.Persistence
import Llamesh.Gossip.Address
import Llamesh.Gossip.Model
import Llamesh.Gossip.Ordering
import Llamesh.Gossip.OwnEntry
import Llamesh.Gossip.Precedence
import Llamesh.Gossip.Advertised
import Llamesh.Discovery.Mdns
import Llamesh.Ports.Pool
import Llamesh.Builds.Names
import Llamesh.Builds.Attribution
import Llamesh.Library.FileSystem
import Llamesh.Builds.Isolation
import Llamesh.Library.Octets
import Llamesh.Library.Crlf
import Llamesh.Noise.Framing
import Llamesh.Noise.Http
import Llamesh.Noise.Handshake
import Llamesh.Noise.Authentication
import Llamesh.Wedge.Streak
import Llamesh.Router.ColdStart
import Llamesh.Router.Score
import Llamesh.Instance.KeyList
import Llamesh.Instance.ApiKey
import Llamesh.Instance.Redaction
import Llamesh.Library.LastWins
import Llamesh.Instance.Effective
import Llamesh.Instance.ModelSource
import Llamesh.Instance.Lookup
import Llamesh.Router.Relay
import Llamesh.Builds.Version
import Llamesh.Library.BufRead
import Llamesh.Builds.Output
import Llamesh.Metrics.Model
import Llamesh.Metrics.Labels
import Llamesh.Metrics.LegacyHash
import Llamesh.Metrics.Migration
import Llamesh.Library.FileOps
import Llamesh.Logging.Model
import Llamesh.Logging.Milestones
import Llamesh.Logging.CrashSafe
import Llamesh.Router.Errors
import Llamesh.Router.ErrorCounts
import Llamesh.Library.Resolution
import Llamesh.Builds.Cleanup
import Llamesh.Builds.Retention
import Llamesh.Gossip.Withdrawn
import Llamesh.Gossip.UrlCircuits
import Llamesh.Noise.Response
import Llamesh.Api.Accept
import Llamesh.Api.H2cIdle
import Llamesh.Instance.Process
import Llamesh.Instance.Startup
import Llamesh.Instance.Output
import Llamesh.Metrics.Durable
import Llamesh.Spawn.Retirement
import Llamesh.Builds.Schedule
import Llamesh.Api.Auth
import Llamesh.Router.Journey
import Llamesh.Library.Base64
import Llamesh.Library.Provisioning
import Llamesh.Noise.Identity
