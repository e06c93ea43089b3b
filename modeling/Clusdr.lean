import Clusdr.Go.Map
import Clusdr.Go.Counter
import Clusdr.Go.Time
import Clusdr.Go.Calendar
import Clusdr.Go.Rfc3339
import Clusdr.Go.Text
import Clusdr.Go.Contains
import Clusdr.Go.Json
import Clusdr.Go.JsonText
import Clusdr.Go.JsonRoundTrip
import Clusdr.Go.JsonTimes
import Clusdr.Runs.Along
import Clusdr.Fencing.Register
import Clusdr.Fencing.Tokens
import Clusdr.Fencing.Fate
import Clusdr.Fencing.Exclusion
import Clusdr.Fencing.Tracking
import Clusdr.Fencing.Simulation
import Clusdr.Fencing.Soundness
import Clusdr.Fencing.Archive
import Clusdr.Forwarding.Hops
import Clusdr.Sync.Broadcast
import Clusdr.Feed.Announce
import Clusdr.Feed.Replay
import Clusdr.Core.Events
import Clusdr.Core.Locks
import Clusdr.Core.Leases
import Clusdr.Core.Membership
import Clusdr.Core.Fsm
import Clusdr.Core.Snapshot
import Clusdr.Core.Node
import Clusdr.Core.LockService
import Clusdr.Core.LeaseService
import Clusdr.Core.Sdk
import Clusdr.Core.EventBus
import Clusdr.Core.Watch
import Clusdr.Core.SdkWatch
import Clusdr.Core.Configuration
import Clusdr.Core.Store
import Clusdr.Core.JoinService
import Clusdr.Core.PromoteHandler
import Clusdr.Core.Mtls
import Clusdr.Core.ControlService
import Clusdr.Core.JoinHandlers
import Clusdr.Core.App
import Clusdr.Core.Heartbeat
import Clusdr.Core.Presence
import Clusdr.Metatheory.LockTable
import Clusdr.Metatheory.LeaseTable
import Clusdr.Metatheory.FencingTokens
import Clusdr.Metatheory.ExpiryRace
import Clusdr.Metatheory.FsmTables
import Clusdr.Metatheory.TableHalves
import Clusdr.Metatheory.SnapshotReplay
import Clusdr.Metatheory.MemberEngine
import Clusdr.Metatheory.MemberRestore
import Clusdr.Metatheory.MemberConvergence
import Clusdr.Metatheory.ReplicaClocks
import Clusdr.Metatheory.Submissions
import Clusdr.Metatheory.HolderIdentity
import Clusdr.Metatheory.RenewLoop
import Clusdr.Metatheory.ClientCache
import Clusdr.Metatheory.WatchStream
import Clusdr.Metatheory.WatchGaps
import Clusdr.Metatheory.SentGaps
import Clusdr.Metatheory.WatchConnection
import Clusdr.Metatheory.Reconnects
import Clusdr.Metatheory.PublishOrder
import Clusdr.Metatheory.OfferOrder
import Clusdr.Metatheory.MemberEvents
import Clusdr.Metatheory.SnapshotView
import Clusdr.Metatheory.WatchedDaemon
import Clusdr.Metatheory.WatcherFeed
import Clusdr.Metatheory.WatcherView
import Clusdr.Metatheory.LivenessLoops
import Clusdr.Metatheory.PresenceRecovery
import Clusdr.Metatheory.LeaderCalls
import Clusdr.Metatheory.RefusedJoins
import Clusdr.Metatheory.HandlerMoves
import Clusdr.Metatheory.GhostMembers
import Clusdr.Metatheory.RolesAndVotes
import Clusdr.Metatheory.ObserverJoins
import Clusdr.Metatheory.AdvertisedAddress
import Clusdr.Metatheory.ElectedAddress
import Clusdr.Metatheory.ForwardedRequests
import Clusdr.Metatheory.LockWaiters
import Clusdr.Metatheory.FailedCommands
import Clusdr.Metatheory.TableInvariant
import Clusdr.Metatheory.StaleGrants
import Clusdr.Runs.Machine
import Clusdr.Metatheory.TableEntries
import Clusdr.Metatheory.TwinTables
import Clusdr.Go.Millis
import Clusdr.Metatheory.TruncatedTable
import Clusdr.Metatheory.CommandLog
import Clusdr.Metatheory.CommittedLocks
import Clusdr.Metatheory.StandIn
import Clusdr.Dedup.Recent
import Clusdr.Core.EventService
import Clusdr.Metatheory.SeenIds
import Clusdr.Metatheory.EventNetwork
import Clusdr.Metatheory.CustomEvents
import Clusdr.Core.SdkPublish
import Clusdr.Metatheory.PublishRetries
import Clusdr.Calls.Program
import Clusdr.Calls.Process
import Clusdr.Calls.Trace
import Clusdr.Core.ClusdrCluster
import Clusdr.Core.Reconciler
import Clusdr.Core.Kube
import Clusdr.Metatheory.OperatorCalls
import Clusdr.Metatheory.ReadyReports
import Clusdr.Metatheory.TrustDomains
import Clusdr.Metatheory.RuntimeAccess
import Clusdr.Metatheory.LeaveReports
import Clusdr.Metatheory.OnlyLeaveRemoves
import Clusdr.Metatheory.SidecarObjects
import Clusdr.Metatheory.SidecarBootstrap
import Clusdr.Metatheory.SeedRegistry
import Clusdr.Metatheory.SeedPasses
import Clusdr.Metatheory.SeedClaim
import Clusdr.Metatheory.VoterSlots
import Clusdr.Metatheory.VoterPasses
import Clusdr.Metatheory.VoterCount
import Clusdr.Metatheory.RetriedGrants
import Clusdr.Metatheory.Lifetimes
import Clusdr.Metatheory.ServedCommands
import Clusdr.Metatheory.KeptLifetimes
import Clusdr.Metatheory.GrantResponses
import Clusdr.Metatheory.LeaveAttempts
import Clusdr.Feed.ChangeLog
import Clusdr.Metatheory.ChangeLog
import Clusdr.Metatheory.TopicRouting
import Clusdr.Metatheory.LeavingAgain
import Clusdr.Runs.Trace
import Clusdr.Go.Duration
import Clusdr.Core.Subscriptions
import Clusdr.Core.Config
import Clusdr.Core.InitCommand
import Clusdr.Metatheory.BusHandles
import Clusdr.Metatheory.BusAccounts
import Clusdr.Metatheory.HeartbeatTick
import Clusdr.Metatheory.PeerLives
import Clusdr.Metatheory.RaftTimeouts
import Clusdr.Metatheory.TokenOutput
import Clusdr.Core.Lifecycle
import Clusdr.Metatheory.Shutdown
import Clusdr.Core.Workloads
import Clusdr.Metatheory.PodIdentity
import Clusdr.Calls.Serve
import Clusdr.Metatheory.SettlingPasses
import Clusdr.Fencing.Notes
import Clusdr.Core.SdkCalls
import Clusdr.Metatheory.CacheNotes
import Clusdr.Metatheory.LendingServices
import Clusdr.Metatheory.ClosedClients
import Clusdr.Core.SnapshotText
import Clusdr.Metatheory.Recovery
