import KnIg.Lib.Bytes
import KnIg.Lib.Run
import KnIg.Lib.Keyed
import KnIg.Lib.Probe
import KnIg.Lib.Namei
import KnIg.File
import KnIg.Ebpf.PathCache
import KnIg.Lkm.ProcCache
import KnIg.Lkm.Policy
import KnIg.Lkm.Hooks
import KnIg.Lkm.Deletion
import KnIg.Lkm.Protection
import KnIg.Agent.Event
import KnIg.Agent.Baseline
import KnIg.Agent.ProcessEvent
import KnIg.Lib.BoundedMap
import KnIg.Lib.TreeWalk
import KnIg.Agent.Files
import KnIg.Ebpf.PolicyMap
import KnIg.Agent.Scan
import KnIg.Lkm.Client
import KnIg.Agent.Reload
import KnIg.Backend.Store.Schema
import KnIg.Backend.Store.AgentStore
import KnIg.Backend.Store.EnrollmentStore
import KnIg.Backend.Collector.Identity
import KnIg.Backend.Enrollment.Service
import KnIg.Backend.Enrollment.Claim
import KnIg.Backend.Collector.Protocol
import KnIg.Backend.Store.Revocation
import KnIg.Agent.Transport
import KnIg.Backend.Collector.FileEvent
import KnIg.Backend.Collector.AgentSession
import KnIg.Agent.Enroll.Crypto
import KnIg.Backend.Enrollment.XorCrypto
import KnIg.Enroll.Channel
import KnIg.Agent.Enroll.Messages
import KnIg.Backend.Enrollment.Messages
import KnIg.Enroll.Messages
import KnIg.Agent.Register
import KnIg.Enroll.Registration
import KnIg.Backend.Store.Binding
import KnIg.Lib.Delimited
import KnIg.Agent.Client
import KnIg.Link.Framing
import KnIg.Agent.Threads
import KnIg.Link.Events
import KnIg.Backend.Collector.Sessions
import KnIg.Backend.Collector.Takeover
import KnIg.Lib.Oracle
import KnIg.Agent.Enroll.Execute
import KnIg.Backend.Enrollment.Connection
import KnIg.Enroll.Sealed
import KnIg.Enroll.Parties
import KnIg.Enroll.Agreement
import KnIg.Backend.Collector.AgentId
import KnIg.Lib.Chunks
import KnIg.Link.Streams
import KnIg.Lib.Cursor
import KnIg.Backend.Collector.Grammar
import KnIg.Lib.Follow
import KnIg.Lkm.Chain
import KnIg.Lkm.Actor
import KnIg.Ebpf.ProcMap
import KnIg.Lkm.PolicyRuns
import KnIg.Security
import KnIg.Lkm.Lsm
import KnIg.Lib.Guards
import KnIg.Lkm.Builds
import KnIg.Ebpf.Lsm
import KnIg.Agent.Backends
import KnIg.Agent.Ledger
import KnIg.Agent.Connections
import KnIg.Backend.Collector.Sequence
import KnIg.Lib.RingBuffer
import KnIg.Agent.Queue
import KnIg.Lkm.CacheShape
import KnIg.Lkm.Eviction
import KnIg.Backend.Api.Auth
import KnIg.Backend.Store.EventStore
import KnIg.Link.Stored
import KnIg.Lib.Text
import KnIg.Report.Classify
import KnIg.Report.PathProfiles
import KnIg.Lib.Fallible
import KnIg.Lib.Dict
import KnIg.Report.Request
import KnIg.Report.Evidence
import KnIg.Report.Skeleton
import KnIg.Report.Aggregate
import KnIg.Report.Conservation
import KnIg.Report.Schemas
import KnIg.Report.Assemble
import KnIg.Report.Patches
import KnIg.Report.Matrix
import KnIg.Report.Consistency
import KnIg.Agent.BaselineRuns
import KnIg.Lkm.EventPath
import KnIg.Ebpf.Audit
import KnIg.Agent.Enroll.CertFiles
import KnIg.Backend.Api.Report
import KnIg.Backend.Api.Setup
import KnIg.Report.Comparison
import KnIg.Lib.SlotFilter
import KnIg.Ebpf.Dedup
import KnIg.Lib.Slice
import KnIg.Backend.Engine.Burst
import KnIg.Backend.Api.Sse
import KnIg.Backend.Api.SseHistory
import KnIg.Lib.Paging
import KnIg.Backend.Api.Events
import KnIg.Lib.Strtol
import KnIg.Agent.ProcStat
import KnIg.Agent.Ancestry
import KnIg.Ebpf.ChainCollect
import KnIg.Link.Ancestry
import KnIg.Lib.LinkedList
import KnIg.Agent.AncestryCache
import KnIg.Agent.Decode
import KnIg.Lib.WaitQueue
import KnIg.Lkm.EventFlow
import KnIg.Lib.Lines
import KnIg.Agent.Config
import KnIg.Agent.PidLock
import KnIg.Lib.Frames
import KnIg.Report.Provider
import KnIg.Report.Wire
import KnIg.Report.Stream
import KnIg.Link.Console
import KnIg.Backend.Api.Session
import KnIg.Lib.Prog
import KnIg.Lkm.Startup
import KnIg.Lkm.Lifecycle
