import PublicIntelligence.Lib.Aead
import PublicIntelligence.Lib.Base64
import PublicIntelligence.Lib.Bucket
import PublicIntelligence.Lib.Dict
import PublicIntelligence.Lib.Encoding
import PublicIntelligence.Lib.Framing
import PublicIntelligence.Lib.Json
import PublicIntelligence.Lib.JsonLines
import PublicIntelligence.Lib.JsonRead
import PublicIntelligence.Lib.KeyExpr
import PublicIntelligence.Lib.Posix
import PublicIntelligence.Lib.Runs
import PublicIntelligence.Lib.Table
import PublicIntelligence.Lib.Text
import PublicIntelligence.Lib.Tiling
import PublicIntelligence.Lib.Transaction
import PublicIntelligence.Lib.Utf8Stream
import PublicIntelligence.Lib.Words
import PublicIntelligence.Mesh.Auth
import PublicIntelligence.Mesh.Binding
import PublicIntelligence.Mesh.Protocol
import PublicIntelligence.Mesh.Replay
import PublicIntelligence.Mesh.Request
import PublicIntelligence.Node.Artifacts
import PublicIntelligence.Node.Inference
import PublicIntelligence.Node.LogBuffer
import PublicIntelligence.Node.MeshServer
import PublicIntelligence.Node.Ollama
import PublicIntelligence.Node.QueryThreads
import PublicIntelligence.Node.RadixCache
import PublicIntelligence.Node.RadixInsert
import PublicIntelligence.Node.RadixLookup
import PublicIntelligence.Node.RadixRuns
import PublicIntelligence.Node.RadixSearch
import PublicIntelligence.Node.Registration
import PublicIntelligence.Node.Runtime
import PublicIntelligence.Node.Worktrees
import PublicIntelligence.Scheduler.Admission
import PublicIntelligence.Scheduler.Algorithm
import PublicIntelligence.Scheduler.Canary
import PublicIntelligence.Scheduler.ChatStream
import PublicIntelligence.Scheduler.Credentials
import PublicIntelligence.Scheduler.Engine
import PublicIntelligence.Scheduler.FrontDoor
import PublicIntelligence.Scheduler.Gateway
import PublicIntelligence.Scheduler.Invites
import PublicIntelligence.Scheduler.Keys
import PublicIntelligence.Scheduler.Matchmaker
import PublicIntelligence.Scheduler.MeshClient
import PublicIntelligence.Scheduler.Metering
import PublicIntelligence.Scheduler.Metrics
import PublicIntelligence.Scheduler.ModelList
import PublicIntelligence.Scheduler.NodeApi
import PublicIntelligence.Scheduler.NodeDispatch
import PublicIntelligence.Scheduler.Pipeline
import PublicIntelligence.Scheduler.RateLimiter
import PublicIntelligence.Scheduler.Registry
import PublicIntelligence.Scheduler.Solvency
import PublicIntelligence.Scheduler.SqliteNodes
import PublicIntelligence.Scheduler.UsageHistory
import PublicIntelligence.Scheduler.ZenohRouter
import PublicIntelligence.System.Accrual
import PublicIntelligence.System.Artifacts
import PublicIntelligence.System.Atomicity
import PublicIntelligence.System.Balance
import PublicIntelligence.System.Catalogue
import PublicIntelligence.System.Completeness
import PublicIntelligence.System.Deadline
import PublicIntelligence.System.Departure
import PublicIntelligence.System.Envelopes
import PublicIntelligence.System.Eviction
import PublicIntelligence.System.Failures
import PublicIntelligence.System.FrontDoor
import PublicIntelligence.System.HttpRelay
import PublicIntelligence.System.Identity
import PublicIntelligence.System.Ingress
import PublicIntelligence.System.Integrity
import PublicIntelligence.System.InviteLimit
import PublicIntelligence.System.KeyRotation
import PublicIntelligence.System.Listing
import PublicIntelligence.System.LoadFeedback
import PublicIntelligence.System.LogStream
import PublicIntelligence.System.MeshCall
import PublicIntelligence.System.MeshDrain
import PublicIntelligence.System.Monitoring
import PublicIntelligence.System.Partition
import PublicIntelligence.System.Quarantine
import PublicIntelligence.System.Quiescence
import PublicIntelligence.System.Readmission
import PublicIntelligence.System.Recording
import PublicIntelligence.System.Restart
import PublicIntelligence.System.Restitching
import PublicIntelligence.System.Revocation
import PublicIntelligence.System.Streaming
import PublicIntelligence.System.TelemetrySafety
import PublicIntelligence.System.TensorFraming
import PublicIntelligence.System.TokenCounts
import PublicIntelligence.System.Topics
import PublicIntelligence.System.Transcript
import PublicIntelligence.System.Vigil
import PublicIntelligence.System.WriteThrough
import PublicIntelligence.Website.JsonParse
import PublicIntelligence.Website.Playground
import PublicIntelligence.Website.Sse
import PublicIntelligence.Website.Units
