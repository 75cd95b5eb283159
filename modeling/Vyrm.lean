import Vyrm.Kv.Manifest.Chain
import Vyrm.Store.Migration.Rollback
import Vyrm.Cluster.Sim.Commit
import Vyrm.Store.Migration
import Vyrm.Ql.Rearrange
import Vyrm.Mx.ClaimRows
import Vyrm.Store.Projection.Quarantine
import Vyrm.Core.Schema
import Vyrm.Store.Native
import Vyrm.Store.Fjall
import Vyrm.Store.Projection
import Vyrm.Store.Writer
import Vyrm.Store.Writer.Flush
import Vyrm.Store.Native.View
import Vyrm.Store.Memory
import Vyrm.Store.Memory.Assert
import Vyrm.Core.Runtime.Preview
import Vyrm.Core.Runtime.Envelope
import Vyrm.Core.Temporal
import Vyrm.Core.Runtime.Injective
import Vyrm.Core.Key.Order
import Vyrm.Lib.Bytes
import Vyrm.Lib.FaultFs
import Vyrm.Lib.Fallible
import Vyrm.Lib.HashChain
import Vyrm.Lib.Path
import Vyrm.Lib.Wp
import Vyrm.Lib.Mvcc
import Vyrm.Lib.Json
import Vyrm.Core.Digest
import Vyrm.Core.Reasoning.Replay
import Vyrm.Kv.Error
import Vyrm.Kv.Batch
import Vyrm.Kv.Platform
import Vyrm.Kv.Reference
import Vyrm.Kv.Wal
import Vyrm.Kv.Wal.Frames
import Vyrm.Kv.Wal.Writer
import Vyrm.Kv.Wal.Prefix
import Vyrm.Kv.Memtable
import Vyrm.Kv.Segment.Format
import Vyrm.Kv.Segment.Read
import Vyrm.Kv.Segment.Records
import Vyrm.Kv.Segment.Spec
import Vyrm.Kv.Segment.ReadSpec
import Vyrm.Kv.Segment.ReadPaths
import Vyrm.Kv.Memtable.Spec
import Vyrm.Kv.Memtable.Replay
import Vyrm.Kv.Segment.RoundTrip
import Vyrm.Kv.Manifest
import Vyrm.Kv.Rules
import Vyrm.Kv.Manifest.Spec
import Vyrm.Kv.SnapshotBundle
import Vyrm.Kv.Database
import Vyrm.Kv.Database.Read
import Vyrm.Kv.Database.ReadSpec
import Vyrm.Kv.Database.Disk
import Vyrm.Kv.Database.Publish
import Vyrm.Kv.Database.Flush
import Vyrm.Kv.Database.Write
import Vyrm.Kv.Database.Merge
import Vyrm.Kv.Database.Compact
import Vyrm.Kv.SnapshotBundle.Spec
import Vyrm.Kv.Database.Install
import Vyrm.Kv.Database.Create
import Vyrm.Kv.Database.Maintain
import Vyrm.Kv.Database.Run
import Vyrm.Kv.Database.Scenario
import Vyrm.Kv.Database.Reads
import Vyrm.Kv.Database.Invariant
import Vyrm.Kv.Database.History
import Vyrm.Cluster.Raft
import Vyrm.Cluster.Raft.Agreement
import Vyrm.Cluster.Raft.Fencing
import Vyrm.Cluster.Raft.Once
import Vyrm.Lib.TopK
import Vyrm.Vector.Contract
import Vyrm.Vector.Exact
import Vyrm.Vector.Hnsw
import Vyrm.Vector.Hnsw.Exhaustive
import Vyrm.Vector.Hnsw.Sound
import Vyrm.Vector.Filter.Order
import Vyrm.Vector.Runtime.Exact
import Vyrm.Vector.Runtime.Overflow
import Vyrm.Cluster.Raft.LogReference
import Vyrm.Cluster.Raft.LogRun
import Vyrm.Cluster.SnapshotVector
import Vyrm.Core.Runtime.Chain
import Vyrm.Core.Schema.Windows
import Vyrm.Core.Trace
import Vyrm.Graph.Ground
import Vyrm.Kv.Batch.Codec
import Vyrm.Kv.Database.Readable
import Vyrm.Kv.SnapshotBundle.Codec
import Vyrm.Kv.Wal.Poison
import Vyrm.Lib.Paging
import Vyrm.Lib.Placed
import Vyrm.Mx.Bind
import Vyrm.Mx.Filters
import Vyrm.Node.Hook
import Vyrm.Node.Hook.Attempts
import Vyrm.Node.Reasoning.Writers
import Vyrm.Store.Ds
import Vyrm.Lib.Bfs
import Vyrm.Store.Native.Spaces
import Vyrm.Core.Digest.Stream
import Vyrm.Cluster.ControlLine
import Vyrm.Embed.FeatureHash
import Vyrm.Node.Workflow.Direct
import Vyrm.Kv.Segment.Cache
import Vyrm.Lib.Delta
import Vyrm.Core.Runtime.Traverse
import Vyrm.Core.Runtime.Diff
import Vyrm.Lib.FirstFit
import Vyrm.Core.Recall
import Vyrm.Store.Gc
import Vyrm.Lib.Digits
import Vyrm.Kv.Database.Survivors
import Vyrm.Kv.Database.Crash
import Vyrm.Store.Migration.Codec
