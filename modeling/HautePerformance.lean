import HautePerformance.Library.Transition
import HautePerformance.Library.ThreadPool
import HautePerformance.Library.Counter
import HautePerformance.Library.Rpc
import HautePerformance.Library.RpcFrame
import HautePerformance.Library.RpcTyping
import HautePerformance.Library.RpcDelivery
import HautePerformance.Library.RpcEval
import HautePerformance.Library.RpcLogic
import HautePerformance.KvDistributed.Storage
import HautePerformance.KvDistributed.StorageLinearization
import HautePerformance.KvDistributed.StorageSteps
import HautePerformance.KvDistributed.VersionCounter
import HautePerformance.KvDistributed.VersionMonotonicity
import HautePerformance.KvDistributed.Expiration
import HautePerformance.KvDistributed.ConsistentHash
import HautePerformance.KvDistributed.Protocol
import HautePerformance.KvDistributed.Replication
import HautePerformance.KvDistributed.Server
import HautePerformance.KvDistributed.ClusterSteps
import HautePerformance.KvDistributed.VersionOverflow
import HautePerformance.KvDistributed.QuorumDurability
import HautePerformance.KvDistributed.Convergence
import HautePerformance.KvDistributed.AcknowledgedReads
import HautePerformance.KvDistributed.RequestTermination
import HautePerformance.KvDistributed.ClientConnection
import HautePerformance.Library.Families
import HautePerformance.Library.FirstOccurrences
import HautePerformance.Library.HighestStamp
import HautePerformance.Library.Lockstep
import HautePerformance.Library.Codec
import HautePerformance.Library.RpcTally
import HautePerformance.Library.PoolTotals
import HautePerformance.KvDistributed.RingRouting
import HautePerformance.KvDistributed.RingMembership
import HautePerformance.KvDistributed.ReplicaMerge
import HautePerformance.KvDistributed.LazyExpiration
import HautePerformance.KvDistributed.Wire
import HautePerformance.KvDistributed.ReceivedStreams
import HautePerformance.KvDistributed.FrameSizes
import HautePerformance.KvDistributed.PutEffects
import HautePerformance.KvDistributed.ScanAgreement
import HautePerformance.KvDistributed.DeleteResurrection
import HautePerformance.Demos.Dispatcher
import HautePerformance.Demos.TaskConservation
import HautePerformance.Library.Visits
import HautePerformance.Library.Majority
import HautePerformance.Library.CheckedInteger
import HautePerformance.Demos.Raft
import HautePerformance.Demos.RaftSteps
import HautePerformance.Demos.RaftElection
import HautePerformance.Demos.RaftLogs
import HautePerformance.Demos.RaftCompleteness
import HautePerformance.Demos.RaftLeaders
import HautePerformance.Library.EntryMerge
import HautePerformance.Library.CausalReplicas
import HautePerformance.Demos.Crdt
import HautePerformance.Demos.CounterReplicas
import HautePerformance.Demos.SetReplicas
import HautePerformance.Library.EventReplay
import HautePerformance.Demos.JobQueue
import HautePerformance.Demos.KvStoreRequests
import HautePerformance.Demos.KvStoreService
import HautePerformance.Demos.WatchReplay
import HautePerformance.Demos.WorkStealing
import HautePerformance.Library.ReleaseAcquire
import HautePerformance.Demos.MessagePassing
import HautePerformance.KvDistributed.ValueOrigins
import HautePerformance.Demos.Sharding
import HautePerformance.Library.Exposition
import HautePerformance.Demos.RaftProgress
import HautePerformance.Library.Monitor
import HautePerformance.Library.Linearization
import HautePerformance.Library.MonitorPrograms
import HautePerformance.Library.MonitorWakeUps
import HautePerformance.Demos.RingBuffer
import HautePerformance.Demos.BufferOrder
import HautePerformance.Demos.BufferTransfer
import HautePerformance.Demos.BufferWakeUps
import HautePerformance.Demos.BoundedQueue
import HautePerformance.Demos.BufferClosing
import HautePerformance.Demos.CircuitBreaker
import HautePerformance.Demos.CircuitWindow
import HautePerformance.Demos.CircuitProbes
import HautePerformance.Library.RoundReading
import HautePerformance.Library.RunTotals
import HautePerformance.KvDistributed.PreferenceList
import HautePerformance.Library.AscendingKeys
import HautePerformance.KvDistributed.ScanResults
import HautePerformance.KvDistributed.ReplicationLag
import HautePerformance.KvDistributed.MetricsPage
import HautePerformance.Library.SeparatedList
import HautePerformance.KvDistributed.PeerNames
import HautePerformance.KvDistributed.NodeHealth
import HautePerformance.KvDistributed.ReadAvailability
import HautePerformance.Library.RpcFaults
import HautePerformance.KvDistributed.WriteAvailability
import HautePerformance.Library.RpcEffects
import HautePerformance.KvDistributed.FailedPuts
import HautePerformance.Library.PoolBalance
import HautePerformance.KvDistributed.ServerCounters
import HautePerformance.Library.PoolHistory
import HautePerformance.KvDistributed.StatsSnapshots
import HautePerformance.KvDistributed.SnapshotCoherence
import HautePerformance.Library.OrderStatistics
import HautePerformance.Demos.ParallelMaximum
import HautePerformance.Library.MonitorResiduals
import HautePerformance.Library.Numerals
import HautePerformance.Library.WordSums
import HautePerformance.Demos.ParallelSums
import HautePerformance.Demos.Percentiles
import HautePerformance.Demos.SelectedPercentiles
import HautePerformance.Demos.HistogramPercentiles
import HautePerformance.Library.KeyedTotals
import HautePerformance.Library.Reduction
import HautePerformance.Demos.LogPipeline
import HautePerformance.Demos.LogLines
import HautePerformance.Library.Atomic
import HautePerformance.Library.PoolUpdates
import HautePerformance.Demos.LockFreeStats
import HautePerformance.Library.Varint
import HautePerformance.Demos.ProtobufEncoding
import HautePerformance.Library.ShiftXor
import HautePerformance.Demos.JitterGenerator
