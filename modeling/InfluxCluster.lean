import InfluxCluster.HH.SegmentSpec
import InfluxCluster.HH.SegmentRun
import InfluxCluster.HH.SegmentFaults
import InfluxCluster.HH.SegmentCrash
import InfluxCluster.HH.Queue
import InfluxCluster.HH.QueueSpec
import InfluxCluster.HH.QueueClean
import InfluxCluster.HH.QueueOpen
import InfluxCluster.HH.QueueFifo
import InfluxCluster.HH.QueueReopen
import InfluxCluster.HH.QueueFaults
import InfluxCluster.HH.QueueAck
import InfluxCluster.HH.Handoff
import InfluxCluster.Meta.Data
import InfluxCluster.Meta.Snapshot
import InfluxCluster.Meta.Command
import InfluxCluster.Meta.StoreFSM
import InfluxCluster.Lib.Lockstep
import InfluxCluster.Meta.Agreement
import InfluxCluster.Meta.Poison
import InfluxCluster.Meta.Registry
import InfluxCluster.Cluster.HandleConn
import InfluxCluster.Meta.Placement
import InfluxCluster.Meta.Client
import InfluxCluster.Meta.LongPoll
import InfluxCluster.Meta.Users
import InfluxCluster.Meta.Exec
import InfluxCluster.Meta.Isolation
import InfluxCluster.Meta.Join
import InfluxCluster.HH.Shutdown
import InfluxCluster.HH.Purge
import InfluxCluster.Meta.ShardGroups
import InfluxCluster.Meta.GroupCreation
import InfluxCluster.HH.QueueShape
import InfluxCluster.HH.QueuePurge
import InfluxCluster.HH.QueueRuns
import InfluxCluster.HH.QueueBounds
import InfluxCluster.Meta.Replicas
import InfluxCluster.Cluster.Pool
import InfluxCluster.Cluster.PoolRace
import InfluxCluster.Cluster.MapShards
import InfluxCluster.Cluster.PointWindows
import InfluxCluster.Rpc.Messages
import InfluxCluster.HH.SegmentCalls
import InfluxCluster.HH.ProcessorOpen
import InfluxCluster.Cluster.Handlers
import InfluxCluster.Lib.FanIn
import InfluxCluster.Cluster.GroupTimes
import InfluxCluster.Cluster.WritePoints
import InfluxCluster.Meta.Precreate
import InfluxCluster.Meta.ShardsByTimeRange
import InfluxCluster.Cluster.BucketLimit
import InfluxCluster.Meta.NodeUpdates
import InfluxCluster.Meta.ShardOwners
import InfluxCluster.Lib.SortSearch
import InfluxCluster.Meta.CloneFaithful
import InfluxCluster.Meta.Roles
import InfluxCluster.Cluster.PoolClose
import InfluxCluster.Cluster.SelectInto
import InfluxCluster.Rpc.JoinCluster
import InfluxCluster.Lib.RWMutex
import InfluxCluster.Meta.Locks
import InfluxCluster.HH.Backoff
import InfluxCluster.HH.ServiceMeta
import InfluxCluster.Meta.Traffic
import InfluxCluster.Meta.ClientOpen
import InfluxCluster.Cluster.Exchange
import InfluxCluster.Cluster.ServiceClose
import InfluxCluster.HH.Timers
import InfluxCluster.Meta.Delivery
import InfluxCluster.Cluster.Statements
import InfluxCluster.Cluster.Privileges
import InfluxCluster.Cluster.Normalize
import InfluxCluster.Config.EnvOverrides
import InfluxCluster.Tlv.Encoding
import InfluxCluster.Meta.StoreClose
import InfluxCluster.Meta.HttpApi
import InfluxCluster.Meta.Health
