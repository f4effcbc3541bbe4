import RpcFramework.Lib.BigEndian
import RpcFramework.Lib.Framing
import RpcFramework.Lib.StepRun
import RpcFramework.Codec.Received
import RpcFramework.Codec.ReceiveLoop
import RpcFramework.Codec.Stream
import RpcFramework.CircuitBreaker.Breaker
import RpcFramework.Client.Calls
import RpcFramework.Client.ExactlyOnce
import RpcFramework.Client.Outcomes
import RpcFramework.Lib.Mirrors
import RpcFramework.Pool.Ownership
import RpcFramework.Network.TcpConnection
import RpcFramework.Network.GracefulShutdown
import RpcFramework.Network.EventLoop
import RpcFramework.Network.LoopThread
import RpcFramework.Pool.Acquire
import RpcFramework.Discovery.MemoryRegistry
import RpcFramework.Discovery.Convergence
import RpcFramework.Server.RpcServer
import RpcFramework.Codec.Grammar
import RpcFramework.Network.ByteQueue
import RpcFramework.Network.Connector
import RpcFramework.Network.TcpClient
import RpcFramework.Network.Lifecycle
import RpcFramework.Client.InlinePipeline
import RpcFramework.Lib.SortedMap
import RpcFramework.CircuitBreaker.TripRule
import RpcFramework.LoadBalance.ConsistentHash
import RpcFramework.Codec.Resync
import RpcFramework.Discovery.EtcdRegistry
import RpcFramework.Lib.Bucket
import RpcFramework.RateLimiter.RedisTokenBucket
import RpcFramework.Client.Endpoints
import RpcFramework.Client.Replies
import RpcFramework.Client.Orphans
import RpcFramework.Lib.ShiftRegister
import RpcFramework.Codec.Burst
import RpcFramework.Codec.Limits
import RpcFramework.Codec.Reuse
import RpcFramework.RateLimiter.TokenBucket
import RpcFramework.RateLimiter.RedisAdmission
import RpcFramework.RateLimiter.Fallback
import RpcFramework.Discovery.NodeTable
import RpcFramework.Pool.Selection
import RpcFramework.Codec.BitwiseCrc
import RpcFramework.Client.InlineSync
import RpcFramework.Client.Sending
import RpcFramework.Client.Tracing
import RpcFramework.Lib.Guarded
import RpcFramework.LoadBalance.DefaultHash
import RpcFramework.Codec.Reads
import RpcFramework.Lib.PriorityQueue
import RpcFramework.Network.TimerQueue
import RpcFramework.Network.TimerCancel
import RpcFramework.Network.TimerPeriod
import RpcFramework.Codec.Progress
import RpcFramework.Network.TimerStore
import RpcFramework.Network.TimerPasses
import RpcFramework.Codec.Delivery
import RpcFramework.Client.Hearing
import RpcFramework.Lib.Simulation
import RpcFramework.System.Exchange
import RpcFramework.System.Connection
import RpcFramework.Lib.Workers
import RpcFramework.Network.Poller
import RpcFramework.Network.TcpServer
import RpcFramework.Network.ServerLives
import RpcFramework.Network.ServerSafety
import RpcFramework.Network.ServerDrain
import RpcFramework.Network.ServerSweep
import RpcFramework.Client.Routing
import RpcFramework.Client.Heartbeat
import RpcFramework.Network.Reconnect
import RpcFramework.Network.TimedLoop
import RpcFramework.Pool.Lifetime
import RpcFramework.CircuitBreaker.Threads
import RpcFramework.CircuitBreaker.Recovery
