import RpcInGo.Lib.Channel
import RpcInGo.Lib.Goroutine
import RpcInGo.Protocol.Message
import RpcInGo.Pool.Options
import RpcInGo.Pool.Model
import RpcInGo.Pool.Closing
import RpcInGo.Pool.Accounting
import RpcInGo.Pool.Capacity
import RpcInGo.Pool.Shutdown
import RpcInGo.Pool.Handout
import RpcInGo.Client.ErrorMap
import RpcInGo.Client.CallOnce
import RpcInGo.Client.CallTyped
import RpcInGo.Tcp.Responses
import RpcInGo.Tcp.ConnLife
import RpcInGo.Tcp.Tokens
import RpcInGo.Tcp.Drain
import RpcInGo.Tcp.ClientModel
import RpcInGo.Tcp.Multiplex
import RpcInGo.Balancer.HashRing
import RpcInGo.Balancer.ConcurrentPick
import RpcInGo.Client.Call
import RpcInGo.Breaker.Model
import RpcInGo.Breaker.Periods
import RpcInGo.Breaker.Probes
import RpcInGo.Breaker.Sequential
import RpcInGo.Lib.Feed
import RpcInGo.Registry.Memory
import RpcInGo.Client.Source
import RpcInGo.Client.CacheSync
import RpcInGo.Registry.EtcdWatcher
import RpcInGo.Protocol.Header
import RpcInGo.Codec.Bodies
import RpcInGo.Codec.Payloads
import RpcInGo.Codec.Registry
import RpcInGo.Tcp.Framing
import RpcInGo.Lib.Metering
import RpcInGo.RateLimit.TokenBucket
import RpcInGo.Balancer.RingPoints
import RpcInGo.Pool.Waiting
import RpcInGo.RateLimit.SlidingWindow
import RpcInGo.Balancer.Stability
import RpcInGo.Balancer.Affinity
import RpcInGo.Balancer.RoundRobin
import RpcInGo.Server.ErrorMap
import RpcInGo.Server.Dispatch
import RpcInGo.Tcp.WriteFailure
import RpcInGo.Lib.Ring
import RpcInGo.Lib.Observe
import RpcInGo.RateLimit.Polling
import RpcInGo.Breaker.Counting
import RpcInGo.Pool.Refill
import RpcInGo.Tcp.WriteOrder
import RpcInGo.Tcp.CloseReturn
import RpcInGo.Tcp.SendReturns
import RpcInGo.Tcp.SocketClose
import RpcInGo.Client.StatusFilter
import RpcInGo.Client.WatchLife
import RpcInGo.Lib.Calls
import RpcInGo.Lib.Cycle
import RpcInGo.Balancer.Weighted
import RpcInGo.Balancer.OwnList
import RpcInGo.Lib.Slices
import RpcInGo.Client.SharedSlice
import RpcInGo.Registry.Shutdown
import RpcInGo.Client.CachedOnce
import RpcInGo.Tcp.Redial
import RpcInGo.Tcp.BodyLimit
import RpcInGo.Lib.Solo
import RpcInGo.Pool.GetAlone
import RpcInGo.Pool.Routines
import RpcInGo.Pool.DrainLoop
import RpcInGo.Client.DeletedPools
import RpcInGo.RateLimit.WaitTime
import RpcInGo.RateLimit.Wrapping
import RpcInGo.Lib.HostPort
import RpcInGo.Server.Registration
import RpcInGo.Lib.Separated
import RpcInGo.Registry.EtcdKeys
import RpcInGo.Server.Services
import RpcInGo.Codec.StreamProto
import RpcInGo.Codec.StreamJson
import RpcInGo.Server.HandleRequest
import RpcInGo.Tcp.Completion
import RpcInGo.Tcp.ResponseIDs
import RpcInGo.Balancer.RingScan
import RpcInGo.Intercept.Attempts
import RpcInGo.MiniRpc.Transport
import RpcInGo.Client.Breakers
import RpcInGo.Client.EtcdCache
import RpcInGo.Pool.Managed
import RpcInGo.Pool.OpenPools
import RpcInGo.System.Caller
import RpcInGo.System.EndToEnd
import RpcInGo.Client.Routing
import RpcInGo.MiniRpc.Calls
import RpcInGo.Registry.Interface
import RpcInGo.Server.Lifecycle
import RpcInGo.Server.Registered
import RpcInGo.Server.Stopping
