import Gmaker.Biz.OwnRows
import Gmaker.Cache.Aside
import Gmaker.Cache.DoLoad
import Gmaker.Cache.Freshness
import Gmaker.Cache.GetBatch
import Gmaker.Cache.HalfOpen
import Gmaker.Gateway.Isolation
import Gmaker.Gateway.PlayerMaps
import Gmaker.Gateway.RoomMaps
import Gmaker.Matching.DoMatch
import Gmaker.Matching.ServiceWf
import Gmaker.Net.AsyncUpstreamPool
import Gmaker.Net.KcpConnection
import Gmaker.Net.KcpServer
import Gmaker.Net.Backpressure
import Gmaker.Net.Coalescer
import Gmaker.Net.ClientHandshake
import Gmaker.Net.Codec
import Gmaker.Net.TcpClosed
import Gmaker.Net.TcpConnection
import Gmaker.Net.TcpStream
import Gmaker.Net.UpstreamNode
import Gmaker.Net.WsClosing
import Gmaker.Net.WsStream
import Gmaker.Realtime.Combat
import Gmaker.Realtime.EntityIds
import Gmaker.Realtime.LifeCycle
import Gmaker.Realtime.Movement
import Gmaker.Realtime.TowerFire
import Gmaker.Realtime.Reconnect
import Gmaker.Realtime.Rejoin
import Gmaker.Realtime.Roster
import Gmaker.Realtime.Verdict
import Gmaker.Registry.ClientPoolSafe
import Gmaker.Registry.Subscriber
import Gmaker.Replay
import Gmaker.Rpc.CppClient
import Gmaker.Rpc.GoClient
import Gmaker.Lib.Filing
import Gmaker.Lib.Decimal
import Gmaker.Matching.DriveForward
import Gmaker.Matching.MmrIndex
import Gmaker.Realtime.Finality
import Gmaker.Realtime.FriendlyFire
import Gmaker.Realtime.Server
import Gmaker.Realtime.Routes
import Gmaker.Realtime.Authentication
import Gmaker.Realtime.History
import Gmaker.Matching.Rollback
import Gmaker.Cache.StampedeLock
import Gmaker.Chat.Backends
import Gmaker.Chat.SharedRecord
import Gmaker.Config.Gray
import Gmaker.Config.SchemaVerdict
import Gmaker.Config.Watcher
import Gmaker.LogStats
import Gmaker.Dbproxy.PlayerData
import Gmaker.Lock.RedisLock
import Gmaker.Login.RefreshToken
import Gmaker.Config.Atomic
import Gmaker.Config.Pull
import Gmaker.Discovery.Etcd
import Gmaker.Discovery.UpstreamManager
import Gmaker.Lib.Tipping
import Gmaker.Realtime.Targets
import Gmaker.Realtime.FixedWords
import Gmaker.Realtime.ReplayRecorder
import Gmaker.Realtime.Scores
import Gmaker.Realtime.Casts
import Gmaker.Realtime.Projectiles
import Gmaker.Net.RingQueue
import Gmaker.Net.WsFrame
import Gmaker.Net.WsAccept
import Gmaker.Net.Buffer
import Gmaker.Gateway.CommonResult
import Gmaker.Idgen.Snowflake
import Gmaker.Lib.SqlString
import Gmaker.Tools.Xlsx2all
import Gmaker.Lib.RateLimit
import Gmaker.Limiter.TokenBucket
import Gmaker.Limiter.CppTokenBucket
import Gmaker.Limiter.HotKey
import Gmaker.Realtime.Aoi
import Gmaker.Realtime.AoiRoom
import Gmaker.Lib.ExchangeSort
import Gmaker.Lib.Pages
import Gmaker.Chat.Listing
import Gmaker.Gateway.Forwarding
import Gmaker.Lib.Ladder
import Gmaker.Realtime.Experience
import Gmaker.Lib.XorShift
import Gmaker.Realtime.Prng
import Gmaker.Dbproxy.Shards
import Gmaker.Realtime.Hits
import Gmaker.Realtime.Determinism
import Gmaker.Matching.Cancel
