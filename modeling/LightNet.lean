import LightNet.Foundation.Run
import LightNet.Foundation.Lossy
import LightNet.Foundation.Feed
import LightNet.Foundation.LittleEndian
import LightNet.Foundation.Consumer
import LightNet.Foundation.Framing
import LightNet.Foundation.Utf8
import LightNet.Foundation.UnorderedMap
import LightNet.Foundation.Tally
import LightNet.Foundation.Buckets
import LightNet.Foundation.FloatOrder
import LightNet.Foundation.Loop
import LightNet.Foundation.Threads
import LightNet.Foundation.Decimal
import LightNet.Foundation.Latest
import LightNet.Foundation.Nearest
import LightNet.Foundation.Motion
import LightNet.Foundation.Extended
import LightNet.Core.Buffer
import LightNet.Core.BufferQueue
import LightNet.Core.BufferRun
import LightNet.Core.ByteQueue
import LightNet.Core.EventLoop
import LightNet.Core.TimerContract
import LightNet.Core.TickLoop
import LightNet.Core.Reactor
import LightNet.Core.Pace
import LightNet.Core.Prompt
import LightNet.Core.EventLoopThreadPool
import LightNet.Http.Message
import LightNet.Http.Parser
import LightNet.Http.ParserQueue
import LightNet.Http.Chunks
import LightNet.Http.Pipeline
import LightNet.Http.Section
import LightNet.Http.ContentLength
import LightNet.Http.KeepAlive
import LightNet.Http.HeaderOrder
import LightNet.Coro.Task
import LightNet.Coro.Frames
import LightNet.Coro.Handler
import LightNet.Coro.Served
import LightNet.Coro.AsyncRead
import LightNet.Coro.AsyncSleep
import LightNet.Http.Server
import LightNet.Http.Exchanges
import LightNet.Http.Connection
import LightNet.Http.Routes
import LightNet.Http.Responses
import LightNet.Http.Client
import LightNet.Rpc.Codec
import LightNet.Rpc.Framing
import LightNet.Rpc.Grammar
import LightNet.Rpc.Server
import LightNet.Rpc.Connection
import LightNet.Rpc.Responses
import LightNet.Rpc.Wire
import LightNet.Coro.Exit
import LightNet.Coro.Spin
import LightNet.Coro.Echo
import LightNet.Game.Float
import LightNet.Game.FloatLaws
import LightNet.Game.Packet
import LightNet.Game.Codec
import LightNet.Game.Wire
import LightNet.Game.Room
import LightNet.Game.RoomManager
import LightNet.Game.Server
import LightNet.Game.Pace
import LightNet.Game.Sessions
import LightNet.Game.PeerIndex
import LightNet.Game.Malformed
import LightNet.Game.PacketFraming
import LightNet.Game.Payloads
import LightNet.Game.Text
import LightNet.Game.Snapshot
import LightNet.Game.Events
import LightNet.Game.Deeds
import LightNet.Game.Handling
import LightNet.Game.Ownership
import LightNet.Game.Serving
import LightNet.Game.Scoreboard
import LightNet.Game.Scores
import LightNet.Game.Ledger
import LightNet.Game.Respawn
import LightNet.Game.Frozen
import LightNet.Game.Course
import LightNet.Game.Life
import LightNet.Game.Inputs
import LightNet.Game.Exact
import LightNet.Game.Clock
import LightNet.Game.Revival
import LightNet.Game.Targeting
import LightNet.Game.Teleport
import LightNet.Game.Speed
import LightNet.Game.Special
import LightNet.Game.Slots
import LightNet.Game.Operations
import LightNet.Game.Addressed
import LightNet.Game.Feed
import LightNet.Game.Client
import LightNet.Game.Network
import LightNet.Game.Applied
import LightNet.Net.TcpConnection
import LightNet.Net.Output
import LightNet.Net.Shutdown
import LightNet.Net.Lifecycle
import LightNet.Net.Delivered
import LightNet.Net.Terminal
import LightNet.Net.Waiters
import LightNet.Net.TcpServer
import LightNet.Net.Teardown
import LightNet.Net.Counted
import LightNet.Net.SockAddr
import LightNet.Net.UdpServer
import LightNet.Metrics.Histogram
import LightNet.Metrics.Prometheus
import LightNet.Log.Logger
import LightNet.Core.EpollPoller
import LightNet.Core.IoUringPoller
