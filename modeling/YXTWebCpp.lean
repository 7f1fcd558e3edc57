import YXTWebCpp.Scan.Basic
import YXTWebCpp.Http.Request
import YXTWebCpp.Http.Http11Parser
import YXTWebCpp.Http.Parser
import YXTWebCpp.Http.Stream
import YXTWebCpp.Http.Split
import YXTWebCpp.Http.Receive
import YXTWebCpp.Http.Server
import YXTWebCpp.LTS.Basic
import YXTWebCpp.IOManager.Basic
import YXTWebCpp.IOManager.Invariant
import YXTWebCpp.IOManager.History
import YXTWebCpp.IOManager.Snapshot
import YXTWebCpp.Timer.Basic
import YXTWebCpp.Hook.Timeout
import YXTWebCpp.Scheduler.Queue
import YXTWebCpp.Fiber.Resume
import YXTWebCpp.IOManager.Workers
import YXTWebCpp.IOManager.Wakeup
import YXTWebCpp.IOManager.Shutdown
import YXTWebCpp.IOManager.Stop
import YXTWebCpp.IOManager.Growth
import YXTWebCpp.FdManager.Basic
import YXTWebCpp.LTS.Lock
import YXTWebCpp.Timer.Concurrent
import YXTWebCpp.Timer.Locking
import YXTWebCpp.IOManager.Locking
import YXTWebCpp.Blocks.Basic
import YXTWebCpp.ByteArray.Basic
import YXTWebCpp.LTS.Object
import YXTWebCpp.ByteArray.Flat
import YXTWebCpp.Codec.Basic
import YXTWebCpp.ByteArray.Typed
import YXTWebCpp.ByteArray.Numbers
import YXTWebCpp.ByteArray.Strings
import YXTWebCpp.Hook.Close
import YXTWebCpp.Timer.Deadlines
import YXTWebCpp.Fiber.Switch
import YXTWebCpp.Http.Memory
import YXTWebCpp.Http.Response
import YXTWebCpp.Http.Connection
import YXTWebCpp.LTS.History
import YXTWebCpp.Http.Servlet
import YXTWebCpp.Config.Basic
import YXTWebCpp.Log.Formatter
import YXTWebCpp.Log.Logger
import YXTWebCpp.Log.Config
import YXTWebCpp.Http.Callbacks
import YXTWebCpp.Http.Body
import YXTWebCpp.ByteArray.Reachable
import YXTWebCpp.ByteArray.Positional
import YXTWebCpp.ByteArray.File
import YXTWebCpp.Stream.FixSize
import YXTWebCpp.Stream.SocketStream
import YXTWebCpp.ByteArray.Truncated
import YXTWebCpp.Http.Length
import YXTWebCpp.Timer.Expiry
import YXTWebCpp.Http.Param
import YXTWebCpp.Http.Lazy
import YXTWebCpp.Http.Method
import YXTWebCpp.Http.Delimited
import YXTWebCpp.Codec.Bits
import YXTWebCpp.Address.Basic
import YXTWebCpp.Address.IPv4
import YXTWebCpp.Address.IPv6
import YXTWebCpp.Address.Text
import YXTWebCpp.Address.Lookup
import YXTWebCpp.Address.Interfaces
import YXTWebCpp.Log.Pattern
import YXTWebCpp.Yaml.Node
import YXTWebCpp.Log.Define
import YXTWebCpp.Log.Appenders
import YXTWebCpp.Tcp.Server
import YXTWebCpp.LTS.Guard
import YXTWebCpp.Http.Headers
import YXTWebCpp.Hook.Sleep
import YXTWebCpp.Hook.Setsockopt
import YXTWebCpp.Http.DispatchLock
import YXTWebCpp.Codec.Varint
import YXTWebCpp.ByteArray.Varint
import YXTWebCpp.Text.Strip
import YXTWebCpp.Util.Trim
import YXTWebCpp.Scan.Triple
import YXTWebCpp.Scan.Token
import YXTWebCpp.Http.Grammar
import YXTWebCpp.Http.RoundTrip
import YXTWebCpp.Http.HttpclientParser
import YXTWebCpp.Http.ResponseParser
import YXTWebCpp.Http.ResponseRoundTrip
import YXTWebCpp.Yaml.Walk
import YXTWebCpp.Config.Loading
import YXTWebCpp.Log.Output
import YXTWebCpp.Log.Loading
import YXTWebCpp.Tcp.Lifecycle
import YXTWebCpp.Env.Basic
import YXTWebCpp.Hook.Nonblock
import YXTWebCpp.Scheduler.Start
import YXTWebCpp.Maps.Container
import YXTWebCpp.Config.Lexical
