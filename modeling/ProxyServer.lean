import ProxyServer.Request.Framing
import ProxyServer.Request.Chunked
import ProxyServer.Request.CacheControl
import ProxyServer.Request.Streaming
import ProxyServer.Request.Escapes
import ProxyServer.Server.Handlers
import ProxyServer.Server.Validation
import ProxyServer.Tunnel.HalfClose
import ProxyServer.Tunnel.Refinement
import ProxyServer.Foundation.Tokens
import ProxyServer.Resolver.Conservation
import ProxyServer.Server.LiveHandlers
import ProxyServer.Server.Fallback
import ProxyServer.Server.Routing
import ProxyServer.Server.Dispatch
import ProxyServer.Exchange.Forwarding
import ProxyServer.Request.HeaderEnd
import ProxyServer.Request.Progress
import ProxyServer.Request.CacheOrder
import ProxyServer.Resolver.Ports
import ProxyServer.Server.Ports
import ProxyServer.Resolver.Stop
import ProxyServer.Request.Lengths
import ProxyServer.Exchange.Bodyless
import ProxyServer.Exchange.Reuse
import ProxyServer.Request.CacheKeys
import ProxyServer.Request.Replay
import ProxyServer.Resolver.Answers
import ProxyServer.Queue.Ownership
import ProxyServer.Server.BackPressure
import ProxyServer.Server.IdleTimes
import ProxyServer.Tunnel.Swap
import ProxyServer.Server.Attended
import ProxyServer.Resolver.Wakeups
import ProxyServer.System.Clients
import ProxyServer.Server.Failures
import ProxyServer.Server.Isolation
import ProxyServer.Server.Services
import ProxyServer.Exchange.Refinement
