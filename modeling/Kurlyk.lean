import Kurlyk.Lib.Table
import Kurlyk.Lib.System
import Kurlyk.Lib.Log
import Kurlyk.Lib.Position
import Kurlyk.Lib.Custody
import Kurlyk.Lib.Books
import Kurlyk.Lib.Window
import Kurlyk.RateLimiter.Basic
import Kurlyk.RateLimiter.Spec
import Kurlyk.RateLimiter.Handles
import Kurlyk.RateLimiter.Run
import Kurlyk.RateLimiter.Throttle
import Kurlyk.RateLimiter.FirstWindow
import Kurlyk.RateLimiter.Obstruction
import Kurlyk.Lib.Duration
import Kurlyk.RateLimiter.Delay
import Kurlyk.RateLimiter.Isolation
import Kurlyk.RateLimiter.Tokens
import Kurlyk.Http.Request
import Kurlyk.Http.Manager
import Kurlyk.Http.World
import Kurlyk.Http.Transition
import Kurlyk.Http.Lifecycle
import Kurlyk.Http.Custody
import Kurlyk.Http.Callbacks
import Kurlyk.Http.Groups
import Kurlyk.Http.Control
import Kurlyk.Http.Promises
import Kurlyk.Http.CancelCalls
import Kurlyk.Http.Waiters
import Kurlyk.Http.Shutdown
import Kurlyk.Http.Handlers
import Kurlyk.Http.CancelScan
import Kurlyk.Http.Limits
import Kurlyk.Http.Sequential
import Kurlyk.Http.DispatchOrder
import Kurlyk.Http.Streaming
import Kurlyk.Lib.Simulation
import Kurlyk.Http.LimiterCalls
import Kurlyk.Http.Backlog
import Kurlyk.Lib.Execution
import Kurlyk.Http.Progress
import Kurlyk.Http.Futures
import Kurlyk.Http.Unloaded
import Kurlyk.Http.ClientLimits
import Kurlyk.RateLimiter.Lifetime
import Kurlyk.WebSocket.RateLimiter
import Kurlyk.WebSocket.Client
import Kurlyk.WebSocket.Transition
import Kurlyk.WebSocket.World
import Kurlyk.WebSocket.Connection
import Kurlyk.Lib.Routine
import Kurlyk.WebSocket.Blocks
import Kurlyk.WebSocket.Callbacks
import Kurlyk.WebSocket.Interruption
import Kurlyk.WebSocket.Exceptions
import Kurlyk.WebSocket.Configuration
import Kurlyk.WebSocket.Announcements
import Kurlyk.WebSocket.Calls
import Kurlyk.WebSocket.Attempts
import Kurlyk.WebSocket.Disconnect
import Kurlyk.WebSocket.Shutdown
import Kurlyk.WebSocket.Stale
import Kurlyk.WebSocket.Sends
import Kurlyk.Lib.Locks
import Kurlyk.Core.Locks
import Kurlyk.Core.Callbacks
import Kurlyk.Core.NetworkWorker
import Kurlyk.Core.Wakeups
import Kurlyk.Core.Stopping
import Kurlyk.Core.Tasks
import Kurlyk.Lib.Dispatch
import Kurlyk.Core.Dispatch
import Kurlyk.Lib.Bits
import Kurlyk.Utils.Characters
import Kurlyk.Utils.Base64Url
import Kurlyk.Utils.PercentEncoding
import Kurlyk.Utils.QueryString
import Kurlyk.Lib.Text
import Kurlyk.Utils.UrlScheme
import Kurlyk.Utils.UrlValidation
import Kurlyk.Utils.HttpHeader
import Kurlyk.Lib.Rejection
import Kurlyk.Utils.Pkce
import Kurlyk.Http.ProxyConfig
import Kurlyk.Http.OAuthToken
import Kurlyk.Http.Url
import Kurlyk.Http.OAuthSession
import Kurlyk.Utils.CookieParser
import Kurlyk.Utils.CookieSegments
import Kurlyk.WebSocket.Messages
import Kurlyk.WebSocket.Retries
import Kurlyk.Lib.Tally
import Kurlyk.WebSocket.Throttle
import Kurlyk.WebSocket.SendOrder
import Kurlyk.WebSocket.SimpleWebSocketWorker
import Kurlyk.WebSocket.Lifetime
import Kurlyk.Http.JsonDocuments
import Kurlyk.Http.ProxyChecker
