import MiniMask.Lib.Transition
import MiniMask.Lib.Framing
import MiniMask.Lib.AtomicFile
import MiniMask.Lib.Registry
import MiniMask.Protocol
import MiniMask.Config
import MiniMask.Store.Clients
import MiniMask.Store.Auth
import MiniMask.Store.FailedSaves
import MiniMask.Store.Effects
import MiniMask.Tunnel.Driver
import MiniMask.Tunnel.Proxy
import MiniMask.Tunnel.Server
import MiniMask.Tunnel.Steps
import MiniMask.Tunnel.Sessions
import MiniMask.Tunnel.Listeners
import MiniMask.Tunnel.Visitors
import MiniMask.Tunnel.Requests
import MiniMask.Tunnel.Reconnect
import MiniMask.Tunnel.NonOverlapping
import MiniMask.Tunnel.Removal
import MiniMask.Lib.Keyed
import MiniMask.Store.Directory
import MiniMask.Store.Uniqueness
import MiniMask.Store.Crashes
import MiniMask.Store.Tokens
import MiniMask.Lib.SharedTemp
import MiniMask.Store.Passwords
import MiniMask.Tunnel.ClientLimit
import MiniMask.Tunnel.ConnLimit
import MiniMask.Tunnel.Revocation
import MiniMask.Tunnel.Agreement
import MiniMask.Tunnel.Administration
import MiniMask.Lib.Pipe
import MiniMask.Client.Bridge
import MiniMask.Client.IdleTimer
import MiniMask.Client.HalfClose
import MiniMask.Client.Blocking
import MiniMask.Client.Backoff
import MiniMask.Tunnel.CopyCount
import MiniMask.Tunnel.EndToEnd
import MiniMask.Tunnel.StreamCap
import MiniMask.Store.AuditLog
import MiniMask.Startup
import MiniMask.Tunnel.Abandoned
import MiniMask.Lib.Locks
import MiniMask.LockOrder
import MiniMask.Lib.Tally
import MiniMask.Lib.NetAddr
import MiniMask.Tunnel.Admission
import MiniMask.Tunnel.ByteCount
import MiniMask.Tunnel.ActiveConns
import MiniMask.Tunnel.AcceptLoop
import MiniMask.Tunnel.Targets
import MiniMask.Client.Cancel
import MiniMask.Certificates
import MiniMask.Web.Cookies
import MiniMask.Web.Login
import MiniMask.Lib.Series
import MiniMask.Sampler
import MiniMask.Lib.Feed
import MiniMask.Web.Broadcast
import MiniMask.Web.Dashboard
import MiniMask.Web.Freshness
import MiniMask.Lib.Hosting
import MiniMask.Tunnel.Network
import MiniMask.Lib.Routing
import MiniMask.Web.Router
import MiniMask.Web.Access
import MiniMask.Web.Authority
import MiniMask.Web.Browser
import MiniMask.Client.Gui
import MiniMask.Store.Credentials
import MiniMask.Store.Restarts
import MiniMask.Lib.Deadline
import MiniMask.Client.Pacing
import MiniMask.Lib.Unwinding
import MiniMask.Web.Api
import MiniMask.Web.Secrecy
import MiniMask.Web.Audit
import MiniMask.Lib.DetachedSaves
import MiniMask.Store.DroppedSaves
import MiniMask.Lib.Feeding
import MiniMask.Tunnel.Transport
import MiniMask.Tunnel.Handshake
