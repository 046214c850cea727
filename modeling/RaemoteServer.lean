import RaemoteServer.Library.Runs
import RaemoteServer.Library.Text
import RaemoteServer.Library.Collections
import RaemoteServer.Library.Utf8
import RaemoteServer.Library.Numbers
import RaemoteServer.Library.SocketAddr
import RaemoteServer.Library.HttpHead
import RaemoteServer.Library.IpText
import RaemoteServer.Library.Search
import RaemoteServer.Library.Sorting
import RaemoteServer.Library.Spacing
import RaemoteServer.Library.Columns
import RaemoteServer.Library.StrSlice
import RaemoteServer.EndpointId
import RaemoteServer.Auth.Store
import RaemoteServer.Auth.State
import RaemoteServer.Auth.Expiry
import RaemoteServer.Auth.Runs
import RaemoteServer.Auth.Access
import RaemoteServer.Auth.GuessBudget
import RaemoteServer.Auth.Invitations
import RaemoteServer.Auth.Readmission
import RaemoteServer.Auth.StoreRaces
import RaemoteServer.Auth.Restart
import RaemoteServer.Auth.NamesFile
import RaemoteServer.Auth.DeviceNames
import RaemoteServer.Auth.Calls
import RaemoteServer.Auth.Renaming
import RaemoteServer.Auth.Isolation
import RaemoteServer.Library.Notify
import RaemoteServer.Library.Mutex
import RaemoteServer.Shutdown
import RaemoteServer.Config
import RaemoteServer.Bind
import RaemoteServer.BindCap
import RaemoteServer.PairingUri
import RaemoteServer.ConfigFile
import RaemoteServer.Hiding
import RaemoteServer.Ipc
import RaemoteServer.Discovery.Model
import RaemoteServer.Discovery.ProcSockets
import RaemoteServer.Discovery.SocketTable
import RaemoteServer.Discovery.Listener
import RaemoteServer.Discovery.Filtering
import RaemoteServer.Discovery.Unattributed
import RaemoteServer.Discovery.Denylist
import RaemoteServer.Discovery.ExcludedOrigins
import RaemoteServer.Discovery.Scan
import RaemoteServer.Discovery.TableOrder
import RaemoteServer.Discovery.Probe
import RaemoteServer.Discovery.ProbeRedirects
import RaemoteServer.Discovery.Page
import RaemoteServer.Discovery.Metadata
import RaemoteServer.Discovery.ProbeRead
import RaemoteServer.Commands
import RaemoteServer.Catalog
import RaemoteServer.CatalogOrder
import RaemoteServer.Slugs
import RaemoteServer.SlugLength
import RaemoteServer.FreshNames
import RaemoteServer.Discovery.Engine
import RaemoteServer.Discovery.Cache
import RaemoteServer.Discovery.Cycle
import RaemoteServer.Discovery.Accounting
import RaemoteServer.Discovery.Manual
import RaemoteServer.Discovery.Discover
import RaemoteServer.Discovery.ProbeLimits
import RaemoteServer.Http.Routing
import RaemoteServer.Http.Devices
import RaemoteServer.Library.Rfc3986
import RaemoteServer.Http.Redirects
import RaemoteServer.Http.OwnRedirects
import RaemoteServer.Http.Proxy
import RaemoteServer.Discovery.Exposure
import RaemoteServer.Logs.Tail
import RaemoteServer.Logs.Follow
import RaemoteServer.Logs.Suffix
import RaemoteServer.Logs.Strip
import RaemoteServer.Http.Forwarding
import RaemoteServer.Http.Upgrade
import RaemoteServer.Http.Serve
import RaemoteServer.Http.Revocation
import RaemoteServer.Http.Concurrency
import RaemoteServer.Daemon.SharedConfig
import RaemoteServer.Daemon.Reload
import RaemoteServer.Daemon.Limiters
import RaemoteServer.Daemon.Serving
import RaemoteServer.Daemon.Poisoning
import RaemoteServer.Limits
import RaemoteServer.Instance.System
import RaemoteServer.Instance.Ownership
import RaemoteServer.Instance.Clients
import RaemoteServer.Instance.Identity
import RaemoteServer.Ipc.Connection
import RaemoteServer.Ipc.Dialogue
import RaemoteServer.Ipc.Exchange
import RaemoteServer.Hub.System
import RaemoteServer.Hub.Trust
import RaemoteServer.Hub.Links
import RaemoteServer.Settings.Keys
import RaemoteServer.Settings.Session
import RaemoteServer.Settings.LastPut
import RaemoteServer.Settings.Coherence
import RaemoteServer.Whole.System
import RaemoteServer.Whole.Reach
import RaemoteServer.Whole.Hidden
import RaemoteServer.Whole.Polling
