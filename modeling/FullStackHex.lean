import FullStackHex.Library.Interleaving
import FullStackHex.Domain
import FullStackHex.Library.Expiring
import FullStackHex.World
import FullStackHex.Cache.RateLimit
import FullStackHex.Cache.Backoff
import FullStackHex.Cache.Session
import FullStackHex.Auth.Middleware
import FullStackHex.Auth.Routes
import FullStackHex.Auth.Blacklist
import FullStackHex.Auth.Isolation
import FullStackHex.Api.Live
import FullStackHex.Library.History
import FullStackHex.Runs
import FullStackHex.Cache.SessionRuns
import FullStackHex.Auth.Requests
import FullStackHex.Auth.LogoutRuns
import FullStackHex.Auth.ResetRuns
import FullStackHex.Api.Sockets
import FullStackHex.Cache.DestroyRuns
import FullStackHex.Cache.RateLimitRuns
import FullStackHex.Library.Header
import FullStackHex.Auth.ClientIp
import FullStackHex.Api.Notes
import FullStackHex.Api.NoteWalks
import FullStackHex.Library.JsonText
import FullStackHex.Sidecar.Hmac
import FullStackHex.Sidecar.Replay
import FullStackHex.Library.Routing
import FullStackHex.Api.Router
import FullStackHex.Library.Percent
import FullStackHex.Library.SigV4
import FullStackHex.Library.Url
import FullStackHex.Storage.Client
import FullStackHex.Storage.Canonical
import FullStackHex.Cache.SessionHistory
import FullStackHex.Api.SocketBounds
import FullStackHex.Api.LiveEvents
import FullStackHex.Api.Layers
import FullStackHex.Api.Attachment
import FullStackHex.Library.Noninterference
import FullStackHex.Api.NoteOwnership
import FullStackHex.Auth.SingleUse
import FullStackHex.Auth.RefreshChains
import FullStackHex.Auth.OAuthRuns
import FullStackHex.Auth.Browser
import FullStackHex.Auth.DeletionRuns
import FullStackHex.Auth.Enumeration
import FullStackHex.Auth.RegisterRuns
import FullStackHex.Attempts
import FullStackHex.Auth.Failures
import FullStackHex.Library.Rounding
import FullStackHex.Sidecar.Retry
import FullStackHex.Cache.LimitRange
import FullStackHex.Cache.ResetTimes
import FullStackHex.Api.Health
import FullStackHex.Auth.InProcess
import FullStackHex.Frontend.LiveStream
import FullStackHex.Frontend.AuthRequests
import FullStackHex.Frontend.CsrfTokens
import FullStackHex.Auth.Identity
import FullStackHex.Library.Xml
import FullStackHex.Storage.Listing
import FullStackHex.Library.HttpMessage
import FullStackHex.Sidecar.Wire
import FullStackHex.Sidecar.Signature
import FullStackHex.Library.XmlTree
import FullStackHex.Storage.CompleteXml
import FullStackHex.Api.Columns
import FullStackHex.Api.NoteIds
import FullStackHex.Frontend.Interceptor
import FullStackHex.Frontend.SharedResponses
import FullStackHex.Frontend.Dashboard
import FullStackHex.Library.Substitution
import FullStackHex.Sidecar.Endpoints
import FullStackHex.Frontend.NotesPage
import FullStackHex.Storage.Routes
import FullStackHex.Storage.KeyUrls
import FullStackHex.Library.Refinement
import FullStackHex.Storage.ObjectRuns
import FullStackHex.Cache.Redis
import FullStackHex.Library.Simulation
import FullStackHex.Cache.Keys
import FullStackHex.Cache.KeyRuns
import FullStackHex.Library.QueryAuth
import FullStackHex.Storage.Presign
import FullStackHex.Frontend.HealthEndpoint
import FullStackHex.Frontend.HealthPage
