import AstropathRelay.Lib.ByteStrings
import AstropathRelay.Lib.Dict
import AstropathRelay.Lib.Results
import AstropathRelay.Lib.Base64
import AstropathRelay.Lib.JsonText
import AstropathRelay.Lib.Locked
import AstropathRelay.Lib.SlidingWindow
import AstropathRelay.Lib.Actions
import AstropathRelay.Lib.Paging
import AstropathRelay.Lib.Framing
import AstropathRelay.Lib.ClassRuns
import AstropathRelay.Lib.Projection
import AstropathRelay.Lib.Interleaving
import AstropathRelay.Lib.LateWrites
import AstropathRelay.Lib.Regex
import AstropathRelay.Lib.Substitution
import AstropathRelay.Lib.Borders
import AstropathRelay.Logging.Scrub
import AstropathRelay.Logging.Dsn
import AstropathRelay.Logging.Record
import AstropathRelay.Logging.LongRuns
import AstropathRelay.Logging.SecretFields
import AstropathRelay.Logging.Names
import AstropathRelay.Logging.Separators
import AstropathRelay.Logging.HeaderValues
import AstropathRelay.Logging.AssignmentValues
import AstropathRelay.Logging.Places
import AstropathRelay.Dns.TsigErrors
import AstropathRelay.DataPlane.Protocol
import AstropathRelay.DataPlane.Forgery
import AstropathRelay.DataPlane.WriteSurface
import AstropathRelay.DataPlane.Serialization
import AstropathRelay.DataPlane.ZoneSection
import AstropathRelay.DataPlane.LongestSuffix
import AstropathRelay.Store.Secrets
import AstropathRelay.DataPlane.Keyring
import AstropathRelay.Api.Management
import AstropathRelay.Cache.Loader
import AstropathRelay.Api.BackendConfig
import AstropathRelay.Api.Reachable
import AstropathRelay.Cache.Snapshot
import AstropathRelay.Cache.Loads
import AstropathRelay.Cache.Faithful
import AstropathRelay.Cache.Challenge
import AstropathRelay.Cache.Convergence
import AstropathRelay.Cache.Revocation
import AstropathRelay.Cache.SingleState
import AstropathRelay.DataPlane.ProviderCalls
import AstropathRelay.Cache.RecordKeys
import AstropathRelay.Cache.Wiring
import AstropathRelay.DataPlane.Audited
import AstropathRelay.DataPlane.Cleanup
import AstropathRelay.DataPlane.DynamicRecords
import AstropathRelay.DataPlane.HostedZone
import AstropathRelay.DataPlane.Insync
import AstropathRelay.DataPlane.Totality
import AstropathRelay.DataPlane.FallbackParser
import AstropathRelay.DataPlane.Metrics
import AstropathRelay.DataPlane.Handlers
import AstropathRelay.DataPlane.Ledger
import AstropathRelay.Api.Csrf
import AstropathRelay.Api.LoginLimit
import AstropathRelay.Api.LoginWindow
import AstropathRelay.Api.RetryAfter
import AstropathRelay.Api.Password
import AstropathRelay.DataPlane.Listeners
import AstropathRelay.DataPlane.Binding
import AstropathRelay.DataPlane.Shutdown
import AstropathRelay.DataPlane.Readiness
import AstropathRelay.DataPlane.TcpStream
import AstropathRelay.Api.Rotation
import AstropathRelay.Api.Session
import AstropathRelay.Api.Routes
import AstropathRelay.Api.RouteAnswers
import AstropathRelay.Api.SoleRotation
import AstropathRelay.Api.Events
import AstropathRelay.Api.Tokens
import AstropathRelay.Api.Authority
import AstropathRelay.Supervisor
import AstropathRelay.Composition
import AstropathRelay.Api.Runbook
import AstropathRelay.Startup
import AstropathRelay.Api.Spa
