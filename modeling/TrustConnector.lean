import TrustConnector.Text
import TrustConnector.Percent
import TrustConnector.Whatwg
import TrustConnector.MultiMap
import TrustConnector.StrMap
import TrustConnector.Segments
import TrustConnector.Fallible
import TrustConnector.Framing
import TrustConnector.Http
import TrustConnector.Errors
import TrustConnector.Config
import TrustConnector.Identity
import TrustConnector.Tls
import TrustConnector.Routing
import TrustConnector.PathSegments
import TrustConnector.Selection
import TrustConnector.Validate
import TrustConnector.Allowlist
import TrustConnector.Expiry
import TrustConnector.UpstreamUrl
import TrustConnector.PolicyHash
import TrustConnector.FixedWindow
import TrustConnector.RateLimiter
import TrustConnector.TrustContext
import TrustConnector.Purpose
import TrustConnector.RuleIds
import TrustConnector.Forward
import TrustConnector.Proxy
import TrustConnector.PurposeHop
import TrustConnector.ClientHeaders
import TrustConnector.ServerHeaders
import TrustConnector.HeaderPolicy
import TrustConnector.LimiterScope
import TrustConnector.Interleaving
import TrustConnector.ServerPool
import TrustConnector.Isolation
import TrustConnector.Startup
import TrustConnector.Server
import TrustConnector.TwoHops
import TrustConnector.Operations
import TrustConnector.Commands
import TrustConnector.AuditTrail
import TrustConnector.Availability
