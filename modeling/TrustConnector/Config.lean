/-
**The configuration of the connector.**

The data types of a connector configuration as they come out of deserialisation, with the defaults
that deserialisation fills in, and the functions that read them: the trust-domain and DNS-identity
maps, the trust domain of an identity, and the identities of a route.  Validation is in
`TrustConnector.Validate`.

Paths, header names, methods and identities are byte strings; URLs are parsed URLs.  The cache of
a route's policy hash is not part of the configuration file and is modelled in
`TrustConnector.PolicyHash`.

Main definitions:

* `ConnectorConfig` and the records it is made of;
* `trustDomainMap`, `dnsIdentityMap` — the anchors grouped by domain and by DNS identity;
* `spiffeTrustDomain` — the trust domain of a SPIFFE identity;
* `routeClientIdentities` — the identities a route is bound to.

Main results:

* `trustDomainMap_lookup`, `dnsIdentityMap_lookup` — **what the grouping folds compute**.
-/

import TrustConnector.StrMap
import TrustConnector.Whatwg

set_option relaxedAutoImplicit false
set_option autoImplicit false

namespace TrustConnector

open Text MultiMap

/-! ### Configuration records -/

/-- An IP address. -/
inductive IpAddr where
  | v4 (a b c d : UInt8)
  | v6 (high low : UInt64)
  deriving DecidableEq, Repr

/-- `127.0.0.0/8` and `::1`. -/
def IpAddr.isLoopback : IpAddr → Bool
  | .v4 a _ _ _ => a = 127
  | .v6 high low => high = 0 && low = 1

/-- Where the connector listens. -/
inductive ListenConfig where
  | tcp (ip : IpAddr) (port : UInt16)
  | unix (path : Str)
  deriving DecidableEq, Repr

def ListenConfig.isLoopback : ListenConfig → Bool
  | .tcp ip _ => ip.isLoopback
  | .unix _ => true

/-- The server connector that a client connector forwards to. -/
structure ClientServerConfig where
  url : Whatwg.Url
  trustBundle : Str
  deriving DecidableEq, Repr

structure IdentityFiles where
  cert : Str
  key : Str
  deriving DecidableEq, Repr

structure DefaultsConfig where
  dataPurpose : Option Str := none
  deriving DecidableEq, Repr

structure AuditConfig where
  hashSecretEnv : Option Str := none
  allowUnkeyedHashing : Bool := false
  deriving DecidableEq, Repr

structure LimitsConfig where
  maxBodyBytes : ℕ := 1024 * 1024
  upstreamTimeoutSeconds : UInt64 := 30
  requestTimeoutSeconds : UInt64 := 30
  tlsHandshakeTimeoutSeconds : UInt64 := 10
  http1HeaderReadTimeoutSeconds : UInt64 := 10
  maxConcurrentRequests : ℕ := 1024
  maxConcurrentConnections : ℕ := 1024
  maxRequestsPerIdentityPerMinute : UInt32 := 600
  expiryWarningDays : Int64 := 30
  deriving DecidableEq, Repr

/-- The trust assertions that a route or a client is granted. -/
structure GovernedTrustedContextConfig where
  jurisdiction : Option Str := none
  assertedAssurance : Option Str := none
  legalBasisRef : Option Str := none
  consentRef : Option Str := none
  sourceObservedAgeSeconds : Option UInt64 := none
  deriving DecidableEq, Repr

structure TrustContextEntitlementConfig where
  clientIdentity : Str
  trustedContext : GovernedTrustedContextConfig := {}
  deriving DecidableEq, Repr

structure TrustAnchorConfig where
  ca : Str
  trustDomain : Str
  dnsIdentities : List Str := []
  deriving DecidableEq, Repr

structure ClientTrustConfig where
  allowedIdentities : List Str := []
  trustAnchors : List TrustAnchorConfig := []
  deniedCertificateFingerprintsSha256 : List Str := []
  trustContextEntitlements : List TrustContextEntitlementConfig := []
  deriving DecidableEq, Repr

structure UpstreamConfig where
  baseUrl : Whatwg.Url
  defaultAuthHeaderEnv : Option Str := none
  authHeaderName : Str := str "Authorization"
  authHeaderScheme : Str := str "Bearer"
  deriving DecidableEq, Repr

structure GovernedRoutePolicyConfig where
  permittedPurposes : List Str := []
  permittedJurisdictions : List Str := []
  allowedAssurance : List Str := []
  minimumAssurance : Option Str := none
  maxSourceAgeSeconds : Option UInt64 := none
  requireLegalBasis : Bool := false
  requireConsent : Bool := false
  redactionFields : List Str := []
  unsupportedOdrlTerms : List Str := []
  trustedContext : GovernedTrustedContextConfig := {}
  deriving DecidableEq, Repr

/-- Where the purpose of a request comes from. -/
inductive PurposeSource where
  | clientProvided
  | staticRouteDefault
  | deniedMissing
  deriving DecidableEq, Repr

structure RouteConfig where
  id : Str
  methods : List Str := []
  localPrefix : Option Str := none
  upstreamPrefix : Option Str := none
  requirePurpose : Bool := false
  purposeSource : Option PurposeSource := none
  clientIdentity : Option Str := none
  clientIdentities : List Str := []
  upstreamAuthHeaderEnv : Option Str := none
  forwardClientIdentityHeader : Bool := false
  purposes : List Str := []
  governedPolicy : Option GovernedRoutePolicyConfig := none
  allowForwardAuthorization : Bool := false
  allowForwardCookie : Bool := false
  deriving DecidableEq, Repr

structure ConnectorConfig where
  listen : ListenConfig
  server : Option ClientServerConfig := none
  clientIdentity : Option IdentityFiles := none
  defaults : DefaultsConfig := {}
  audit : AuditConfig := {}
  limits : LimitsConfig := {}
  routes : List RouteConfig := []
  serverIdentity : Option IdentityFiles := none
  clientTrust : Option ClientTrustConfig := none
  upstream : Option UpstreamConfig := none
  allowNonLoopbackClientListen : Bool := false
  allowDnsSanIdentity : Bool := false
  connectorId : Option Str := none
  deriving DecidableEq, Repr

/-- Which side of the connection the connector is on. -/
inductive Mode where
  | client
  | server
  deriving DecidableEq, Repr

/-! ### Reading the configuration -/

/-- The trust anchors, none without a `client_trust` section. -/
def ConnectorConfig.trustAnchors (config : ConnectorConfig) : List TrustAnchorConfig :=
  match config.clientTrust with
  | none => []
  | some trust => trust.trustAnchors

/-- The CA files of the anchors of each trust domain. -/
def trustDomainMap (config : ConnectorConfig) : StrMap (List Str) :=
  StrMap.pushAll ∅ (config.trustAnchors.map fun anchor => (anchor.trustDomain, anchor.ca))

/-- The CA files of the anchors that list each DNS identity. -/
def dnsIdentityMap (config : ConnectorConfig) : StrMap (List Str) :=
  StrMap.pushAll ∅ (config.trustAnchors.flatMap fun anchor =>
    anchor.dnsIdentities.map fun identity => (identity, anchor.ca))

/-- What every SPIFFE identity starts with. -/
def spiffeScheme : Str := str "spiffe://"

/-- The trust domain of a SPIFFE identity.  The validation and the TLS layer use the same
function. -/
def spiffeTrustDomain (identity : Str) : Option Str :=
  match stripPrefix identity spiffeScheme with
  | none => none
  | some rest =>
      let domain := rest.takeWhile (· ≠ slash)
      if domain.isEmpty then none else some domain

/-- The identities a route is bound to, trimmed, without the empty ones. -/
def routeClientIdentities (route : RouteConfig) : List Str :=
  orderedSet ((route.clientIdentity.toList ++ route.clientIdentities).filterMap fun identity =>
    if (trim identity).isEmpty then none else some (trim identity))

def maxBodyBytes (config : ConnectorConfig) : ℕ := config.limits.maxBodyBytes

/-! ### What the grouping folds compute -/

/-- The CA files of the anchors of a trust domain, in order. -/
def caFilesOfDomain (config : ConnectorConfig) (domain : Str) : List Str :=
  (config.trustAnchors.filter fun anchor => anchor.trustDomain = domain).map (·.ca)

/-- The CA files of the anchors that list a DNS identity, in order, once per listing. -/
def caFilesOfDnsIdentity (config : ConnectorConfig) (identity : Str) : List Str :=
  config.trustAnchors.flatMap fun anchor =>
    (anchor.dnsIdentities.filter fun d => d = identity).map fun _ => anchor.ca

theorem caFilesOfDomain_ne_nil {config : ConnectorConfig} {domain : Str} :
    caFilesOfDomain config domain ≠ [] ↔
      ∃ anchor ∈ config.trustAnchors, anchor.trustDomain = domain := by
  simp [caFilesOfDomain]

theorem caFilesOfDnsIdentity_ne_nil {config : ConnectorConfig} {identity : Str} :
    caFilesOfDnsIdentity config identity ≠ [] ↔
      ∃ anchor ∈ config.trustAnchors, identity ∈ anchor.dnsIdentities := by
  simp [caFilesOfDnsIdentity]

/-- **The trust-domain map** holds, for each domain with an anchor, the CA files of its anchors. -/
theorem trustDomainMap_lookup (config : ConnectorConfig) (domain : Str) :
    (trustDomainMap config).lookup domain =
      if caFilesOfDomain config domain = [] then none
      else some (caFilesOfDomain config domain) := by
  have hvalues : valuesOf domain (config.trustAnchors.map fun anchor =>
      (anchor.trustDomain, anchor.ca)) = caFilesOfDomain config domain := by
    simp only [valuesOf, caFilesOfDomain, List.filter_map, List.map_map]
    rfl
  rw [trustDomainMap, StrMap.lookup_pushAll_empty, hvalues]

/-- **The DNS-identity map** holds, for each identity that an anchor lists, the CA files of those
anchors. -/
theorem dnsIdentityMap_lookup (config : ConnectorConfig) (identity : Str) :
    (dnsIdentityMap config).lookup identity =
      if caFilesOfDnsIdentity config identity = [] then none
      else some (caFilesOfDnsIdentity config identity) := by
  have hvalues : valuesOf identity (config.trustAnchors.flatMap fun anchor =>
      anchor.dnsIdentities.map fun d => (d, anchor.ca)) = caFilesOfDnsIdentity config identity := by
    simp only [valuesOf, caFilesOfDnsIdentity, List.filter_flatMap, List.map_flatMap,
      List.filter_map, List.map_map]
    rfl
  rw [dnsIdentityMap, StrMap.lookup_pushAll_empty, hvalues]

end TrustConnector
