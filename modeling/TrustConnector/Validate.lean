/-
**Validation of a configuration.**

Validation goes through the configuration once and collects every error it finds; a configuration
is accepted when there is none.  The messages are those of the connector, in its order.

Each field check of the source is one of a few shapes (a value that must not be blank, a number
that must not be zero, a file that must exist), written here once with the message as a parameter.

Main definitions:

* `validateCommon`, `validateClient`, `validateServer` — the errors of a configuration;
* `validateConfig` — the verdict;
* `CommonRoute`, `CommonPolicy`, `CommonContext` — what the common checks establish about a route,
  its governed policy and a trusted context.

Main results:

* `commonRoute_of_validateCommon` — **every route of an accepted configuration satisfies the common
  checks**;
* `validateConfig_client`, `validateConfig_server` — what acceptance says in each mode.
-/

import TrustConnector.Http
import TrustConnector.Routing
import TrustConnector.Tls

set_option relaxedAutoImplicit false
set_option autoImplicit false

namespace TrustConnector

open Text Fallible

/-! ### The shapes of the checks -/

/-- A text in single quotes. -/
def quoted (s : Str) : Str := str "'" ++ s ++ str "'"

/-- An entry that is blank. -/
def reportBlank (message : Str) (values : List Str) : List Str :=
  values.flatMap fun value => reportIf (isBlank value) message

/-- A limit that is zero. -/
def reportZeroLimit (field : Str) (isZero : Bool) : List Str :=
  reportIf isZero (str "limits." ++ field ++ str " must be greater than zero")

def collectPrefixError (routeId field : Str) (pre : Option Str) : List Str :=
  pre.toList.flatMap fun pre => reportError
    (fun err => str "route " ++ quoted routeId ++ str " " ++ field ++ str ": " ++ err)
    (validateRoutePrefix pre)

/-! ### Common checks -/

def governedRoutePolicyHasGate (policy : GovernedRoutePolicyConfig) : Bool :=
  policy.permittedPurposes.any (fun value => !isBlank value) ||
    policy.permittedJurisdictions.any (fun value => !isBlank value) ||
    policy.allowedAssurance.any (fun value => !isBlank value) ||
    policy.minimumAssurance.any (fun value => !isBlank value) ||
    policy.maxSourceAgeSeconds.any (fun value => 0 < value) ||
    policy.requireLegalBasis || policy.requireConsent ||
    policy.redactionFields.any (fun value => !isBlank value) ||
    policy.unsupportedOdrlTerms.any (fun value => !isBlank value)

def trustedContextHasAssertion (trusted : GovernedTrustedContextConfig) : Bool :=
  trusted.jurisdiction.any (fun value => !isBlank value) ||
    trusted.assertedAssurance.any (fun value => !isBlank value) ||
    trusted.legalBasisRef.any (fun value => !isBlank value) ||
    trusted.consentRef.any (fun value => !isBlank value) ||
    trusted.sourceObservedAgeSeconds.any (fun value => 0 < value)

def validateTrustedContextFields (owner : Str) (trusted : GovernedTrustedContextConfig) :
    List Str :=
  reportBlank (owner ++ str ".jurisdiction must not be empty") trusted.jurisdiction.toList ++
    reportBlank (owner ++ str ".asserted_assurance must not be empty")
      trusted.assertedAssurance.toList ++
    reportBlank (owner ++ str ".legal_basis_ref must not be empty") trusted.legalBasisRef.toList ++
    reportBlank (owner ++ str ".consent_ref must not be empty") trusted.consentRef.toList ++
    reportIf (trusted.sourceObservedAgeSeconds = some 0)
      (owner ++ str ".source_observed_age_seconds must be greater than zero")

def validateGovernedRoutePolicy (routeId : Str) (policy : GovernedRoutePolicyConfig) : List Str :=
  let owner := str "route " ++ quoted routeId ++ str " governed_policy"
  reportIf (!governedRoutePolicyHasGate policy) (owner ++ str " must enforce at least one gate") ++
    reportBlank (owner ++ str " contains an empty permitted_purpose") policy.permittedPurposes ++
    reportBlank (owner ++ str " contains an empty permitted_jurisdiction")
      policy.permittedJurisdictions ++
    reportBlank (owner ++ str " contains an empty allowed_assurance") policy.allowedAssurance ++
    reportBlank (owner ++ str " minimum_assurance must not be empty")
      policy.minimumAssurance.toList ++
    reportIf (policy.maxSourceAgeSeconds = some 0)
      (owner ++ str " max_source_age_seconds must be greater than zero") ++
    reportBlank (owner ++ str " contains an empty redaction_field") policy.redactionFields ++
    reportBlank (owner ++ str " contains an empty unsupported_odrl_term")
      policy.unsupportedOdrlTerms ++
    validateTrustedContextFields (owner ++ str " trusted_context") policy.trustedContext

/-- The common checks of a route, apart from its id. -/
def validateRouteFields (route : RouteConfig) : List Str :=
  reportIf route.methods.isEmpty
      (str "route " ++ quoted route.id ++ str " must declare at least one method") ++
    collectPrefixError route.id (str "local_prefix") route.localPrefix ++
    collectPrefixError route.id (str "upstream_prefix") route.upstreamPrefix ++
    reportBlank (str "route " ++ quoted route.id ++ str " contains an empty purpose")
      route.purposes ++
    reportBlank
      (str "route " ++ quoted route.id ++ str " contains an empty client_identities entry")
      route.clientIdentities ++
    route.governedPolicy.toList.flatMap (validateGovernedRoutePolicy route.id)

/-- The loop over the routes, with the ids seen so far. -/
def validateRoutes (seen : List Str) : List RouteConfig → List Str
  | [] => []
  | route :: rest =>
      (if isBlank route.id then [str "route without id"]
        else reportIf (route.id ∈ seen) (str "duplicate route id " ++ quoted route.id)) ++
      validateRouteFields route ++
      -- a blank id is reported each time, and never counts as a duplicate
      validateRoutes (if isBlank route.id then seen else route.id :: seen) rest

def validateAudit (audit : AuditConfig) : List Str :=
  match audit.hashSecretEnv with
  | some value => reportIf (isBlank value) (str "audit.hash_secret_env must not be empty")
  | none => reportIf (!audit.allowUnkeyedHashing)
      (str "audit.hash_secret_env is required unless audit.allow_unkeyed_hashing is true")

def validateLimits (limits : LimitsConfig) : List Str :=
  reportZeroLimit (str "upstream_timeout_seconds") (limits.upstreamTimeoutSeconds = 0) ++
    reportZeroLimit (str "request_timeout_seconds") (limits.requestTimeoutSeconds = 0) ++
    reportZeroLimit (str "tls_handshake_timeout_seconds") (limits.tlsHandshakeTimeoutSeconds = 0) ++
    reportZeroLimit (str "http1_header_read_timeout_seconds")
      (limits.http1HeaderReadTimeoutSeconds = 0) ++
    reportZeroLimit (str "max_concurrent_requests") (limits.maxConcurrentRequests = 0) ++
    reportZeroLimit (str "max_concurrent_connections") (limits.maxConcurrentConnections = 0) ++
    reportZeroLimit (str "max_requests_per_identity_per_minute")
      (limits.maxRequestsPerIdentityPerMinute = 0)

def validateCommon (config : ConnectorConfig) : List Str :=
  reportIf config.routes.isEmpty (str "routes must not be empty") ++
    validateLimits config.limits ++ validateAudit config.audit ++ validateRoutes [] config.routes

/-! ### Files and headers -/

variable (P : Pki) (H : Host)

def requireFile (field path : Str) : List Str :=
  if path.isEmpty then [field ++ str " must not be empty"]
  else reportIf (!H.pathExists path) (field ++ str " " ++ quoted path ++ str " does not exist")

/-- A private key must not be accessible to group or others. -/
def validatePrivateKeyPermissions (owner path : Str) : List Str :=
  match H.fileMode path with
  | none => []
  | some mode => reportIf (mode &&& 0o077 ≠ 0)
      (owner ++ str ".key must not be readable or writable by group or others")

def validateIdentityFiles (owner : Str) (identity : IdentityFiles) (usage : EkUsage) : List Str :=
  requireFile H (owner ++ str ".cert") identity.cert ++
    requireFile H (owner ++ str ".key") identity.key ++
    validatePrivateKeyPermissions H owner identity.key ++
    (if H.pathExists identity.cert && H.pathExists identity.key then
      reportError (fun err => owner ++ str ": " ++ err)
        (validateLeafCertificate P H identity.cert identity.key usage)
    else [])

def requireAuditHashEnv (config : ConnectorConfig) : List Str :=
  config.audit.hashSecretEnv.toList.flatMap fun var =>
    reportError
      (fun err => str "required audit hash env var " ++ quoted var ++ str " is invalid: " ++ err)
      (H.auditKeyHasherFromEnv var)

def isRootUrlPath (url : Whatwg.Url) : Bool := url.path ∈ [[], [slash]]

def isHopByHopHeader (name : Str) : Bool :=
  name ∈ [str "connection", str "keep-alive", str "proxy-authenticate", str "proxy-authorization",
    str "te", str "trailer", str "transfer-encoding", str "upgrade"]

/-- What the headers that connectors exchange start with. -/
def privatePrefix : Str := str "x-registry-connector-"

def validateUpstreamAuthHeaderName (name : Str) : List Str :=
  match Http.headerNameFromBytes name with
  | none => [str "upstream.auth_header_name " ++ quoted name ++
      str " is not a valid HTTP header name"]
  | some headerName =>
      reportIf (isHopByHopHeader headerName)
          (str "upstream.auth_header_name " ++ quoted name ++
            str " must not be a hop-by-hop header") ++
        reportIf (privatePrefix <+: headerName)
          (str "upstream.auth_header_name " ++ quoted name ++
            str " must not use the x-registry-connector-* private prefix")

/-! ### Client mode -/

/-- The checks that only a client connector makes of a route. -/
def validateClientRoute (defaults : DefaultsConfig) (route : RouteConfig) : List Str :=
  reportIf (route.localPrefix.getD []).isEmpty
      (str "client route " ++ quoted route.id ++ str " requires local_prefix") ++
    reportIf (route.upstreamPrefix.getD []).isEmpty
      (str "client route " ++ quoted route.id ++ str " requires upstream_prefix") ++
    reportIf (route.requirePurpose && route.purposeSource = some .staticRouteDefault &&
        isBlank (defaults.dataPurpose.getD []))
      (str "client route " ++ quoted route.id ++
        str " needs defaults.data_purpose for static_route_default")

def validateClient (config : ConnectorConfig) (requireEnv : Bool) : List Str :=
  reportIf (!config.listen.isLoopback && !config.allowNonLoopbackClientListen)
      (str ("client listen on non-loopback interfaces requires " ++
        "allow_non_loopback_client_listen: true")) ++
    match config.server with
    | none => [str "client config requires server"]
    | some server =>
        reportIf (server.url.scheme ≠ str "https") (str "client server.url must use https") ++
        reportIf (!isRootUrlPath server.url) (str "client server.url must not include a path") ++
        requireFile H (str "server.trust_bundle") server.trustBundle ++
        match config.clientIdentity with
        | none => [str "client config requires client_identity"]
        | some identity =>
            validateIdentityFiles P H (str "client_identity") identity .clientAuth ++
            config.routes.flatMap (validateClientRoute config.defaults) ++
            (if requireEnv then requireAuditHashEnv H config else [])

/-! ### Server mode -/

def isSha256Fingerprint (value : Str) : Bool := value.length = 64 && value.all isHexDigit

/-- One entitlement, with the identities seen so far. -/
def validateTrustContextEntitlement (clientTrust : ClientTrustConfig) (seen : List Str)
    (entitlement : TrustContextEntitlementConfig) : List Str :=
  let identity := trim entitlement.clientIdentity
  if identity.isEmpty then
    [str "client_trust.trust_context_entitlements[].client_identity must not be empty"]
  else
    reportIf (identity ∈ seen)
        (str "duplicate client_trust.trust_context_entitlements client_identity " ++
          quoted entitlement.clientIdentity) ++
      reportIf (!clientTrust.allowedIdentities.any fun allowed => trim allowed = identity)
        (str "client_trust.trust_context_entitlements client_identity " ++
          quoted entitlement.clientIdentity ++ str " not in client_trust.allowed_identities") ++
      reportIf (!trustedContextHasAssertion entitlement.trustedContext)
        (str "client_trust.trust_context_entitlements for " ++ quoted entitlement.clientIdentity ++
          str " must grant at least one trust context assertion") ++
      validateTrustedContextFields
        (str "client_trust.trust_context_entitlements[].trusted_context")
        entitlement.trustedContext

/-- The loop over the entitlements. -/
def validateEntitlements (clientTrust : ClientTrustConfig) (seen : List Str) :
    List TrustContextEntitlementConfig → List Str
  | [] => []
  | entitlement :: rest =>
      validateTrustContextEntitlement clientTrust seen entitlement ++
      validateEntitlements clientTrust
        (if (trim entitlement.clientIdentity).isEmpty then seen
          else trim entitlement.clientIdentity :: seen) rest

def validateTrustAnchor (anchor : TrustAnchorConfig) : List Str :=
  requireFile H (str "client_trust.trust_anchors[].ca") anchor.ca ++
    reportIf (isBlank anchor.trustDomain)
      (str "client_trust.trust_anchors[].trust_domain must not be empty") ++
    reportBlank (str "client_trust.trust_anchors[].dns_identities contains an empty identity")
      anchor.dnsIdentities ++
    reportError (fun err => str "trust anchor " ++ quoted anchor.ca ++ str ": " ++ err)
      (validateCaCertificate P H anchor.ca)

/-- The trust domains of the anchors, without blank ones. -/
def anchoredDomains (clientTrust : ClientTrustConfig) : List Str :=
  (clientTrust.trustAnchors.filter fun anchor => !isBlank anchor.trustDomain).map (·.trustDomain)

/-- One entry of the allowlist: it must have an anchor. -/
def validateAllowedIdentity (config : ConnectorConfig) (clientTrust : ClientTrustConfig)
    (identity : Str) : List Str :=
  if isBlank identity then [str "client_trust.allowed_identities contains an empty identity"]
  else
    match spiffeTrustDomain identity with
    | some domain => reportIf (domain ∉ anchoredDomains clientTrust)
        (str "client identity " ++ quoted identity ++ str " has no trust anchor for trust domain " ++
          quoted domain)
    | none =>
        if !config.allowDnsSanIdentity then
          [str "client identity " ++ quoted identity ++
            str " is not a SPIFFE URI and DNS SAN fallback is disabled"]
        else reportIf (identity ∉ (dnsIdentityMap config).keys)
          (str "DNS client identity " ++ quoted identity ++ str (" must be bound to at least one " ++
            "client_trust.trust_anchors[].dns_identities entry"))

def validateClientTrust (config : ConnectorConfig) (clientTrust : ClientTrustConfig) : List Str :=
  reportIf clientTrust.allowedIdentities.isEmpty
      (str "client_trust.allowed_identities must not be empty") ++
    reportIf clientTrust.trustAnchors.isEmpty
      (str "client_trust.trust_anchors must not be empty") ++
    (clientTrust.deniedCertificateFingerprintsSha256.flatMap fun fingerprint =>
      reportIf (!isSha256Fingerprint fingerprint)
        (str ("client_trust.denied_certificate_fingerprints_sha256 contains an invalid " ++
          "SHA-256 fingerprint"))) ++
    validateEntitlements clientTrust [] clientTrust.trustContextEntitlements ++
    clientTrust.trustAnchors.flatMap (validateTrustAnchor P H) ++
    clientTrust.allowedIdentities.flatMap (validateAllowedIdentity config clientTrust)

/-- The environment variables that hold upstream credentials. -/
def upstreamAuthEnvVars (config : ConnectorConfig) (upstream : UpstreamConfig) : List Str :=
  orderedSet (upstream.defaultAuthHeaderEnv.toList ++
    config.routes.flatMap fun route => route.upstreamAuthHeaderEnv.toList)

def requireUpstreamAuthEnv (var : Str) : List Str :=
  match H.envVar var with
  | some value =>
      if !isBlank value then
        reportIf (Http.headerValueFromStr value).isNone
          (str "required upstream auth env var " ++ quoted var ++
            str " contains invalid characters for an HTTP header value")
      else [str "required upstream auth env var " ++ quoted var ++ str " is empty"]
  | none => [str "required upstream auth env var " ++ quoted var ++ str " is missing"]

/-- The checks that only a server connector makes of a route, after the environment. -/
def validateServerRoute (clientTrust : ClientTrustConfig) (route : RouteConfig) : List Str :=
  reportIf (route.upstreamPrefix.getD []).isEmpty
      (str "server route " ++ quoted route.id ++ str " requires upstream_prefix") ++
    if (routeClientIdentities route).isEmpty then
      [str "server route " ++ quoted route.id ++
        str " requires client_identity so route and purpose policy are identity-bound"]
    else (routeClientIdentities route).flatMap fun identity =>
      reportIf (!clientTrust.allowedIdentities.any fun allowed => trim allowed = identity)
        (str "server route " ++ quoted route.id ++ str " references client_identity " ++
          quoted identity ++ str " not in client_trust.allowed_identities")

def validateUpstream (config : ConnectorConfig) (clientTrust : ClientTrustConfig)
    (upstream : UpstreamConfig) (requireEnv : Bool) : List Str :=
  reportIf (!isRootUrlPath upstream.baseUrl) (str "upstream.base_url must not include a path") ++
    validateUpstreamAuthHeaderName upstream.authHeaderName ++
    reportBlank (str "upstream.default_auth_header_env must not be empty")
      upstream.defaultAuthHeaderEnv.toList ++
    (config.routes.flatMap fun route =>
      reportBlank (str "server route " ++ quoted route.id ++
        str " upstream_auth_header_env must not be empty") route.upstreamAuthHeaderEnv.toList) ++
    (if requireEnv then
      requireAuditHashEnv H config ++
        (upstreamAuthEnvVars config upstream).flatMap (requireUpstreamAuthEnv H)
    else []) ++
    config.routes.flatMap (validateServerRoute clientTrust)

def validateServer (config : ConnectorConfig) (requireEnv : Bool) : List Str :=
  match config.serverIdentity with
  | none => [str "server config requires server_identity"]
  | some identity =>
      validateIdentityFiles P H (str "server_identity") identity .serverAuth ++
      match config.clientTrust with
      | none => [str "server config requires client_trust"]
      | some clientTrust =>
          validateClientTrust P H config clientTrust ++
          match config.upstream with
          | none => [str "server config requires upstream"]
          | some upstream => validateUpstream H config clientTrust upstream requireEnv

/-! ### The verdict -/

/-- Every error of a configuration. -/
def configErrors (config : ConnectorConfig) (mode : Mode) (requireEnv : Bool) : List Str :=
  (match mode with
    | .client => validateClient P H config requireEnv
    | .server => validateServer P H config requireEnv) ++ validateCommon config

/-- **The verdict on a configuration.** -/
def validateConfig (config : ConnectorConfig) (mode : Mode) (requireEnv : Bool) :
    Except (List Str) Unit :=
  if (configErrors P H config mode requireEnv).isEmpty then .ok ()
  else .error (configErrors P H config mode requireEnv)

/-! ### What acceptance says -/

theorem reportBlank_eq_nil {message : Str} {values : List Str} :
    reportBlank message values = [] ↔ ∀ value ∈ values, isBlank value = false := by
  simp [reportBlank]

theorem collectPrefixError_eq_nil {routeId field : Str} {pre : Option Str} :
    collectPrefixError routeId field pre = [] ↔
      ∀ p ∈ pre, validateRoutePrefix p = .ok () := by
  simp only [collectPrefixError, List.flatMap_eq_nil_iff, Option.mem_toList, reportError_eq_nil]
  refine forall₂_congr fun p _ => ⟨?_, fun h => ⟨(), h⟩⟩
  rintro ⟨⟨⟩, h⟩
  exact h

/-- A trusted context that passes its checks. -/
structure CommonContext (trusted : GovernedTrustedContextConfig) : Prop where
  jurisdiction : ∀ value ∈ trusted.jurisdiction, isBlank value = false
  assertedAssurance : ∀ value ∈ trusted.assertedAssurance, isBlank value = false
  legalBasisRef : ∀ value ∈ trusted.legalBasisRef, isBlank value = false
  consentRef : ∀ value ∈ trusted.consentRef, isBlank value = false
  sourceObservedAgeSeconds : trusted.sourceObservedAgeSeconds ≠ some 0

theorem commonContext_iff {owner : Str} {trusted : GovernedTrustedContextConfig} :
    validateTrustedContextFields owner trusted = [] ↔ CommonContext trusted := by
  simp only [validateTrustedContextFields, List.append_eq_nil_iff, reportBlank_eq_nil,
    reportIf_eq_nil, Option.mem_toList, decide_eq_false_iff_not]
  constructor
  · rintro ⟨⟨⟨⟨hj, ha⟩, hl⟩, hc⟩, hage⟩
    exact ⟨hj, ha, hl, hc, hage⟩
  · rintro ⟨hj, ha, hl, hc, hage⟩
    exact ⟨⟨⟨⟨hj, ha⟩, hl⟩, hc⟩, hage⟩

/-- A governed policy that passes its checks. -/
structure CommonPolicy (policy : GovernedRoutePolicyConfig) : Prop where
  gate : governedRoutePolicyHasGate policy = true
  permittedPurposes : ∀ value ∈ policy.permittedPurposes, isBlank value = false
  permittedJurisdictions : ∀ value ∈ policy.permittedJurisdictions, isBlank value = false
  allowedAssurance : ∀ value ∈ policy.allowedAssurance, isBlank value = false
  minimumAssurance : ∀ value ∈ policy.minimumAssurance, isBlank value = false
  maxSourceAgeSeconds : policy.maxSourceAgeSeconds ≠ some 0
  redactionFields : ∀ value ∈ policy.redactionFields, isBlank value = false
  unsupportedOdrlTerms : ∀ value ∈ policy.unsupportedOdrlTerms, isBlank value = false
  trustedContext : CommonContext policy.trustedContext

theorem commonPolicy_iff {routeId : Str} {policy : GovernedRoutePolicyConfig} :
    validateGovernedRoutePolicy routeId policy = [] ↔ CommonPolicy policy := by
  simp only [validateGovernedRoutePolicy, List.append_eq_nil_iff, reportBlank_eq_nil,
    reportIf_eq_nil, Option.mem_toList, decide_eq_false_iff_not, Bool.not_eq_false',
    commonContext_iff]
  constructor
  · rintro ⟨⟨⟨⟨⟨⟨⟨⟨hgate, hp⟩, hj⟩, ha⟩, hm⟩, hage⟩, hr⟩, ho⟩, ht⟩
    exact ⟨hgate, hp, hj, ha, hm, hage, hr, ho, ht⟩
  · rintro ⟨hgate, hp, hj, ha, hm, hage, hr, ho, ht⟩
    exact ⟨⟨⟨⟨⟨⟨⟨⟨hgate, hp⟩, hj⟩, ha⟩, hm⟩, hage⟩, hr⟩, ho⟩, ht⟩

/-- A route that passes the common checks. -/
structure CommonRoute (route : RouteConfig) : Prop where
  id : isBlank route.id = false
  methods : route.methods ≠ []
  localPrefix : ∀ p ∈ route.localPrefix, validateRoutePrefix p = .ok ()
  upstreamPrefix : ∀ p ∈ route.upstreamPrefix, validateRoutePrefix p = .ok ()
  purposes : ∀ value ∈ route.purposes, isBlank value = false
  clientIdentities : ∀ value ∈ route.clientIdentities, isBlank value = false
  governedPolicy : ∀ policy ∈ route.governedPolicy, CommonPolicy policy

theorem commonRoute_iff {route : RouteConfig} :
    (isBlank route.id = false ∧ validateRouteFields route = []) ↔ CommonRoute route := by
  simp only [validateRouteFields, List.append_eq_nil_iff, reportBlank_eq_nil, reportIf_eq_nil,
    collectPrefixError_eq_nil, List.flatMap_eq_nil_iff, Option.mem_toList, commonPolicy_iff,
    List.isEmpty_eq_false_iff]
  constructor
  · rintro ⟨hid, ⟨⟨⟨⟨hm, hl⟩, hu⟩, hp⟩, hc⟩, hg⟩
    exact ⟨hid, hm, hl, hu, hp, hc, hg⟩
  · rintro ⟨hid, hm, hl, hu, hp, hc, hg⟩
    exact ⟨hid, ⟨⟨⟨⟨hm, hl⟩, hu⟩, hp⟩, hc⟩, hg⟩

theorem commonRoute_of_validateRoutes {seen : List Str} {routes : List RouteConfig}
    (h : validateRoutes seen routes = []) : ∀ route ∈ routes, CommonRoute route := by
  induction routes generalizing seen with
  | nil => simp
  | cons route rest ih =>
      simp only [validateRoutes, List.append_eq_nil_iff] at h
      obtain ⟨⟨hid, hfields⟩, hrest⟩ := h
      have hnot : isBlank route.id = false := by
        cases hblank : isBlank route.id with
        | false => rfl
        | true => simp [hblank] at hid
      intro r hr
      rcases List.mem_cons.1 hr with rfl | hr
      · exact commonRoute_iff.1 ⟨hnot, hfields⟩
      · exact ih hrest r hr

/-- **Every route of an accepted configuration passes the common checks.** -/
theorem commonRoute_of_validateCommon {config : ConnectorConfig} (h : validateCommon config = []) :
    ∀ route ∈ config.routes, CommonRoute route := by
  rw [validateCommon, List.append_eq_nil_iff] at h
  exact commonRoute_of_validateRoutes h.2

variable {P H} {config : ConnectorConfig} {mode : Mode} {requireEnv : Bool}

theorem validateConfig_eq_ok :
    validateConfig P H config mode requireEnv = .ok () ↔
      configErrors P H config mode requireEnv = [] := by
  unfold validateConfig
  split_ifs with h
  · simpa using h
  · simpa using h

/-- A prefix that a route must have is there. -/
theorem some_of_not_isEmpty {pre : Option Str} (h : (pre.getD []).isEmpty = false) :
    ∃ p, pre = some p := by
  cases pre with
  | none => simp at h
  | some p => exact ⟨p, rfl⟩

/-- **Acceptance in client mode**: every route has both prefixes. -/
theorem validateConfig_client (h : validateConfig P H config .client requireEnv = .ok ()) :
    ∀ route ∈ config.routes, CommonRoute route ∧
      (∃ p, route.localPrefix = some p) ∧ ∃ p, route.upstreamPrefix = some p := by
  rw [validateConfig_eq_ok, configErrors, List.append_eq_nil_iff] at h
  obtain ⟨hclient, hcommon⟩ := h
  intro route hroute
  refine ⟨commonRoute_of_validateCommon hcommon route hroute, ?_⟩
  simp only [validateClient, List.append_eq_nil_iff] at hclient
  cases hserver : config.server with
  | none => simp [hserver] at hclient
  | some server =>
      cases hidentity : config.clientIdentity with
      | none => simp [hserver, hidentity] at hclient
      | some identity =>
          simp only [hserver, hidentity, List.append_eq_nil_iff, List.flatMap_eq_nil_iff] at hclient
          have hfields := hclient.2.2.1.2 route hroute
          simp only [validateClientRoute, List.append_eq_nil_iff, reportIf_eq_nil] at hfields
          exact ⟨some_of_not_isEmpty hfields.1.1, some_of_not_isEmpty hfields.1.2⟩

/-- **Acceptance in server mode**: the server's own parts are there, and their checks pass. -/
theorem validateConfig_server (h : validateConfig P H config .server requireEnv = .ok ()) :
    ∃ clientTrust upstream, config.clientTrust = some clientTrust ∧
      config.upstream = some upstream ∧ validateClientTrust P H config clientTrust = [] ∧
      validateUpstream H config clientTrust upstream requireEnv = [] ∧
      validateCommon config = [] := by
  rw [validateConfig_eq_ok, configErrors, List.append_eq_nil_iff] at h
  obtain ⟨hserver, hcommon⟩ := h
  cases hidentity : config.serverIdentity with
  | none => simp [validateServer, hidentity] at hserver
  | some identity =>
      cases htrust : config.clientTrust with
      | none => simp [validateServer, hidentity, htrust] at hserver
      | some clientTrust =>
          cases hupstream : config.upstream with
          | none => simp [validateServer, hidentity, htrust, hupstream] at hserver
          | some upstream =>
              simp only [validateServer, hidentity, htrust, hupstream,
                List.append_eq_nil_iff] at hserver
              exact ⟨clientTrust, upstream, rfl, rfl, hserver.2.1, hserver.2.2, hcommon⟩

/-- A client connector has a server connector to forward to. -/
theorem exists_server_of_accepted (h : validateConfig P H config .client requireEnv = .ok ()) :
    ∃ server, config.server = some server := by
  rw [validateConfig_eq_ok, configErrors, List.append_eq_nil_iff] at h
  cases hserver : config.server with
  | none => simp [validateClient, hserver] at h
  | some server => exact ⟨server, rfl⟩

/-- In both modes, every route of an accepted configuration passes the common checks. -/
theorem commonRoute_of_accepted (h : validateConfig P H config mode requireEnv = .ok ()) :
    ∀ route ∈ config.routes, CommonRoute route := by
  intro route hroute
  cases mode with
  | client => exact (validateConfig_client h route hroute).1
  | server =>
      obtain ⟨-, -, -, -, -, -, hcommon⟩ := validateConfig_server h
      exact commonRoute_of_validateCommon hcommon route hroute

/-- No limit of an accepted configuration is zero. -/
theorem limits_of_accepted (h : validateConfig P H config mode requireEnv = .ok ()) :
    0 < config.limits.maxConcurrentRequests ∧ 0 < config.limits.maxConcurrentConnections ∧
      0 < config.limits.maxRequestsPerIdentityPerMinute := by
  have hcommon : validateCommon config = [] := by
    rw [validateConfig_eq_ok] at h
    cases mode with
    | client => exact (List.append_eq_nil_iff.1 h).2
    | server => exact (List.append_eq_nil_iff.1 h).2
  simp only [validateCommon, validateLimits, reportZeroLimit, List.append_eq_nil_iff,
    reportIf_eq_nil, decide_eq_false_iff_not] at hcommon
  obtain ⟨⟨⟨-, ⟨⟨-, hrequests⟩, hconnections⟩, hrate⟩, -⟩, -⟩ := hcommon
  exact ⟨Nat.pos_of_ne_zero hrequests, Nat.pos_of_ne_zero hconnections,
    UInt32.pos_iff_ne_zero.2 hrate⟩

/-- No two entitlements of an accepted configuration are for one identity. -/
theorem nodup_of_validateEntitlements {clientTrust : ClientTrustConfig} {seen : List Str}
    {entitlements : List TrustContextEntitlementConfig}
    (h : validateEntitlements clientTrust seen entitlements = []) :
    (entitlements.map fun e => trim e.clientIdentity).Nodup ∧
      ∀ e ∈ entitlements, trim e.clientIdentity ∉ seen := by
  induction entitlements generalizing seen with
  | nil => simp
  | cons entitlement rest ih =>
      rw [validateEntitlements, List.append_eq_nil_iff, validateTrustContextEntitlement] at h
      obtain ⟨hhead, hrest⟩ := h
      have hne : (trim entitlement.clientIdentity).isEmpty = false := by
        cases hempty : (trim entitlement.clientIdentity).isEmpty with
        | false => rfl
        | true => simp [hempty] at hhead
      simp only [hne, Bool.false_eq_true, if_false, List.append_eq_nil_iff, reportIf_eq_nil,
        decide_eq_false_iff_not] at hhead hrest
      obtain ⟨hnodup, hseen⟩ := ih hrest
      rw [List.map_cons, List.nodup_cons]
      refine ⟨⟨fun hmem => ?_, hnodup⟩, fun e he => ?_⟩
      · obtain ⟨e, he, heq⟩ := List.mem_map.1 hmem
        exact hseen e he (by rw [heq]; exact List.mem_cons_self)
      · rcases List.mem_cons.1 he with rfl | he
        · exact hhead.1.1.1
        · exact fun hmem => hseen e he (List.mem_cons_of_mem _ hmem)

/-! ### An accepted configuration for concrete runs -/

theorem slash_of_validateRoutePrefix {pre : Str} (h : validateRoutePrefix pre = .ok ()) :
    ∃ t, pre = slash :: t := by
  simp only [validateRoutePrefix, chain_eq_ok, ensure_eq_ok, decide_eq_true_eq] at h
  obtain ⟨⟨⟩, -, ⟨⟩, hhead, -⟩ := h
  cases pre with
  | nil => cases hhead
  | cons b t => exact ⟨t, by rw [Option.some.inj hhead]⟩

theorem validateRoutePrefix_of_canonical {pre out : Str}
    (h : canonicalRequestPath pre = .ok out) : validateRoutePrefix pre = .ok () := by
  obtain ⟨-, hhead, -⟩ := canonicalRequestPath_eq_ok_iff.1 h
  have hne : pre.isEmpty = false := by
    cases pre with
    | nil => cases hhead
    | cons => rfl
  simp [validateRoutePrefix, validateRequestPath, h, hhead, hne, ensure, pure, Except.pure]

namespace Sample

/-- The upstream of the sample configurations. -/
def upstreamUrl : Whatwg.Url := ⟨str "http", str "upstream:8080", str "/", none, none⟩

/-- The server connector of the sample configurations. -/
def serverUrl : Whatwg.Url := ⟨str "https", str "server.example", str "/", none, none⟩

/-- One route, for the client of `alpha`, with the same prefix on both sides. -/
def route (pre : Str) : RouteConfig :=
  { id := str "records", methods := [str "GET"], localPrefix := some pre
    upstreamPrefix := some pre, clientIdentity := some (str "spiffe://alpha/client") }

/-- A configuration that can be run in both modes. -/
def bothModes (pre : Str) : ConnectorConfig :=
  { listen := .unix (str "/run/connector.sock")
    server := some ⟨serverUrl, str "bundle.pem"⟩
    clientIdentity := some ⟨str "client.pem", str "client.key"⟩
    audit := { allowUnkeyedHashing := true }
    routes := [route pre]
    serverIdentity := some ⟨str "server.pem", str "server.key"⟩
    clientTrust := some
      { allowedIdentities := [str "spiffe://alpha/client"], trustAnchors := [alphaAnchor] }
    upstream := some
      { baseUrl := upstreamUrl, defaultAuthHeaderEnv := some (str "UPSTREAM_TOKEN") } }

/-- The sample configuration is accepted in both modes, for every valid prefix. -/
theorem bothModes_accepted {pre : Str} (h : validateRoutePrefix pre = .ok ()) (mode : Mode) :
    validateConfig uriPki host (bothModes pre) mode true = .ok () := by
  obtain ⟨t, rfl⟩ := slash_of_validateRoutePrefix h
  have hroute : CommonRoute (route (slash :: t)) := by
    have hid : isBlank (str "records") = false := by decide +kernel
    refine ⟨hid, by simp [route], ?_, ?_, by simp [route], by simp [route], by simp [route]⟩
    · rintro p ⟨⟩
      exact h
    · rintro p ⟨⟩
      exact h
  have hcommon : validateCommon (bothModes (slash :: t)) = [] := by
    obtain ⟨hid, hfields⟩ := commonRoute_iff.2 hroute
    have hroutes : validateRoutes [] (bothModes (slash :: t)).routes = [] := by
      simp only [bothModes, validateRoutes, hid, hfields]
      rfl
    rw [validateCommon, hroutes]
    rfl
  rw [validateConfig_eq_ok]
  cases mode with
  | client =>
      rw [configErrors, hcommon]
      rfl
  | server =>
      rw [configErrors, hcommon]
      rfl

end Sample

end TrustConnector
