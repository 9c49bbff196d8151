/-
**Starting a connector.**

The commands `server` and `client` read a configuration, validate it, warn if their certificate
expires soon, and set up what they need before they listen: the TLS side of the server and its trust
policy, or the TLS client that talks to the server connector, and the semaphores that limit how much
goes on at once.  Each of these steps can fail on its own, with an error or in a panic, so a
validated configuration need not start.

The TLS handshake of the server lets in a client that chains to any of the configured anchors; which
anchors may vouch for which identity is decided later, request by request.

Main definitions:

* `ListenConfig.asTcp`, `TlsServerConfig`, `serverConfig` — the listener and the TLS side;
* `Reqwest`, `reqwestMtlsClient` — the TLS client;
* `Machine`, `StartError`, `newSemaphore` — what a start depends on, and how it fails;
* `validateOrError`, `startServer`, `startClient` — the two commands, once they listen;
* `StartedFrom` — what a started server has been through;
* `TlsServerConfig.acceptClient` — the verdict of the handshake on a client.

Main results:

* `startServer_iff` — **which configurations a server starts from**;
* `startClient_iff` — which configurations a client starts from;
* `handshake_admits` — **the handshake turns no client away that the trust policy accepts**.
-/

import TrustConnector.Expiry
import TrustConnector.Proxy

set_option relaxedAutoImplicit false
set_option autoImplicit false

namespace TrustConnector

open Text Fallible

/-! ### What a start depends on -/

/-- The machine and the build. -/
structure Machine where
  build : Build
  /-- How a time is written, if it can be. -/
  rfc3339 : ℤ → Option Str
  bindTcp : IpAddr × UInt16 → Except Str Unit

/-- How a command fails to start: with an error, or in a panic. -/
inductive StartError where
  | error (err : ConnectorError)
  | panicked
  deriving DecidableEq, Repr

/-- The most permits of a semaphore of the runtime, on a 64-bit machine. -/
def maxPermits : ℕ := 2 ^ 61 - 1

/-- A new semaphore, where the number of permits is checked in an assertion. -/
def newSemaphore (permits : ℕ) : Except StartError Unit := ensure (permits ≤ maxPermits) .panicked

/-- The router has a semaphore of its own, which limits the requests at once. -/
def router (config : ConnectorConfig) : Except StartError Unit :=
  newSemaphore config.limits.maxConcurrentRequests

/-! ### The server -/

def ListenConfig.asTcp : ListenConfig → Except ConnectorError (IpAddr × UInt16)
  | .tcp ip port => .ok (ip, port)
  | .unix _ => .error (.invalidConfig
      (str "unix socket listeners are not implemented in the MVP binary yet"))

/-- The TLS side of the server: its certificates and key, and the anchors of all its clients. -/
structure TlsServerConfig where
  certs : List Str
  key : Str
  roots : RootCertStore

variable (P : Pki) (H : Host)

def serverConfig (config : ConnectorConfig) : Except ConnectorError TlsServerConfig := do
  let identity ← okOr (.invalidConfig (str "server mode requires server_identity"))
    config.serverIdentity
  let certs ← (loadCerts P H identity.cert).mapError .tls
  let key ← (loadPrivateKey P H identity.key).mapError .tls
  let trust ← okOr (.invalidConfig (str "server mode requires client_trust")) config.clientTrust
  let roots ← rootStoreFromPaths P H (trust.trustAnchors.map (·.ca))
  (P.buildVerifier roots).mapError fun err =>
    .tls (str "client verifier setup failed: " ++ err)
  (P.withSingleCert certs key).mapError fun err =>
    .tls (str "server identity setup failed: " ++ err)
  return { certs, key, roots }

/-- The errors of a validation, as one error. -/
def validateOrError (path : Str) (config : ConnectorConfig) (mode : Mode) (requireEnv : Bool) :
    Except ConnectorError Unit :=
  (validateConfig P H config mode requireEnv).mapError fun errors =>
    .invalidConfig (path ++ str " config failed validation:\n" ++
      (str "\n").intercalate (errors.map (str "- " ++ ·)))

/-- A server connector that listens, with the warnings that it has logged. -/
structure StartedServer where
  warned : List (Str × Str)
  bind : IpAddr × UInt16
  tls : TlsServerConfig
  state : ProxyState

/-- **The command `server`**, until it accepts connections. -/
def startServer (M : Machine) (path : Str) (config : ConnectorConfig) :
    Except StartError StartedServer := do
  -- a server does not start without the secrets that it will need
  (validateOrError P H path config .server true).mapError .error
  let warned ← okOr .panicked (warnCertificateExpiry P H M.rfc3339 M.build config .server)
  let bind ← config.listen.asTcp.mapError .error
  let tls ← (serverConfig P H config).mapError .error
  let state ← (ProxyState.server P H config).mapError .error
  router config
  (M.bindTcp bind).mapError fun err => .error (.io err)
  newSemaphore config.limits.maxConcurrentConnections
  return { warned, bind, tls, state }

/-- The verdict of the TLS handshake on the certificates that a client presents; a client has to
present some. -/
def TlsServerConfig.acceptClient (tls : TlsServerConfig) (chain : List Str) : Except Str Unit :=
  match chain with
  | [] => .error (str "peer sent no certificates")
  | leaf :: intermediates => P.verifyClientCert tls.roots leaf intermediates H.unixNow

/-! ### The client -/

/-- The TLS set-up of the HTTP client library. -/
structure Reqwest where
  identityFromPem : Str → Except Str Unit
  certificatesFromPemBundle : Str → Except Str (List Str)
  /-- Whether a client can be built from an identity and roots. -/
  build : Str → List Str → Except Str Unit

/-- A TLS client with an identity of its own, that trusts the given roots and no others. -/
structure MtlsClient where
  identityPem : Str
  roots : List Str

def readIdentityPem (cert key : Str) : Except Str Str := do
  let certPem ← H.openFile cert
  let keyPem ← H.openFile key
  return certPem ++ str "\n" ++ keyPem

variable (R : Reqwest)

def readCaPem (path : Str) : Except Str (List Str) := do
  let bytes ← H.openFile path
  R.certificatesFromPemBundle bytes

def reqwestMtlsClient (identity : IdentityFiles) (trustBundle : Str) :
    Except ConnectorError MtlsClient := do
  let pem ← (readIdentityPem H identity.cert identity.key).mapError .tls
  (R.identityFromPem pem).mapError fun err =>
    .tls (str "failed to load client identity for reqwest: " ++ err)
  let roots ← (readCaPem H R trustBundle).mapError .tls
  (R.build pem roots).mapError fun err => .tls (str "failed to build mTLS client: " ++ err)
  return { identityPem := pem, roots }

/-- A client connector that listens, with the warnings that it has logged. -/
structure StartedClient where
  warned : List (Str × Str)
  bind : IpAddr × UInt16
  client : MtlsClient
  config : ConnectorConfig

/-- **The command `client`**, until it accepts connections. -/
def startClient (M : Machine) (path : Str) (config : ConnectorConfig) :
    Except StartError StartedClient := do
  (validateOrError P H path config .client false).mapError .error
  let warned ← okOr .panicked (warnCertificateExpiry P H M.rfc3339 M.build config .client)
  let identity ← okOr (.error (.invalidConfig (str "client mode requires client_identity")))
    config.clientIdentity
  let server ← okOr (.error (.invalidConfig (str "client mode requires server"))) config.server
  let client ← (reqwestMtlsClient H R identity server.trustBundle).mapError .error
  let bind ← config.listen.asTcp.mapError .error
  router config
  (M.bindTcp bind).mapError fun err => .error (.io err)
  return { warned, bind, client, config }

variable {P H R} {M : Machine} {config : ConnectorConfig} {path : Str}

/-! ### What validation has already settled -/

theorem validateOrError_eq_ok {mode : Mode} {requireEnv : Bool} {u : Unit} :
    validateOrError P H path config mode requireEnv = .ok u ↔
      validateConfig P H config mode requireEnv = .ok () := by
  cases u
  exact mapError_ok_iff _ _ _

theorem asTcp_eq_ok {listen : ListenConfig} {bind : IpAddr × UInt16} :
    listen.asTcp = .ok bind ↔ listen = .tcp bind.1 bind.2 := by
  obtain ⟨ip, port⟩ := bind
  cases listen with
  | tcp ip' port' => simp [ListenConfig.asTcp]
  | unix path => simp [ListenConfig.asTcp]

theorem newSemaphore_eq_ok {permits : ℕ} {u : Unit} :
    newSemaphore permits = .ok u ↔ permits ≤ maxPermits := by
  simp [newSemaphore, ensure_eq_ok]

/-- The warnings are there unless the build stops at the number of days. -/
theorem exists_warned_iff {mode : Mode} :
    (∃ warned, warnCertificateExpiry P H M.rfc3339 M.build config mode = some warned) ↔
      (M.build = .checked → config.limits.expiryWarningDays.toInt ≤ 213503982334601) := by
  unfold warnCertificateExpiry expiryThreshold
  rw [← not_lt, ← thresholdOverflows_iff, ← not_and]
  split_ifs with hstops
  · simp [hstops]
  · simp [hstops]

/-- A leaf certificate that passes validation can be loaded with its key. -/
theorem validateLeafCertificate_eq_ok {cert key : Str} {usage : EkUsage}
    (h : validateLeafCertificate P H cert key usage = .ok ()) :
    ∃ certs privateKey, loadCerts P H cert = .ok certs ∧
      loadPrivateKey P H key = .ok privateKey ∧ P.withSingleCert certs privateKey = .ok () := by
  simp only [validateLeafCertificate, chain_eq_ok] at h
  obtain ⟨certs, hcerts, h⟩ := h
  cases certs with
  | nil => cases h
  | cons leaf rest =>
      simp only [chain_eq_ok, mapError_ok_iff] at h
      obtain ⟨privateKey, hkey, ⟨⟩, hmatch, -⟩ := h
      exact ⟨_, privateKey, hcerts, hkey, hmatch⟩

theorem validateCaCertificate_eq_ok {ca : Str} (h : validateCaCertificate P H ca = .ok ()) :
    ∃ cert, loadSingleCaCert P H ca = .ok cert := by
  simp only [validateCaCertificate, chain_eq_ok] at h
  obtain ⟨cert, hcert, -⟩ := h
  exact ⟨cert, hcert⟩

theorem requireFile_eq_nil {field file : Str} (h : requireFile H field file = []) :
    H.pathExists file = true := by
  unfold requireFile at h
  split_ifs at h with hempty
  simpa using h

/-- Identity files that pass validation can be loaded. -/
theorem validateIdentityFiles_eq_nil {owner : Str} {identity : IdentityFiles} {usage : EkUsage}
    (h : validateIdentityFiles P H owner identity usage = []) :
    validateLeafCertificate P H identity.cert identity.key usage = .ok () := by
  simp only [validateIdentityFiles, List.append_eq_nil_iff] at h
  obtain ⟨⟨⟨hcert, hkey⟩, -⟩, hleaf⟩ := h
  rw [requireFile_eq_nil hcert, requireFile_eq_nil hkey, Bool.and_self, if_pos rfl,
    reportError_eq_nil] at hleaf
  obtain ⟨⟨⟩, hleaf⟩ := hleaf
  exact hleaf

/-! ### The root stores -/

/-- A CA file that the libraries take as an anchor. -/
def IsAnchor (P : Pki) (H : Host) (ca : Str) : Prop :=
  ∃ cert, loadSingleCaCert P H ca = .ok cert ∧ P.addRoot cert = .ok ()

theorem addRoots_iff {roots : RootCertStore} {paths : List Str} :
    (∃ out, addRoots P H roots paths = .ok out) ↔ ∀ ca ∈ paths, IsAnchor P H ca := by
  induction paths generalizing roots with
  | nil => simp [addRoots]
  | cons ca paths ih =>
      simp only [addRoots, chain_eq_ok, mapError_ok_iff, List.forall_mem_cons]
      constructor
      · rintro ⟨out, cert, hcert, ⟨⟩, hadd, hrest⟩
        exact ⟨⟨cert, hcert, hadd⟩, ih.1 ⟨out, hrest⟩⟩
      · rintro ⟨⟨cert, hcert, hadd⟩, hpaths⟩
        obtain ⟨out, hrest⟩ := ih.2 hpaths
        exact ⟨out, cert, hcert, (), hadd, hrest⟩

theorem caFilesOfDomain_subset (config : ConnectorConfig) (domain : Str) :
    caFilesOfDomain config domain ⊆ config.trustAnchors.map (·.ca) := by
  intro ca hca
  obtain ⟨anchor, hanchor, rfl⟩ := List.mem_map.1 hca
  exact List.mem_map_of_mem (List.mem_filter.1 hanchor).1

theorem caFilesOfDnsIdentity_subset (config : ConnectorConfig) (identity : Str) :
    caFilesOfDnsIdentity config identity ⊆ config.trustAnchors.map (·.ca) := by
  intro ca hca
  obtain ⟨anchor, hanchor, hca⟩ := List.mem_flatMap.1 hca
  obtain ⟨d, -, rfl⟩ := List.mem_map.1 hca
  exact List.mem_map_of_mem hanchor

/-- The root stores of groups of anchors. -/
theorem mapM_rootStore {files : Str → List Str} {groups : StrMap (List Str)} {all : List Str}
    (hgroups : ∀ k, groups.lookup k = if files k = [] then none else some (files k))
    (hfiles : ∀ k, files k ⊆ all) (hanchors : ∀ ca ∈ all, IsAnchor P H ca) :
    ∃ stores, StrMap.mapM (rootStoreFromPaths P H) groups = .ok stores := by
  refine StrMap.mapM_of_lookup fun k paths hpaths => ?_
  rw [hgroups k] at hpaths
  split_ifs at hpaths with hnil
  obtain rfl := Option.some.inj hpaths
  exact addRoots_iff.2 fun ca hca => hanchors ca (hfiles k hca)

/-- There is a trust policy if every anchor is one for the libraries. -/
theorem fromConfig_of_anchors
    (hanchors : ∀ ca ∈ config.trustAnchors.map (·.ca), IsAnchor P H ca) :
    ∃ policy, ServerTrustPolicy.fromConfig P H config = .ok policy := by
  obtain ⟨domains, hdomains⟩ := mapM_rootStore (trustDomainMap_lookup config)
    (caFilesOfDomain_subset config) hanchors
  obtain ⟨identities, hidentities⟩ := mapM_rootStore (dnsIdentityMap_lookup config)
    (caFilesOfDnsIdentity_subset config) hanchors
  exact ⟨_, by rw [ServerTrustPolicy.fromConfig, hdomains, hidentities]; rfl⟩

/-- The roots are the certificates of the files. -/
theorem mem_rootStore_iff {paths : List Str} {roots : RootCertStore} {cert : Str}
    (h : rootStoreFromPaths P H paths = .ok roots) :
    cert ∈ roots ↔ ∃ ca ∈ paths, loadSingleCaCert P H ca = .ok cert := by
  have hall := rootStoreFromPaths_eq_ok P H h
  clear h
  induction hall with
  | nil => simp
  | @cons ca first paths certs hload _ ih =>
      have hhead : loadSingleCaCert P H ca = .ok cert ↔ cert = first := by
        rw [hload, Except.ok.injEq, eq_comm]
      simp only [List.mem_cons, exists_eq_or_imp, hhead, ih]

/-! ### Which configurations start -/

/-- The verifier is only refused if it has no roots. -/
def BuildsVerifier (P : Pki) : Prop := ∀ roots, roots ≠ [] → P.buildVerifier roots = .ok ()

/-- The audit key of a validated server is there. -/
theorem auditKeyHasher_of_valid (haudit : validateAudit config.audit = [])
    (henv : requireAuditHashEnv H config = []) : auditKeyHasher H config = .ok () := by
  unfold auditKeyHasher
  unfold validateAudit at haudit
  cases hvar : config.audit.hashSecretEnv with
  | none =>
      rw [hvar] at haudit
      simp only [reportIf_eq_nil, Bool.not_eq_false'] at haudit
      simp [haudit]
  | some var =>
      simp only [requireAuditHashEnv, hvar, Option.toList_some, List.flatMap_singleton,
        reportError_eq_nil] at henv
      obtain ⟨⟨⟩, hhasher⟩ := henv
      simp [hhasher, Except.mapError]

/-- What a validated server configuration has. -/
theorem serverParts_of_valid (h : validateConfig P H config .server true = .ok ()) :
    (∃ identity, config.serverIdentity = some identity ∧
        validateLeafCertificate P H identity.cert identity.key .serverAuth = .ok ()) ∧
      (∃ trust, config.clientTrust = some trust ∧ trust.trustAnchors ≠ [] ∧
        ∀ anchor ∈ trust.trustAnchors, ∃ cert, loadSingleCaCert P H anchor.ca = .ok cert) ∧
      auditKeyHasher H config = .ok () := by
  obtain ⟨trust, upstream, htrust, hupstream, hclientTrust, henv, hcommon⟩ := validateConfig_server h
  refine ⟨?_, ⟨trust, htrust, ?_, ?_⟩, ?_⟩
  · rw [validateConfig_eq_ok, configErrors, List.append_eq_nil_iff] at h
    obtain ⟨hserver, -⟩ := h
    cases hidentity : config.serverIdentity with
    | none => simp [validateServer, hidentity] at hserver
    | some identity =>
        simp only [validateServer, hidentity, List.append_eq_nil_iff] at hserver
        exact ⟨identity, rfl, validateIdentityFiles_eq_nil hserver.1⟩
  · simp only [validateClientTrust, List.append_eq_nil_iff, reportIf_eq_nil,
      List.isEmpty_eq_false_iff] at hclientTrust
    exact hclientTrust.1.1.1.1.2
  · intro anchor hanchor
    simp only [validateClientTrust, List.append_eq_nil_iff, List.flatMap_eq_nil_iff] at hclientTrust
    have hone := hclientTrust.1.2 anchor hanchor
    simp only [validateTrustAnchor, List.append_eq_nil_iff, reportError_eq_nil] at hone
    obtain ⟨-, ⟨⟩, hca⟩ := hone
    exact validateCaCertificate_eq_ok hca
  · simp only [validateUpstream, if_true, List.append_eq_nil_iff] at henv
    simp only [validateCommon, List.append_eq_nil_iff] at hcommon
    exact auditKeyHasher_of_valid hcommon.1.2 henv.1.2.1

/-- The TLS side of a validated server can be set up if its anchors are anchors for the libraries. -/
theorem serverConfig_of_valid (hverifier : BuildsVerifier P)
    (hvalid : validateConfig P H config .server true = .ok ())
    (hanchors : ∀ ca ∈ config.trustAnchors.map (·.ca), IsAnchor P H ca) :
    ∃ tls, serverConfig P H config = .ok tls := by
  obtain ⟨⟨identity, hidentity, hleaf⟩, ⟨trust, htrust, hne, -⟩, -⟩ := serverParts_of_valid hvalid
  obtain ⟨certs, key, hcerts, hkey, hmatch⟩ := validateLeafCertificate_eq_ok hleaf
  have hpaths : config.trustAnchors = trust.trustAnchors := by
    rw [ConnectorConfig.trustAnchors, htrust]
  rw [hpaths] at hanchors
  obtain ⟨roots, hroots⟩ := addRoots_iff.2 hanchors
  have hroots' : rootStoreFromPaths P H (trust.trustAnchors.map (·.ca)) = .ok roots := hroots
  have hrootsNe : roots ≠ [] := by
    rintro rfl
    have hlength := (rootStoreFromPaths_eq_ok P H hroots').length_eq
    rw [List.length_map, List.length_nil, List.length_eq_zero_iff] at hlength
    exact hne hlength
  refine ⟨⟨certs, key, roots⟩, ?_⟩
  simp only [serverConfig, hidentity, htrust, okOr, ok_bind, hcerts, hkey, hroots',
    hverifier roots hrootsNe, hmatch, Except.mapError]
  rfl

variable (P H M) in
/-- **What a started server has been through.** -/
structure StartedFrom (config : ConnectorConfig) (started : StartedServer) : Prop where
  valid : validateConfig P H config .server true = .ok ()
  warned : warnCertificateExpiry P H M.rfc3339 M.build config .server = some started.warned
  listen : config.listen = .tcp started.bind.1 started.bind.2
  tls : serverConfig P H config = .ok started.tls
  state : ProxyState.server P H config = .ok started.state
  requests : config.limits.maxConcurrentRequests ≤ maxPermits
  bound : M.bindTcp started.bind = .ok ()
  connections : config.limits.maxConcurrentConnections ≤ maxPermits

theorem startServer_eq_ok_iff {started : StartedServer} :
    startServer P H M path config = .ok started ↔ StartedFrom P H M config started := by
  simp only [startServer, router, chain_eq_ok, mapError_ok_iff, validateOrError_eq_ok, okOr_eq_ok,
    asTcp_eq_ok, newSemaphore_eq_ok]
  constructor
  · rintro ⟨⟨⟩, hvalid, warned, hwarned, bind, hlisten, tls, htls, state, hstate, ⟨⟩, hrequests, ⟨⟩,
      hbound, ⟨⟩, hconnections, h⟩
    obtain rfl := Except.ok.inj h
    exact ⟨hvalid, hwarned, hlisten, htls, hstate, hrequests, hbound, hconnections⟩
  · rintro ⟨hvalid, hwarned, hlisten, htls, hstate, hrequests, hbound, hconnections⟩
    exact ⟨(), hvalid, _, hwarned, _, hlisten, _, htls, _, hstate, (), hrequests, (), hbound, (),
      hconnections, rfl⟩

/-- The roots of the TLS side are those of all anchors. -/
theorem serverConfig_roots {tls : TlsServerConfig} (h : serverConfig P H config = .ok tls) :
    rootStoreFromPaths P H (config.trustAnchors.map (·.ca)) = .ok tls.roots := by
  simp only [serverConfig, chain_eq_ok, okOr_eq_ok] at h
  obtain ⟨-, -, certs, -, key, -, trust, htrust, roots, hroots, -, -, -, -, h⟩ := h
  obtain rfl := Except.ok.inj h
  rwa [ConnectorConfig.trustAnchors, htrust]

/-- **Which configurations a server starts from**: the ones that pass validation, listen on an
address that is free, have anchors that the libraries take, do not ask for more permits than a
semaphore can have and, in a build with overflow checks, do not overflow the threshold of the warning
about the certificate.  A socket path passes validation and does not start. -/
theorem startServer_iff (hverifier : BuildsVerifier P) :
    (∃ started, startServer P H M path config = .ok started) ↔
      validateConfig P H config .server true = .ok () ∧
      (M.build = .checked → config.limits.expiryWarningDays.toInt ≤ 213503982334601) ∧
      (∃ ip port, config.listen = .tcp ip port ∧ M.bindTcp (ip, port) = .ok ()) ∧
      (∀ anchor ∈ config.trustAnchors, ∀ cert, loadSingleCaCert P H anchor.ca = .ok cert →
        P.addRoot cert = .ok ()) ∧
      config.limits.maxConcurrentRequests ≤ maxPermits ∧
      config.limits.maxConcurrentConnections ≤ maxPermits := by
  simp only [startServer_eq_ok_iff]
  constructor
  · rintro ⟨started, hstarted⟩
    refine ⟨hstarted.valid, exists_warned_iff.1 ⟨_, hstarted.warned⟩,
      ⟨_, _, hstarted.listen, hstarted.bound⟩, ?_, hstarted.requests, hstarted.connections⟩
    intro anchor hanchor cert hcert
    obtain ⟨cert', hcert', hadd⟩ := addRoots_iff.1 ⟨_, serverConfig_roots hstarted.tls⟩ anchor.ca
      (List.mem_map_of_mem hanchor)
    rw [hcert, Except.ok.injEq] at hcert'
    rwa [hcert']
  · rintro ⟨hvalid, hdays, ⟨ip, port, hlisten, hbound⟩, hadd, hrequests, hconnections⟩
    obtain ⟨-, ⟨trust, htrust, -, hload⟩, haudit⟩ := serverParts_of_valid hvalid
    have hanchors : ∀ ca ∈ config.trustAnchors.map (·.ca), IsAnchor P H ca := by
      intro ca hca
      obtain ⟨anchor, hanchor, rfl⟩ := List.mem_map.1 hca
      have hmem := hanchor
      rw [ConnectorConfig.trustAnchors, htrust] at hmem
      obtain ⟨cert, hcert⟩ := hload anchor hmem
      exact ⟨cert, hcert, hadd anchor hanchor cert hcert⟩
    obtain ⟨warned, hwarned⟩ := exists_warned_iff.2 hdays
    obtain ⟨tls, htls⟩ := serverConfig_of_valid hverifier hvalid hanchors
    obtain ⟨policy, hpolicy⟩ := fromConfig_of_anchors hanchors
    have hstate : ProxyState.server P H config = .ok ⟨config, some policy, some ()⟩ := by
      simp only [ProxyState.server, hpolicy, haudit, ok_bind]
      rfl
    exact ⟨⟨warned, (ip, port), tls, _⟩, hvalid, hwarned, hlisten, htls, hstate, hrequests, hbound,
      hconnections⟩

section

open Sample

/-- A machine with overflow checks on which every address is free. -/
def Sample.machine : Machine where
  build := .checked
  rfc3339 := fun _ => none
  bindTcp := fun _ => .ok ()

/-- The sample configuration, on an address. -/
def Sample.tcpConfig : ConnectorConfig :=
  { bothModes (str "/v1") with listen := .tcp (.v4 127 0 0 1) 8443 }

/-- The sample configuration, with one connection too many for a semaphore. -/
def Sample.manyConnections : ConnectorConfig :=
  { tcpConfig with limits := { tcpConfig.limits with maxConcurrentConnections := 2 ^ 61 } }

theorem Sample.buildsVerifier : BuildsVerifier uriPki := by
  intro roots hroots
  cases roots with
  | nil => exact absurd rfl hroots
  | cons root roots => rfl

/-- The sample server starts on an address.  It does not start on a socket path, with a threshold
that overflows or with too many permits, all of which pass validation. -/
theorem startServer_iff_listen :
    (∃ started, startServer uriPki host machine (str "connector.yaml") tcpConfig = .ok started) ∧
      ∀ config ∈ [bothModes (str "/v1"), tcpConfig.withExpiryWarningDays 213503982334602,
          manyConnections],
        validateConfig uriPki host config .server true = .ok () ∧
          ¬ ∃ started, startServer uriPki host machine (str "connector.yaml") config =
            .ok started := by
  simp only [startServer_iff buildsVerifier, List.forall_mem_cons]
  refine ⟨⟨rfl, fun _ => by decide, ⟨_, _, rfl, rfl⟩, fun _ _ _ _ => rfl, by decide, by decide⟩,
    ⟨rfl, ?_⟩, ⟨rfl, ?_⟩, ⟨rfl, ?_⟩, by simp⟩
  · rintro ⟨-, -, ⟨ip, port, hlisten, -⟩, -⟩
    cases hlisten
  · rintro ⟨-, hdays, -⟩
    exact absurd (hdays rfl) (by decide)
  · rintro ⟨-, -, -, -, -, hconnections⟩
    exact absurd hconnections (by decide)

end

/-- The identity of a validated client can be read. -/
theorem clientParts_of_valid {requireEnv : Bool}
    (h : validateConfig P H config .client requireEnv = .ok ()) :
    ∃ server identity certPem keyPem, config.server = some server ∧
      config.clientIdentity = some identity ∧ H.openFile identity.cert = .ok certPem ∧
      H.openFile identity.key = .ok keyPem := by
  rw [validateConfig_eq_ok, configErrors, List.append_eq_nil_iff] at h
  obtain ⟨hclient, -⟩ := h
  cases hserver : config.server with
  | none => simp [validateClient, hserver] at hclient
  | some server =>
      cases hidentity : config.clientIdentity with
      | none => simp [validateClient, hserver, hidentity] at hclient
      | some identity =>
          simp only [validateClient, hserver, hidentity, List.append_eq_nil_iff] at hclient
          obtain ⟨-, -, ⟨hfiles, -⟩, -⟩ := hclient
          obtain ⟨certs, key, hcerts, hkey, -⟩ :=
            validateLeafCertificate_eq_ok (validateIdentityFiles_eq_nil hfiles)
          simp only [loadCerts, chain_eq_ok] at hcerts
          simp only [loadPrivateKey, chain_eq_ok] at hkey
          obtain ⟨certPem, hcertPem, -⟩ := hcerts
          obtain ⟨keyPem, hkeyPem, -⟩ := hkey
          exact ⟨server, identity, certPem, keyPem, rfl, rfl, hcertPem, hkeyPem⟩

/-- **Which configurations a client starts from**: the ones that pass validation, listen on an
address that is free, and whose trust bundle can be read, if the TLS library takes them; the bounds
on the warning and on the requests at once are those of a server.  Validation only asks whether there
is a trust bundle. -/
theorem startClient_iff :
    (∃ started, startClient P H R M path config = .ok started) ↔
      validateConfig P H config .client false = .ok () ∧
      (M.build = .checked → config.limits.expiryWarningDays.toInt ≤ 213503982334601) ∧
      (∃ ip port, config.listen = .tcp ip port ∧ M.bindTcp (ip, port) = .ok ()) ∧
      (∀ server ∈ config.server, ∀ identity ∈ config.clientIdentity,
        ∀ pem, readIdentityPem H identity.cert identity.key = .ok pem →
          R.identityFromPem pem = .ok () ∧
            ∃ roots, readCaPem H R server.trustBundle = .ok roots ∧ R.build pem roots = .ok ()) ∧
      config.limits.maxConcurrentRequests ≤ maxPermits := by
  simp only [startClient, reqwestMtlsClient, router, chain_eq_ok, validateOrError_eq_ok,
    asTcp_eq_ok, okOr_eq_ok, mapError_ok_iff, newSemaphore_eq_ok]
  constructor
  · rintro ⟨started, ⟨⟩, hvalid, warned, hwarned, identity, hidentity, server, hserver, client,
      ⟨pem, hpem, ⟨⟩, htaken, roots, hroots, ⟨⟩, hbuild, -⟩, bind, hlisten, ⟨⟩, hrequests, ⟨⟩,
      hbound, -⟩
    refine ⟨hvalid, exists_warned_iff.1 ⟨_, hwarned⟩, ⟨_, _, hlisten, hbound⟩, ?_, hrequests⟩
    intro server' hserver' identity' hidentity' pem' hpem'
    obtain rfl : server = server' := Option.some.inj (hserver.symm.trans hserver')
    obtain rfl : identity = identity' := Option.some.inj (hidentity.symm.trans hidentity')
    obtain rfl : pem = pem' := Except.ok.inj (hpem.symm.trans hpem')
    exact ⟨htaken, roots, hroots, hbuild⟩
  · rintro ⟨hvalid, hdays, ⟨ip, port, hlisten, hbound⟩, htls, hrequests⟩
    obtain ⟨server, identity, certPem, keyPem, hserver, hidentity, hcert, hkey⟩ :=
      clientParts_of_valid hvalid
    have hpem : readIdentityPem H identity.cert identity.key =
        .ok (certPem ++ str "\n" ++ keyPem) := by
      rw [readIdentityPem, hcert, hkey]
      rfl
    obtain ⟨warned, hwarned⟩ := exists_warned_iff.2 hdays
    obtain ⟨htaken, roots, hroots, hbuild⟩ := htls server hserver identity hidentity _ hpem
    exact ⟨_, (), hvalid, warned, hwarned, identity, hidentity, server, hserver, _,
      ⟨_, hpem, (), htaken, roots, hroots, (), hbuild, rfl⟩, (ip, port), hlisten, (), hrequests, (),
      hbound, rfl⟩

/-- **The handshake turns no client away that the trust policy accepts**, if more roots never make a
chain fail: the handshake asks for any anchor, the policy for one of the right ones. -/
theorem handshake_admits {H₀ : Host} {started : StartedServer} {trust : ServerTrustPolicy}
    {chain : List Str} {identity : PeerIdentity}
    (hmono : ∀ roots roots' leaf intermediates time, roots ⊆ roots' →
      P.verifyClientCert roots leaf intermediates time = .ok () →
        P.verifyClientCert roots' leaf intermediates time = .ok ())
    (hstart : startServer P H₀ M path config = .ok started)
    (htrust : started.state.serverTrust = some trust)
    (hverified : trust.verifyPeer P H chain = .ok identity) :
    started.tls.acceptClient P H chain = .ok () := by
  have hfrom := startServer_eq_ok_iff.1 hstart
  obtain ⟨policy, hpolicy, hstarted⟩ := ProxyState.server_eq_ok hfrom.state
  rw [hstarted, Option.some.injEq] at htrust
  subst htrust
  obtain ⟨leaf, roots, hleaf, -, -, hroots, hchain⟩ := verifyPeer_eq_ok_iff.1 hverified
  -- the store that was asked is made of some of the anchors
  have hsub : roots ⊆ started.tls.roots := by
    obtain ⟨files, hfiles, hstore⟩ : ∃ files, files ⊆ config.trustAnchors.map (·.ca) ∧
        rootStoreFromPaths P H₀ files = .ok roots := by
      cases hdomain : spiffeTrustDomain identity.value with
      | some domain =>
          rw [rootsFor_domain hdomain, okOr_eq_ok] at hroots
          exact ⟨_, caFilesOfDomain_subset config domain, (files_of_domain_lookup hpolicy hroots).2⟩
      | none =>
          obtain ⟨-, hlookup⟩ := rootsFor_dnsIdentity hdomain hroots
          exact ⟨_, caFilesOfDnsIdentity_subset config identity.value,
            (files_of_dnsIdentity_lookup hpolicy hlookup).2⟩
    intro cert hcert
    obtain ⟨ca, hca, hload⟩ := (mem_rootStore_iff hstore).1 hcert
    exact (mem_rootStore_iff (serverConfig_roots hfrom.tls)).2 ⟨ca, hfiles hca, hload⟩
  cases chain with
  | nil => simp at hleaf
  | cons first intermediates =>
      simp only [ChainVerifies, verifyChainAgainstRoots, chain_eq_ok, mapError_ok_iff] at hchain
      obtain ⟨-, -, hverify⟩ := hchain
      exact hmono _ _ _ _ _ hsub hverify

section

open Sample

/-- The sample server, started. -/
def Sample.startedServer : StartedServer :=
  { warned := []
    bind := (.v4 127 0 0 1, 8443)
    tls := ⟨[str "server.pem"], str "server.key", [str "alpha-ca.pem"]⟩
    state := ⟨tcpConfig, some (policyOf uriPki tcpConfig), some ()⟩ }

theorem Sample.startServer_tcpConfig :
    startServer uriPki host machine (str "connector.yaml") tcpConfig = .ok startedServer :=
  startServer_eq_ok_iff.2
    ⟨rfl, by decide +kernel, rfl, rfl, rfl, by decide, rfl, by decide⟩

/-- The client of `alpha` passes the handshake. -/
theorem handshake_admits_alpha :
    startedServer.tls.acceptClient uriPki host alphaChain = .ok () := by
  have hverified : (policyOf uriPki tcpConfig).verifyPeer uriPki host alphaChain =
      .ok ⟨str "spiffe://alpha/client", .uriSan,
        sha256Hex uriPki (str "spiffe://alpha/client")⟩ := by
    decide +kernel
  refine handshake_admits ?_ startServer_tcpConfig rfl hverified
  intro roots roots' leaf intermediates time hsub hverify
  simp only [pki] at hverify ⊢
  split_ifs at hverify with hany
  rw [if_pos]
  obtain ⟨root, hroot, hmem⟩ := List.any_eq_true.1 hany
  exact List.any_eq_true.2 ⟨root, hsub hroot, hmem⟩

end

end TrustConnector
