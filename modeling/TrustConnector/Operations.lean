/-
**Operating a server connector.**

Two things are changed while a server connector is in use: the denylist, when a certificate is
revoked, and the credentials of the upstream, which are read from the environment for each request.
A revoked certificate should be refused, and nothing else should change.  A credential should go to
the upstream and to nobody else.

Main definitions:

* `ConnectorConfig.deny`, `presents` — a denylist with one more fingerprint, and a peer that shows
  the certificate with it;
* `SameButSecrets`, `SameButCredential` — two environments, and two requests upstream, that are the
  same but for what is secret;
* `SameArrival` — a request in two such environments, with replies that do not depend on the
  credential.

Main results:

* `revoked_exactly` — **with a certificate on the denylist, the server behaves as if its bearer had
  never asked for anything**;
* `credential_unseen` — **no answer and no later request depends on a credential**, unless the
  upstream gives it away.
-/

import TrustConnector.Isolation
import TrustConnector.Startup

set_option relaxedAutoImplicit false
set_option autoImplicit false

namespace TrustConnector

open Text Fallible Http

/-! ### Revoking a certificate -/

/-- The trust with one more fingerprint on its denylist. -/
def ClientTrustConfig.deny (trust : ClientTrustConfig) (fingerprint : Str) : ClientTrustConfig :=
  { trust with
    deniedCertificateFingerprintsSha256 :=
      fingerprint :: trust.deniedCertificateFingerprintsSha256 }

/-- The configuration with one more fingerprint on its denylist. -/
def ConnectorConfig.deny (config : ConnectorConfig) (fingerprint : Str) : ConnectorConfig :=
  { config with clientTrust := config.clientTrust.map (·.deny fingerprint) }

/-- The peer shows the certificate with a fingerprint, which may be written in either case. -/
def presents (P : Pki) (fingerprint : Str) (request : Request) : Bool :=
  (request.chain.bind List.head?).any fun leaf => sha256Hex P leaf = toAsciiLowercase fingerprint

theorem presents_iff {P : Pki} {fingerprint : Str} {request : Request} :
    presents P fingerprint request = true ↔ ∃ chain leaf, request.chain = some chain ∧
      chain.head? = some leaf ∧ sha256Hex P leaf = toAsciiLowercase fingerprint := by
  unfold presents
  cases request.chain with
  | none => simp
  | some chain => cases chain with
    | nil => simp
    | cons leaf rest => simp

/-- Two policies that differ in one denied fingerprint. -/
structure Denies (fingerprint : Str) (policy policy' : ServerTrustPolicy) : Prop where
  allowDns : policy'.allowDnsSanIdentity = policy.allowDnsSanIdentity
  roots : ∀ value, policy'.rootsFor value = policy.rootsFor value
  denied : ∀ f, f ∈ policy'.deniedCertificateFingerprintsSha256 ↔
    f = toAsciiLowercase fingerprint ∨ f ∈ policy.deniedCertificateFingerprintsSha256

section

variable {N : Platform} {P : Pki} {D : Pdp} {H H₁ : Host} {config : ConnectorConfig}
  {policy policy' : ServerTrustPolicy} {state state' : ProxyState} {fingerprint : Str}
  {trust : ClientTrustConfig}

theorem trustAnchors_deny : (config.deny fingerprint).trustAnchors = config.trustAnchors := by
  unfold ConnectorConfig.trustAnchors ConnectorConfig.deny
  cases config.clientTrust <;> rfl

theorem deniedFingerprints_deny (htrust : config.clientTrust = some trust) :
    (config.deny fingerprint).deniedFingerprints = fingerprint :: config.deniedFingerprints := by
  simp only [ConnectorConfig.deniedFingerprints, ConnectorConfig.deny, htrust, Option.map_some]
  rfl

theorem trustDomainMap_deny : trustDomainMap (config.deny fingerprint) = trustDomainMap config := by
  simp only [trustDomainMap, trustAnchors_deny]

theorem dnsIdentityMap_deny : dnsIdentityMap (config.deny fingerprint) = dnsIdentityMap config := by
  simp only [dnsIdentityMap, trustAnchors_deny]

theorem validateEntitlements_deny (seen : List Str)
    (entitlements : List TrustContextEntitlementConfig) :
    validateEntitlements (trust.deny fingerprint) seen entitlements =
      validateEntitlements trust seen entitlements := by
  induction entitlements generalizing seen with
  | nil => rfl
  | cons entitlement entitlements ih =>
      simp only [validateEntitlements, ih]
      rfl

theorem validateAllowedIdentity_deny (identity : Str) :
    validateAllowedIdentity (config.deny fingerprint) (trust.deny fingerprint) identity =
      validateAllowedIdentity config trust identity := by
  simp only [validateAllowedIdentity, dnsIdentityMap_deny]
  rfl

/-- A well-formed fingerprint on the denylist is no error. -/
theorem validateClientTrust_deny (h : isSha256Fingerprint fingerprint = true) :
    validateClientTrust P H (config.deny fingerprint) (trust.deny fingerprint) =
      validateClientTrust P H config trust := by
  have hidentities : (trust.deny fingerprint).allowedIdentities.flatMap (validateAllowedIdentity
        (config.deny fingerprint) (trust.deny fingerprint)) =
      trust.allowedIdentities.flatMap (validateAllowedIdentity config trust) :=
    List.flatMap_congr fun identity _ => validateAllowedIdentity_deny identity
  have hdenied : (trust.deny fingerprint).deniedCertificateFingerprintsSha256 =
      fingerprint :: trust.deniedCertificateFingerprintsSha256 := rfl
  simp only [validateClientTrust, validateEntitlements_deny, hidentities, hdenied,
    List.flatMap_cons, h, reportIf, Bool.not_true, Bool.false_eq_true, if_false, List.nil_append]
  rfl

/-- The checks of a configuration do not look at the denylist otherwise. -/
theorem configErrors_deny (h : isSha256Fingerprint fingerprint = true) (mode : Mode)
    (requireEnv : Bool) :
    configErrors P H (config.deny fingerprint) mode requireEnv =
      configErrors P H config mode requireEnv := by
  cases mode with
  | client => rfl
  | server =>
      have hconfig : (config.deny fingerprint).clientTrust =
          config.clientTrust.map (·.deny fingerprint) := rfl
      cases htrust : config.clientTrust with
      | none =>
          simp only [configErrors, validateServer, hconfig, htrust, Option.map_none]
          rfl
      | some trust =>
          simp only [configErrors, validateServer, hconfig, htrust, Option.map_some,
            validateClientTrust_deny h]
          rfl

theorem validateConfig_deny (h : isSha256Fingerprint fingerprint = true) {mode : Mode}
    {requireEnv : Bool} :
    validateConfig P H (config.deny fingerprint) mode requireEnv =
      validateConfig P H config mode requireEnv := by
  simp only [validateConfig, configErrors_deny h]

/-- The handshake does not look at the denylist. -/
theorem serverConfig_deny (fingerprint : Str) :
    serverConfig P H (config.deny fingerprint) = serverConfig P H config := by
  unfold serverConfig ConnectorConfig.deny
  cases config.clientTrust <;> rfl

/-- The policy of the longer denylist. -/
theorem fromConfig_deny (htrust : config.clientTrust = some trust)
    (h : ServerTrustPolicy.fromConfig P H config = .ok policy) :
    ∃ policy', ServerTrustPolicy.fromConfig P H (config.deny fingerprint) = .ok policy' ∧
      Denies fingerprint policy policy' := by
  obtain ⟨hdomains, hidentities, hdenied, hallow⟩ := fromConfig_eq_ok h
  refine ⟨{ policy with
    deniedCertificateFingerprintsSha256 :=
      orderedSet ((config.deny fingerprint).deniedFingerprints.map toAsciiLowercase) }, ?_, ?_⟩
  · have hsame : (config.deny fingerprint).allowDnsSanIdentity = policy.allowDnsSanIdentity :=
      hallow.symm
    simp only [ServerTrustPolicy.fromConfig, trustDomainMap_deny, dnsIdentityMap_deny, hdomains,
      hidentities, ok_bind, hsame]
    rfl
  · refine ⟨rfl, fun value => rfl, fun f => ?_⟩
    rw [deniedFingerprints_deny htrust, hdenied]
    simp

/-- A peer with another certificate gets the same verdict. -/
theorem Denies.verifyPeer_eq (h : Denies fingerprint policy policy') {chain : List Str}
    (hother : ∀ leaf ∈ chain.head?, sha256Hex P leaf ≠ toAsciiLowercase fingerprint) :
    policy'.verifyPeer P H chain = policy.verifyPeer P H chain := by
  cases hleaf : chain.head? with
  | none => simp only [ServerTrustPolicy.verifyPeer, hleaf, okOr, error_bind]
  | some leaf =>
      cases hid : extractPeerIdentityFromDer P H leaf policy.allowDnsSanIdentity with
      | error e =>
          simp only [ServerTrustPolicy.verifyPeer, hleaf, okOr, ok_bind, h.allowDns, hid, error_bind]
      | ok identity =>
          obtain ⟨-, -, -, -, -, -, -, hprint⟩ := (extractPeerIdentityFromDer_eq_ok_iff P H).1 hid
          have hne := hother leaf hleaf
          rw [verifyPeer_of_identity hleaf hid, verifyPeer_of_identity hleaf (h.allowDns ▸ hid)]
          simp only [h.denied, h.roots, hprint, hne, false_or]

/-- The peer with the certificate is refused. -/
theorem Denies.verifyPeer_error (h : Denies fingerprint policy policy') {chain : List Str}
    {leaf : Str} (hleaf : chain.head? = some leaf)
    (hprint : sha256Hex P leaf = toAsciiLowercase fingerprint) :
    ∃ e, policy'.verifyPeer P H chain = .error e := by
  cases hid : extractPeerIdentityFromDer P H leaf policy'.allowDnsSanIdentity with
  | error e =>
      refine ⟨e, ?_⟩
      simp only [ServerTrustPolicy.verifyPeer, hleaf, okOr, ok_bind, hid, error_bind]
  | ok identity =>
      obtain ⟨-, -, -, -, -, -, -, hid'⟩ := (extractPeerIdentityFromDer_eq_ok_iff P H).1 hid
      rw [verifyPeer_of_identity hleaf hid, if_pos ((h.denied _).2 (Or.inl (hid'.trans hprint)))]
      exact ⟨_, rfl⟩

/-- **Two connectors that differ in one denied fingerprint.** -/
structure Revokes (P : Pki) (fingerprint : Str) (state state' : ProxyState) : Prop where
  config : state'.config = state.config.deny fingerprint
  hasher : state'.auditHasher = state.auditHasher
  policies : ∃ policy policy', state.serverTrust = some policy ∧
    state'.serverTrust = some policy' ∧ Denies fingerprint policy policy'

/-- A server starts with the longer denylist if it starts without it. -/
theorem revokes_of_start (htrust : config.clientTrust = some trust)
    (hstart : ProxyState.server P H₁ config = .ok state) :
    ∃ state', ProxyState.server P H₁ (config.deny fingerprint) = .ok state' ∧
      Revokes P fingerprint state state' := by
  simp only [ProxyState.server, chain_eq_ok] at hstart
  obtain ⟨policy, hpolicy, ⟨⟩, haudit, h⟩ := hstart
  obtain rfl := Except.ok.inj h
  obtain ⟨policy', hpolicy', hdenies⟩ := fromConfig_deny htrust hpolicy
  have haudit' : auditKeyHasher H₁ (config.deny fingerprint) = .ok () := haudit
  refine ⟨⟨config.deny fingerprint, some policy', some ()⟩, ?_, rfl, rfl, policy, policy', rfl, rfl,
    hdenies⟩
  rw [ProxyState.server, hpolicy', ok_bind, haudit', ok_bind]
  rfl

/-- The entries of the allowlist are the same with the longer denylist. -/
theorem lists_deny (identity : Str) :
    (config.deny fingerprint).lists identity = config.lists identity := by
  unfold ConnectorConfig.lists ConnectorConfig.deny
  cases config.clientTrust <;> rfl

theorem peerTrustedContextScopes_deny (identity : Str) :
    peerTrustedContextScopes (config.deny fingerprint).clientTrust identity =
      peerTrustedContextScopes config.clientTrust identity := by
  unfold ConnectorConfig.deny
  cases config.clientTrust <;> rfl

/-- The first gates, for a request with another certificate. -/
theorem Revokes.serverAdmission_eq (h : Revokes P fingerprint state state') {request : Request}
    {path : Str} (hother : presents P fingerprint request = false) :
    serverAdmission P H state' request path = serverAdmission P H state request path := by
  obtain ⟨policy, policy', hpolicy, hpolicy', hdenies⟩ := h.policies
  cases hchain : request.chain with
  | none => simp only [serverAdmission, hchain, okOr, error_bind]
  | some chain =>
      have hleaf : ∀ leaf ∈ chain.head?, sha256Hex P leaf ≠ toAsciiLowercase fingerprint := by
        intro leaf hmem hprint
        rw [presents_iff.2 ⟨chain, leaf, hchain, hmem, hprint⟩] at hother
        cases hother
      have hlists : ∀ identity, (state.config.deny fingerprint).lists identity = _ := lists_deny
      simp only [ConnectorConfig.lists] at hlists
      have hroutes : (state.config.deny fingerprint).routes = state.config.routes := rfl
      simp only [serverAdmission, hchain, hpolicy, hpolicy', okOr, ok_bind,
        hdenies.verifyPeer_eq hleaf, h.config, hroutes, hlists]

/-- A request with the certificate is refused. -/
theorem Revokes.serverAdmission_denied (h : Revokes P fingerprint state state') {request : Request}
    {path : Str} (hpresents : presents P fingerprint request = true) :
    serverAdmission P H state' request path = .error .clientIdentityDenied := by
  obtain ⟨policy, policy', hpolicy, hpolicy', hdenies⟩ := h.policies
  obtain ⟨chain, leaf, hchain, hleaf, hprint⟩ := presents_iff.1 hpresents
  obtain ⟨e, he⟩ : ∃ e, policy'.verifyPeer P H chain = .error e :=
    hdenies.verifyPeer_error hleaf hprint
  simp only [serverAdmission, hchain, hpolicy', okOr, ok_bind, he, Except.mapError, error_bind]

/-- **What the longer denylist changes for one request.** -/
theorem Revokes.serve_eq (h : Revokes P fingerprint state state') (memory : Memory) (a : Arrival) :
    serve N P D state' memory a =
      if presents P fingerprint a.request then (⟨none, .error .clientIdentityDenied⟩, memory)
      else serve N P D state memory a := by
  split_ifs with hpresents
  · simp only [serve, handleServer, h.serverAdmission_denied hpresents]
  · rw [Bool.not_eq_true] at hpresents
    have hlimits : (state.config.deny fingerprint).limits = state.config.limits := rfl
    have hupstream : (state.config.deny fingerprint).upstream = state.config.upstream := rfl
    have hpurpose : ∀ cache m identity, authorizeServerPurpose P D a.readings.clock cache m
        a.request.headers identity (state.config.deny fingerprint).clientTrust =
          authorizeServerPurpose P D a.readings.clock cache m a.request.headers identity
            state.config.clientTrust := fun cache m identity =>
      authorizeServerPurpose_congr P D _ cache m _ identity
        (peerTrustedContextScopes_deny identity.value)
    simp only [serve, handleServer, h.serverAdmission_eq hpresents, h.config, hpurpose,
      serverRequest, upstreamAuthHeader, maxBodyBytes, hlimits, hupstream, h.hasher]

/-- **What it changes for all requests.** -/
theorem Revokes.serveAll_eq (h : Revokes P fingerprint state state') (arrivals : List Arrival) :
    serveAll N P D state' arrivals =
      serveAll N P D state (arrivals.filter fun a => !presents P fingerprint a.request) := by
  induction arrivals using List.reverseRecOn with
  | nil => rfl
  | append_singleton arrivals a ih =>
      rw [serveAll_append, ih, h.serve_eq, List.filter_append]
      cases hpresents : presents P fingerprint a.request with
      | true => simp [hpresents]
      | false => simp [hpresents, serveAll_append]

end

/-- **Revoking a certificate has the effect that it should, and no other.**  A server that starts
from an accepted configuration starts with one more fingerprint on the denylist; if the fingerprint
is well formed, the new configuration is accepted as well, and the command that starts the one starts
the other.  Whatever is then asked of it, the requests with that certificate are refused, and every
other request ends as it does where the requests with the certificate have never been made. -/
theorem revoked_exactly {N : Platform} {P : Pki} {D : Pdp} {H₀ H₁ : Host}
    {config : ConnectorConfig} {requireEnv : Bool} {state : ProxyState}
    (haccepted : validateConfig P H₀ config .server requireEnv = .ok ())
    (hstart : ProxyState.server P H₁ config = .ok state) (fingerprint : Str) :
    ∃ state', ProxyState.server P H₁ (config.deny fingerprint) = .ok state' ∧
      (isSha256Fingerprint fingerprint = true →
        validateConfig P H₀ (config.deny fingerprint) .server requireEnv = .ok () ∧
        ∀ M path started, startServer P H₁ M path config = .ok started →
          startServer P H₁ M path (config.deny fingerprint) =
            .ok { started with state := state' }) ∧
      ∀ (arrivals : List Arrival) (a : Arrival),
        (serve N P D state' (serveAll N P D state' arrivals) a).1 =
          if presents P fingerprint a.request then ⟨none, .error .clientIdentityDenied⟩
          else (serve N P D state (serveAll N P D state
            (arrivals.filter fun a => !presents P fingerprint a.request)) a).1 := by
  obtain ⟨trust, -, htrust, -⟩ := validateConfig_server haccepted
  obtain ⟨state', hstart', hrevokes⟩ := revokes_of_start htrust hstart
  refine ⟨state', hstart', fun hformed => ⟨?_, fun M path started hstarted => ?_⟩,
    fun arrivals a => ?_⟩
  · rwa [validateConfig_deny hformed]
  · have hfrom := startServer_eq_ok_iff.1 hstarted
    have hvalid := hfrom.valid
    have htls := hfrom.tls
    rw [← validateConfig_deny hformed] at hvalid
    rw [← serverConfig_deny fingerprint] at htls
    exact startServer_eq_ok_iff.2 ⟨hvalid, hfrom.warned, hfrom.listen, htls, hstart',
      hfrom.requests, hfrom.bound, hfrom.connections⟩
  · rw [hrevokes.serve_eq, hrevokes.serveAll_eq]
    split_ifs <;> rfl

section

open Sample

/-- The server of the two clients, on an address. -/
def Sample.twoClientsTcp : ConnectorConfig :=
  { twoClients with listen := .tcp (.v4 127 0 0 1) 8443 }

/-- With its certificate on the denylist, the client of `alpha` is refused by the server that the
command starts; the client of `beta` still has its turn. -/
theorem revoked_exactly_alpha :
    ∃ state started, ProxyState.server uriPki host twoClientsTcp = .ok state ∧
      startServer uriPki host machine (str "connector.yaml")
        (twoClientsTcp.deny (sha256Hex uriPki (str "spiffe://alpha/client"))) = .ok started ∧
      (serve platform uriPki pdp started.state
        (serveAll platform uriPki pdp started.state [arrival]) arrival).1 =
          ⟨none, .error .clientIdentityDenied⟩ ∧
      (serve platform uriPki pdp started.state
        (serveAll platform uriPki pdp started.state [arrival]) betaArrival).1 =
        (serve platform uriPki pdp state (serveAll platform uriPki pdp state []) betaArrival).1 := by
  have haccepted : validateConfig uriPki host twoClientsTcp .server true = .ok () := rfl
  have hstart : ProxyState.server uriPki host twoClientsTcp =
      .ok ⟨twoClientsTcp, some (policyOf uriPki twoClientsTcp), some ()⟩ := rfl
  obtain ⟨started, hstarted⟩ : ∃ started, startServer uriPki host machine (str "connector.yaml")
      twoClientsTcp = .ok started :=
    ⟨⟨[], (.v4 127 0 0 1, 8443), _, _⟩, startServer_eq_ok_iff.2
      ⟨rfl, by decide +kernel, rfl, rfl, rfl, by decide, rfl, by decide⟩⟩
  obtain ⟨state', -, hcommand, hserve⟩ := revoked_exactly haccepted hstart
    (sha256Hex uriPki (str "spiffe://alpha/client"))
  obtain ⟨-, hcommand⟩ := hcommand (by decide +kernel)
  have halpha : presents uriPki (sha256Hex uriPki (str "spiffe://alpha/client")) arrival.request =
      true := by decide +kernel
  have hbeta : presents uriPki (sha256Hex uriPki (str "spiffe://alpha/client"))
      betaArrival.request = false := by decide +kernel
  refine ⟨_, _, hstart, hcommand machine (str "connector.yaml") started hstarted, ?_, ?_⟩
  · rw [hserve, if_pos halpha]
  · rw [hserve, if_neg (by rw [hbeta]; decide)]
    simp [halpha]

end

/-! ### Credentials -/

/-- Two values of a variable that differ in the secret only: both are there or neither is, and what
can be seen of a value without reading it is the same. -/
inductive SameButValue : Option Str → Option Str → Prop where
  | unset : SameButValue none none
  | set {secret secret' : Str} (hblank : isBlank secret = isBlank secret')
      (hlegal : secret.all isValueByte = secret'.all isValueByte) :
      SameButValue (some secret) (some secret')

/-- **Two environments that differ in secrets only.** -/
structure SameButSecrets (H H' : Host) : Prop where
  now : H.now = H'.now
  unixNow : H.unixNow = H'.unixNow
  env : ∀ var, SameButValue (H.envVar var) (H'.envVar var)

/-- **Two requests upstream that differ in one header only.** -/
structure SameButHeader (name : Str) (call call' : UpstreamRequest) : Prop where
  method : call.method = call'.method
  url : call.url = call'.url
  body : call.body = call'.body
  headers : ∀ k, k ≠ name → call.headers.getAll k = call'.headers.getAll k

/-- Two requests upstream that differ in the credential only. -/
def SameButCredential (state : ProxyState) (call call' : UpstreamRequest) : Prop :=
  ∃ upstream ∈ state.config.upstream, ∃ name,
    headerNameFromBytes upstream.authHeaderName = some name ∧ SameButHeader name call call'

/-- Two arrivals that differ in secrets only. -/
structure SameArrival (state : ProxyState) (a a' : Arrival) : Prop where
  host : SameButSecrets a.host a'.host
  readings : a.readings = a'.readings
  request : a.request = a'.request
  path : a.path = a'.path
  query : a.query = a'.query
  requestId : a.requestId = a'.requestId
  /-- What the upstream replies does not depend on the credential. -/
  reply : ∀ call call', SameButCredential state call call' → a.reply call = a'.reply call'

section

variable {N : Platform} {P : Pki} {D : Pdp} {H H' : Host} {state : ProxyState} {request : Request}
  {path : Str}

/-- The first gates do not look at the environment. -/
theorem SameButSecrets.serverAdmission_eq (h : SameButSecrets H H') :
    serverAdmission P H state request path = serverAdmission P H' state request path := by
  obtain ⟨hnow, hunix, -⟩ := h
  obtain ⟨openFile, pathExists, fileMode, envVar, hasher, now, unixNow⟩ := H
  obtain ⟨openFile', pathExists', fileMode', envVar', hasher', now', unixNow'⟩ := H'
  obtain rfl : now = now' := hnow
  obtain rfl : unixNow = unixNow' := hunix
  rfl

/-- Whether a credential can be sent depends on what can be seen of the secret. -/
theorem headerValue_credential_alike (upstream : UpstreamConfig) {secret secret' : Str}
    (h : secret.all isValueByte = secret'.all isValueByte) :
    Alike (fun _ _ => True) (headerValue (credential upstream secret))
      (headerValue (credential upstream secret')) := by
  have hall : (credential upstream secret).all isValueByte =
      (credential upstream secret').all isValueByte := by
    unfold credential
    split_ifs with hscheme
    · exact h
    · simp only [List.all_append, h]
  unfold headerValue headerValueFromStr
  rw [hall]
  split_ifs
  · exact Alike.ok trivial
  · exact Alike.error _

/-- The credential of a route is there for both environments, or for neither. -/
theorem SameButSecrets.upstreamAuthHeader_alike (h : SameButSecrets H H') (config : ConnectorConfig)
    (m : RouteMatch) :
    Alike (fun _ _ => True) (upstreamAuthHeader H config m) (upstreamAuthHeader H' config m) := by
  refine Alike.same_chain _ fun upstream => Alike.same_chain _ fun var => ?_
  have hvar := h.env var
  generalize H.envVar var = value at hvar
  generalize H'.envVar var = value' at hvar
  cases hvar with
  | unset => exact Alike.error _
  | @set secret secret' hblank hlegal =>
      rw [Option.filter_some, Option.filter_some, hblank]
      split_ifs
      · exact headerValue_credential_alike upstream hlegal
      · exact Alike.error _

/-- Two header maps that agree but for one name. -/
def AgreeBut (name : Str) (headers headers' : HeaderMap) : Prop :=
  ∀ k, k ≠ name → headers.getAll k = headers'.getAll k

theorem AgreeBut.insertOptional {name : Str} {headers headers' : HeaderMap}
    (h : AgreeBut name headers headers') (k : Str) (value : Option Str) :
    Alike (AgreeBut name) (TrustConnector.insertOptional headers k value)
      (TrustConnector.insertOptional headers' k value) := by
  cases value with
  | none => exact Alike.ok h
  | some value =>
      simp only [TrustConnector.insertOptional]
      cases headerValue value with
      | error problem => exact Alike.error problem
      | ok value =>
          refine Alike.ok ?_
          intro j hj
          rw [MultiMap.getAll_insert, MultiMap.getAll_insert, h j hj]

/-- **The request upstream differs in the credential only.** -/
theorem SameButSecrets.serverRequest_alike (h : SameButSecrets H H') (identity : PeerIdentity)
    (m : RouteMatch) (purpose query : Option Str) (requestId : Str) :
    Alike (SameButCredential state)
      (serverRequest N H state request identity m purpose query requestId)
      (serverRequest N H' state request identity m purpose query requestId) := by
  refine Alike.same_chain _ fun body => ?_
  cases hupstream : state.config.upstream with
  | none => exact Alike.error _
  | some upstream =>
      simp only [okOr, ok_bind]
      refine Alike.same_chain _ fun url => Alike.same_chain _ fun headers => ?_
      refine Alike.same_chain _ fun id => ?_
      refine (h.upstreamAuthHeader_alike state.config m).chain fun value value' _ => ?_
      cases hname : headerNameFromBytes upstream.authHeaderName with
      | none => exact Alike.error _
      | some name =>
          have hinserted : AgreeBut name ((headers.insert requestIdName id).insert name value)
              ((headers.insert requestIdName id).insert name value') := by
            intro k hk
            simp only [MultiMap.getAll_insert, if_neg hk]
          refine (hinserted.insertOptional _ _).chain fun headers headers' hheaders => ?_
          refine Alike.same_chain _ fun _ => Alike.ok ?_
          exact ⟨upstream, hupstream, name, hname, rfl, rfl, rfl, hheaders⟩

/-- The two requests are answered alike, if the replies do not depend on the credential. -/
theorem SameButCredential.sendUpstream_eq {call call' : UpstreamRequest}
    (h : SameButCredential state call call') {a a' : Arrival}
    (hreply : ∀ call call', SameButCredential state call call' → a.reply call = a'.reply call')
    (maxBytes : ℕ) :
    sendUpstream (a.platform N) call maxBytes = sendUpstream (a'.platform N) call' maxBytes := by
  obtain ⟨upstream, hupstream, name, hname, hcalls⟩ := h
  have hsend : ∀ method, (a.platform N).send { outbound call with method } =
      (a'.platform N).send { outbound call' with method } := by
    intro method
    refine hreply _ _ ⟨upstream, hupstream, name, hname, rfl, hcalls.url, hcalls.body, ?_⟩
    intro k hk
    show (outbound call).headers.getAll k = (outbound call').headers.getAll k
    rw [getAll_outbound, getAll_outbound, hcalls.headers k hk]
  simp only [sendUpstream, hcalls.method, hsend]
  rfl

/-- **One request**: what is left, what is answered, and what is sent. -/
theorem SameArrival.serve_alike {a a' : Arrival} (h : SameArrival state a a') (memory : Memory) :
    (serve N P D state memory a).2 = (serve N P D state memory a').2 ∧
      (serve N P D state memory a).1.result = (serve N P D state memory a').1.result ∧
      Option.Rel (SameButCredential state) (serve N P D state memory a).1.call
        (serve N P D state memory a').1.call := by
  obtain ⟨host, readings, request, path, query, requestId, reply⟩ := a
  obtain ⟨host', readings', request', path', query', requestId', reply'⟩ := a'
  obtain ⟨hhost, hreadings, hrequest, hpath, hquery, hid, hreply⟩ := h
  dsimp only at hhost hreadings hrequest hpath hquery hid
  subst hreadings hrequest hpath hquery hid
  simp only [serve, handleServer, hhost.serverAdmission_eq, serverRequest_platform]
  cases serverAdmission P host' state request path with
  | error problem => exact ⟨rfl, rfl, Option.Rel.none⟩
  | ok admitted =>
      obtain ⟨identity, m⟩ := admitted
      dsimp only
      cases (authorizeServerPurpose P D readings.clock (memory.caches m.route) m request.headers
        identity state.config.clientTrust).1 with
      | error problem => exact ⟨rfl, rfl, Option.Rel.none⟩
      | ok purpose =>
          dsimp only
          cases (memory.windows.check readings.now identity.value m.route.id
            state.config.limits.maxRequestsPerIdentityPerMinute).1 with
          | error problem => exact ⟨rfl, rfl, Option.Rel.none⟩
          | ok admitted =>
              have halike : Alike (SameButCredential state)
                  (serverRequest N host state request identity m purpose query requestId) _ :=
                hhost.serverRequest_alike identity m purpose query requestId
              generalize serverRequest N host state request identity m purpose query requestId = x
                at halike ⊢
              generalize serverRequest N host' state request identity m purpose query requestId = y
                at halike ⊢
              cases halike with
              | error problem => exact ⟨rfl, rfl, Option.Rel.none⟩
              | ok hsame =>
                  exact ⟨rfl, hsame.sendUpstream_eq hreply _, Option.Rel.some hsame⟩

/-- **Any number of requests** leave the same memory. -/
theorem serveAll_sameArrivals {arrivals arrivals' : List Arrival}
    (h : List.Forall₂ (SameArrival state) arrivals arrivals') :
    serveAll N P D state arrivals = serveAll N P D state arrivals' := by
  unfold serveAll
  generalize Memory.start = memory
  induction h generalizing memory with
  | nil => rfl
  | cons hhead _ ih =>
      rw [List.foldl_cons, List.foldl_cons, (hhead.serve_alike memory).1]
      exact ih _

end

/-- **A credential goes to the upstream and to nobody else.**  Two runs of a server with the same
requests, in environments that differ in secrets only, from one request to the next if need be: every
request ends in the same answer and is counted in the same way, and what is sent upstream differs in
the header of the credential only.  So nothing can be learned of a credential from the connector, but
whether it is blank and whether a header can hold it, unless the upstream lets its replies depend on
it. -/
theorem credential_unseen {N : Platform} {P : Pki} {D : Pdp} {state : ProxyState}
    {arrivals arrivals' : List Arrival} {a a' : Arrival}
    (hbefore : List.Forall₂ (SameArrival state) arrivals arrivals')
    (hnow : SameArrival state a a') :
    serveAll N P D state arrivals = serveAll N P D state arrivals' ∧
      (serve N P D state (serveAll N P D state arrivals) a).1.result =
        (serve N P D state (serveAll N P D state arrivals') a').1.result ∧
      Option.Rel (SameButCredential state)
        (serve N P D state (serveAll N P D state arrivals) a).1.call
        (serve N P D state (serveAll N P D state arrivals') a').1.call := by
  have hmemory : serveAll N P D state arrivals = serveAll N P D state arrivals' :=
    serveAll_sameArrivals hbefore
  rw [hmemory]
  exact ⟨rfl, (hnow.serve_alike _).2⟩

section

open Sample

/-- The sample environment, with other secrets. -/
def Sample.rotated : Host := { host with envVar := fun _ => some (str "another") }

/-- A new credential is sent as soon as it is there, and shows nowhere else. -/
theorem credential_unseen_rotated :
    (serve platform uriPki pdp serverState (serveAll platform uriPki pdp serverState [arrival])
        { arrival with host := rotated }).1.result =
      (serve platform uriPki pdp serverState (serveAll platform uriPki pdp serverState [arrival])
        arrival).1.result ∧
    ((serve platform uriPki pdp serverState (serveAll platform uriPki pdp serverState [arrival])
        { arrival with host := rotated }).1.call.map fun call =>
          call.headers.getAll (str "authorization")) = some [str "Bearer another"] := by
  have hsecrets : SameButSecrets rotated host := by
    refine ⟨rfl, rfl, fun var => ?_⟩
    exact SameButValue.set (by decide +kernel) (by decide +kernel)
  have hreply : ∀ call call', SameButCredential serverState call call' →
      arrival.reply call = arrival.reply call' := fun _ _ _ => rfl
  have hsame : SameArrival serverState arrival arrival :=
    ⟨⟨rfl, rfl, fun var => SameButValue.set rfl rfl⟩, rfl, rfl, rfl, rfl, rfl, hreply⟩
  have hnow : SameArrival serverState { arrival with host := rotated } arrival :=
    ⟨hsecrets, rfl, rfl, rfl, rfl, rfl, hreply⟩
  exact ⟨(credential_unseen (List.Forall₂.cons hsame List.Forall₂.nil) hnow).2.1,
    by decide +kernel⟩

end

end TrustConnector
