/-
**Clients do not affect each other.**

The clients of a server connector share its configuration, its rate limiter and its caches.  What
the server does with a request of one client depends on the part of the configuration that concerns
the client, and on the earlier requests of the same client, and on nothing else: not on the routes,
anchors and entitlements of the others, and not on their traffic.

Main definitions:

* `Claims`, `ofClient` — a request under a client's name, and one that was admitted for it;
* `AlikeFor`, `AgreeOn` — two memories, and two connectors, that are the same for a client;
* `SameSlice` — two configurations that are the same for a client.

Main results:

* `serve_alike` — **what the server does with a client's request**, in two connectors that agree;
* `agreeOn_of_slice` — connectors with the same part of the configuration agree;
* `tenant_isolated` — **a client cannot tell what the others are allowed and what they do**;
* `interleaved_isolated` — in every interleaving, a client is served as if it were alone.
-/

import TrustConnector.ServerPool

set_option relaxedAutoImplicit false
set_option autoImplicit false

namespace TrustConnector

open Text Fallible Http Interleaving

/-! ### Routes and entitlements of one client -/

/-- Routes that are not for a client are passed over, also if they are broken. -/
theorem findServerRoute_filter (routes : List RouteConfig) (method path identity : Str) :
    findServerRoute (routes.filter (routeMatchesClientIdentity · identity)) method path identity =
      findServerRoute routes method path identity := by
  unfold findServerRoute
  cases canonicalRequestPath path with
  | error e => rfl
  | ok canonical =>
      have hskip : ∀ route, routeMatchesClientIdentity route identity = false →
          serverCandidate method canonical identity route = .ok none := by
        intro route hroute
        unfold serverCandidate
        split_ifs with hmethod
        · rfl
        · simp [hroute] at *
        · rfl
      simp only [ok_bind, best_filter hskip]

/-- The decision on a purpose depends on the entitlements of the client only. -/
theorem authorizeServerPurpose_congr (P : Pki) (D : Pdp) (clock : ClockReadings)
    (cache : PolicyHashCache) (m : RouteMatch) (headers : HeaderMap) (identity : PeerIdentity)
    {trust trust' : Option ClientTrustConfig}
    (h : peerTrustedContextScopes trust identity.value =
      peerTrustedContextScopes trust' identity.value) :
    authorizeServerPurpose P D clock cache m headers identity trust =
      authorizeServerPurpose P D clock cache m headers identity trust' := by
  simp only [authorizeServerPurpose, purposeQuestion, trustedContextScopes, h]

/-- Two policies with the same CA files for a DNS identity have the same store for it. -/
theorem anchorsByDnsIdentity_congr {P : Pki} {H : Host} {c₁ c₂ : ConnectorConfig}
    {p₁ p₂ : ServerTrustPolicy} {identity : Str}
    (h₁ : ServerTrustPolicy.fromConfig P H c₁ = .ok p₁)
    (h₂ : ServerTrustPolicy.fromConfig P H c₂ = .ok p₂)
    (hfiles : caFilesOfDnsIdentity c₁ identity = caFilesOfDnsIdentity c₂ identity) :
    p₁.anchorsByDnsIdentity.lookup identity = p₂.anchorsByDnsIdentity.lookup identity := by
  rcases fromConfig_dnsIdentity h₁ identity with ⟨hnil₁, hl₁⟩ | ⟨hne₁, roots₁, hr₁, hl₁⟩ <;>
    rcases fromConfig_dnsIdentity h₂ identity with ⟨hnil₂, hl₂⟩ | ⟨hne₂, roots₂, hr₂, hl₂⟩
  · rw [hl₁, hl₂]
  · exact absurd (hfiles ▸ hnil₁) hne₂
  · exact absurd (hfiles.symm ▸ hnil₂) hne₁
  · rw [hfiles, hr₂, Except.ok.injEq] at hr₁
    rw [hl₁, hl₂, hr₁]

/-! ### Requests of one client -/

/-- The certificate of a request names a client; whether it is trusted is not said. -/
def Claims (P : Pki) (H : Host) (allowDns : Bool) (request : Request) (client : Str) : Prop :=
  ∃ chain leaf identity, request.chain = some chain ∧ chain.head? = some leaf ∧
    extractPeerIdentityFromDer P H leaf allowDns = .ok identity ∧ identity.value = client

/-- The request of an arrival passes the first gates, for a client. -/
def ofClient (P : Pki) (state : ProxyState) (client : Str) (a : Arrival) : Bool :=
  match serverAdmission P a.host state a.request a.path with
  | .error _ => false
  | .ok (identity, _) => identity.value = client

theorem ofClient_iff {P : Pki} {state : ProxyState} {client : Str} {a : Arrival} :
    ofClient P state client a = true ↔ ∃ identity m,
      serverAdmission P a.host state a.request a.path = .ok (identity, m) ∧
        identity.value = client := by
  unfold ofClient
  cases serverAdmission P a.host state a.request a.path with
  | error problem => simp
  | ok admitted =>
      obtain ⟨identity, m⟩ := admitted
      simp

/-- **Two memories that are the same for a client.** -/
structure AlikeFor (P : Pki) (client : Str) (memory memory' : Memory) : Prop where
  coherent : ∀ route, Coherent (policyHash P) (memory.caches route)
  coherent' : ∀ route, Coherent (policyHash P) (memory'.caches route)
  windows : ∀ routeId, memory.windows.lookup (rateKey client routeId) =
    memory'.windows.lookup (rateKey client routeId)

/-- **Two connectors that are the same for a client.** -/
structure AgreeOn (P : Pki) (client : Str) (state state' : ProxyState) : Prop where
  allowDns : state.config.allowDnsSanIdentity = state'.config.allowDnsSanIdentity
  admission : ∀ H request path, Claims P H state.config.allowDnsSanIdentity request client →
    serverAdmission P H state request path = serverAdmission P H state' request path
  named : ∀ H request path identity m,
    Claims P H state.config.allowDnsSanIdentity request client →
    serverAdmission P H state request path = .ok (identity, m) → identity.value = client
  scopes : peerTrustedContextScopes state.config.clientTrust client =
    peerTrustedContextScopes state'.config.clientTrust client
  upstream : state.config.upstream = state'.config.upstream
  maxBody : maxBodyBytes state.config = maxBodyBytes state'.config
  limit : requestLimit state = requestLimit state'
  hasher : state.auditHasher = state'.auditHasher

section

variable {N : Platform} {P : Pki} {D : Pdp} {client : Str} {state state' : ProxyState}
  {memory memory' : Memory} {a : Arrival}

theorem AlikeFor.symm (h : AlikeFor P client memory memory') : AlikeFor P client memory' memory :=
  ⟨h.coherent', h.coherent, fun routeId => (h.windows routeId).symm⟩

theorem AlikeFor.trans {memory'' : Memory} (h : AlikeFor P client memory memory')
    (h' : AlikeFor P client memory' memory'') : AlikeFor P client memory memory'' :=
  ⟨h.coherent, h'.coherent', fun routeId => (h.windows routeId).trans (h'.windows routeId)⟩

theorem AgreeOn.serverRequest_eq (h : AgreeOn P client state state') (H : Host) (request : Request)
    (identity : PeerIdentity) (m : RouteMatch) (purpose query : Option Str) (requestId : Str) :
    serverRequest N H state request identity m purpose query requestId =
      serverRequest N H state' request identity m purpose query requestId := by
  simp only [serverRequest, upstreamAuthHeader, h.upstream, h.maxBody, h.hasher]

/-- The decision on a purpose, for two connectors that agree and whatever their caches hold. -/
theorem AgreeOn.authorization_eq (h : AgreeOn P client state state')
    (hmemory : AlikeFor P client memory memory') (readings : Readings) (request : Request)
    {identity : PeerIdentity} (hidentity : identity.value = client) (m : RouteMatch) :
    (authorization P D state memory readings request identity m).1 =
      (authorization P D state' memory' readings request identity m).1 := by
  obtain ⟨hpure, -⟩ := authorizeServerPurpose_coherent (hmemory.coherent m.route) D readings.clock m
    request.headers identity state.config.clientTrust
  obtain ⟨hpure', -⟩ := authorizeServerPurpose_coherent (hmemory.coherent' m.route) D
    readings.clock m request.headers identity state'.config.clientTrust
  subst hidentity
  rw [authorization, authorization, hpure, hpure', authorizeServerPurpose_congr P D readings.clock
    none m request.headers identity h.scopes]

/-- Two connectors that agree ask the limiter in the same way. -/
theorem AgreeOn.rateCall_eq (h : AgreeOn P client state state')
    (hclaims : Claims P a.host state.config.allowDnsSanIdentity a.request client) :
    rateCall P D state a = rateCall P D state' a ∧
      ∀ c ∈ rateCall P D state a, c.identity = client := by
  unfold rateCall
  rw [← h.admission _ _ a.path hclaims]
  cases hadmission : serverAdmission P a.host state a.request a.path with
  | error problem => simp
  | ok admitted =>
      obtain ⟨identity, m⟩ := admitted
      have hidentity := h.named _ _ _ _ _ hclaims hadmission
      have hscopes := h.scopes
      rw [← hidentity] at hscopes
      simp only [authorizeServerPurpose_congr P D a.readings.clock none m a.request.headers identity
        hscopes, true_and]
      split
      · simp
      · rintro c ⟨rfl⟩
        exact hidentity

/-- The verdict of the limiter depends on the window of the client and the route only. -/
theorem AlikeFor.limiting_eq (h : AlikeFor P client memory memory')
    (hlimit : requestLimit state = requestLimit state') (readings : Readings)
    {identity : PeerIdentity} (hidentity : identity.value = client) (m : RouteMatch) :
    (limiting state memory readings identity m).1 =
      (limiting state' memory' readings identity m).1 := by
  subst hidentity
  have hwindow := h.windows m.route.id
  have hlimit' : state.config.limits.maxRequestsPerIdentityPerMinute =
      state'.config.limits.maxRequestsPerIdentityPerMinute := hlimit
  simp only [limiting, RequestRateLimiter.check, hwindow, hlimit']

/-- What a call to the limiter leaves for a client depends on what the client had. -/
theorem AlikeFor.check {windows windows' : RequestRateLimiter} {limit : UInt32} {c : RateCall}
    (h : ∀ routeId, windows.lookup (rateKey client routeId) =
      windows'.lookup (rateKey client routeId)) (hclient : c.identity = client) (routeId : Str) :
    (windows.check c.now c.identity c.routeId limit).2.lookup (rateKey client routeId) =
      (windows'.check c.now c.identity c.routeId limit).2.lookup (rateKey client routeId) := by
  have hkey : c.key = rateKey client c.routeId := by rw [RateCall.key, hclient]
  rw [lookup_check, lookup_check, hkey, h c.routeId, h routeId]

/-- **What the server does with a request of a client**: two connectors that agree, from memories
that are the same for the client, end it in the same way and leave such memories again. -/
theorem serve_alike (hagree : AgreeOn P client state state')
    (hmemory : AlikeFor P client memory memory')
    (hclaims : Claims P a.host state.config.allowDnsSanIdentity a.request client) :
    (serve N P D state memory a).1 = (serve N P D state' memory' a).1 ∧
      AlikeFor P client (serve N P D state memory a).2 (serve N P D state' memory' a).2 := by
  constructor
  · unfold serve handleServer
    rw [← hagree.admission _ _ a.path hclaims]
    cases hadmission : serverAdmission P a.host state a.request a.path with
    | error problem => rfl
    | ok admitted =>
        obtain ⟨identity, m⟩ := admitted
        have hidentity := hagree.named _ _ _ _ _ hclaims hadmission
        have hpurpose := hagree.authorization_eq (D := D) hmemory a.readings a.request hidentity m
        have hlimit := hmemory.limiting_eq hagree.limit a.readings hidentity m
        simp only [hpurpose]
        cases (authorization P D state' memory' a.readings a.request identity m).1 with
        | error problem => rfl
        | ok purpose =>
            simp only [hlimit]
            cases (limiting state' memory' a.readings identity m).1 with
            | error problem => rfl
            | ok _ =>
                simp only [hagree.serverRequest_eq, hagree.maxBody]
                cases serverRequest (a.platform N) a.host state' a.request identity m purpose
                  a.query a.requestId with
                | error problem => rfl
                | ok call => rfl
  · obtain ⟨hcall, hclient⟩ := hagree.rateCall_eq (D := D) hclaims
    refine ⟨good_serve hmemory.coherent a, good_serve hmemory.coherent' a, fun routeId => ?_⟩
    rw [(serve_limited hmemory.coherent a).1, (serve_limited hmemory.coherent' a).1, ← hcall,
      ← hagree.limit]
    cases hc : rateCall P D state a with
    | none => exact hmemory.windows routeId
    | some c => exact AlikeFor.check hmemory.windows (hclient c hc) routeId

/-! ### Configurations -/

/-- The allowlist has an entry for a client. -/
def ConnectorConfig.lists (config : ConnectorConfig) (client : Str) : Bool :=
  (config.clientTrust.map fun trust =>
    trust.allowedIdentities.any fun allowed => trim allowed = client).getD false

/-- **Two configurations that are the same for a client**: its anchors, its entry on the allowlist,
its routes and its entitlement, and what concerns every client. -/
structure SameSlice (client : Str) (config config' : ConnectorConfig) : Prop where
  allowDns : config.allowDnsSanIdentity = config'.allowDnsSanIdentity
  denied : config.deniedFingerprints = config'.deniedFingerprints
  domain : ∀ domain, spiffeTrustDomain client = some domain →
    caFilesOfDomain config domain = caFilesOfDomain config' domain
  dnsIdentity : spiffeTrustDomain client = none →
    caFilesOfDnsIdentity config client = caFilesOfDnsIdentity config' client
  listed : config.lists client = config'.lists client
  routes : config.routes.filter (routeMatchesClientIdentity · client) =
    config'.routes.filter (routeMatchesClientIdentity · client)
  scopes : peerTrustedContextScopes config.clientTrust client =
    peerTrustedContextScopes config'.clientTrust client
  upstream : config.upstream = config'.upstream
  maxBody : config.limits.maxBodyBytes = config'.limits.maxBodyBytes
  limit : config.limits.maxRequestsPerIdentityPerMinute =
    config'.limits.maxRequestsPerIdentityPerMinute

theorem SameSlice.refl (client : Str) (config : ConnectorConfig) :
    SameSlice client config config := by
  constructor <;> intros <;> rfl

/-- Policies of configurations that are the same for a client have the same verdict on it. -/
theorem SameSlice.rootsFor_eq {H₁ : Host} {config config' : ConnectorConfig}
    {policy policy' : ServerTrustPolicy} (h : SameSlice client config config')
    (hpolicy : ServerTrustPolicy.fromConfig P H₁ config = .ok policy)
    (hpolicy' : ServerTrustPolicy.fromConfig P H₁ config' = .ok policy') :
    policy.rootsFor client = policy'.rootsFor client := by
  obtain ⟨-, -, -, hallow⟩ := fromConfig_eq_ok hpolicy
  obtain ⟨-, -, -, hallow'⟩ := fromConfig_eq_ok hpolicy'
  have hswitch : policy.allowDnsSanIdentity = policy'.allowDnsSanIdentity := by
    rw [hallow, hallow', h.allowDns]
  cases hdomain : spiffeTrustDomain client with
  | some domain =>
      rw [rootsFor_domain hdomain, rootsFor_domain hdomain,
        anchorsByDomain_congr hpolicy hpolicy' (h.domain domain hdomain)]
  | none =>
      simp only [ServerTrustPolicy.rootsFor, hdomain, hswitch,
        anchorsByDnsIdentity_congr hpolicy hpolicy' (h.dnsIdentity hdomain)]

theorem SameSlice.verifyPeer_eq {H₁ H : Host} {config config' : ConnectorConfig}
    {policy policy' : ServerTrustPolicy} (h : SameSlice client config config')
    (hpolicy : ServerTrustPolicy.fromConfig P H₁ config = .ok policy)
    (hpolicy' : ServerTrustPolicy.fromConfig P H₁ config' = .ok policy') {chain : List Str}
    {leaf : Str} {identity : PeerIdentity} (hleaf : chain.head? = some leaf)
    (hid : extractPeerIdentityFromDer P H leaf config.allowDnsSanIdentity = .ok identity)
    (hclient : identity.value = client) :
    policy.verifyPeer P H chain = policy'.verifyPeer P H chain := by
  obtain ⟨-, -, hdenied, hallow⟩ := fromConfig_eq_ok hpolicy
  obtain ⟨-, -, hdenied', hallow'⟩ := fromConfig_eq_ok hpolicy'
  have hid' := hid
  rw [← hallow] at hid
  rw [h.allowDns, ← hallow'] at hid'
  rw [verifyPeer_of_identity hleaf hid, verifyPeer_of_identity hleaf hid', hclient,
    h.rootsFor_eq hpolicy hpolicy', hdenied, hdenied', h.denied]

/-- **Connectors with the same part of the configuration agree on the client.** -/
theorem agreeOn_of_slice {H₁ : Host} {config config' : ConnectorConfig}
    (h : SameSlice client config config') (hstart : ProxyState.server P H₁ config = .ok state)
    (hstart' : ProxyState.server P H₁ config' = .ok state') : AgreeOn P client state state' := by
  obtain ⟨policy, hpolicy, rfl⟩ := ProxyState.server_eq_ok hstart
  obtain ⟨policy', hpolicy', rfl⟩ := ProxyState.server_eq_ok hstart'
  have hnamed : ∀ H request path identity m,
      Claims P H config.allowDnsSanIdentity request client →
      serverAdmission P H ⟨config, some policy, some ()⟩ request path = .ok (identity, m) →
      identity.value = client := by
    rintro H request path identity m ⟨chain, leaf, claimed, hchain, hleaf, hclaimed, rfl⟩ hadmission
    obtain ⟨⟨chain', hchain', trust, ⟨rfl⟩, hverified⟩, -⟩ := serverAdmission_eq_ok hadmission
    obtain rfl : chain = chain' := Option.some.inj (hchain.symm.trans hchain')
    obtain ⟨leaf', roots, hleaf', hid, -⟩ := verifyPeer_eq_ok_iff.1 hverified
    obtain rfl : leaf = leaf' := Option.some.inj (hleaf.symm.trans hleaf')
    rw [(fromConfig_eq_ok hpolicy).2.2.2, hclaimed, Except.ok.injEq] at hid
    rw [hid]
  refine ⟨h.allowDns, ?_, hnamed, h.scopes, h.upstream, h.maxBody, h.limit, rfl⟩
  rintro H request path ⟨chain, leaf, identity, hchain, hleaf, hid, hclient⟩
  have hverdict := h.verifyPeer_eq hpolicy hpolicy' hleaf hid hclient
  simp only [serverAdmission, hchain, okOr, ok_bind, ← hverdict]
  cases hverified : policy.verifyPeer P H chain with
  | error e => rfl
  | ok verified =>
      obtain ⟨leaf', roots, hleaf', hid', -⟩ := verifyPeer_eq_ok_iff.1 hverified
      obtain rfl : leaf = leaf' := Option.some.inj (hleaf.symm.trans hleaf')
      rw [(fromConfig_eq_ok hpolicy).2.2.2, hid, Except.ok.injEq] at hid'
      subst hid'
      have hlisted := h.listed
      simp only [ConnectorConfig.lists, ← hclient] at hlisted
      have hroutes : findServerRoute config.routes request.method path identity.value =
          findServerRoute config'.routes request.method path identity.value := by
        rw [← findServerRoute_filter config.routes, ← findServerRoute_filter config'.routes,
          hclient, h.routes]
      simp only [Except.mapError, ok_bind, hlisted, hroutes]

/-! ### The traffic of other clients -/

/-- No entry of the allowlist has a NUL byte, which would make the keys of the limiter ambiguous. -/
def NulFree (config : ConnectorConfig) : Prop :=
  ∀ trust ∈ config.clientTrust, ∀ entry ∈ trust.allowedIdentities, 0 ∉ trim entry

theorem claims_of_admission {H H₁ : Host} {config : ConnectorConfig} {request : Request}
    {path : Str} {identity : PeerIdentity} {m : RouteMatch}
    (hstart : ProxyState.server P H₁ config = .ok state)
    (h : serverAdmission P H state request path = .ok (identity, m)) :
    Claims P H state.config.allowDnsSanIdentity request identity.value := by
  obtain ⟨policy, hpolicy, rfl⟩ := ProxyState.server_eq_ok hstart
  obtain ⟨⟨chain, hchain, trust, ⟨rfl⟩, hverified⟩, -⟩ := serverAdmission_eq_ok h
  obtain ⟨leaf, roots, hleaf, hid, -⟩ := verifyPeer_eq_ok_iff.1 hverified
  rw [(fromConfig_eq_ok hpolicy).2.2.2] at hid
  exact ⟨chain, leaf, identity, hchain, hleaf, hid, rfl⟩

/-- **A request that is not of a client leaves what the client has.** -/
theorem serve_other (hnul : NulFree state.config) (hclient : 0 ∉ client)
    (hcaches : ∀ route, Coherent (policyHash P) (memory.caches route))
    (hother : ofClient P state client a = false) :
    AlikeFor P client (serve N P D state memory a).2 memory := by
  refine ⟨good_serve hcaches a, hcaches, fun routeId => ?_⟩
  rw [(serve_limited hcaches a).1]
  cases hc : rateCall P D state a with
  | none => rfl
  | some c =>
      obtain ⟨identity, m, hadmission, rfl⟩ := rateCall_eq_some hc
      obtain ⟨-, ⟨trust, htrust, entry, hentry, hvalue⟩, -⟩ := serverAdmission_eq_ok hadmission
      have hne : identity.value ≠ client := by
        intro heq
        have hof := ofClient_iff.2 ⟨identity, m, hadmission, heq⟩
        rw [hother] at hof
        cases hof
      have hc0 : 0 ∉ identity.value := by
        rw [← hvalue]
        exact hnul trust htrust entry hentry
      rw [Option.elim_some, lookup_check, if_neg]
      intro hkey
      exact hne ((rateKey_injective hc0 hclient).1 hkey).1

/-- **The requests of the others leave no trace for a client.** -/
theorem serveAll_own {H₁ : Host} {config : ConnectorConfig}
    (hstart : ProxyState.server P H₁ config = .ok state) (hnul : NulFree state.config)
    (hclient : 0 ∉ client) (arrivals : List Arrival) :
    AlikeFor P client (serveAll N P D state arrivals)
      (serveAll N P D state (arrivals.filter (ofClient P state client))) := by
  induction arrivals using List.reverseRecOn with
  | nil => exact ⟨(reachable_serveAll []).coherent, (reachable_serveAll []).coherent, fun _ => rfl⟩
  | append_singleton arrivals a ih =>
      rw [serveAll_append, List.filter_append]
      cases hof : ofClient P state client a with
      | false =>
          rw [List.filter_singleton, hof, Bool.cond_false, List.append_nil]
          exact (serve_other hnul hclient (reachable_serveAll _).coherent hof).trans ih
      | true =>
          rw [List.filter_singleton, hof, Bool.cond_true, serveAll_append]
          obtain ⟨identity, m, hadmission, rfl⟩ := ofClient_iff.1 hof
          have hagree := agreeOn_of_slice (SameSlice.refl identity.value config) hstart hstart
          exact (serve_alike hagree ih (claims_of_admission hstart hadmission)).2

/-- The same requests of a client, in two connectors that agree on it. -/
theorem serveAll_alike {H₁ : Host} {config : ConnectorConfig}
    (hstart : ProxyState.server P H₁ config = .ok state) (hagree : AgreeOn P client state state')
    {arrivals : List Arrival} (hof : ∀ a ∈ arrivals, ofClient P state client a = true) :
    AlikeFor P client (serveAll N P D state arrivals) (serveAll N P D state' arrivals) := by
  induction arrivals using List.reverseRecOn with
  | nil => exact ⟨(reachable_serveAll []).coherent, (reachable_serveAll []).coherent, fun _ => rfl⟩
  | append_singleton arrivals a ih =>
      rw [serveAll_append, serveAll_append]
      obtain ⟨identity, m, hadmission, rfl⟩ := ofClient_iff.1 (hof a (by simp))
      exact (serve_alike hagree (ih fun b hb => hof b (List.mem_append_left _ hb))
        (claims_of_admission hstart hadmission)).2

end

/-- **A client cannot tell what the others are allowed and what they do.**  Two server connectors are
started from configurations that are the same for a client, and each has handled some requests, among
them the same ones of the client in the same order, with the same replies of the upstream.  The next
request under the client's name ends in the same way in both, with the same call to the upstream. -/
theorem tenant_isolated {N : Platform} {P : Pki} {D : Pdp} {H₁ : Host} {client : Str}
    {config config' : ConnectorConfig} {state state' : ProxyState}
    {arrivals arrivals' : List Arrival} {a : Arrival} (hslice : SameSlice client config config')
    (hstart : ProxyState.server P H₁ config = .ok state)
    (hstart' : ProxyState.server P H₁ config' = .ok state') (hnul : NulFree config)
    (hnul' : NulFree config') (hclient : 0 ∉ client)
    (hown : arrivals.filter (ofClient P state client) = arrivals'.filter (ofClient P state' client))
    (hclaims : Claims P a.host config.allowDnsSanIdentity a.request client) :
    (serve N P D state (serveAll N P D state arrivals) a).1 =
      (serve N P D state' (serveAll N P D state' arrivals') a).1 := by
  have hagree := agreeOn_of_slice hslice hstart hstart'
  rw [← ProxyState.server_config hstart] at hnul hclaims
  rw [← ProxyState.server_config hstart'] at hnul'
  have hmemory := serveAll_own (N := N) (D := D) hstart hnul hclient arrivals
  have hmemory' := serveAll_own (N := N) (D := D) hstart' hnul' hclient arrivals'
  rw [← hown] at hmemory'
  have hboth : AlikeFor P client
      (serveAll N P D state (arrivals.filter (ofClient P state client)))
      (serveAll N P D state' (arrivals.filter (ofClient P state client))) :=
    serveAll_alike hstart hagree fun b hb => (List.mem_filter.1 hb).2
  exact (serve_alike hagree ((hmemory.trans hboth).trans hmemory'.symm) hclaims).1

section

open Sample

/-- The sample configuration, with a second client that has an anchor and a route of its own. -/
def Sample.twoClients : ConnectorConfig :=
  { bothModes (str "/v1") with
    clientTrust := some
      { allowedIdentities := [str "spiffe://beta/client", str "spiffe://alpha/client"]
        trustAnchors := [betaAnchor, alphaAnchor] }
    routes :=
      [{ route (str "/v1") with
          id := str "other"
          clientIdentity := some (str "spiffe://beta/client") },
        route (str "/v1")] }

/-- The second client's request. -/
def Sample.betaArrival : Arrival :=
  { arrival with
    request := { clientOfAlpha with chain := some [str "spiffe://beta/client", str "beta-ca.pem"] } }

/-- The client of `alpha` is served in the same way whether there is a second client or not. -/
theorem tenant_isolated_alpha :
    ∃ state, ProxyState.server uriPki host twoClients = .ok state ∧
      ofClient uriPki state (str "spiffe://beta/client") betaArrival = true ∧
      (serve platform uriPki pdp serverState (serveAll platform uriPki pdp serverState [])
          arrival).1 =
        (serve platform uriPki pdp state (serveAll platform uriPki pdp state [betaArrival])
          arrival).1 := by
  have hstart : ProxyState.server uriPki host (bothModes (str "/v1")) = .ok serverState := rfl
  have hstart' : ProxyState.server uriPki host twoClients =
      .ok ⟨twoClients, some (policyOf uriPki twoClients), some ()⟩ := rfl
  have hslice : SameSlice (str "spiffe://alpha/client") (bothModes (str "/v1")) twoClients := by
    have hdomain : spiffeTrustDomain (str "spiffe://alpha/client") = some (str "alpha") := by
      decide +kernel
    refine ⟨rfl, rfl, ?_, ?_, by decide +kernel, by decide +kernel, by decide +kernel, rfl, rfl, rfl⟩
    · intro domain h
      rw [hdomain, Option.some.injEq] at h
      subst h
      decide +kernel
    · rw [hdomain]
      rintro ⟨⟩
  have hnul : NulFree (bothModes (str "/v1")) := by
    rintro trust ⟨rfl⟩
    decide +kernel
  have hnul' : NulFree twoClients := by
    rintro trust ⟨rfl⟩
    decide +kernel
  have hother : ofClient uriPki ⟨twoClients, some (policyOf uriPki twoClients), some ()⟩
      (str "spiffe://alpha/client") betaArrival = false := by decide +kernel
  have hclaims : Claims uriPki arrival.host (bothModes (str "/v1")).allowDnsSanIdentity
      arrival.request (str "spiffe://alpha/client") :=
    ⟨alphaChain, _, _, rfl, rfl, rfl, rfl⟩
  refine ⟨_, hstart', by decide +kernel, ?_⟩
  exact tenant_isolated hslice hstart hstart' hnul hnul' (by decide +kernel)
    (by rw [List.filter_singleton, hother]; rfl) hclaims

end

/-- **In every interleaving, a client is served as if it were alone.**  A request that has ended, and
that the first gates have not refused, has ended as it does after the earlier requests of the same
client, one after the other, and no others.  One that they have refused has ended in their verdict,
which depends on no other request. -/
theorem interleaved_isolated {N : Platform} {P : Pki} {D : Pdp} {H₁ : Host}
    {config : ConnectorConfig} {state : ProxyState}
    (hstart : ProxyState.server P H₁ config = .ok state) (hnul : NulFree config) {w : ServerPool}
    (h : Interleaved N P D state w) :
    ∃ order, Linearized N P D state w order ∧
      ∀ i a handled, w.slots[i]? = some ⟨a, some (.done handled)⟩ →
        (∀ problem, serverAdmission P a.host state a.request a.path = .error problem →
          handled = ⟨none, .error problem⟩) ∧
        ∀ client, ofClient P state client a = true →
          ∃ before after, order = before ++ i :: after ∧
            handled = (serve N P D state (serveAll N P D state
              ((w.tasks before).filter (ofClient P state client))) a).1 := by
  obtain ⟨order, hlinear⟩ := linear_of_interleaved h
  have hlinearized := Linearized.of_linear hlinear
  rw [← ProxyState.server_config hstart] at hnul
  refine ⟨order, hlinearized, ?_⟩
  intro i a handled hslot
  obtain ⟨before, after, horder, rfl⟩ := hlinearized.ended i a handled hslot
  constructor
  · intro problem hadmission
    simp only [serve, handleServer, hadmission]
  intro client hof
  obtain ⟨identity, m, hadmission, rfl⟩ := ofClient_iff.1 hof
  obtain ⟨-, ⟨trust, htrust, entry, hentry, hvalue⟩, -⟩ := serverAdmission_eq_ok hadmission
  have hclient : 0 ∉ identity.value := by
    rw [← hvalue]
    exact hnul trust htrust entry hentry
  have hagree := agreeOn_of_slice (SameSlice.refl identity.value config) hstart hstart
  have hmemory := serveAll_own (N := N) (D := D) hstart hnul hclient (w.tasks before)
  exact ⟨before, after, horder,
    (serve_alike hagree hmemory (claims_of_admission hstart hadmission)).1⟩

section

open Sample

/-- The two clients, with room for one request a minute each. -/
def Sample.twoClientsOneAMinute : ConnectorConfig := { twoClients with limits := oneAMinute.limits }

/-- The server of the two clients, started. -/
def Sample.twoClientsState : ProxyState :=
  ⟨twoClientsOneAMinute, some (policyOf uriPki twoClientsOneAMinute), some ()⟩

/-- Two clients at once.  The second request of `alpha` waits in front of the limiter, while `beta`
comes and is served; it is then refused because of the first request of `alpha`, and would be refused
without `beta` as well. -/
theorem interleaved_isolated_alpha :
    ∃ (w : ServerPool) (order before after : List ℕ) (handled forwarded : Handled),
      Interleaved platform uriPki pdp twoClientsState w ∧
        w.slots = [⟨arrival, some (.done handled)⟩,
          ⟨laterArrival, some (.done ⟨none, .error .rateLimited⟩)⟩,
          ⟨betaArrival, some (.done forwarded)⟩] ∧
        (∃ response, forwarded.result = .ok response) ∧ order = before ++ 1 :: after ∧
        ⟨none, .error .rateLimited⟩ = (serve platform uriPki pdp twoClientsState
          (serveAll platform uriPki pdp twoClientsState
            ((w.tasks before).filter (ofClient uriPki twoClientsState
              (str "spiffe://alpha/client")))) laterArrival).1 := by
  have hstart : ProxyState.server uriPki host twoClientsOneAMinute = .ok twoClientsState := rfl
  have hnul : NulFree twoClientsOneAMinute := by
    rintro trust ⟨rfl⟩
    decide +kernel
  have hnothing : Interleaved platform uriPki pdp twoClientsState (Pool.start Memory.start) :=
    Relation.ReflTransGen.refl
  obtain ⟨⟨identity, m⟩, hadmission⟩ : ∃ x, serverAdmission uriPki host twoClientsState
      laterArrival.request laterArrival.path = .ok x := ⟨_, rfl⟩
  obtain ⟨w, hw, hslots, -⟩ :=
    interleaved_overtaken (hnothing.handle arrival) laterArrival betaArrival hadmission
  have hslot : w.slots[1]? = some ⟨laterArrival, some (.done ⟨none, .error .rateLimited⟩)⟩ := by
    rw [hslots]
    rfl
  obtain ⟨order, -, hisolated⟩ := interleaved_isolated hstart hnul hw
  obtain ⟨before, after, horder, hhandled⟩ :=
    (hisolated 1 _ _ hslot).2 (str "spiffe://alpha/client") (by decide +kernel)
  exact ⟨w, order, before, after, _, _, hw, hslots, ⟨_, rfl⟩, horder, hhandled⟩

end

end TrustConnector
