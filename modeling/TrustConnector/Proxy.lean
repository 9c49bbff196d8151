/-
**The two handlers.**

The client connector routes a local request, settles its purpose, and forwards it to the server
connector.  The server connector lets a request through a row of gates (its certificate, the
allowlist, the route, the purpose, the rate limit, the size of the body) and forwards it to the
upstream with a credential of its own.  A handler either ends in a problem, or calls `sendUpstream`
once and ends in its result.

What outlives a request is the memory of the connector: the windows of the rate limiter, and the
policy hash cache of each route.

Main definitions:

* `Request` — a request, with the certificate chain of its connection;
* `clientRequest`, `handleClient` — the client connector;
* `serverAdmission`, `serverRequest`, `handleServer` — the server connector;
* `Memory`, `Reachable` — what outlives a request, and the memories that requests lead to;
* `Served` — the ways in which the server can end a request;
* `clientValues`, `sentValues` — every header of the request that the client sends, and of the one
  that the server sends;
* `Mediated` — everything that holds of a request that the server forwards;
* `proxyHandler` — the answer and the log of a request.

Main results:

* `outbound_headers_iff` — for which headers nothing is lost on the way out;
* `handleServer_served` — **what the server can do with a request**, one case per gate;
* `handleServer_mediated` — **the server forwards a request only through all of its gates**;
* `proxyHandler_log` — the log tells the truth.
-/

import TrustConnector.Forward
import TrustConnector.Purpose
import TrustConnector.RateLimiter
import TrustConnector.Selection
import TrustConnector.UpstreamUrl

set_option relaxedAutoImplicit false
set_option autoImplicit false

namespace TrustConnector

open Text Fallible Http

/-! ### Requests -/

/-- A request.  The body is absent if the connection breaks before its end. -/
structure Request where
  method : Str
  headers : HeaderMap
  /-- The certificate chain of the connection, the peer's own certificate first. -/
  chain : Option (List Str) := none
  body : Option Str := some []

/-- What a handler does: the request it sends upstream, if it sends one, and how it ends. -/
structure Handled where
  call : Option UpstreamRequest
  result : Except ConnectorProblem Response

def requestIdName : Str := str "x-request-id"
def connectorIdName : Str := str "x-registry-connector-id"
def connectorVersionName : Str := str "x-registry-connector-version"
def connectorClientIdentityName : Str := str "x-registry-connector-client-identity"

theorem private_connectorIdName : privatePrefix <+: connectorIdName := ⟨str "id", rfl⟩

theorem private_connectorVersionName : privatePrefix <+: connectorVersionName :=
  ⟨str "version", rfl⟩

theorem private_connectorClientIdentityName : privatePrefix <+: connectorClientIdentityName :=
  ⟨str "client-identity", rfl⟩

/-- The purpose and the id of a request are under names that are not private. -/
theorem ne_of_private {name : Str} (h : privatePrefix <+: name) :
    name ≠ dataPurpose ∧ name ≠ requestIdName := by
  have hopen : ¬ privatePrefix <+: dataPurpose ∧ ¬ privatePrefix <+: requestIdName := by
    decide +kernel
  constructor
  · rintro rfl
    exact hopen.1 h
  · rintro rfl
    exact hopen.2 h

theorem requestIdName_ne_dataPurpose : requestIdName ≠ dataPurpose := by decide +kernel

/-- The version of the connector. -/
def packageVersion : Str := str "0.1.0"

def headerValue (value : Str) : Except ConnectorProblem Str :=
  okOr .configInvalid (headerValueFromStr value)

/-- The body of a request, if it is complete and within a bound. -/
def readLimitedBody (body : Option Str) (maxBytes : ℕ) : Except ConnectorProblem Str :=
  okOr .bodyTooLarge (body.filter fun bytes => bytes.length ≤ maxBytes)

/-! ### The client connector -/

variable (N : Platform)

/-- The caller's headers, filtered as the route allows. -/
def filteredHeaders (headers : HeaderMap) (m : RouteMatch) : HeaderMap :=
  N.filterProxyRequestHeaders headers
    { allowAuthorization := m.route.allowForwardAuthorization
      allowCookie := m.route.allowForwardCookie
      privatePrefix := some privatePrefix }

/-- Insert a header, if there is a value for it. -/
def insertOptional (headers : HeaderMap) (name : Str) :
    Option Str → Except ConnectorProblem HeaderMap
  | none => .ok headers
  | some value => (headerValue value).map (headers.insert name)

/-- The request that the client connector sends to the server connector. -/
def clientRequest (config : ConnectorConfig) (request : Request) (path : Str) (query : Option Str)
    (requestId : Str) : Except ConnectorProblem UpstreamRequest := do
  let m ← (findClientRoute config.routes request.method path).mapError fun _ =>
    ConnectorProblem.routeDenied
  let purpose ← resolveClientPurpose config m request.headers
  let body ← readLimitedBody request.body (maxBodyBytes config)
  let server ← okOr .configInvalid config.server
  let url ← okOr .configInvalid (buildUrl N.authorityOf server.url m.upstreamPath query)
  let headers := filteredHeaders N request.headers m
  let id ← headerValue requestId
  -- `insert` drops every value that the caller sent under these names
  let headers := (headers.insert requestIdName id).insert connectorVersionName packageVersion
  let headers ← insertOptional headers connectorIdName config.connectorId
  let headers ← insertOptional headers dataPurpose purpose
  return { method := request.method, url, headers, body }

/-- **The client connector.** -/
def handleClient (config : ConnectorConfig) (request : Request) (path : Str) (query : Option Str)
    (requestId : Str) : Handled :=
  match clientRequest N config request path query requestId with
  | .error problem => ⟨none, .error problem⟩
  | .ok call => ⟨some call, sendUpstream N call (maxBodyBytes config)⟩

/-! ### Headers on the way out -/

/-- **When nothing is lost on the way out**: exactly when no name has several values. -/
theorem outbound_headers_iff (call : UpstreamRequest) :
    (∀ name, (outbound call).headers.getAll name = call.headers.getAll name) ↔
      ∀ name, (call.headers.getAll name).length ≤ 1 := by
  refine forall_congr' fun name => ?_
  rw [getAll_outbound, List.take_eq_self_iff]

section

open Sample

/-- A filter that drops hop-by-hop headers, credentials that are not allowed, and private headers. -/
def Sample.filterRequest (headers : HeaderMap) (policy : ProxyHeaderPolicy) : HeaderMap :=
  (∅ : HeaderMap).appendAll <| headers.iter.filter fun header =>
    !(isHopByHopHeader header.1 ||
      (header.1 = str "authorization" && !policy.allowAuthorization) ||
      (header.1 = str "cookie" && !policy.allowCookie) ||
      policy.privatePrefix.any fun pre => pre <+: header.1)

/-- The filter keeps all values of a name, or none. -/
theorem Sample.getAll_filterRequest (headers : HeaderMap) (policy : ProxyHeaderPolicy)
    (name : Str) :
    (filterRequest headers policy).getAll name =
      if (isHopByHopHeader name || (name = str "authorization" && !policy.allowAuthorization) ||
          (name = str "cookie" && !policy.allowCookie) ||
          policy.privatePrefix.any fun pre => pre <+: name) = true then []
      else headers.getAll name := by
  have hkept := MultiMap.getAll_appendAll_filter (fun name : Str => !(isHopByHopHeader name ||
    (name = str "authorization" && !policy.allowAuthorization) ||
    (name = str "cookie" && !policy.allowCookie) ||
    policy.privatePrefix.any fun pre => pre <+: name)) headers name
  rw [filterRequest, hkept]
  cases isHopByHopHeader name || (name = str "authorization" && !policy.allowAuthorization) ||
      (name = str "cookie" && !policy.allowCookie) ||
      policy.privatePrefix.any fun pre => pre <+: name with
  | true => rfl
  | false => rfl

/-- A platform whose upstream answers every request. -/
def Sample.platform : Platform where
  authorityOf := anyAuthority
  filterProxyRequestHeaders := filterRequest
  filterProxyResponseHeaders := id
  send := fun _ => some ⟨200, ∅, some []⟩
  readBounded := fun reply _ => reply.body

/-- A request with two values of one header. -/
def Sample.twoValues : Request :=
  { method := str "GET"
    headers := ((∅ : HeaderMap).append (str "accept") (str "text/csv")).append (str "accept")
      (str "text/html") }

/-- The client connector drops the second value of a header. -/
theorem handleClient_drops_value :
    ((handleClient platform (bothModes (str "/v1")) twoValues (str "/v1/items") none
        (str "id")).call.map fun call =>
      (call.headers.getAll (str "accept"), (outbound call).headers.getAll (str "accept"))) =
      some ([str "text/csv", str "text/html"], [str "text/csv"]) := by
  decide +kernel

end

/-! ### The server connector -/

/-- What a server connector is started with. -/
structure ProxyState where
  config : ConnectorConfig
  serverTrust : Option ServerTrustPolicy
  /-- Whether there is a key for the hashes in the log. -/
  auditHasher : Option Unit

variable (P : Pki) (H : Host)

def auditKeyHasher (config : ConnectorConfig) : Except ConnectorError Unit :=
  match config.audit.hashSecretEnv with
  | some var => (H.auditKeyHasherFromEnv var).mapError fun err =>
      .invalidConfig (str "audit hash secret is invalid: " ++ err)
  | none =>
      if config.audit.allowUnkeyedHashing then .ok ()
      else .error (.invalidConfig
        (str "audit.hash_secret_env is required unless audit.allow_unkeyed_hashing is true"))

/-- The start of a server connector. -/
def ProxyState.server (config : ConnectorConfig) : Except ConnectorError ProxyState := do
  let trust ← ServerTrustPolicy.fromConfig P H config
  let hasher ← auditKeyHasher H config
  return { config, serverTrust := some trust, auditHasher := some hasher }

/-- The first gates: the certificate, the allowlist and the route. -/
def serverAdmission (state : ProxyState) (request : Request) (path : Str) :
    Except ConnectorProblem (PeerIdentity × RouteMatch) := do
  let chain ← okOr .clientIdentityMissing request.chain
  let trust ← okOr .configInvalid state.serverTrust
  let identity ← (trust.verifyPeer P H chain).mapError fun _ =>
    ConnectorProblem.clientIdentityDenied
  let allowed := (state.config.clientTrust.map fun trust =>
    trust.allowedIdentities.any fun allowed => trim allowed = identity.value).getD false
  ensure allowed .clientIdentityDenied
  let m ← (findServerRoute state.config.routes request.method path identity.value).mapError fun _ =>
    ConnectorProblem.routeDenied
  return (identity, m)

/-- The variable that holds the credential of a route. -/
def upstreamAuthEnv (upstream : UpstreamConfig) (route : RouteConfig) : Option Str :=
  route.upstreamAuthHeaderEnv.or upstream.defaultAuthHeaderEnv

/-- A credential, behind its scheme if there is one. -/
def credential (upstream : UpstreamConfig) (secret : Str) : Str :=
  if isBlank upstream.authHeaderScheme then secret
  else upstream.authHeaderScheme ++ str " " ++ secret

def upstreamAuthHeader (config : ConnectorConfig) (m : RouteMatch) :
    Except ConnectorProblem Str := do
  let upstream ← okOr .configInvalid config.upstream
  let var ← okOr .upstreamAuthMissing (upstreamAuthEnv upstream m.route)
  let secret ← okOr .upstreamAuthMissing ((H.envVar var).filter fun value => !isBlank value)
  headerValue (credential upstream secret)

/-- The request that the server connector sends to the upstream, once it is authorised. -/
def serverRequest (state : ProxyState) (request : Request) (identity : PeerIdentity)
    (m : RouteMatch) (purpose : Option Str) (query : Option Str) (requestId : Str) :
    Except ConnectorProblem UpstreamRequest := do
  let body ← readLimitedBody request.body (maxBodyBytes state.config)
  let upstream ← okOr .configInvalid state.config.upstream
  let url ← okOr .configInvalid (buildUrl N.authorityOf upstream.baseUrl m.upstreamPath query)
  let headers := N.filterProxyRequestHeaders request.headers
    { privatePrefix := some privatePrefix }
  -- the caller's purpose goes in any case: only the authorised one is sent on
  let headers ← insertOptional (headers.remove dataPurpose) dataPurpose purpose
  let id ← headerValue requestId
  let headers := headers.insert requestIdName id
  let authValue ← upstreamAuthHeader H state.config m
  let authName ← okOr .configInvalid (headerNameFromBytes upstream.authHeaderName)
  let headers := headers.insert authName authValue
  let headers ← insertOptional headers connectorClientIdentityName
    (if m.route.forwardClientIdentityHeader then some identity.value else none)
  -- the log of the authorised request needs the audit key
  let _hasher ← okOr ConnectorProblem.configInvalid state.auditHasher
  return { method := request.method, url, headers, body }

/-- What outlives a request. -/
structure Memory where
  windows : RequestRateLimiter
  caches : RouteConfig → PolicyHashCache

/-- The memory of a connector that has just been started. -/
def Memory.start : Memory := ⟨∅, fun _ => none⟩

/-- The readings of the clocks during one request. -/
structure Readings where
  /-- The steady clock, when the rate limiter is asked. -/
  now : ℕ
  clock : ClockReadings

variable (D : Pdp)

/-- **The server connector**, with the memory that it leaves. -/
def handleServer (state : ProxyState) (memory : Memory) (readings : Readings) (request : Request)
    (path : Str) (query : Option Str) (requestId : Str) : Handled × Memory :=
  match serverAdmission P H state request path with
  | .error problem => (⟨none, .error problem⟩, memory)
  | .ok (identity, m) =>
      let (purpose, cache) := authorizeServerPurpose P D readings.clock (memory.caches m.route) m
        request.headers identity state.config.clientTrust
      -- the hash stays cached when the purpose is refused
      let memory := { memory with caches := Function.update memory.caches m.route cache }
      match purpose with
      | .error problem => (⟨none, .error problem⟩, memory)
      | .ok purpose =>
          let (admitted, windows) := memory.windows.check readings.now identity.value m.route.id
            state.config.limits.maxRequestsPerIdentityPerMinute
          -- an admitted request is counted even if no call can be built from it
          let memory := { memory with windows }
          match admitted with
          | .error problem => (⟨none, .error problem⟩, memory)
          | .ok () =>
              match serverRequest N H state request identity m purpose query requestId with
              | .error problem => (⟨none, .error problem⟩, memory)
              | .ok call => (⟨some call, sendUpstream N call (maxBodyBytes state.config)⟩, memory)

/-! ### The gates -/

/-- **What holds of a request that the server forwards**, for one identity and one route. -/
structure Mediated (state : ProxyState) (memory : Memory) (readings : Readings) (request : Request)
    (path : Str) (call : UpstreamRequest) (identity : PeerIdentity) (m : RouteMatch) : Prop where
  /-- The certificate chain was verified, and is of this identity. -/
  verified : ∃ chain ∈ request.chain, ∃ trust ∈ state.serverTrust,
    trust.verifyPeer P H chain = .ok identity
  /-- The identity is on the allowlist. -/
  allowed : ∃ trust ∈ state.config.clientTrust, ∃ entry ∈ trust.allowedIdentities,
    trim entry = identity.value
  /-- The route is one of the configuration, for the method and the identity. -/
  route : m.route ∈ state.config.routes
  method : request.method ∈ m.route.methods
  bound : (∃ c ∈ m.route.clientIdentity, trim c = identity.value) ∨
    ∃ c ∈ m.route.clientIdentities, trim c = identity.value
  /-- The path has a canonical form, which is under the canonical prefix of the route. -/
  canonical : canonicalRequestPath path = .ok m.upstreamPath
  under : ∃ raw ∈ m.route.upstreamPrefix, ∃ pre, canonicalRequestPath raw = .ok pre ∧
    prefixMatches m.upstreamPath pre = true
  /-- The purpose was authorised, whatever the cache held. -/
  purpose : ∃ purpose, (authorizeServerPurpose P D readings.clock none m request.headers identity
    state.config.clientTrust).1 = .ok purpose
  /-- The limiter admitted the request, below the limit. -/
  admitted : (memory.windows.check readings.now identity.value m.route.id
    state.config.limits.maxRequestsPerIdentityPerMinute).1 = .ok ()
  below : ∀ w ∈ memory.windows.lookup (rateKey identity.value m.route.id),
    readings.now < w.started + minute →
      w.count < state.config.limits.maxRequestsPerIdentityPerMinute
  /-- The body is within its bound, and is the one that is sent. -/
  body : ∃ body ∈ request.body, body.length ≤ maxBodyBytes state.config ∧ call.body = body
  /-- The credential that is sent comes from the variable of the route or, only if the route has
  none, from the default one. -/
  credential : ∃ upstream ∈ state.config.upstream, ∃ var,
    (m.route.upstreamAuthHeaderEnv = some var ∨
      m.route.upstreamAuthHeaderEnv = none ∧ upstream.defaultAuthHeaderEnv = some var) ∧
    ∃ secret, H.envVar var = some secret ∧ isBlank secret = false ∧
      ∃ name, headerNameFromBytes upstream.authHeaderName = some name ∧
        (outbound call).headers.getAll name = [TrustConnector.credential upstream secret]

/-- The memories that requests lead to.  Files, variables and clocks may change between them. -/
inductive Reachable (state : ProxyState) : Memory → Prop where
  | start : Reachable state Memory.start
  | step {memory : Memory} (H : Host) (readings : Readings) (request : Request) (path : Str)
      (query : Option Str) (requestId : Str) (h : Reachable state memory) :
      Reachable state (handleServer N P H D state memory readings request path query requestId).2

section

variable {N P H D} {state : ProxyState} {memory : Memory} {readings : Readings} {request : Request}
  {path : Str} {query : Option Str} {requestId : Str}

/-- The decision on the purpose of a request that has passed the first gates. -/
abbrev authorization (P : Pki) (D : Pdp) (state : ProxyState) (memory : Memory) (readings : Readings)
    (request : Request) (identity : PeerIdentity) (m : RouteMatch) :
    Except ConnectorProblem (Option Str) × PolicyHashCache :=
  authorizeServerPurpose P D readings.clock (memory.caches m.route) m request.headers identity
    state.config.clientTrust

/-- The memory with another cache for the route. -/
def Memory.setCache (memory : Memory) (route : RouteConfig) (cache : PolicyHashCache) : Memory :=
  { memory with caches := Function.update memory.caches route cache }

/-- The verdict of the limiter on a request that has passed the first gates. -/
abbrev limiting (state : ProxyState) (memory : Memory) (readings : Readings)
    (identity : PeerIdentity) (m : RouteMatch) : Except ConnectorProblem Unit × RequestRateLimiter :=
  memory.windows.check readings.now identity.value m.route.id
    state.config.limits.maxRequestsPerIdentityPerMinute

variable (N P H D state memory readings request path query requestId) in
/-- **What the server can do with a request**: the gate that stops it, or the call. -/
inductive Served : Handled × Memory → Prop where
  | notAdmitted {problem : ConnectorProblem}
      (hadmission : serverAdmission P H state request path = .error problem) :
      Served (⟨none, .error problem⟩, memory)
  | notAuthorized {identity : PeerIdentity} {m : RouteMatch} {problem : ConnectorProblem}
      (hadmission : serverAdmission P H state request path = .ok (identity, m))
      (hpurpose : (authorization P D state memory readings request identity m).1 = .error problem) :
      Served (⟨none, .error problem⟩,
        memory.setCache m.route (authorization P D state memory readings request identity m).2)
  | limited {identity : PeerIdentity} {m : RouteMatch} {purpose : Option Str}
      {problem : ConnectorProblem}
      (hadmission : serverAdmission P H state request path = .ok (identity, m))
      (hpurpose : (authorization P D state memory readings request identity m).1 = .ok purpose)
      (hlimit : (limiting state memory readings identity m).1 = .error problem) :
      Served (⟨none, .error problem⟩,
        { memory.setCache m.route (authorization P D state memory readings request identity m).2 with
          windows := (limiting state memory readings identity m).2 })
  | notSent {identity : PeerIdentity} {m : RouteMatch} {purpose : Option Str}
      {problem : ConnectorProblem}
      (hadmission : serverAdmission P H state request path = .ok (identity, m))
      (hpurpose : (authorization P D state memory readings request identity m).1 = .ok purpose)
      (hlimit : (limiting state memory readings identity m).1 = .ok ())
      (hrequest : serverRequest N H state request identity m purpose query requestId =
        .error problem) :
      Served (⟨none, .error problem⟩,
        { memory.setCache m.route (authorization P D state memory readings request identity m).2 with
          windows := (limiting state memory readings identity m).2 })
  | forwarded {identity : PeerIdentity} {m : RouteMatch} {purpose : Option Str}
      {call : UpstreamRequest}
      (hadmission : serverAdmission P H state request path = .ok (identity, m))
      (hpurpose : (authorization P D state memory readings request identity m).1 = .ok purpose)
      (hlimit : (limiting state memory readings identity m).1 = .ok ())
      (hrequest : serverRequest N H state request identity m purpose query requestId = .ok call) :
      Served (⟨some call, sendUpstream N call (maxBodyBytes state.config)⟩,
        { memory.setCache m.route (authorization P D state memory readings request identity m).2 with
          windows := (limiting state memory readings identity m).2 })

theorem handleServer_served : Served N P H D state memory readings request path query requestId
    (handleServer N P H D state memory readings request path query requestId) := by
  cases hadmission : serverAdmission P H state request path with
  | error problem =>
      simp only [handleServer, hadmission]
      exact Served.notAdmitted hadmission
  | ok found =>
      obtain ⟨identity, m⟩ := found
      cases hpurpose : (authorization P D state memory readings request identity m).1 with
      | error problem =>
          simp only [handleServer, hadmission, hpurpose]
          exact Served.notAuthorized hadmission hpurpose
      | ok purpose =>
          cases hlimit : (limiting state memory readings identity m).1 with
          | error problem =>
              simp only [handleServer, hadmission, hpurpose, hlimit]
              exact Served.limited hadmission hpurpose hlimit
          | ok =>
              cases hrequest :
                  serverRequest N H state request identity m purpose query requestId with
              | error problem =>
                  simp only [handleServer, hadmission, hpurpose, hlimit, hrequest]
                  exact Served.notSent hadmission hpurpose hlimit hrequest
              | ok call =>
                  simp only [handleServer, hadmission, hpurpose, hlimit, hrequest]
                  exact Served.forwarded hadmission hpurpose hlimit hrequest

/-- What outlives a request does not depend on what the upstream replies, or on whether it is asked
at all. -/
theorem handleServer_memory (N' : Platform) :
    (handleServer N P H D state memory readings request path query requestId).2 =
      (handleServer N' P H D state memory readings request path query requestId).2 := by
  unfold handleServer
  cases serverAdmission P H state request path with
  | error problem => rfl
  | ok admitted =>
      obtain ⟨identity, m⟩ := admitted
      dsimp only
      cases (authorization P D state memory readings request identity m).1 with
      | error problem => rfl
      | ok purpose =>
          dsimp only
          cases (limiting state memory readings identity m).1 with
          | error problem => rfl
          | ok =>
              dsimp only
              cases serverRequest N H state request identity m purpose query requestId <;>
                cases serverRequest N' H state request identity m purpose query requestId <;> rfl

/-- A request leaves coherent caches, whichever gate stops it. -/
theorem Served.coherent {out : Handled × Memory}
    (h : Served N P H D state memory readings request path query requestId out)
    (hcaches : ∀ route, Coherent (policyHash P) (memory.caches route)) :
    ∀ route, Coherent (policyHash P) (out.2.caches route) := by
  have hupdate : ∀ (identity : PeerIdentity) (m : RouteMatch) (route : RouteConfig),
      Coherent (policyHash P) ((memory.setCache m.route
        (authorization P D state memory readings request identity m).2).caches route) := by
    intro identity m route
    simp only [Memory.setCache, Function.update_apply]
    split_ifs with hroute
    · exact (authorizeServerPurpose_coherent (hcaches m.route) D readings.clock m request.headers
        identity state.config.clientTrust).2
    · exact hcaches route
  cases h with
  | notAdmitted => exact hcaches
  | notAuthorized => exact hupdate _ _
  | limited => exact hupdate _ _
  | notSent => exact hupdate _ _
  | forwarded => exact hupdate _ _

/-- **The caches are coherent in every reachable memory.** -/
theorem Reachable.coherent (h : Reachable N P D state memory) :
    ∀ route, Coherent (policyHash P) (memory.caches route) := by
  induction h with
  | start => exact fun route entry hentry => nomatch hentry
  | step H readings request path query requestId _ ih => exact handleServer_served.coherent ih

/-- The first gates. -/
theorem serverAdmission_eq_ok {identity : PeerIdentity} {m : RouteMatch}
    (h : serverAdmission P H state request path = .ok (identity, m)) :
    (∃ chain ∈ request.chain, ∃ trust ∈ state.serverTrust,
        trust.verifyPeer P H chain = .ok identity) ∧
      (∃ trust ∈ state.config.clientTrust, ∃ entry ∈ trust.allowedIdentities,
        trim entry = identity.value) ∧
      findServerRoute state.config.routes request.method path identity.value = .ok m := by
  simp only [serverAdmission, chain_eq_ok, okOr_eq_ok, ensure_eq_ok, mapError_ok_iff] at h
  obtain ⟨chain, hchain, trust, htrust, identity', hverify, ⟨⟩, hallowed, m', hroute, h⟩ := h
  obtain ⟨rfl, rfl⟩ := Prod.mk.inj (Except.ok.inj h)
  refine ⟨⟨chain, hchain, trust, htrust, hverify⟩, ?_, hroute⟩
  cases hclient : state.config.clientTrust with
  | none => simp [hclient] at hallowed
  | some clientTrust =>
      simp only [hclient, Option.map_some, Option.getD_some, List.any_eq_true,
        decide_eq_true_eq] at hallowed
      exact ⟨clientTrust, rfl, hallowed⟩

theorem readLimitedBody_eq_ok {body : Option Str} {maxBytes : ℕ} {out : Str} :
    readLimitedBody body maxBytes = .ok out ↔ body = some out ∧ out.length ≤ maxBytes := by
  rw [readLimitedBody, okOr_eq_ok, Option.filter_eq_some_iff, decide_eq_true_eq]

theorem headerValue_eq_ok {value out : Str} (h : headerValue value = .ok out) : out = value := by
  rw [headerValue, okOr_eq_ok, headerValueFromStr] at h
  split_ifs at h
  exact (Option.some.inj h).symm

theorem getAll_insertOptional {headers out : HeaderMap} {name k : Str} {value : Option Str}
    (h : insertOptional headers name value = .ok out) :
    out.getAll k =
      value.elim (headers.getAll k) fun v => if k = name then [v] else headers.getAll k := by
  cases value with
  | none =>
      obtain rfl := Except.ok.inj h
      rfl
  | some value =>
      rw [insertOptional] at h
      cases hvalue : headerValue value with
      | error problem => simp [hvalue, Except.map] at h
      | ok v =>
          rw [hvalue] at h
          obtain rfl := Except.ok.inj h
          rw [MultiMap.getAll_insert, headerValue_eq_ok hvalue]
          rfl

/-- The values of a header in the request that the client sends.  What is inserted last under a name
is there alone; under a name that nothing is inserted under is what the filter leaves. -/
def clientValues (N : Platform) (config : ConnectorConfig) (request : Request) (m : RouteMatch)
    (purpose : Option Str) (requestId name : Str) : List Str :=
  if name = dataPurpose ∧ purpose.isSome = true then purpose.toList
  else if name = connectorIdName ∧ config.connectorId.isSome = true then config.connectorId.toList
  else if name = connectorVersionName then [packageVersion]
  else if name = requestIdName then [requestId]
  else (filteredHeaders N request.headers m).getAll name

theorem clientValues_dataPurpose {config : ConnectorConfig} {m : RouteMatch} {value : Str} :
    clientValues N config request m (some value) requestId dataPurpose = [value] := by
  rw [clientValues, if_pos ⟨rfl, rfl⟩]
  rfl

theorem clientRequest_of_call {config : ConnectorConfig} {call : UpstreamRequest}
    (h : (handleClient N config request path query requestId).call = some call) :
    clientRequest N config request path query requestId = .ok call := by
  rw [handleClient] at h
  cases hrequest : clientRequest N config request path query requestId with
  | error problem => simp [hrequest] at h
  | ok call' =>
      rw [hrequest] at h
      rw [Option.some.inj h]

/-- **The request that the client sends**: where its route, its purpose and its URL come from, and
every header of it. -/
theorem clientRequest_eq_ok {config : ConnectorConfig} {call : UpstreamRequest}
    (h : clientRequest N config request path query requestId = .ok call) :
    ∃ m purpose server, findClientRoute config.routes request.method path = .ok m ∧
      resolveClientPurpose config m request.headers = .ok purpose ∧
      config.server = some server ∧
      buildUrl N.authorityOf server.url m.upstreamPath query = some call.url ∧
      call.method = request.method ∧
      (∃ body ∈ request.body, body.length ≤ maxBodyBytes config ∧ call.body = body) ∧
      ∀ k, call.headers.getAll k = clientValues N config request m purpose requestId k := by
  simp only [clientRequest, chain_eq_ok, mapError_ok_iff, okOr_eq_ok, readLimitedBody_eq_ok] at h
  obtain ⟨m, hroute, purpose, hpurpose, body, ⟨hbody, hlength⟩, server, hserver, url, hurl, id, hid,
    headers, hconnector, headers', hheaders, h⟩ := h
  obtain rfl := Except.ok.inj h
  obtain rfl := headerValue_eq_ok hid
  refine ⟨m, purpose, server, hroute, hpurpose, hserver, hurl, rfl, ⟨body, hbody, hlength, rfl⟩, ?_⟩
  intro k
  rw [getAll_insertOptional hheaders, getAll_insertOptional hconnector, MultiMap.getAll_insert,
    MultiMap.getAll_insert, clientValues]
  cases purpose with
  | none => cases config.connectorId <;> simp
  | some value => cases config.connectorId <;> simp

/-- The credential of a route comes from its own variable, or else from the default one. -/
theorem upstreamAuthHeader_eq_ok {config : ConnectorConfig} {m : RouteMatch} {out : Str}
    (h : upstreamAuthHeader H config m = .ok out) :
    ∃ upstream ∈ config.upstream, ∃ var,
      (m.route.upstreamAuthHeaderEnv = some var ∨
        m.route.upstreamAuthHeaderEnv = none ∧ upstream.defaultAuthHeaderEnv = some var) ∧
      ∃ secret, H.envVar var = some secret ∧ isBlank secret = false ∧
        out = credential upstream secret := by
  simp only [upstreamAuthHeader, chain_eq_ok, okOr_eq_ok, Option.filter_eq_some_iff,
    Bool.not_eq_true'] at h
  obtain ⟨upstream, hupstream, var, hvar, secret, ⟨hsecret, hblank⟩, hout⟩ := h
  refine ⟨upstream, hupstream, var, ?_, secret, hsecret, hblank, headerValue_eq_ok hout⟩
  cases hroute : m.route.upstreamAuthHeaderEnv with
  | none =>
      rw [upstreamAuthEnv, hroute, Option.none_or] at hvar
      exact Or.inr ⟨rfl, hvar⟩
  | some own =>
      rw [upstreamAuthEnv, hroute, Option.some_or] at hvar
      exact Or.inl hvar

/-- The values of a header in the request that the server sends.  What is inserted last under a name
is there alone; under a name that nothing is inserted under is what the filter leaves. -/
def sentValues (N : Platform) (request : Request) (identity : PeerIdentity) (m : RouteMatch)
    (purpose : Option Str) (requestId authName authValue name : Str) : List Str :=
  if name = connectorClientIdentityName ∧ m.route.forwardClientIdentityHeader = true then
    [identity.value]
  else if name = authName then [authValue]
  else if name = requestIdName then [requestId]
  else if name = dataPurpose then purpose.toList
  else (N.filterProxyRequestHeaders request.headers
    { privatePrefix := some privatePrefix }).getAll name

/-- The last gates: the body and the credential, and every header that is sent. -/
theorem serverRequest_eq_ok {identity : PeerIdentity} {m : RouteMatch} {purpose : Option Str}
    {call : UpstreamRequest}
    (h : serverRequest N H state request identity m purpose query requestId = .ok call) :
    (∃ body ∈ request.body, body.length ≤ maxBodyBytes state.config ∧ call.body = body) ∧
      ∃ upstream ∈ state.config.upstream, ∃ authValue name,
        upstreamAuthHeader H state.config m = .ok authValue ∧
        headerNameFromBytes upstream.authHeaderName = some name ∧
        ∀ k, call.headers.getAll k =
          sentValues N request identity m purpose requestId name authValue k := by
  simp only [serverRequest, chain_eq_ok, okOr_eq_ok, readLimitedBody_eq_ok] at h
  obtain ⟨body, ⟨hbody, hlength⟩, upstream, hupstream, url, -, headers, hpurpose, id, hid, authValue,
    hvalue, name, hauthName, headers', hidentity, -, -, h⟩ := h
  obtain rfl := Except.ok.inj h
  obtain rfl := headerValue_eq_ok hid
  refine ⟨⟨body, hbody, hlength, rfl⟩, upstream, hupstream, authValue, name, hvalue, hauthName, ?_⟩
  intro k
  have hpurposes : headers.getAll k = if k = dataPurpose then purpose.toList else
      (N.filterProxyRequestHeaders request.headers
        { privatePrefix := some privatePrefix }).getAll k := by
    rw [getAll_insertOptional hpurpose, MultiMap.getAll_remove]
    cases purpose with
    | none => rfl
    | some value =>
        rw [Option.elim_some, Option.toList_some]
        split_ifs <;> rfl
  rw [getAll_insertOptional hidentity, MultiMap.getAll_insert, MultiMap.getAll_insert, hpurposes,
    sentValues]
  cases m.route.forwardClientIdentityHeader with
  | false => simp
  | true => simp

/-- The method and the URL of the request that the server sends. -/
theorem serverRequest_target {identity : PeerIdentity} {m : RouteMatch} {purpose : Option Str}
    {call : UpstreamRequest}
    (h : serverRequest N H state request identity m purpose query requestId = .ok call) :
    call.method = request.method ∧ ∃ upstream ∈ state.config.upstream,
      buildUrl N.authorityOf upstream.baseUrl m.upstreamPath query = some call.url := by
  simp only [serverRequest, chain_eq_ok, okOr_eq_ok] at h
  obtain ⟨body, -, upstream, hupstream, url, hurl, _, -, _, -, _, -, _, -, _, -, _, -, h⟩ := h
  obtain rfl := Except.ok.inj h
  exact ⟨rfl, upstream, hupstream, hurl⟩

end

/-! ### Complete mediation -/

section

variable {N P D} {H₀ H₁ : Host} {config : ConnectorConfig} {requireEnv : Bool} {state : ProxyState}

/-- The header of the credential is not a private one. -/
theorem authHeaderName_not_private
    (haccepted : validateConfig P H₀ config .server requireEnv = .ok ()) :
    ∀ upstream ∈ config.upstream, ∀ name,
      headerNameFromBytes upstream.authHeaderName = some name → ¬ privatePrefix <+: name := by
  obtain ⟨clientTrust, upstream, -, hupstream, -, hchecks, -⟩ := validateConfig_server haccepted
  intro upstream' hupstream' name hname
  obtain rfl : upstream = upstream' := Option.some.inj (hupstream.symm.trans hupstream')
  simp only [validateUpstream, List.append_eq_nil_iff, validateUpstreamAuthHeaderName, hname,
    reportIf_eq_nil, decide_eq_false_iff_not] at hchecks
  exact hchecks.1.1.1.1.2.2

/-- The header of the credential is not the one that names the client. -/
theorem authHeaderName_ne (haccepted : validateConfig P H₀ config .server requireEnv = .ok ()) :
    ∀ upstream ∈ config.upstream, ∀ name,
      headerNameFromBytes upstream.authHeaderName = some name →
        name ≠ connectorClientIdentityName := by
  intro upstream hupstream name hname heq
  refine authHeaderName_not_private haccepted upstream hupstream name hname ?_
  rw [heq]
  exact private_connectorClientIdentityName

theorem ProxyState.server_config (hstart : ProxyState.server P H₀ config = .ok state) :
    state.config = config := by
  simp only [ProxyState.server, chain_eq_ok] at hstart
  obtain ⟨trust, -, hasher, -, h⟩ := hstart
  obtain rfl := Except.ok.inj h
  rfl

/-- What a server connector is started with. -/
theorem ProxyState.server_eq_ok (hstart : ProxyState.server P H₀ config = .ok state) :
    ∃ policy, ServerTrustPolicy.fromConfig P H₀ config = .ok policy ∧
      state = ⟨config, some policy, some ()⟩ := by
  simp only [ProxyState.server, chain_eq_ok] at hstart
  obtain ⟨policy, hpolicy, ⟨⟩, -, hstate⟩ := hstart
  exact ⟨policy, hpolicy, (Except.ok.inj hstate).symm⟩

/-- A request that passes all gates is mediated. -/
theorem mediated_of_gates {H : Host} {memory : Memory} {readings : Readings} {request : Request}
    {path : Str} {query : Option Str} {requestId : Str} {identity : PeerIdentity} {m : RouteMatch}
    {purpose : Option Str} {call : UpstreamRequest}
    (hname : ∀ upstream ∈ state.config.upstream, ∀ name,
      headerNameFromBytes upstream.authHeaderName = some name → name ≠ connectorClientIdentityName)
    (hcache : Coherent (policyHash P) (memory.caches m.route))
    (hadmission : serverAdmission P H state request path = .ok (identity, m))
    (hpurpose : (authorization P D state memory readings request identity m).1 = .ok purpose)
    (hlimit : (limiting state memory readings identity m).1 = .ok ())
    (hrequest : serverRequest N H state request identity m purpose query requestId = .ok call) :
    Mediated P H D state memory readings request path call identity m := by
  obtain ⟨hverified, hallowed, hroute⟩ := serverAdmission_eq_ok hadmission
  obtain ⟨hcanonical, hmem, hmethod, hbound, raw, pre, hraw, hpre, hmatch⟩ :=
    findServerRoute_eq_ok hroute
  obtain ⟨hbody, upstream, hupstream, authValue, name, hauth, hauthName, hsent⟩ :=
    serverRequest_eq_ok hrequest
  obtain ⟨upstream', hupstream', var, hvar, secret, hsecret, hblank, rfl⟩ :=
    upstreamAuthHeader_eq_ok hauth
  obtain rfl : upstream = upstream' := Option.some.inj (hupstream.symm.trans hupstream')
  -- the identity is an entry of the allowlist, so it is trimmed
  have htrim : trim identity.value = identity.value := by
    obtain ⟨-, -, entry, -, hvalue⟩ := hallowed
    rw [← hvalue, trim_trim]
  have hboundTo := routeMatchesClientIdentity_iff.1 hbound
  rw [BoundTo, htrim] at hboundTo
  rw [authorization, (authorizeServerPurpose_coherent hcache _ _ _ _ _ _).1] at hpurpose
  have hcredential : (outbound call).headers.getAll name = [credential upstream secret] := by
    rw [getAll_outbound, hsent, sentValues, if_neg fun h => hname _ hupstream _ hauthName h.1,
      if_pos rfl]
    rfl
  exact
    { verified := hverified
      allowed := hallowed
      route := hmem
      method := hmethod
      bound := hboundTo
      canonical := hcanonical
      under := ⟨raw, hraw, pre, hpre, hmatch⟩
      purpose := ⟨purpose, hpurpose⟩
      admitted := hlimit
      below := below_of_check hlimit
      body := hbody
      credential :=
        ⟨upstream, hupstream, var, hvar, secret, hsecret, hblank, name, hauthName, hcredential⟩ }

/-- A request that is not forwarded ends in a problem. -/
theorem Served.refused {H : Host} {memory : Memory} {readings : Readings} {request : Request}
    {path : Str} {query : Option Str} {requestId : Str} {out : Handled × Memory}
    (h : Served N P H D state memory readings request path query requestId out)
    (hcall : out.1.call = none) : ∃ problem, out.1.result = .error problem := by
  cases h with
  | notAdmitted => exact ⟨_, rfl⟩
  | notAuthorized => exact ⟨_, rfl⟩
  | limited => exact ⟨_, rfl⟩
  | notSent => exact ⟨_, rfl⟩
  | forwarded => exact absurd hcall (Option.some_ne_none _)

/-- A request that is forwarded has passed all gates. -/
theorem Served.gates {H : Host} {memory : Memory} {readings : Readings} {request : Request}
    {path : Str} {query : Option Str} {requestId : Str} {out : Handled × Memory}
    (h : Served N P H D state memory readings request path query requestId out)
    {call : UpstreamRequest} (hcall : out.1.call = some call) :
    ∃ identity m purpose, serverAdmission P H state request path = .ok (identity, m) ∧
      (authorization P D state memory readings request identity m).1 = .ok purpose ∧
      (limiting state memory readings identity m).1 = .ok () ∧
      serverRequest N H state request identity m purpose query requestId = .ok call := by
  cases h with
  | notAdmitted => cases hcall
  | notAuthorized => cases hcall
  | limited => cases hcall
  | notSent => cases hcall
  | @forwarded identity m purpose call' hadmission hpurpose hlimit hrequest =>
      obtain rfl : call' = call := Option.some.inj hcall
      exact ⟨identity, m, purpose, hadmission, hpurpose, hlimit, hrequest⟩

/-- **Complete mediation.**  In every reachable memory of a server connector that was started from an
accepted configuration, a request is forwarded only if all gates let it through, for one identity and
one route; every other request ends in a problem, without a call. -/
theorem handleServer_mediated (haccepted : validateConfig P H₀ config .server requireEnv = .ok ())
    (hstart : ProxyState.server P H₁ config = .ok state) {memory : Memory}
    (hreachable : Reachable N P D state memory) (H : Host) (readings : Readings) (request : Request)
    (path : Str) (query : Option Str) (requestId : Str) :
    (∀ call,
        (handleServer N P H D state memory readings request path query requestId).1.call =
          some call →
        ∃ identity m, Mediated P H D state memory readings request path call identity m) ∧
      ((handleServer N P H D state memory readings request path query requestId).1.call = none →
        ∃ problem,
          (handleServer N P H D state memory readings request path query requestId).1.result =
            .error problem) := by
  have hserved : Served N P H D state memory readings request path query requestId _ :=
    handleServer_served
  have hname := authHeaderName_ne haccepted
  rw [← ProxyState.server_config hstart] at hname
  refine ⟨fun call hcall => ?_, hserved.refused⟩
  obtain ⟨identity, m, purpose, hadmission, hpurpose, hlimit, hrequest⟩ := hserved.gates hcall
  exact ⟨identity, m, mediated_of_gates hname (hreachable.coherent m.route) hadmission hpurpose
    hlimit hrequest⟩

end

section

open Sample

/-- A request of the client of `alpha`. -/
def Sample.clientOfAlpha : Request :=
  { method := str "GET", headers := ∅, chain := some alphaChain }

/-- The sample server, started. -/
def Sample.serverState : ProxyState :=
  ⟨bothModes (str "/v1"), some (policyOf uriPki (bothModes (str "/v1"))), some ()⟩

/-- The sample server has one route. -/
theorem Sample.route_of_admission {request : Request} {path : Str} {identity : PeerIdentity}
    {m : RouteMatch}
    (h : serverAdmission uriPki host serverState request path = .ok (identity, m)) :
    m.route = route (str "/v1") := by
  obtain ⟨-, -, hfound⟩ := serverAdmission_eq_ok h
  exact List.mem_singleton.1 (findServerRoute_eq_ok hfound).2.1

/-- The first request of the client of `alpha` is forwarded, through all gates. -/
theorem handleServer_mediated_alpha :
    ∃ call identity m,
      (handleServer platform uriPki host pdp serverState Memory.start ⟨0, none, none⟩ clientOfAlpha
        (str "/v1/items") none (str "id")).1.call = some call ∧
      Mediated uriPki host pdp serverState Memory.start ⟨0, none, none⟩ clientOfAlpha
        (str "/v1/items") call identity m := by
  have haccepted : validateConfig uriPki host (bothModes (str "/v1")) .server true = .ok () := rfl
  have hstart : ProxyState.server uriPki host (bothModes (str "/v1")) = .ok serverState := rfl
  have hforwarded : (handleServer platform uriPki host pdp serverState Memory.start ⟨0, none, none⟩
      clientOfAlpha (str "/v1/items") none (str "id")).1.call.isSome = true := by decide +kernel
  obtain ⟨call, hcall⟩ := Option.isSome_iff_exists.1 hforwarded
  obtain ⟨identity, m, hmediated⟩ := (handleServer_mediated haccepted hstart Reachable.start host
    ⟨0, none, none⟩ clientOfAlpha (str "/v1/items") none (str "id")).1 call hcall
  exact ⟨call, identity, m, hcall, hmediated⟩

end

/-! ### Answers and the log -/

/-- What a caller receives. -/
inductive Answer where
  | reply (response : Response)
  | problem (document : ProblemDocument)

def Answer.status : Answer → ℕ
  | .reply response => response.status
  | .problem document => document.status

/-- What is logged about a completed request. -/
structure LogRecord where
  method : Str
  pathLen : ℕ
  queryPresent : Bool
  requestId : Str
  status : ℕ
  statusClass : ℕ
  outcome : Str
  problemCode : Str
  denialStage : Str
  denialReason : Str
  deriving DecidableEq, Repr

def validRequestId (value : Str) : Bool :=
  !value.isEmpty && value.length ≤ 128 &&
    value.all fun byte => isDigit byte || isAlpha byte || byte ∈ str "-_.:"

/-- The id of a request: the caller's, if it is valid, or a new one. -/
def requestId (fresh : Str) (headers : HeaderMap) : Str :=
  (((headers.get requestIdName).bind toStr).filter validRequestId).getD fresh

/-- **The answer and the log of a request**, from what its handler ended in; a handler that has not
ended in time has ended in nothing. -/
def proxyHandler (fresh : Str) (request : Request) (path : Str) (query : Option Str)
    (ended : Option (Except ConnectorProblem Response)) : Answer × LogRecord :=
  let result := ended.getD (.error .requestTimeout)
  let problem : Option ConnectorProblem :=
    match result with
    | .ok _ => none
    | .error problem => some problem
  let answer : Answer :=
    match result with
    | .ok response => .reply response
    | .error problem => .problem problem.response
  (answer,
    { method := request.method
      pathLen := path.length
      queryPresent := query.isSome
      requestId := requestId fresh request.headers
      status := answer.status
      statusClass := answer.status / 100
      outcome := (problem.map (·.auditOutcome)).getD (str "forwarded")
      problemCode := (problem.map (·.code)).getD []
      denialStage := (problem.bind (·.denialStage)).getD []
      denialReason := (problem.bind (·.denialReason)).getD [] })

/-- **The log tells the truth**: it has the status of the answer; it says that a request was
forwarded exactly when the handler ended in a reply; and it names a stage exactly when it says that
the request was denied. -/
theorem proxyHandler_log (fresh : Str) (request : Request) (path : Str) (query : Option Str)
    (ended : Option (Except ConnectorProblem Response)) :
    let (answer, log) := proxyHandler fresh request path query ended
    log.status = answer.status ∧
      (log.outcome = str "forwarded" ↔ ∃ response, ended = some (.ok response)) ∧
      (log.outcome = str "denied" ↔ log.denialStage ≠ []) := by
  have hforwarded : ∀ problem : ConnectorProblem, problem.auditOutcome ≠ str "forwarded" := by
    intro problem
    rw [ConnectorProblem.auditOutcome]
    split_ifs <;> decide +kernel
  have hproblem : ∀ problem : ConnectorProblem,
      problem.auditOutcome = str "denied" ↔ problem.denialStage.getD [] ≠ [] := by
    intro problem
    rw [problem.auditOutcome_eq_denied_iff.1]
    cases problem <;> simp [ConnectorProblem.denialStage] <;> decide +kernel
  refine ⟨rfl, ?_, ?_⟩
  · rcases ended with _ | ⟨problem⟩ | ⟨response⟩
    · simpa [proxyHandler] using hforwarded _
    · simpa [proxyHandler] using hforwarded problem
    · simp
  · rcases ended with _ | ⟨problem⟩ | ⟨response⟩
    · exact hproblem .requestTimeout
    · exact hproblem problem
    · have hne : str "forwarded" ≠ str "denied" := by decide +kernel
      simpa [proxyHandler] using hne

end TrustConnector
