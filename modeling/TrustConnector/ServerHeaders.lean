/-
**What the upstream receives.**

The server connector drops what a caller says about credentials and identities, and inserts headers
of its own: the authorised purpose, the id of the request, the credential of the route, and the
verified identity if the route asks for it.  The name of the credential's header is the operator's
choice, and it is inserted after the purpose and the id.

Main definitions:

* `HasCredential` — the configuration of a route is enough to authenticate to the upstream;
* `verifiedIdentity` — the identity of a request, as the certificate chain proves it;
* `Stripping` — a filter that drops the headers that only the connector may set;
* `Guarded`, `Unforged` — the names under which a caller can say nothing, and headers in which none
  has.

Main results:

* `upstreamAuthHeader_ok_iff` — **which routes of an accepted configuration can authenticate**;
* `forwarded_purpose_and_id_iff` — **when the upstream sees exactly the authorised purpose and the id
  of the request**;
* `forwarded_unforged` — **callers cannot forge the credential or the identity**.
-/

import TrustConnector.Proxy

set_option relaxedAutoImplicit false
set_option autoImplicit false

namespace TrustConnector

open Text Fallible Http

/-! ### The credential of a route -/

/-- A route has a variable for its credential, and the scheme can be sent. -/
def HasCredential (upstream : UpstreamConfig) (route : RouteConfig) : Prop :=
  upstreamAuthEnv upstream route ≠ none ∧
    (isBlank upstream.authHeaderScheme = true ∨ upstream.authHeaderScheme.all isValueByte = true)

section

variable {P : Pki} {H H₀ : Host} {config : ConnectorConfig} {upstream : UpstreamConfig}
  {route : RouteConfig} {var secret : Str}

/-- What the check of the environment says about one variable. -/
theorem requireUpstreamAuthEnv_eq_nil :
    requireUpstreamAuthEnv H var = [] ↔
      ∃ secret, H.envVar var = some secret ∧ isBlank secret = false ∧
        secret.all isValueByte = true := by
  rw [requireUpstreamAuthEnv]
  cases H.envVar var with
  | none => simp
  | some value =>
      cases hblank : isBlank value with
      | true => simp [hblank]
      | false => simp [hblank, headerValueFromStr]

/-- The variable of a route is among those that are checked. -/
theorem mem_upstreamAuthEnvVars (hroute : route ∈ config.routes)
    (hvar : upstreamAuthEnv upstream route = some var) :
    var ∈ upstreamAuthEnvVars config upstream := by
  rw [upstreamAuthEnvVars, mem_orderedSet, List.mem_append, List.mem_flatMap]
  rw [upstreamAuthEnv, Option.or_eq_some_iff] at hvar
  rcases hvar with hown | ⟨-, hdefault⟩
  · exact Or.inr ⟨route, hroute, Option.mem_toList.2 hown⟩
  · exact Or.inl (Option.mem_toList.2 hdefault)

theorem headerValue_credential_ok_iff (hsecret : secret.all isValueByte = true) :
    (∃ value, headerValue (credential upstream secret) = .ok value) ↔
      isBlank upstream.authHeaderScheme = true ∨
        upstream.authHeaderScheme.all isValueByte = true := by
  have hspace : (str " ").all isValueByte = true := by decide +kernel
  have hvalue : ∀ text, (∃ value, headerValue text = .ok value) ↔ text.all isValueByte = true := by
    intro text
    simp [headerValue, okOr_eq_ok, headerValueFromStr]
  rw [hvalue, credential]
  cases isBlank upstream.authHeaderScheme with
  | true => simp only [if_true, hsecret, true_or]
  | false =>
      simp only [Bool.false_eq_true, if_false, List.all_append, hspace, hsecret, Bool.and_true,
        false_or]

/-- The variables of an accepted configuration hold credentials, if the environment was checked. -/
theorem exists_secret (haccepted : validateConfig P H₀ config .server true = .ok ())
    (hupstream : config.upstream = some upstream) (hroute : route ∈ config.routes)
    (hvar : upstreamAuthEnv upstream route = some var) :
    ∃ secret, H₀.envVar var = some secret ∧ isBlank secret = false ∧
      secret.all isValueByte = true := by
  obtain ⟨clientTrust, upstream', -, hupstream', -, hchecks, -⟩ := validateConfig_server haccepted
  obtain rfl : upstream = upstream' := Option.some.inj (hupstream.symm.trans hupstream')
  simp only [validateUpstream, List.append_eq_nil_iff, if_true, List.flatMap_eq_nil_iff] at hchecks
  have henv := hchecks.1.2.2
  exact requireUpstreamAuthEnv_eq_nil.1 (henv var (mem_upstreamAuthEnvVars hroute hvar))

/-- The credential of a route with one can be sent, if the environment was checked. -/
theorem exists_upstreamAuthHeader_iff {m : RouteMatch}
    (haccepted : validateConfig P H₀ config .server true = .ok ()) (henv : H.envVar = H₀.envVar)
    (hupstream : config.upstream = some upstream) (hroute : m.route ∈ config.routes) :
    (∃ value, upstreamAuthHeader H config m = .ok value) ↔ HasCredential upstream m.route := by
  rw [HasCredential]
  cases hvar : upstreamAuthEnv upstream m.route with
  | none => simp [upstreamAuthHeader, chain_eq_ok, okOr_eq_ok, hupstream, hvar]
  | some var =>
      obtain ⟨secret, hsecret, hblank, hbytes⟩ := exists_secret haccepted hupstream hroute hvar
      rw [← henv] at hsecret
      rw [← headerValue_credential_ok_iff hbytes]
      simp [upstreamAuthHeader, chain_eq_ok, okOr_eq_ok, hupstream, hvar, hsecret, hblank,
        Option.filter]

end

/-- **Which routes of an accepted configuration can authenticate to the upstream.**  The environment
was checked and has not changed since; yet a route needs a variable, of its own or the default one,
and a scheme that a header can hold. -/
theorem upstreamAuthHeader_ok_iff {P : Pki} {H H₀ : Host} {config : ConnectorConfig}
    (haccepted : validateConfig P H₀ config .server true = .ok ()) (henv : H.envVar = H₀.envVar)
    {route : RouteConfig} (hroute : route ∈ config.routes) (upstreamPath : Str) :
    (∃ value, upstreamAuthHeader H config ⟨route, upstreamPath⟩ = .ok value) ↔
      ∀ upstream ∈ config.upstream, HasCredential upstream route := by
  obtain ⟨-, upstream, -, hupstream, -⟩ := validateConfig_server haccepted
  have hrhs : (∀ u ∈ config.upstream, HasCredential u route) ↔ HasCredential upstream route := by
    simp [hupstream]
  rw [hrhs]
  exact exists_upstreamAuthHeader_iff haccepted henv hupstream hroute

section

open Sample

/-- The sample configuration, with a default variable. -/
theorem upstreamAuthHeader_ok_iff_default :
    ∃ value, upstreamAuthHeader host (bothModes (str "/v1")) ⟨route (str "/v1"), str "/v1/items"⟩ =
      .ok value := by
  have haccepted : validateConfig uriPki host (bothModes (str "/v1")) .server true = .ok () := rfl
  refine (upstreamAuthHeader_ok_iff haccepted rfl (List.mem_singleton.2 rfl) _).2 ?_
  rintro upstream ⟨⟩
  exact ⟨by decide +kernel, Or.inr (by decide +kernel)⟩

/-- The sample configuration, without a variable for any credential. -/
def Sample.withoutVariable : ConnectorConfig :=
  { bothModes (str "/v1") with upstream := some { baseUrl := upstreamUrl } }

/-- The sample configuration, with a scheme that ends in a line feed. -/
def Sample.brokenScheme : ConnectorConfig :=
  { bothModes (str "/v1") with
    upstream := some
      { baseUrl := upstreamUrl, defaultAuthHeaderEnv := some (str "UPSTREAM_TOKEN")
        authHeaderScheme := str "Bearer\n" } }

/-- A server connector for a configuration, started. -/
def Sample.started (config : ConnectorConfig) : ProxyState :=
  ⟨config, some (policyOf uriPki config), some ()⟩

/-- **An accepted configuration may not be able to authenticate.**  Without a variable, or with a
scheme that no header can hold, a request passes all gates and then fails for want of a
credential. -/
theorem upstreamAuthHeader_missing :
    validateConfig uriPki host withoutVariable .server true = .ok () ∧
      ProxyState.server uriPki host withoutVariable = .ok (started withoutVariable) ∧
      upstreamAuthHeader host withoutVariable ⟨route (str "/v1"), str "/v1/items"⟩ =
        .error .upstreamAuthMissing ∧
      (handleServer platform uriPki host pdp (started withoutVariable) Memory.start ⟨0, none, none⟩
        clientOfAlpha (str "/v1/items") none (str "id")).1.result = .error .upstreamAuthMissing ∧
      validateConfig uriPki host brokenScheme .server true = .ok () ∧
      upstreamAuthHeader host brokenScheme ⟨route (str "/v1"), str "/v1/items"⟩ =
        .error .configInvalid := by
  exact ⟨rfl, rfl, rfl, rfl, rfl, rfl⟩

end

/-! ### The purpose and the id of a request -/

section

variable {N : Platform} {P : Pki} {D : Pdp} {H H₀ H₁ : Host} {config : ConnectorConfig}
  {requireEnv : Bool} {state : ProxyState} {memory : Memory} {readings : Readings}
  {request : Request} {path : Str} {query : Option Str} {requestId : Str} {call : UpstreamRequest}

/-- The purpose is sent, unless the credential takes its place. -/
theorem sentValues_dataPurpose (identity : PeerIdentity) (m : RouteMatch) (purpose : Option Str)
    (authName authValue : Str) :
    sentValues N request identity m purpose requestId authName authValue dataPurpose =
      if authName = dataPurpose then [authValue] else purpose.toList := by
  have hidentity := (ne_of_private private_connectorClientIdentityName).1.symm
  rw [sentValues, if_neg fun h => hidentity h.1, if_neg requestIdName_ne_dataPurpose.symm,
    if_pos rfl]
  simp only [eq_comm]

/-- The id is sent, unless the credential takes its place. -/
theorem sentValues_requestIdName (identity : PeerIdentity) (m : RouteMatch) (purpose : Option Str)
    (authName authValue : Str) :
    sentValues N request identity m purpose requestId authName authValue requestIdName =
      if authName = requestIdName then [authValue] else [requestId] := by
  have hidentity := (ne_of_private private_connectorClientIdentityName).2.symm
  rw [sentValues, if_neg fun h => hidentity h.1, if_pos rfl]
  simp only [eq_comm]

/-- **When the upstream sees exactly the authorised purpose and the id of the request.**  A request
that is forwarded has both headers as they should be, unless the operator has given the name of one
of them to the credential, and the credential is not by chance the value that belongs there. -/
theorem forwarded_purpose_and_id_iff
    (hcall : (handleServer N P H D state memory readings request path query requestId).1.call =
      some call) :
    ∃ identity m purpose authName authValue,
      serverAdmission P H state request path = .ok (identity, m) ∧
      (authorization P D state memory readings request identity m).1 = .ok purpose ∧
      (∃ upstream ∈ state.config.upstream,
        headerNameFromBytes upstream.authHeaderName = some authName) ∧
      upstreamAuthHeader H state.config m = .ok authValue ∧
      ((call.headers.getAll dataPurpose = purpose.toList ∧
          call.headers.getAll requestIdName = [requestId]) ↔
        (authName = dataPurpose → singleDataPurpose request.headers = .ok (some authValue)) ∧
        (authName = requestIdName → requestId = authValue)) := by
  obtain ⟨identity, m, purpose, hadmission, hpurpose, -, hrequest⟩ := handleServer_served.gates hcall
  obtain ⟨-, upstream, hupstream, authValue, authName, hvalue, hname, hsent⟩ :=
    serverRequest_eq_ok hrequest
  refine ⟨identity, m, purpose, authName, authValue, hadmission, hpurpose,
    ⟨upstream, hupstream, hname⟩, hvalue, ?_⟩
  have hsingle := singleDataPurpose_of_authorized hpurpose
  rw [hsent, hsent, sentValues_dataPurpose, sentValues_requestIdName, hsingle, Except.ok.injEq]
  refine and_congr ?_ ?_
  · by_cases h : authName = dataPurpose
    · rw [if_pos h, imp_iff_right h]
      cases purpose with
      | none => simp
      | some value => simp [eq_comm]
    · simp [h]
  · by_cases h : authName = requestIdName
    · rw [if_pos h, imp_iff_right h, List.singleton_inj, eq_comm]
    · simp [h]

end

section

open Sample

/-- A request that names a purpose. -/
def Sample.forCare : Request :=
  { clientOfAlpha with headers := (∅ : HeaderMap).insert dataPurpose (str " care") }

/-- In the sample configuration the credential has a header of its own. -/
theorem forwarded_purpose_and_id_care :
    ∃ call, (handleServer platform uriPki host pdp serverState Memory.start ⟨0, none, none⟩ forCare
        (str "/v1/items") none (str "id")).1.call = some call ∧
      call.headers.getAll dataPurpose = [str "care"] ∧
      call.headers.getAll requestIdName = [str "id"] := by
  have hforwarded : (handleServer platform uriPki host pdp serverState Memory.start ⟨0, none, none⟩
      forCare (str "/v1/items") none (str "id")).1.call.isSome = true := by decide +kernel
  obtain ⟨call, hcall⟩ := Option.isSome_iff_exists.1 hforwarded
  obtain ⟨identity, m, purpose, authName, authValue, -, hpurpose, ⟨upstream, hupstream, hname⟩, -,
    hiff⟩ := forwarded_purpose_and_id_iff hcall
  have hcare : purpose = some (str "care") :=
    Except.ok.inj ((singleDataPurpose_of_authorized hpurpose).symm.trans rfl)
  obtain rfl := Option.some.inj hupstream
  obtain rfl : str "authorization" = authName := Option.some.inj hname
  subst hcare
  have hother : str "authorization" ≠ dataPurpose ∧ str "authorization" ≠ requestIdName := by
    decide +kernel
  exact ⟨call, hcall, hiff.2 ⟨fun h => absurd h hother.1, fun h => absurd h hother.2⟩⟩

/-- The sample configuration, with another header for the credential. -/
def Sample.credentialUnder (name : Str) : ConnectorConfig :=
  { bothModes (str "/v1") with
    upstream := some
      { baseUrl := upstreamUrl, defaultAuthHeaderEnv := some (str "UPSTREAM_TOKEN")
        authHeaderName := name } }

/-- **The credential may take the place of the purpose, or of the id of the request.**  Both
configurations are accepted, and the purpose `care` is authorised. -/
theorem forwarded_purpose_overwritten :
    (authorizeServerPurpose uriPki pdp ⟨none, none⟩ none ⟨route (str "/v1"), str "/v1/items"⟩
        forCare.headers client (credentialUnder (str "Data-Purpose")).clientTrust).1 =
        .ok (some (str "care")) ∧
      validateConfig uriPki host (credentialUnder (str "Data-Purpose")) .server true = .ok () ∧
      ProxyState.server uriPki host (credentialUnder (str "Data-Purpose")) =
        .ok (started (credentialUnder (str "Data-Purpose"))) ∧
      ((handleServer platform uriPki host pdp (started (credentialUnder (str "Data-Purpose")))
          Memory.start ⟨0, none, none⟩ forCare (str "/v1/items") none (str "id")).1.call.map
        fun call => call.headers.getAll dataPurpose) = some [str "Bearer secret"] ∧
      validateConfig uriPki host (credentialUnder (str "X-Request-Id")) .server true = .ok () ∧
      ProxyState.server uriPki host (credentialUnder (str "X-Request-Id")) =
        .ok (started (credentialUnder (str "X-Request-Id"))) ∧
      ((handleServer platform uriPki host pdp (started (credentialUnder (str "X-Request-Id")))
          Memory.start ⟨0, none, none⟩ forCare (str "/v1/items") none (str "id")).1.call.map
        fun call => call.headers.getAll requestIdName) = some [str "Bearer secret"] := by
  refine ⟨rfl, rfl, rfl, ?_, rfl, rfl, ?_⟩
  · decide +kernel
  · decide +kernel

end

/-! ### What a caller cannot forge -/

/-- A filter that drops, under the strict policy, the credentials and the private headers. -/
def Stripping (N : Platform) : Prop :=
  ∀ headers name, name = str "authorization" ∨ name = str "cookie" ∨ privatePrefix <+: name →
    (N.filterProxyRequestHeaders headers { privatePrefix := some privatePrefix }).getAll name = []

/-- The identity of a request, as its certificate chain proves it. -/
def verifiedIdentity (P : Pki) (H : Host) (state : ProxyState) (request : Request) : Option Str := do
  let chain ← request.chain
  let trust ← state.serverTrust
  let identity ← (trust.verifyPeer P H chain).toOption
  return identity.value

/-- The names under which a caller can say nothing: that of the credential in any letter case, since
names are in lower case, and those of other credentials and of the connector's own headers. -/
def Guarded (authName name : Str) : Prop :=
  name = authName ∨ name = str "authorization" ∨ name = str "cookie" ∨ privatePrefix <+: name

/-- **Headers in which only the connector has spoken** under the guarded names: a credential, and at
most the verified identity. -/
structure Unforged (authName authValue : Str) (identity : Option Str) (headers : HeaderMap) :
    Prop where
  credential : headers.getAll authName = [authValue]
  identity : headers.getAll connectorClientIdentityName = identity.toList
  privateNames : ∀ name, privatePrefix <+: name → name ≠ connectorClientIdentityName →
    headers.getAll name = []
  otherNames : ∀ name, name = str "authorization" ∨ name = str "cookie" → name ≠ authName →
    headers.getAll name = []

/-- Unforged headers agree under the guarded names. -/
theorem Unforged.agree {authName authValue : Str} {identity : Option Str}
    {headers headers' : HeaderMap} (h : Unforged authName authValue identity headers)
    (h' : Unforged authName authValue identity headers') {name : Str}
    (hname : Guarded authName name) : headers.getAll name = headers'.getAll name := by
  by_cases hauth : name = authName
  · rw [hauth, h.credential, h'.credential]
  by_cases hidentity : name = connectorClientIdentityName
  · rw [hidentity, h.identity, h'.identity]
  rcases hname with heq | heq | heq | hprivate
  · exact absurd heq hauth
  · rw [h.otherNames name (Or.inl heq) hauth, h'.otherNames name (Or.inl heq) hauth]
  · rw [h.otherNames name (Or.inr heq) hauth, h'.otherNames name (Or.inr heq) hauth]
  · rw [h.privateNames name hprivate hidentity, h'.privateNames name hprivate hidentity]

section

variable {N : Platform} {P : Pki} {D : Pdp} {H H' H₀ H₁ : Host} {config : ConnectorConfig}
  {requireEnv : Bool} {state : ProxyState} {request request' : Request} {path : Str}
  {identity : PeerIdentity} {m : RouteMatch}

theorem verifiedIdentity_of_admitted
    (h : serverAdmission P H state request path = .ok (identity, m)) :
    verifiedIdentity P H state request = some identity.value := by
  obtain ⟨⟨chain, hchain, trust, htrust, hverify⟩, -⟩ := serverAdmission_eq_ok h
  simp only [Option.mem_def] at hchain htrust
  simp [verifiedIdentity, hchain, htrust, hverify, Except.toOption]

/-- What nothing is inserted under is as the filter leaves it. -/
theorem sentValues_eq_filtered {purpose : Option Str} {requestId authName authValue name : Str}
    (hidentity : name ≠ connectorClientIdentityName ∨ m.route.forwardClientIdentityHeader = false)
    (hauth : name ≠ authName) (hid : name ≠ requestIdName) (hpurpose : name ≠ dataPurpose) :
    sentValues N request identity m purpose requestId authName authValue name =
      (N.filterProxyRequestHeaders request.headers
        { privatePrefix := some privatePrefix }).getAll name := by
  have hforward : ¬ (name = connectorClientIdentityName ∧
      m.route.forwardClientIdentityHeader = true) := by
    rintro ⟨hname, hroute⟩
    rcases hidentity with hne | hfalse
    · exact hne hname
    · exact Bool.false_ne_true (hfalse.symm.trans hroute)
  rw [sentValues, if_neg hforward, if_neg hauth, if_neg hid, if_neg hpurpose]

/-- Nothing is sent under a private name, but for the identity where the route asks for it. -/
theorem sentValues_of_private (hfilter : Stripping N) {purpose : Option Str}
    {requestId authName authValue name : Str} (hauth : ¬ privatePrefix <+: authName)
    (hname : privatePrefix <+: name)
    (hidentity : name ≠ connectorClientIdentityName ∨
      m.route.forwardClientIdentityHeader = false) :
    sentValues N request identity m purpose requestId authName authValue name = [] := by
  have hne : name ≠ authName := by
    rintro rfl
    exact hauth hname
  obtain ⟨hpurpose, hid⟩ := ne_of_private hname
  rw [sentValues_eq_filtered hidentity hne hid hpurpose, hfilter _ _ (Or.inr (Or.inr hname))]

/-- Under the name of another credential nothing is inserted. -/
theorem sentValues_eq_filtered_of_credential {purpose : Option Str}
    {requestId authName authValue name : Str}
    (hname : name = str "authorization" ∨ name = str "cookie") (hother : name ≠ authName) :
    sentValues N request identity m purpose requestId authName authValue name =
      (N.filterProxyRequestHeaders request.headers
        { privatePrefix := some privatePrefix }).getAll name := by
  have hdistinct : name ≠ connectorClientIdentityName ∧ name ≠ requestIdName ∧
      name ≠ dataPurpose := by
    rcases hname with rfl | rfl <;> decide +kernel
  obtain ⟨hidentity, hid, hpurpose⟩ := hdistinct
  exact sentValues_eq_filtered (Or.inl hidentity) hother hid hpurpose

/-- Nothing is sent under the name of another credential. -/
theorem sentValues_of_other (hfilter : Stripping N) {purpose : Option Str}
    {requestId authName authValue name : Str}
    (hname : name = str "authorization" ∨ name = str "cookie") (hother : name ≠ authName) :
    sentValues N request identity m purpose requestId authName authValue name = [] := by
  rw [sentValues_eq_filtered_of_credential hname hother, hfilter _ _ (hname.imp_right Or.inl)]

/-- The headers that are sent are unforged, if the credential's name is not a private one. -/
theorem unforged_of_sentValues (hfilter : Stripping N) {purpose : Option Str}
    {requestId authName authValue : Str} {headers : HeaderMap}
    (hauth : ¬ privatePrefix <+: authName)
    (hsent : ∀ name, headers.getAll name =
      sentValues N request identity m purpose requestId authName authValue name) :
    Unforged authName authValue
      (if m.route.forwardClientIdentityHeader then some identity.value else none) headers := by
  have hprivate := private_connectorClientIdentityName
  refine ⟨?_, ?_, ?_, ?_⟩
  · -- the identity is inserted after the credential, but under another name
    have hne : authName ≠ connectorClientIdentityName := by
      rintro rfl
      exact hauth hprivate
    rw [hsent, sentValues, if_neg fun h => hne h.1, if_pos rfl]
  · cases hforward : m.route.forwardClientIdentityHeader with
    | true =>
        rw [hsent, sentValues, if_pos ⟨rfl, hforward⟩]
        rfl
    | false =>
        rw [hsent, sentValues_of_private hfilter hauth hprivate (Or.inr hforward)]
        rfl
  · intro name hname hidentity
    rw [hsent, sentValues_of_private hfilter hauth hname (Or.inl hidentity)]
  · intro name hname hother
    rw [hsent, sentValues_of_other hfilter hname hother]

/-- The headers of one request that is forwarded, with where they come from. -/
theorem unforged_of_forwarded (hfilter : Stripping N)
    (hprivate : ∀ upstream ∈ state.config.upstream, ∀ name,
      headerNameFromBytes upstream.authHeaderName = some name → ¬ privatePrefix <+: name)
    {memory : Memory} {readings : Readings} {query : Option Str} {requestId : Str}
    {call : UpstreamRequest}
    (hcall : (handleServer N P H D state memory readings request path query requestId).1.call =
      some call) :
    ∃ identity m upstream authName var secret,
      verifiedIdentity P H state request = some identity ∧
      findServerRoute state.config.routes request.method path identity = .ok m ∧
      state.config.upstream = some upstream ∧
      headerNameFromBytes upstream.authHeaderName = some authName ∧
      upstreamAuthEnv upstream m.route = some var ∧ H.envVar var = some secret ∧
      Unforged authName (credential upstream secret)
        (if m.route.forwardClientIdentityHeader then some identity else none) call.headers := by
  obtain ⟨identity, m, purpose, hadmission, -, -, hrequest⟩ := handleServer_served.gates hcall
  obtain ⟨-, upstream, hupstream, authValue, authName, hauth, hname, hsent⟩ :=
    serverRequest_eq_ok hrequest
  obtain ⟨upstream', hupstream', var, hvar, secret, hsecret, -, rfl⟩ :=
    upstreamAuthHeader_eq_ok hauth
  obtain rfl := Option.mem_unique hupstream hupstream'
  exact ⟨identity.value, m, upstream, authName, var, secret,
    verifiedIdentity_of_admitted hadmission, (serverAdmission_eq_ok hadmission).2.2, hupstream,
    hname, Option.or_eq_some_iff.2 hvar, hsecret,
    unforged_of_sentValues hfilter (hprivate upstream hupstream authName hname) hsent⟩

/-- **Callers cannot forge the credential or the identity.**  Of two requests for one path, with one
method and one verified identity, that a server started from an accepted configuration forwards: both
carry the configured credential alone under its name, the verified identity exactly if the route asks
for it, and no other private header.  So they agree under all guarded names, whatever the callers
sent. -/
theorem forwarded_unforged (hfilter : Stripping N)
    (haccepted : validateConfig P H₀ config .server requireEnv = .ok ())
    (hstart : ProxyState.server P H₁ config = .ok state) (henv : H.envVar = H'.envVar)
    {memory memory' : Memory} {readings readings' : Readings} {query query' : Option Str}
    {requestId requestId' : Str} {call call' : UpstreamRequest}
    (hmethod : request.method = request'.method)
    (hidentity : verifiedIdentity P H state request = verifiedIdentity P H' state request')
    (hcall : (handleServer N P H D state memory readings request path query requestId).1.call =
      some call)
    (hcall' : (handleServer N P H' D state memory' readings' request' path query'
      requestId').1.call = some call') :
    ∃ identity m upstream authName var secret,
      verifiedIdentity P H state request = some identity ∧
      findServerRoute config.routes request.method path identity = .ok m ∧
      config.upstream = some upstream ∧
      headerNameFromBytes upstream.authHeaderName = some authName ∧
      upstreamAuthEnv upstream m.route = some var ∧ H.envVar var = some secret ∧
      (∀ headers ∈ [call.headers, call'.headers],
        Unforged authName (credential upstream secret)
          (if m.route.forwardClientIdentityHeader then some identity else none) headers) ∧
      ∀ name, Guarded authName name → call.headers.getAll name = call'.headers.getAll name := by
  obtain rfl := ProxyState.server_config hstart
  have hprivate := authHeaderName_not_private haccepted
  obtain ⟨identity, m, upstream, authName, var, secret, hverified, hroute, hupstream, hname, hvar,
    hsecret, hunforged⟩ := unforged_of_forwarded hfilter hprivate hcall
  obtain ⟨identity', m', upstream', authName', var', secret', hverified', hroute', hupstream',
    hname', hvar', hsecret', hunforged'⟩ := unforged_of_forwarded hfilter hprivate hcall'
  -- the two requests come from one identity, so they take one route and carry one credential
  obtain rfl : identity = identity' :=
    Option.mem_unique hverified (hidentity.trans hverified')
  obtain rfl : m = m' := by
    rw [← hmethod, hroute] at hroute'
    exact Except.ok.inj hroute'
  obtain rfl := Option.mem_unique hupstream hupstream'
  obtain rfl := Option.mem_unique hname hname'
  obtain rfl := Option.mem_unique hvar hvar'
  obtain rfl : secret = secret' := by
    rw [henv] at hsecret
    exact Option.mem_unique hsecret hsecret'
  refine ⟨identity, m, upstream, authName, var, secret, hverified, hroute, hupstream, hname, hvar,
    hsecret, ?_, fun name => hunforged.agree hunforged'⟩
  intro headers hmem
  rcases List.mem_pair.1 hmem with rfl | rfl
  · exact hunforged
  · exact hunforged'

end

section

open Sample

/-- The sample platform drops what only the connector may set. -/
theorem Sample.stripping_platform : Stripping platform := by
  intro headers name hname
  show (filterRequest headers { privatePrefix := some privatePrefix }).getAll name = []
  rw [getAll_filterRequest, if_pos]
  rcases hname with h | h | h <;> simp [h]

/-- A caller that sends a credential, a cookie and an identity of its own. -/
def Sample.forger : Request :=
  { clientOfAlpha with
    headers := ((∅ : HeaderMap).insert (str "authorization") (str "Bearer forged")).insert
      (str "cookie") (str "session=1") |>.insert connectorClientIdentityName (str "admin") }

/-- The upstream cannot tell the forger from an honest caller. -/
theorem forwarded_unforged_alpha :
    ∃ call call',
      (handleServer platform uriPki host pdp serverState Memory.start ⟨0, none, none⟩ forger
        (str "/v1/items") none (str "id")).1.call = some call ∧
      (handleServer platform uriPki host pdp serverState Memory.start ⟨0, none, none⟩ clientOfAlpha
        (str "/v1/items") none (str "id")).1.call = some call' ∧
      ∀ name ∈ [str "authorization", str "cookie", connectorClientIdentityName],
        call.headers.getAll name = call'.headers.getAll name := by
  have haccepted : validateConfig uriPki host (bothModes (str "/v1")) .server true = .ok () := rfl
  have hstart : ProxyState.server uriPki host (bothModes (str "/v1")) = .ok serverState := rfl
  have hforwarded : ∀ request ∈ [forger, clientOfAlpha],
      (handleServer platform uriPki host pdp serverState Memory.start ⟨0, none, none⟩ request
        (str "/v1/items") none (str "id")).1.call.isSome = true := by decide +kernel
  obtain ⟨call, hcall⟩ := Option.isSome_iff_exists.1 (hforwarded forger (by simp))
  obtain ⟨call', hcall'⟩ := Option.isSome_iff_exists.1 (hforwarded clientOfAlpha (by simp))
  have hmethod : forger.method = clientOfAlpha.method := rfl
  have hidentity : verifiedIdentity uriPki host serverState forger =
      verifiedIdentity uriPki host serverState clientOfAlpha := rfl
  obtain ⟨_, _, _, authName, _, _, -, -, -, -, -, -, -, hagree⟩ :=
    forwarded_unforged stripping_platform haccepted hstart rfl hmethod hidentity hcall hcall'
  refine ⟨call, call', hcall, hcall', fun name hname => hagree name (Or.inr ?_)⟩
  simp only [List.mem_cons, List.not_mem_nil, or_false] at hname
  rcases hname with rfl | rfl | rfl
  · exact Or.inl rfl
  · exact Or.inr (Or.inl rfl)
  · exact Or.inr (Or.inr private_connectorClientIdentityName)

end

end TrustConnector
