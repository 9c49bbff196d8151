/-
**The header policy of a route, in both modes.**

A route may allow a caller's `Authorization` and `Cookie` headers to be passed on.  Both connectors
hand a policy to the same filter, but each builds the policy by itself: the client connector from the
route, the server connector without looking at it.  So the flags of a route have no effect in server
mode.

Main definitions:

* `connectionOptions` — the headers that a caller names in `Connection`;
* `Honours` — a filter that does what its policy says;
* `FollowsFlag` — a header of the caller is passed on exactly if the route allows it.

Main results:

* `header_policy_iff` — **the client connector follows the flags; for which requests the server
  connector does**.
-/

import TrustConnector.ClientHeaders
import TrustConnector.ServerHeaders

set_option relaxedAutoImplicit false
set_option autoImplicit false

namespace TrustConnector

open Text Fallible Http

/-! ### What a policy says -/

/-- The names that a caller lists in its `Connection` headers. -/
def connectionOptions (headers : HeaderMap) : List Str :=
  (headers.getAll (str "connection")).flatMap fun value =>
    (value.splitOn comma).map fun option => toAsciiLowercase (trimBy isOptionalSpace option)

/-- A header may pass: it is allowed, and the caller does not name it in `Connection`. -/
def MayPass (headers : HeaderMap) (name : Str) (allowed : Bool) : Prop :=
  allowed = true ∧ name ∉ connectionOptions headers

instance (headers : HeaderMap) (name : Str) (allowed : Bool) :
    Decidable (MayPass headers name allowed) :=
  inferInstanceAs (Decidable (_ ∧ _))

theorem not_mayPass_false {headers : HeaderMap} {name : Str} : ¬ MayPass headers name false :=
  fun h => Bool.false_ne_true h.1

/-- **A filter that does what its policy says** about the two headers. -/
structure Honours (N : Platform) : Prop where
  authorization : ∀ headers policy, policy.privatePrefix = some privatePrefix →
    (N.filterProxyRequestHeaders headers policy).getAll (str "authorization") =
      if MayPass headers (str "authorization") policy.allowAuthorization then
        headers.getAll (str "authorization")
      else []
  cookie : ∀ headers policy, policy.privatePrefix = some privatePrefix →
    (N.filterProxyRequestHeaders headers policy).getAll (str "cookie") =
      if MayPass headers (str "cookie") policy.allowCookie then headers.getAll (str "cookie") else []

/-- **A header of the caller is passed on exactly if it may pass**, each of its values. -/
def FollowsFlag (received sent : HeaderMap) (name : Str) (allowed : Bool) : Prop :=
  ∀ value ∈ received.getAll name, (value ∈ sent.getAll name ↔ MayPass received name allowed)

theorem followsFlag_of_filtered {received sent : HeaderMap} {name : Str} {allowed : Bool}
    (h : sent.getAll name =
      if MayPass received name allowed then received.getAll name else []) :
    FollowsFlag received sent name allowed := by
  intro value hvalue
  rw [h]
  split_ifs with hpass
  · exact iff_of_true hvalue hpass
  · exact iff_of_false List.not_mem_nil hpass

/-- Where nothing is passed on, the flag is followed if there is nothing that may pass. -/
theorem followsFlag_of_nothing {received sent : HeaderMap} {name : Str} {allowed : Bool}
    (h : sent.getAll name = []) :
    FollowsFlag received sent name allowed ↔
      ¬ (received.getAll name ≠ [] ∧ MayPass received name allowed) := by
  constructor
  · rintro hfollows ⟨hreceived, hpass⟩
    obtain ⟨value, hvalue⟩ := List.exists_mem_of_ne_nil _ hreceived
    have hsent := (hfollows value hvalue).2 hpass
    rw [h] at hsent
    exact List.not_mem_nil hsent
  · intro hnothing value hvalue
    rw [h]
    refine iff_of_false List.not_mem_nil fun hpass => hnothing ⟨?_, hpass⟩
    exact List.ne_nil_of_mem hvalue

/-! ### The two connectors -/

section

variable {N : Platform} {config : ConnectorConfig} {request : Request} {m : RouteMatch}
  {purpose : Option Str}

/-- What the client connector inserts nothing under is as the filter leaves it. -/
theorem clientValues_eq_filtered {id name : Str}
    (hname : name ∉ [dataPurpose, connectorIdName, connectorVersionName, requestIdName]) :
    clientValues N config request m purpose id name =
      (filteredHeaders N request.headers m).getAll name := by
  simp only [List.mem_cons, List.not_mem_nil, or_false, not_or] at hname
  obtain ⟨hpurpose, hconnector, hversion, hid⟩ := hname
  rw [clientValues, if_neg fun h => hpurpose h.1, if_neg fun h => hconnector h.1, if_neg hversion,
    if_neg hid]

/-- Under `Cookie` the server connector sends its credential, or nothing. -/
theorem sentValues_cookie (hfilter : Honours N) {identity : PeerIdentity}
    {requestId authName authValue : Str} :
    sentValues N request identity m purpose requestId authName authValue (str "cookie") =
      if authName = str "cookie" then [authValue] else [] := by
  by_cases hauth : authName = str "cookie"
  · have hidentity : str "cookie" ≠ connectorClientIdentityName := by decide +kernel
    rw [sentValues, if_neg fun h => hidentity h.1, if_pos hauth.symm, if_pos hauth]
  · rw [sentValues_eq_filtered_of_credential (Or.inr rfl) (Ne.symm hauth), hfilter.cookie _ _ rfl,
      if_neg not_mayPass_false, if_neg hauth]

end

/-- **The client connector follows the flags of its routes, and the server connector does not.**  A
request that the client connector forwards has the caller's `Cookie` and `Authorization` exactly if
they may pass.  Of a request that the server connector forwards, this can be said exactly if the
caller sends no `Authorization` that may pass, and each value of its `Cookie` may pass exactly if it
is the credential that the operator has configured under that name. -/
theorem header_policy_iff {N : Platform} (hfilter : Honours N) :
    (∀ (config : ConnectorConfig) (request : Request) (path : Str) (query : Option Str)
        (requestId : Str) (call : UpstreamRequest),
        (handleClient N config request path query requestId).call = some call →
        ∃ m, findClientRoute config.routes request.method path = .ok m ∧
          FollowsFlag request.headers call.headers (str "cookie") m.route.allowForwardCookie ∧
          FollowsFlag request.headers call.headers (str "authorization")
            m.route.allowForwardAuthorization) ∧
      ∀ (P : Pki) (H : Host) (D : Pdp) (state : ProxyState) (memory : Memory) (readings : Readings)
        (request : Request) (path : Str) (query : Option Str) (requestId : Str)
        (call : UpstreamRequest),
        (handleServer N P H D state memory readings request path query requestId).1.call =
          some call →
        ∃ identity m upstream authName authValue,
          serverAdmission P H state request path = .ok (identity, m) ∧
          state.config.upstream = some upstream ∧
          headerNameFromBytes upstream.authHeaderName = some authName ∧
          upstreamAuthHeader H state.config m = .ok authValue ∧
          ((FollowsFlag request.headers call.headers (str "cookie") m.route.allowForwardCookie ∧
              FollowsFlag request.headers
                (N.filterProxyRequestHeaders request.headers
                  { privatePrefix := some privatePrefix })
                (str "authorization") m.route.allowForwardAuthorization) ↔
            (∀ value ∈ request.headers.getAll (str "cookie"),
              (authName = str "cookie" ∧ value = authValue ↔
                MayPass request.headers (str "cookie") m.route.allowForwardCookie)) ∧
            ¬ (request.headers.getAll (str "authorization") ≠ [] ∧
              MayPass request.headers (str "authorization") m.route.allowForwardAuthorization)) := by
  constructor
  · intro config request path query requestId call hcall
    obtain ⟨m, purpose, -, hroute, -, -, -, -, -, hheaders⟩ :=
      clientRequest_eq_ok (clientRequest_of_call hcall)
    refine ⟨m, hroute, followsFlag_of_filtered ?_, followsFlag_of_filtered ?_⟩
    · rw [hheaders, clientValues_eq_filtered (by decide +kernel)]
      exact hfilter.cookie _ _ rfl
    · rw [hheaders, clientValues_eq_filtered (by decide +kernel)]
      exact hfilter.authorization _ _ rfl
  · intro P H D state memory readings request path query requestId call hcall
    obtain ⟨identity, m, purpose, hadmission, -, -, hrequest⟩ := handleServer_served.gates hcall
    obtain ⟨-, upstream, hupstream, authValue, authName, hvalue, hname, hsent⟩ :=
      serverRequest_eq_ok hrequest
    refine ⟨identity, m, upstream, authName, authValue, hadmission, hupstream, hname, hvalue, ?_⟩
    have hdropped : (N.filterProxyRequestHeaders request.headers
        { privatePrefix := some privatePrefix }).getAll (str "authorization") = [] := by
      rw [hfilter.authorization _ _ rfl, if_neg not_mayPass_false]
    refine and_congr ?_ (followsFlag_of_nothing hdropped)
    refine forall₂_congr fun value hvalue => ?_
    rw [hsent, sentValues_cookie hfilter]
    by_cases hauth : authName = str "cookie"
    · simp [hauth]
    · simp [hauth]

section

open Sample

/-- The sample filter, which also drops what the caller names in `Connection`. -/
def Sample.filterNamed (headers : HeaderMap) (policy : ProxyHeaderPolicy) : HeaderMap :=
  (∅ : HeaderMap).appendAll <| (filterRequest headers policy).iter.filter fun header =>
    decide (header.1 ∉ connectionOptions headers)

/-- The sample platform with that filter. -/
def Sample.honouring : Platform := { platform with filterProxyRequestHeaders := filterNamed }

theorem Sample.getAll_filterNamed (headers : HeaderMap) (policy : ProxyHeaderPolicy) (name : Str) :
    (filterNamed headers policy).getAll name =
      if name ∉ connectionOptions headers then (filterRequest headers policy).getAll name
      else [] := by
  have hkept := MultiMap.getAll_appendAll_filter
    (fun name : Str => decide (name ∉ connectionOptions headers)) (filterRequest headers policy) name
  rw [filterNamed, hkept]
  simp only [decide_eq_true_eq]

/-- Of a header that is not dropped anyway, the flag decides. -/
theorem Sample.getAll_filterNamed_plain {headers : HeaderMap} {policy : ProxyHeaderPolicy}
    {name : Str} {allowed : Bool} (hpolicy : policy.privatePrefix = some privatePrefix)
    (hplain : isHopByHopHeader name = false ∧ ¬ privatePrefix <+: name)
    (hallowed : (name = str "authorization" && !policy.allowAuthorization ||
      name = str "cookie" && !policy.allowCookie) = !allowed) :
    (filterNamed headers policy).getAll name =
      if MayPass headers name allowed then headers.getAll name else [] := by
  obtain ⟨hhop, hprivate⟩ := hplain
  rw [getAll_filterNamed, getAll_filterRequest, hpolicy, hhop, Bool.false_or, hallowed]
  by_cases hnamed : name ∈ connectionOptions headers
  · simp [MayPass, hnamed]
  · cases allowed <;> simp [MayPass, hnamed, hprivate]

theorem Sample.honours_honouring : Honours honouring where
  authorization headers policy hpolicy := by
    refine getAll_filterNamed_plain hpolicy (by decide +kernel) ?_
    have hcookie : str "authorization" ≠ str "cookie" := by decide +kernel
    simp [hcookie]
  cookie headers policy hpolicy := by
    refine getAll_filterNamed_plain hpolicy (by decide +kernel) ?_
    have hauthorization : str "cookie" ≠ str "authorization" := by decide +kernel
    simp [hauthorization]

/-- The sample configuration, with a route that lets both headers pass. -/
def Sample.permissive : ConnectorConfig :=
  { bothModes (str "/v1") with
    routes :=
      [{ route (str "/v1") with allowForwardAuthorization := true, allowForwardCookie := true }] }

/-- In client mode the cookie of the caller passes where the route lets it; in server mode there is
nothing to object to where the route does not let it pass. -/
theorem header_policy_iff_permissive :
    (∃ call m, (handleClient honouring permissive forger (str "/v1/items") none (str "id")).call =
        some call ∧
      findClientRoute permissive.routes forger.method (str "/v1/items") = .ok m ∧
      FollowsFlag forger.headers call.headers (str "cookie") m.route.allowForwardCookie) ∧
    forger.headers.getAll (str "cookie") = [str "session=1"] ∧
    ∃ call identity m,
      (handleServer honouring uriPki host pdp serverState Memory.start ⟨0, none, none⟩
        forger (str "/v1/items") none (str "id")).1.call = some call ∧
      serverAdmission uriPki host serverState forger (str "/v1/items") = .ok (identity, m) ∧
      FollowsFlag forger.headers call.headers (str "cookie") m.route.allowForwardCookie := by
  have hclient : (handleClient honouring permissive forger (str "/v1/items") none
      (str "id")).call.isSome = true := by decide +kernel
  have hserver : (handleServer honouring uriPki host pdp serverState Memory.start
      ⟨0, none, none⟩ forger (str "/v1/items") none (str "id")).1.call.isSome = true := by
    decide +kernel
  obtain ⟨call, hcall⟩ := Option.isSome_iff_exists.1 hclient
  obtain ⟨call', hcall'⟩ := Option.isSome_iff_exists.1 hserver
  obtain ⟨m, hroute, hcookie, -⟩ := (header_policy_iff honours_honouring).1 _ _ _ _ _ _ hcall
  obtain ⟨identity, m', upstream, authName, _, hadmission, hupstream, hname, -, hiff⟩ :=
    (header_policy_iff honours_honouring).2 _ _ _ _ _ _ _ _ _ _ _ hcall'
  -- the route of the sample passes neither header, and the credential is no cookie
  have hflags := route_of_admission hadmission
  obtain rfl := Option.some.inj hupstream
  obtain rfl : str "authorization" = authName :=
    Option.some.inj (Eq.trans (by decide +kernel) hname)
  refine ⟨⟨call, m, hcall, hroute, hcookie⟩, by decide +kernel, call', identity, m', hcall',
    hadmission, (hiff.2 ⟨fun value _ => ?_, fun h => ?_⟩).1⟩
  · rw [hflags]
    exact iff_of_false (fun h => absurd h.1 (by decide +kernel)) not_mayPass_false
  · rw [hflags] at h
    exact not_mayPass_false h.2

/-- **In server mode the flags of a route have no effect.**  The configuration is accepted, its route
lets both headers pass, and the caller names neither of them in `Connection`: the client connector
passes both on, and the server connector drops them. -/
theorem header_policy_ignored :
    Honours honouring ∧
      validateConfig uriPki host permissive .server true = .ok () ∧
      ProxyState.server uriPki host permissive = .ok (started permissive) ∧
      MayPass forger.headers (str "cookie") true ∧
      MayPass forger.headers (str "authorization") true ∧
      ((handleClient honouring permissive forger (str "/v1/items") none (str "id")).call.map
        fun call => (call.headers.getAll (str "cookie"),
          call.headers.getAll (str "authorization"))) =
        some ([str "session=1"], [str "Bearer forged"]) ∧
      ((handleServer honouring uriPki host pdp (started permissive) Memory.start ⟨0, none, none⟩
        forger (str "/v1/items") none (str "id")).1.call.map
        fun call => call.headers.getAll (str "cookie")) = some [] ∧
      (filterNamed forger.headers { privatePrefix := some privatePrefix }).getAll
        (str "authorization") = [] := by
  refine ⟨honours_honouring, rfl, rfl, ?_, ?_, ?_, ?_, ?_⟩
  · decide +kernel
  · decide +kernel
  · decide +kernel
  · decide +kernel
  · decide +kernel

end

end TrustConnector
