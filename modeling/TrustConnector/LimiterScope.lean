/-
**What the rate limiter holds.**

The windows of the rate limiter are never removed.  That they stay few rests on the order of the
gates: the limiter is asked only after the identity, the route and the purpose have been settled, and
under a key that is made of an entry of the allowlist and the id of a route.

Main definitions:

* `ConnectorProblem.isRefusal` — the problems of the gates before the limiter;
* `Scoped` — windows whose keys are all made of an entry of the allowlist and of a route.

Main results:

* `Served.windows_of_refusal` — a request that is refused before the limiter leaves its windows;
* `Reachable.scoped` — the windows are scoped in every reachable memory;
* `limiter_scope` — **only authorised requests touch the limiter**, so it holds at most one window
  for each entry of the allowlist and each route.
-/

import TrustConnector.Proxy

set_option relaxedAutoImplicit false
set_option autoImplicit false

namespace TrustConnector

open Text Fallible Http

/-! ### The problems of the gates -/

/-- The problems in which a request ends at the identity, the route or the purpose. -/
def ConnectorProblem.isRefusal : ConnectorProblem → Bool
  | .clientIdentityMissing | .clientIdentityDenied | .routeDenied | .purposeRequired
  | .purposeDenied | .pdpDenied _ => true
  | .configInvalid | .upstreamAuthMissing | .upstreamUnavailable | .bodyTooLarge
  | .requestTimeout | .rateLimited => false

/-- The problem is not one of the gates before the limiter. -/
def Late (problem : ConnectorProblem) : Prop := problem.isRefusal = false

section

variable {N : Platform} {P : Pki} {H : Host} {D : Pdp} {state : ProxyState} {memory : Memory}
  {readings : Readings} {request : Request} {path : Str} {query : Option Str} {requestId : Str}
  {identity : PeerIdentity} {m : RouteMatch} {purpose : Option Str}

theorem okOr_late {α : Type} (problem : ConnectorProblem) (h : problem.isRefusal = false)
    (o : Option α) : FailsIn Late (okOr problem o) := FailsIn.okOr (S := Late) h o

theorem headerValue_late (value : Str) : FailsIn Late (headerValue value) :=
  okOr_late .configInvalid rfl _

theorem insertOptional_late (headers : HeaderMap) (name : Str) (value : Option Str) :
    FailsIn Late (insertOptional headers name value) := by
  cases value with
  | none => exact FailsIn.ok headers
  | some value => exact FailsIn.map (headerValue_late value) _

theorem upstreamAuthHeader_late (config : ConnectorConfig) (m : RouteMatch) :
    FailsIn Late (upstreamAuthHeader H config m) := by
  refine FailsIn.chain (okOr_late .configInvalid rfl _) fun upstream => ?_
  refine FailsIn.chain (okOr_late .upstreamAuthMissing rfl _) fun var => ?_
  exact FailsIn.chain (okOr_late .upstreamAuthMissing rfl _) fun secret => headerValue_late _

/-- The request that is sent on fails for other reasons than the gates before the limiter. -/
theorem serverRequest_late :
    FailsIn Late (serverRequest N H state request identity m purpose query requestId) := by
  refine FailsIn.chain (okOr_late .bodyTooLarge rfl _) fun body => ?_
  refine FailsIn.chain (okOr_late .configInvalid rfl _) fun upstream => ?_
  refine FailsIn.chain (okOr_late .configInvalid rfl _) fun url => ?_
  refine FailsIn.chain (insertOptional_late _ _ _) fun headers => ?_
  refine FailsIn.chain (headerValue_late _) fun id => ?_
  refine FailsIn.chain (upstreamAuthHeader_late _ _) fun authValue => ?_
  refine FailsIn.chain (okOr_late .configInvalid rfl _) fun authName => ?_
  refine FailsIn.chain (insertOptional_late _ _ _) fun headers => ?_
  exact FailsIn.chain (okOr_late .configInvalid rfl _) fun hasher => FailsIn.ok _

theorem sendUpstream_late (call : UpstreamRequest) (maxBytes : ℕ) :
    FailsIn Late (sendUpstream N call maxBytes) := by
  refine FailsIn.chain (okOr_late .configInvalid rfl _) fun method => ?_
  refine FailsIn.chain (okOr_late .upstreamUnavailable rfl _) fun reply => ?_
  refine FailsIn.chain (okOr_late .upstreamUnavailable rfl _) fun status => ?_
  exact FailsIn.chain (okOr_late .upstreamUnavailable rfl _) fun body => FailsIn.ok _

theorem check_late (windows : RequestRateLimiter) (now : ℕ) (identity routeId : Str)
    (limit : UInt32) : FailsIn Late (windows.check now identity routeId limit).1 := by
  intro problem h
  rw [check_eq_error h]
  rfl

/-- **A request that is refused before the limiter leaves its windows as they were.** -/
theorem Served.windows_of_refusal {out : Handled × Memory}
    (h : Served N P H D state memory readings request path query requestId out)
    {problem : ConnectorProblem} (hresult : out.1.result = .error problem)
    (hrefusal : problem.isRefusal = true) : out.2.windows = memory.windows := by
  have hlate : ¬ Late problem := by
    intro hlate
    exact Bool.false_ne_true (hlate.symm.trans hrefusal)
  cases h with
  | notAdmitted => rfl
  | notAuthorized => rfl
  | limited _ _ hlimit =>
      obtain rfl := Except.error.inj hresult
      exact absurd (check_late _ _ _ _ _ _ hlimit) hlate
  | notSent _ _ _ hrequest =>
      obtain rfl := Except.error.inj hresult
      exact absurd (serverRequest_late _ hrequest) hlate
  | forwarded => exact absurd (sendUpstream_late _ _ _ hresult) hlate

end

/-! ### The keys of the windows -/

/-- Every key is made of an entry of the allowlist, trimmed, and the id of a route. -/
def Scoped (config : ConnectorConfig) (windows : RequestRateLimiter) : Prop :=
  ∀ key ∈ windows.keys, ∃ clientTrust ∈ config.clientTrust,
    ∃ entry ∈ clientTrust.allowedIdentities, ∃ route ∈ config.routes,
      key = rateKey (trim entry) route.id

section

variable {N : Platform} {P : Pki} {H : Host} {D : Pdp} {state : ProxyState} {memory : Memory}
  {readings : Readings} {request : Request} {path : Str} {query : Option Str} {requestId : Str}

/-- A request that passes the first gates asks the limiter under a key of an entry and a route. -/
theorem scoped_limiting {identity : PeerIdentity} {m : RouteMatch}
    (hadmission : serverAdmission P H state request path = .ok (identity, m))
    (h : Scoped state.config memory.windows) :
    Scoped state.config (limiting state memory readings identity m).2 := by
  obtain ⟨-, ⟨clientTrust, htrust, entry, hentry, hvalue⟩, hroute⟩ :=
    serverAdmission_eq_ok hadmission
  have hmem := (findServerRoute_eq_ok hroute).2.1
  intro key hkey
  simp only [limiting, RequestRateLimiter.check, ← AList.mem_keys, AList.mem_insert] at hkey
  rcases hkey with rfl | hold
  · exact ⟨clientTrust, htrust, entry, hentry, m.route, hmem, by rw [hvalue]⟩
  · exact h key (AList.mem_keys.1 hold)

/-- A request leaves scoped windows, whichever gate stops it. -/
theorem Served.scoped {out : Handled × Memory}
    (h : Served N P H D state memory readings request path query requestId out)
    (hscoped : Scoped state.config memory.windows) : Scoped state.config out.2.windows := by
  cases h with
  | notAdmitted => exact hscoped
  | notAuthorized => exact hscoped
  | limited hadmission => exact scoped_limiting hadmission hscoped
  | notSent hadmission => exact scoped_limiting hadmission hscoped
  | forwarded hadmission => exact scoped_limiting hadmission hscoped

/-- **The windows are scoped in every reachable memory.** -/
theorem Reachable.scoped (h : Reachable N P D state memory) :
    Scoped state.config memory.windows := by
  induction h with
  | start => exact fun key hkey => nomatch hkey
  | step H readings request path query requestId _ ih => exact handleServer_served.scoped ih

/-- Scoped windows are at most as many as there are pairs of an entry and a route. -/
theorem Scoped.length_le {config : ConnectorConfig} {clientTrust : ClientTrustConfig}
    {windows : RequestRateLimiter} (h : Scoped config windows)
    (htrust : config.clientTrust = some clientTrust) :
    windows.keys.length ≤ clientTrust.allowedIdentities.length * config.routes.length := by
  have hsubset : windows.keys ⊆ (clientTrust.allowedIdentities ×ˢ config.routes).map
      fun pair => rateKey (trim pair.1) pair.2.id := by
    intro key hkey
    obtain ⟨clientTrust', htrust', entry, hentry, route, hroute, rfl⟩ := h key hkey
    obtain rfl : clientTrust = clientTrust' := Option.some.inj (htrust.symm.trans htrust')
    exact List.mem_map.2 ⟨(entry, route), List.mem_product.2 ⟨hentry, hroute⟩, rfl⟩
  calc windows.keys.length
      ≤ ((clientTrust.allowedIdentities ×ˢ config.routes).map
          fun pair => rateKey (trim pair.1) pair.2.id).length :=
        (List.subperm_of_subset windows.keys_nodup hsubset).length_le
    _ = clientTrust.allowedIdentities.length * config.routes.length := by
        rw [List.length_map, List.length_product]

end

/-- **Only authorised requests touch the limiter.**  In every reachable memory of a server connector
that was started from an accepted configuration, a request that is refused at the identity, the route
or the purpose leaves the windows as they were; every key is made of an entry of the allowlist and a
route; and there are at most as many windows as there are such pairs. -/
theorem limiter_scope {N : Platform} {P : Pki} {D : Pdp} {H₀ H₁ : Host} {config : ConnectorConfig}
    {requireEnv : Bool} {state : ProxyState} {memory : Memory}
    (haccepted : validateConfig P H₀ config .server requireEnv = .ok ())
    (hstart : ProxyState.server P H₁ config = .ok state)
    (hreachable : Reachable N P D state memory) :
    (∀ (H : Host) (readings : Readings) (request : Request) (path : Str) (query : Option Str)
        (requestId : Str) (problem : ConnectorProblem),
        (handleServer N P H D state memory readings request path query requestId).1.result =
          .error problem → problem.isRefusal = true →
        (handleServer N P H D state memory readings request path query requestId).2.windows =
          memory.windows) ∧
      ∃ clientTrust, config.clientTrust = some clientTrust ∧
        (∀ key ∈ memory.windows.keys, ∃ entry ∈ clientTrust.allowedIdentities,
          ∃ route ∈ config.routes, key = rateKey (trim entry) route.id) ∧
        memory.windows.keys.length ≤
          clientTrust.allowedIdentities.length * config.routes.length := by
  have hscoped := hreachable.scoped
  rw [ProxyState.server_config hstart] at hscoped
  obtain ⟨clientTrust, -, htrust, -⟩ := validateConfig_server haccepted
  constructor
  · intro H readings request path query requestId problem hresult hrefusal
    exact handleServer_served.windows_of_refusal hresult hrefusal
  · refine ⟨clientTrust, htrust, ?_, hscoped.length_le htrust⟩
    intro key hkey
    obtain ⟨clientTrust', htrust', entry, hentry, route, hroute, hkey⟩ := hscoped key hkey
    obtain rfl : clientTrust = clientTrust' := Option.some.inj (htrust.symm.trans htrust')
    exact ⟨entry, hentry, route, hroute, hkey⟩

section

open Sample

/-- After one request of the client of `alpha`, and one without a certificate: one window. -/
theorem limiter_scope_alpha :
    ∃ memory, Reachable platform uriPki pdp serverState memory ∧ memory.windows.keys.length = 1 ∧
      (handleServer platform uriPki host pdp serverState memory ⟨0, none, none⟩
          { clientOfAlpha with chain := none } (str "/v1/items") none (str "id")).2.windows =
        memory.windows ∧
      memory.windows.keys.length ≤ 1 * 1 := by
  have haccepted : validateConfig uriPki host (bothModes (str "/v1")) .server true = .ok () := rfl
  have hstart : ProxyState.server uriPki host (bothModes (str "/v1")) = .ok serverState := rfl
  have hnew : Reachable platform uriPki pdp serverState Memory.start := Reachable.start
  have hreachable := hnew.step host ⟨0, none, none⟩ clientOfAlpha (str "/v1/items") none (str "id")
  obtain ⟨hrefused, clientTrust, htrust, -, hlength⟩ := limiter_scope haccepted hstart hreachable
  obtain rfl := Option.some.inj htrust
  refine ⟨_, hreachable, by decide +kernel, ?_, hlength⟩
  exact hrefused host ⟨0, none, none⟩ _ _ _ _ .clientIdentityMissing rfl rfl

end

end TrustConnector
