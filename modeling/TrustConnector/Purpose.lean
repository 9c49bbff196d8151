/-
**Purposes, and the policy decision.**

A request declares the purpose of its data access in a header.  The client connector settles which
purpose is sent; the server connector asks a policy decision point whether the route permits it.
The decision point is outside the connector: it is any function of the context and the policy that
it is given.

Main definitions:

* `resolveClientPurpose` — the purpose that the client connector sends;
* `PolicyGate`, `PdpPolicyInput`, `PdpDecision`, `Pdp` — the decision point, as the connector sees it;
* `authorizeServerPurpose` — the decision on a request;
* `Unconstrained`, `purposeLists` — what a route says about purposes.

Main results:

* `authorizeServerPurpose_sound` — **a purpose is let through only if it is the only one of the
  request and permitted on exactly the lists of the route**;
* `authorizeServerPurpose_of_no_peer` — for a client without grants, the asserting headers do not
  change the decision;
* `trusted_exactly_when_granted` — **trust assertions reach the decision point exactly when they are
  granted**, and do not change the decision for a client without an entitlement.
-/

import TrustConnector.PolicyHash
import TrustConnector.TrustContext

set_option relaxedAutoImplicit false
set_option autoImplicit false

namespace TrustConnector

open Text Fallible Http

/-! ### The purpose of a request -/

def dataPurpose : Str := str "data-purpose"

/-- The purpose that a client gives, if it can be read and is not blank. -/
def providedPurpose (headers : HeaderMap) : Option Str :=
  ((headers.get dataPurpose).bind toStr).filter fun value => !isBlank value

/-- The purpose that the client connector sends. -/
def resolveClientPurpose (config : ConnectorConfig) (m : RouteMatch) (headers : HeaderMap) :
    Except ConnectorProblem (Option Str) :=
  if m.route.requirePurpose then
    match m.route.purposeSource.getD .deniedMissing with
    -- the caller's header is not consulted, even if it names a purpose
    | .staticRouteDefault =>
        okOr .purposeRequired
          ((config.defaults.dataPurpose.filter fun value => !isBlank value).map some)
    | .clientProvided => okOr .purposeRequired ((providedPurpose headers).map some)
    | .deniedMissing => .error .purposeRequired
  else .ok (providedPurpose headers)

/-- The one purpose of a request: several that can be read and are not blank are refused. -/
def singleDataPurpose (headers : HeaderMap) : Except ConnectorProblem (Option Str) :=
  let values := (headers.getAll dataPurpose).filterMap fun value =>
    ((toStr value).map trim).filter fun value => !value.isEmpty
  match values with
  | [] => .ok none
  | [first] => .ok (some first)
  | _ :: _ :: _ => .error .purposeDenied

/-- The purposes of a request that can be read and are not blank. -/
def readablePurposes (headers : HeaderMap) : List Str :=
  (headers.getAll dataPurpose).filter fun value => (toStr value).isSome && !isBlank value

theorem filterMap_readable (values : List Str) :
    (values.filterMap fun value => ((toStr value).map trim).filter fun value => !value.isEmpty) =
      (values.filter fun value => (toStr value).isSome && !isBlank value).map trim := by
  induction values with
  | nil => rfl
  | cons value values ih =>
      rw [List.filterMap_cons, List.filter_cons, ih]
      by_cases hread : value.all isVisibleByte = true
      · cases hblank : isBlank value with
        | true =>
            have hempty : (trim value).isEmpty = true := hblank
            simp [toStr, hread, Option.filter, hempty]
        | false =>
            have hempty : (trim value).isEmpty = false := hblank
            simp [toStr, hread, Option.filter, hempty]
      · simp [toStr, hread]

theorem singleDataPurpose_eq_none {headers : HeaderMap} :
    singleDataPurpose headers = .ok none ↔ readablePurposes headers = [] := by
  rw [singleDataPurpose, filterMap_readable, ← readablePurposes]
  rcases readablePurposes headers with - | ⟨value, - | ⟨other, rest⟩⟩ <;> simp

theorem singleDataPurpose_eq_some {headers : HeaderMap} {purpose : Str} :
    singleDataPurpose headers = .ok (some purpose) ↔
      ∃ value, readablePurposes headers = [value] ∧ trim value = purpose := by
  rw [singleDataPurpose, filterMap_readable, ← readablePurposes]
  rcases readablePurposes headers with - | ⟨value, - | ⟨other, rest⟩⟩ <;> simp

/-! ### The decision point -/

/-- The gates of a policy. -/
inductive PolicyGate where
  | policyIdentity | requestedFact | requestedDisclosure | sourceBinding | routeIdentity | purpose
  | jurisdiction | assuranceAllowedSet | minimumAssurance | sourceFreshness | legalBasisRequired
  | consentRequired | odrlTerms | redaction
  deriving DecidableEq, Repr

/-- The policy that a decision is made by.  What the connector leaves at its default in every
request is not listed, except where it is a plain value. -/
structure PdpPolicyInput where
  policyId : Str
  policyHash : Str
  ecosystemBindingId : Option Str := none
  ecosystemBindingVersion : Option Str := none
  ruleIds : List Str
  ruleIdsByGate : AList fun _ : PolicyGate => List Str
  permitUnconstrained : Bool := false
  purposeConstraints : List (List Str)
  permittedJurisdictions : List Str
  allowedAssurance : List Str
  minimumAssurance : Option Str
  maxSourceAgeSeconds : Option UInt64
  requireLegalBasis : Bool
  requireConsent : Bool
  allowedLegalBasisRefs : List Str := []
  allowedConsentRefs : List Str := []
  redactionFields : List Str
  allowedRelationships : List Str := []
  allowedRequestedFacts : List Str
  allowedRequestedDisclosures : List Str
  allowedCredentialFormats : List Str := []
  allowedSourceBindings : List Str
  allowedRouteIdentities : List Str
  requiredCheckedScopes : List Str := []
  unsupportedOdrlTerms : List Str

/-- A decision.  What it says for the log is left out. -/
inductive PdpDecision where
  | permit
  | permitWithRedaction
  | deny (stableProblemCode : Str)

/-- The policy decision point, with the codes of its problems. -/
structure Pdp where
  decide : PdpRequestContext → PdpPolicyInput → PdpDecision
  code : PdpProblem → Str

/-- The codes that are passed on. -/
def PdpProblem.all : List PdpProblem :=
  [contextRequired, purposeNotPermitted, assuranceInsufficient, evidenceStale, legalBasisRequired,
    consentRequired, jurisdictionNotPermitted, relationshipNotPermitted, requestedFactNotPermitted,
    disclosureNotPermitted, credentialFormatNotPermitted, sourceBindingNotPermitted,
    routeIdentityNotPermitted, checkedScopeRequired, unsupportedPolicyTerm, policyRequired,
    policyIdRequired, policyHashInvalid]

/-- A code that is passed on as it is, or else the code of a purpose that is not permitted. -/
def pdpProblemCode (D : Pdp) (code : Str) : Str :=
  if code ∈ PdpProblem.all.map D.code then code else D.code .purposeNotPermitted

/-- The name of a rule of a route. -/
def routeRule (routeId rule : Str) : List Str :=
  [str "trust-connector.route." ++ routeId ++ str "." ++ rule]

/-- The rules of each gate that a route and its policy close. -/
def routePdpRuleIdsByGate (route : RouteConfig)
    (governedPolicy : Option GovernedRoutePolicyConfig) :
    AList fun _ : PolicyGate => List Str :=
  let gates : List (Bool × PolicyGate × Str) :=
    -- the first five gates are closed on every route
    [(true, .policyIdentity, str "policy_identity"),
      (true, .requestedFact, str "requested_fact"),
      (true, .requestedDisclosure, str "requested_disclosure"),
      (true, .sourceBinding, str "source_binding"),
      (true, .routeIdentity, str "route_identity"),
      (!route.purposes.isEmpty ||
        governedPolicy.any fun policy => !policy.permittedPurposes.isEmpty,
        .purpose, str "purpose")] ++
    match governedPolicy with
    | none => []
    | some policy =>
        [(!policy.permittedJurisdictions.isEmpty, .jurisdiction, str "jurisdiction"),
          (!policy.allowedAssurance.isEmpty, .assuranceAllowedSet, str "assurance"),
          (policy.minimumAssurance.isSome, .minimumAssurance, str "minimum_assurance"),
          (policy.maxSourceAgeSeconds.isSome, .sourceFreshness, str "source_freshness"),
          (policy.requireLegalBasis, .legalBasisRequired, str "legal_basis"),
          (policy.requireConsent, .consentRequired, str "consent"),
          (!policy.unsupportedOdrlTerms.isEmpty, .odrlTerms, str "odrl_terms"),
          (!policy.redactionFields.isEmpty, .redaction, str "redaction")]
  gates.foldl (fun rules gate =>
    if gate.1 then rules.insert gate.2.1 (routeRule route.id gate.2.2) else rules) ∅

/-! ### The decision on a request -/

/-- The lists that a purpose must be in. -/
def purposeConstraints (route : RouteConfig) : List (List Str) :=
  (if route.purposes.isEmpty then [] else [route.purposes]) ++
    (((route.governedPolicy.map (·.permittedPurposes)).filter fun purposes =>
      !purposes.isEmpty)).toList

def sourceBinding (m : RouteMatch) : Str := str "trust-connector:" ++ m.upstreamPath

/-- The policy that the decision point is given for a route, with its hash. -/
def routePolicyInput (m : RouteMatch) (policyHash : Str) : PdpPolicyInput :=
  let governedPolicy := m.route.governedPolicy
  { policyId := str "trust-connector.route." ++ m.route.id
    policyHash := policyHash
    ruleIds := [str "route-purpose:" ++ m.route.id]
    ruleIdsByGate := routePdpRuleIdsByGate m.route governedPolicy
    purposeConstraints := purposeConstraints m.route
    permittedJurisdictions := (governedPolicy.map (·.permittedJurisdictions)).getD []
    allowedAssurance := (governedPolicy.map (·.allowedAssurance)).getD []
    minimumAssurance := governedPolicy.bind (·.minimumAssurance)
    maxSourceAgeSeconds := governedPolicy.bind (·.maxSourceAgeSeconds)
    requireLegalBasis := governedPolicy.any (·.requireLegalBasis)
    requireConsent := governedPolicy.any (·.requireConsent)
    redactionFields := (governedPolicy.map (·.redactionFields)).getD []
    allowedRequestedFacts := [sourceBinding m]
    allowedRequestedDisclosures := [str "proxy_forward"]
    allowedSourceBindings := [sourceBinding m]
    allowedRouteIdentities := [m.route.id]
    unsupportedOdrlTerms := (governedPolicy.map (·.unsupportedOdrlTerms)).getD [] }

/-- What is asked of the decision point: nothing, where the route does not govern purposes, or the
purpose and the context. -/
inductive PurposeQuestion where
  | unasked (purpose : Option Str)
  | asked (purpose : Str) (context : PdpRequestContext)
  deriving DecidableEq

section

variable (P : Pki) (D : Pdp) (clock : ClockReadings)

/-- The question that a request poses. -/
def purposeQuestion (m : RouteMatch) (headers : HeaderMap) (identity : PeerIdentity)
    (clientTrust : Option ClientTrustConfig) : Except ConnectorProblem PurposeQuestion := do
  -- several purposes are refused also where the route does not ask for one
  let purpose ← singleDataPurpose headers
  let scopes := trustedContextScopes m.route.governedPolicy clientTrust identity.value
  if m.route.purposes.isEmpty && !m.route.requirePurpose && m.route.governedPolicy.isNone then
    return .unasked purpose
  else
    let purpose ← okOr .purposeRequired purpose
    -- a purpose is required but no list says which: refused without asking
    if m.route.requirePurpose && (purposeConstraints m.route).isEmpty then
      .error .purposeDenied
    else
      let context ← requestPdpContext D.code clock purpose headers identity scopes m.route.id
        (sourceBinding m)
      return .asked purpose context

/-- What the connector makes of a decision.  A permit that asks for redaction is a denial, since
the connector cannot redact. -/
def decisionResult (purpose : Str) : PdpDecision → Except ConnectorProblem (Option Str)
  | .permit => .ok (some purpose)
  | .permitWithRedaction => .error (.pdpDenied (D.code .unsupportedPolicyTerm))
  | .deny stableProblemCode => .error (.pdpDenied (pdpProblemCode D stableProblemCode))

/-- **The decision on a request**, with the policy hash cache that it leaves. -/
def authorizeServerPurpose (cache : PolicyHashCache) (m : RouteMatch) (headers : HeaderMap)
    (identity : PeerIdentity) (clientTrust : Option ClientTrustConfig) :
    Except ConnectorProblem (Option Str) × PolicyHashCache :=
  match purposeQuestion D clock m headers identity clientTrust with
  | .error problem => (.error problem, cache)
  | .ok (.unasked purpose) => (.ok purpose, cache)
  | .ok (.asked purpose context) =>
      let (policyHash, cache) := routePurposePolicyHash P cache m
      (decisionResult D purpose (D.decide context (routePolicyInput m policyHash)), cache)

end

/-- **The cache does not show in the decision**, and stays coherent. -/
theorem authorizeServerPurpose_coherent {P : Pki} {cache : PolicyHashCache}
    (h : Coherent (policyHash P) cache) (D : Pdp) (clock : ClockReadings) (m : RouteMatch)
    (headers : HeaderMap) (identity : PeerIdentity) (clientTrust : Option ClientTrustConfig) :
    (authorizeServerPurpose P D clock cache m headers identity clientTrust).1 =
        (authorizeServerPurpose P D clock none m headers identity clientTrust).1 ∧
      Coherent (policyHash P)
        (authorizeServerPurpose P D clock cache m headers identity clientTrust).2 := by
  obtain ⟨hvalue, hcoherent⟩ := getOrCompute_coherent h (hashMaterial m.route)
  unfold authorizeServerPurpose
  cases purposeQuestion D clock m headers identity clientTrust with
  | error problem => exact ⟨rfl, h⟩
  | ok question =>
      cases question with
      | unasked purpose => exact ⟨rfl, h⟩
      | asked purpose context =>
          simp only [routePurposePolicyHash, hvalue]
          exact ⟨rfl, hcoherent⟩

/-! ### What an authorised purpose is -/

/-- A route that says nothing about purposes. -/
def Unconstrained (route : RouteConfig) : Prop :=
  route.purposes = [] ∧ route.requirePurpose = false ∧ route.governedPolicy = none

/-- The lists of purposes of a route and of its policy that are not empty. -/
def purposeLists (route : RouteConfig) : List (List Str) :=
  (route.purposes :: (route.governedPolicy.map (·.permittedPurposes)).toList).filter (· ≠ [])

theorem purposeConstraints_eq_purposeLists (route : RouteConfig) :
    purposeConstraints route = purposeLists route := by
  have hpolicy : ((route.governedPolicy.map (·.permittedPurposes)).filter fun purposes =>
      !purposes.isEmpty).toList =
        (route.governedPolicy.map (·.permittedPurposes)).toList.filter (· ≠ []) := by
    cases route.governedPolicy with
    | none => rfl
    | some policy => cases h : policy.permittedPurposes <;> simp [h, Option.filter]
  rw [purposeConstraints, purposeLists, hpolicy]
  cases route.purposes with
  | nil => rfl
  | cons p ps => rfl

theorem purposeLists_of_unconstrained {route : RouteConfig} (h : Unconstrained route) :
    purposeLists route = [] := by
  simp [purposeLists, h.1, h.2.2]

/-- A decision point that permits a purpose only if every list has it. -/
def Pdp.PermitsListed (D : Pdp) : Prop :=
  ∀ context policy, D.decide context policy = .permit →
    ∀ purposes ∈ policy.purposeConstraints, context.purpose ∈ purposes

section

variable {P : Pki} {D : Pdp} {clock : ClockReadings} {cache : PolicyHashCache} {m : RouteMatch}
  {headers : HeaderMap} {identity : PeerIdentity} {clientTrust : Option ClientTrustConfig}

theorem requestPdpContext_purpose {code : PdpProblem → Str} {purpose : Str} {scopes : List Str}
    {routeIdentity sourceBinding : Str} {context : PdpRequestContext}
    (h : requestPdpContext code clock purpose headers identity scopes routeIdentity sourceBinding =
      .ok context) : context.purpose = purpose := by
  simp only [requestPdpContext, chain_eq_ok] at h
  obtain ⟨observedAt, -, age, -, h⟩ := h
  obtain rfl := Except.ok.inj h
  rfl

/-- The questions that are reached: none is asked on a route that says nothing about purposes, and
one that is asked is about the one purpose of the request. -/
theorem purposeQuestion_cases {question : PurposeQuestion}
    (h : purposeQuestion D clock m headers identity clientTrust = .ok question) :
    (∃ purpose, question = .unasked purpose ∧ Unconstrained m.route ∧
        singleDataPurpose headers = .ok purpose) ∨
      ∃ purpose context, question = .asked purpose context ∧
        singleDataPurpose headers = .ok (some purpose) ∧ context.purpose = purpose ∧
        (m.route.requirePurpose = true → purposeLists m.route ≠ []) := by
  simp only [purposeQuestion, chain_eq_ok] at h
  obtain ⟨purpose, hpurpose, h⟩ := h
  split_ifs at h with hfree hlist
  · obtain rfl := Except.ok.inj h
    simp only [Bool.and_eq_true, List.isEmpty_iff, Bool.not_eq_true', Option.isNone_iff_eq_none]
      at hfree
    exact Or.inl ⟨purpose, rfl, ⟨hfree.1.1, hfree.1.2, hfree.2⟩, hpurpose⟩
  · simp only [chain_eq_ok] at h
    obtain ⟨-, -, h⟩ := h
    cases h
  · simp only [chain_eq_ok, okOr_eq_ok] at h
    obtain ⟨value, rfl, context, hcontext, h⟩ := h
    obtain rfl := Except.ok.inj h
    refine Or.inr ⟨value, context, rfl, hpurpose, requestPdpContext_purpose hcontext, ?_⟩
    intro hrequired hnone
    rw [← purposeConstraints_eq_purposeLists] at hnone
    exact hlist (by rw [hrequired, hnone]; rfl)

theorem decisionResult_eq_ok {purpose : Str} {decision : PdpDecision} {out : Option Str} :
    decisionResult D purpose decision = .ok out ↔ decision = .permit ∧ out = some purpose := by
  cases decision with
  | permit => simp [decisionResult, eq_comm]
  | permitWithRedaction => simp [decisionResult]
  | deny code => simp [decisionResult]

/-- What is authorised: the purpose of a request to a route that says nothing about purposes, or the
one that the decision point permitted. -/
theorem authorizeServerPurpose_eq_ok {out : Option Str}
    (h : (authorizeServerPurpose P D clock cache m headers identity clientTrust).1 = .ok out) :
    (Unconstrained m.route ∧ singleDataPurpose headers = .ok out) ∨
      ∃ purpose context, out = some purpose ∧ singleDataPurpose headers = .ok (some purpose) ∧
        context.purpose = purpose ∧ (m.route.requirePurpose = true → purposeLists m.route ≠ []) ∧
        purposeQuestion D clock m headers identity clientTrust = .ok (.asked purpose context) ∧
        D.decide context (routePolicyInput m (routePurposePolicyHash P cache m).1) = .permit := by
  unfold authorizeServerPurpose at h
  cases hquestion : purposeQuestion D clock m headers identity clientTrust with
  | error problem =>
      rw [hquestion] at h
      cases h
  | ok question =>
      rw [hquestion] at h
      obtain ⟨purpose, rfl, hfree, hpurpose⟩ | ⟨purpose, context, rfl, hpurpose, hcontext, hlists⟩ :=
        purposeQuestion_cases hquestion
      · obtain rfl := Except.ok.inj h
        exact Or.inl ⟨hfree, hpurpose⟩
      · obtain ⟨hpermit, rfl⟩ := decisionResult_eq_ok.1 h
        exact Or.inr ⟨purpose, context, rfl, hpurpose, hcontext, hlists, rfl, hpermit⟩

/-- What is authorised is the purpose of the request. -/
theorem singleDataPurpose_of_authorized {out : Option Str}
    (h : (authorizeServerPurpose P D clock cache m headers identity clientTrust).1 = .ok out) :
    singleDataPurpose headers = .ok out := by
  obtain ⟨-, hpurpose⟩ | ⟨purpose, context, rfl, hpurpose, -⟩ := authorizeServerPurpose_eq_ok h
  · exact hpurpose
  · exact hpurpose

end

/-- **The authorisation of a purpose is sound**, whatever the decision point.  No purpose is
authorised only on a route that says nothing about purposes, for a request without one; a purpose is
authorised only if it is the only one of the request, and the route says nothing about purposes or
the decision point permitted it on exactly the lists of the route.  So a decision point that permits
listed purposes only lets through none that a list lacks. -/
theorem authorizeServerPurpose_sound (P : Pki) (D : Pdp) (clock : ClockReadings)
    (cache : PolicyHashCache) (m : RouteMatch) (headers : HeaderMap) (identity : PeerIdentity)
    (clientTrust : Option ClientTrustConfig) :
    ((authorizeServerPurpose P D clock cache m headers identity clientTrust).1 = .ok none →
        Unconstrained m.route ∧ readablePurposes headers = []) ∧
      ∀ p, (authorizeServerPurpose P D clock cache m headers identity clientTrust).1 =
          .ok (some p) →
        (∃ value, readablePurposes headers = [value] ∧ trim value = p) ∧
        (Unconstrained m.route ∨
          ∃ context policy,
            purposeQuestion D clock m headers identity clientTrust = .ok (.asked p context) ∧
            policy = routePolicyInput m (routePurposePolicyHash P cache m).1 ∧
            context.purpose = p ∧ policy.purposeConstraints = purposeLists m.route ∧
            D.decide context policy = .permit) ∧
        (D.PermitsListed →
          (∀ purposes ∈ purposeLists m.route, p ∈ purposes) ∧
          (m.route.requirePurpose = true → purposeLists m.route ≠ [])) := by
  have hlists := purposeConstraints_eq_purposeLists m.route
  constructor
  · intro h
    obtain ⟨hfree, hpurpose⟩ | ⟨purpose, context, hout, -⟩ := authorizeServerPurpose_eq_ok h
    · exact ⟨hfree, singleDataPurpose_eq_none.1 hpurpose⟩
    · cases hout
  · intro p h
    obtain ⟨hfree, hpurpose⟩ | ⟨purpose, context, hout, hpurpose, hcontext, hrequired, hasked,
      hpermit⟩ := authorizeServerPurpose_eq_ok h
    · refine ⟨singleDataPurpose_eq_some.1 hpurpose, Or.inl hfree, fun _ => ⟨?_, ?_⟩⟩
      · intro purposes hmem
        rw [purposeLists_of_unconstrained hfree] at hmem
        cases hmem
      · intro hrequired
        cases hfree.2.1.symm.trans hrequired
    · obtain rfl := Option.some.inj hout
      refine ⟨singleDataPurpose_eq_some.1 hpurpose,
        Or.inr ⟨context, _, hasked, rfl, hcontext, hlists, hpermit⟩, ?_⟩
      intro hlisted
      refine ⟨fun purposes hmem => ?_, hrequired⟩
      rw [← hlists] at hmem
      exact hcontext ▸ hlisted context _ hpermit purposes hmem

section

open Sample

/-- The client of the sample configurations. -/
def Sample.client : PeerIdentity := ⟨str "spiffe://alpha/client", .uriSan, []⟩

/-- A decision point that permits exactly the purposes that every list has. -/
def Sample.listingPdp : Pdp where
  decide context policy :=
    if policy.purposeConstraints.all (context.purpose ∈ ·) then .permit
    else .deny (str "pdp.purpose_not_permitted")
  code _ := str "pdp.denied"

/-- A route that requires a purpose, from the lists of the route and of its policy. -/
def Sample.caring : RouteConfig :=
  { route (str "/v1") with
    requirePurpose := true
    purposes := [str "audit", str "care"]
    governedPolicy := some { permittedPurposes := [str "care"] } }

/-- One purpose is let through: it is on both lists. -/
theorem authorizeServerPurpose_sound_care :
    (authorizeServerPurpose uriPki listingPdp ⟨none, none⟩ none ⟨caring, str "/v1"⟩
        ((∅ : HeaderMap).insert dataPurpose (str " care")) client none).1 = .ok (some (str "care")) ∧
      ∀ purposes ∈ [[str "audit", str "care"], [str "care"]], str "care" ∈ purposes := by
  have hresult : (authorizeServerPurpose uriPki listingPdp ⟨none, none⟩ none ⟨caring, str "/v1"⟩
      ((∅ : HeaderMap).insert dataPurpose (str " care")) client none).1 =
        .ok (some (str "care")) := rfl
  have hlisted : listingPdp.PermitsListed := by
    intro context policy h purposes hmem
    simp only [listingPdp] at h
    split_ifs at h with hall
    simpa using List.all_eq_true.1 hall purposes hmem
  obtain ⟨-, -, hsound⟩ := (authorizeServerPurpose_sound uriPki listingPdp ⟨none, none⟩ none
    ⟨caring, str "/v1"⟩ _ client none).2 _ hresult
  exact ⟨hresult, (hsound hlisted).1⟩

end

/-! ### Trust assertions and the decision -/

/-- The entitlements of an accepted configuration are for different clients. -/
theorem entitlements_nodup {P : Pki} {H : Host} {config : ConnectorConfig} {requireEnv : Bool}
    (h : validateConfig P H config .server requireEnv = .ok ()) :
    ∀ trust ∈ config.clientTrust,
      (trust.trustContextEntitlements.map fun e => trim e.clientIdentity).Nodup := by
  obtain ⟨clientTrust, upstream, htrust, -, hchecks, -⟩ := validateConfig_server h
  rintro trust hmem
  obtain rfl : clientTrust = trust := Option.some.inj (htrust.symm.trans hmem)
  simp only [validateClientTrust, List.append_eq_nil_iff] at hchecks
  exact (nodup_of_validateEntitlements hchecks.1.1.2).1

theorem trustedContextScopes_of_no_peer {policy : Option GovernedRoutePolicyConfig}
    {clientTrust : Option ClientTrustConfig} {identity : Str}
    (h : peerTrustedContextScopes clientTrust identity = []) :
    trustedContextScopes policy clientTrust identity = [] := by
  rw [trustedContextScopes, h]
  split_ifs <;> rfl

/-- **For a client without grants, the asserting headers do not change the decision.** -/
theorem authorizeServerPurpose_of_no_peer (P : Pki) (D : Pdp) (clock : ClockReadings)
    (cache : PolicyHashCache) (m : RouteMatch) {headers headers' : HeaderMap}
    (identity : PeerIdentity) {clientTrust : Option ClientTrustConfig}
    (hpeer : peerTrustedContextScopes clientTrust identity.value = [])
    (h : AgreeOutside trustHeaders headers headers') :
    authorizeServerPurpose P D clock cache m headers identity clientTrust =
      authorizeServerPurpose P D clock cache m headers' identity clientTrust := by
  have hpurpose : singleDataPurpose headers = singleDataPurpose headers' := by
    rw [singleDataPurpose, singleDataPurpose, h dataPurpose (by decide +kernel)]
  have hquestion : purposeQuestion D clock m headers identity clientTrust =
      purposeQuestion D clock m headers' identity clientTrust := by
    simp only [purposeQuestion, hpurpose, trustedContextScopes_of_no_peer hpeer,
      requestPdpContext_of_no_scopes h]
  rw [authorizeServerPurpose, authorizeServerPurpose, hquestion]

/-- **Trust assertions reach the decision point exactly when they are granted.**  In an accepted
server configuration, for a client entitled to `peer`: a context that is passed on holds what is
asserted and granted, field by field; with no age granted the context is always made, without an age
or an observation; and for a client without an entitlement the decision does not depend on the
asserting headers. -/
theorem trusted_exactly_when_granted {P : Pki} {H : Host} (D : Pdp) {config : ConnectorConfig}
    {requireEnv : Bool} (haccepted : validateConfig P H config .server requireEnv = .ok ())
    (clock : ClockReadings) (m : RouteMatch) (headers : HeaderMap) (identity : PeerIdentity)
    {peer : GovernedTrustedContextConfig}
    (hpeer : EntitledTo config.clientTrust identity.value peer) (purpose : Str) :
    (∀ context,
        requestPdpContext D.code clock purpose headers identity
          (trustedContextScopes m.route.governedPolicy config.clientTrust identity.value)
          m.route.id (sourceBinding m) = .ok context →
        TrustedExactly clock headers peer (routeContext m.route.governedPolicy) context) ∧
      ((∀ n, ¬Granted peer (routeContext m.route.governedPolicy) (·.sourceObservedAgeSeconds) n) →
        ∃ context,
          requestPdpContext D.code clock purpose headers identity
            (trustedContextScopes m.route.governedPolicy config.clientTrust identity.value)
            m.route.id (sourceBinding m) = .ok context ∧
          context.sourceObservedAgeSeconds = none ∧ context.sourceObservedAtUnixSeconds = none) ∧
      ((∀ trust ∈ config.clientTrust, ∀ e ∈ trust.trustContextEntitlements,
          trim e.clientIdentity ≠ identity.value) →
        ∀ headers', AgreeOutside trustHeaders headers headers' → ∀ cache,
          authorizeServerPurpose P D clock cache m headers identity config.clientTrust =
            authorizeServerPurpose P D clock cache m headers' identity config.clientTrust) := by
  have hunique := entitlements_nodup haccepted
  have hscopes := peerTrustedContextScopes_eq hunique hpeer
  refine ⟨fun context h => requestPdpContext_exact hscopes h, fun hnone => ?_,
    fun hentitled headers' h cache => ?_⟩
  · refine requestPdpContext_of_no_limit (Option.eq_none_iff_forall_ne_some.2 fun n hn => ?_)
    obtain ⟨k, hk, -⟩ := (sourceObservedAgeLimitSeconds_eq_some_iff hscopes).1 hn
    exact hnone k hk
  · have hempty := peerTrustedContextScopes_eq hunique (Or.inr ⟨hentitled, rfl⟩)
    exact authorizeServerPurpose_of_no_peer P D clock cache m identity hempty h

section

open Sample

/-- A configuration that entitles its client to one jurisdiction. -/
def Sample.entitled : ConnectorConfig :=
  { bothModes (str "/v1") with
    clientTrust := some
      { allowedIdentities := [str "spiffe://alpha/client"], trustAnchors := [alphaAnchor]
        trustContextEntitlements :=
          [⟨str " spiffe://alpha/client", { jurisdiction := some (str "EU:DE") }⟩] } }

/-- A request that asserts the jurisdiction, an assurance, and an age that is no number. -/
def Sample.asserting : HeaderMap :=
  ((∅ : HeaderMap).insert trustJurisdiction (str " EU:DE")).insert trustAssurance (str "high")
    |>.insert trustSourceObservedAgeSeconds (str "soon")

/-- A decision point that permits everything. -/
def Sample.pdp : Pdp := ⟨fun _ _ => .permit, fun _ => str "pdp.denied"⟩

/-- The jurisdiction reaches the decision point; the assurance and the age do not, and the age that
is no number does no harm. -/
theorem trusted_exactly_when_granted_jurisdiction :
    ∃ context,
      requestPdpContext pdp.code ⟨some 100, some 100⟩ (str "care") asserting client
          (trustedContextScopes (route (str "/v1")).governedPolicy entitled.clientTrust client.value)
          (route (str "/v1")).id (sourceBinding ⟨route (str "/v1"), str "/v1"⟩) = .ok context ∧
        context.jurisdiction = some (str "EU:DE") ∧ context.assertedAssurance = none ∧
        context.sourceObservedAgeSeconds = none := by
  have haccepted : validateConfig uriPki host entitled .server true = .ok () := rfl
  have hpeer : EntitledTo entitled.clientTrust client.value { jurisdiction := some (str "EU:DE") } :=
    Or.inl ⟨_, rfl, _, List.mem_singleton.2 rfl, by decide +kernel, rfl⟩
  obtain ⟨hexact, hungranted, -⟩ := trusted_exactly_when_granted pdp haccepted
    ⟨some 100, some 100⟩ ⟨route (str "/v1"), str "/v1"⟩ asserting client hpeer (str "care")
  obtain ⟨context, hcontext, hage, -⟩ := hungranted fun n h => nomatch h.1
  have h := hexact context hcontext
  refine ⟨context, hcontext, ?_, ?_, hage⟩
  · refine (h.jurisdiction _).2 ⟨?_, rfl, Or.inl rfl⟩
    exact ⟨str " EU:DE", by decide +kernel, str " EU:DE", by decide +kernel, by decide +kernel⟩
  · refine Option.eq_none_iff_forall_ne_some.2 fun v hv => ?_
    exact nomatch ((h.assurance v).1 hv).2.1

end

end TrustConnector
