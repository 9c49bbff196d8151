/-
**The context that the decision point is given.**

A request may assert things about itself in headers: a jurisdiction, an assurance level, a legal
basis, a consent, and how old its source is.  An assertion reaches the policy decision point only
if the client is entitled to it and the route does not narrow it away.  The connector writes every
entitlement as a text `registry:trust:field:value`, intersects the texts of the client with those
of the route, and looks the asserted values up among what is left.

Main definitions:

* `PdpRequestContext`, `PdpProblem` — what the decision point reads, and the codes it answers with;
* `contextScopes`, `trustedContextScopes` — entitlements as texts;
* `requestPdpContext` — the context of a request;
* `ScopeField`, `EntitledTo`, `Granted` — the same in terms of the configuration, without texts.

Main results:

* `trustContextScope_inj`, `scope_mem_trustedContextScopes` — **the texts tell the fields and the
  values apart**, so that a text is left exactly when its value is granted in its field;
* `sourceObservedAgeLimitSeconds_eq_some_iff` — the age limit is the one that is granted;
* `freshness_facts` — **the time of an observation and its age agree, unless the request states an
  age of its own**;
* `requestPdpContext_exact` — what is granted and asserted reaches the decision point, exactly;
* `requestPdpContext_of_no_scopes` — for a client without grants, the headers do not matter.
-/

import TrustConnector.Http
import TrustConnector.Validate

set_option relaxedAutoImplicit false
set_option autoImplicit false

namespace TrustConnector

open Text Fallible Http

/-! ### What the decision point reads -/

/-- The problems that the decision point has codes for. -/
inductive PdpProblem where
  | contextRequired | purposeNotPermitted | assuranceInsufficient | evidenceStale
  | legalBasisRequired | consentRequired | jurisdictionNotPermitted | relationshipNotPermitted
  | requestedFactNotPermitted | disclosureNotPermitted | credentialFormatNotPermitted
  | sourceBindingNotPermitted | routeIdentityNotPermitted | checkedScopeRequired
  | unsupportedPolicyTerm | policyRequired | policyIdRequired | policyHashInvalid
  deriving DecidableEq, Repr

/-- The facts about a request that a decision is made from. -/
structure PdpRequestContext where
  purpose : Str
  legalBasisRef : Option Str
  consentRef : Option Str
  assertedAssurance : Option Str
  jurisdiction : Option Str
  requesterIdentity : Option Str
  subjectRef : Option Str
  relationship : Option Str
  onBehalfOf : Option Str
  requestedFact : Option Str
  requestedDisclosure : Option Str
  requestedCredentialFormat : Option Str
  sourceBinding : Option Str
  routeIdentity : Option Str
  checkedScopes : List Str
  sourceObservedAtUnixSeconds : Option ℕ
  sourceObservedAgeSeconds : Option ℕ
  deriving DecidableEq, Repr

/-! ### Headers -/

def trustJurisdiction : Str := str "x-registry-trust-jurisdiction"
def trustAssurance : Str := str "x-registry-trust-assurance"
def trustLegalBasis : Str := str "x-registry-trust-legal-basis"
def trustConsent : Str := str "x-registry-trust-consent"
def trustSourceObservedAgeSeconds : Str := str "x-registry-source-observed-age-seconds"
def trustSourceObservedAtUnixSeconds : Str := str "x-registry-source-observed-at-unix-seconds"

/-- The first value of a header, trimmed, if it is text and not blank. -/
def trustHeaderValue (headers : HeaderMap) (name : Str) : Option Str :=
  ((headers.get name).bind toStr |>.map trim).filter fun value => !value.isEmpty

/-! ### Entitlements as texts -/

def trustContextScope (field value : Str) : Str :=
  str "registry:trust:" ++ field ++ str ":" ++ value

/-- The texts of a trusted context. -/
def contextScopes (context : GovernedTrustedContextConfig) : List Str :=
  orderedSet <|
    (context.jurisdiction.map (trustContextScope (str "jurisdiction"))).toList ++
    (context.assertedAssurance.map (trustContextScope (str "assurance"))).toList ++
    (context.legalBasisRef.map (trustContextScope (str "legal_basis"))).toList ++
    (context.consentRef.map (trustContextScope (str "consent"))).toList ++
    (context.sourceObservedAgeSeconds.map fun value =>
      trustContextScope (str "source_observed_age_seconds") (decimal value.toNat)).toList

/-- The texts of the first entitlement of a client. -/
def peerTrustedContextScopes (clientTrust : Option ClientTrustConfig) (clientIdentity : Str) :
    List Str :=
  let entitlements := clientTrust.toList.flatMap (·.trustContextEntitlements)
  ((entitlements.find? fun e => trim e.clientIdentity = clientIdentity).map
    fun e => contextScopes e.trustedContext).getD []

/-- The texts of a client, narrowed by those of a route if it has any. -/
def trustedContextScopes (policy : Option GovernedRoutePolicyConfig)
    (clientTrust : Option ClientTrustConfig) (clientIdentity : Str) : List Str :=
  let peerScopes := peerTrustedContextScopes clientTrust clientIdentity
  let routeScopes := (policy.map fun policy => contextScopes policy.trustedContext).getD []
  -- a route that lists no context does not narrow: all the client may assert is let through
  if routeScopes.isEmpty then peerScopes
  else peerScopes.filter fun scope => scope ∈ routeScopes

/-! ### The context of a request -/

def verifiedTrustHeaderValue (headers : HeaderMap) (scopes : List Str) (name field : Str) :
    Option Str :=
  (trustHeaderValue headers name).filter fun value => trustContextScope field value ∈ scopes

/-- The largest age that the texts grant. -/
def sourceObservedAgeLimitSeconds (scopes : List Str) : Option ℕ :=
  ((scopes.filterMap (stripPrefix · (str "registry:trust:source_observed_age_seconds:"))).filterMap
    parseU64).max?

section

-- the code for stale evidence, and a reading of the system clock in seconds since the epoch, which
-- is absent for a clock that is set before the epoch
variable (code : PdpProblem → Str) (reading : Option ℕ)

def sourceObservedAtWithAge (headers : HeaderMap) (scopes : List Str) :
    Except ConnectorProblem (Option (ℕ × ℕ)) :=
  match trustHeaderValue headers trustSourceObservedAtUnixSeconds with
  | none => .ok none
  | some value =>
      match sourceObservedAgeLimitSeconds scopes with
      | none => .ok none
      | some limit => do
          -- without a granted limit the header is not parsed; with one it has to be a number
          let observedAt ← okOr (.pdpDenied (code .evidenceStale)) (parseU64 value)
          let now ← okOr (.pdpDenied (code .evidenceStale)) reading
          let ageSeconds := now - observedAt
          -- a time in the future is dropped like one that is too old
          if now < observedAt ∨ limit < ageSeconds then .ok none
          else .ok (some (observedAt, ageSeconds))

def sourceObservedAtUnixSeconds (headers : HeaderMap) (scopes : List Str) :
    Except ConnectorProblem (Option ℕ) :=
  (sourceObservedAtWithAge code reading headers scopes).map fun observed => observed.map (·.1)

def sourceObservedAgeSeconds (headers : HeaderMap) (scopes : List Str) :
    Except ConnectorProblem (Option ℕ) :=
  match trustHeaderValue headers trustSourceObservedAgeSeconds with
  -- an age that is stated wins over one computed from the time of the observation
  | some value =>
      match sourceObservedAgeLimitSeconds scopes with
      | none => .ok none
      | some limit => do
          let ageSeconds ← okOr (.pdpDenied (code .evidenceStale)) (parseU64 value)
          if limit < ageSeconds then .ok none else .ok (some ageSeconds)
  | none => (sourceObservedAtWithAge code reading headers scopes).map
      fun observed => observed.map (·.2)

end

/-- The readings of the clock that one request may take: for the time of the observation, and for
its age. -/
structure ClockReadings where
  observedAt : Option ℕ
  age : Option ℕ

/-- **The context of a request.** -/
def requestPdpContext (code : PdpProblem → Str) (clock : ClockReadings) (purpose : Str)
    (headers : HeaderMap) (identity : PeerIdentity) (scopes : List Str)
    (routeIdentity sourceBinding : Str) : Except ConnectorProblem PdpRequestContext := do
  let observedAt ← sourceObservedAtUnixSeconds code clock.observedAt headers scopes
  let age ← sourceObservedAgeSeconds code clock.age headers scopes
  return {
    purpose := purpose
    legalBasisRef := verifiedTrustHeaderValue headers scopes trustLegalBasis (str "legal_basis")
    consentRef := verifiedTrustHeaderValue headers scopes trustConsent (str "consent")
    assertedAssurance := verifiedTrustHeaderValue headers scopes trustAssurance (str "assurance")
    jurisdiction :=
      verifiedTrustHeaderValue headers scopes trustJurisdiction (str "jurisdiction")
    requesterIdentity := some identity.value
    subjectRef := trustHeaderValue headers (str "x-registry-subject-ref")
    relationship := trustHeaderValue headers (str "x-registry-relationship")
    onBehalfOf := trustHeaderValue headers (str "x-registry-on-behalf-of")
    requestedFact := some sourceBinding
    requestedDisclosure := some (str "proxy_forward")
    requestedCredentialFormat := trustHeaderValue headers (str "x-registry-credential-format")
    sourceBinding := some sourceBinding
    routeIdentity := some routeIdentity
    checkedScopes := []
    sourceObservedAtUnixSeconds := observedAt
    sourceObservedAgeSeconds := age }

/-! ### Grants, without texts -/

/-- The fields of a trusted context. -/
inductive ScopeField where
  | jurisdiction | assurance | legalBasis | consent | sourceObservedAge
  deriving DecidableEq

namespace ScopeField

/-- The name of a field in a text. -/
def text : ScopeField → Str
  | jurisdiction => str "jurisdiction"
  | assurance => str "assurance"
  | legalBasis => str "legal_basis"
  | consent => str "consent"
  | sourceObservedAge => str "source_observed_age_seconds"

/-- The value of a field in a text. -/
def value (context : GovernedTrustedContextConfig) : ScopeField → Option Str
  | jurisdiction => context.jurisdiction
  | assurance => context.assertedAssurance
  | legalBasis => context.legalBasisRef
  | consent => context.consentRef
  | sourceObservedAge => context.sourceObservedAgeSeconds.map fun n => decimal n.toNat

theorem colon_not_mem_text (f : ScopeField) : colon ∉ f.text := by
  cases f <;> decide +kernel

theorem text_injective : Function.Injective text := by
  intro f g h
  cases f <;> cases g <;> first | rfl | exact absurd h (by decide +kernel)

end ScopeField

/-- **A text tells its field and its value.** -/
theorem trustContextScope_inj {f g : ScopeField} {v w : Str} :
    trustContextScope f.text v = trustContextScope g.text w ↔ f = g ∧ v = w := by
  constructor
  · intro h
    simp only [trustContextScope, List.append_assoc] at h
    obtain ⟨htext, hvalue⟩ :=
      append_cons_inj f.colon_not_mem_text g.colon_not_mem_text (List.append_cancel_left h)
    exact ⟨ScopeField.text_injective htext, hvalue⟩
  · rintro ⟨rfl, rfl⟩
    rfl

theorem mem_contextScopes_iff {context : GovernedTrustedContextConfig} {scope : Str} :
    scope ∈ contextScopes context ↔
      ∃ f v, ScopeField.value context f = some v ∧ trustContextScope f.text v = scope := by
  simp only [contextScopes, mem_orderedSet, List.mem_append, Option.mem_toList,
    Option.map_eq_some_iff]
  constructor
  · rintro ((((⟨v, h, rfl⟩ | ⟨v, h, rfl⟩) | ⟨v, h, rfl⟩) | ⟨v, h, rfl⟩) | ⟨n, h, rfl⟩)
    · exact ⟨.jurisdiction, v, h, rfl⟩
    · exact ⟨.assurance, v, h, rfl⟩
    · exact ⟨.legalBasis, v, h, rfl⟩
    · exact ⟨.consent, v, h, rfl⟩
    · exact ⟨.sourceObservedAge, decimal n.toNat, by rw [ScopeField.value, h]; rfl, rfl⟩
  · rintro ⟨f, v, h, rfl⟩
    cases f with
    | jurisdiction => exact Or.inl (Or.inl (Or.inl (Or.inl ⟨v, h, rfl⟩)))
    | assurance => exact Or.inl (Or.inl (Or.inl (Or.inr ⟨v, h, rfl⟩)))
    | legalBasis => exact Or.inl (Or.inl (Or.inr ⟨v, h, rfl⟩))
    | consent => exact Or.inl (Or.inr ⟨v, h, rfl⟩)
    | sourceObservedAge =>
        obtain ⟨n, hn, rfl⟩ := Option.map_eq_some_iff.1 h
        exact Or.inr ⟨n, hn, rfl⟩

/-- A text is among those of a context exactly when the context has the value in the field. -/
theorem scope_mem_contextScopes {context : GovernedTrustedContextConfig} {f : ScopeField}
    {v : Str} :
    trustContextScope f.text v ∈ contextScopes context ↔ ScopeField.value context f = some v := by
  rw [mem_contextScopes_iff]
  constructor
  · rintro ⟨g, w, h, heq⟩
    obtain ⟨rfl, rfl⟩ := trustContextScope_inj.1 heq
    exact h
  · intro h
    exact ⟨f, v, h, rfl⟩

theorem contextScopes_eq_nil_iff {context : GovernedTrustedContextConfig} :
    contextScopes context = [] ↔ context = {} := by
  constructor
  · intro h
    have hnone : ∀ f, ScopeField.value context f = none := by
      intro f
      rw [Option.eq_none_iff_forall_ne_some]
      intro v hv
      exact List.not_mem_nil (h ▸ scope_mem_contextScopes.2 hv)
    have hage := hnone .sourceObservedAge
    rw [ScopeField.value, Option.map_eq_none_iff] at hage
    obtain ⟨j, a, l, c, n⟩ := context
    obtain rfl : j = none := hnone .jurisdiction
    obtain rfl : a = none := hnone .assurance
    obtain rfl : l = none := hnone .legalBasis
    obtain rfl : c = none := hnone .consent
    obtain rfl : n = none := hage
    rfl
  · rintro rfl
    rfl

/-- The trusted context that a client is entitled to: that of its entitlement, none if it has
none. -/
def EntitledTo (clientTrust : Option ClientTrustConfig) (identity : Str)
    (context : GovernedTrustedContextConfig) : Prop :=
  (∃ trust ∈ clientTrust, ∃ e ∈ trust.trustContextEntitlements,
      trim e.clientIdentity = identity ∧ e.trustedContext = context) ∨
    ((∀ trust ∈ clientTrust, ∀ e ∈ trust.trustContextEntitlements,
      trim e.clientIdentity ≠ identity) ∧ context = {})

/-- The trusted context of a route's policy. -/
def routeContext (policy : Option GovernedRoutePolicyConfig) : GovernedTrustedContextConfig :=
  (policy.map (·.trustedContext)).getD {}

/-- A value is granted: the client is entitled to it, and the route's context, if it has any
assertion at all, has the same value. -/
def Granted {α : Type} (peer route : GovernedTrustedContextConfig)
    (field : GovernedTrustedContextConfig → Option α) (v : α) : Prop :=
  field peer = some v ∧ (route = {} ∨ field route = some v)

/-- The texts of a client are those of the context it is entitled to. -/
theorem peerTrustedContextScopes_eq {clientTrust : Option ClientTrustConfig} {identity : Str}
    {peer : GovernedTrustedContextConfig}
    (hunique : ∀ trust ∈ clientTrust,
      (trust.trustContextEntitlements.map fun e => trim e.clientIdentity).Nodup)
    (h : EntitledTo clientTrust identity peer) :
    peerTrustedContextScopes clientTrust identity = contextScopes peer := by
  rcases h with ⟨trust, htrust, e, he, hidentity, rfl⟩ | ⟨hnone, rfl⟩
  · obtain rfl : clientTrust = some trust := htrust
    have hfind : trust.trustContextEntitlements.find?
        (fun e => trim e.clientIdentity = identity) = some e := by
      cases hfound : trust.trustContextEntitlements.find?
          (fun e => trim e.clientIdentity = identity) with
      | none => exact absurd hidentity (by simpa using List.find?_eq_none.1 hfound e he)
      | some e' =>
          have hidentity' : trim e'.clientIdentity = identity := by
            simpa using List.find?_some hfound
          rw [List.inj_on_of_nodup_map (hunique trust rfl) (List.mem_of_find?_eq_some hfound) he
            (hidentity'.trans hidentity.symm)]
    simp [peerTrustedContextScopes, hfind]
  · have hfind : (clientTrust.toList.flatMap (·.trustContextEntitlements)).find?
        (fun e => trim e.clientIdentity = identity) = none := by
      rw [List.find?_eq_none]
      intro e he
      obtain ⟨trust, htrust, he⟩ := List.mem_flatMap.1 he
      simpa using hnone trust (Option.mem_toList.1 htrust) e he
    rw [peerTrustedContextScopes, hfind]
    rfl

/-- An age is granted as a text exactly when it is granted as a number. -/
theorem granted_age_iff {peer route : GovernedTrustedContextConfig} {w : Str} :
    Granted peer route (ScopeField.value · .sourceObservedAge) w ↔
      ∃ k, Granted peer route (·.sourceObservedAgeSeconds) k ∧ decimal k.toNat = w := by
  have hinj : Function.Injective fun k : UInt64 => decimal k.toNat := fun a b h =>
    UInt64.toNat_inj.1 (decimal_injective h)
  simp only [Granted, ScopeField.value, Option.map_eq_some_iff]
  constructor
  · rintro ⟨⟨k, hk, rfl⟩, hroute⟩
    refine ⟨k, ⟨hk, hroute.imp_right ?_⟩, rfl⟩
    rintro ⟨k', hk', heq⟩
    rw [hk', hinj heq]
  · rintro ⟨k, ⟨hk, hroute⟩, rfl⟩
    exact ⟨⟨k, hk, rfl⟩, hroute.imp_right fun h => ⟨k, h, rfl⟩⟩

section

variable {clientTrust : Option ClientTrustConfig} {identity : Str}
  {policy : Option GovernedRoutePolicyConfig} {peer : GovernedTrustedContextConfig}
  (hpeer : peerTrustedContextScopes clientTrust identity = contextScopes peer)

include hpeer

/-- What is left of the client's texts. -/
theorem mem_trustedContextScopes {scope : Str} :
    scope ∈ trustedContextScopes policy clientTrust identity ↔
      scope ∈ contextScopes peer ∧
        (routeContext policy = {} ∨ scope ∈ contextScopes (routeContext policy)) := by
  have hroute : (policy.map fun policy => contextScopes policy.trustedContext).getD [] =
      contextScopes (routeContext policy) := by
    cases policy <;> rfl
  rw [trustedContextScopes, hpeer, hroute, ← contextScopes_eq_nil_iff]
  cases hscopes : contextScopes (routeContext policy) with
  | nil => simp
  | cons head tail => simp

/-- **A text is left exactly when its value is granted in its field.** -/
theorem scope_mem_trustedContextScopes {f : ScopeField} {v : Str} :
    trustContextScope f.text v ∈ trustedContextScopes policy clientTrust identity ↔
      Granted peer (routeContext policy) (ScopeField.value · f) v := by
  rw [mem_trustedContextScopes hpeer, scope_mem_contextScopes, scope_mem_contextScopes, Granted]

/-- **The age limit is the granted one.** -/
theorem sourceObservedAgeLimitSeconds_eq_some_iff {n : ℕ} :
    sourceObservedAgeLimitSeconds (trustedContextScopes policy clientTrust identity) = some n ↔
      ∃ k, Granted peer (routeContext policy) (·.sourceObservedAgeSeconds) k ∧ k.toNat = n := by
  have hmem : ∀ m, m ∈ ((trustedContextScopes policy clientTrust identity).filterMap
        (stripPrefix · (str "registry:trust:source_observed_age_seconds:"))).filterMap parseU64 ↔
      ∃ k, Granted peer (routeContext policy) (·.sourceObservedAgeSeconds) k ∧ k.toNat = m := by
    intro m
    simp only [List.mem_filterMap, stripPrefix_eq_some_iff]
    constructor
    · rintro ⟨w, ⟨scope, hscope, rfl⟩, hparse⟩
      obtain ⟨k, hk, rfl⟩ := granted_age_iff.1 ((scope_mem_trustedContextScopes hpeer).1 hscope)
      rw [parseU64_decimal k.toNat_lt] at hparse
      exact ⟨k, hk, Option.some.inj hparse⟩
    · rintro ⟨k, hk, rfl⟩
      exact ⟨decimal k.toNat, ⟨_, (scope_mem_trustedContextScopes hpeer).2
        (granted_age_iff.2 ⟨k, hk, rfl⟩), rfl⟩, parseU64_decimal k.toNat_lt⟩
  rw [sourceObservedAgeLimitSeconds, List.max?_eq_some_iff, hmem]
  constructor
  · rintro ⟨hn, -⟩
    exact hn
  · rintro ⟨k, hk, rfl⟩
    refine ⟨⟨k, hk, rfl⟩, fun m hm => ?_⟩
    -- a client is entitled to one age at most
    obtain ⟨k', hk', rfl⟩ := (hmem m).1 hm
    rw [Option.some.inj (hk.1.symm.trans hk'.1)]

end

/-! ### What reaches the decision point -/

/-- The first value of a header can be read, and is a given text once trimmed. -/
def Asserts (headers : HeaderMap) (name v : Str) : Prop :=
  ∃ raw ∈ headers.get name, ∃ text ∈ toStr raw, trim text = v ∧ v ≠ []

theorem trustHeaderValue_eq_some_iff {headers : HeaderMap} {name v : Str} :
    trustHeaderValue headers name = some v ↔ Asserts headers name v := by
  simp only [trustHeaderValue, Option.filter_eq_some_iff, Option.map_eq_some_iff,
    Option.bind_eq_some_iff, Asserts, Option.mem_def, Bool.not_eq_true', List.isEmpty_eq_false_iff]
  constructor
  · rintro ⟨⟨text, ⟨raw, hraw, htext⟩, rfl⟩, hne⟩
    exact ⟨raw, hraw, text, htext, rfl, hne⟩
  · rintro ⟨raw, hraw, text, htext, rfl, hne⟩
    exact ⟨⟨text, ⟨raw, hraw, htext⟩, rfl⟩, hne⟩

/-- What reaches the decision point of one field is what is asserted and granted, exactly. -/
def ReachesExactly (headers : HeaderMap) (peer route : GovernedTrustedContextConfig)
    (name : Str) (field : GovernedTrustedContextConfig → Option Str) (reached : Option Str) :
    Prop :=
  ∀ v, reached = some v ↔ Asserts headers name v ∧ Granted peer route field v

theorem verifiedTrustHeaderValue_exact {clientTrust : Option ClientTrustConfig} {identity : Str}
    {policy : Option GovernedRoutePolicyConfig} {peer : GovernedTrustedContextConfig}
    (hpeer : peerTrustedContextScopes clientTrust identity = contextScopes peer)
    (headers : HeaderMap) (name : Str) (f : ScopeField) :
    ReachesExactly headers peer (routeContext policy) name (ScopeField.value · f)
      (verifiedTrustHeaderValue headers (trustedContextScopes policy clientTrust identity) name
        f.text) := by
  intro v
  rw [verifiedTrustHeaderValue, Option.filter_eq_some_iff, trustHeaderValue_eq_some_iff,
    decide_eq_true_eq, scope_mem_trustedContextScopes hpeer]

section

variable {code : PdpProblem → Str} {reading : Option ℕ} {headers : HeaderMap} {scopes : List Str}

/-- An observation is passed on exactly when it is not from the future and within the limit. -/
theorem sourceObservedAtWithAge_eq_some {o a : ℕ} :
    sourceObservedAtWithAge code reading headers scopes = .ok (some (o, a)) ↔
      ∃ value limit now, trustHeaderValue headers trustSourceObservedAtUnixSeconds = some value ∧
        sourceObservedAgeLimitSeconds scopes = some limit ∧ parseU64 value = some o ∧
        reading = some now ∧ o ≤ now ∧ a = now - o ∧ a ≤ limit := by
  rw [sourceObservedAtWithAge]
  constructor
  · intro h
    cases hvalue : trustHeaderValue headers trustSourceObservedAtUnixSeconds with
    | none => simp [hvalue] at h
    | some value =>
        cases hlimit : sourceObservedAgeLimitSeconds scopes with
        | none => simp [hvalue, hlimit] at h
        | some limit =>
            simp only [hvalue, hlimit, chain_eq_ok, okOr_eq_ok] at h
            obtain ⟨observedAt, hparse, now, hnow, h⟩ := h
            split_ifs at h with hout
            · cases h
            · obtain ⟨rfl, rfl⟩ := Prod.mk.inj (Option.some.inj (Except.ok.inj h))
              exact ⟨value, limit, now, rfl, rfl, hparse, hnow, by omega, rfl, by omega⟩
  · rintro ⟨value, limit, now, hvalue, hlimit, hparse, hnow, hle, rfl, hage⟩
    simp only [hvalue, hlimit, chain_eq_ok, okOr_eq_ok]
    refine ⟨o, hparse, now, hnow, ?_⟩
    rw [if_neg (by omega)]

/-- With no limit, an observation is not read, and cannot fail. -/
theorem sourceObservedAtWithAge_of_no_limit (h : sourceObservedAgeLimitSeconds scopes = none) :
    sourceObservedAtWithAge code reading headers scopes = .ok none := by
  rw [sourceObservedAtWithAge]
  cases trustHeaderValue headers trustSourceObservedAtUnixSeconds with
  | none => rfl
  | some value => simp only [h]

theorem sourceObservedAtUnixSeconds_eq_some {o : ℕ}
    (h : sourceObservedAtUnixSeconds code reading headers scopes = .ok (some o)) :
    ∃ value limit now, trustHeaderValue headers trustSourceObservedAtUnixSeconds = some value ∧
      sourceObservedAgeLimitSeconds scopes = some limit ∧ parseU64 value = some o ∧
      reading = some now ∧ o ≤ now ∧ now - o ≤ limit := by
  rw [sourceObservedAtUnixSeconds] at h
  cases hobserved : sourceObservedAtWithAge code reading headers scopes with
  | error problem => simp [hobserved, Except.map] at h
  | ok observed =>
      rw [hobserved] at h
      obtain ⟨⟨o', a⟩, rfl, rfl⟩ := Option.map_eq_some_iff.1 (Except.ok.inj h)
      obtain ⟨value, limit, now, hvalue, hlimit, hparse, hnow, hle, rfl, hage⟩ :=
        sourceObservedAtWithAge_eq_some.1 hobserved
      exact ⟨value, limit, now, hvalue, hlimit, hparse, hnow, hle, hage⟩

/-- An age that is stated is passed on as it is, if it is within the limit. -/
theorem sourceObservedAgeSeconds_of_stated {value : Str} {limit : ℕ} {age : Option ℕ}
    (hvalue : trustHeaderValue headers trustSourceObservedAgeSeconds = some value)
    (hlimit : sourceObservedAgeLimitSeconds scopes = some limit)
    (h : sourceObservedAgeSeconds code reading headers scopes = .ok age) :
    ∃ stated, parseU64 value = some stated ∧
      age = if limit < stated then none else some stated := by
  simp only [sourceObservedAgeSeconds, hvalue, hlimit, chain_eq_ok, okOr_eq_ok] at h
  obtain ⟨stated, hparse, h⟩ := h
  refine ⟨stated, hparse, ?_⟩
  split_ifs at h ⊢ with hout
  · exact (Except.ok.inj h).symm
  · exact (Except.ok.inj h).symm

theorem sourceObservedAgeSeconds_eq_some {a : ℕ}
    (h : sourceObservedAgeSeconds code reading headers scopes = .ok (some a)) :
    ∃ limit, sourceObservedAgeLimitSeconds scopes = some limit ∧ a ≤ limit := by
  cases hvalue : trustHeaderValue headers trustSourceObservedAgeSeconds with
  | none =>
      simp only [sourceObservedAgeSeconds, hvalue] at h
      cases hobserved : sourceObservedAtWithAge code reading headers scopes with
      | error problem => simp [hobserved, Except.map] at h
      | ok observed =>
          rw [hobserved] at h
          obtain ⟨⟨o, a'⟩, rfl, rfl⟩ := Option.map_eq_some_iff.1 (Except.ok.inj h)
          obtain ⟨-, limit, -, -, hlimit, -, -, -, -, hage⟩ :=
            sourceObservedAtWithAge_eq_some.1 hobserved
          exact ⟨limit, hlimit, hage⟩
  | some value =>
      cases hlimit : sourceObservedAgeLimitSeconds scopes with
      | none => simp [sourceObservedAgeSeconds, hvalue, hlimit] at h
      | some limit =>
          obtain ⟨stated, -, hage⟩ := sourceObservedAgeSeconds_of_stated hvalue hlimit h
          split_ifs at hage with hout
          obtain rfl := Option.some.inj hage
          exact ⟨limit, rfl, Nat.le_of_not_lt hout⟩

theorem sourceObservedAgeSeconds_of_no_limit (h : sourceObservedAgeLimitSeconds scopes = none) :
    sourceObservedAgeSeconds code reading headers scopes = .ok none := by
  rw [sourceObservedAgeSeconds]
  cases trustHeaderValue headers trustSourceObservedAgeSeconds with
  | none => rw [sourceObservedAtWithAge_of_no_limit h]; rfl
  | some value => simp only [h]

end

/-- **Exactly what is granted reaches the decision point**, in each field; an age or an observation
reaches it within the granted age only. -/
structure TrustedExactly (clock : ClockReadings) (headers : HeaderMap)
    (peer route : GovernedTrustedContextConfig) (context : PdpRequestContext) : Prop where
  jurisdiction : ReachesExactly headers peer route trustJurisdiction (·.jurisdiction)
    context.jurisdiction
  assurance : ReachesExactly headers peer route trustAssurance (·.assertedAssurance)
    context.assertedAssurance
  legalBasis : ReachesExactly headers peer route trustLegalBasis (·.legalBasisRef)
    context.legalBasisRef
  consent : ReachesExactly headers peer route trustConsent (·.consentRef) context.consentRef
  age : ∀ a ∈ context.sourceObservedAgeSeconds,
    ∃ n, Granted peer route (·.sourceObservedAgeSeconds) n ∧ a ≤ n.toNat
  observedAt : ∀ o ∈ context.sourceObservedAtUnixSeconds,
    ∃ n, Granted peer route (·.sourceObservedAgeSeconds) n ∧
      ∃ now, clock.observedAt = some now ∧ o ≤ now ∧ now - o ≤ n.toNat

section

variable {code : PdpProblem → Str} {clock : ClockReadings} {purpose : Str} {headers : HeaderMap}
  {identity : PeerIdentity} {routeIdentity sourceBinding : Str}
  {clientTrust : Option ClientTrustConfig} {policy : Option GovernedRoutePolicyConfig}
  {peer : GovernedTrustedContextConfig}

theorem requestPdpContext_exact {context : PdpRequestContext}
    (hpeer : peerTrustedContextScopes clientTrust identity.value = contextScopes peer)
    (h : requestPdpContext code clock purpose headers identity
      (trustedContextScopes policy clientTrust identity.value) routeIdentity sourceBinding =
        .ok context) :
    TrustedExactly clock headers peer (routeContext policy) context := by
  have hexact : ∀ name f, ReachesExactly headers peer (routeContext policy) name
      (ScopeField.value · f) (verifiedTrustHeaderValue headers
        (trustedContextScopes policy clientTrust identity.value) name f.text) :=
    verifiedTrustHeaderValue_exact hpeer headers
  simp only [requestPdpContext, chain_eq_ok] at h
  obtain ⟨observedAt, hobserved, age, hage, h⟩ := h
  obtain rfl := Except.ok.inj h
  refine ⟨hexact trustJurisdiction .jurisdiction, hexact trustAssurance .assurance,
    hexact trustLegalBasis .legalBasis, hexact trustConsent .consent, ?_, ?_⟩
  · rintro a rfl
    obtain ⟨limit, hlimit, hle⟩ := sourceObservedAgeSeconds_eq_some hage
    obtain ⟨n, hn, rfl⟩ := (sourceObservedAgeLimitSeconds_eq_some_iff hpeer).1 hlimit
    exact ⟨n, hn, hle⟩
  · rintro o rfl
    obtain ⟨-, limit, now, -, hlimit, -, hnow, hle, hwithin⟩ :=
      sourceObservedAtUnixSeconds_eq_some hobserved
    obtain ⟨n, hn, rfl⟩ := (sourceObservedAgeLimitSeconds_eq_some_iff hpeer).1 hlimit
    exact ⟨n, hn, now, hnow, hle, hwithin⟩

/-- With no limit on the age, the source headers are not read, whatever is in them. -/
theorem requestPdpContext_of_no_limit {scopes : List Str}
    (h : sourceObservedAgeLimitSeconds scopes = none) :
    ∃ context, requestPdpContext code clock purpose headers identity scopes routeIdentity
        sourceBinding = .ok context ∧
      context.sourceObservedAgeSeconds = none ∧ context.sourceObservedAtUnixSeconds = none := by
  rw [requestPdpContext, sourceObservedAtUnixSeconds, sourceObservedAtWithAge_of_no_limit h,
    sourceObservedAgeSeconds_of_no_limit h]
  exact ⟨_, rfl, rfl, rfl⟩

/-- **The two facts about the age of the source.**  Whenever the time of an observation is passed on,
an age is granted.  If the request states no age and the observation is still within the grant when
the clock is read again, the age that is passed on is that of the observation: it was made that long
before some time between the two readings.  If the request states an age, that age is passed on
instead, as far as it is within the grant, and has nothing to do with the observation. -/
theorem freshness_facts {scopes : List Str} {context : PdpRequestContext} {o t₁ t₂ : ℕ}
    (h : requestPdpContext code clock purpose headers identity scopes routeIdentity sourceBinding =
      .ok context)
    (ho : context.sourceObservedAtUnixSeconds = some o) (hfirst : clock.observedAt = some t₁)
    (hsecond : clock.age = some t₂) (hle : t₁ ≤ t₂) :
    ∃ limit, sourceObservedAgeLimitSeconds scopes = some limit ∧
      (trustHeaderValue headers trustSourceObservedAgeSeconds = none → t₂ - o ≤ limit →
        ∃ a, context.sourceObservedAgeSeconds = some a ∧ t₁ ≤ o + a ∧ o + a ≤ t₂) ∧
      ∀ value, trustHeaderValue headers trustSourceObservedAgeSeconds = some value →
        ∃ stated, parseU64 value = some stated ∧
          context.sourceObservedAgeSeconds = if limit < stated then none else some stated := by
  simp only [requestPdpContext, chain_eq_ok] at h
  obtain ⟨observedAt, hobserved, age, hage, h⟩ := h
  obtain rfl := Except.ok.inj h
  obtain rfl : observedAt = some o := ho
  obtain ⟨value, limit, now, hvalue, hlimit, hparse, hnow, hpast, -⟩ :=
    sourceObservedAtUnixSeconds_eq_some hobserved
  obtain rfl : now = t₁ := Option.some.inj (hnow.symm.trans hfirst)
  refine ⟨limit, hlimit, ?_, ?_⟩
  · intro hnone hwithin
    -- the second reading finds the same observation, and is not earlier
    have hagain : sourceObservedAtWithAge code clock.age headers scopes =
        .ok (some (o, t₂ - o)) :=
      sourceObservedAtWithAge_eq_some.2
        ⟨value, limit, t₂, hvalue, hlimit, hparse, hsecond, by omega, rfl, hwithin⟩
    simp only [sourceObservedAgeSeconds, hnone, hagain] at hage
    obtain rfl : some (t₂ - o) = age := Except.ok.inj hage
    exact ⟨t₂ - o, rfl, by omega, by omega⟩
  · intro stated hstated
    exact sourceObservedAgeSeconds_of_stated hstated hlimit hage

end

namespace Sample

/-- The grant of an age up to half a minute. -/
def halfMinute : List Str := contextScopes { sourceObservedAgeSeconds := some 30 }

/-- A request that says when its source was observed. -/
def observedHeaders : HeaderMap :=
  (∅ : HeaderMap).insert trustSourceObservedAtUnixSeconds (str "100")

/-- A request that also states an age, which is another one. -/
def contradictoryHeaders : HeaderMap :=
  observedHeaders.insert trustSourceObservedAgeSeconds (str "5")

/-- What the decision point is told of the source. -/
def freshness (clock : ClockReadings) (headers : HeaderMap) :
    Except ConnectorProblem PdpRequestContext :=
  requestPdpContext (fun _ => []) clock (str "care") headers
    ⟨str "spiffe://alpha/client", .uriSan, []⟩ halfMinute [] []

end Sample

/-- An observation at 100 is 12 seconds old at the second reading. -/
theorem freshness_facts_observed :
    ∃ context a, Sample.freshness ⟨some 110, some 112⟩ Sample.observedHeaders = .ok context ∧
      context.sourceObservedAtUnixSeconds = some 100 ∧
      context.sourceObservedAgeSeconds = some a ∧ 110 ≤ 100 + a ∧ 100 + a ≤ 112 := by
  have hobserved : ∃ context,
      Sample.freshness ⟨some 110, some 112⟩ Sample.observedHeaders = .ok context ∧
      context.sourceObservedAtUnixSeconds = some 100 := ⟨_, rfl, by decide +kernel⟩
  obtain ⟨context, hcontext, ho⟩ := hobserved
  obtain ⟨limit, hlimit, hage, -⟩ := freshness_facts hcontext ho rfl rfl (by omega)
  have hthirty : sourceObservedAgeLimitSeconds Sample.halfMinute = some 30 := by decide +kernel
  obtain rfl : limit = 30 := Option.some.inj (hlimit.symm.trans hthirty)
  obtain ⟨a, ha⟩ := hage (by decide +kernel) (by omega)
  exact ⟨context, a, hcontext, ho, ha⟩

/-- A request that states both is passed on with an observation at 100 and an age of 5, between 110
and 112.  And an observation that leaves the grant between the two readings is passed on without an
age. -/
theorem freshness_contradictory :
    (∃ context, Sample.freshness ⟨some 110, some 112⟩ Sample.contradictoryHeaders = .ok context ∧
      context.sourceObservedAtUnixSeconds = some 100 ∧
      context.sourceObservedAgeSeconds = some 5 ∧
      ¬ ∃ a, context.sourceObservedAgeSeconds = some a ∧ 110 ≤ 100 + a ∧ 100 + a ≤ 112) ∧
    ∃ context, Sample.freshness ⟨some 130, some 131⟩ Sample.observedHeaders = .ok context ∧
      context.sourceObservedAtUnixSeconds = some 100 ∧
      context.sourceObservedAgeSeconds = none := by
  have hstated : ∃ context,
      Sample.freshness ⟨some 110, some 112⟩ Sample.contradictoryHeaders = .ok context ∧
      context.sourceObservedAtUnixSeconds = some 100 ∧ context.sourceObservedAgeSeconds = some 5 :=
    ⟨_, rfl, by decide +kernel, by decide +kernel⟩
  obtain ⟨context, hcontext, ho, hage⟩ := hstated
  refine ⟨⟨context, hcontext, ho, hage, ?_⟩, ⟨_, rfl, by decide +kernel, by decide +kernel⟩⟩
  rintro ⟨a, ha, hfirst, -⟩
  obtain rfl : 5 = a := Option.some.inj (hage.symm.trans ha)
  omega

/-! ### Headers that are not read -/

/-- The headers that assert something about the request. -/
def trustHeaders : List Str :=
  [trustJurisdiction, trustAssurance, trustLegalBasis, trustConsent, trustSourceObservedAgeSeconds,
    trustSourceObservedAtUnixSeconds]

/-- Two header maps that differ in the given names only. -/
def AgreeOutside (names : List Str) (headers headers' : HeaderMap) : Prop :=
  ∀ name ∉ names, headers.getAll name = headers'.getAll name

/-- **With no texts left, the asserting headers do not matter.** -/
theorem requestPdpContext_of_no_scopes {code : PdpProblem → Str} {clock : ClockReadings}
    {purpose : Str} {headers headers' : HeaderMap} {identity : PeerIdentity}
    {routeIdentity sourceBinding : Str} (h : AgreeOutside trustHeaders headers headers') :
    requestPdpContext code clock purpose headers identity [] routeIdentity sourceBinding =
      requestPdpContext code clock purpose headers' identity [] routeIdentity sourceBinding := by
  have hnone : sourceObservedAgeLimitSeconds [] = none := rfl
  have hvalue : ∀ name ∉ trustHeaders,
      trustHeaderValue headers name = trustHeaderValue headers' name := by
    intro name hname
    rw [trustHeaderValue, trustHeaderValue, MultiMap.get, MultiMap.get, h name hname]
  have hverified : ∀ headers name field,
      verifiedTrustHeaderValue headers [] name field = none := by
    intro headers name field
    simp [verifiedTrustHeaderValue]
  simp only [requestPdpContext, sourceObservedAtUnixSeconds,
    sourceObservedAtWithAge_of_no_limit hnone, sourceObservedAgeSeconds_of_no_limit hnone, hverified,
    hvalue (str "x-registry-subject-ref") (by decide +kernel),
    hvalue (str "x-registry-relationship") (by decide +kernel),
    hvalue (str "x-registry-on-behalf-of") (by decide +kernel),
    hvalue (str "x-registry-credential-format") (by decide +kernel)]

end TrustConnector
