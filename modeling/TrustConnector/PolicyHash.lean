/-
**The policy hash of a route.**

The decision point is told a hash of the policy that a route enforces.  It is computed from a text
in which the policy is written field by field, and kept in a cache of one entry beside the route.

Main definitions:

* `HashField` — the fields of the text, with their names;
* `hashFields`, `hashMaterial` — the policy of a route as fields and as text;
* `PolicyHashCache`, `getOrCompute` — the cache;
* `routePurposePolicyHash` — the hash of a route's policy, through its cache.

Main results:

* `hashMaterial_eq_iff` — two accepted routes have one text exactly when they have one policy;
* `getOrCompute_coherent`, `cacheRun_eq` — the cache never shows;
* `hashMaterial_injective_and_cache_transparent` — **both together**.
-/

import TrustConnector.Framing
import TrustConnector.Validate

set_option relaxedAutoImplicit false
set_option autoImplicit false

namespace TrustConnector

open Text Framing

/-! ### The text of a policy -/

/-- The fields of the text. -/
inductive HashField where
  | schema | routeId | clientIdentity | localPrefix | upstreamPrefix | requirePurpose
  | method | purpose | governedPolicy | governedMinimumAssurance | governedMaxSourceAgeSeconds
  | governedRequireLegalBasis | governedRequireConsent | governedPermittedPurpose
  | governedPermittedJurisdiction | governedAllowedAssurance | governedRedactionField
  | governedUnsupportedOdrlTerm | trustedJurisdiction | trustedAssertedAssurance
  | trustedLegalBasisRef | trustedConsentRef | trustedSourceObservedAgeSeconds
  deriving DecidableEq

/-- The name of a field. -/
def HashField.name : HashField → Str
  | schema => str "schema"
  | routeId => str "route_id"
  | clientIdentity => str "client_identity"
  | localPrefix => str "local_prefix"
  | upstreamPrefix => str "upstream_prefix"
  | requirePurpose => str "require_purpose"
  | method => str "method"
  | purpose => str "purpose"
  | governedPolicy => str "governed_policy"
  | governedMinimumAssurance => str "governed_minimum_assurance"
  | governedMaxSourceAgeSeconds => str "governed_max_source_age_seconds"
  | governedRequireLegalBasis => str "governed_require_legal_basis"
  | governedRequireConsent => str "governed_require_consent"
  | governedPermittedPurpose => str "governed_permitted_purpose"
  | governedPermittedJurisdiction => str "governed_permitted_jurisdiction"
  | governedAllowedAssurance => str "governed_allowed_assurance"
  | governedRedactionField => str "governed_redaction_field"
  | governedUnsupportedOdrlTerm => str "governed_unsupported_odrl_term"
  | trustedJurisdiction => str "trusted_jurisdiction"
  | trustedAssertedAssurance => str "trusted_asserted_assurance"
  | trustedLegalBasisRef => str "trusted_legal_basis_ref"
  | trustedConsentRef => str "trusted_consent_ref"
  | trustedSourceObservedAgeSeconds => str "trusted_source_observed_age_seconds"

/-- All fields. -/
def HashField.all : List HashField :=
  [schema, routeId, clientIdentity, localPrefix, upstreamPrefix, requirePurpose, method, purpose,
    governedPolicy, governedMinimumAssurance, governedMaxSourceAgeSeconds,
    governedRequireLegalBasis, governedRequireConsent, governedPermittedPurpose,
    governedPermittedJurisdiction, governedAllowedAssurance, governedRedactionField,
    governedUnsupportedOdrlTerm, trustedJurisdiction, trustedAssertedAssurance,
    trustedLegalBasisRef, trustedConsentRef, trustedSourceObservedAgeSeconds]

theorem HashField.mem_all (field : HashField) : field ∈ all := by
  cases field <;> decide

/-- No two fields have one name. -/
theorem HashField.name_injective : Function.Injective HashField.name := by
  have hall : ∀ a ∈ all, ∀ b ∈ all, a.name = b.name → a = b := by decide +kernel
  intro a b h
  exact hall a a.mem_all b b.mem_all h

theorem HashField.colon_not_mem_name (field : HashField) : colon ∉ field.name := by
  have hall : ∀ a ∈ all, colon ∉ a.name := by decide +kernel
  exact hall field field.mem_all

/-- A switch as text. -/
def boolText (b : Bool) : Str := if b then str "true" else str "false"

/-- A number as text, nothing for an absent one. -/
def numberText (n : Option UInt64) : Str := (n.map fun n => decimal n.toNat).getD []

/-- The fields of a trusted context. -/
def contextFields (trusted : GovernedTrustedContextConfig) : List (HashField × Str) :=
  [(.trustedJurisdiction, trusted.jurisdiction.getD []),
    (.trustedAssertedAssurance, trusted.assertedAssurance.getD []),
    (.trustedLegalBasisRef, trusted.legalBasisRef.getD []),
    (.trustedConsentRef, trusted.consentRef.getD []),
    (.trustedSourceObservedAgeSeconds, numberText trusted.sourceObservedAgeSeconds)]

/-- The fields of a governed policy. -/
def policyFields (policy : GovernedRoutePolicyConfig) : List (HashField × Str) :=
  [(.governedPolicy, str "true"),
    (.governedMinimumAssurance, policy.minimumAssurance.getD []),
    (.governedMaxSourceAgeSeconds, numberText policy.maxSourceAgeSeconds),
    (.governedRequireLegalBasis, boolText policy.requireLegalBasis),
    (.governedRequireConsent, boolText policy.requireConsent)] ++
  (group HashField.governedPermittedPurpose (orderedSet policy.permittedPurposes) ++
  (group HashField.governedPermittedJurisdiction (orderedSet policy.permittedJurisdictions) ++
  (group HashField.governedAllowedAssurance (orderedSet policy.allowedAssurance) ++
  (group HashField.governedRedactionField (orderedSet policy.redactionFields) ++
  (group HashField.governedUnsupportedOdrlTerm (orderedSet policy.unsupportedOdrlTerms) ++
    contextFields policy.trustedContext)))))

/-- The trimmed identities of a route's list, without the empty ones. -/
def trimmedIdentities (identities : List Str) : List Str :=
  (identities.map trim).filter fun identity => !identity.isEmpty

/-- **The policy of a route as fields**, in the order they are written. -/
def hashFields (route : RouteConfig) : List (HashField × Str) :=
  [(.schema, str "route-purpose-policy-v3"), (.routeId, route.id),
    (.clientIdentity, trim (route.clientIdentity.getD []))] ++
  (group HashField.clientIdentity (orderedSet (trimmedIdentities route.clientIdentities)) ++
  ([(.localPrefix, route.localPrefix.getD []), (.upstreamPrefix, route.upstreamPrefix.getD []),
      (.requirePurpose, boolText route.requirePurpose)] ++
  (group HashField.method (orderedSet route.methods) ++
  (group HashField.purpose (orderedSet route.purposes) ++
    (route.governedPolicy.map policyFields).getD []))))

/-- **The text that is hashed.** -/
def hashMaterial (route : RouteConfig) : Str := encode HashField.name (hashFields route)

/-! ### The cache -/

/-- The cache of a route: the last text with its hash. -/
abbrev PolicyHashCache := Option (Str × Str)

/-- The hash of a text through the cache, and the cache afterwards. -/
def getOrCompute (cache : PolicyHashCache) (material : Str) (compute : Str → Str) :
    Str × PolicyHashCache :=
  match cache with
  | some (cachedMaterial, cachedHash) =>
      -- one entry for each route: another text replaces it
      if cachedMaterial = material then (cachedHash, cache)
      else (compute material, some (material, compute material))
  | none => (compute material, some (material, compute material))

/-- The hash of a text. -/
def policyHash (P : Pki) (material : Str) : Str := str "sha256:" ++ sha256Hex P material

/-- **The hash of a route's policy**, through the route's cache. -/
def routePurposePolicyHash (P : Pki) (cache : PolicyHashCache) (m : RouteMatch) :
    Str × PolicyHashCache :=
  getOrCompute cache (hashMaterial m.route) (policyHash P)

/-! ### The text determines the policy -/

theorem boolText_injective : Function.Injective boolText := by decide

theorem numberText_injective : Function.Injective numberText := by
  intro a b h
  cases a with
  | none =>
      cases b with
      | none => rfl
      | some b => exact absurd h.symm (decimal_ne_nil _)
  | some a =>
      cases b with
      | none => exact absurd h (decimal_ne_nil _)
      | some b => exact congrArg some (UInt64.toNat_inj.1 (decimal_injective h))

/-- Writing an absent value as the empty text is harmless where no value is empty. -/
theorem getD_injective {a b : Option Str} (ha : ∀ v ∈ a, v ≠ []) (hb : ∀ v ∈ b, v ≠ [])
    (h : a.getD [] = b.getD []) : a = b := by
  cases a with
  | none =>
      cases b with
      | none => rfl
      | some b => exact absurd h.symm (hb b rfl)
  | some a =>
      cases b with
      | none => exact absurd h (ha a rfl)
      | some b => exact congrArg some h

/-- Texts that are not blank are not empty. -/
theorem getD_injective_of_not_blank {a b : Option Str} (ha : ∀ v ∈ a, isBlank v = false)
    (hb : ∀ v ∈ b, isBlank v = false) (h : a.getD [] = b.getD []) : a = b :=
  getD_injective (fun v hv => ne_nil_of_not_blank (ha v hv))
    (fun v hv => ne_nil_of_not_blank (hb v hv)) h

theorem contextFields_injective {a b : GovernedTrustedContextConfig} (ha : CommonContext a)
    (hb : CommonContext b) (h : contextFields a = contextFields b) : a = b := by
  simp only [contextFields, List.cons.injEq, Prod.mk.injEq, true_and, and_true] at h
  obtain ⟨hj, ha', hl, hc, hage⟩ := h
  obtain ⟨j, aa, l, c, age⟩ := a
  obtain ⟨j', aa', l', c', age'⟩ := b
  obtain rfl := getD_injective_of_not_blank ha.jurisdiction hb.jurisdiction hj
  obtain rfl := getD_injective_of_not_blank ha.assertedAssurance hb.assertedAssurance ha'
  obtain rfl := getD_injective_of_not_blank ha.legalBasisRef hb.legalBasisRef hl
  obtain rfl := getD_injective_of_not_blank ha.consentRef hb.consentRef hc
  obtain rfl := numberText_injective hage
  rfl

/-- Two governed policies agree, up to the order and the repetitions in their lists. -/
structure SameGovernedPolicy (p q : GovernedRoutePolicyConfig) : Prop where
  minimumAssurance : p.minimumAssurance = q.minimumAssurance
  maxSourceAgeSeconds : p.maxSourceAgeSeconds = q.maxSourceAgeSeconds
  requireLegalBasis : p.requireLegalBasis = q.requireLegalBasis
  requireConsent : p.requireConsent = q.requireConsent
  permittedPurposes : ∀ v, v ∈ p.permittedPurposes ↔ v ∈ q.permittedPurposes
  permittedJurisdictions : ∀ v, v ∈ p.permittedJurisdictions ↔ v ∈ q.permittedJurisdictions
  allowedAssurance : ∀ v, v ∈ p.allowedAssurance ↔ v ∈ q.allowedAssurance
  redactionFields : ∀ v, v ∈ p.redactionFields ↔ v ∈ q.redactionFields
  unsupportedOdrlTerms : ∀ v, v ∈ p.unsupportedOdrlTerms ↔ v ∈ q.unsupportedOdrlTerms
  trustedContext : p.trustedContext = q.trustedContext

theorem policyFields_eq_iff {p q : GovernedRoutePolicyConfig} (hp : CommonPolicy p)
    (hq : CommonPolicy q) : policyFields p = policyFields q ↔ SameGovernedPolicy p q := by
  constructor
  · intro h
    simp only [policyFields, List.cons_append, List.nil_append, List.cons.injEq, Prod.mk.injEq,
      true_and] at h
    obtain ⟨hmin, hage, hbasis, hconsent, h⟩ := h
    -- peel the groups off one by one: no field that follows a group has its name
    obtain ⟨hpurposes, h⟩ := group_append_inj (by simp [contextFields]) (by simp [contextFields]) h
    obtain ⟨hjurisdictions, h⟩ :=
      group_append_inj (by simp [contextFields]) (by simp [contextFields]) h
    obtain ⟨hassurance, h⟩ := group_append_inj (by simp [contextFields]) (by simp [contextFields]) h
    obtain ⟨hredaction, h⟩ := group_append_inj (by simp [contextFields]) (by simp [contextFields]) h
    obtain ⟨hodrl, h⟩ := group_append_inj (by simp [contextFields]) (by simp [contextFields]) h
    exact ⟨getD_injective_of_not_blank hp.minimumAssurance hq.minimumAssurance hmin,
      numberText_injective hage, boolText_injective hbasis, boolText_injective hconsent,
      orderedSet_eq_iff.1 hpurposes, orderedSet_eq_iff.1 hjurisdictions,
      orderedSet_eq_iff.1 hassurance, orderedSet_eq_iff.1 hredaction, orderedSet_eq_iff.1 hodrl,
      contextFields_injective hp.trustedContext hq.trustedContext h⟩
  · intro h
    rw [policyFields, policyFields, h.minimumAssurance, h.maxSourceAgeSeconds, h.requireLegalBasis,
      h.requireConsent, orderedSet_eq_iff.2 h.permittedPurposes,
      orderedSet_eq_iff.2 h.permittedJurisdictions, orderedSet_eq_iff.2 h.allowedAssurance,
      orderedSet_eq_iff.2 h.redactionFields, orderedSet_eq_iff.2 h.unsupportedOdrlTerms,
      h.trustedContext]

/-- **Two routes enforce one policy**, up to the order and the repetitions in their lists, white
space around identities, and empty identities. -/
structure SamePolicy (r s : RouteConfig) : Prop where
  id : r.id = s.id
  /-- An absent identity counts as an empty one. -/
  clientIdentity : trim (r.clientIdentity.getD []) = trim (s.clientIdentity.getD [])
  clientIdentities : ∀ v, v ∈ trimmedIdentities r.clientIdentities ↔
    v ∈ trimmedIdentities s.clientIdentities
  localPrefix : r.localPrefix = s.localPrefix
  upstreamPrefix : r.upstreamPrefix = s.upstreamPrefix
  requirePurpose : r.requirePurpose = s.requirePurpose
  methods : ∀ v, v ∈ r.methods ↔ v ∈ s.methods
  purposes : ∀ v, v ∈ r.purposes ↔ v ∈ s.purposes
  /-- Both governed policies are absent, or both are there and agree. -/
  governedPolicy : Option.Rel SameGovernedPolicy r.governedPolicy s.governedPolicy

/-- A prefix that passes its check is not empty. -/
theorem ne_nil_of_validateRoutePrefix {pre : Str} (h : validateRoutePrefix pre = .ok ()) :
    pre ≠ [] := by
  obtain ⟨t, rfl⟩ := slash_of_validateRoutePrefix h
  exact List.cons_ne_nil slash t

/-- The names of a governed policy's fields are its own. -/
theorem avoids_governed {name : HashField}
    (h : name = .clientIdentity ∨ name = .method ∨ name = .purpose)
    (policy : Option GovernedRoutePolicyConfig) : Avoids name ((policy.map policyFields).getD []) := by
  cases policy with
  | none => exact avoids_nil name
  | some p =>
      rcases h with rfl | rfl | rfl <;> simp [policyFields, contextFields]

theorem governedFields_eq_iff {a b : Option GovernedRoutePolicyConfig}
    (ha : ∀ p ∈ a, CommonPolicy p) (hb : ∀ p ∈ b, CommonPolicy p) :
    (a.map policyFields).getD [] = (b.map policyFields).getD [] ↔
      Option.Rel SameGovernedPolicy a b := by
  cases a with
  | none =>
      cases b with
      | none => simp [Option.rel_none_none]
      | some q => simp [policyFields]
  | some p =>
      cases b with
      | none => simp [policyFields]
      | some q =>
          rw [Option.rel_some_some]
          exact policyFields_eq_iff (ha p rfl) (hb q rfl)

/-- **The fields determine the policy**, for routes that pass the common checks. -/
theorem hashFields_eq_iff {r s : RouteConfig} (hr : CommonRoute r) (hs : CommonRoute s) :
    hashFields r = hashFields s ↔ SamePolicy r s := by
  have havoid := @avoids_governed
  constructor
  · intro h
    simp only [hashFields, List.cons_append, List.nil_append, List.cons.injEq, Prod.mk.injEq,
      true_and] at h
    obtain ⟨hid, hidentity, h⟩ := h
    obtain ⟨hidentities, h⟩ := group_append_inj (by simp [havoid]) (by simp [havoid]) h
    simp only [List.cons.injEq, Prod.mk.injEq, true_and] at h
    obtain ⟨hlocal, hupstream, hpurpose, h⟩ := h
    obtain ⟨hmethods, h⟩ := group_append_inj (by simp [havoid]) (by simp [havoid]) h
    obtain ⟨hpurposes, h⟩ := group_append_inj (by simp [havoid]) (by simp [havoid]) h
    -- an absent prefix is written as an empty text, which no accepted prefix is
    exact ⟨hid, hidentity, orderedSet_eq_iff.1 hidentities,
      getD_injective (fun p hp => ne_nil_of_validateRoutePrefix (hr.localPrefix p hp))
        (fun p hp => ne_nil_of_validateRoutePrefix (hs.localPrefix p hp)) hlocal,
      getD_injective (fun p hp => ne_nil_of_validateRoutePrefix (hr.upstreamPrefix p hp))
        (fun p hp => ne_nil_of_validateRoutePrefix (hs.upstreamPrefix p hp)) hupstream,
      boolText_injective hpurpose, orderedSet_eq_iff.1 hmethods, orderedSet_eq_iff.1 hpurposes,
      (governedFields_eq_iff hr.governedPolicy hs.governedPolicy).1 h⟩
  · intro h
    rw [hashFields, hashFields, h.id, h.clientIdentity, orderedSet_eq_iff.2 h.clientIdentities,
      h.localPrefix, h.upstreamPrefix, h.requirePurpose, orderedSet_eq_iff.2 h.methods,
      orderedSet_eq_iff.2 h.purposes,
      (governedFields_eq_iff hr.governedPolicy hs.governedPolicy).2 h.governedPolicy]

/-- **The text determines the policy.** -/
theorem hashMaterial_eq_iff {r s : RouteConfig} (hr : CommonRoute r) (hs : CommonRoute s) :
    hashMaterial r = hashMaterial s ↔ SamePolicy r s := by
  rw [← hashFields_eq_iff hr hs]
  exact (encode_injective HashField.colon_not_mem_name HashField.name_injective).eq_iff

/-! ### The cache never shows -/

/-- What a cache holds was computed. -/
def Coherent (compute : Str → Str) (cache : PolicyHashCache) : Prop :=
  ∀ entry ∈ cache, entry.2 = compute entry.1

/-- One call returns what it would compute, and leaves a coherent cache. -/
theorem getOrCompute_coherent {compute : Str → Str} {cache : PolicyHashCache}
    (h : Coherent compute cache) (material : Str) :
    (getOrCompute cache material compute).1 = compute material ∧
      Coherent compute (getOrCompute cache material compute).2 := by
  have hnew : Coherent compute (some (material, compute material)) := by
    rintro entry ⟨⟩
    rfl
  cases cache with
  | none => exact ⟨rfl, hnew⟩
  | some entry =>
      obtain ⟨cachedMaterial, cachedHash⟩ := entry
      by_cases heq : cachedMaterial = material
      · simp only [getOrCompute, if_pos heq]
        exact ⟨heq ▸ h _ rfl, h⟩
      · simp only [getOrCompute, if_neg heq, true_and]
        exact hnew

/-- The results of a sequence of calls through one cache. -/
def cacheRun (compute : Str → Str) : PolicyHashCache → List Str → List Str
  | _, [] => []
  | cache, material :: rest =>
      (getOrCompute cache material compute).1 ::
        cacheRun compute (getOrCompute cache material compute).2 rest

theorem cacheRun_eq {compute : Str → Str} {cache : PolicyHashCache} (h : Coherent compute cache)
    (materials : List Str) : cacheRun compute cache materials = materials.map compute := by
  induction materials generalizing cache with
  | nil => rfl
  | cons material rest ih =>
      obtain ⟨hvalue, hcoherent⟩ := getOrCompute_coherent h material
      rw [cacheRun, hvalue, ih hcoherent, List.map_cons]

/-- **The text is injective up to normalisation, and the cache is transparent.**  Two routes of
accepted configurations have the same text exactly when they enforce the same policy, and in every
sequence of calls through a fresh cache each call returns the digest of its own text. -/
theorem hashMaterial_injective_and_cache_transparent {c₁ c₂ : ConnectorConfig} {r s : RouteConfig}
    (h₁ : validateCommon c₁ = []) (hr : r ∈ c₁.routes) (h₂ : validateCommon c₂ = [])
    (hs : s ∈ c₂.routes) :
    (hashMaterial r = hashMaterial s ↔ SamePolicy r s) ∧
      ∀ (P : Pki) (materials : List Str), cacheRun (policyHash P) none materials =
        materials.map fun material => str "sha256:" ++ sha256Hex P material := by
  refine ⟨hashMaterial_eq_iff (commonRoute_of_validateCommon h₁ r hr)
    (commonRoute_of_validateCommon h₂ s hs), fun P materials => ?_⟩
  exact cacheRun_eq (fun entry hentry => by cases hentry) materials

namespace Sample

/-- The sample route, with its method listed twice. -/
def routeTwice : RouteConfig := { route (str "/v1") with methods := [str "GET", str "GET"] }

end Sample

/-- Listing a method twice does not change the text. -/
theorem hashMaterial_injective_and_cache_transparent_sample :
    hashMaterial (Sample.route (str "/v1")) = hashMaterial Sample.routeTwice := by
  have h₁ : validateCommon (Sample.bothModes (str "/v1")) = [] := by decide +kernel
  have h₂ : validateCommon { Sample.bothModes (str "/v1") with routes := [Sample.routeTwice] } =
      [] := by decide +kernel
  refine (hashMaterial_injective_and_cache_transparent h₁ List.mem_cons_self h₂
    List.mem_cons_self).1.2 ?_
  exact ⟨rfl, rfl, fun _ => Iff.rfl, rfl, rfl, rfl, by simp [Sample.route, Sample.routeTwice],
    fun _ => Iff.rfl, Option.Rel.none⟩

end TrustConnector
