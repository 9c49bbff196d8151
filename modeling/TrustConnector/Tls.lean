/-
**The trust policy of the server connector.**

The TLS handshake accepts a client certificate under any configured anchor.  What binds an
identity to the anchors that may vouch for it is the trust policy: `verifyPeer` takes the identity
from the leaf, finds the root store of the identity's trust domain or of the DNS identity itself,
and verifies the chain once more against that store alone.

Main definitions:

* `ServerTrustPolicy`, `ServerTrustPolicy.fromConfig` — the policy, built once at start-up;
* `ServerTrustPolicy.verifyPeer` — the verdict on a certificate chain.

Main results:

* `fromConfig_domain`, `fromConfig_dnsIdentity` — the root stores of a policy;
* `verifyPeer_eq_ok_iff` — **when a peer is accepted**;
* `verifyPeer_trustDomain_isolated` — the verdict on an identity of one trust domain depends on
  the anchors of that domain alone;
* `verifyPeer_binding_follows_kind_iff` — for which alternative names the anchors that vouch for
  an identity are the ones its kind calls for.
-/

import TrustConnector.Errors
import TrustConnector.Identity

set_option relaxedAutoImplicit false
set_option autoImplicit false

namespace TrustConnector

open Text Fallible

variable (P : Pki) (H : Host)

/-! ### The policy -/

/-- The root stores of the trust domains and of the DNS identities, and the denied fingerprints. -/
structure ServerTrustPolicy where
  anchorsByDomain : StrMap RootCertStore
  anchorsByDnsIdentity : StrMap RootCertStore
  deniedCertificateFingerprintsSha256 : List Str
  allowDnsSanIdentity : Bool

/-- Add the certificate of each file to a root store. -/
def addRoots (roots : RootCertStore) : List Str → Except ConnectorError RootCertStore
  | [] => .ok roots
  | path :: paths => do
      let cert ← (loadSingleCaCert P H path).mapError .tls
      (P.addRoot cert).mapError fun err =>
        .tls (str "invalid trust anchor '" ++ path ++ str "': " ++ err)
      addRoots (roots ++ [cert]) paths

def rootStoreFromPaths (paths : List Str) : Except ConnectorError RootCertStore :=
  addRoots P H [] paths

/-- The configured denylist, empty without a `client_trust` section. -/
def ConnectorConfig.deniedFingerprints (config : ConnectorConfig) : List Str :=
  match config.clientTrust with
  | none => []
  | some trust => trust.deniedCertificateFingerprintsSha256

def ServerTrustPolicy.fromConfig (config : ConnectorConfig) :
    Except ConnectorError ServerTrustPolicy := do
  let anchorsByDomain ← StrMap.mapM (rootStoreFromPaths P H) (trustDomainMap config)
  let anchorsByDnsIdentity ← StrMap.mapM (rootStoreFromPaths P H) (dnsIdentityMap config)
  return {
    anchorsByDomain, anchorsByDnsIdentity
    deniedCertificateFingerprintsSha256 :=
      orderedSet (config.deniedFingerprints.map toAsciiLowercase)
    allowDnsSanIdentity := config.allowDnsSanIdentity }

/-! ### The verdict on a peer -/

def verifyChainAgainstRoots (roots : RootCertStore) (chain : List Str) : Except Str Unit := do
  P.buildVerifier roots
  match chain with
  | [] => .error (str "peer did not present a certificate")
  | leaf :: intermediates =>
      (P.verifyClientCert roots leaf intermediates H.unixNow).mapError fun err =>
        str "peer certificate does not chain to bound trust domain anchor: " ++ err

/-- The root store that may vouch for an identity, chosen by the text of the identity. -/
def ServerTrustPolicy.rootsFor (policy : ServerTrustPolicy) (value : Str) :
    Except Str RootCertStore :=
  match spiffeTrustDomain value with
  | some domain =>
      okOr (str "no trust anchor for trust domain '" ++ domain ++ str "'")
        (policy.anchorsByDomain.lookup domain)
  | none =>
      if !policy.allowDnsSanIdentity then .error (str "DNS SAN identity fallback is disabled")
      else
        okOr (str "no trust anchor is bound to DNS SAN identity '" ++ value ++ str "'")
          (policy.anchorsByDnsIdentity.lookup value)

/-- **The verdict on a certificate chain.** -/
def ServerTrustPolicy.verifyPeer (policy : ServerTrustPolicy) (chain : List Str) :
    Except Str PeerIdentity := do
  let leaf ← okOr (str "peer did not present a certificate") chain.head?
  let identity ← extractPeerIdentityFromDer P H leaf policy.allowDnsSanIdentity
  if identity.fingerprintSha256 ∈ policy.deniedCertificateFingerprintsSha256 then
    .error (str "peer certificate fingerprint is denied")
  else do
    -- only the text of the identity goes on: whether it was a URI or a DNS name is not asked again
    let roots ← policy.rootsFor identity.value
    verifyChainAgainstRoots P H roots chain
    return identity

/-! ### The root stores -/

/-- The certificates that a list of CA files adds to a root store, in order. -/
theorem addRoots_eq_ok {roots out : RootCertStore} {paths : List Str}
    (h : addRoots P H roots paths = .ok out) :
    ∃ certs, out = roots ++ certs ∧
      List.Forall₂ (fun path cert => loadSingleCaCert P H path = .ok cert) paths certs := by
  induction paths generalizing roots with
  | nil =>
      rw [addRoots, Except.ok.injEq] at h
      exact ⟨[], by rw [h, List.append_nil], List.Forall₂.nil⟩
  | cons path paths ih =>
      simp only [addRoots, chain_eq_ok, mapError_ok_iff] at h
      obtain ⟨cert, hcert, -, -, hrest⟩ := h
      obtain ⟨certs, rfl, hall⟩ := ih hrest
      exact ⟨cert :: certs, by rw [List.append_assoc, List.singleton_append],
        List.Forall₂.cons hcert hall⟩

/-- **A root store holds exactly the certificates of its files.** -/
theorem rootStoreFromPaths_eq_ok {paths : List Str} {roots : RootCertStore}
    (h : rootStoreFromPaths P H paths = .ok roots) :
    List.Forall₂ (fun path cert => loadSingleCaCert P H path = .ok cert) paths roots := by
  obtain ⟨certs, rfl, hall⟩ := addRoots_eq_ok P H h
  exact hall

variable {P H} {config : ConnectorConfig} {policy : ServerTrustPolicy}

theorem fromConfig_eq_ok (h : ServerTrustPolicy.fromConfig P H config = .ok policy) :
    StrMap.mapM (rootStoreFromPaths P H) (trustDomainMap config) = .ok policy.anchorsByDomain ∧
      StrMap.mapM (rootStoreFromPaths P H) (dnsIdentityMap config) =
        .ok policy.anchorsByDnsIdentity ∧
      policy.deniedCertificateFingerprintsSha256 =
        orderedSet (config.deniedFingerprints.map toAsciiLowercase) ∧
      policy.allowDnsSanIdentity = config.allowDnsSanIdentity := by
  simp only [ServerTrustPolicy.fromConfig, chain_eq_ok] at h
  obtain ⟨domains, hdomains, identities, hidentities, hpolicy⟩ := h
  simp only [pure, Except.pure, Except.ok.injEq] at hpolicy
  subst hpolicy
  exact ⟨hdomains, hidentities, rfl, rfl⟩

/-- A map rebuilt from groups of files holds the store of each group, and no other. -/
theorem lookup_of_groups {files : Str → List Str} {groups : StrMap (List Str)}
    {stores : StrMap RootCertStore}
    (hgroups : ∀ k, groups.lookup k = if files k = [] then none else some (files k))
    (h : StrMap.mapM (rootStoreFromPaths P H) groups = .ok stores) (k : Str) :
    (files k = [] ∧ stores.lookup k = none) ∨
      (files k ≠ [] ∧ ∃ roots, rootStoreFromPaths P H (files k) = .ok roots ∧
        stores.lookup k = some roots) := by
  rcases StrMap.lookup_mapM h k with ⟨paths, roots, hpaths, hroots, hout⟩ | ⟨hnone, hout⟩
  · rw [hgroups] at hpaths
    split_ifs at hpaths with hnil
    obtain rfl := Option.some.inj hpaths
    exact Or.inr ⟨hnil, roots, hroots, hout⟩
  · rw [hgroups] at hnone
    split_ifs at hnone with hnil
    exact Or.inl ⟨hnil, hout⟩

/-- **The root store of a trust domain** is made of the CA files of its anchors. -/
theorem fromConfig_domain (h : ServerTrustPolicy.fromConfig P H config = .ok policy)
    (domain : Str) :
    (caFilesOfDomain config domain = [] ∧ policy.anchorsByDomain.lookup domain = none) ∨
      (caFilesOfDomain config domain ≠ [] ∧
        ∃ roots, rootStoreFromPaths P H (caFilesOfDomain config domain) = .ok roots ∧
          policy.anchorsByDomain.lookup domain = some roots) :=
  lookup_of_groups (trustDomainMap_lookup config) (fromConfig_eq_ok h).1 domain

/-- **The root store of a DNS identity** is made of the CA files of the anchors that list it. -/
theorem fromConfig_dnsIdentity (h : ServerTrustPolicy.fromConfig P H config = .ok policy)
    (identity : Str) :
    (caFilesOfDnsIdentity config identity = [] ∧
        policy.anchorsByDnsIdentity.lookup identity = none) ∨
      (caFilesOfDnsIdentity config identity ≠ [] ∧
        ∃ roots, rootStoreFromPaths P H (caFilesOfDnsIdentity config identity) = .ok roots ∧
          policy.anchorsByDnsIdentity.lookup identity = some roots) :=
  lookup_of_groups (dnsIdentityMap_lookup config) (fromConfig_eq_ok h).2.1 identity

/-- A store that a trust domain has was made of the CA files of the domain's anchors. -/
theorem files_of_domain_lookup (h : ServerTrustPolicy.fromConfig P H config = .ok policy)
    {domain : Str} {roots : RootCertStore}
    (hlookup : policy.anchorsByDomain.lookup domain = some roots) :
    caFilesOfDomain config domain ≠ [] ∧
      rootStoreFromPaths P H (caFilesOfDomain config domain) = .ok roots := by
  rcases fromConfig_domain h domain with ⟨-, hnone⟩ | ⟨hne, roots', hroots, hsome⟩
  · exact nomatch hnone.symm.trans hlookup
  · obtain rfl : roots' = roots := Option.some.inj (hsome.symm.trans hlookup)
    exact ⟨hne, hroots⟩

/-- A store that a DNS identity has was made of the CA files of the anchors that list it. -/
theorem files_of_dnsIdentity_lookup (h : ServerTrustPolicy.fromConfig P H config = .ok policy)
    {identity : Str} {roots : RootCertStore}
    (hlookup : policy.anchorsByDnsIdentity.lookup identity = some roots) :
    caFilesOfDnsIdentity config identity ≠ [] ∧
      rootStoreFromPaths P H (caFilesOfDnsIdentity config identity) = .ok roots := by
  rcases fromConfig_dnsIdentity h identity with ⟨-, hnone⟩ | ⟨hne, roots', hroots, hsome⟩
  · exact nomatch hnone.symm.trans hlookup
  · obtain rfl : roots' = roots := Option.some.inj (hsome.symm.trans hlookup)
    exact ⟨hne, hroots⟩

/-- Two policies with the same CA files for a trust domain have the same store for it. -/
theorem anchorsByDomain_congr {c₁ c₂ : ConnectorConfig} {p₁ p₂ : ServerTrustPolicy} {domain : Str}
    (h₁ : ServerTrustPolicy.fromConfig P H c₁ = .ok p₁)
    (h₂ : ServerTrustPolicy.fromConfig P H c₂ = .ok p₂)
    (hfiles : caFilesOfDomain c₁ domain = caFilesOfDomain c₂ domain) :
    p₁.anchorsByDomain.lookup domain = p₂.anchorsByDomain.lookup domain := by
  rcases fromConfig_domain h₁ domain with ⟨hnil₁, hl₁⟩ | ⟨hne₁, roots₁, hr₁, hl₁⟩ <;>
    rcases fromConfig_domain h₂ domain with ⟨hnil₂, hl₂⟩ | ⟨hne₂, roots₂, hr₂, hl₂⟩
  · rw [hl₁, hl₂]
  · exact absurd (hfiles ▸ hnil₁) hne₂
  · exact absurd (hfiles.symm ▸ hnil₂) hne₁
  · rw [hfiles, hr₂, Except.ok.injEq] at hr₁
    rw [hl₁, hl₂, hr₁]

/-! ### When a peer is accepted -/

variable (P H)

/-- A chain is verified against the roots, its first certificate being the leaf. -/
def ChainVerifies (roots : RootCertStore) (chain : List Str) : Prop :=
  verifyChainAgainstRoots P H roots chain = .ok ()

variable {P H} {chain : List Str} {leaf : Str} {identity : PeerIdentity}

theorem verifyPeer_of_identity (hleaf : chain.head? = some leaf)
    (hid : extractPeerIdentityFromDer P H leaf policy.allowDnsSanIdentity = .ok identity) :
    policy.verifyPeer P H chain =
      if identity.fingerprintSha256 ∈ policy.deniedCertificateFingerprintsSha256 then
        .error (str "peer certificate fingerprint is denied")
      else do
        let roots ← policy.rootsFor identity.value
        verifyChainAgainstRoots P H roots chain
        return identity := by
  rw [ServerTrustPolicy.verifyPeer, hleaf, okOr, ok_bind, hid, ok_bind]

/-- **When a peer is accepted**: its leaf yields the identity, its fingerprint is not denied, and
its chain verifies against the store that the identity's text selects. -/
theorem verifyPeer_eq_ok_iff :
    policy.verifyPeer P H chain = .ok identity ↔
      ∃ leaf roots, chain.head? = some leaf ∧
        extractPeerIdentityFromDer P H leaf policy.allowDnsSanIdentity = .ok identity ∧
        identity.fingerprintSha256 ∉ policy.deniedCertificateFingerprintsSha256 ∧
        policy.rootsFor identity.value = .ok roots ∧ ChainVerifies P H roots chain := by
  constructor
  · intro h
    have hsteps := h
    simp only [ServerTrustPolicy.verifyPeer, chain_eq_ok, okOr_eq_ok] at hsteps
    obtain ⟨leaf, hleaf, identity', hid, -⟩ := hsteps
    rw [verifyPeer_of_identity hleaf hid] at h
    split_ifs at h with hdenied
    simp only [chain_eq_ok, pure, Except.pure, Except.ok.injEq] at h
    obtain ⟨roots, hroots, ⟨⟩, hverify, rfl⟩ := h
    exact ⟨leaf, roots, hleaf, hid, hdenied, hroots, hverify⟩
  · rintro ⟨leaf, roots, hleaf, hid, hdenied, hroots, hverify⟩
    rw [verifyPeer_of_identity hleaf hid, if_neg hdenied, hroots, ok_bind, hverify]
    rfl

theorem rootsFor_domain {value domain : Str} (h : spiffeTrustDomain value = some domain) :
    policy.rootsFor value =
      okOr (str "no trust anchor for trust domain '" ++ domain ++ str "'")
        (policy.anchorsByDomain.lookup domain) := by
  rw [ServerTrustPolicy.rootsFor, h]

theorem rootsFor_dnsIdentity {value : Str} {roots : RootCertStore}
    (h : spiffeTrustDomain value = none) (hroots : policy.rootsFor value = .ok roots) :
    policy.allowDnsSanIdentity = true ∧ policy.anchorsByDnsIdentity.lookup value = some roots := by
  rw [ServerTrustPolicy.rootsFor, h] at hroots
  cases hallow : policy.allowDnsSanIdentity with
  | false => simp [hallow] at hroots
  | true =>
      simp only [hallow, Bool.not_true, Bool.false_eq_true, if_false, okOr_eq_ok] at hroots
      exact ⟨rfl, hroots⟩

/-! ### Isolation of trust domains -/

/-- **Isolation of trust domains.**  Two policies with the same DNS switch, the same denylist and
the same CA files for a trust domain give the same verdict on every chain whose identity belongs to
that domain, whatever else they trust.  A chain is accepted only if the domain has an anchor, the
chain verifies against a store made of exactly the certificates of the domain's anchors, and the
leaf's fingerprint is not denied in any letter case. -/
theorem verifyPeer_trustDomain_isolated (P : Pki) (H₀ H : Host) {c₁ c₂ : ConnectorConfig}
    {p₁ p₂ : ServerTrustPolicy} {chain : List Str} {leaf : Str} {id : PeerIdentity} {domain : Str}
    (h₁ : ServerTrustPolicy.fromConfig P H₀ c₁ = .ok p₁)
    (h₂ : ServerTrustPolicy.fromConfig P H₀ c₂ = .ok p₂)
    (hallow : c₁.allowDnsSanIdentity = c₂.allowDnsSanIdentity)
    (hdenied : c₁.deniedFingerprints = c₂.deniedFingerprints)
    (hleaf : chain.head? = some leaf)
    (hid : extractPeerIdentityFromDer P H leaf c₁.allowDnsSanIdentity = .ok id)
    (hdomain : spiffeTrustDomain id.value = some domain)
    (hfiles : caFilesOfDomain c₁ domain = caFilesOfDomain c₂ domain) :
    p₁.verifyPeer P H chain = p₂.verifyPeer P H chain ∧
      ∀ id', p₁.verifyPeer P H chain = .ok id' →
        (∃ anchor ∈ c₁.trustAnchors, anchor.trustDomain = domain) ∧
        (∃ roots, List.Forall₂ (fun path cert => loadSingleCaCert P H₀ path = .ok cert)
            (caFilesOfDomain c₁ domain) roots ∧ ChainVerifies P H roots chain) ∧
        ∀ denied ∈ c₁.deniedFingerprints,
          toAsciiLowercase denied ≠ toAsciiLowercase (sha256Hex P leaf) := by
  obtain ⟨-, -, hdeny₁, hallow₁⟩ := fromConfig_eq_ok h₁
  obtain ⟨-, -, hdeny₂, hallow₂⟩ := fromConfig_eq_ok h₂
  have hid₁ : extractPeerIdentityFromDer P H leaf p₁.allowDnsSanIdentity = .ok id := by
    rw [hallow₁, hid]
  have hid₂ : extractPeerIdentityFromDer P H leaf p₂.allowDnsSanIdentity = .ok id := by
    rw [hallow₂, ← hallow, hid]
  constructor
  · rw [verifyPeer_of_identity hleaf hid₁, verifyPeer_of_identity hleaf hid₂, hdeny₁, hdeny₂,
      hdenied, rootsFor_domain hdomain, rootsFor_domain hdomain, anchorsByDomain_congr h₁ h₂ hfiles]
  · intro id' hok
    obtain ⟨leaf', roots, hleaf', hid', hnot, hroots, hverify⟩ := verifyPeer_eq_ok_iff.1 hok
    obtain rfl : leaf = leaf' := Option.some.inj (hleaf.symm.trans hleaf')
    obtain rfl : id = id' := Except.ok.inj (hid₁.symm.trans hid')
    rw [rootsFor_domain hdomain, okOr_eq_ok] at hroots
    obtain ⟨hne, hstore⟩ := files_of_domain_lookup h₁ hroots
    refine ⟨caFilesOfDomain_ne_nil.1 hne,
      ⟨roots, rootStoreFromPaths_eq_ok P H₀ hstore, hverify⟩, ?_⟩
    intro denied hmem heq
    obtain ⟨cert, names, -, -, -, -, -, hfp⟩ := (extractPeerIdentityFromDer_eq_ok_iff P H).1 hid
    rw [toAsciiLowercase_sha256Hex, ← hfp] at heq
    rw [hdeny₁, mem_orderedSet] at hnot
    exact hnot (heq ▸ List.mem_map_of_mem hmem)

namespace Sample

/-- A server configuration with the given anchors, and nothing denied. -/
def anchored (anchors : List TrustAnchorConfig) (allowDns : Bool) : ConnectorConfig :=
  { listen := .unix (str "/run/connector.sock")
    clientTrust := some { trustAnchors := anchors }
    allowDnsSanIdentity := allowDns }

/-- The chain of a client of the domain `alpha`. -/
def alphaChain : List Str := [str "spiffe://alpha/client", str "alpha-ca.pem"]

def alphaAnchor : TrustAnchorConfig := { ca := str "alpha-ca.pem", trustDomain := str "alpha" }

def betaAnchor : TrustAnchorConfig :=
  { ca := str "beta-ca.pem", trustDomain := str "beta", dnsIdentities := [str "beta.example"] }

/-- The libraries, with every certificate naming itself. -/
abbrev uriPki : Pki := pki fun der => [.uri der]

/-- The policy of a configuration. -/
def policyOf (P : Pki) (config : ConnectorConfig) : ServerTrustPolicy :=
  match ServerTrustPolicy.fromConfig P host config with
  | .ok policy => policy
  | .error _ => ⟨∅, ∅, [], false⟩

abbrev alphaOnly : ConnectorConfig := anchored [alphaAnchor] false

abbrev alphaAndBeta : ConnectorConfig := anchored [betaAnchor, alphaAnchor] false

end Sample

section Isolation

open Sample

/-- The client of `alpha` is accepted whether or not `beta` is trusted too. -/
theorem verifyPeer_trustDomain_isolated_alpha :
    ServerTrustPolicy.fromConfig uriPki host alphaOnly = .ok (policyOf uriPki alphaOnly) ∧
      (policyOf uriPki alphaOnly).verifyPeer uriPki host alphaChain =
        (policyOf uriPki alphaAndBeta).verifyPeer uriPki host alphaChain ∧
      ((policyOf uriPki alphaOnly).verifyPeer uriPki host alphaChain).toOption.map (·.value) =
        some (str "spiffe://alpha/client") := by
  have h₁ : ServerTrustPolicy.fromConfig uriPki host alphaOnly =
      .ok (policyOf uriPki alphaOnly) := rfl
  have h₂ : ServerTrustPolicy.fromConfig uriPki host alphaAndBeta =
      .ok (policyOf uriPki alphaAndBeta) := rfl
  have hleaf : alphaChain.head? = some (str "spiffe://alpha/client") := rfl
  have hdomain : spiffeTrustDomain (str "spiffe://alpha/client") = some (str "alpha") := by
    decide +kernel
  have hfiles : caFilesOfDomain alphaOnly (str "alpha") =
      caFilesOfDomain alphaAndBeta (str "alpha") := by decide +kernel
  refine ⟨h₁, ?_, by decide +kernel⟩
  exact (verifyPeer_trustDomain_isolated uriPki host host h₁ h₂ rfl rfl hleaf rfl hdomain hfiles).1

end Isolation

/-! ### The kind of an identity and the anchors that vouch for it -/

/-- **The anchors that vouched for an identity are the ones its kind calls for**: those that list
a DNS identity, with the DNS switch on, and those of the trust domain of a URI identity. -/
def BindingFollowsKind (P : Pki) (H₀ H : Host) (config : ConnectorConfig) (chain : List Str)
    (identity : PeerIdentity) : Prop :=
  (identity.kind = .dnsSan → config.allowDnsSanIdentity = true ∧
    caFilesOfDnsIdentity config identity.value ≠ [] ∧
    ∃ roots, rootStoreFromPaths P H₀ (caFilesOfDnsIdentity config identity.value) = .ok roots ∧
      ChainVerifies P H roots chain) ∧
  (identity.kind = .uriSan → ∃ domain, spiffeTrustDomain identity.value = some domain ∧
    caFilesOfDomain config domain ≠ [] ∧
    ∃ roots, rootStoreFromPaths P H₀ (caFilesOfDomain config domain) = .ok roots ∧
      ChainVerifies P H roots chain)

/-- The text of the selected name says the same as its kind: a URI identity has a trust domain
(or the DNS switch is off), and a DNS identity does not spell a SPIFFE identity. -/
def TextAgreesWithKind (names : List GeneralName) (allow : Bool) : Prop :=
  ∀ value kind, selectIdentity names allow = some (value, kind) →
    (kind = .uriSan → allow = true → spiffeTrustDomain value ≠ none) ∧
      (kind = .dnsSan → spiffeTrustDomain value = none)

namespace Sample

theorem rootStore_eq (names : Str → List GeneralName) (paths : List Str) :
    rootStoreFromPaths (pki names) host paths = .ok paths := by
  have hadd : ∀ roots, addRoots (pki names) host roots paths = .ok (roots ++ paths) := by
    induction paths with
    | nil => intro roots; rw [addRoots, List.append_nil]
    | cons path paths ih =>
        intro roots
        have hload : loadSingleCaCert (pki names) host path = .ok path := rfl
        rw [addRoots, hload]
        simp only [Except.mapError, ok_bind, pki]
        rw [← pki, ih, List.append_assoc, List.singleton_append]
  exact hadd []

/-- Every configuration has a policy. -/
theorem fromConfig_total (names : Str → List GeneralName) (config : ConnectorConfig) :
    ∃ policy, ServerTrustPolicy.fromConfig (pki names) host config = .ok policy := by
  have htotal : ∀ paths, ∃ roots, rootStoreFromPaths (pki names) host paths = .ok roots :=
    fun paths => ⟨paths, rootStore_eq names paths⟩
  obtain ⟨domains, hdomains⟩ := StrMap.mapM_total htotal (trustDomainMap config)
  obtain ⟨identities, hidentities⟩ := StrMap.mapM_total htotal (dnsIdentityMap config)
  exact ⟨_, by rw [ServerTrustPolicy.fromConfig, hdomains, hidentities]; rfl⟩

/-- A self-signed leaf is accepted when its identity is bound to a store that contains it. -/
theorem verifyPeer_self {names : List GeneralName} {config : ConnectorConfig}
    {policy : ServerTrustPolicy} {ca value : Str} {kind : IdentityKind} {roots : RootCertStore}
    (hpolicy : ServerTrustPolicy.fromConfig (pki fun _ => names) host config = .ok policy)
    (hdenied : config.deniedFingerprints = [])
    (hsel : selectIdentity names config.allowDnsSanIdentity = some (value, kind))
    (hroots : policy.rootsFor value = .ok roots) (hca : ca ∈ roots) :
    policy.verifyPeer (pki fun _ => names) host [ca] =
      .ok ⟨value, kind, sha256Hex (pki fun _ => names) ca⟩ := by
  obtain ⟨-, -, hdeny, hallow⟩ := fromConfig_eq_ok hpolicy
  refine verifyPeer_eq_ok_iff.2 ⟨ca, roots, rfl, ?_, ?_, hroots, ?_⟩
  · refine (extractPeerIdentityFromDer_eq_ok_iff _ _).2 ⟨_, names, rfl, rfl, rfl, rfl, ?_, rfl⟩
    rw [hallow, hsel]
  · rw [hdeny, hdenied]
    simp [orderedSet]
  · have hne : roots.isEmpty = false := by
      cases roots with
      | nil => cases hca
      | cons => rfl
    have hmem : roots.any (fun root => decide (root ∈ [ca])) = true :=
      List.any_eq_true.2 ⟨ca, hca, by simp⟩
    simp only [ChainVerifies, verifyChainAgainstRoots, pki, hne, hmem]
    rfl

/-- One anchor, self-signed, for a trust domain and the given DNS identities. -/
def selfSigned (domain : Str) (dnsIdentities : List Str) (allow : Bool) : ConnectorConfig :=
  anchored [⟨str "ca.pem", domain, dnsIdentities⟩] allow

/-- With the DNS switch on, a name without a trust domain is accepted through an anchor that lists
it, whatever its kind. -/
theorem accepted_through_dnsIdentity {names : List GeneralName} {value : Str} {kind : IdentityKind}
    (hsel : selectIdentity names true = some (value, kind))
    (hnone : spiffeTrustDomain value = none) :
    ∃ policy, ServerTrustPolicy.fromConfig (pki fun _ => names) host
        (selfSigned (str "alpha") [value] true) = .ok policy ∧
      policy.verifyPeer (pki fun _ => names) host [str "ca.pem"] =
        .ok ⟨value, kind, sha256Hex (pki fun _ => names) (str "ca.pem")⟩ := by
  obtain ⟨policy, hpolicy⟩ := fromConfig_total (fun _ => names) (selfSigned (str "alpha") [value] true)
  have hfiles : caFilesOfDnsIdentity (selfSigned (str "alpha") [value] true) value =
      [str "ca.pem"] := by
    simp [caFilesOfDnsIdentity, selfSigned, anchored, ConnectorConfig.trustAnchors]
  refine ⟨policy, hpolicy, ?_⟩
  rcases fromConfig_dnsIdentity hpolicy value with ⟨hnil, -⟩ | ⟨-, roots, hr, hl⟩
  · rw [hfiles] at hnil
    cases hnil
  · rw [hfiles, rootStore_eq, Except.ok.injEq] at hr
    have hroots : policy.rootsFor value = .ok roots := by
      rw [ServerTrustPolicy.rootsFor, hnone, (fromConfig_eq_ok hpolicy).2.2.2]
      simp [selfSigned, anchored, hl, okOr]
    exact verifyPeer_self hpolicy rfl hsel hroots (by simp [← hr])

/-- A name with a trust domain is accepted through an anchor of the domain, whatever its kind. -/
theorem accepted_through_domain {names : List GeneralName} {allow : Bool} {value domain : Str}
    {kind : IdentityKind} (hsel : selectIdentity names allow = some (value, kind))
    (hdomain : spiffeTrustDomain value = some domain) :
    ∃ policy, ServerTrustPolicy.fromConfig (pki fun _ => names) host
        (selfSigned domain [] allow) = .ok policy ∧
      policy.verifyPeer (pki fun _ => names) host [str "ca.pem"] =
        .ok ⟨value, kind, sha256Hex (pki fun _ => names) (str "ca.pem")⟩ := by
  obtain ⟨policy, hpolicy⟩ := fromConfig_total (fun _ => names) (selfSigned domain [] allow)
  have hfiles : caFilesOfDomain (selfSigned domain [] allow) domain = [str "ca.pem"] := by
    simp [caFilesOfDomain, selfSigned, anchored, ConnectorConfig.trustAnchors]
  refine ⟨policy, hpolicy, ?_⟩
  rcases fromConfig_domain hpolicy domain with ⟨hnil, -⟩ | ⟨-, roots, hr, hl⟩
  · rw [hfiles] at hnil
    cases hnil
  · rw [hfiles, rootStore_eq, Except.ok.injEq] at hr
    have hroots : policy.rootsFor value = .ok roots := by
      rw [rootsFor_domain hdomain, hl, okOr]
    exact verifyPeer_self hpolicy rfl hsel hroots (by simp [← hr])

end Sample

/-- Whatever the texts, the anchors that vouch are the ones the text selects. -/
theorem bindingFollowsKind_of_text {P : Pki} {H₀ H : Host} {config : ConnectorConfig}
    {policy : ServerTrustPolicy} {chain : List Str} {identity : PeerIdentity}
    (hpolicy : ServerTrustPolicy.fromConfig P H₀ config = .ok policy)
    (hok : policy.verifyPeer P H chain = .ok identity)
    (huri : identity.kind = .uriSan → config.allowDnsSanIdentity = true →
      spiffeTrustDomain identity.value ≠ none)
    (hdns : identity.kind = .dnsSan → spiffeTrustDomain identity.value = none) :
    BindingFollowsKind P H₀ H config chain identity := by
  obtain ⟨leaf, roots, hleaf, hid, hnot, hroots, hverify⟩ := verifyPeer_eq_ok_iff.1 hok
  obtain ⟨-, -, -, hallow⟩ := fromConfig_eq_ok hpolicy
  constructor
  · intro hkind
    obtain ⟨hon, hlookup⟩ := rootsFor_dnsIdentity (hdns hkind) hroots
    obtain ⟨hne, hstore⟩ := files_of_dnsIdentity_lookup hpolicy hlookup
    exact ⟨hallow ▸ hon, hne, roots, hstore, hverify⟩
  · intro hkind
    cases hd : spiffeTrustDomain identity.value with
    | none =>
        -- the text selects the DNS anchors, which needs the DNS switch
        obtain ⟨hon, -⟩ := rootsFor_dnsIdentity hd hroots
        exact absurd hd (huri hkind (hallow ▸ hon))
    | some domain =>
        rw [rootsFor_domain hd, okOr_eq_ok] at hroots
        obtain ⟨hne, hstore⟩ := files_of_domain_lookup hpolicy hroots
        exact ⟨domain, rfl, hne, roots, hstore, hverify⟩

/-- **For which alternative names the binding follows the kind.**  Over every library, host,
configuration and chain whose leaf carries the names: an accepted identity is vouched for by the
anchors its kind calls for, exactly when the text of the selected name agrees with its kind. -/
theorem verifyPeer_binding_follows_kind_iff (names : List GeneralName) (allow : Bool) :
    (∀ (P : Pki) (H₀ H : Host) (config : ConnectorConfig) (policy : ServerTrustPolicy)
        (chain : List Str) (leaf : Str) (cert : X509) (identity : PeerIdentity),
        ServerTrustPolicy.fromConfig P H₀ config = .ok policy →
        config.allowDnsSanIdentity = allow →
        chain.head? = some leaf → P.parseX509 leaf = .ok cert →
        cert.subjectAlternativeName = .ok (some names) →
        policy.verifyPeer P H chain = .ok identity →
        BindingFollowsKind P H₀ H config chain identity) ↔
      TextAgreesWithKind names allow := by
  constructor
  · intro hall value kind hsel
    constructor
    · -- a URI identity without a trust domain is vouched for by an anchor that lists it
      rintro rfl rfl hnone
      obtain ⟨policy, hpolicy, hok⟩ := Sample.accepted_through_dnsIdentity hsel hnone
      obtain ⟨domain, hdomain, -⟩ := (hall _ _ _ _ _ _ _ _ _ hpolicy rfl rfl rfl rfl hok).2 rfl
      exact nomatch hnone.symm.trans hdomain
    · -- a DNS identity with a trust domain is vouched for by an anchor that lists nothing
      rintro rfl
      by_contra hsome
      obtain ⟨domain, hdomain⟩ := Option.ne_none_iff_exists'.1 hsome
      obtain ⟨policy, hpolicy, hok⟩ := Sample.accepted_through_domain hsel hdomain
      obtain ⟨-, hne, -⟩ := (hall _ _ _ _ _ _ _ _ _ hpolicy rfl rfl rfl rfl hok).1 rfl
      exact hne rfl
  · intro hagrees P H₀ H config policy chain leaf cert identity hpolicy hallow hleaf hparse hsan hok
    obtain ⟨leaf', -, hleaf', hid, -⟩ := verifyPeer_eq_ok_iff.1 hok
    obtain rfl : leaf = leaf' := Option.some.inj (hleaf.symm.trans hleaf')
    obtain ⟨cert', names', hparse', -, -, hsan', hsel, -⟩ :=
      (extractPeerIdentityFromDer_eq_ok_iff P H).1 hid
    obtain rfl : cert = cert' := Except.ok.inj (hparse.symm.trans hparse')
    obtain rfl : names = names' := Option.some.inj (Except.ok.inj (hsan.symm.trans hsan'))
    rw [(fromConfig_eq_ok hpolicy).2.2.2, hallow] at hsel
    obtain ⟨huri, hdns⟩ := hagrees _ _ hsel
    exact bindingFollowsKind_of_text hpolicy hok (fun hk hon => huri hk (hallow ▸ hon)) hdns

namespace Sample

/-- The libraries, with a DNS name that spells a SPIFFE identity. -/
abbrev dnsPki : Pki := pki fun _ => [.dnsName (str "spiffe://alpha/x")]

abbrev alphaWithDns : ConnectorConfig := anchored [alphaAnchor] true

end Sample

section Spelling

open Sample

/-- A DNS name that spells a SPIFFE identity is accepted as a DNS identity although no anchor
lists it: the anchors of the spelled trust domain vouch for it. -/
theorem verifyPeer_dns_name_spelling_spiffe :
    ServerTrustPolicy.fromConfig dnsPki host alphaWithDns = .ok (policyOf dnsPki alphaWithDns) ∧
      (policyOf dnsPki alphaWithDns).verifyPeer dnsPki host [str "leaf", str "alpha-ca.pem"] =
        .ok ⟨str "spiffe://alpha/x", .dnsSan, sha256Hex dnsPki (str "leaf")⟩ ∧
      ¬ BindingFollowsKind dnsPki host host alphaWithDns [str "leaf", str "alpha-ca.pem"]
        ⟨str "spiffe://alpha/x", .dnsSan, sha256Hex dnsPki (str "leaf")⟩ := by
  refine ⟨rfl, rfl, fun h => ?_⟩
  obtain ⟨-, hne, -⟩ := h.1 rfl
  exact hne rfl

end Spelling

end TrustConnector
