/-
**The allowlist, when it is checked and when it is used.**

An entry of the allowlist is of use only if there is an anchor that can vouch for it.  The validation
looks for that anchor under the text of the entry as it is written.  The server trims the entry
before it compares it with the identity of a peer, and the TLS layer looks for the anchor under that
identity.  So the two look under different texts where white space makes a difference.

Main definitions:

* `Anchored` — there is an anchor that can vouch for an identity;
* `NormalEntry` — an entry for which white space makes no difference;
* `AgreesOn` — the validation and the TLS layer agree on an entry, in every configuration.

Main results:

* `rootsFor_ok_iff` — the TLS layer finds a root store exactly for the anchored identities;
* `validateAllowedIdentity_eq_nil_iff` — which entries the validation accepts;
* `allowlist_agrees_iff` — **for which entries the validation and the TLS layer agree**.
-/

import TrustConnector.Validate

set_option relaxedAutoImplicit false
set_option autoImplicit false

namespace TrustConnector

open Text Fallible

/-! ### Anchors -/

/-- There is an anchor for the trust domain of an identity or, for an identity without one, an anchor
that lists it. -/
def Anchored (config : ConnectorConfig) (identity : Str) : Prop :=
  match spiffeTrustDomain identity with
  | some domain => ∃ anchor ∈ config.trustAnchors, anchor.trustDomain = domain
  | none => config.allowDnsSanIdentity = true ∧
      ∃ anchor ∈ config.trustAnchors, identity ∈ anchor.dnsIdentities

section

variable {P : Pki} {H : Host} {config : ConnectorConfig} {clientTrust : ClientTrustConfig}
  {policy : ServerTrustPolicy} {identity domain : Str}

theorem anchored_of_domain (h : spiffeTrustDomain identity = some domain) :
    Anchored config identity ↔ ∃ anchor ∈ config.trustAnchors, anchor.trustDomain = domain := by
  rw [Anchored, h]

theorem anchored_of_no_domain (h : spiffeTrustDomain identity = none) :
    Anchored config identity ↔ config.allowDnsSanIdentity = true ∧
      ∃ anchor ∈ config.trustAnchors, identity ∈ anchor.dnsIdentities := by
  rw [Anchored, h]

/-- **The TLS layer finds a root store exactly for the anchored identities.** -/
theorem rootsFor_ok_iff (h : ServerTrustPolicy.fromConfig P H config = .ok policy) :
    (∃ roots, policy.rootsFor identity = .ok roots) ↔ Anchored config identity := by
  have hallow := (fromConfig_eq_ok h).2.2.2
  cases hdomain : spiffeTrustDomain identity with
  | some domain =>
      rw [anchored_of_domain hdomain, ← caFilesOfDomain_ne_nil, rootsFor_domain hdomain]
      rcases fromConfig_domain h domain with ⟨hnil, hnone⟩ | ⟨hne, roots, -, hsome⟩
      · simp [hnil, hnone, okOr]
      · simp [hne, hsome, okOr]
  | none =>
      rw [anchored_of_no_domain hdomain, ← caFilesOfDnsIdentity_ne_nil]
      rw [ServerTrustPolicy.rootsFor, hdomain, hallow]
      cases config.allowDnsSanIdentity with
      | false => simp
      | true =>
          rcases fromConfig_dnsIdentity h identity with ⟨hnil, hnone⟩ | ⟨hne, roots, -, hsome⟩
          · simp [hnil, hnone, okOr]
          · simp [hne, hsome, okOr]

theorem mem_anchoredDomains (htrust : config.clientTrust = some clientTrust) :
    domain ∈ anchoredDomains clientTrust ↔
      isBlank domain = false ∧ ∃ anchor ∈ config.trustAnchors, anchor.trustDomain = domain := by
  have hanchors : config.trustAnchors = clientTrust.trustAnchors := by
    simp [ConnectorConfig.trustAnchors, htrust]
  rw [anchoredDomains, hanchors, List.mem_map]
  simp only [List.mem_filter, Bool.not_eq_true']
  constructor
  · rintro ⟨anchor, ⟨hmem, hblank⟩, rfl⟩
    exact ⟨hblank, anchor, hmem, rfl⟩
  · rintro ⟨hblank, anchor, hmem, rfl⟩
    exact ⟨anchor, ⟨hmem, hblank⟩, rfl⟩

theorem mem_keys_dnsIdentityMap :
    identity ∈ (dnsIdentityMap config).keys ↔
      ∃ anchor ∈ config.trustAnchors, identity ∈ anchor.dnsIdentities := by
  rw [← AList.mem_keys, ← AList.lookup_isSome, dnsIdentityMap_lookup, ← caFilesOfDnsIdentity_ne_nil]
  split_ifs with hnil
  · simp [hnil]
  · simp [hnil]

/-- **Which entries the validation accepts**: those with an anchor under the text as it is written,
and with a trust domain that is not blank, if they have one. -/
theorem validateAllowedIdentity_eq_nil_iff (htrust : config.clientTrust = some clientTrust)
    (hblank : isBlank identity = false) :
    validateAllowedIdentity config clientTrust identity = [] ↔
      Anchored config identity ∧ ∀ domain ∈ spiffeTrustDomain identity, isBlank domain = false := by
  rw [validateAllowedIdentity, hblank]
  cases hdomain : spiffeTrustDomain identity with
  | some domain =>
      rw [anchored_of_domain hdomain]
      simp [mem_anchoredDomains htrust, and_comm]
  | none =>
      rw [anchored_of_no_domain hdomain]
      cases hallow : config.allowDnsSanIdentity with
      | false => simp
      | true => simp [mem_keys_dnsIdentityMap]

end

/-! ### Agreement -/

/-- An entry for which white space makes no difference: it has the same trust domain when it is
trimmed, or is trimmed already if it has none, and a trust domain is not blank. -/
def NormalEntry (entry : Str) : Prop :=
  spiffeTrustDomain entry = spiffeTrustDomain (trim entry) ∧
    (spiffeTrustDomain entry = none → trim entry = entry) ∧
    ∀ domain ∈ spiffeTrustDomain entry, isBlank domain = false

/-- In every server configuration that lists the entry, the validation accepts the entry exactly if
the TLS layer finds a root store for the identity that the entry admits. -/
def AgreesOn (entry : Str) : Prop :=
  ∀ (P : Pki) (H : Host) (config : ConnectorConfig) (clientTrust : ClientTrustConfig)
    (policy : ServerTrustPolicy), config.clientTrust = some clientTrust →
    entry ∈ clientTrust.allowedIdentities → ServerTrustPolicy.fromConfig P H config = .ok policy →
    (validateAllowedIdentity config clientTrust entry = [] ↔
      ∃ roots, policy.rootsFor (trim entry) = .ok roots)

theorem anchored_trim {config : ConnectorConfig} {entry : Str} (h : NormalEntry entry) :
    Anchored config (trim entry) ↔ Anchored config entry := by
  obtain ⟨hdomain, htrim, -⟩ := h
  cases hentry : spiffeTrustDomain entry with
  | some domain => rw [anchored_of_domain hentry, anchored_of_domain (hdomain.symm.trans hentry)]
  | none => rw [htrim hentry]

section

open Sample

/-- One anchor, and an allowlist of one entry. -/
def Sample.allowing (entry domain : Str) (dnsIdentities : List Str) : ConnectorConfig :=
  { listen := .unix (str "/run/connector.sock")
    clientTrust := some
      { allowedIdentities := [entry], trustAnchors := [⟨str "ca.pem", domain, dnsIdentities⟩] }
    allowDnsSanIdentity := true }

/-- Which identities the anchor of the sample configurations can vouch for. -/
theorem anchored_allowing_iff {entry domain identity : Str} {dnsIdentities : List Str} :
    Anchored (allowing entry domain dnsIdentities) identity ↔
      spiffeTrustDomain identity = some domain ∨
        spiffeTrustDomain identity = none ∧ identity ∈ dnsIdentities := by
  cases hdomain : spiffeTrustDomain identity with
  | some domain' =>
      rw [anchored_of_domain hdomain]
      simp [allowing, ConnectorConfig.trustAnchors, eq_comm]
  | none =>
      rw [anchored_of_no_domain hdomain]
      simp [allowing, ConnectorConfig.trustAnchors]

/-- An entry on which there is agreement is accepted in the sample configurations exactly if the
identity that it admits is anchored. -/
theorem AgreesOn.anchored {entry : Str} (h : AgreesOn entry) (hblank : isBlank entry = false)
    (domain : Str) (dnsIdentities : List Str) :
    (Anchored (allowing entry domain dnsIdentities) entry ∧
        ∀ domain ∈ spiffeTrustDomain entry, isBlank domain = false) ↔
      Anchored (allowing entry domain dnsIdentities) (trim entry) := by
  obtain ⟨policy, hpolicy⟩ :=
    fromConfig_total (fun _ => []) (allowing entry domain dnsIdentities)
  rw [← validateAllowedIdentity_eq_nil_iff rfl hblank, ← rootsFor_ok_iff hpolicy]
  exact h _ _ _ _ _ rfl (List.mem_singleton.2 rfl) hpolicy

/-- **For which entries the validation and the TLS layer agree**: for those for which white space
makes no difference, and no others. -/
theorem allowlist_agrees_iff {entry : Str} (hblank : isBlank entry = false) :
    AgreesOn entry ↔ NormalEntry entry := by
  constructor
  · intro h
    cases htrimmed : spiffeTrustDomain (trim entry) with
    | some domain =>
        -- an anchor for the trust domain vouches for the identity, so for the entry
        obtain ⟨hentry, hnonblank⟩ :=
          (h.anchored hblank domain []).2 (anchored_allowing_iff.2 (Or.inl htrimmed))
        have hsame : spiffeTrustDomain entry = some domain :=
          (anchored_allowing_iff.1 hentry).resolve_right fun hlisted => nomatch hlisted.2
        refine ⟨hsame.trans htrimmed.symm, fun hnone => ?_, hnonblank⟩
        cases hnone.symm.trans hsame
    | none =>
        -- an anchor that lists the identity vouches for it, so for the entry
        obtain ⟨hentry, hnonblank⟩ := (h.anchored hblank [] [trim entry]).2
          (anchored_allowing_iff.2 (Or.inr ⟨htrimmed, List.mem_singleton.2 rfl⟩))
        have hempty : spiffeTrustDomain entry ≠ some [] := by
          intro hdomain
          have hblank := hnonblank [] hdomain
          simp [isBlank] at hblank
        obtain ⟨hnone, hlisted⟩ := (anchored_allowing_iff.1 hentry).resolve_left hempty
        refine ⟨hnone.trans htrimmed.symm, fun _ => (List.mem_singleton.1 hlisted).symm, ?_⟩
        exact hnonblank
  · intro hnormal P H config clientTrust policy htrust hmem hpolicy
    rw [validateAllowedIdentity_eq_nil_iff htrust hblank, rootsFor_ok_iff hpolicy,
      anchored_trim hnormal, and_iff_left hnormal.2.2]

/-- An entry with white space behind its path. -/
theorem allowlist_agrees_spiffe : AgreesOn (str "spiffe://alpha/client ") := by
  refine (allowlist_agrees_iff (by decide +kernel)).2 ⟨by decide +kernel, ?_, ?_⟩
  · intro hnone
    exact absurd hnone (by decide +kernel)
  · intro domain hdomain
    obtain rfl : str "alpha" = domain := Option.some.inj hdomain
    decide +kernel

/-- An entry with white space in front. -/
def Sample.spaced : ConnectorConfig := allowing (str " spiffe://alpha/client") (str "alpha") []

/-- A DNS entry with white space behind it, and an anchor that lists it so. -/
def Sample.spacedDns : ConnectorConfig :=
  allowing (str "client.example ") (str "alpha") [str "client.example "]

/-- **The validation and the TLS layer disagree.**  The first entry is refused, though there is a root
store for the identity that it admits; the second is accepted, though there is none. -/
theorem allowlist_disagrees :
    (∃ policy, ServerTrustPolicy.fromConfig uriPki host spaced = .ok policy ∧
        policy.rootsFor (trim (str " spiffe://alpha/client")) = .ok [str "ca.pem"] ∧
        ∀ clientTrust ∈ spaced.clientTrust,
          validateAllowedIdentity spaced clientTrust (str " spiffe://alpha/client") ≠ []) ∧
      ∃ policy, ServerTrustPolicy.fromConfig uriPki host spacedDns = .ok policy ∧
        policy.rootsFor (trim (str "client.example ")) =
          .error (str "no trust anchor is bound to DNS SAN identity 'client.example'") ∧
        ∀ clientTrust ∈ spacedDns.clientTrust,
          validateAllowedIdentity spacedDns clientTrust (str "client.example ") = [] := by
  refine ⟨⟨policyOf uriPki spaced, rfl, rfl, ?_⟩, policyOf uriPki spacedDns, rfl, rfl, ?_⟩
  · rintro clientTrust ⟨⟩
    decide +kernel
  · rintro clientTrust ⟨⟩
    decide +kernel

end

end TrustConnector
