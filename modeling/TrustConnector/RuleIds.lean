/-
**The rules of a decision.**

For its audit record the decision point is told, for every gate of the policy, which rules of the
route close it.  The connector writes the set of closed gates down three times: in the check of the
configuration, in the policy that it passes on, and in the map of the rules.  This module proves that
the three agree, and that the name of a rule tells its route and its gate.

Main definitions:

* `PolicyGate.rule` — the name of a gate in the names of rules;
* `fixedGates`, `PdpPolicyInput.constrains` — the gates that are always closed, and those that a
  policy closes.

Main results:

* `lookup_routePdpRuleIdsByGate` — the one rule of a gate, if the policy closes it;
* `routeRule_inj` — the name of a rule tells its route and its gate;
* `rule_ids_name_gates` — **the rules name exactly the gates that are enforced, and their route**.
-/

import TrustConnector.Purpose
import TrustConnector.Segments

set_option relaxedAutoImplicit false
set_option autoImplicit false

namespace TrustConnector

open Text

/-! ### The gates of a policy -/

/-- The gates that every policy of a route closes. -/
def fixedGates : List PolicyGate :=
  [.policyIdentity, .requestedFact, .requestedDisclosure, .sourceBinding, .routeIdentity]

/-- Whether a policy has a constraint for one of the other gates. -/
def PdpPolicyInput.constrains (input : PdpPolicyInput) : PolicyGate → Bool
  | .purpose => !input.purposeConstraints.isEmpty
  | .jurisdiction => !input.permittedJurisdictions.isEmpty
  | .assuranceAllowedSet => !input.allowedAssurance.isEmpty
  | .minimumAssurance => input.minimumAssurance.isSome
  | .sourceFreshness => input.maxSourceAgeSeconds.isSome
  | .legalBasisRequired => input.requireLegalBasis
  | .consentRequired => input.requireConsent
  | .odrlTerms => !input.unsupportedOdrlTerms.isEmpty
  | .redaction => !input.redactionFields.isEmpty
  | .policyIdentity | .requestedFact | .requestedDisclosure | .sourceBinding | .routeIdentity =>
      false

/-- The name of a gate, as the names of its rules end. -/
def PolicyGate.rule : PolicyGate → Str
  | .policyIdentity => str "policy_identity"
  | .requestedFact => str "requested_fact"
  | .requestedDisclosure => str "requested_disclosure"
  | .sourceBinding => str "source_binding"
  | .routeIdentity => str "route_identity"
  | .purpose => str "purpose"
  | .jurisdiction => str "jurisdiction"
  | .assuranceAllowedSet => str "assurance"
  | .minimumAssurance => str "minimum_assurance"
  | .sourceFreshness => str "source_freshness"
  | .legalBasisRequired => str "legal_basis"
  | .consentRequired => str "consent"
  | .odrlTerms => str "odrl_terms"
  | .redaction => str "redaction"

/-! ### The map of the rules -/

/-- A loop that enters the rules of the gates whose condition holds. -/
theorem lookup_foldl_gates {routeId : Str} {gates : List (Bool × PolicyGate × Str)}
    (hrule : ∀ entry ∈ gates, entry.2.2 = entry.2.1.rule)
    (rules : AList fun _ : PolicyGate => List Str) (gate : PolicyGate) :
    (gates.foldl (fun rules entry =>
        if entry.1 then rules.insert entry.2.1 (routeRule routeId entry.2.2) else rules)
      rules).lookup gate =
      if gates.any (fun entry => entry.1 && entry.2.1 = gate) then
        some (routeRule routeId gate.rule)
      else rules.lookup gate := by
  induction gates generalizing rules with
  | nil => rfl
  | cons entry gates ih =>
      obtain ⟨closed, key, name⟩ := entry
      obtain rfl : name = key.rule := hrule (closed, key, name) List.mem_cons_self
      rw [List.foldl_cons, ih fun entry hentry => hrule entry (List.mem_cons_of_mem _ hentry),
        List.any_cons]
      cases hlater : gates.any fun entry => entry.1 && entry.2.1 = gate with
      | true => simp
      | false =>
          cases closed with
          | false => simp
          | true =>
              by_cases hkey : key = gate
              · subst hkey
                simp
              · simp [hkey, AList.lookup_insert_ne (Ne.symm hkey)]

/-- **The rules of a gate**: the one rule of the route for it, if the gate is always closed or the
policy that is passed on has a constraint for it. -/
theorem lookup_routePdpRuleIdsByGate (m : RouteMatch) (policyHash : Str) (gate : PolicyGate) :
    (routePdpRuleIdsByGate m.route m.route.governedPolicy).lookup gate =
      if gate ∈ fixedGates ∨ (routePolicyInput m policyHash).constrains gate = true then
        some (routeRule m.route.id gate.rule)
      else none := by
  unfold routePdpRuleIdsByGate
  cases hpolicy : m.route.governedPolicy with
  | none =>
      rw [lookup_foldl_gates (by simp [PolicyGate.rule]), AList.lookup_empty]
      congr 1
      cases gate <;>
        simp [fixedGates, PdpPolicyInput.constrains, routePolicyInput, purposeConstraints, hpolicy]
  | some policy =>
      rw [lookup_foldl_gates (by simp [PolicyGate.rule]), AList.lookup_empty]
      congr 1
      cases gate <;>
        simp [fixedGates, PdpPolicyInput.constrains, routePolicyInput, purposeConstraints, hpolicy]
      -- the gate of purposes is closed by the route or by its policy
      exact imp_iff_not_or.symm

theorem mem_routePdpRuleIdsByGate (m : RouteMatch) (policyHash : Str) (gate : PolicyGate) :
    gate ∈ routePdpRuleIdsByGate m.route m.route.governedPolicy ↔
      gate ∈ fixedGates ∨ (routePolicyInput m policyHash).constrains gate = true := by
  rw [← AList.lookup_isSome, lookup_routePdpRuleIdsByGate m policyHash]
  split_ifs with h
  · simp [h]
  · simp [h]

theorem eq_routeRule_of_lookup {route : RouteConfig} {gate : PolicyGate} {ids : List Str}
    (h : (routePdpRuleIdsByGate route route.governedPolicy).lookup gate = some ids) :
    ids = routeRule route.id gate.rule := by
  have hlookup := h.symm.trans (lookup_routePdpRuleIdsByGate ⟨route, []⟩ [] gate)
  split_ifs at hlookup
  exact Option.some.inj hlookup

/-- A gate with a constraint is not one of the gates that are always closed. -/
theorem not_mem_fixedGates {input : PdpPolicyInput} {gate : PolicyGate}
    (h : input.constrains gate = true) : gate ∉ fixedGates := by
  intro hfixed
  simp only [fixedGates, List.mem_cons, List.not_mem_nil, or_false] at hfixed
  rcases hfixed with rfl | rfl | rfl | rfl | rfl <;> cases h

theorem ne_nil_of_any {values : List Str} {p : Str → Bool} (h : values.any p = true) :
    values ≠ [] := by
  rintro rfl
  cases h

/-- A policy that passes its check closes a gate of its own, whatever the route. -/
theorem exists_gate_of_hasGate {policy : GovernedRoutePolicyConfig}
    (h : governedRoutePolicyHasGate policy = true) :
    ∃ gate, ∀ (m : RouteMatch) (policyHash : Str), m.route.governedPolicy = some policy →
      (routePolicyInput m policyHash).constrains gate = true := by
  simp only [governedRoutePolicyHasGate, Bool.or_eq_true] at h
  rcases h with (((((((hpurpose | hjurisdiction) | hassurance) | hminimum) | hage) | hlegal) |
    hconsent) | hredaction) | hterms
  · refine ⟨.purpose, fun m policyHash hm => ?_⟩
    have hne := ne_nil_of_any hpurpose
    simp [PdpPolicyInput.constrains, routePolicyInput, purposeConstraints, hm, hne]
  · refine ⟨.jurisdiction, fun m policyHash hm => ?_⟩
    have hne := ne_nil_of_any hjurisdiction
    simp [PdpPolicyInput.constrains, routePolicyInput, hm, hne]
  · refine ⟨.assuranceAllowedSet, fun m policyHash hm => ?_⟩
    have hne := ne_nil_of_any hassurance
    simp [PdpPolicyInput.constrains, routePolicyInput, hm, hne]
  · refine ⟨.minimumAssurance, fun m policyHash hm => ?_⟩
    obtain ⟨hsome, -⟩ := (Option.any_eq_true_iff_get _ _).1 hminimum
    simp [PdpPolicyInput.constrains, routePolicyInput, hm, hsome]
  · refine ⟨.sourceFreshness, fun m policyHash hm => ?_⟩
    obtain ⟨hsome, -⟩ := (Option.any_eq_true_iff_get _ _).1 hage
    simp [PdpPolicyInput.constrains, routePolicyInput, hm, hsome]
  · refine ⟨.legalBasisRequired, fun m policyHash hm => ?_⟩
    simp [PdpPolicyInput.constrains, routePolicyInput, hm, hlegal]
  · refine ⟨.consentRequired, fun m policyHash hm => ?_⟩
    simp [PdpPolicyInput.constrains, routePolicyInput, hm, hconsent]
  · refine ⟨.redaction, fun m policyHash hm => ?_⟩
    have hne := ne_nil_of_any hredaction
    simp [PdpPolicyInput.constrains, routePolicyInput, hm, hne]
  · refine ⟨.odrlTerms, fun m policyHash hm => ?_⟩
    have hne := ne_nil_of_any hterms
    simp [PdpPolicyInput.constrains, routePolicyInput, hm, hne]

/-! ### The names of the rules -/

/-- The gates, in the order of the decision point. -/
def PolicyGate.all : List PolicyGate :=
  fixedGates ++ [.purpose, .jurisdiction, .assuranceAllowedSet, .minimumAssurance, .sourceFreshness,
    .legalBasisRequired, .consentRequired, .odrlTerms, .redaction]

/-- The name of a gate can be read back. -/
theorem find_rule (gate : PolicyGate) :
    PolicyGate.all.find? (fun other => other.rule = gate.rule) = some gate := by
  cases gate <;> decide +kernel

theorem rule_injective : Function.Injective PolicyGate.rule := by
  intro gate gate' h
  have hfind := find_rule gate
  rw [h, find_rule gate', Option.some.injEq] at hfind
  exact hfind.symm

theorem dot_not_mem_rule (gate : PolicyGate) : dot ∉ gate.rule := by
  cases gate <;> decide +kernel

/-- **The name of a rule tells its route and its gate**, also where the id of a route has dots in it:
the last dot is the one in front of the gate. -/
theorem routeRule_inj {routeId routeId' rule : Str} {gate gate' : PolicyGate}
    (h : rule ∈ routeRule routeId gate.rule) (h' : rule ∈ routeRule routeId' gate'.rule) :
    routeId = routeId' ∧ gate = gate' := by
  rw [routeRule, List.mem_singleton] at h h'
  have hdot : str "." = [dot] := by decide +kernel
  rw [h, hdot] at h'
  simp only [List.append_assoc, List.singleton_append, List.append_cancel_left_eq] at h'
  obtain ⟨hid, hrule⟩ := Segments.append_cons_inj (dot_not_mem_rule gate) (dot_not_mem_rule gate') h'
  exact ⟨hid, rule_injective hrule⟩

/-- **The rules name exactly the gates that are enforced, and their route.**  For every match of a
route of an accepted configuration, the gates with a rule are the five that are always closed and
those for which the policy that is passed on has a constraint.  Each of them has one rule, whose name
is made of the id of the route and the name of the gate.  A governed policy closes a gate beyond the
five, on whatever route it stands.  And a name that is the name of a rule twice belongs to routes
with the same id and to the same gate. -/
theorem rule_ids_name_gates {P : Pki} {H : Host} {config : ConnectorConfig} {mode : Mode}
    {requireEnv : Bool} (haccepted : validateConfig P H config mode requireEnv = .ok ()) :
    (∀ m : RouteMatch, m.route ∈ config.routes → ∀ policyHash gate,
        gate ∈ routePdpRuleIdsByGate m.route m.route.governedPolicy ↔
          gate ∈ fixedGates ∨ (routePolicyInput m policyHash).constrains gate = true) ∧
      (∀ route ∈ config.routes, ∀ gate ∈ routePdpRuleIdsByGate route route.governedPolicy,
        (routePdpRuleIdsByGate route route.governedPolicy).lookup gate =
          some [str "trust-connector.route." ++ route.id ++ str "." ++ gate.rule]) ∧
      (∀ route ∈ config.routes, ∀ policy ∈ route.governedPolicy, ∃ gate, gate ∉ fixedGates ∧
        ∀ other, gate ∈ routePdpRuleIdsByGate other (some policy)) ∧
      ∀ route ∈ config.routes, ∀ route' ∈ config.routes, ∀ gate gate' ids ids' rule,
        (routePdpRuleIdsByGate route route.governedPolicy).lookup gate = some ids →
        (routePdpRuleIdsByGate route' route'.governedPolicy).lookup gate' = some ids' →
        rule ∈ ids → rule ∈ ids' → route.id = route'.id ∧ gate = gate' := by
  refine ⟨fun m _ policyHash gate => mem_routePdpRuleIdsByGate m policyHash gate, ?_, ?_, ?_⟩
  · intro route _ gate hgate
    obtain ⟨ids, hids⟩ := Option.isSome_iff_exists.1 (AList.lookup_isSome.2 hgate)
    rw [hids, eq_routeRule_of_lookup hids]
    rfl
  · intro route hroute policy hpolicy
    have hcommon := (commonRoute_of_accepted haccepted route hroute).governedPolicy policy hpolicy
    obtain ⟨gate, hgate⟩ := exists_gate_of_hasGate hcommon.gate
    refine ⟨gate, not_mem_fixedGates (hgate ⟨route, []⟩ [] hpolicy), fun other => ?_⟩
    -- the map looks at the policy that it is given, not at the one of the route
    have hmem := mem_routePdpRuleIdsByGate ⟨{ other with governedPolicy := some policy }, []⟩ [] gate
    exact hmem.2 (Or.inr (hgate _ [] rfl))
  · intro route _ route' _ gate gate' ids ids' rule hids hids' hrule hrule'
    rw [eq_routeRule_of_lookup hids] at hrule
    rw [eq_routeRule_of_lookup hids'] at hrule'
    exact routeRule_inj hrule hrule'

open Sample

/-- A route that needs consent, with a dot and the name of a gate in its id. -/
def Sample.consenting : RouteConfig :=
  { route (str "/v1") with
    id := str "records.consent", governedPolicy := some { requireConsent := true } }

/-- The policy that only asks for consent closes a gate beyond the five, and the rule of that gate
bears the id of the route, dot and all. -/
theorem rule_ids_name_gates_consent :
    (∃ gate, gate ∉ fixedGates ∧
        ∀ other, gate ∈ routePdpRuleIdsByGate other (some { requireConsent := true })) ∧
      (routePdpRuleIdsByGate consenting consenting.governedPolicy).lookup .consentRequired =
        some [str "trust-connector.route.records.consent.consent"] := by
  have haccepted : validateConfig uriPki host
      { bothModes (str "/v1") with routes := [consenting] } .server true = .ok () := by
    decide +kernel
  obtain ⟨hgates, hids, hpolicy, -⟩ := rule_ids_name_gates haccepted
  have hconsent := (hgates ⟨consenting, []⟩ List.mem_cons_self [] .consentRequired).2 (Or.inr rfl)
  refine ⟨hpolicy consenting List.mem_cons_self _ rfl, ?_⟩
  rw [hids consenting List.mem_cons_self _ hconsent]
  decide +kernel

end TrustConnector
