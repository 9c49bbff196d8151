/-
**Which route is selected.**

Both routers go through the routes once and keep the first candidate with the longest prefix, and
stop at the first prefix that has no canonical form.  Where every prefix is valid, this is a choice
that can be stated without the loop: the first of the eligible routes with the longest canonical
prefix.  Two eligible prefixes of one length are equal, since both start the path, so that the order
of the routes matters only between routes with the same prefix.

Main definitions:

* `ClientEligible`, `ServerEligible` — the routes that may serve a request, with their prefixes;
* `MostSpecific` — the first of the eligible routes with the longest prefix;
* `Selection` — what a router is meant to do.

Main results:

* `pick_spec` — what the loop returns, for any kind of eligibility;
* `pick_perm` — the loop does not depend on the order of routes with different prefixes;
* `findRoute_selection` — **both routers select the most specific route**.
-/

import TrustConnector.Routing

set_option relaxedAutoImplicit false
set_option autoImplicit false

namespace TrustConnector

open Text Fallible

/-! ### Eligible routes -/

/-- A route of the client router for a canonical path, with its canonical prefix. -/
def ClientEligible (method path : Str) (route : RouteConfig) (pre : Str) : Prop :=
  method ∈ route.methods ∧
    ∃ raw ∈ route.localPrefix, canonicalRequestPath raw = .ok pre ∧ prefixMatches path pre = true

/-- A route is bound to an identity, up to white space around either. -/
def BoundTo (route : RouteConfig) (clientIdentity : Str) : Prop :=
  (∃ c ∈ route.clientIdentity, trim c = trim clientIdentity) ∨
    ∃ c ∈ route.clientIdentities, trim c = trim clientIdentity

/-- A route of the server router for a canonical path, with its canonical prefix. -/
def ServerEligible (method clientIdentity path : Str) (route : RouteConfig) (pre : Str) : Prop :=
  method ∈ route.methods ∧ BoundTo route clientIdentity ∧
    ∃ raw ∈ route.upstreamPrefix, canonicalRequestPath raw = .ok pre ∧ prefixMatches path pre = true

/-- **The most specific route**: the first of the eligible ones with the longest prefix. -/
def MostSpecific (eligible : RouteConfig → Str → Prop) (routes : List RouteConfig)
    (route : RouteConfig) (pre : Str) : Prop :=
  eligible route pre ∧ ∃ before after, routes = before ++ route :: after ∧
    (∀ r ∈ before, ∀ p, eligible r p → p.length < pre.length) ∧
    ∀ r ∈ after, ∀ p, eligible r p → p.length ≤ pre.length

theorem MostSpecific.mem {eligible : RouteConfig → Str → Prop} {routes : List RouteConfig}
    {route : RouteConfig} {pre : Str} (h : MostSpecific eligible routes route pre) :
    route ∈ routes := by
  obtain ⟨-, before, after, rfl, -⟩ := h
  simp

theorem MostSpecific.longest {eligible : RouteConfig → Str → Prop} {routes : List RouteConfig}
    {route r : RouteConfig} {pre p : Str} (h : MostSpecific eligible routes route pre)
    (hown : ∀ p, eligible route p → p.length = pre.length) (hr : r ∈ routes) (hp : eligible r p) :
    p.length ≤ pre.length := by
  obtain ⟨-, before, after, rfl, hbefore, hafter⟩ := h
  rcases List.mem_append.1 hr with hr | hr
  · exact (hbefore r hr p hp).le
  · rcases List.mem_cons.1 hr with rfl | hr
    · exact (hown p hp).le
    · exact hafter r hr p hp

/-- No two routes of the list are eligible through one prefix. -/
def DistinctPrefixes (eligible : RouteConfig → Str → Prop) (routes : List RouteConfig) : Prop :=
  routes.Pairwise fun r s => ∀ p, eligible r p → ¬ eligible s p

/-! ### The loop of both routers -/

/-- The loop over the routes, and the error if none is found. -/
def pick (candidate : RouteConfig → Except Str (Option (ℕ × RouteMatch))) (message : Str)
    (routes : List RouteConfig) : Except Str RouteMatch := do
  let found ← best candidate none routes
  okOr message (found.map Prod.snd)

/-- A candidate function proposes the eligible routes, each with the length of its prefix. -/
structure Proposes (eligible : RouteConfig → Str → Prop)
    (candidate : RouteConfig → Except Str (Option (ℕ × RouteMatch)))
    (routes : List RouteConfig) : Prop where
  proposed : ∀ route ∈ routes, ∀ pre, eligible route pre →
    ∃ m, m.route = route ∧ candidate route = .ok (some (pre.length, m))
  other : ∀ route ∈ routes, (∀ pre, ¬ eligible route pre) → candidate route = .ok none

variable {eligible : RouteConfig → Str → Prop}
  {candidate : RouteConfig → Except Str (Option (ℕ × RouteMatch))} {message : Str}
  {routes : List RouteConfig}

/-- What a route proposes, if it does not fail. -/
def proposal (candidate : RouteConfig → Except Str (Option (ℕ × RouteMatch))) (route : RouteConfig) :
    Option (ℕ × RouteMatch) :=
  (candidate route).toOption.join

theorem Proposes.candidate_eq (h : Proposes eligible candidate routes) :
    ∀ route ∈ routes, candidate route = .ok (proposal candidate route) := by
  intro route hroute
  by_cases hnone : ∀ pre, ¬ eligible route pre
  · rw [proposal, h.other route hroute hnone]
    rfl
  · obtain ⟨pre, hpre⟩ := not_forall_not.1 hnone
    obtain ⟨m, -, hm⟩ := h.proposed route hroute pre hpre
    rw [proposal, hm]
    rfl

/-- A proposal comes from an eligible prefix. -/
theorem Proposes.exists_prefix (h : Proposes eligible candidate routes) {route : RouteConfig}
    (hroute : route ∈ routes) {p : ℕ × RouteMatch} (hp : proposal candidate route = some p) :
    p.2.route = route ∧ ∃ pre, eligible route pre ∧ p.1 = pre.length := by
  have hcandidate := h.candidate_eq route hroute
  rw [hp] at hcandidate
  by_cases hnone : ∀ pre, ¬ eligible route pre
  · rw [h.other route hroute hnone] at hcandidate
    cases Except.ok.inj hcandidate
  · obtain ⟨pre, hpre⟩ := not_forall_not.1 hnone
    obtain ⟨m, hm, hcandidate'⟩ := h.proposed route hroute pre hpre
    rw [hcandidate'] at hcandidate
    obtain rfl := Option.some.inj (Except.ok.inj hcandidate)
    exact ⟨hm, pre, hpre, rfl⟩

theorem Proposes.mem_proposal (h : Proposes eligible candidate routes) {route : RouteConfig}
    (hroute : route ∈ routes) {pre : Str} (hpre : eligible route pre) :
    ∃ p ∈ proposal candidate route, p.1 = pre.length := by
  obtain ⟨m, -, hm⟩ := h.proposed route hroute pre hpre
  exact ⟨(pre.length, m), by rw [proposal, hm]; rfl, rfl⟩

/-- The eligible prefixes of one route have one length. -/
theorem Proposes.length_eq (h : Proposes eligible candidate routes) {route : RouteConfig}
    (hroute : route ∈ routes) {p p' : Str} (hp : eligible route p) (hp' : eligible route p') :
    p.length = p'.length := by
  obtain ⟨m, -, hm⟩ := h.proposed route hroute p hp
  obtain ⟨m', -, hm'⟩ := h.proposed route hroute p' hp'
  exact (Prod.mk.inj (Option.some.inj (Except.ok.inj (hm.symm.trans hm')))).1

/-- **What the loop returns**: nothing if no route is eligible, else the most specific one. -/
theorem pick_spec (message : Str) (h : Proposes eligible candidate routes) :
    (pick candidate message routes = .error message ∧
        ∀ route ∈ routes, ∀ pre, ¬ eligible route pre) ∨
      ∃ m pre, pick candidate message routes = .ok m ∧
        MostSpecific eligible routes m.route pre ∧
        candidate m.route = .ok (some (pre.length, m)) := by
  rcases best_spec h.candidate_eq none with ⟨hbest, hnone⟩ | ⟨p, hbest, -, hfirst⟩
  · refine Or.inl ⟨by rw [pick, hbest]; rfl, ?_⟩
    intro route hroute pre hpre
    obtain ⟨p, hp, -⟩ := h.mem_proposal hroute hpre
    obtain ⟨k, hk, -⟩ := hnone route hroute p hp
    cases hk
  · obtain ⟨before, route, after, rfl, hp, hbefore, hafter⟩ := hfirst
    have hmem : route ∈ before ++ route :: after := by simp
    obtain ⟨hroute, pre, hpre, hrank⟩ := h.exists_prefix hmem hp
    subst hroute
    refine Or.inr ⟨p.2, pre, by rw [pick, hbest]; rfl, ⟨hpre, before, after, rfl, ?_, ?_⟩, ?_⟩
    · intro r hr pre' hpre'
      obtain ⟨q, hq, hlength⟩ := h.mem_proposal (List.mem_append_left _ hr) hpre'
      rw [← hlength, ← hrank]
      exact hbefore r hr q hq
    · intro r hr pre' hpre'
      have hr' : r ∈ before ++ p.2.route :: after :=
        List.mem_append_right _ (List.mem_cons_of_mem _ hr)
      obtain ⟨q, hq, hlength⟩ := h.mem_proposal hr' hpre'
      rw [← hlength, ← hrank]
      exact hafter r hr q hq
    · rw [← hrank, h.candidate_eq _ hmem, hp]

/-- **The order of the routes does not matter** between routes with different prefixes, if eligible
prefixes of one length are equal. -/
theorem pick_perm {routes' : List RouteConfig} (h : Proposes eligible candidate routes)
    (hsame : ∀ r s p p', eligible r p → eligible s p' → p.length = p'.length → p = p')
    (hdistinct : DistinctPrefixes eligible routes) (hperm : routes.Perm routes') :
    pick candidate message routes' = pick candidate message routes := by
  have h' : Proposes eligible candidate routes' :=
    ⟨fun r hr => h.proposed r (hperm.mem_iff.2 hr), fun r hr => h.other r (hperm.mem_iff.2 hr)⟩
  rcases pick_spec message h with ⟨hpick, hnone⟩ | ⟨m, pre, hpick, hspecific, hm⟩ <;>
    rcases pick_spec message h' with
      ⟨hpick', hnone'⟩ | ⟨m', pre', hpick', hspecific', hm'⟩
  · rw [hpick, hpick']
  · exact absurd hspecific'.1 (hnone _ (hperm.mem_iff.2 hspecific'.mem) _)
  · exact absurd hspecific.1 (hnone' _ (hperm.mem_iff.1 hspecific.mem) _)
  · have hmem := hspecific.mem
    have hmem' := hperm.mem_iff.2 hspecific'.mem
    have hlength : pre.length = pre'.length := by
      refine le_antisymm (hspecific'.longest ?_ (hperm.mem_iff.1 hmem) hspecific.1)
        (hspecific.longest ?_ hmem' hspecific'.1)
      · exact fun p hp => h.length_eq hmem' hp hspecific'.1
      · exact fun p hp => h.length_eq hmem hp hspecific.1
    obtain rfl := hsame _ _ _ _ hspecific.1 hspecific'.1 hlength
    -- two routes with one prefix are one route
    have hroute : m.route = m'.route := by
      by_contra hne
      have : Std.Symm fun r s : RouteConfig => ∀ p, eligible r p → ¬ eligible s p :=
        ⟨fun r s hrs p hs hr => hrs p hr hs⟩
      exact hdistinct.forall hmem hmem' hne pre hspecific.1 hspecific'.1
    rw [← hroute, hm] at hm'
    obtain ⟨-, rfl⟩ := Prod.mk.inj (Option.some.inj (Except.ok.inj hm'))
    rw [hpick, hpick']

/-! ### The candidates of the routers -/

theorem exists_canonical_of_validateRoutePrefix {pre : Str}
    (h : validateRoutePrefix pre = .ok ()) : ∃ out, canonicalRequestPath pre = .ok out := by
  simp only [validateRoutePrefix, validateRequestPath, chain_eq_ok] at h
  obtain ⟨-, -, -, -, out, hout, -⟩ := h
  exact ⟨out, hout⟩

theorem routeMatchesClientIdentity_iff {route : RouteConfig} {clientIdentity : Str} :
    routeMatchesClientIdentity route clientIdentity = true ↔ BoundTo route clientIdentity := by
  simp [routeMatchesClientIdentity, BoundTo]

theorem serverCandidate_proposes {method path clientIdentity : Str}
    (hvalid : ∀ route ∈ routes, ∀ p ∈ route.upstreamPrefix, validateRoutePrefix p = .ok ()) :
    Proposes (ServerEligible method clientIdentity path)
      (serverCandidate method path clientIdentity) routes where
  proposed := by
    rintro route - pre ⟨hmethod, hbound, raw, hraw, hpre, hmatch⟩
    refine ⟨⟨route, path⟩, rfl, ?_⟩
    have hraw : route.upstreamPrefix = some raw := hraw
    rw [serverCandidate, if_neg (not_not.2 hmethod), routeMatchesClientIdentity_iff.2 hbound, hraw]
    simp [hpre, hmatch, pure, Except.pure]
  other := by
    intro route hroute hnone
    unfold serverCandidate
    by_cases hmethod : method ∈ route.methods
    · by_cases hbound : routeMatchesClientIdentity route clientIdentity = true
      · rw [if_neg (not_not.2 hmethod), if_neg (by simp [hbound])]
        cases hraw : route.upstreamPrefix with
        | none => rfl
        | some raw =>
            obtain ⟨pre, hpre⟩ :=
              exists_canonical_of_validateRoutePrefix (hvalid route hroute raw hraw)
            simp only [hpre, ok_bind]
            exact if_neg fun hmatch => hnone pre
              ⟨hmethod, routeMatchesClientIdentity_iff.1 hbound, raw, hraw, hpre, hmatch⟩
      · rw [if_neg (not_not.2 hmethod), if_pos (by simpa using hbound)]
    · rw [if_pos hmethod]

theorem clientCandidate_proposes {method path : Str}
    (hlocal : ∀ route ∈ routes, ∀ p ∈ route.localPrefix, validateRoutePrefix p = .ok ())
    (hupstream : ∀ route ∈ routes, ∀ p ∈ route.upstreamPrefix, validateRoutePrefix p = .ok ())
    (hpresent : ∀ route ∈ routes, route.upstreamPrefix ≠ none) :
    Proposes (ClientEligible method path) (clientCandidate method path) routes where
  proposed := by
    rintro route hroute pre ⟨hmethod, raw, hraw, hpre, hmatch⟩
    obtain ⟨rawUpstream, hrawUpstream⟩ := Option.ne_none_iff_exists'.1 (hpresent route hroute)
    obtain ⟨upstreamPrefix, hup⟩ :=
      exists_canonical_of_validateRoutePrefix (hupstream route hroute rawUpstream hrawUpstream)
    refine ⟨⟨route, rewritePrefix path pre upstreamPrefix⟩, rfl, ?_⟩
    have hraw : route.localPrefix = some raw := hraw
    rw [clientCandidate, if_neg (not_not.2 hmethod), hraw]
    simp [hpre, hmatch, hrawUpstream, hup, pure, Except.pure]
  other := by
    intro route hroute hnone
    unfold clientCandidate
    by_cases hmethod : method ∈ route.methods
    · rw [if_neg (not_not.2 hmethod)]
      cases hraw : route.localPrefix with
      | none => rfl
      | some raw =>
          obtain ⟨pre, hpre⟩ :=
            exists_canonical_of_validateRoutePrefix (hlocal route hroute raw hraw)
          simp only [hpre, ok_bind]
          refine if_pos ?_
          rw [Bool.not_eq_true', Bool.eq_false_iff]
          exact fun hmatch => hnone pre ⟨hmethod, raw, hraw, hpre, hmatch⟩
    · rw [if_pos hmethod]

/-! ### Both routers -/

/-- **What a router is meant to do** with a request path, for its kind of eligibility. -/
structure Selection (find : List RouteConfig → Except Str RouteMatch)
    (eligible : Str → RouteConfig → Str → Prop) (path : Str) (routes : List RouteConfig) : Prop where
  /-- It succeeds exactly when the path has a canonical form and some route is eligible. -/
  succeeds : (∃ m, find routes = .ok m) ↔
    ∃ canonical, canonicalRequestPath path = .ok canonical ∧
      ∃ route ∈ routes, ∃ pre, eligible canonical route pre
  /-- It returns the most specific route. -/
  specific : ∀ canonical, canonicalRequestPath path = .ok canonical →
    ∀ m, find routes = .ok m → ∃ pre, MostSpecific (eligible canonical) routes m.route pre
  /-- Eligible prefixes of one length are equal. -/
  samePrefix : ∀ canonical, canonicalRequestPath path = .ok canonical →
    ∀ r s p p', eligible canonical r p → eligible canonical s p' → p.length = p'.length → p = p'
  /-- The order of routes with different prefixes does not matter. -/
  order : ∀ canonical, canonicalRequestPath path = .ok canonical →
    DistinctPrefixes (eligible canonical) routes →
      ∀ routes', routes.Perm routes' → find routes' = find routes

/-- Two prefixes that match one path, and have one length, are equal. -/
theorem eq_of_prefixMatches_of_length {path p p' : Str} (hp : prefixMatches path p = true)
    (hp' : prefixMatches path p' = true) (hlength : p.length = p'.length) : p = p' := by
  have hmatches : ∀ {q : Str}, prefixMatches path q = true → q <+: path := by
    intro q hq
    rcases prefixMatches_iff.1 hq with rfl | ⟨rest, rfl, -⟩
    · exact List.prefix_refl path
    · exact List.prefix_append q rest
  exact List.IsPrefix.eq_of_length
    (List.prefix_of_prefix_length_le (hmatches hp) (hmatches hp') hlength.le) hlength

/-- A router that picks among its candidates selects as it is meant to. -/
theorem selection_of_proposes {find : List RouteConfig → Except Str RouteMatch}
    {eligible : Str → RouteConfig → Str → Prop}
    {candidate : Str → RouteConfig → Except Str (Option (ℕ × RouteMatch))} {message path : Str}
    (hfind : ∀ rs, find rs = canonicalRequestPath path >>= fun q => pick (candidate q) message rs)
    (hproposes : ∀ q, Proposes (eligible q) (candidate q) routes)
    (hmatches : ∀ q r p, eligible q r p → prefixMatches q p = true) :
    Selection find eligible path routes := by
  have hpick : ∀ {q}, canonicalRequestPath path = .ok q → ∀ rs,
      find rs = pick (candidate q) message rs := by
    intro q hq rs
    rw [hfind, hq, ok_bind]
  have hsame : ∀ q r s p p', eligible q r p → eligible q s p' → p.length = p'.length → p = p' :=
    fun q r s p p' hp hp' =>
      eq_of_prefixMatches_of_length (hmatches q r p hp) (hmatches q s p' hp')
  refine ⟨⟨?_, ?_⟩, ?_, fun q _ => hsame q, ?_⟩
  · rintro ⟨m, hm⟩
    rw [hfind, chain_eq_ok] at hm
    obtain ⟨q, hq, hm⟩ := hm
    rcases pick_spec message (hproposes q) with ⟨herror, -⟩ | ⟨m', pre, -, hspecific, -⟩
    · rw [herror] at hm
      cases hm
    · exact ⟨q, hq, m'.route, hspecific.mem, pre, hspecific.1⟩
  · rintro ⟨q, hq, route, hroute, pre, hpre⟩
    rcases pick_spec message (hproposes q) with ⟨-, hnone⟩ | ⟨m, -, hm, -, -⟩
    · exact absurd hpre (hnone route hroute pre)
    · exact ⟨m, by rw [hpick hq, hm]⟩
  · intro q hq m hm
    rw [hpick hq] at hm
    rcases pick_spec message (hproposes q) with
      ⟨herror, -⟩ | ⟨m', pre, hm', hspecific, -⟩
    · rw [herror] at hm
      cases hm
    · obtain rfl : m' = m := Except.ok.inj (hm'.symm.trans hm)
      exact ⟨pre, hspecific⟩
  · intro q hq hdistinct routes' hperm
    rw [hpick hq, hpick hq, pick_perm (hproposes q) (hsame q) hdistinct hperm]

/-- **Both routers select the most specific route**, where all prefixes are valid and, for the
client, present; and the path that the client asks for lies under the route's upstream prefix. -/
theorem findRoute_selection (routes : List RouteConfig) (method path clientIdentity : Str)
    (hlocal : ∀ route ∈ routes, ∀ p ∈ route.localPrefix, validateRoutePrefix p = .ok ())
    (hupstream : ∀ route ∈ routes, ∀ p ∈ route.upstreamPrefix, validateRoutePrefix p = .ok ()) :
    Selection (fun rs => findServerRoute rs method path clientIdentity)
        (ServerEligible method clientIdentity) path routes ∧
      ((∀ route ∈ routes, route.localPrefix ≠ none ∧ route.upstreamPrefix ≠ none) →
        Selection (fun rs => findClientRoute rs method path) (ClientEligible method) path routes ∧
        ∀ m, findClientRoute routes method path = .ok m →
          ∃ raw ∈ m.route.upstreamPrefix, ∃ pre, canonicalRequestPath raw = .ok pre ∧
            prefixMatches m.upstreamPath pre = true) := by
  refine ⟨?_, fun hpresent => ⟨?_, ?_⟩⟩
  · exact selection_of_proposes (fun rs => rfl) (fun q => serverCandidate_proposes hupstream)
      fun q r p ⟨_, _, _, _, _, hmatch⟩ => hmatch
  · exact selection_of_proposes (fun rs => rfl)
      (fun q => clientCandidate_proposes hlocal hupstream fun route hroute =>
        (hpresent route hroute).2)
      fun q r p ⟨_, _, _, _, hmatch⟩ => hmatch
  · intro m hm
    obtain ⟨q, -, hroute, -, raw, localPrefix, upstreamPrefix, -, -, -, hup, hpath⟩ :=
      findClientRoute_eq_ok hm
    obtain ⟨rawUpstream, hraw⟩ := Option.ne_none_iff_exists'.1 (hpresent m.route hroute).2
    rw [hraw, Option.getD_some] at hup
    refine ⟨rawUpstream, hraw, upstreamPrefix, hup, ?_⟩
    rw [hpath]
    exact prefixMatches_rewritePrefix q localPrefix upstreamPrefix

/-- A route with the given prefixes. -/
def Sample.routeBetween (id localPrefix upstreamPrefix : Str) : RouteConfig :=
  { id, methods := [str "GET"], localPrefix := some localPrefix
    upstreamPrefix := some upstreamPrefix }

/-- Two routes, of which the second is more specific. -/
def Sample.nestedRoutes : List RouteConfig :=
  [routeBetween (str "all") (str "/relay") (str "/v1"),
    routeBetween (str "items") (str "/relay/items") (str "/v1/records")]

section

open Sample

/-- The second of two nested routes is selected, although the first matches too. -/
theorem findRoute_selection_nested :
    findClientRoute nestedRoutes (str "GET") (str "/relay/items/7") =
        .ok ⟨routeBetween (str "items") (str "/relay/items") (str "/v1/records"),
          str "/v1/records/7"⟩ ∧
      ∃ pre, MostSpecific (ClientEligible (str "GET") (str "/relay/items/7")) nestedRoutes
        (routeBetween (str "items") (str "/relay/items") (str "/v1/records")) pre := by
  have hfind : findClientRoute nestedRoutes (str "GET") (str "/relay/items/7") =
      .ok ⟨routeBetween (str "items") (str "/relay/items") (str "/v1/records"),
        str "/v1/records/7"⟩ := by decide +kernel
  have hcanonical : canonicalRequestPath (str "/relay/items/7") = .ok (str "/relay/items/7") := by
    decide +kernel
  have hlocal : ∀ route ∈ nestedRoutes, ∀ p ∈ route.localPrefix,
      validateRoutePrefix p = .ok () := by decide +kernel
  have hupstream : ∀ route ∈ nestedRoutes, ∀ p ∈ route.upstreamPrefix,
      validateRoutePrefix p = .ok () := by decide +kernel
  have hpresent : ∀ route ∈ nestedRoutes,
      route.localPrefix ≠ none ∧ route.upstreamPrefix ≠ none := by
    decide +kernel
  have hclient := (findRoute_selection nestedRoutes (str "GET") (str "/relay/items/7") [] hlocal
    hupstream).2 hpresent
  exact ⟨hfind, hclient.1.specific _ hcanonical _ hfind⟩

end

end TrustConnector
