/-
**The URL of a forwarded request.**

The router authorises a decoded path.  The URL of the forwarded request is made by gluing that path
to the authority of the base URL, in front of the query, and parsing the result: the path is
interpreted a second time, by the URL parser.  This module says when the second reading agrees with
the first.

Main definitions:

* `buildUrl` — the URL of a forwarded request;
* `routeFor` — the router of a mode;
* `StaysUnder` — the URL lies under the prefix its route was authorised for.

Main results:

* `buildUrl_eq` — what the parser makes of a routed path;
* `forwarded_stays_under_iff` — **the forwarded request stays under its prefix exactly for the paths
  that are plain in front of their query**;
* `forwarded_origin` — **no request moves the URL to another host**;
* `forwarded_query_iff` — the query arrives unchanged exactly for paths without `?` and `#`.
-/

import TrustConnector.Validate

set_option relaxedAutoImplicit false
set_option autoImplicit false

namespace TrustConnector

open Text Fallible

/-! ### Building the URL -/

/-- The base URL up to its path, then the path, then the query, parsed again. -/
def buildUrl (authorityOf : Str → Str → Option Str) (base : Whatwg.Url) (path : Str)
    (query : Option Str) : Option Whatwg.Url :=
  Whatwg.parse authorityOf (base.beforePath ++ path ++ Whatwg.queryText query)

/-- The router of a mode; the identity matters to the server only. -/
def routeFor (mode : Mode) (routes : List RouteConfig) (method path identity : Str) :
    Except Str RouteMatch :=
  match mode with
  | .client => findClientRoute routes method path
  | .server => findServerRoute routes method path identity

/-- **The URL lies under the canonical prefix of the route**, as its reader decodes it. -/
def StaysUnder (url : Whatwg.Url) (route : RouteConfig) : Prop :=
  ∃ raw pre, route.upstreamPrefix = some raw ∧ canonicalRequestPath raw = .ok pre ∧
    prefixMatches (Percent.decode url.path) pre = true

variable {authorityOf : Str → Str → Option Str} {base : Whatwg.Url}

/-- What the parser makes of a path behind a base URL. -/
theorem buildUrl_eq (hbase : Whatwg.Base authorityOf base) (t : Str) (query : Option Str) :
    buildUrl authorityOf base (slash :: t) query =
      some (Whatwg.assemble base.scheme base.authority
        (slash :: Whatwg.cleanTail (t ++ Whatwg.queryText query))) := by
  rw [buildUrl, List.append_assoc, List.cons_append, Whatwg.parse_base hbase]

/-- The path of the URL, as its reader decodes it. -/
theorem buildUrl_path {t : Str} {query : Option Str} {url : Whatwg.Url}
    (hbase : Whatwg.Base authorityOf base)
    (h : buildUrl authorityOf base (slash :: t) query = some url) :
    Percent.decode url.path =
      Whatwg.readPath (slash :: Whatwg.pathText (t ++ Whatwg.queryText query)) := by
  rw [buildUrl_eq hbase, Option.some.injEq] at h
  rw [← h, Whatwg.assemble_path]
  rfl

/-- A routed path starts with a `/`, and has no dot segment behind it. -/
theorem routeFor_slash {mode : Mode} {routes : List RouteConfig} {method path identity : Str}
    {m : RouteMatch} (h : routeFor mode routes method path identity = .ok m) :
    ∃ t, m.upstreamPath = slash :: t ∧ Whatwg.NoDotSegment t := by
  cases mode with
  | server => exact canonicalRequestPath_slash (findServerRoute_eq_ok h).1
  | client =>
      obtain ⟨canonical, hcanonical, -, -, raw, localPrefix, upstreamPrefix, -, -, hmatch, hupstream,
        hpath⟩ := findClientRoute_eq_ok h
      obtain ⟨-, -, -, -, -, -, hdots⟩ := canonicalRequestPath_eq_ok_iff.1 hcanonical
      obtain ⟨-, -, -, -, -, -, hdotsUp⟩ := canonicalRequestPath_eq_ok_iff.1 hupstream
      obtain ⟨t, rfl, -⟩ := canonicalRequestPath_slash hupstream
      have hall := noDotSegment_rewritePrefix hdots hdotsUp hmatch
      have hhead : ∃ t', rewritePrefix canonical localPrefix (slash :: t) = slash :: t' := by
        simp only [rewritePrefix]
        split_ifs
        · exact ⟨t, rfl⟩
        · exact ⟨_, List.cons_append⟩
        · exact ⟨_, List.cons_append⟩
      obtain ⟨t', ht'⟩ := hhead
      rw [ht', ← List.nil_append (slash :: t'), Whatwg.noDotSegment_append] at hall
      exact ⟨t', hpath.trans ht', hall.2⟩

/-- A route of an accepted configuration matches under its own canonical prefix. -/
theorem routeFor_prefix {P : Pki} {H : Host} {config : ConnectorConfig} {requireEnv : Bool}
    {mode : Mode} {method path identity : Str} {m : RouteMatch}
    (haccepted : validateConfig P H config mode requireEnv = .ok ())
    (h : routeFor mode config.routes method path identity = .ok m) :
    ∃ raw pre, m.route.upstreamPrefix = some raw ∧ canonicalRequestPath raw = .ok pre ∧
      prefixMatches m.upstreamPath pre = true := by
  cases mode with
  | server => exact (findServerRoute_eq_ok h).2.2.2.2
  | client =>
      obtain ⟨canonical, -, hroute, -, raw, localPrefix, upstreamPrefix, -, -, -, hupstream, hpath⟩ :=
        findClientRoute_eq_ok h
      obtain ⟨-, -, p, hp⟩ := validateConfig_client haccepted m.route hroute
      rw [hp, Option.getD_some] at hupstream
      refine ⟨p, upstreamPrefix, hp, hupstream, ?_⟩
      rw [hpath]
      exact prefixMatches_rewritePrefix canonical localPrefix upstreamPrefix

/-! ### The path -/

/-- **A forwarded request** for a path and a query: a connector with an accepted configuration
matches it, and the URL is built from a base URL, the matched path and the query, which is one that a
request line can carry. -/
def Forwarded (mode : Mode) (path : Str) (query : Option Str) (m : RouteMatch) (url : Whatwg.Url) :
    Prop :=
  ∃ (P : Pki) (H : Host) (config : ConnectorConfig) (requireEnv : Bool) (method identity : Str)
    (authorityOf : Str → Str → Option Str) (base : Whatwg.Url),
    validateConfig P H config mode requireEnv = .ok () ∧
    routeFor mode config.routes method path identity = .ok m ∧
    Whatwg.Base authorityOf base ∧ (∀ q ∈ query, Whatwg.CleanQuery q) ∧
    buildUrl authorityOf base m.upstreamPath query = some url

/-- A plain path is read back as it was authorised. -/
theorem staysUnder_of_plain {mode : Mode} {path : Str} {query : Option Str} {m : RouteMatch}
    {url : Whatwg.Url} (h : Forwarded mode path query m url)
    (hplain : Whatwg.Plain query m.upstreamPath) : StaysUnder url m.route := by
  obtain ⟨P, H, config, requireEnv, method, identity, authorityOf, base, haccepted, hroute, hbase,
    hquery, hurl⟩ := h
  obtain ⟨raw, pre, hraw, hpre, hmatch⟩ := routeFor_prefix haccepted hroute
  obtain ⟨t, ht, hdots⟩ := routeFor_slash hroute
  rw [ht] at hplain hmatch hurl
  refine ⟨raw, pre, hraw, hpre, ?_⟩
  rw [buildUrl_path hbase hurl, (Whatwg.readPath_append_eq_iff hdots hquery).2 hplain]
  exact hmatch

/-- Only the text itself is under a text and not longer than it. -/
theorem eq_of_prefixMatches {path pre : Str} (h : prefixMatches path pre = true)
    (hlen : path.length ≤ pre.length) : path = pre := by
  rcases prefixMatches_iff.1 h with rfl | ⟨rest, rfl, -⟩
  · rfl
  · rw [List.length_append] at hlen
    have hrest : rest = [] := List.eq_nil_of_length_eq_zero (by omega)
    rw [hrest, List.append_nil]

namespace Sample

/-- An authority parser that takes every text for an authority. -/
def anyAuthority (_scheme text : Str) : Option Str := some text

theorem base_upstreamUrl : Whatwg.Base anyAuthority upstreamUrl where
  scheme := Or.inl rfl
  authority_ne := by decide
  authority_clean := by decide +kernel
  stable := rfl

/-- The sample route matches its own prefix, in both modes. -/
theorem routeFor_route {pre out : Str} (h : canonicalRequestPath pre = .ok out) (mode : Mode) :
    routeFor mode (bothModes pre).routes (str "GET") pre (str "spiffe://alpha/client") =
      .ok ⟨route pre, out⟩ := by
  have hself : prefixMatches out out = true := prefixMatches_iff.2 (Or.inl rfl)
  have hstrip : stripPrefix out out = some [] := stripPrefix_eq_some_iff.2 (by simp)
  have hrewrite : rewritePrefix out out out = out := by simp [rewritePrefix, hstrip]
  cases mode with
  | client =>
      simp [routeFor, findClientRoute, best, clientCandidate, bothModes, route, h, hself, hrewrite,
        okOr, pure, Except.pure]
  | server =>
      have hidentity : routeMatchesClientIdentity (route pre) (str "spiffe://alpha/client") = true :=
        rfl
      have hmethod : str "GET" ∈ (route pre).methods := List.mem_cons_self
      have hcandidate : serverCandidate (str "GET") out (str "spiffe://alpha/client") (route pre) =
          .ok (some (out.length, ⟨route pre, out⟩)) := by
        simp [serverCandidate, hidentity, hmethod, show (route pre).upstreamPrefix = some pre from rfl,
          h, hself, pure, Except.pure]
      simp [routeFor, findServerRoute, best, bothModes, h, hcandidate, okOr]

/-- A request for the very prefix of the sample route is forwarded, in both modes. -/
theorem forwarded_route {pre t : Str} {query : Option Str}
    (h : canonicalRequestPath pre = .ok (slash :: t)) (hquery : ∀ q ∈ query, Whatwg.CleanQuery q)
    (mode : Mode) :
    ∃ url, Forwarded mode pre query ⟨route pre, slash :: t⟩ url ∧
      Percent.decode url.path =
        Whatwg.readPath (slash :: Whatwg.pathText (t ++ Whatwg.queryText query)) := by
  have hurl := buildUrl_eq base_upstreamUrl t query
  exact ⟨_, ⟨uriPki, host, bothModes pre, true, str "GET", str "spiffe://alpha/client", anyAuthority,
    upstreamUrl, bothModes_accepted (validateRoutePrefix_of_canonical h) mode, routeFor_route h mode,
    base_upstreamUrl, hquery, hurl⟩, buildUrl_path base_upstreamUrl hurl⟩

end Sample

/-- **When a forwarded request stays under its prefix.**  In either mode, every request does whose
authorised path is plain in front of its query.  And for every request path that is forwarded in its
canonical form, and every query, only then: for any other, an accepted configuration forwards this
very path and query to a place outside the prefix that was authorised. -/
theorem forwarded_stays_under_iff (mode : Mode) :
    (∀ path query m url, Forwarded mode path query m url → Whatwg.Plain query m.upstreamPath →
        StaysUnder url m.route) ∧
      ∀ path u query, canonicalRequestPath path = .ok u → (∀ q ∈ query, Whatwg.CleanQuery q) →
        ((∀ m url, Forwarded mode path query m url → m.upstreamPath = u → StaysUnder url m.route) ↔
          Whatwg.Plain query u) := by
  refine ⟨fun path query m url h hplain => staysUnder_of_plain h hplain,
    fun path u query hpath hquery => ⟨fun hall => ?_,
      fun hplain m url h hu => staysUnder_of_plain h (hu ▸ hplain)⟩⟩
  obtain ⟨t, rfl, hdots⟩ := canonicalRequestPath_slash hpath
  -- the route whose prefix is the path itself leaves no room below the prefix
  obtain ⟨url, hforwarded, hread⟩ := Sample.forwarded_route hpath hquery mode
  obtain ⟨raw, pre, hraw, hpre, hmatch⟩ := hall _ _ hforwarded rfl
  obtain rfl : path = raw := Option.some.inj hraw
  obtain rfl : slash :: t = pre := Except.ok.inj (hpath.symm.trans hpre)
  have hlen : (Percent.decode url.path).length ≤ (slash :: t).length := by
    rw [hread, List.length_cons]
    have := Whatwg.length_readPath_le (Whatwg.pathText (t ++ Whatwg.queryText query))
    have := (Whatwg.pathText_append_sublist t hquery).length_le
    omega
  have hself := eq_of_prefixMatches hmatch hlen
  rw [hread] at hself
  exact (Whatwg.readPath_append_eq_iff hdots hquery).1 hself

/-- A doubly encoded dot segment leaves the prefix: an accepted configuration authorises the path
under `/v1` and forwards it to `/admin`. -/
theorem forwarded_leaves_prefix :
    validateConfig Sample.uriPki Sample.host (Sample.bothModes (str "/v1")) .server true = .ok () ∧
      routeFor .server (Sample.bothModes (str "/v1")).routes (str "GET")
        (str "/v1/%252e%252e/admin") (str "spiffe://alpha/client") =
          .ok ⟨Sample.route (str "/v1"), str "/v1/%2e%2e/admin"⟩ ∧
      (buildUrl Sample.anyAuthority Sample.upstreamUrl (str "/v1/%2e%2e/admin") none).map (·.path) =
        some (str "/admin") ∧
      canonicalRequestPath (str "/v1") = .ok (str "/v1") ∧
      prefixMatches (Percent.decode (str "/admin")) (str "/v1") = false := by
  decide +kernel

/-! ### The host -/

/-- **No request moves the URL to another host.**  Whatever path and query are asked for, and
whatever the route makes of the path, the URL has the scheme of the base URL and its authority: the
same user information, host and port. -/
theorem forwarded_origin {mode : Mode} {routes : List RouteConfig} {method path identity : Str}
    {m : RouteMatch} {authorityOf : Str → Str → Option Str} {base url : Whatwg.Url}
    {query : Option Str}
    (hroute : routeFor mode routes method path identity = .ok m)
    (hbase : Whatwg.Base authorityOf base)
    (hurl : buildUrl authorityOf base m.upstreamPath query = some url) :
    url.scheme = base.scheme ∧ url.authority = base.authority := by
  -- the authority ends at the slash that starts the routed path
  obtain ⟨t, ht, -⟩ := routeFor_slash hroute
  rw [ht, buildUrl_eq hbase, Option.some.injEq] at hurl
  rw [← hurl]
  exact ⟨rfl, rfl⟩

/-- A path that looks like another authority stays a path. -/
theorem forwarded_origin_authority_path :
    ∃ url, buildUrl Sample.anyAuthority Sample.upstreamUrl (str "/v1//user@other:8443/x") none =
        some url ∧
      url.scheme = Sample.upstreamUrl.scheme ∧ url.authority = Sample.upstreamUrl.authority := by
  have hroute : routeFor .client (Sample.bothModes (str "/v1")).routes (str "GET")
      (str "/v1//user@other:8443/x") [] =
        .ok ⟨Sample.route (str "/v1"), str "/v1//user@other:8443/x"⟩ := by decide +kernel
  have hurl := buildUrl_eq Sample.base_upstreamUrl (str "v1//user@other:8443/x") none
  exact ⟨_, hurl, forwarded_origin hroute Sample.base_upstreamUrl hurl⟩

/-! ### The query -/

/-- **When the query arrives unchanged.**  For every routed path and every query, the URL is built,
and its query is the one that was asked for, with no fragment, exactly when the authorised path
contains no `?` and no `#`. -/
theorem forwarded_query_iff {mode : Mode} {routes : List RouteConfig} {method path identity : Str}
    {m : RouteMatch} {authorityOf : Str → Str → Option Str} {base : Whatwg.Url}
    {query : Option Str}
    (hroute : routeFor mode routes method path identity = .ok m)
    (hbase : Whatwg.Base authorityOf base) (hquery : ∀ q ∈ query, Whatwg.CleanQuery q) :
    ∃ url, buildUrl authorityOf base m.upstreamPath query = some url ∧
      ((url.query = query.map (Percent.encode Whatwg.specialQuerySet) ∧ url.fragment = none) ↔
        question ∉ m.upstreamPath ∧ Text.hash ∉ m.upstreamPath) := by
  obtain ⟨t, ht, -⟩ := routeFor_slash hroute
  refine ⟨_, by rw [ht]; exact buildUrl_eq hbase t query, ?_⟩
  rw [Whatwg.query_fragment_iff hquery, ht]
  have hq : question ≠ slash := by decide
  have hh : Text.hash ≠ slash := by decide
  simp only [List.mem_cons, hq, hh, false_or]

/-- The query of a request for `/v1/items` arrives unchanged. -/
theorem forwarded_query_items :
    ∃ url, buildUrl Sample.anyAuthority Sample.upstreamUrl (str "/v1/items")
        (some (str "page=2")) = some url ∧
      url.query = some (str "page=2") ∧ url.fragment = none := by
  have hroute : routeFor .client (Sample.bothModes (str "/v1")).routes (str "GET")
      (str "/v1/items") [] = .ok ⟨Sample.route (str "/v1"), str "/v1/items"⟩ := by decide +kernel
  have hquery : ∀ q ∈ some (str "page=2"), Whatwg.CleanQuery q := by decide +kernel
  obtain ⟨url, hurl, hiff⟩ := forwarded_query_iff hroute Sample.base_upstreamUrl hquery
  have hencode : Percent.encode Whatwg.specialQuerySet (str "page=2") = str "page=2" := by
    decide +kernel
  obtain ⟨hq, hf⟩ := hiff.2 (by decide +kernel)
  rw [Option.map_some, hencode] at hq
  exact ⟨url, hurl, hq, hf⟩

/-- An encoded `?` or `#` in the path moves the rest of the path into the query or drops the
query. -/
theorem forwarded_query_shifted :
    routeFor .client (Sample.bothModes (str "/v1")).routes (str "GET")
        (str "/v1/a%3Fadmin=1") [] = .ok ⟨Sample.route (str "/v1"), str "/v1/a?admin=1"⟩ ∧
      (buildUrl Sample.anyAuthority Sample.upstreamUrl (str "/v1/a?admin=1") none).map (·.query) =
        some (some (str "admin=1")) ∧
      routeFor .client (Sample.bothModes (str "/v1")).routes (str "GET")
        (str "/v1/a%23b") [] = .ok ⟨Sample.route (str "/v1"), str "/v1/a#b"⟩ ∧
      (buildUrl Sample.anyAuthority Sample.upstreamUrl (str "/v1/a#b")
        (some (str "page=2"))).map (fun url => (url.query, url.fragment)) =
          some (none, some (str "b?page=2")) := by
  decide +kernel

end TrustConnector
