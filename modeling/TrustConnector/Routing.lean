/-
**Routing.**

A request path is made canonical by percent-decoding it once; the checks around the decoding are
meant to ensure that the decoded path has the same segments as the path that was sent.  Routes are
then chosen by the longest canonical prefix, and on the client side the prefix is replaced.

Main definitions:

* `canonicalRequestPath` — the one-pass decoder with its checks;
* `prefixMatches`, `rewritePrefix` — matching and replacing a prefix;
* `findClientRoute`, `findServerRoute` — the two routers.

Main results:

* `canonicalRequestPath_eq_ok_iff` — the paths that have a canonical form;
* `findClientRoute_eq_ok`, `findServerRoute_eq_ok` — what a match says about its route;
* `prefixMatches_rewritePrefix` — a rewritten path lies under the new prefix;
* `canonicalRequestPath_idempotent_iff` — **a canonical path is its own canonical form exactly when
  the path that was sent does not spell a percent sign**.
-/

import TrustConnector.Config
import TrustConnector.Fallible

set_option relaxedAutoImplicit false
set_option autoImplicit false

namespace TrustConnector

open Text Fallible

/-! ### Canonical paths -/

/-- Every `%` that a scan from left to right meets is followed by two hexadecimal digits. -/
def rejectInvalidPercentEncoding (path : Str) : Except Str Unit :=
  ensure (Percent.wellFormed path) (str "path contains invalid percent-encoding")

def rejectEncodedDelimiters (raw decoded : Str) : Except Str Unit :=
  -- a backslash is looked for only where something is encoded: a raw one alone is let through
  if percent ∈ raw ∧ backslash ∈ decoded then .error (str "path contains encoded delimiter")
  else if raw.count slash < decoded.count slash then
    .error (str "path contains encoded delimiter")
  else .ok ()

/-- A segment that is `.` or `..`. -/
def isDotSegment (segment : Str) : Bool := segment = str "." || segment = str ".."

/-- **The canonical form of a request path**: its percent-decoding, if it passes the checks. -/
def canonicalRequestPath (path : Str) : Except Str Str := do
  ensure (path.head? = some slash) (str "path must start with '/'")
  rejectInvalidPercentEncoding path
  let decoded := Percent.decode path
  ensure (isUtf8 decoded) (str "path contains invalid percent-encoding")
  rejectEncodedDelimiters path decoded
  ensure (!(decoded.splitOn slash).any isDotSegment) (str "path contains dot segment")
  return decoded

def validateRequestPath (path : Str) : Except Str Unit := do
  let _ ← canonicalRequestPath path
  return ()

def validateRoutePrefix (pre : Str) : Except Str Unit := do
  ensure (!pre.isEmpty) (str "prefix must not be empty")
  ensure (pre.head? = some slash) (str "prefix must start with '/'")
  validateRequestPath pre

/-! ### Prefixes -/

/-- A path lies under a prefix: it is the prefix, or it continues it at a segment boundary. -/
def prefixMatches (path pre : Str) : Bool :=
  if path = pre then true
  else
    match stripPrefix path pre with
    | none => false
    | some rest => pre.getLast? = some slash || rest.head? = some slash

/-- Replace the local prefix of a path. -/
def rewritePrefix (path localPrefix upstreamPrefix : Str) : Str :=
  let suffix := (stripPrefix path localPrefix).getD []
  if suffix.isEmpty then upstreamPrefix
  else if upstreamPrefix.getLast? = some slash ∨ suffix.head? = some slash then
    upstreamPrefix ++ suffix
  else upstreamPrefix ++ slash :: suffix

/-! ### The routers -/

/-- A route, and the path to ask the upstream for. -/
structure RouteMatch where
  route : RouteConfig
  upstreamPath : Str
  deriving DecidableEq, Repr

/-- What a route proposes for a request to the client connector. -/
def clientCandidate (method path : Str) (route : RouteConfig) :
    Except Str (Option (ℕ × RouteMatch)) :=
  if method ∉ route.methods then .ok none
  else
    match route.localPrefix with
    | none => .ok none
    | some raw => do
        let localPrefix ← canonicalRequestPath raw
        if !prefixMatches path localPrefix then .ok none
        else do
          -- an absent upstream prefix is the local one, which is decoded here for the second time
          let upstreamPrefix ← canonicalRequestPath (route.upstreamPrefix.getD localPrefix)
          return some (localPrefix.length,
            { route, upstreamPath := rewritePrefix path localPrefix upstreamPrefix })

def findClientRoute (routes : List RouteConfig) (method path : Str) : Except Str RouteMatch := do
  let path ← canonicalRequestPath path
  let found ← best (clientCandidate method path) none routes
  okOr (str "no client route matched") (found.map Prod.snd)

def routeMatchesClientIdentity (route : RouteConfig) (clientIdentity : Str) : Bool :=
  route.clientIdentity.map trim = some (trim clientIdentity) ||
    route.clientIdentities.any fun allowed => trim allowed = trim clientIdentity

/-- What a route proposes for a request to the server connector. -/
def serverCandidate (method path clientIdentity : Str) (route : RouteConfig) :
    Except Str (Option (ℕ × RouteMatch)) :=
  if method ∉ route.methods then .ok none
  else if !routeMatchesClientIdentity route clientIdentity then .ok none
  else
    match route.upstreamPrefix with
    | none => .ok none
    | some raw => do
        -- a prefix without a canonical form ends the search, also if another route would match
        let upstreamPrefix ← canonicalRequestPath raw
        if prefixMatches path upstreamPrefix then
          return some (upstreamPrefix.length, { route, upstreamPath := path })
        else .ok none

def findServerRoute (routes : List RouteConfig) (method path clientIdentity : Str) :
    Except Str RouteMatch := do
  let path ← canonicalRequestPath path
  let found ← best (serverCandidate method path clientIdentity) none routes
  okOr (str "no server route matched") (found.map Prod.snd)

/-! ### When a path has a canonical form -/

theorem rejectEncodedDelimiters_eq_ok {raw decoded : Str} {u : Unit} :
    rejectEncodedDelimiters raw decoded = .ok u ↔
      (percent ∈ raw → backslash ∉ decoded) ∧ decoded.count slash ≤ raw.count slash := by
  unfold rejectEncodedDelimiters
  split_ifs with hback hcount
  · simp [hback.1, hback.2]
  · simp [hcount]
  · simp only [true_iff]
    exact ⟨fun hp hb => hback ⟨hp, hb⟩, not_lt.1 hcount⟩

theorem not_any_isDotSegment {path : Str} :
    (!(path.splitOn slash).any isDotSegment) = true ↔ Whatwg.NoDotSegment path := by
  simp [isDotSegment, Whatwg.NoDotSegment]

/-- **The paths that have a canonical form**, which is their percent-decoding. -/
theorem canonicalRequestPath_eq_ok_iff {path out : Str} :
    canonicalRequestPath path = .ok out ↔
      out = Percent.decode path ∧ path.head? = some slash ∧ Percent.wellFormed path = true ∧
        isUtf8 out = true ∧ (percent ∈ path → backslash ∉ out) ∧
        out.count slash ≤ path.count slash ∧ Whatwg.NoDotSegment out := by
  simp only [canonicalRequestPath, rejectInvalidPercentEncoding, chain_eq_ok, ensure_eq_ok,
    rejectEncodedDelimiters_eq_ok, not_any_isDotSegment, decide_eq_true_eq]
  constructor
  · rintro ⟨⟨⟩, hhead, ⟨⟩, hwf, ⟨⟩, hutf, ⟨⟩, ⟨hback, hcount⟩, ⟨⟩, hdots, hout⟩
    obtain rfl : Percent.decode path = out := Except.ok.inj hout
    exact ⟨rfl, hhead, hwf, hutf, hback, hcount, hdots⟩
  · rintro ⟨rfl, hhead, hwf, hutf, hback, hcount, hdots⟩
    exact ⟨(), hhead, (), hwf, (), hutf, (), ⟨hback, hcount⟩, (), hdots, rfl⟩

/-- A canonical path starts with a `/`, and has no dot segment behind it. -/
theorem canonicalRequestPath_slash {path out : Str} (h : canonicalRequestPath path = .ok out) :
    ∃ t, out = slash :: t ∧ Whatwg.NoDotSegment t := by
  obtain ⟨rfl, hhead, -, -, -, -, hdots⟩ := canonicalRequestPath_eq_ok_iff.1 h
  cases path with
  | nil => cases hhead
  | cons b rest =>
      obtain rfl : b = slash := Option.some.inj hhead
      have hdecode : Percent.decode (slash :: rest) = slash :: Percent.decode rest :=
        Percent.decode_cons_of_ne (by decide) rest
      rw [hdecode, ← List.nil_append (slash :: _), Whatwg.noDotSegment_append] at hdots
      exact ⟨Percent.decode rest, hdecode, hdots.2⟩

/-! ### What a match says -/

theorem clientCandidate_eq_some {method path : Str} {route : RouteConfig} {out : ℕ × RouteMatch}
    (h : clientCandidate method path route = .ok (some out)) :
    method ∈ route.methods ∧
      ∃ raw localPrefix upstreamPrefix, route.localPrefix = some raw ∧
        canonicalRequestPath raw = .ok localPrefix ∧ prefixMatches path localPrefix = true ∧
        canonicalRequestPath (route.upstreamPrefix.getD localPrefix) = .ok upstreamPrefix ∧
        out = (localPrefix.length, ⟨route, rewritePrefix path localPrefix upstreamPrefix⟩) := by
  unfold clientCandidate at h
  by_cases hmethod : method ∈ route.methods
  · rw [if_neg (not_not.2 hmethod)] at h
    cases hraw : route.localPrefix with
    | none => simp [hraw] at h
    | some raw =>
        simp only [hraw, chain_eq_ok] at h
        obtain ⟨localPrefix, hlocal, h⟩ := h
        cases hmatch : prefixMatches path localPrefix with
        | false => simp [hmatch] at h
        | true =>
            simp only [hmatch, Bool.not_true, Bool.false_eq_true, if_false, chain_eq_ok] at h
            obtain ⟨upstreamPrefix, hupstream, h⟩ := h
            exact ⟨hmethod, raw, localPrefix, upstreamPrefix, rfl, hlocal, hmatch, hupstream,
              (Option.some.inj (Except.ok.inj h)).symm⟩
  · simp [hmethod] at h

theorem serverCandidate_eq_some {method path clientIdentity : Str} {route : RouteConfig}
    {out : ℕ × RouteMatch} (h : serverCandidate method path clientIdentity route = .ok (some out)) :
    method ∈ route.methods ∧ routeMatchesClientIdentity route clientIdentity = true ∧
      ∃ raw upstreamPrefix, route.upstreamPrefix = some raw ∧
        canonicalRequestPath raw = .ok upstreamPrefix ∧ prefixMatches path upstreamPrefix = true ∧
        out = (upstreamPrefix.length, ⟨route, path⟩) := by
  unfold serverCandidate at h
  by_cases hmethod : method ∈ route.methods
  · rw [if_neg (not_not.2 hmethod)] at h
    cases hidentity : routeMatchesClientIdentity route clientIdentity with
    | false => simp [hidentity] at h
    | true =>
        simp only [hidentity, Bool.not_true, Bool.false_eq_true, if_false] at h
        cases hraw : route.upstreamPrefix with
        | none => simp [hraw] at h
        | some raw =>
            simp only [hraw, chain_eq_ok] at h
            obtain ⟨upstreamPrefix, hupstream, h⟩ := h
            cases hmatch : prefixMatches path upstreamPrefix with
            | false => simp [hmatch] at h
            | true =>
                simp only [hmatch, if_true] at h
                exact ⟨hmethod, rfl, raw, upstreamPrefix, rfl, hupstream, hmatch,
                  (Option.some.inj (Except.ok.inj h)).symm⟩
  · simp [hmethod] at h

/-- **A match of the client router.** -/
theorem findClientRoute_eq_ok {routes : List RouteConfig} {method path : Str} {m : RouteMatch}
    (h : findClientRoute routes method path = .ok m) :
    ∃ canonical, canonicalRequestPath path = .ok canonical ∧ m.route ∈ routes ∧
      method ∈ m.route.methods ∧
      ∃ raw localPrefix upstreamPrefix, m.route.localPrefix = some raw ∧
        canonicalRequestPath raw = .ok localPrefix ∧
        prefixMatches canonical localPrefix = true ∧
        canonicalRequestPath (m.route.upstreamPrefix.getD localPrefix) = .ok upstreamPrefix ∧
        m.upstreamPath = rewritePrefix canonical localPrefix upstreamPrefix := by
  simp only [findClientRoute, chain_eq_ok, okOr_eq_ok, Option.map_eq_some_iff] at h
  obtain ⟨canonical, hcanonical, found, hfound, out, rfl, rfl⟩ := h
  rcases best_mem hfound with hnone | ⟨route, hroute, hcandidate⟩
  · cases hnone
  · obtain ⟨hmethod, raw, localPrefix, upstreamPrefix, hraw, hlocal, hmatch, hupstream, rfl⟩ :=
      clientCandidate_eq_some hcandidate
    exact ⟨canonical, hcanonical, hroute, hmethod, raw, localPrefix, upstreamPrefix, hraw, hlocal,
      hmatch, hupstream, rfl⟩

/-- **A match of the server router.** -/
theorem findServerRoute_eq_ok {routes : List RouteConfig} {method path clientIdentity : Str}
    {m : RouteMatch} (h : findServerRoute routes method path clientIdentity = .ok m) :
    canonicalRequestPath path = .ok m.upstreamPath ∧ m.route ∈ routes ∧
      method ∈ m.route.methods ∧ routeMatchesClientIdentity m.route clientIdentity = true ∧
      ∃ raw upstreamPrefix, m.route.upstreamPrefix = some raw ∧
        canonicalRequestPath raw = .ok upstreamPrefix ∧
        prefixMatches m.upstreamPath upstreamPrefix = true := by
  simp only [findServerRoute, chain_eq_ok, okOr_eq_ok, Option.map_eq_some_iff] at h
  obtain ⟨canonical, hcanonical, found, hfound, out, rfl, rfl⟩ := h
  rcases best_mem hfound with hnone | ⟨route, hroute, hcandidate⟩
  · cases hnone
  · obtain ⟨hmethod, hidentity, raw, upstreamPrefix, hraw, hupstream, hmatch, rfl⟩ :=
      serverCandidate_eq_some hcandidate
    exact ⟨hcanonical, hroute, hmethod, hidentity, raw, upstreamPrefix, hraw, hupstream, hmatch⟩

/-! ### Prefixes -/

theorem prefixMatches_iff {path pre : Str} : prefixMatches path pre = true ↔
    path = pre ∨ ∃ rest, path = pre ++ rest ∧
      (pre.getLast? = some slash ∨ rest.head? = some slash) := by
  unfold prefixMatches
  split_ifs with heq
  · simp [heq]
  · cases hs : stripPrefix path pre with
    | none =>
        simp only [Bool.false_eq_true, heq, false_or, false_iff, not_exists]
        rintro rest ⟨hrest, -⟩
        rw [stripPrefix_eq_some_iff.2 hrest] at hs
        cases hs
    | some rest =>
        have hpath := stripPrefix_eq_some_iff.1 hs
        simp only [Bool.or_eq_true, decide_eq_true_eq, heq, false_or]
        constructor
        · exact fun h => ⟨rest, hpath, h⟩
        · rintro ⟨rest', hpath', h⟩
          obtain rfl : rest = rest' := List.append_cancel_left (hpath.symm.trans hpath')
          exact h

/-- **A rewritten path lies under the new prefix.** -/
theorem prefixMatches_rewritePrefix (path localPrefix upstreamPrefix : Str) :
    prefixMatches (rewritePrefix path localPrefix upstreamPrefix) upstreamPrefix = true := by
  rw [prefixMatches_iff]
  simp only [rewritePrefix]
  split_ifs with hempty hslash
  · exact Or.inl rfl
  · exact Or.inr ⟨_, rfl, hslash⟩
  · exact Or.inr ⟨_, rfl, Or.inr rfl⟩

/-- The segments of a rewritten path come from the new prefix and from the path, so it keeps what can
be checked on both sides of a slash. -/
theorem of_rewritePrefix {Q : Str → Prop} (hQ : ∀ s t, Q (s ++ slash :: t) ↔ Q s ∧ Q t)
    {path localPrefix upstreamPrefix : Str} (hpath : Q path) (hupstream : Q upstreamPrefix)
    (hmatch : prefixMatches path localPrefix = true) :
    Q (rewritePrefix path localPrefix upstreamPrefix) := by
  rcases prefixMatches_iff.1 hmatch with rfl | ⟨suffix, rfl, hboundary⟩
  · have hstrip : stripPrefix path path = some [] := stripPrefix_eq_some_iff.2 (by simp)
    simpa [rewritePrefix, hstrip] using hupstream
  · simp only [rewritePrefix, stripPrefix_append, Option.getD_some]
    split_ifs with hempty hslash
    · exact hupstream
    · by_cases hhead : suffix.head? = some slash
      · -- the suffix brings its own separator
        obtain ⟨rest, rfl⟩ := List.head?_eq_some_iff.1 hhead
        rw [hQ] at hpath ⊢
        exact ⟨hupstream, hpath.2⟩
      · -- both prefixes end in the separator
        obtain ⟨a, rfl⟩ := List.getLast?_eq_some_iff.1 (hslash.resolve_right hhead)
        obtain ⟨c, rfl⟩ := List.getLast?_eq_some_iff.1 (hboundary.resolve_right hhead)
        rw [List.append_assoc, List.singleton_append, hQ] at hpath ⊢
        exact ⟨((hQ a []).1 hupstream).1, hpath.2⟩
    · obtain ⟨c, rfl⟩ := List.getLast?_eq_some_iff.1
        (hboundary.resolve_right fun hhead => hslash (Or.inr hhead))
      rw [List.append_assoc, List.singleton_append] at hpath
      exact (hQ _ _).2 ⟨hupstream, ((hQ _ _).1 hpath).2⟩

theorem noDotSegment_rewritePrefix {path localPrefix upstreamPrefix : Str}
    (hpath : Whatwg.NoDotSegment path) (hupstream : Whatwg.NoDotSegment upstreamPrefix)
    (hmatch : prefixMatches path localPrefix = true) :
    Whatwg.NoDotSegment (rewritePrefix path localPrefix upstreamPrefix) :=
  of_rewritePrefix (fun _ _ => Whatwg.noDotSegment_append) hpath hupstream hmatch

theorem isUtf8_rewritePrefix {path localPrefix upstreamPrefix : Str} (hpath : isUtf8 path = true)
    (hupstream : isUtf8 upstreamPrefix = true) (hmatch : prefixMatches path localPrefix = true) :
    isUtf8 (rewritePrefix path localPrefix upstreamPrefix) = true :=
  of_rewritePrefix (Q := fun s => isUtf8 s = true) (fun _ _ => isUtf8_append_cons (by decide))
    hpath hupstream hmatch

/-! ### Canonical paths are not always canonical -/

/-- **When a canonical path is its own canonical form**: exactly when the path that was sent does
not spell a percent sign. -/
theorem canonicalRequestPath_idempotent_iff {path out : Str}
    (h : canonicalRequestPath path = .ok out) :
    canonicalRequestPath out = .ok out ↔ ¬ Percent.percentTriplet <:+: path := by
  obtain ⟨hout, hhead, hwf, hutf, hback, hcount, hdots⟩ := canonicalRequestPath_eq_ok_iff.1 h
  obtain ⟨t, hslash, -⟩ := canonicalRequestPath_slash h
  rw [← Percent.percent_mem_decode_iff hwf, ← hout, canonicalRequestPath_eq_ok_iff]
  constructor
  · rintro ⟨hfix, -, hwf', -⟩ hmem
    have := Percent.length_decode_lt (Percent.hasTriplet_of_wellFormed hwf' hmem)
    rw [← hfix] at this
    omega
  · intro hnot
    refine ⟨(Percent.decode_of_not_mem hnot).symm, by rw [hslash]; rfl,
      Percent.wellFormed_of_not_mem hnot, hutf, fun hp => absurd hp hnot, le_rfl, hdots⟩

/-- An encoded space does no harm. -/
theorem canonicalRequestPath_idempotent_space :
    canonicalRequestPath (str "/v1/a b") = .ok (str "/v1/a b") := by
  have h : canonicalRequestPath (str "/v1/a%20b") = .ok (str "/v1/a b") := by decide +kernel
  exact (canonicalRequestPath_idempotent_iff h).2 (by decide +kernel)

/-- The canonical form of a path that spells `%41` has another canonical form. -/
theorem canonicalRequestPath_not_idempotent :
    canonicalRequestPath (str "/v1/%2541") = .ok (str "/v1/%41") ∧
      canonicalRequestPath (str "/v1/%41") = .ok (str "/v1/A") := by
  decide +kernel

end TrustConnector
