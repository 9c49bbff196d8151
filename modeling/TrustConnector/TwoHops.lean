/-
**Two connectors in a row.**

A request of a local caller goes through two connectors: the client connector routes it and sends it
to the server connector, which routes it again and sends it to the upstream.  Between the two the
path is written into a URL and read back, header values may lose the white space around them, and
each connector settles the id of the request for itself.  The answer comes back the same way: what
the server connector answers, be it a reply of the upstream or a problem of its own, is a reply for
the client connector.

Main definitions:

* `CarriesOver` — the paths that the server connector reads as the client connector wrote them;
* `ArrivesAs` — how a call of the client connector comes to the server connector;
* `Relayed` — what the upstream is told about the request of the caller;
* `replyOf` — how an answer of the server connector comes back.

Main results:

* `hop_path_iff` — **which paths survive the hop**;
* `relayed_of_forwarded` — **what a request that both connectors forward is when it gets to the
  upstream**;
* `relay_returns` — the caller gets the answer of the server connector, or is told that there is none
  if it is too long.
-/

import TrustConnector.ClientHeaders
import TrustConnector.ServerHeaders
import TrustConnector.ServerPool

set_option relaxedAutoImplicit false
set_option autoImplicit false

namespace TrustConnector

open Text Fallible Http

/-! ### The path -/

/-- **A path that can be written into a URL and read back**: nothing in it is dropped, decoded or
taken for a delimiter.  Only in front of a query may it end in a space. -/
structure CarriesOver (path : Str) (query : Option Str) : Prop where
  noPercent : percent ∉ path
  noBackslash : backslash ∉ path
  clean : ∀ b ∈ path, Whatwg.isTabOrNewline b = false ∧ Whatwg.endsPath b = false
  last : query = none → ∀ b ∈ path.getLast?, Whatwg.isC0OrSpace b = false

/-- What carries over is plain, and has no `%` at all. -/
theorem carriesOver_iff {path : Str} {query : Option Str} :
    CarriesOver path query ↔ percent ∉ path ∧ Whatwg.Plain query path := by
  constructor
  · rintro ⟨hpercent, hback, hclean, hlast⟩
    refine ⟨hpercent, Percent.hasTriplet_of_mem hpercent, fun b hb => ?_, hlast⟩
    exact ⟨(hclean b hb).1, (hclean b hb).2, fun hc => hback (hc ▸ hb)⟩
  · rintro ⟨hpercent, -, hclean, hlast⟩
    refine ⟨hpercent, fun hback => (hclean _ hback).2.2 rfl, fun b hb => ?_, hlast⟩
    exact ⟨(hclean b hb).1, (hclean b hb).2.1⟩

section

variable {authorityOf : Str → Str → Option Str} {base url : Whatwg.Url} {path : Str}
  {query : Option Str}

/-- A plain path is in the URL, encoded. -/
theorem urlPath_eq_encode {t : Str} (hbase : Whatwg.Base authorityOf base)
    (hdots : Whatwg.NoDotSegment t)
    (hquery : ∀ q ∈ query, Whatwg.CleanQuery q)
    (hurl : buildUrl authorityOf base (slash :: t) query = some url)
    (hplain : Whatwg.Plain query (slash :: t)) :
    url.path = Percent.encode Whatwg.pathSet (slash :: t) := by
  obtain ⟨htriplet, hback, htext⟩ := (Whatwg.plain_cons_slash_iff hquery).1 hplain
  rw [buildUrl_eq hbase, Option.some.injEq] at hurl
  rw [← hurl, Whatwg.assemble_path, htext,
    Whatwg.parsePath_of_no_dot (Whatwg.no_dot_of_not_hasTriplet hdots htriplet hback),
    Whatwg.map_unback_eq_self_iff.2 hback]

/-- **Which paths can be written into a URL and read back.** -/
theorem canonicalRequestPath_urlPath_iff {t : Str} (hbase : Whatwg.Base authorityOf base)
    (hquery : ∀ q ∈ query, Whatwg.CleanQuery q) (hdots : Whatwg.NoDotSegment t)
    (hutf8 : isUtf8 (slash :: t) = true)
    (hurl : buildUrl authorityOf base (slash :: t) query = some url) :
    canonicalRequestPath url.path = .ok (slash :: t) ↔ CarriesOver (slash :: t) query := by
  constructor
  · intro h
    obtain ⟨hdecode, -, hformed, -⟩ := canonicalRequestPath_eq_ok_iff.1 h
    have hread := hdecode
    rw [buildUrl_path hbase hurl, eq_comm, Whatwg.readPath_append_eq_iff hdots hquery] at hread
    -- a `%` that is read back is one that starts no triplet, and the server refuses those
    refine carriesOver_iff.2 ⟨fun hpercent => ?_, hread⟩
    rw [urlPath_eq_encode hbase hdots hquery hurl hread,
      Percent.wellFormed_encode Whatwg.pathSet_percent Whatwg.pathSet_hexDigit] at hformed
    have htriplet := hread.noTriplet
    rw [Percent.hasTriplet_of_wellFormed hformed hpercent] at htriplet
    cases htriplet
  · intro h
    obtain ⟨hpercent, hplain⟩ := carriesOver_iff.1 h
    have hdecoded : Percent.decode (Percent.encode Whatwg.pathSet (slash :: t)) = slash :: t := by
      rw [Percent.decode_encode Whatwg.pathSet_percent Whatwg.pathSet_hexDigit,
        Percent.decode_of_not_mem hpercent]
    rw [urlPath_eq_encode hbase hdots hquery hurl hplain, canonicalRequestPath_eq_ok_iff, hdecoded]
    refine ⟨rfl, ?_, ?_, hutf8, fun _ => h.noBackslash,
      Percent.count_le_count_encode (by decide) _, ?_⟩
    · rw [Percent.head?_encode, if_neg (by decide)]
    · rw [Percent.wellFormed_encode Whatwg.pathSet_percent Whatwg.pathSet_hexDigit]
      exact Percent.wellFormed_of_not_mem hpercent
    · rw [← List.nil_append (slash :: t), Whatwg.noDotSegment_append]
      refine ⟨?_, hdots⟩
      intro seg hseg
      rw [List.splitOn_nil, List.mem_singleton] at hseg
      subst hseg
      decide

end

/-- The path that the client connector asks for is text. -/
theorem isUtf8_of_findClientRoute {routes : List RouteConfig} {method path : Str} {m : RouteMatch}
    (h : findClientRoute routes method path = .ok m) : isUtf8 m.upstreamPath = true := by
  obtain ⟨canonical, hcanonical, -, -, raw, localPrefix, upstreamPrefix, -, -, hmatch, hupstream,
    hpath⟩ := findClientRoute_eq_ok h
  obtain ⟨-, -, -, hutf8, -⟩ := canonicalRequestPath_eq_ok_iff.1 hcanonical
  obtain ⟨-, -, -, hutf8', -⟩ := canonicalRequestPath_eq_ok_iff.1 hupstream
  rw [hpath]
  exact isUtf8_rewritePrefix hutf8 hutf8' hmatch

/-- The path of a URL that the client connector builds. -/
theorem hop_path_of_url {authorityOf : Str → Str → Option Str} {base url : Whatwg.Url}
    {routes : List RouteConfig} {method path : Str} {query : Option Str} {m : RouteMatch}
    (hbase : Whatwg.Base authorityOf base) (hquery : ∀ q ∈ query, Whatwg.CleanQuery q)
    (hroute : findClientRoute routes method path = .ok m)
    (hurl : buildUrl authorityOf base m.upstreamPath query = some url) :
    canonicalRequestPath url.path = .ok m.upstreamPath ↔ CarriesOver m.upstreamPath query := by
  have hclient : routeFor .client routes method path [] = .ok m := hroute
  obtain ⟨t, ht, hdots⟩ := routeFor_slash hclient
  have hutf8 := isUtf8_of_findClientRoute hroute
  rw [ht] at hurl hutf8 ⊢
  exact canonicalRequestPath_urlPath_iff hbase hquery hdots hutf8 hurl

/-- **Which paths survive the hop.**  Of a request that the client connector sends, the server
connector routes by the very path that the client connector had settled on exactly if there is
nothing in it that a URL would change. -/
theorem hop_path_iff {N : Platform} {config : ConnectorConfig} {request : Request} {path : Str}
    {query : Option Str} {requestId : Str} {call : UpstreamRequest}
    (hbase : ∀ server ∈ config.server, Whatwg.Base N.authorityOf server.url)
    (hquery : ∀ q ∈ query, Whatwg.CleanQuery q)
    (hcall : (handleClient N config request path query requestId).call = some call) :
    ∃ m, findClientRoute config.routes request.method path = .ok m ∧
      (canonicalRequestPath call.url.path = .ok m.upstreamPath ↔
        CarriesOver m.upstreamPath query) := by
  obtain ⟨m, purpose, server, hroute, -, hserver, hurl, -⟩ :=
    clientRequest_eq_ok (clientRequest_of_call hcall)
  exact ⟨m, hroute, hop_path_of_url (hbase server hserver) hquery hroute hurl⟩

/-- A path with an encoded space survives the hop, and one with an encoded `%` does not. -/
theorem hop_path_iff_space :
    (∃ call, (handleClient Sample.platform (Sample.bothModes (str "/v1")) Sample.clientOfAlpha
          (str "/v1/a%20b") none (str "id")).call = some call ∧
        canonicalRequestPath call.url.path = .ok (str "/v1/a b")) ∧
      ∃ call, (handleClient Sample.platform (Sample.bothModes (str "/v1")) Sample.clientOfAlpha
          (str "/v1/100%25") none (str "id")).call = some call ∧
        canonicalRequestPath call.url.path ≠ .ok (str "/v1/100%") := by
  have hbase : ∀ server ∈ (Sample.bothModes (str "/v1")).server,
      Whatwg.Base Sample.platform.authorityOf server.url := by
    rintro server ⟨⟩
    exact Sample.base_serverUrl
  constructor
  · obtain ⟨call, hcall⟩ := Option.isSome_iff_exists.1 (show (handleClient Sample.platform
      (Sample.bothModes (str "/v1")) Sample.clientOfAlpha (str "/v1/a%20b") none
      (str "id")).call.isSome = true by decide +kernel)
    obtain ⟨m, hroute, hiff⟩ := hop_path_iff hbase (by simp) hcall
    obtain rfl : ⟨Sample.route (str "/v1"), str "/v1/a b"⟩ = m :=
      Except.ok.inj (Eq.trans (by decide +kernel) hroute)
    exact ⟨call, hcall, hiff.2 ⟨by decide +kernel, by decide +kernel, by decide +kernel,
      fun _ => by decide +kernel⟩⟩
  · obtain ⟨call, hcall⟩ := Option.isSome_iff_exists.1 (show (handleClient Sample.platform
      (Sample.bothModes (str "/v1")) Sample.clientOfAlpha (str "/v1/100%25") none
      (str "id")).call.isSome = true by decide +kernel)
    obtain ⟨m, hroute, hiff⟩ := hop_path_iff hbase (by simp) hcall
    obtain rfl : ⟨Sample.route (str "/v1"), str "/v1/100%"⟩ = m :=
      Except.ok.inj (Eq.trans (by decide +kernel) hroute)
    refine ⟨call, hcall, fun hpath => ?_⟩
    exact absurd (hiff.1 hpath).noPercent (by decide +kernel)

/-! ### The request -/

/-- A header value arrives as it was sent, or without the white space around it. -/
def ArrivesTrimmed (value value' : Str) : Prop :=
  value' = value ∨ value' = trimBy isOptionalSpace value

/-- **How a call of the client connector comes to the server connector.**  The fragment of the URL
is not sent.  The HTTP client may add headers of its own, but not a purpose or an id. -/
structure ArrivesAs (call : UpstreamRequest) (a : Arrival) : Prop where
  method : a.request.method = call.method
  path : a.path = call.url.path
  query : a.query = call.url.query
  body : a.request.body = some call.body
  headers : ∀ name ∈ [dataPurpose, requestIdName],
    List.Forall₂ ArrivesTrimmed ((outbound call).headers.getAll name)
      (a.request.headers.getAll name)
  /-- The server connector settles the id for itself. -/
  requestId : ∃ fresh, a.requestId = requestId fresh a.request.headers

/-- A header with one value arrives with one. -/
theorem ArrivesAs.header {call : UpstreamRequest} {a : Arrival} (h : ArrivesAs call a)
    {name value : Str} (hname : name ∈ [dataPurpose, requestIdName])
    (hsent : (outbound call).headers.getAll name = [value]) :
    ∃ value', ArrivesTrimmed value value' ∧ a.request.headers.getAll name = [value'] := by
  have hheaders := h.headers name hname
  rw [hsent] at hheaders
  obtain ⟨value', rest, hvalue, hrest, hreceived⟩ := List.forall₂_cons_left_iff.1 hheaders
  obtain rfl := List.forall₂_nil_left_iff.1 hrest
  exact ⟨value', hvalue, hreceived⟩

theorem ArrivesAs.delivered {call : UpstreamRequest} {a : Arrival} (h : ArrivesAs call a) :
    Delivered (outbound call).headers a.request.headers := by
  refine (h.headers dataPurpose (by simp)).imp ?_
  rintro value value' (rfl | rfl)
  · rfl
  · rw [trimBy_trimBy]

/-- A valid id has no white space. -/
theorem ArrivesTrimmed.eq_of_valid {id id' : Str} (h : ArrivesTrimmed id id')
    (hvalid : validRequestId id = true) : id' = id := by
  rcases h with rfl | rfl
  · rfl
  · refine trimBy_eq_self fun b hb => ?_
    have hall := (validRequestId_iff.1 hvalid).2.2 b hb
    have hbyte : ∀ b, (!isRequestIdByte b || !isOptionalSpace b) = true :=
      Percent.of_all_bytes (by decide +kernel)
    simpa [hall] using hbyte b

/-- **What the upstream is told** about the request of a caller that both connectors have
forwarded: what is handed to the HTTP client of the server connector. -/
structure Relayed (config : ConnectorConfig) (request : Request) (query : Option Str) (id : Str)
    (m m' : RouteMatch) (authName authValue : Str) (out : UpstreamRequest) : Prop where
  method : out.method = request.method
  body : request.body = some out.body
  /-- A path that carries over is the one that both connectors have routed by, and the one that the
  upstream reads; and the query is the caller's. -/
  path : CarriesOver m.upstreamPath query → m'.upstreamPath = m.upstreamPath ∧
    Percent.decode out.url.path = m.upstreamPath ∧
    out.url.query = query.map (Percent.encode Whatwg.specialQuerySet) ∧ out.url.fragment = none
  /-- The credential of the server connector, alone under its name. -/
  credential : (outbound out).headers.getAll authName = [authValue]
  /-- The id that the client connector has settled on, if the credential does not take its place. -/
  requestId : authName ≠ requestIdName → (outbound out).headers.getAll requestIdName = [id]
  /-- The purpose that the client connector has settled on, if it is text and the credential does not
  take its place. -/
  purpose : ∀ value, resolveClientPurpose config m request.headers = .ok (some value) →
    value.all isVisibleByte = true → authName ≠ dataPurpose →
      (outbound out).headers.getAll dataPurpose = [trim value]
  /-- No credential of the caller, also where the route of the client connector lets it pass. -/
  credentials : ∀ name, name = str "authorization" ∨ name = str "cookie" → name ≠ authName →
    (outbound out).headers.getAll name = []

section

variable {N N' : Platform} {P : Pki} {D : Pdp} {config : ConnectorConfig} {state : ProxyState}
  {memory : Memory} {request : Request} {path : Str} {query : Option Str} {fresh : Str}
  {call out : UpstreamRequest} {a : Arrival} {m : RouteMatch}

/-- **Both connectors give a request the same id.** -/
theorem requestId_of_arrives (hfresh : IsUlid fresh)
    (hcall : (handleClient N config request path query (requestId fresh request.headers)).call =
      some call)
    (harrives : ArrivesAs call a) (fresh' : Str) :
    requestId fresh' a.request.headers = requestId fresh request.headers := by
  obtain ⟨m, purpose, server, -, -, -, -, -, -, hheaders⟩ :=
    clientRequest_eq_ok (clientRequest_of_call hcall)
  have hsent : (outbound call).headers.getAll requestIdName = [requestId fresh request.headers] := by
    rw [getAll_outbound, hheaders, clientValues_requestIdName]
    rfl
  obtain ⟨id', hid', hreceived⟩ := harrives.header (by simp) hsent
  have hvalid := validRequestId_requestId hfresh request.headers
  obtain rfl := hid'.eq_of_valid hvalid
  refine requestId_of_valid ?_ hvalid
  rw [MultiMap.get, hreceived]
  rfl

/-- A purpose that the client connector settles on is not blank. -/
theorem not_blank_of_resolveClientPurpose {headers : HeaderMap} {value : Str}
    (h : resolveClientPurpose config m headers = .ok (some value)) : isBlank value = false := by
  by_cases hrequired : m.route.requirePurpose = true
  · obtain ⟨value', hvalue, hblank, -⟩ := resolveClientPurpose_required hrequired h
    rwa [Option.some.inj hvalue]
  · rw [resolveClientPurpose, if_neg hrequired] at h
    exact (providedPurpose_eq_some (Except.ok.inj h)).2.2

/-- The server connector authorises the purpose that the client connector has settled on. -/
theorem authorized_of_arrives {value : Str} {purpose : Option Str} {identity : PeerIdentity}
    {m' : RouteMatch} {id : Str}
    (hroute : findClientRoute config.routes request.method path = .ok m)
    (hpurpose : resolveClientPurpose config m request.headers = .ok (some value))
    (htext : value.all isVisibleByte = true)
    (hcall : (handleClient N config request path query id).call = some call)
    (harrives : ArrivesAs call a)
    (hauthorized : (authorization P D state memory a.readings a.request identity m').1 =
      .ok purpose) : purpose = some (trim value) := by
  have hsent := getAll_dataPurpose_of_handleClient hroute hpurpose hcall
  have hread := (singleDataPurpose_of_delivered hsent
    (not_blank_of_resolveClientPurpose hpurpose) harrives.delivered).2 htext
  rw [singleDataPurpose_of_authorized hauthorized, Except.ok.injEq] at hread
  exact hread

/-- What carries over a path and a query once carries them over again. -/
theorem carriesOver_again {base base' url url' : Whatwg.Url} {u : Str}
    (hbase : Whatwg.Base N.authorityOf base) (hbase' : Whatwg.Base N'.authorityOf base')
    (hquery : ∀ q ∈ query, Whatwg.CleanQuery q)
    (hslash : ∃ t, u = slash :: t ∧ Whatwg.NoDotSegment t)
    (hurl : buildUrl N.authorityOf base u query = some url)
    (hurl' : buildUrl N'.authorityOf base' u url.query = some url') (h : CarriesOver u query) :
    Percent.decode url'.path = u ∧
      url'.query = query.map (Percent.encode Whatwg.specialQuerySet) ∧ url'.fragment = none := by
  obtain ⟨t, rfl, hdots⟩ := hslash
  have hends : question ∉ t ∧ Text.hash ∉ t := by
    have hclean := (List.forall_mem_cons.1 h.clean).2
    exact ⟨fun hq => absurd (hclean _ hq).2 (by decide),
      fun hh => absurd (hclean _ hh).2 (by decide)⟩
  have hset : Whatwg.specialQuerySet percent = false ∧
      ∀ b, isHexDigit b = true → Whatwg.specialQuerySet b = false := by
    refine ⟨by decide, fun b hb => ?_⟩
    have hall : ∀ b, (!isHexDigit b || !Whatwg.specialQuerySet b) = true :=
      Percent.of_all_bytes (by decide +kernel)
    simpa [hb] using hall b
  -- the query of the first URL is clean, and the same query for the second
  rw [buildUrl_eq hbase, Option.some.injEq] at hurl
  have hfirst : url.query = query.map (Percent.encode Whatwg.specialQuerySet) := by
    rw [← hurl]
    exact ((Whatwg.query_fragment_iff hquery).2 hends).1
  rw [hfirst] at hurl'
  have hquery' : ∀ q ∈ query.map (Percent.encode Whatwg.specialQuerySet), Whatwg.CleanQuery q := by
    intro q hq
    obtain ⟨q', -, rfl⟩ := Option.map_eq_some_iff.1 hq
    exact Whatwg.cleanQuery_encode q'
  have hcarries : CarriesOver (slash :: t) (query.map (Percent.encode Whatwg.specialQuerySet)) :=
    ⟨h.noPercent, h.noBackslash, h.clean, fun hnone => h.last (Option.map_eq_none_iff.1 hnone)⟩
  have hpath : Percent.decode url'.path = slash :: t := by
    rw [buildUrl_path hbase' hurl', Whatwg.readPath_append_eq_iff hdots hquery']
    exact (carriesOver_iff.1 hcarries).2
  rw [buildUrl_eq hbase', Option.some.injEq] at hurl'
  obtain ⟨hsecond, hfragment⟩ : url'.query = (query.map (Percent.encode Whatwg.specialQuerySet)).map
      (Percent.encode Whatwg.specialQuerySet) ∧ url'.fragment = none := by
    rw [← hurl']
    exact (Whatwg.query_fragment_iff hquery').2 hends
  refine ⟨hpath, ?_, hfragment⟩
  rw [hsecond, Option.map_map]
  congr 1
  funext q
  exact Percent.encode_encode hset.1 hset.2 q

/-- **What a request that both connectors forward is when it gets to the upstream.**  The server
connector was started from an accepted configuration. -/
theorem relayed_of_forwarded {H₀ H₁ : Host} {config' : ConnectorConfig} {requireEnv : Bool}
    (hfilter : Stripping N') (hfresh : IsUlid fresh)
    (hbase : ∀ server ∈ config.server, Whatwg.Base N.authorityOf server.url)
    (haccepted : validateConfig P H₀ config' .server requireEnv = .ok ())
    (hstart : ProxyState.server P H₁ config' = .ok state)
    (hbase' : ∀ upstream ∈ config'.upstream, Whatwg.Base N'.authorityOf upstream.baseUrl)
    (hquery : ∀ q ∈ query, Whatwg.CleanQuery q)
    (hcall : (handleClient N config request path query (requestId fresh request.headers)).call =
      some call)
    (harrives : ArrivesAs call a) (hout : (serve N' P D state memory a).1.call = some out) :
    ∃ m m' identity upstream authName authValue,
      findClientRoute config.routes request.method path = .ok m ∧
      serverAdmission P a.host state a.request a.path = .ok (identity, m') ∧
      config'.upstream = some upstream ∧
      headerNameFromBytes upstream.authHeaderName = some authName ∧
      upstreamAuthHeader a.host config' m' = .ok authValue ∧
      Relayed config request query (requestId fresh request.headers) m m' authName authValue
        out := by
  obtain ⟨m, purpose, server, hroute, -, hserver, hurl, hmethod, ⟨body, hbody, -, hsame⟩, -⟩ :=
    clientRequest_eq_ok (clientRequest_of_call hcall)
  obtain ⟨identity, m', purpose', hadmission, hauthorized, -, hrequest⟩ :=
    (serve_served N' P D state memory a).gates hout
  rw [serverRequest_platform] at hrequest
  obtain ⟨⟨body', hbody', -, hsame'⟩, upstream, hupstream, authValue, authName, hauthValue,
    hauthName, hheaders⟩ := serverRequest_eq_ok hrequest
  obtain ⟨hmethod', upstream', hupstream', hurl'⟩ := serverRequest_target hrequest
  obtain rfl : upstream = upstream' := Option.some.inj (hupstream.symm.trans hupstream')
  rw [ProxyState.server_config hstart] at hupstream hauthValue
  refine ⟨m, m', identity, upstream, authName, authValue, hroute, hadmission, hupstream, hauthName,
    hauthValue, ?_⟩
  have hid : a.requestId = requestId fresh request.headers := by
    obtain ⟨fresh', hfresh'⟩ := harrives.requestId
    rw [hfresh', requestId_of_arrives hfresh hcall harrives]
  refine ⟨?_, ?_, fun hcarries => ?_, ?_, fun hname => ?_, ?_, fun name hname hother => ?_⟩
  · rw [hmethod', harrives.method, hmethod]
  · have hreceived : some call.body = some body' := harrives.body.symm.trans hbody'
    rw [hsame', ← Option.some.inj hreceived, hsame]
    exact hbody
  · -- the server routes by the path of the URL, which is that of the client
    have hclient : routeFor .client config.routes request.method path [] = .ok m := hroute
    have hpath := (hop_path_of_url (hbase server hserver) hquery hroute hurl).2 hcarries
    obtain ⟨-, -, hfound⟩ := serverAdmission_eq_ok hadmission
    have hpath' := (findServerRoute_eq_ok hfound).1
    rw [harrives.path, hpath, Except.ok.injEq] at hpath'
    rw [← hpath', harrives.query] at hurl'
    exact ⟨hpath'.symm, carriesOver_again (hbase server hserver) (hbase' upstream hupstream) hquery
      (routeFor_slash hclient) hurl hurl' hcarries⟩
  · -- what is inserted after the credential has another name
    have hne := authHeaderName_ne haccepted upstream hupstream authName hauthName
    rw [getAll_outbound, hheaders, sentValues, if_neg fun h => hne h.1, if_pos rfl]
    rfl
  · rw [getAll_outbound, hheaders, sentValues_requestIdName, if_neg hname, hid]
    rfl
  · intro value hvalue htext hname
    rw [getAll_outbound, hheaders, sentValues_dataPurpose, if_neg hname,
      authorized_of_arrives hroute hvalue htext hcall harrives hauthorized]
    rfl
  · rw [getAll_outbound, hheaders, sentValues_of_other hfilter hname hother]
    rfl

end

section

open Sample

/-- A call, as it comes to the sample server. -/
def Sample.arrivalOf (call : UpstreamRequest) : Arrival :=
  { host := host
    readings := ⟨0, none, none⟩
    request :=
      { method := call.method
        headers := (outbound call).headers
        chain := some alphaChain
        body := some call.body }
    path := call.url.path
    query := call.url.query
    requestId := requestId freshId (outbound call).headers
    reply := platform.send }

theorem Sample.arrivesAs_arrivalOf (call : UpstreamRequest) : ArrivesAs call (arrivalOf call) where
  method := rfl
  path := rfl
  query := rfl
  body := rfl
  headers _ _ := List.forall₂_same.2 fun _ _ => Or.inl rfl
  requestId := ⟨freshId, rfl⟩

/-- A request of a local caller with a credential of its own, all the way to the upstream. -/
theorem relayed_of_forwarded_forger : ∃ call out m m',
    (handleClient platform (bothModes (str "/v1")) forger (str "/v1/a%20b") (some (str "page=2"))
      (requestId freshId forger.headers)).call = some call ∧
    (serve platform uriPki pdp serverState Memory.start (arrivalOf call)).1.call = some out ∧
    Relayed (bothModes (str "/v1")) forger (some (str "page=2")) (requestId freshId forger.headers)
      m m' (str "authorization") (str "Bearer secret") out := by
  have hboth : ((handleClient platform (bothModes (str "/v1")) forger (str "/v1/a%20b")
      (some (str "page=2")) (requestId freshId forger.headers)).call.bind fun call =>
        (serve platform uriPki pdp serverState Memory.start (arrivalOf call)).1.call).isSome =
          true := by
    decide +kernel
  obtain ⟨out, hboth⟩ := Option.isSome_iff_exists.1 hboth
  obtain ⟨call, hcall, hout⟩ := Option.bind_eq_some_iff.1 hboth
  have hbase : ∀ server ∈ (bothModes (str "/v1")).server,
      Whatwg.Base platform.authorityOf server.url := by
    rintro server ⟨⟩
    exact base_serverUrl
  have hbase' : ∀ upstream ∈ (bothModes (str "/v1")).upstream,
      Whatwg.Base platform.authorityOf upstream.baseUrl := by
    rintro upstream ⟨⟩
    exact base_upstreamUrl
  have haccepted : validateConfig uriPki host (bothModes (str "/v1")) .server true = .ok () := rfl
  have hstart : ProxyState.server uriPki host (bothModes (str "/v1")) = .ok serverState := rfl
  obtain ⟨m, ⟨route', u⟩, identity, upstream, authName, authValue, -, hadmission, hupstream, hname,
    hvalue, hrelayed⟩ := relayed_of_forwarded stripping_platform isUlid_freshId hbase haccepted
      hstart hbase' (by decide +kernel) hcall (arrivesAs_arrivalOf call) hout
  -- the sample has one route, which takes the default variable
  obtain rfl : route' = route (str "/v1") := route_of_admission hadmission
  obtain rfl := Option.some.inj hupstream
  obtain rfl : str "authorization" = authName :=
    Option.some.inj (Eq.trans (by decide +kernel) hname)
  obtain rfl : str "Bearer secret" = authValue := Except.ok.inj (Eq.trans rfl hvalue)
  exact ⟨call, out, m, _, hcall, hout, hrelayed⟩

end

/-! ### The answer -/

/-- How an answer of the server connector comes back to the client connector, if documents are
rendered by `render`. -/
def replyOf (render : ProblemDocument → HeaderMap × Str) : Answer → Reply
  | .reply response => ⟨response.status, response.headers, some response.body⟩
  | .problem document => ⟨document.status, (render document).1, some (render document).2⟩

/-- The body of an answer. -/
def Answer.body (render : ProblemDocument → HeaderMap × Str) : Answer → Str
  | .reply response => response.body
  | .problem document => (render document).2

theorem replyOf_status (render : ProblemDocument → HeaderMap × Str) (answer : Answer) :
    (replyOf render answer).status = answer.status := by
  cases answer <;> rfl

theorem replyOf_body (render : ProblemDocument → HeaderMap × Str) (answer : Answer) :
    (replyOf render answer).body = some (answer.body render) := by
  cases answer <;> rfl

theorem statusFromU16_eq_some {status out : ℕ} :
    statusFromU16 status = some out ↔ (100 ≤ status ∧ status < 1000) ∧ status = out := by
  unfold statusFromU16
  split_ifs with h <;> simp [h]

theorem methodFromBytes_eq_self {method : Str} (h : methodFromBytes method ≠ none) :
    methodFromBytes method = some method := by
  unfold methodFromBytes at h ⊢
  split_ifs at h ⊢ with hbytes
  · exact absurd rfl h
  · rfl

/-- Every problem has a status that can be sent. -/
theorem ConnectorProblem.status_bounds (problem : ConnectorProblem) :
    100 ≤ problem.status ∧ problem.status < 1000 := by
  cases problem <;> simp [ConnectorProblem.status]

section

variable {N N' : Platform} {P : Pki} {D : Pdp} {config : ConnectorConfig} {state : ProxyState}
  {memory : Memory} {request : Request} {path : Str} {query : Option Str} {fresh fresh' : Str}
  {call : UpstreamRequest} {a : Arrival} {ended : Option (Except ConnectorProblem Response)}

/-- Every answer of the server connector has a status that can be sent. -/
theorem status_of_ended
    (hended : ended = none ∨ ended = some (serve N' P D state memory a).1.result) :
    100 ≤ (proxyHandler fresh' a.request a.path a.query ended).1.status ∧
      (proxyHandler fresh' a.request a.path a.query ended).1.status < 1000 := by
  rcases hended with rfl | rfl
  · exact ConnectorProblem.status_bounds .requestTimeout
  · cases hresult : (serve N' P D state memory a).1.result with
    | error problem => exact problem.status_bounds
    | ok response =>
        have hserved := serve_served N' P D state memory a
        generalize serve N' P D state memory a = out at hserved hresult
        cases hserved with
        | notAdmitted => cases hresult
        | notAuthorized => cases hresult
        | limited => cases hresult
        | notSent => cases hresult
        | forwarded =>
            simp only [sendUpstream, chain_eq_ok, okOr_eq_ok] at hresult
            obtain ⟨-, -, reply, -, status, hstatus, body, -, h⟩ := hresult
            obtain rfl := Except.ok.inj h
            obtain ⟨hbounds, rfl⟩ := statusFromU16_eq_some.1 hstatus
            exact hbounds

/-- A reply that is within the bound is the answer. -/
theorem sendUpstream_of_reply {reply : Reply} {body : Str} {maxBytes : ℕ}
    (hmethod : methodFromBytes call.method ≠ none) (hsend : N.send (outbound call) = some reply)
    (hstatus : 100 ≤ reply.status ∧ reply.status < 1000)
    (hbody : N.readBounded reply maxBytes = some body) :
    sendUpstream N call maxBytes = .ok
      ⟨reply.status, replyHeaders (N.filterProxyResponseHeaders reply.headers), body⟩ := by
  have hcall : { outbound call with method := call.method } = outbound call := rfl
  simp only [sendUpstream, methodFromBytes_eq_self hmethod, okOr, ok_bind, hcall, hsend,
    statusFromU16_eq_some.2 ⟨hstatus, rfl⟩, hbody]
  rfl

/-- A reply whose body is over the bound is as good as none. -/
theorem sendUpstream_of_long {reply : Reply} {maxBytes : ℕ}
    (hmethod : methodFromBytes call.method ≠ none) (hsend : N.send (outbound call) = some reply)
    (hstatus : 100 ≤ reply.status ∧ reply.status < 1000)
    (hbody : N.readBounded reply maxBytes = none) :
    sendUpstream N call maxBytes = .error .upstreamUnavailable := by
  have hcall : { outbound call with method := call.method } = outbound call := rfl
  simp only [sendUpstream, methodFromBytes_eq_self hmethod, okOr, ok_bind, hcall, hsend,
    statusFromU16_eq_some.2 ⟨hstatus, rfl⟩, hbody]
  rfl

/-- A body is read up to a bound, and not at all if it is longer. -/
def ReadsWithin (N : Platform) : Prop :=
  ∀ reply body max, reply.body = some body →
    N.readBounded reply max = if body.length ≤ max then some body else none

/-- **The caller gets the answer of the server connector**, be it a reply or a problem, if the client
connector does not run out of time itself: its status and its body, logged as forwarded with the same
status; that the server connector denied it is in its own log only.  If the body is over the bound of
the client connector, the caller is told that the upstream is not available instead.  Both connectors
log the request under one id and method. -/
theorem relay_returns (hfresh : IsUlid fresh) {render : ProblemDocument → HeaderMap × Str}
    {answer answer' : Answer} {log log' : LogRecord} (hread : ReadsWithin N)
    (hmethod : methodFromBytes request.method ≠ none)
    (hcall : (handleClient N config request path query (requestId fresh request.headers)).call =
      some call)
    (harrives : ArrivesAs call a)
    (hended : ended = none ∨ ended = some (serve N' P D state memory a).1.result)
    (hserver : proxyHandler fresh' a.request a.path a.query ended = (answer, log))
    (hsend : N.send (outbound call) = some (replyOf render answer))
    (hclient : proxyHandler fresh request path query
      (some (handleClient N config request path query (requestId fresh request.headers)).result) =
        (answer', log')) :
    log'.requestId = log.requestId ∧ log'.method = log.method ∧
      ((answer.body render).length ≤ maxBodyBytes config →
        (∃ headers, answer' = .reply ⟨answer.status, headers, answer.body render⟩ ∧
          ∀ name, headers.getAll name =
            (N.filterProxyResponseHeaders (replyOf render answer).headers).getAll name) ∧
        log'.outcome = str "forwarded" ∧ log'.status = log.status) ∧
      (maxBodyBytes config < (answer.body render).length →
        answer' = .problem ConnectorProblem.upstreamUnavailable.response ∧
        log'.outcome = str "failed" ∧
        log'.problemCode = ConnectorProblem.upstreamUnavailable.code) := by
  have hstatus : 100 ≤ answer.status ∧ answer.status < 1000 := by
    have hbounds : 100 ≤ (proxyHandler fresh' a.request a.path a.query ended).1.status ∧ _ :=
      status_of_ended hended
    rwa [hserver] at hbounds
  rw [← replyOf_status render] at hstatus
  have hbody := hread _ _ (maxBodyBytes config) (replyOf_body render answer)
  obtain rfl : answer = _ := (congrArg Prod.fst hserver).symm
  obtain rfl : log = _ := (congrArg Prod.snd hserver).symm
  obtain rfl : answer' = _ := (congrArg Prod.fst hclient).symm
  obtain rfl : log' = _ := (congrArg Prod.snd hclient).symm
  have hrequest := clientRequest_of_call hcall
  obtain ⟨-, -, -, -, -, -, -, hsame, -⟩ := clientRequest_eq_ok hrequest
  have hhandled :
      (handleClient N config request path query (requestId fresh request.headers)).result =
        sendUpstream N call (maxBodyBytes config) := by
    rw [handleClient, hrequest]
  rw [hhandled]
  refine ⟨?_, ?_, fun hfits => ?_, fun hlong => ?_⟩
  · exact (requestId_of_arrives hfresh hcall harrives fresh').symm
  · exact (harrives.method.trans hsame).symm
  · rw [if_pos hfits] at hbody
    rw [sendUpstream_of_reply (hsame ▸ hmethod) hsend hstatus hbody,
      replyOf_status]
    exact ⟨⟨_, rfl, getAll_replyHeaders _⟩, rfl, rfl⟩
  · rw [if_neg (not_le.2 hlong)] at hbody
    rw [sendUpstream_of_long (hsame ▸ hmethod) hsend hstatus hbody]
    exact ⟨rfl, rfl, rfl⟩

end

section

open Sample

/-- A rendering of problems. -/
def Sample.render (document : ProblemDocument) : HeaderMap × Str := (∅, document.code)

/-- A client connector whose server connector denies the route of every request. -/
def Sample.denied : Platform :=
  { platform with
    send := fun _ => some (replyOf render (.problem ConnectorProblem.routeDenied.response))
    readBounded := fun reply max => reply.body.filter fun body => body.length ≤ max }

theorem Sample.readsWithin_denied : ReadsWithin denied := by
  intro reply body max hbody
  simp only [denied, hbody, Option.filter_some, decide_eq_true_eq]

/-- A client connector that asks for other paths than the sample server has routes for, with a bound
on what it reads. -/
def Sample.astray (max : ℕ) : ConnectorConfig :=
  { bothModes (str "/v2") with
    limits := { (bothModes (str "/v2")).limits with maxBodyBytes := max } }

/-- The server connector denies the route of the request. -/
theorem Sample.astray_denied (max : ℕ) : ∃ call,
    (handleClient denied (astray max) clientOfAlpha (str "/v2/items") none
        (requestId freshId clientOfAlpha.headers)).call = some call ∧
      (serve platform uriPki pdp serverState Memory.start (arrivalOf call)).1.result =
        .error .routeDenied := ⟨_, rfl, rfl⟩

/-- The caller is told about the denial, which only the server connector logs as one.  If the client
connector reads one byte only, the caller is told something else. -/
theorem relay_returns_denial :
    (∃ call log headers log',
      (serve platform uriPki pdp serverState Memory.start (arrivalOf call)).1.result =
          .error .routeDenied ∧
        proxyHandler freshId (arrivalOf call).request (arrivalOf call).path (arrivalOf call).query
            (some (.error .routeDenied)) =
          (.problem ConnectorProblem.routeDenied.response, log) ∧ log.outcome = str "denied" ∧
        proxyHandler freshId clientOfAlpha (str "/v2/items") none
            (some (handleClient denied (astray 100) clientOfAlpha (str "/v2/items") none
              (requestId freshId clientOfAlpha.headers)).result) =
          (.reply ⟨403, headers, str "connector.route_denied"⟩, log') ∧
        log'.outcome = str "forwarded" ∧ log'.status = log.status ∧
        log'.requestId = log.requestId) ∧
      ∃ log', proxyHandler freshId clientOfAlpha (str "/v2/items") none
          (some (handleClient denied (astray 1) clientOfAlpha (str "/v2/items") none
            (requestId freshId clientOfAlpha.headers)).result) =
        (.problem ConnectorProblem.upstreamUnavailable.response, log') := by
  have hmethod : methodFromBytes clientOfAlpha.method ≠ none := by decide +kernel
  have hsend : ∀ call, denied.send (outbound call) =
      some (replyOf render (.problem ConnectorProblem.routeDenied.response)) := fun _ => rfl
  constructor
  · obtain ⟨call, hcall, hdenied⟩ := astray_denied 100
    have hserver : proxyHandler freshId (arrivalOf call).request (arrivalOf call).path
        (arrivalOf call).query (some (.error .routeDenied)) =
          (.problem ConnectorProblem.routeDenied.response, _) := rfl
    obtain ⟨hid, -, hfits, -⟩ := relay_returns isUlid_freshId readsWithin_denied
      hmethod hcall (arrivesAs_arrivalOf call) (Or.inr (congrArg some hdenied.symm)) hserver
      (hsend call) rfl
    obtain ⟨⟨headers, hanswer, -⟩, houtcome, hstatus⟩ := hfits (by decide +kernel)
    exact ⟨call, _, headers, _, hdenied, rfl, rfl, Prod.ext hanswer rfl, houtcome, hstatus, hid⟩
  · obtain ⟨call, hcall, hdenied⟩ := astray_denied 1
    have hserver : proxyHandler freshId (arrivalOf call).request (arrivalOf call).path
        (arrivalOf call).query (some (.error .routeDenied)) =
          (.problem ConnectorProblem.routeDenied.response, _) := rfl
    obtain ⟨-, -, -, hlong⟩ := relay_returns isUlid_freshId readsWithin_denied
      hmethod hcall (arrivesAs_arrivalOf call) (Or.inr (congrArg some hdenied.symm)) hserver
      (hsend call) rfl
    exact ⟨_, Prod.ext (hlong (by decide +kernel)).1 rfl⟩

end

end TrustConnector
