/-
**What the client connector sends.**

The client connector filters the headers of a caller and inserts its own: the id of the request, its
version, its own id if it has one, and the purpose.  Each text that it inserts has to be a legal
header value.  The id of the request and a purpose that the caller gave have been read as text
already; the texts of the configuration have not been looked at before.

Main definitions:

* `IsUlid`, `StripsPrivate` — a generated id, and a filter that drops the private headers;
* `ClientLeg` — **the headers of the request that is sent**;
* `Sendable` — the texts of the configuration that are sent on a route are legal header values.

Main results:

* `client_leg_headers` — whatever the caller sent, the request has exactly these headers;
* `clientRequest_configInvalid_iff` — where a request ends in an invalid configuration;
* `accepted_client_invalid_iff` — **for which accepted configurations it does not**.
-/

import TrustConnector.PurposeHop

set_option relaxedAutoImplicit false
set_option autoImplicit false

namespace TrustConnector

open Text Fallible Http

/-! ### The id of a request -/

/-- A generated id: 26 ASCII letters and digits. -/
def IsUlid (id : Str) : Prop := id.length = 26 ∧ ∀ b ∈ id, (isDigit b || isAlpha b) = true

/-- The bytes of the id of a request. -/
def isRequestIdByte (b : UInt8) : Bool := isDigit b || isAlpha b || b ∈ str "-_.:"

theorem validRequestId_iff {id : Str} :
    validRequestId id = true ↔
      0 < id.length ∧ id.length ≤ 128 ∧ ∀ b ∈ id, isRequestIdByte b = true := by
  have hempty : id.isEmpty = false ↔ 0 < id.length := by
    rw [List.isEmpty_eq_false_iff, List.length_pos_iff]
  simp only [validRequestId, isRequestIdByte, Bool.and_eq_true, Bool.not_eq_true', hempty,
    decide_eq_true_eq, List.all_eq_true, and_assoc]

/-- A generated id is valid. -/
theorem IsUlid.valid {id : Str} (h : IsUlid id) : validRequestId id = true := by
  obtain ⟨hlength, hbytes⟩ := h
  refine validRequestId_iff.2 ⟨by omega, by omega, fun b hb => ?_⟩
  rw [isRequestIdByte, hbytes b hb, Bool.true_or]

theorem isVisibleByte_of_isRequestIdByte {b : UInt8} (h : isRequestIdByte b = true) :
    isVisibleByte b = true := by
  have hall := Percent.of_all_bytes (p := fun b => !isRequestIdByte b || isVisibleByte b)
    (by decide +kernel) b
  simpa [h] using hall

/-- A valid id is text. -/
theorem text_of_valid {id : Str} (h : validRequestId id = true) : id.all isVisibleByte = true := by
  obtain ⟨-, -, hbytes⟩ := validRequestId_iff.1 h
  exact List.all_eq_true.2 fun b hb => isVisibleByte_of_isRequestIdByte (hbytes b hb)

section

variable {fresh : Str} {headers : HeaderMap}

theorem validRequestId_requestId (hfresh : IsUlid fresh) (headers : HeaderMap) :
    validRequestId (requestId fresh headers) = true := by
  rw [requestId]
  cases hid : ((headers.get requestIdName).bind toStr).filter validRequestId with
  | none => exact hfresh.valid
  | some id => exact (Option.filter_eq_some_iff.1 hid).2

/-- A valid id of the caller is kept. -/
theorem requestId_of_valid {first : Str} (hfirst : headers.get requestIdName = some first)
    (hvalid : validRequestId first = true) : requestId fresh headers = first := by
  rw [requestId, hfirst, Option.bind_some, toStr, if_pos (text_of_valid hvalid), Option.filter_some,
    if_pos hvalid]
  rfl

end

/-! ### The headers that are sent -/

/-- A filter that drops every header with the private prefix of its policy. -/
def StripsPrivate (N : Platform) : Prop :=
  ∀ headers policy pre name, policy.privatePrefix = some pre → pre <+: name →
    (N.filterProxyRequestHeaders headers policy).getAll name = []

/-- **The headers of the request that the client connector sends**, whatever the caller sent. -/
structure ClientLeg (config : ConnectorConfig) (m : RouteMatch) (received sent : HeaderMap) :
    Prop where
  /-- One id, of 1 to 128 bytes, and the caller's if that is valid. -/
  requestId : ∃ id, sent.getAll requestIdName = [id] ∧
    (0 < id.length ∧ id.length ≤ 128 ∧ ∀ b ∈ id, isRequestIdByte b = true) ∧
    ∀ first, received.get requestIdName = some first → validRequestId first = true → id = first
  version : sent.getAll connectorVersionName = [packageVersion]
  /-- The id of the connector, exactly if it is configured. -/
  connectorId : sent.getAll connectorIdName = config.connectorId.toList
  privateNames : ∀ name, privatePrefix <+: name → name ≠ connectorVersionName →
    name ≠ connectorIdName → sent.getAll name = []
  /-- Where a purpose is required there is one, from where the route says. -/
  purpose : m.route.requirePurpose = true → ∃ value, sent.getAll dataPurpose = [value] ∧
    (m.route.purposeSource = some .staticRouteDefault → config.defaults.dataPurpose = some value) ∧
    (m.route.purposeSource = some .clientProvided → received.get dataPurpose = some value)

section

variable {N : Platform} {config : ConnectorConfig} {request : Request} {m : RouteMatch}
  {purpose : Option Str} {id : Str}

theorem clientValues_requestIdName :
    clientValues N config request m purpose id requestIdName = [id] := by
  have hconnector := (ne_of_private private_connectorIdName).2.symm
  have hversion := (ne_of_private private_connectorVersionName).2.symm
  rw [clientValues, if_neg fun h => requestIdName_ne_dataPurpose h.1,
    if_neg fun h => hconnector h.1, if_neg hversion, if_pos rfl]

theorem clientValues_connectorVersionName :
    clientValues N config request m purpose id connectorVersionName = [packageVersion] := by
  have hpurpose := (ne_of_private private_connectorVersionName).1
  have hconnector : connectorVersionName ≠ connectorIdName := by decide +kernel
  rw [clientValues, if_neg fun h => hpurpose h.1, if_neg fun h => hconnector h.1, if_pos rfl]

/-- Under a private name, the id of the connector is the only thing that may be there beside its
version. -/
theorem clientValues_of_private (hfilter : StripsPrivate N) {name : Str}
    (hname : privatePrefix <+: name) (hversion : name ≠ connectorVersionName) :
    clientValues N config request m purpose id name =
      if name = connectorIdName then config.connectorId.toList else [] := by
  obtain ⟨hpurpose, hid⟩ := ne_of_private hname
  have hfiltered : (filteredHeaders N request.headers m).getAll name = [] :=
    hfilter _ _ privatePrefix name rfl hname
  rw [clientValues, if_neg fun h => hpurpose h.1, if_neg hversion, if_neg hid, hfiltered]
  cases config.connectorId <;> simp

end

/-- **Whatever the caller sent, the request has exactly these headers.** -/
theorem client_leg_headers {N : Platform} {config : ConnectorConfig} {request : Request} {path : Str}
    {query : Option Str} {fresh : Str} {call : UpstreamRequest} (hfilter : StripsPrivate N)
    (hfresh : IsUlid fresh)
    (hcall : (handleClient N config request path query (requestId fresh request.headers)).call =
      some call) :
    ∃ m, findClientRoute config.routes request.method path = .ok m ∧
      ClientLeg config m request.headers call.headers := by
  obtain ⟨m, purpose, -, hroute, hpurpose, -, -, -, -, hheaders⟩ :=
    clientRequest_eq_ok (clientRequest_of_call hcall)
  refine ⟨m, hroute, ?_, ?_, ?_, ?_, ?_⟩
  · refine ⟨requestId fresh request.headers, ?_, ?_, ?_⟩
    · rw [hheaders, clientValues_requestIdName]
    · exact validRequestId_iff.1 (validRequestId_requestId hfresh request.headers)
    · intro first hfirst hvalid
      exact requestId_of_valid hfirst hvalid
  · rw [hheaders, clientValues_connectorVersionName]
  · rw [hheaders, clientValues_of_private hfilter private_connectorIdName (by decide +kernel),
      if_pos rfl]
  · intro name hname hversion hconnector
    rw [hheaders, clientValues_of_private hfilter hname hversion, if_neg hconnector]
  · intro hrequired
    obtain ⟨value, rfl, -, hsource⟩ := resolveClientPurpose_required hrequired hpurpose
    refine ⟨value, ?_, ?_, ?_⟩
    · rw [hheaders, clientValues_dataPurpose]
    · intro hstatic
      rcases hsource with ⟨-, hdefault⟩ | ⟨hprovided, -⟩
      · exact hdefault
      · rw [hstatic] at hprovided
        cases hprovided
    · intro hprovided
      rcases hsource with ⟨hstatic, -⟩ | ⟨-, hsent, -⟩
      · rw [hprovided] at hstatic
        cases hstatic
      · exact hsent

section

open Sample

theorem Sample.stripsPrivate_platform : StripsPrivate platform := by
  intro headers policy pre name hpolicy hname
  show (filterRequest headers policy).getAll name = []
  rw [getAll_filterRequest, if_pos]
  simp [hpolicy, hname]

/-- A caller that sends an id which is not valid, a purpose, and a private header. -/
def Sample.meddler : Request :=
  { clientOfAlpha with
    headers := (((∅ : HeaderMap).insert requestIdName (str "not valid")).insert dataPurpose
      (str "research")).insert connectorIdName (str "another") }

/-- A generated id. -/
def Sample.freshId : Str := str "01ARZ3NDEKTSV4RRFFQ69G5FAV"

theorem Sample.isUlid_freshId : IsUlid freshId := ⟨by decide, by decide +kernel⟩

/-- Nothing that this caller sends is kept. -/
theorem client_leg_headers_meddler :
    ∃ call m, (handleClient platform (defaultPurpose (str "care")) meddler (str "/v1/items") none
        (requestId freshId meddler.headers)).call = some call ∧
      ClientLeg (defaultPurpose (str "care")) m meddler.headers call.headers := by
  have hforwarded : (handleClient platform (defaultPurpose (str "care")) meddler (str "/v1/items")
      none (requestId freshId meddler.headers)).call.isSome = true := by decide +kernel
  obtain ⟨call, hcall⟩ := Option.isSome_iff_exists.1 hforwarded
  obtain ⟨m, -, hleg⟩ := client_leg_headers stripsPrivate_platform isUlid_freshId hcall
  exact ⟨call, m, hcall, hleg⟩

end

/-! ### Invalid configurations at run time -/

theorem headerValue_eq_error {value : Str} {problem : ConnectorProblem} :
    headerValue value = .error problem ↔
      value.all isValueByte = false ∧ ConnectorProblem.configInvalid = problem := by
  rw [headerValue, okOr_eq_error, headerValueFromStr]
  cases value.all isValueByte <;> simp

/-- An insertion fails exactly if the value is not a legal one. -/
theorem insertOptional_eq_error {headers : HeaderMap} {name : Str} {value : Option Str}
    {problem : ConnectorProblem} :
    insertOptional headers name value = .error problem ↔
      (∃ v ∈ value, v.all isValueByte = false) ∧ ConnectorProblem.configInvalid = problem := by
  cases value with
  | none => simp [insertOptional]
  | some v =>
      rw [insertOptional, map_eq_error, headerValue_eq_error]
      simp

theorem legal_of_insertOptional {headers out : HeaderMap} {name : Str} {value : Option Str}
    (h : insertOptional headers name value = .ok out) :
    ¬ ∃ v ∈ value, v.all isValueByte = false := by
  intro hillegal
  rw [insertOptional_eq_error.2 ⟨hillegal, rfl⟩] at h
  cases h

theorem resolveClientPurpose_eq_error {config : ConnectorConfig} {m : RouteMatch}
    {headers : HeaderMap} {problem : ConnectorProblem}
    (h : resolveClientPurpose config m headers = .error problem) : problem = .purposeRequired := by
  rw [resolveClientPurpose] at h
  split_ifs at h
  split at h
  · exact ((okOr_eq_error _ _ _).1 h).2.symm
  · exact ((okOr_eq_error _ _ _).1 h).2.symm
  · exact (Except.error.inj h).symm

/-- **The texts of the configuration that are sent on a route are legal header values.** -/
def Sendable (config : ConnectorConfig) (route : RouteConfig) : Prop :=
  (∀ id ∈ config.connectorId, id.all isValueByte = true) ∧
    (route.requirePurpose = true → route.purposeSource = some .staticRouteDefault →
      ∀ purpose ∈ config.defaults.dataPurpose, purpose.all isValueByte = true)

section

variable {N : Platform} {config : ConnectorConfig} {request : Request} {path : Str}
  {query : Option Str} {id : Str} {m : RouteMatch} {purpose : Option Str}

/-- A purpose is legal, unless it comes from the configuration and is not. -/
theorem legal_purpose_iff (h : resolveClientPurpose config m request.headers = .ok purpose) :
    (¬ ∃ v ∈ purpose, v.all isValueByte = false) ↔
      (m.route.requirePurpose = true → m.route.purposeSource = some .staticRouteDefault →
        ∀ p ∈ config.defaults.dataPurpose, p.all isValueByte = true) := by
  cases hrequired : m.route.requirePurpose with
  | false =>
      rw [resolveClientPurpose, hrequired] at h
      obtain rfl : providedPurpose request.headers = purpose := Except.ok.inj h
      simp only [Bool.false_eq_true, false_imp_iff, iff_true]
      rintro ⟨v, hv, hillegal⟩
      rw [all_isValueByte_of_text (providedPurpose_eq_some hv).2.1] at hillegal
      cases hillegal
  | true =>
      obtain ⟨value, rfl, -, hsource⟩ := resolveClientPurpose_required hrequired h
      rcases hsource with ⟨hstatic, hdefault⟩ | ⟨hprovided, -, htext⟩
      · simp [hstatic, hdefault]
      · simpa [hprovided] using all_isValueByte_of_text htext

/-- Once the route, the purpose, the body and the URL are there, the insertions can fail. -/
theorem clientRequest_insertions {body : Str} {server : ClientServerConfig} {url : Whatwg.Url}
    (hroute : findClientRoute config.routes request.method path = .ok m)
    (hpurpose : resolveClientPurpose config m request.headers = .ok purpose)
    (hbody : readLimitedBody request.body (maxBodyBytes config) = .ok body)
    (hserver : config.server = some server)
    (hurl : buildUrl N.authorityOf server.url m.upstreamPath query = some url)
    (hid : id.all isValueByte = true) :
    clientRequest N config request path query id = .error .configInvalid ↔
      (∃ v ∈ config.connectorId, v.all isValueByte = false) ∨
        ∃ v ∈ purpose, v.all isValueByte = false := by
  have hvalue : headerValue id = .ok id := by
    rw [headerValue, okOr_eq_ok, headerValueFromStr, if_pos hid]
  simp only [clientRequest, hroute, hpurpose, hbody, hserver, hurl, hvalue, okOr, Except.mapError,
    ok_bind]
  generalize ((filteredHeaders N request.headers m).insert requestIdName id).insert
    connectorVersionName packageVersion = headers
  cases hconnector : insertOptional headers connectorIdName config.connectorId with
  | error problem =>
      obtain ⟨hillegal, rfl⟩ := insertOptional_eq_error.1 hconnector
      exact iff_of_true rfl (Or.inl hillegal)
  | ok headers' =>
      rw [ok_bind]
      cases hinserted : insertOptional headers' dataPurpose purpose with
      | error problem =>
          obtain ⟨hillegal, rfl⟩ := insertOptional_eq_error.1 hinserted
          exact iff_of_true rfl (Or.inr hillegal)
      | ok out =>
          refine iff_of_false (by rintro ⟨⟩) ?_
          rintro (hillegal | hillegal)
          · exact legal_of_insertOptional hconnector hillegal
          · exact legal_of_insertOptional hinserted hillegal

/-- **Where a request ends in an invalid configuration**, if there is a server and every routed path
has a URL: at one of the two insertions, and not before. -/
theorem clientRequest_configInvalid_iff {server : ClientServerConfig}
    (hserver : config.server = some server)
    (hurl : ∀ m, findClientRoute config.routes request.method path = .ok m →
      ∃ url, buildUrl N.authorityOf server.url m.upstreamPath query = some url)
    (hid : id.all isValueByte = true) :
    clientRequest N config request path query id = .error .configInvalid ↔
      ∃ m purpose body, findClientRoute config.routes request.method path = .ok m ∧
        resolveClientPurpose config m request.headers = .ok purpose ∧
        readLimitedBody request.body (maxBodyBytes config) = .ok body ∧
        ((∃ v ∈ config.connectorId, v.all isValueByte = false) ∨
          ∃ v ∈ purpose, v.all isValueByte = false) := by
  constructor
  · intro h
    cases hroute : findClientRoute config.routes request.method path with
    | error e => simp [clientRequest, hroute, chain_eq_error, Except.mapError] at h
    | ok m =>
        cases hpurpose : resolveClientPurpose config m request.headers with
        | error problem =>
            obtain rfl := resolveClientPurpose_eq_error hpurpose
            simp [clientRequest, hroute, hpurpose, chain_eq_error, Except.mapError] at h
        | ok purpose =>
            cases hbody : readLimitedBody request.body (maxBodyBytes config) with
            | error problem =>
                obtain ⟨-, rfl⟩ := (okOr_eq_error _ _ _).1 hbody
                simp [clientRequest, hroute, hpurpose, hbody, chain_eq_error, Except.mapError] at h
            | ok body =>
                obtain ⟨url, hurl⟩ := hurl m hroute
                rw [clientRequest_insertions hroute hpurpose hbody hserver hurl hid] at h
                exact ⟨m, purpose, body, rfl, hpurpose, rfl, h⟩
  · rintro ⟨m, purpose, body, hroute, hpurpose, hbody, hillegal⟩
    obtain ⟨url, hurl⟩ := hurl m hroute
    exact (clientRequest_insertions hroute hpurpose hbody hserver hurl hid).2 hillegal

/-- Neither insertion fails exactly if what the configuration adds is legal. -/
theorem sendable_iff (h : resolveClientPurpose config m request.headers = .ok purpose) :
    ¬ ((∃ v ∈ config.connectorId, v.all isValueByte = false) ∨
        ∃ v ∈ purpose, v.all isValueByte = false) ↔ Sendable config m.route := by
  rw [not_or, legal_purpose_iff h, Sendable]
  refine and_congr_left fun _ => ?_
  constructor
  · intro hnone id hid
    by_contra hillegal
    exact hnone ⟨id, hid, Bool.eq_false_iff.2 hillegal⟩
  · rintro hlegal ⟨id, hid, hillegal⟩
    rw [hlegal id hid] at hillegal
    cases hillegal

/-- A call with a method that is one does not come back as an invalid configuration. -/
theorem sendUpstream_ne_configInvalid {call : UpstreamRequest}
    (h : methodFromBytes call.method ≠ none) (maxBytes : ℕ) :
    sendUpstream N call maxBytes ≠ .error .configInvalid := by
  obtain ⟨method, hmethod⟩ := Option.ne_none_iff_exists'.1 h
  have hunavailable : ∀ {α : Type} (o : Option α),
      FailsIn (· ≠ .configInvalid) (okOr ConnectorProblem.upstreamUnavailable o) :=
    fun o => FailsIn.okOr (S := (· ≠ ConnectorProblem.configInvalid)) (by decide) o
  have hfails : FailsIn (· ≠ .configInvalid) (sendUpstream N call maxBytes) := by
    rw [sendUpstream, hmethod]
    refine FailsIn.chain (FailsIn.ok method) fun method => ?_
    refine FailsIn.chain (hunavailable _) fun reply => ?_
    refine FailsIn.chain (hunavailable _) fun status => ?_
    exact FailsIn.chain (hunavailable _) fun body => FailsIn.ok _
  intro hinvalid
  exact hfails _ hinvalid rfl

theorem handleClient_configInvalid_iff (hmethod : methodFromBytes request.method ≠ none) :
    (handleClient N config request path query id).result = .error .configInvalid ↔
      clientRequest N config request path query id = .error .configInvalid := by
  rw [handleClient]
  cases hrequest : clientRequest N config request path query id with
  | error problem => simp
  | ok call =>
      obtain ⟨-, -, -, -, -, -, -, hcall, -, -⟩ := clientRequest_eq_ok hrequest
      rw [← hcall] at hmethod
      exact iff_of_false (sendUpstream_ne_configInvalid hmethod _) (by rintro ⟨⟩)

end

/-- **For which accepted configurations the client connector does not end in an invalid
configuration.**  The base URL is one that the URL parser has read, and the method of a request is
one.  A request that finds its route, its purpose and a body within the bound ends so exactly where
the texts of the configuration that are sent on the route are no legal header values; every other
request does not end so. -/
theorem accepted_client_invalid_iff {N : Platform} {P : Pki} {H : Host} {config : ConnectorConfig}
    {requireEnv : Bool} {request : Request} {path : Str} {query : Option Str} {fresh : Str}
    (haccepted : validateConfig P H config .client requireEnv = .ok ())
    (hbase : ∀ server ∈ config.server, Whatwg.Base N.authorityOf server.url)
    (hmethod : methodFromBytes request.method ≠ none) (hfresh : IsUlid fresh) :
    (handleClient N config request path query (requestId fresh request.headers)).result ≠
        .error .configInvalid ↔
      ∀ m, findClientRoute config.routes request.method path = .ok m →
        (∃ purpose, resolveClientPurpose config m request.headers = .ok purpose) →
        (∃ body, readLimitedBody request.body (maxBodyBytes config) = .ok body) →
        Sendable config m.route := by
  have hid : (requestId fresh request.headers).all isValueByte = true :=
    all_isValueByte_of_text (text_of_valid (validRequestId_requestId hfresh request.headers))
  obtain ⟨server, hserver⟩ := exists_server_of_accepted haccepted
  have hurl : ∀ m, findClientRoute config.routes request.method path = .ok m →
      ∃ url, buildUrl N.authorityOf server.url m.upstreamPath query = some url := by
    intro m hroute
    have hmatch : routeFor .client config.routes request.method path [] = .ok m := hroute
    obtain ⟨t, ht, -⟩ := routeFor_slash hmatch
    rw [ht]
    exact ⟨_, buildUrl_eq (hbase server hserver) t query⟩
  rw [Ne, handleClient_configInvalid_iff hmethod, clientRequest_configInvalid_iff hserver hurl hid]
  constructor
  · rintro hnot m hroute ⟨purpose, hpurpose⟩ ⟨body, hbody⟩
    refine (sendable_iff hpurpose).1 fun hillegal => ?_
    exact hnot ⟨m, purpose, body, hroute, hpurpose, hbody, hillegal⟩
  · rintro hsendable ⟨m, purpose, body, hroute, hpurpose, hbody, hillegal⟩
    exact (sendable_iff hpurpose).2 (hsendable m hroute ⟨purpose, hpurpose⟩ ⟨body, hbody⟩) hillegal

section

open Sample

/-- The sample configuration, with an id for the connector. -/
def Sample.named (connectorId : Str) : ConnectorConfig :=
  { bothModes (str "/v1") with connectorId := some connectorId }

theorem Sample.base_serverUrl : Whatwg.Base anyAuthority serverUrl where
  scheme := Or.inr rfl
  authority_ne := by decide
  authority_clean := by decide +kernel
  stable := rfl

/-- With a legal id, a request does not end in an invalid configuration. -/
theorem accepted_client_invalid_iff_named :
    (handleClient platform (named (str "registry a")) clientOfAlpha (str "/v1/items") none
      (requestId freshId clientOfAlpha.headers)).result ≠ .error .configInvalid := by
  have haccepted : validateConfig uriPki host (named (str "registry a")) .client true = .ok () := rfl
  have hbase : ∀ server ∈ (named (str "registry a")).server,
      Whatwg.Base platform.authorityOf server.url := by
    rintro server ⟨⟩
    exact base_serverUrl
  refine (accepted_client_invalid_iff haccepted hbase (by decide +kernel) isUlid_freshId).2 ?_
  rintro m hroute - -
  obtain ⟨-, -, hmem, -⟩ := findClientRoute_eq_ok hroute
  have hfree : m.route.requirePurpose = false := by
    rw [List.mem_singleton.1 hmem]
    rfl
  refine ⟨?_, fun hrequired => absurd hrequired (by simp [hfree])⟩
  rintro id ⟨⟩
  decide +kernel

/-- **An accepted configuration may end as an invalid one.**  Neither the id of the connector nor the
default purpose is looked at before a request is sent. -/
theorem accepted_client_invalid :
    validateConfig uriPki host (named (str "registry\na")) .client true = .ok () ∧
      (handleClient platform (named (str "registry\na")) clientOfAlpha (str "/v1/items") none
        (requestId freshId clientOfAlpha.headers)).result = .error .configInvalid ∧
      validateConfig uriPki host (defaultPurpose (str "care\n1")) .client true = .ok () ∧
      (handleClient platform (defaultPurpose (str "care\n1")) clientOfAlpha (str "/v1/items") none
        (requestId freshId clientOfAlpha.headers)).result = .error .configInvalid := by
  exact ⟨rfl, rfl, rfl, rfl⟩

end

end TrustConnector
