/-
**Sending a request upstream.**

Both handlers end in one function, which copies the headers of a map into the request of the HTTP
client, sends it, and copies the headers of the reply back.  The two copies are not alike.  Going
out, the map is taken apart by its owning iterator, in which only the first value of a name comes
with the name, and values without a name are skipped.  Coming back, the map is borrowed, and every
value comes with its name.

Main definitions:

* `UpstreamRequest`, `Reply`, `Response` — a request to the upstream, its reply, and the answer;
* `Platform` — the HTTP client, the header filters and the URL host parser;
* `outbound` — the request that is handed to the HTTP client;
* `sendUpstream` — sending a request and answering with the reply.

Main results:

* `getAll_outbound` — **the first value of each name goes out, and no other**;
* `getAll_replyHeaders` — every value of the filtered reply comes back.
-/

import TrustConnector.Errors
import TrustConnector.Fallible
import TrustConnector.Http
import TrustConnector.Whatwg

set_option relaxedAutoImplicit false
set_option autoImplicit false

namespace TrustConnector

open Text Fallible Http MultiMap

/-! ### Requests, replies and the platform -/

/-- A request to the upstream. -/
structure UpstreamRequest where
  method : Str
  url : Whatwg.Url
  headers : HeaderMap
  body : Str

/-- A reply of the upstream; its body is absent if the connection breaks before its end. -/
structure Reply where
  status : ℕ
  headers : HeaderMap
  body : Option Str

/-- The answer to a request. -/
structure Response where
  status : ℕ
  headers : HeaderMap
  body : Str

/-- Which headers a filter lets through. -/
structure ProxyHeaderPolicy where
  allowAuthorization : Bool := false
  allowCookie : Bool := false
  privatePrefix : Option Str := none
  deriving DecidableEq, Repr

/-- What the connector uses from outside. -/
structure Platform where
  /-- The host of a URL with the given scheme, in its normal form. -/
  authorityOf : Str → Str → Option Str
  filterProxyRequestHeaders : HeaderMap → ProxyHeaderPolicy → HeaderMap
  filterProxyResponseHeaders : HeaderMap → HeaderMap
  /-- The reply to a request, if there is one. -/
  send : UpstreamRequest → Option Reply
  /-- The body of a reply, if it is complete and within a bound. -/
  readBounded : Reply → ℕ → Option Str

/-! ### Sending -/

/-- A method from bytes: a token. -/
def methodFromBytes (bytes : Str) : Option Str :=
  if bytes.isEmpty || !bytes.all isTokenByte then none else some bytes

/-- A status that can be sent. -/
def statusFromU16 (status : ℕ) : Option ℕ :=
  if 100 ≤ status ∧ status < 1000 then some status else none

/-- The loop over the headers of a request: a value without a name is skipped. -/
def outboundHeaders (headers : HeaderMap) : HeaderMap :=
  headers.intoIter.foldl (fun request header =>
    match header.1 with
    | some name => request.append name header.2
    -- `into_iter` gives the name of a header with its first value only
    | none => request) ∅

/-- The request that is handed to the HTTP client. -/
def outbound (request : UpstreamRequest) : UpstreamRequest :=
  { request with headers := outboundHeaders request.headers }

/-- The loop over the headers of a reply. -/
def replyHeaders (headers : HeaderMap) : HeaderMap := (∅ : HeaderMap).appendAll headers.iter

/-- **Sending a request and answering with the reply.** -/
def sendUpstream (N : Platform) (request : UpstreamRequest) (maxBodyBytes : ℕ) :
    Except ConnectorProblem Response := do
  let method ← okOr .configInvalid (methodFromBytes request.method)
  let reply ← okOr .upstreamUnavailable (N.send { outbound request with method })
  let status ← okOr .upstreamUnavailable (statusFromU16 reply.status)
  let headers := replyHeaders (N.filterProxyResponseHeaders reply.headers)
  let body ← okOr .upstreamUnavailable (N.readBounded reply maxBodyBytes)
  return { status, headers, body }

/-! ### What is copied -/

/-- The loop appends the pairs that come with a name. -/
theorem outboundHeaders_eq (headers : HeaderMap) :
    outboundHeaders headers = (∅ : HeaderMap).appendAll (namedPairs headers.intoIter) := by
  have hloop : ∀ (pairs : List (Option Str × Str)) (request : HeaderMap),
      pairs.foldl (fun request header =>
        match header.1 with
        | some name => request.append name header.2
        | none => request) request = request.appendAll (namedPairs pairs) := by
    intro pairs
    induction pairs with
    | nil => exact fun request => rfl
    | cons header pairs ih =>
        obtain ⟨name, value⟩ := header
        intro request
        cases name with
        | none => exact ih request
        | some name => exact ih (request.append name value)
  exact hloop _ _

/-- **The first value of each name goes out, and no other.** -/
theorem getAll_outbound (request : UpstreamRequest) (name : Str) :
    (outbound request).headers.getAll name = (request.headers.getAll name).take 1 := by
  rw [outbound, outboundHeaders_eq, getAll_appendAll, getAll_empty, List.nil_append,
    valuesOf_namedPairs]

/-- **Every value of a filtered reply comes back.** -/
theorem getAll_replyHeaders (headers : HeaderMap) (name : Str) :
    (replyHeaders headers).getAll name = headers.getAll name := by
  rw [replyHeaders, getAll_appendAll, getAll_empty, List.nil_append, valuesOf_iter]

/-- Once its method is known to be one, a call can only fail because of the upstream. -/
theorem sendUpstream_eq_error {N : Platform} {call : UpstreamRequest} {maxBytes : ℕ}
    {problem : ConnectorProblem}
    (hmethod : methodFromBytes call.method = some call.method)
    (h : sendUpstream N call maxBytes = .error problem) : problem = .upstreamUnavailable := by
  simp only [sendUpstream, hmethod, okOr, ok_bind] at h
  split at h
  · exact (Except.error.inj h).symm
  · rw [ok_bind] at h
    split at h
    · exact (Except.error.inj h).symm
    · rw [ok_bind] at h
      split at h
      · exact (Except.error.inj h).symm
      · cases h

end TrustConnector
