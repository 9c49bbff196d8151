/-
**The problems a request can end in.**

Every request that is not answered by the upstream ends in one of these problems.  A problem fixes
the status of the response, the code in its body, and what is logged about it.

Main definitions:

* `ConnectorProblem` — the problems, with their status, code, title and log fields;
* `ConnectorProblem.response` — the document that tells the caller about a problem;
* `ConnectorError` — the errors that keep the connector from starting.

Main results:

* `ConnectorProblem.auditOutcome_eq_denied_iff` — **the log fields agree**: a problem is logged as
  a denial exactly when it has a stage, and exactly when it has a reason.
-/

import TrustConnector.Text

set_option relaxedAutoImplicit false
set_option autoImplicit false

namespace TrustConnector

open Text

/-- The problems.  A denial by the policy decision point carries its own code. -/
inductive ConnectorProblem where
  | configInvalid
  | clientIdentityMissing
  | clientIdentityDenied
  | routeDenied
  | purposeRequired
  | purposeDenied
  | upstreamAuthMissing
  | upstreamUnavailable
  | bodyTooLarge
  | requestTimeout
  | rateLimited
  | pdpDenied (code : Str)
  deriving DecidableEq, Repr

/-- A document that describes a problem. -/
structure ProblemDocument where
  type : Str
  title : Str
  status : ℕ
  detail : Str
  code : Str
  deriving DecidableEq, Repr

namespace ConnectorProblem

def code : ConnectorProblem → Str
  | configInvalid => str "connector.config_invalid"
  | clientIdentityMissing => str "connector.client_identity_missing"
  | clientIdentityDenied => str "connector.client_identity_denied"
  | routeDenied => str "connector.route_denied"
  | purposeRequired => str "connector.purpose_required"
  | purposeDenied => str "connector.purpose_denied"
  | upstreamAuthMissing => str "connector.upstream_auth_missing"
  | upstreamUnavailable => str "connector.upstream_unavailable"
  | bodyTooLarge => str "connector.body_too_large"
  | requestTimeout => str "connector.request_timeout"
  | rateLimited => str "connector.rate_limited"
  | pdpDenied code => code

def status : ConnectorProblem → ℕ
  | configInvalid => 500
  | clientIdentityMissing => 401
  | clientIdentityDenied => 403
  | routeDenied => 403
  | purposeRequired => 400
  | purposeDenied => 403
  | upstreamAuthMissing => 500
  | upstreamUnavailable => 502
  | bodyTooLarge => 413
  | requestTimeout => 408
  | rateLimited => 429
  | pdpDenied _ => 403

def title : ConnectorProblem → Str
  | configInvalid => str "Connector configuration is invalid"
  | clientIdentityMissing => str "Client identity is missing"
  | clientIdentityDenied => str "Client identity is denied"
  | routeDenied => str "Route is denied"
  | purposeRequired => str "Data purpose is required"
  | purposeDenied => str "Data purpose is denied"
  | upstreamAuthMissing => str "Upstream authentication is unavailable"
  | upstreamUnavailable => str "Upstream is unavailable"
  | bodyTooLarge => str "Request body is too large"
  | requestTimeout => str "Request timed out"
  | rateLimited => str "Request rate limit exceeded"
  | pdpDenied _ => str "Policy decision denied request"

def auditOutcome (problem : ConnectorProblem) : Str :=
  if 500 ≤ problem.status ∧ problem.status < 600 then str "failed" else str "denied"

def denialStage : ConnectorProblem → Option Str
  | configInvalid => none
  | clientIdentityMissing | clientIdentityDenied => some (str "identity")
  | routeDenied => some (str "route")
  | purposeRequired | purposeDenied => some (str "purpose")
  | pdpDenied _ => some (str "pdp")
  | upstreamAuthMissing => none
  | upstreamUnavailable => none
  | bodyTooLarge => some (str "request_body")
  | requestTimeout => some (str "request_timeout")
  | rateLimited => some (str "rate_limit")

def denialReason : ConnectorProblem → Option Str
  | configInvalid => none
  | clientIdentityMissing => some (str "client_identity_missing")
  | clientIdentityDenied => some (str "client_identity_denied")
  | routeDenied => some (str "route_denied")
  | purposeRequired => some (str "purpose_required")
  | purposeDenied => some (str "purpose_denied")
  | pdpDenied code => some code
  | upstreamAuthMissing => none
  | upstreamUnavailable => none
  | bodyTooLarge => some (str "body_too_large")
  | requestTimeout => some (str "request_timeout")
  | rateLimited => some (str "rate_limited")

/-- What the caller is told. -/
def response (problem : ConnectorProblem) : ProblemDocument :=
  { type := str "urn:registry:problem:" ++ problem.code
    title := problem.title
    status := problem.status
    detail := str "request denied by registry trust connector"
    code := problem.code }

/-- **The log fields agree**: denials, and only denials, have a stage and a reason. -/
theorem auditOutcome_eq_denied_iff (problem : ConnectorProblem) :
    (problem.auditOutcome = str "denied" ↔ problem.denialStage.isSome = true) ∧
      (problem.denialStage.isSome = problem.denialReason.isSome) := by
  have hne : str "failed" ≠ str "denied" := by decide
  cases problem <;> simp [auditOutcome, status, denialStage, denialReason, hne]

end ConnectorProblem

/-- The errors of starting the connector. -/
inductive ConnectorError where
  | invalidConfig (message : Str)
  | io (message : Str)
  | tls (message : Str)
  deriving DecidableEq, Repr

end TrustConnector
