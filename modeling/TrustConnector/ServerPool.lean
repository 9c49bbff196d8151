/-
**The server connector with many requests at once.**

The requests of the server connector run on several threads.  They share the windows of the rate
limiter and the policy hash caches, each behind a lock, and nothing else: up to the limiter a request
never waits, and after it only for its body and for the upstream.  The time limit on a request can
thus stop it after it was counted, never before.

Here each request is a process that takes the two locks one after the other, and the processes of
all requests take their steps in any order.  The caches do not show, so the requests behave as if the
server had handled them one after the other, in the order in which they took the lock of the limiter.

Main definitions:

* `Arrival`, `serve`, `serveAll` — a request, and requests one after the other;
* `serverProcess` — the server connector, lock by lock;
* `Interleaved` — what requests in any order lead to;
* `Linearized` — an order that explains it;
* `forwardedBetween` — how many requests of a client went upstream in a span of time.

Main results:

* `serverProcess_run` — left alone, the process is `handleServer`;
* `interleaved_linearized` — **every interleaving is explained by an order**, which later steps only
  extend;
* `mediated_of_sent` — only requests that pass all gates go upstream;
* `interleaved_overtaken` — a request can be overtaken at the limiter by one that came later;
* `interleaved_rate` — a minute sees at most twice the limit go upstream.
-/

import TrustConnector.Interleaving
import TrustConnector.Proxy

set_option relaxedAutoImplicit false
set_option autoImplicit false

namespace TrustConnector

open Text Fallible Http Interleaving

/-! ### One request after the other -/

/-- A request that comes to the server, with what it will see of the clocks, of the environment and
of the upstream. -/
structure Arrival where
  host : Host
  readings : Readings
  request : Request
  path : Str
  query : Option Str
  requestId : Str
  /-- What the upstream will reply to the call of this request, if it makes one.  Each request has
  replies of its own, so the upstream may remember whatever it was asked before and meanwhile. -/
  reply : UpstreamRequest → Option Reply

/-- The platform as a request meets it, with the replies that it gets. -/
def Arrival.platform (a : Arrival) (N : Platform) : Platform := { N with send := a.reply }

/-- What is sent to the upstream does not depend on what it will reply. -/
theorem serverRequest_platform (a : Arrival) (N : Platform) (H : Host) (state : ProxyState)
    (request : Request) (identity : PeerIdentity) (m : RouteMatch) (purpose query : Option Str)
    (requestId : Str) :
    serverRequest (a.platform N) H state request identity m purpose query requestId =
      serverRequest N H state request identity m purpose query requestId := rfl

variable (N : Platform) (P : Pki) (D : Pdp) (state : ProxyState)

/-- The server connector on a request. -/
def serve (memory : Memory) (a : Arrival) : Handled × Memory :=
  handleServer (a.platform N) P a.host D state memory a.readings a.request a.path a.query a.requestId

/-- The memory that requests leave, one after the other. -/
def serveAll (arrivals : List Arrival) : Memory :=
  arrivals.foldl (fun memory a => (serve N P D state memory a).2) Memory.start

/-! ### Lock by lock -/

/-- After the limiter: the body is read and the request sent on.  While the connector waits for the
body, and later for the upstream, the time can run out. -/
def forwardProcess (a : Arrival) (identity : PeerIdentity) (m : RouteMatch) (purpose : Option Str) :
    Process Memory UpstreamRequest Handled :=
  .wait <|
    match serverRequest (a.platform N) a.host state a.request identity m purpose a.query
      a.requestId with
    | .error problem => .done ⟨none, .error problem⟩
    | .ok call =>
        .send call (.wait (.done
          ⟨some call, sendUpstream (a.platform N) call (maxBodyBytes state.config)⟩))

/-- After the decision on the purpose: the lock of the rate limiter. -/
def limitProcess (a : Arrival) (identity : PeerIdentity) (m : RouteMatch) :
    Except ConnectorProblem (Option Str) → Process Memory UpstreamRequest Handled
  | .error problem => .done ⟨none, .error problem⟩
  | .ok purpose =>
      .access
        (fun memory => { memory with windows := (limiting state memory a.readings identity m).2 })
        fun memory =>
          match (limiting state memory a.readings identity m).1 with
          | .error problem => .done ⟨none, .error problem⟩
          | .ok () => forwardProcess N state a identity m purpose

/-- **The server connector, lock by lock**: the first gates need no lock, and the decision on the
purpose takes the one of the route's policy hash. -/
def serverProcess (a : Arrival) : Process Memory UpstreamRequest Handled :=
  match serverAdmission P a.host state a.request a.path with
  | .error problem => .done ⟨none, .error problem⟩
  | .ok (identity, m) =>
      .access
        (fun memory => memory.setCache m.route
          (authorization P D state memory a.readings a.request identity m).2)
        fun memory => limitProcess N state a identity m
          (authorization P D state memory a.readings a.request identity m).1

/-- What the requests share, behind locks: the caches are coherent, and only the windows show. -/
def memoryView : View Memory RequestRateLimiter where
  good := fun memory => ∀ route, Coherent (policyHash P) (memory.caches route)
  see := Memory.windows

/-- The requests of a server connector, in any order of their steps. -/
abbrev ServerPool := Pool Arrival Memory UpstreamRequest Handled

/-- What requests in any order lead to, from the start of the connector. -/
def Interleaved (w : ServerPool) : Prop :=
  Steps (serverProcess N P D state) (Pool.start Memory.start) w

variable {N P D state}

/-- **Left alone, the process is the handler.** -/
theorem serverProcess_run (memory : Memory) (a : Arrival) :
    (serverProcess N P D state a).run memory =
      ⟨(serve N P D state memory a).1, (serve N P D state memory a).1.call.toList,
        (serve N P D state memory a).2⟩ := by
  unfold serverProcess serve handleServer
  cases serverAdmission P a.host state a.request a.path with
  | error problem => rfl
  | ok admitted =>
      obtain ⟨identity, m⟩ := admitted
      simp only [Process.run]
      cases (authorization P D state memory a.readings a.request identity m).1 with
      | error problem => rfl
      | ok purpose =>
          simp only [limitProcess, Process.run, Memory.setCache]
          cases (limiting state memory a.readings identity m).1 with
          | error problem => rfl
          | ok _ =>
              simp only [forwardProcess, Process.run]
              cases serverRequest (a.platform N) a.host state a.request identity m purpose a.query
                a.requestId with
              | error problem => rfl
              | ok call => rfl

variable (N P D state) in
/-- What the server can do with a request that comes to it. -/
theorem serve_served (memory : Memory) (a : Arrival) :
    Served (a.platform N) P a.host D state memory a.readings a.request a.path a.query a.requestId
      (serve N P D state memory a) := handleServer_served

theorem afterAll_eq (arrivals : List Arrival) :
    afterAll (serverProcess N P D state) Memory.start arrivals = serveAll N P D state arrivals := by
  simp only [afterAll, serveAll, serverProcess_run]

theorem serveAll_append (arrivals : List Arrival) (a : Arrival) :
    serveAll N P D state (arrivals ++ [a]) =
      (serve N P D state (serveAll N P D state arrivals) a).2 := by
  simp [serveAll, List.foldl_append]

theorem reachable_serveAll (arrivals : List Arrival) :
    Reachable N P D state (serveAll N P D state arrivals) := by
  induction arrivals using List.reverseRecOn with
  | nil => exact Reachable.start
  | append_singleton arrivals a ih =>
      rw [serveAll_append, serve, handleServer_memory N]
      exact ih.step a.host a.readings a.request a.path a.query a.requestId

/-- The cache of a route does not show: an access to it is silent. -/
theorem silent_setCache (a : Arrival) (identity : PeerIdentity) (m : RouteMatch)
    (next : Except ConnectorProblem (Option Str) → Process Memory UpstreamRequest Handled) :
    (memoryView P).Silent
      (fun memory => memory.setCache m.route
        (authorization P D state memory a.readings a.request identity m).2)
      fun memory => next (authorization P D state memory a.readings a.request identity m).1 := by
  refine ⟨?_, fun _ _ => rfl, ?_⟩
  · intro memory hgood route
    obtain ⟨-, hcoherent⟩ := authorizeServerPurpose_coherent (hgood m.route) D a.readings.clock m
      a.request.headers identity state.config.clientTrust
    by_cases h : route = m.route
    · subst h
      simpa [Memory.setCache] using hcoherent
    · simpa [Memory.setCache, Function.update_of_ne h] using hgood route
  · intro memory memory' hgood hgood'
    have h := fun (memory : Memory) (hgood : (memoryView P).good memory) =>
      (authorizeServerPurpose_coherent (hgood m.route) D a.readings.clock m a.request.headers
        identity state.config.clientTrust).1
    simp only [authorization, h memory hgood, h memory' hgood']

theorem forwardProcess_quiet (a : Arrival) (identity : PeerIdentity) (m : RouteMatch)
    (purpose : Option Str) : (memoryView P).Quiet (forwardProcess N state a identity m purpose) := by
  refine .wait ?_
  cases serverRequest (a.platform N) a.host state a.request identity m purpose a.query
    a.requestId with
  | error problem => exact .done _
  | ok call => exact .send (.wait (.done _))

/-- The limiter depends on its windows, and on nothing else that the requests share. -/
theorem limitProcess_single (a : Arrival) (identity : PeerIdentity) (m : RouteMatch)
    (authorized : Except ConnectorProblem (Option Str)) :
    (memoryView P).Single (limitProcess N state a identity m authorized) := by
  cases authorized with
  | error problem => exact .quiet (.done _)
  | ok purpose =>
      refine .effect ⟨fun _ hgood => hgood, ?_, ?_⟩ ?_
      · intro memory memory' _ _ hsee
        exact congrArg (fun windows : RequestRateLimiter => (windows.check a.readings.now
          identity.value m.route.id state.config.limits.maxRequestsPerIdentityPerMinute).2) hsee
      · intro memory memory' _ _ hsee
        have hwindows : memory.windows = memory'.windows := hsee
        simp only [limiting, hwindows]
      · intro memory _
        cases (limiting state memory a.readings identity m).1 with
        | error problem => exact .done _
        | ok _ => exact forwardProcess_quiet a identity m purpose

/-- **A request has one effect**, at the lock of the limiter. -/
theorem serverProcess_single (a : Arrival) :
    (memoryView P).Single (serverProcess N P D state a) := by
  unfold serverProcess
  cases serverAdmission P a.host state a.request a.path with
  | error problem => exact .quiet (.done _)
  | ok admitted =>
      obtain ⟨identity, m⟩ := admitted
      exact .silent (silent_setCache a identity m _) fun memory _ =>
        limitProcess_single a identity m _

/-! ### Requests that overtake others -/

theorem memoryView_start : (memoryView P).good Memory.start := by
  intro route entry hentry
  cases hentry

theorem good_serve {memory : Memory} (hgood : (memoryView P).good memory) (a : Arrival) :
    (memoryView P).good (serve N P D state memory a).2 :=
  (serve_served N P D state memory a).coherent hgood

theorem linear_of_interleaved {w : ServerPool} (h : Interleaved N P D state w) :
    ∃ order, Pool.Linear (memoryView P) (serverProcess N P D state) Memory.start w order := by
  obtain ⟨order, -, hlinear⟩ :=
    (Pool.linear_start memoryView_start).steps serverProcess_single memoryView_start h
  exact ⟨order, hlinear⟩

/-- The caches are coherent in every interleaving. -/
theorem Interleaved.good {w : ServerPool} (h : Interleaved N P D state w) :
    (memoryView P).good w.shared := by
  obtain ⟨order, hlinear⟩ := linear_of_interleaved h
  exact hlinear.good

/-- What the server does with a request depends on the windows only, and on no cache. -/
theorem serve_congr {memory memory' : Memory} (hgood : (memoryView P).good memory)
    (hgood' : (memoryView P).good memory') (hwindows : memory.windows = memory'.windows)
    (a : Arrival) :
    (serve N P D state memory a).1 = (serve N P D state memory' a).1 ∧
      (serve N P D state memory a).2.windows = (serve N P D state memory' a).2.windows := by
  have hsingle : (memoryView P).Single (serverProcess N P D state a) := serverProcess_single a
  have hsame := hsingle.same hgood hgood' hwindows
  rw [serverProcess_run, serverProcess_run] at hsame
  exact ⟨hsame.result, hsame.see⟩

/-- A new request can run to its end while the others wait. -/
theorem Interleaved.handle {w : ServerPool} (h : Interleaved N P D state w) (a : Arrival) :
    Interleaved N P D state
      { shared := (serve N P D state w.shared a).2
        slots := w.slots ++ [⟨a, some (.done (serve N P D state w.shared a).1)⟩]
        sent := w.sent ++
          (serve N P D state w.shared a).1.call.toList.map (Prod.mk w.slots.length) } := by
  have hslot : (w.slots ++ [⟨a, some (serverProcess N P D state a)⟩])[w.slots.length]? =
      some ⟨a, some (serverProcess N P D state a)⟩ := List.getElem?_concat_length
  have hsteps := (h.tail (Step.arrive w a)).trans (steps_run _ _ hslot)
  rw [serverProcess_run, List.set_append_right _ _ (Nat.le_refl _), Nat.sub_self,
    List.set_cons_zero] at hsteps
  exact hsteps

/-- A request that has passed the first gates can be held up in front of the limiter.  What is left
of it does what the request does when it comes then. -/
theorem Interleaved.park {w : ServerPool} (h : Interleaved N P D state w) {a : Arrival}
    {identity : PeerIdentity} {m : RouteMatch}
    (hadmission : serverAdmission P a.host state a.request a.path = .ok (identity, m)) :
    ∃ (w' : ServerPool) (p : Process Memory UpstreamRequest Handled),
      Interleaved N P D state w' ∧ w'.shared.windows = w.shared.windows ∧
      w'.slots = w.slots ++ [⟨a, some p⟩] ∧ w'.sent = w.sent ∧
      ∀ memory, (memoryView P).good memory →
        (memoryView P).Same (p.run memory) ((serverProcess N P D state a).run memory) := by
  have hcode : serverProcess N P D state a = .access
      (fun memory => memory.setCache m.route
        (authorization P D state memory a.readings a.request identity m).2)
      (fun memory => limitProcess N state a identity m
        (authorization P D state memory a.readings a.request identity m).1) := by
    simp only [serverProcess, hadmission]
  have hsteps := (h.tail (Step.arrive w a)).tail
    (Step.access (i := w.slots.length) (by rw [hcode]; exact List.getElem?_concat_length))
  rw [List.set_append_right _ _ (Nat.le_refl _), Nat.sub_self, List.set_cons_zero] at hsteps
  refine ⟨_, _, hsteps, rfl, rfl, rfl, fun memory hgood => ?_⟩
  rw [hcode]
  exact (silent_setCache a identity m _).same h.good hgood (limitProcess_single a identity m _)

/-- **A request can be overtaken at the limiter by one that came later**: it ends as it does after
the later one. -/
theorem interleaved_overtaken {w : ServerPool} (h : Interleaved N P D state w) (a b : Arrival)
    {identity : PeerIdentity} {m : RouteMatch}
    (hadmission : serverAdmission P a.host state a.request a.path = .ok (identity, m)) :
    ∃ w' : ServerPool, Interleaved N P D state w' ∧
      w'.slots = w.slots ++
        [⟨a, some (.done (serve N P D state (serve N P D state w.shared b).2 a).1)⟩,
          ⟨b, some (.done (serve N P D state w.shared b).1)⟩] ∧
      w'.sent = w.sent ++
        ((serve N P D state w.shared b).1.call.toList.map (Prod.mk (w.slots.length + 1)) ++
          (serve N P D state (serve N P D state w.shared b).2 a).1.call.toList.map
            (Prod.mk w.slots.length)) := by
  obtain ⟨⟨shared, slots, sent⟩, p, hparked, hwindows, rfl, rfl, hp⟩ := h.park hadmission
  -- the later request meets the same windows, and the earlier one those that it leaves
  have hlater : (serve N P D state shared b).1 = (serve N P D state w.shared b).1 ∧ _ :=
    serve_congr hparked.good h.good hwindows b
  have hhandled := hparked.handle b
  have hearlier : (serve N P D state (serve N P D state shared b).2 a).1 = _ ∧ _ :=
    serve_congr hhandled.good (good_serve h.good b) hlater.2 a
  have hslot : (w.slots ++ [⟨a, some p⟩] ++
      [⟨b, some (.done (serve N P D state shared b).1)⟩])[w.slots.length]? = some ⟨a, some p⟩ := by
    simp
  have hsteps := hhandled.trans (steps_run _ p hslot)
  have hrun := hp _ hhandled.good
  rw [serverProcess_run] at hrun
  refine ⟨_, hsteps, ?_, ?_⟩
  · rw [hrun.result, hearlier.1, hlater.1]
    simp
  · rw [hrun.sent, hearlier.1, hlater.1]
    simp

/-- A request of the client of `alpha`, as it comes to the sample server. -/
def Sample.arrival : Arrival :=
  { host := Sample.host
    readings := ⟨0, none, none⟩
    request := Sample.clientOfAlpha
    path := str "/v1/items"
    query := none
    requestId := str "id"
    reply := Sample.platform.send }

/-! ### Linearizability -/

variable (N P D state) in
/-- **An order in which the server could have handled the requests, one after the other.** -/
structure Linearized (w : ServerPool) (order : List ℕ) : Prop where
  /-- No request is handled twice, and none before it came. -/
  nodup : order.Nodup
  lt_length : ∀ i ∈ order, i < w.slots.length
  /-- The limiter holds what it holds after these requests. -/
  windows : w.shared.windows = (serveAll N P D state (w.tasks order)).windows
  /-- A request that has ended is in the order, and has ended as it does after those before it. -/
  ended : ∀ i a handled, w.slots[i]? = some ⟨a, some (.done handled)⟩ →
    ∃ before after, order = before ++ i :: after ∧
      handled = (serve N P D state (serveAll N P D state (w.tasks before)) a).1
  /-- A request that was stopped by the time limit is in the order: it stays counted. -/
  interrupted : ∀ i a, w.slots[i]? = some ⟨a, none⟩ → i ∈ order
  /-- A call to the upstream is the call of its request after those before it, and its only one. -/
  calls : ∀ i call, (i, call) ∈ w.sent → ∃ a rest before after,
    w.slots[i]? = some ⟨a, rest⟩ ∧ order = before ++ i :: after ∧ w.sentBy i = [call] ∧
      (serve N P D state (serveAll N P D state (w.tasks before)) a).1.call = some call

theorem Linearized.of_linear {w : ServerPool} {order : List ℕ}
    (h : Pool.Linear (memoryView P) (serverProcess N P D state) Memory.start w order) :
    Linearized N P D state w order := by
  refine ⟨h.nodup, h.lt_length, ?_, ?_, fun i a hslot => h.interrupted hslot, ?_⟩
  · have hsee := h.see
    rw [afterAll_eq] at hsee
    exact hsee
  · intro i a handled hslot
    obtain ⟨before, after, horder, hresult⟩ := h.ended hslot
    rw [serverProcess_run, afterAll_eq] at hresult
    exact ⟨before, after, horder, hresult⟩
  · intro i call hsent
    obtain ⟨a, rest, before, after, hslot, horder, hmessages⟩ := h.sentBy_isPrefix hsent
    rw [serverProcess_run, afterAll_eq] at hmessages
    have hmem : call ∈ w.sentBy i := List.mem_filterMap.2 ⟨_, hsent, if_pos rfl⟩
    refine ⟨a, rest, before, after, hslot, horder, ?_⟩
    -- a request makes at most one call, so its calls so far are that one
    cases hcall : (serve N P D state (serveAll N P D state (w.tasks before)) a).1.call with
    | none =>
        simp only [hcall, Option.toList_none, List.prefix_nil] at hmessages
        simp [hmessages] at hmem
    | some call' =>
        simp only [hcall, Option.toList_some] at hmessages
        obtain ⟨tail, htail⟩ := hmessages
        obtain ⟨first, more, hcons⟩ := List.exists_cons_of_ne_nil (List.ne_nil_of_mem hmem)
        rw [hcons] at htail hmem ⊢
        simp only [List.cons_append, List.cons.injEq, List.append_eq_nil_iff] at htail
        obtain ⟨rfl, rfl, -⟩ := htail
        simp only [List.mem_singleton] at hmem
        simp [hmem]

section

open Sample

/-- The sample configuration, with room for one request a minute. -/
def Sample.oneAMinute : ConnectorConfig :=
  { bothModes (str "/v1") with
    limits := { (bothModes (str "/v1")).limits with maxRequestsPerIdentityPerMinute := 1 } }

/-- The sample server with room for one request a minute, started. -/
def Sample.oneAMinuteState : ProxyState :=
  ⟨oneAMinute, some (policyOf uriPki oneAMinute), some ()⟩

/-- Another request of the client of `alpha`. -/
def Sample.laterArrival : Arrival := { arrival with requestId := str "later" }

/-- **Two requests at once.**  The one that comes later is the first at the limiter, and takes the
only place; the other one, which was through the first gates before it came, is refused. -/
theorem Sample.interleaved_two : ∃ (w : ServerPool) (forwarded : Handled),
    Interleaved platform uriPki pdp oneAMinuteState w ∧
      w.slots = [⟨arrival, some (.done ⟨none, .error .rateLimited⟩)⟩,
        ⟨laterArrival, some (.done forwarded)⟩] ∧
      ∃ response, forwarded.result = .ok response := by
  obtain ⟨⟨identity, m⟩, hadmission⟩ :
      ∃ x, serverAdmission uriPki host oneAMinuteState arrival.request arrival.path = .ok x :=
    ⟨_, rfl⟩
  obtain ⟨w, hw, hslots, -⟩ := interleaved_overtaken (N := platform) (D := pdp)
    (w := Pool.start Memory.start) Relation.ReflTransGen.refl arrival laterArrival hadmission
  exact ⟨w, _, hw, hslots, _, rfl⟩

end

/-- A call of a request with its place in an order is mediated. -/
theorem mediated_of_sent {H₀ H₁ : Host} {config : ConnectorConfig} {requireEnv : Bool}
    (haccepted : validateConfig P H₀ config .server requireEnv = .ok ())
    (hstart : ProxyState.server P H₁ config = .ok state) {w : ServerPool} {order : List ℕ}
    (h : Linearized N P D state w order) {i : ℕ} {call : UpstreamRequest}
    (hsent : (i, call) ∈ w.sent) :
    ∃ a rest memory identity m, w.slots[i]? = some ⟨a, rest⟩ ∧ Reachable N P D state memory ∧
      Mediated P a.host D state memory a.readings a.request a.path call identity m := by
  obtain ⟨a, rest, before, after, hslot, -, -, hcall⟩ := h.calls i call hsent
  have hserved := serve_served N P D state (serveAll N P D state (w.tasks before)) a
  have hname := authHeaderName_ne haccepted
  rw [← ProxyState.server_config hstart] at hname
  obtain ⟨identity, m, purpose, hadmission, hpurpose, hlimit, hrequest⟩ := hserved.gates hcall
  have hreachable : Reachable N P D state (serveAll N P D state (w.tasks before)) :=
    reachable_serveAll _
  exact ⟨a, rest, _, identity, m, hslot, hreachable, mediated_of_gates hname
    (hreachable.coherent m.route) hadmission hpurpose hlimit hrequest⟩

/-! ### The rate of the calls -/

variable (P D state) in
/-- The call to the limiter that a request makes, if it gets there. -/
def rateCall (a : Arrival) : Option RateCall :=
  match serverAdmission P a.host state a.request a.path with
  | .error _ => none
  | .ok (identity, m) =>
      match (authorizeServerPurpose P D a.readings.clock none m a.request.headers identity
        state.config.clientTrust).1 with
      | .error _ => none
      | .ok _ => some ⟨identity.value, m.route.id, a.readings.now⟩

/-- A request that asks the limiter does so for its own client, at its own reading. -/
theorem rateCall_eq_some {a : Arrival} {c : RateCall} (h : rateCall P D state a = some c) :
    ∃ identity m, serverAdmission P a.host state a.request a.path = .ok (identity, m) ∧
      c = ⟨identity.value, m.route.id, a.readings.now⟩ := by
  unfold rateCall at h
  cases hadmission : serverAdmission P a.host state a.request a.path with
  | error problem => simp [hadmission] at h
  | ok admitted =>
      obtain ⟨identity, m⟩ := admitted
      simp only [hadmission] at h
      split at h
      · cases h
      · exact ⟨identity, m, rfl, (Option.some.inj h).symm⟩

/-- Requests that read the same time never take the readings back. -/
theorem pairwise_readings_of_same {arrivals : List Arrival} {now : ℕ}
    (h : ∀ a ∈ arrivals, a.readings.now = now) (key : Str) :
    (readingsOf key (arrivals.filterMap (rateCall P D state))).Pairwise (· ≤ ·) := by
  have hsame : ∀ reading ∈ readingsOf key (arrivals.filterMap (rateCall P D state)),
      reading = now := by
    intro reading hreading
    obtain ⟨c, hc, rfl⟩ := List.mem_map.1 hreading
    obtain ⟨a, ha, hcall⟩ := List.mem_filterMap.1 (List.mem_filter.1 hc).1
    obtain ⟨_, _, -, rfl⟩ := rateCall_eq_some hcall
    exact h a ha
  refine List.pairwise_of_forall_mem_list fun x hx y hy => ?_
  rw [hsame x hx, hsame y hy]

/-- The limit on the requests of an identity on a route. -/
abbrev requestLimit (state : ProxyState) : UInt32 :=
  state.config.limits.maxRequestsPerIdentityPerMinute

/-- What a request does to the windows, and that it goes upstream only if the limiter admits it. -/
theorem serve_limited {memory : Memory}
    (hcaches : ∀ route, Coherent (policyHash P) (memory.caches route)) (a : Arrival) :
    (serve N P D state memory a).2.windows =
        (rateCall P D state a).elim memory.windows (fun c =>
          (memory.windows.check c.now c.identity c.routeId (requestLimit state)).2) ∧
      ((serve N P D state memory a).1.call.isSome = true → ∃ c ∈ rateCall P D state a,
        (memory.windows.check c.now c.identity c.routeId (requestLimit state)).1 = .ok ()) := by
  have hpure := fun (identity : PeerIdentity) (m : RouteMatch) =>
    (authorizeServerPurpose_coherent (hcaches m.route) D a.readings.clock m a.request.headers
      identity state.config.clientTrust).1
  have hserved := serve_served N P D state memory a
  generalize serve N P D state memory a = out at hserved
  unfold rateCall
  cases hserved with
  | notAdmitted hadmission => simp [hadmission]
  | notAuthorized hadmission hpurpose =>
      rw [authorization, hpure] at hpurpose
      simp [hadmission, hpurpose, Memory.setCache]
  | limited hadmission hpurpose hlimit =>
      rw [authorization, hpure] at hpurpose
      simp [hadmission, hpurpose, limiting]
  | notSent hadmission hpurpose hlimit _ =>
      rw [authorization, hpure] at hpurpose
      simp [hadmission, hpurpose, limiting]
  | forwarded hadmission hpurpose hlimit _ =>
      rw [authorization, hpure] at hpurpose
      simpa [hadmission, hpurpose, limiting] using hlimit

/-- The windows after some requests are those of a run of the limiter. -/
theorem windows_serveAll (arrivals : List Arrival) :
    (serveAll N P D state arrivals).windows =
      (limiterRun (requestLimit state) (arrivals.filterMap (rateCall P D state))).windows := by
  induction arrivals using List.reverseRecOn with
  | nil => rfl
  | append_singleton arrivals a ih =>
      obtain ⟨hwindows, -⟩ := serve_limited (N := N) (P := P) (D := D)
        (reachable_serveAll arrivals).coherent a
      rw [serveAll_append, hwindows, List.filterMap_append]
      cases hcall : rateCall P D state a with
      | none => simpa [hcall] using ih
      | some c => simp [hcall, limiterRun_append, LimiterHistory.step, ih]

/-- The request of a slot asked the limiter on a pair, between two readings. -/
def asked (P : Pki) (D : Pdp) (state : ProxyState) (identity routeId : Str) (t t' : ℕ)
    (slot : Slot Arrival Memory UpstreamRequest Handled) : Bool :=
  (rateCall P D state slot.task).any fun c =>
    c.onPair identity routeId && (t ≤ c.now && c.now ≤ t')

variable (P D state) in
/-- How many requests of an identity on a route went upstream, of those that asked the limiter
between two readings. -/
def forwardedBetween (w : ServerPool) (identity routeId : Str) (t t' : ℕ) : ℕ :=
  w.sent.countP fun m => (w.slots[m.1]?).any (asked P D state identity routeId t t')

/-- The requests of an order that went upstream are among the ones that the limiter admitted. -/
theorem forwarded_le_admitted {w : ServerPool} (identity routeId : Str) (t t' : ℕ) (order : List ℕ)
    (hcalls : ∀ before i after, order = before ++ i :: after → i ∈ w.sent.map Prod.fst →
      ∃ a rest, w.slots[i]? = some ⟨a, rest⟩ ∧
        (serve N P D state (serveAll N P D state (w.tasks before)) a).1.call.isSome = true) :
    order.countP (fun i => i ∈ w.sent.map Prod.fst &&
        (w.slots[i]?).any (asked P D state identity routeId t t')) ≤
      (eventsOf (rateKey identity routeId) (limiterRun (requestLimit state)
        ((w.tasks order).filterMap (rateCall P D state))).records).countP
        fun e => e.admitted && (t ≤ e.now && e.now ≤ t') := by
  induction order using List.reverseRecOn with
  | nil => simp
  | append_singleton order i ih =>
      have hbefore := ih fun before j after horder =>
        hcalls before j (after ++ [i]) (by simp [horder])
      rw [List.countP_append]
      by_cases hi : i ∈ w.sent.map Prod.fst ∧
          (w.slots[i]?).any (asked P D state identity routeId t t') = true
      · -- the request went upstream, so the limiter has a record of it, with the verdict
        obtain ⟨hsent, hasked⟩ := hi
        obtain ⟨a, rest, hslot, hcall⟩ := hcalls order i [] rfl hsent
        obtain ⟨c, hc, hok⟩ := (serve_limited (reachable_serveAll _).coherent a).2 hcall
        rw [hslot, Option.any_some, asked, hc, Option.any_some, Bool.and_eq_true] at hasked
        obtain ⟨hpair, hspan⟩ := hasked
        obtain ⟨rfl, rfl⟩ : c.identity = identity ∧ c.routeId = routeId := by
          simpa [RateCall.onPair] using hpair
        rw [windows_serveAll] at hok
        have htasks : (w.tasks (order ++ [i])).filterMap (rateCall P D state) =
            (w.tasks order).filterMap (rateCall P D state) ++ [c] := by
          simp [Pool.tasks, List.filterMap_append, hslot, Option.mem_def.1 hc]
        have hkey : c.key = rateKey c.identity c.routeId := rfl
        rw [htasks, limiterRun_append, eventsOf_step, if_pos hkey, hok, List.countP_append]
        refine Nat.add_le_add hbefore (List.countP_le_length.trans ?_)
        rw [List.countP_singleton, if_pos (by simpa [Except.isOk, Except.toBool] using hspan)]
        exact Nat.le_refl 1
      · have hnone : [i].countP (fun i => i ∈ w.sent.map Prod.fst &&
            (w.slots[i]?).any (asked P D state identity routeId t t')) = 0 := by
          simpa using hi
        rw [hnone, Nat.add_zero]
        refine hbefore.trans ?_
        have htasks : w.tasks (order ++ [i]) = w.tasks order ++ w.tasks [i] := by
          simp [Pool.tasks, List.filterMap_append]
        rw [htasks, List.filterMap_append]
        exact (eventsOf_isPrefix _ _ _ _).sublist.countP_le

/-- Each request makes at most one call, in every interleaving. -/
theorem Linearized.nodup_sent {w : ServerPool} {order : List ℕ}
    (h : Linearized N P D state w order) : (w.sent.map Prod.fst).Nodup := by
  rw [List.nodup_iff_count_le_one]
  intro i
  rw [Pool.count_sent]
  by_cases hi : ∃ call, (i, call) ∈ w.sent
  · obtain ⟨call, hcall⟩ := hi
    obtain ⟨_, _, _, _, _, _, hone, _⟩ := h.calls i call hcall
    simp [hone]
  · have hnone : w.sentBy i = [] := by
      unfold Pool.sentBy
      rw [List.filterMap_eq_nil_iff]
      rintro ⟨j, call⟩ hmem
      rw [if_neg]
      rintro rfl
      exact hi ⟨call, hmem⟩
    simp [hnone]

/-- The place of a request in an order is one only, so its call is the one that it makes there. -/
theorem Linearized.call_of_split {w : ServerPool} {order : List ℕ}
    (h : Linearized N P D state w order) {before after : List ℕ} {i : ℕ}
    (horder : order = before ++ i :: after) (hi : i ∈ w.sent.map Prod.fst) :
    ∃ a rest, w.slots[i]? = some ⟨a, rest⟩ ∧
      (serve N P D state (serveAll N P D state (w.tasks before)) a).1.call.isSome = true := by
  obtain ⟨⟨j, call⟩, hmem, rfl⟩ := List.mem_map.1 hi
  obtain ⟨a, rest, before', after', hslot, horder', -, hcall⟩ := h.calls j call hmem
  obtain ⟨hnot, hnot'⟩ : j ∉ before' ∧ j ∉ after' := by
    have hnodup := h.nodup
    rw [horder', List.nodup_middle, List.nodup_cons, List.mem_append, not_or] at hnodup
    exact hnodup.1
  obtain ⟨rfl, -⟩ := (List.append_cons_inj_of_notMem hnot hnot').1 (horder'.symm.trans horder)
  exact ⟨a, rest, hslot, by rw [hcall]; rfl⟩

/-- The requests with a call are all in the order. -/
theorem Linearized.sent_subset {w : ServerPool} {order : List ℕ}
    (h : Linearized N P D state w order) : w.sent.map Prod.fst ⊆ order := by
  intro i hi
  obtain ⟨⟨j, call⟩, hmem, rfl⟩ := List.mem_map.1 hi
  obtain ⟨_, _, before, after, -, rfl, -⟩ := h.calls j call hmem
  simp

/-- **A minute sees at most twice the limit go upstream**, for each identity and each route, if along
some order that explains the requests the readings of the limiter do not go back. -/
theorem interleaved_rate {w : ServerPool} {order : List ℕ} (h : Linearized N P D state w order)
    {identity routeId : Str}
    (hreadings : (readingsOf (rateKey identity routeId)
      ((w.tasks order).filterMap (rateCall P D state))).Pairwise (· ≤ ·)) (t : ℕ) :
    forwardedBetween P D state w identity routeId t (t + minute) ≤
      2 * (requestLimit state).toNat := by
  have hcount := (h.nodup_sent.subperm h.sent_subset).countP_le fun i =>
    i ∈ w.sent.map Prod.fst && (w.slots[i]?).any (asked P D state identity routeId t (t + minute))
  have hsent : forwardedBetween P D state w identity routeId t (t + minute) =
      (w.sent.map Prod.fst).countP fun i => i ∈ w.sent.map Prod.fst &&
        (w.slots[i]?).any (asked P D state identity routeId t (t + minute)) := by
    rw [forwardedBetween, List.countP_map]
    refine List.countP_congr fun m hm => ?_
    have hmem : m.1 ∈ w.sent.map Prod.fst := List.mem_map_of_mem hm
    simp [hmem]
  have hadmitted := forwarded_le_admitted (N := N) identity routeId t (t + minute) order
    fun _ _ _ horder hi => h.call_of_split horder hi
  rw [(tracks_limiterRun _ _ _).events] at hadmitted
  rw [hsent]
  exact hcount.trans (hadmitted.trans (FixedWindow.admitted_le_two_mul minute_pos hreadings t))

section

open Sample

/-- Three requests of the client of `alpha` at one reading of the clock, with room for one.  The
first is forwarded; of the other two, the one that comes later is the first at the limiter. -/
theorem interleaved_rate_three : ∃ (w : ServerPool) (order : List ℕ),
    Interleaved platform uriPki pdp oneAMinuteState w ∧
      Linearized platform uriPki pdp oneAMinuteState w order ∧ w.slots.length = 3 ∧
      w.sent.map Prod.fst = [0] ∧
      (readingsOf (rateKey (str "spiffe://alpha/client") (route (str "/v1")).id)
        ((w.tasks order).filterMap (rateCall uriPki pdp oneAMinuteState))).Pairwise (· ≤ ·) ∧
      forwardedBetween uriPki pdp oneAMinuteState w (str "spiffe://alpha/client")
        (route (str "/v1")).id 0 (0 + minute) ≤ 2 * 1 := by
  have hstart : Interleaved platform uriPki pdp oneAMinuteState (Pool.start Memory.start) :=
    Relation.ReflTransGen.refl
  obtain ⟨⟨identity, m⟩, hadmission⟩ :
      ∃ x, serverAdmission uriPki host oneAMinuteState arrival.request arrival.path = .ok x :=
    ⟨_, rfl⟩
  obtain ⟨w, hw, hslots, hsent⟩ :=
    interleaved_overtaken (hstart.handle arrival) arrival laterArrival hadmission
  obtain ⟨order, hlinear⟩ := linear_of_interleaved hw
  -- each request reads the same time, so no order takes the readings back
  have htasks : ∀ a ∈ w.tasks order, a.readings.now = 0 := by
    intro a ha
    obtain ⟨i, -, hi⟩ := List.mem_filterMap.1 ha
    obtain ⟨slot, hslot, rfl⟩ := Option.map_eq_some_iff.1 hi
    have hmem := List.mem_of_getElem? hslot
    rw [hslots] at hmem
    simp only [Pool.start, List.nil_append, List.mem_append, List.mem_cons, List.not_mem_nil,
      or_false] at hmem
    obtain rfl | rfl | rfl := hmem <;> rfl
  have hsorted : (readingsOf (rateKey (str "spiffe://alpha/client") (route (str "/v1")).id)
      ((w.tasks order).filterMap (rateCall uriPki pdp oneAMinuteState))).Pairwise (· ≤ ·) :=
    pairwise_readings_of_same htasks _
  exact ⟨w, order, hw, .of_linear hlinear, by rw [hslots]; rfl, by rw [hsent]; rfl, hsorted,
    interleaved_rate (.of_linear hlinear) hsorted 0⟩

end

end TrustConnector
