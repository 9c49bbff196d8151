/-
**What the log says about the upstream.**

The handler writes one record for each request, when it is over: the status, whether the request was
forwarded, denied, or ended in an error, and why.  An auditor who reads the records of a server wants
to know which requests the upstream has seen.

A record of a forwarded request, and a record of a gate that has stopped one, can be relied on,
however the requests have interleaved.  The records of a timeout cannot: the handler is dropped where
it waits, before or after it has called the upstream, and the record is the same.

Main definitions:

* `endOf`, `completion` — how the handler of a request has ended, and its record.

Main results:

* `log_accounts` — **what the record of a request says about the upstream**;
* `timeout_ambiguous` — **a record of a timeout does not say whether the upstream was called**.
-/

import TrustConnector.ServerPool

set_option relaxedAutoImplicit false
set_option autoImplicit false

namespace TrustConnector

open Text Fallible Http Interleaving

/-- How the handler of a request has ended, if it has: a handler that was stopped by the time limit
has ended in nothing. -/
def endOf (slot : Slot Arrival Memory UpstreamRequest Handled) :
    Option (Option (Except ConnectorProblem Response)) :=
  match slot.rest with
  | none => some none
  | some (.done handled) => some (some handled.result)
  | some _ => none

/-- The record of a request that is over. -/
def completion (fresh : Str) (slot : Slot Arrival Memory UpstreamRequest Handled) :
    Option LogRecord :=
  (endOf slot).map fun ended =>
    (proxyHandler fresh slot.task.request slot.task.path slot.task.query ended).2

variable {N : Platform} {P : Pki} {D : Pdp} {state : ProxyState} {w : ServerPool} {i : ℕ}
  {a : Arrival}

/-- A request that has ended has sent the call that it has ended with. -/
theorem sentBy_of_done (h : Interleaved N P D state w) {handled : Handled}
    (hslot : w.slots[i]? = some ⟨a, some (.done handled)⟩) :
    w.sentBy i = handled.call.toList ∧ ∃ memory, handled = (serve N P D state memory a).1 := by
  obtain ⟨order, hlinear⟩ := linear_of_interleaved h
  rcases hlinear.slots i _ hslot with hahead | hplaced
  · obtain ⟨-, -, p, hrest, -, hnot, -⟩ := hahead
    obtain rfl := Option.some.inj hrest
    exact absurd (View.Quiet.done handled) hnot
  · obtain ⟨before, after, o, -, ho, -, hrest⟩ := hplaced
    obtain ⟨-, hrun⟩ := hrest _ rfl
    obtain ⟨hresult, hsent⟩ := hrun Memory.start memoryView_start
    rw [serverProcess_run] at ho
    rw [ho] at hresult hsent
    simp only [Process.run, List.append_nil] at hresult hsent
    exact ⟨by rw [hsent, hresult], _, hresult⟩

/-- A request that was answered by the upstream has called it. -/
theorem call_of_reply {memory : Memory} {response : Response}
    (h : (serve N P D state memory a).1.result = .ok response) :
    ∃ call, (serve N P D state memory a).1.call = some call := by
  cases hcall : (serve N P D state memory a).1.call with
  | some call => exact ⟨call, rfl⟩
  | none =>
      obtain ⟨problem, hproblem⟩ := (serve_served N P D state memory a).refused hcall
      rw [hproblem] at h
      cases h

/-- A request that has called the upstream and has ended in a problem has failed because of it. -/
theorem unavailable_of_call {memory : Memory} {call : UpstreamRequest} {problem : ConnectorProblem}
    (hmethod : methodFromBytes a.request.method = some a.request.method)
    (hcall : (serve N P D state memory a).1.call = some call)
    (h : (serve N P D state memory a).1.result = .error problem) :
    problem = .upstreamUnavailable := by
  have hserved := serve_served N P D state memory a
  generalize serve N P D state memory a = out at *
  cases hserved with
  | notAdmitted => cases hcall
  | notAuthorized => cases hcall
  | limited => cases hcall
  | notSent => cases hcall
  | forwarded hadmission hpurpose hlimit hrequest =>
      have hsame := (serverRequest_target hrequest).1
      exact sendUpstream_eq_error (by rwa [hsame]) h

/-- The request of a slot has a method that can be sent, as the HTTP server sees to. -/
def HasMethod (slot : Slot Arrival Memory UpstreamRequest Handled) : Prop :=
  methodFromBytes slot.task.request.method = some slot.task.request.method

/-- **What the record of a request says about the upstream**, in every interleaving.  A request that
is recorded as forwarded has called the upstream, once.  A request that is recorded with any problem
has not, unless the problem is that the upstream was not available or that the time was over. -/
theorem log_accounts (h : Interleaved N P D state w)
    {slot : Slot Arrival Memory UpstreamRequest Handled} (hslot : w.slots[i]? = some slot)
    (hmethod : HasMethod slot) {fresh : Str} {record : LogRecord}
    (hrecord : completion fresh slot = some record) :
    (record.outcome = str "forwarded" → ∃ call, w.sentBy i = [call]) ∧
      (record.outcome ≠ str "forwarded" →
        record.problemCode ≠ ConnectorProblem.upstreamUnavailable.code →
        record.problemCode ≠ ConnectorProblem.requestTimeout.code → w.sentBy i = []) := by
  obtain ⟨a, rest⟩ := slot
  cases rest with
  | none =>
      obtain rfl := Option.some.inj hrecord
      obtain ⟨-, hforwarded, -⟩ := proxyHandler_log fresh a.request a.path a.query none
      refine ⟨fun houtcome => ?_, fun _ _ htime => absurd rfl htime⟩
      obtain ⟨response, hended⟩ := hforwarded.1 houtcome
      cases hended
  | some p =>
      cases p with
      | access write next => cases hrecord
      | send message next => cases hrecord
      | wait next => cases hrecord
      | done handled =>
          obtain rfl := Option.some.inj hrecord
          obtain ⟨hsent, memory, rfl⟩ := sentBy_of_done h hslot
          obtain ⟨-, hforwarded, -⟩ := proxyHandler_log fresh a.request a.path a.query
            (some (serve N P D state memory a).1.result)
          rw [hsent]
          constructor
          · intro houtcome
            obtain ⟨response, hended⟩ := hforwarded.1 houtcome
            obtain ⟨call, hcall⟩ := call_of_reply (Option.some.inj hended)
            exact ⟨call, by rw [hcall, Option.toList_some]⟩
          · intro houtcome hcode _
            cases hcall : (serve N P D state memory a).1.call with
            | none => rfl
            | some call =>
                cases hresult : (serve N P D state memory a).1.result with
                | ok response => exact absurd (hforwarded.2 ⟨response, by rw [hresult]⟩) houtcome
                | error problem =>
                    refine absurd ?_ hcode
                    simp only [proxyHandler, hresult, unavailable_of_call hmethod hcall hresult,
                      Option.getD_some, Option.map_some]

section

open Sample

/-- Two requests at once: one is recorded as denied and has not called the upstream, the other is
recorded as forwarded and has. -/
theorem log_accounts_alpha :
    ∃ (w : ServerPool) (denied forwarded : LogRecord) (call : UpstreamRequest),
      Interleaved platform uriPki pdp oneAMinuteState w ∧
        w.slots.map (completion (str "id")) = [some denied, some forwarded] ∧
        denied.problemCode = ConnectorProblem.rateLimited.code ∧
        denied.outcome = str "denied" ∧ w.sentBy 0 = [] ∧
        forwarded.outcome = str "forwarded" ∧ w.sentBy 1 = [call] := by
  obtain ⟨w, handled, hw, hslots, response, hresult⟩ := interleaved_two
  have hmethod : methodFromBytes clientOfAlpha.method = some clientOfAlpha.method := by
    decide +kernel
  have hfirst : w.slots[0]? = some ⟨arrival, some (.done ⟨none, .error .rateLimited⟩)⟩ := by
    rw [hslots]
    rfl
  have hsecond : w.slots[1]? = some ⟨laterArrival, some (.done handled)⟩ := by
    rw [hslots]
    rfl
  have hforwarded : (proxyHandler (str "id") laterArrival.request laterArrival.path
      laterArrival.query (some handled.result)).2.outcome = str "forwarded" := by
    rw [hresult]
    rfl
  obtain ⟨call, hcall⟩ := (log_accounts hw hsecond hmethod rfl).1 hforwarded
  have hrecord : completion (str "id") ⟨arrival, some (.done ⟨none, .error .rateLimited⟩)⟩ =
      some _ := rfl
  have hnone := (log_accounts hw hfirst hmethod hrecord).2 (by decide +kernel) (by decide +kernel)
    (by decide +kernel)
  exact ⟨w, _, _, call, hw, by rw [hslots]; rfl, rfl, rfl, hnone, hforwarded, hcall⟩

end

/-- A request that would call the upstream can be stopped before it has, and after; it leaves the
same memory. -/
theorem serverProcess_stops {memory : Memory} {call : UpstreamRequest}
    (h : (serve N P D state memory a).1.call = some call) :
    ∃ left, (serverProcess N P D state a).Stops memory [] left ∧
      (serverProcess N P D state a).Stops memory [call] left := by
  obtain ⟨identity, m, purpose, hadmission, hpurpose, hlimit, hrequest⟩ :=
    (serve_served N P D state memory a).gates h
  -- both waits come after both locks
  have hlocks : ∀ sent left, (forwardProcess N state a identity m purpose).Stops
      { memory.setCache m.route
          (authorization P D state memory a.readings a.request identity m).2 with
        windows := (limiting state memory a.readings identity m).2 } sent left →
      (serverProcess N P D state a).Stops memory sent left := by
    intro sent left hstops
    simp only [serverProcess, hadmission]
    refine .access ?_
    rw [hpurpose]
    refine .access ?_
    have hlimit' : (limiting state (memory.setCache m.route
        (authorization P D state memory a.readings a.request identity m).2)
          a.readings identity m).1 = .ok () := hlimit
    rw [hlimit']
    exact hstops
  have hbefore : ∀ s, (forwardProcess N state a identity m purpose).Stops s [] s := fun _ => .here
  have hafter : ∀ s, (forwardProcess N state a identity m purpose).Stops s [call] s := by
    intro s
    rw [forwardProcess, hrequest]
    exact .wait (.send .here)
  exact ⟨_, hlocks _ _ (hbefore _), hlocks _ _ (hafter _)⟩

/-- No request has a number that has not been given yet. -/
theorem sentBy_length (h : Interleaved N P D state w) : w.sentBy w.slots.length = [] := by
  obtain ⟨order, hlinear⟩ := linear_of_interleaved h
  rw [Pool.sentBy, List.filterMap_eq_nil_iff]
  intro m hm
  rw [if_neg (hlinear.sent_lt m hm).ne]

/-- **A record of a timeout does not say whether the upstream was called.**  Whatever has gone on
before, a request that would call the upstream can be stopped before it has and after.  The server
has come to the same memory and to the same records. -/
theorem timeout_ambiguous (h : Interleaved N P D state w) {call : UpstreamRequest}
    (hcall : (serve N P D state w.shared a).1.call = some call) :
    ∃ w₁ w₂ : ServerPool, Steps (serverProcess N P D state) w w₁ ∧
      Steps (serverProcess N P D state) w w₂ ∧ w₁.slots = w.slots ++ [⟨a, none⟩] ∧
      w₂.slots = w.slots ++ [⟨a, none⟩] ∧ w₁.shared = w₂.shared ∧
      (∀ fresh, w₁.slots.map (completion fresh) = w₂.slots.map (completion fresh) ∧
        ∃ record, (w₁.slots[w.slots.length]?).bind (completion fresh) = some record ∧
          record.problemCode = ConnectorProblem.requestTimeout.code) ∧
      w₁.sentBy w.slots.length = [] ∧ w₂.sentBy w.slots.length = [call] := by
  obtain ⟨left, hbefore, hafter⟩ := serverProcess_stops hcall
  have hslot : (w.slots ++ [⟨a, some (serverProcess N P D state a)⟩])[w.slots.length]? =
      some ⟨a, some (serverProcess N P D state a)⟩ := List.getElem?_concat_length
  have hset : List.set (w.slots ++ [⟨a, some (serverProcess N P D state a)⟩]) w.slots.length
      ⟨a, none⟩ = w.slots ++ [⟨a, none⟩] := by
    simp
  have hnone := sentBy_length h
  have harrive : Steps (serverProcess N P D state) w _ := .single (Step.arrive w a)
  refine ⟨_, _, harrive.trans (steps_stop _ hbefore hslot),
    harrive.trans (steps_stop _ hafter hslot), hset, hset, rfl, fun fresh => ⟨rfl, ?_⟩, ?_, ?_⟩
  · rw [hset, List.getElem?_concat_length]
    exact ⟨_, rfl, rfl⟩
  · simpa [Pool.sentBy] using hnone
  · simpa [Pool.sentBy] using hnone

section

open Sample

/-- The request of the client of `alpha`, stopped before the call and after it. -/
theorem timeout_ambiguous_alpha :
    ∃ (w₁ w₂ : ServerPool) (call : UpstreamRequest),
      Interleaved platform uriPki pdp serverState w₁ ∧
        Interleaved platform uriPki pdp serverState w₂ ∧
        w₁.slots = [⟨arrival, none⟩] ∧ w₂.slots = [⟨arrival, none⟩] ∧
        w₁.slots.map (completion (str "id")) = w₂.slots.map (completion (str "id")) ∧
        w₁.sentBy 0 = [] ∧ w₂.sentBy 0 = [call] := by
  have hcall : ((serve platform uriPki pdp serverState Memory.start arrival).1.call).isSome =
      true := by
    decide +kernel
  obtain ⟨call, hcall⟩ := Option.isSome_iff_exists.1 hcall
  obtain ⟨w₁, w₂, h₁, h₂, hslots₁, hslots₂, -, hlog, hnone, hsent⟩ :=
    timeout_ambiguous (w := Pool.start Memory.start) Relation.ReflTransGen.refl hcall
  exact ⟨w₁, w₂, call, h₁, h₂, hslots₁, hslots₂, (hlog _).1, hnone, hsent⟩

end

end TrustConnector
