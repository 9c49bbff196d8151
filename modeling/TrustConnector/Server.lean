/-
**The server as a whole.**

The loop of the server takes a permit, accepts a connection, and leaves it to a task of its own,
which holds the permit until the connection is over.  The task makes the TLS handshake and then
serves requests; each request carries the certificates that the peer has shown in the handshake.
Requests of all connections run side by side.  The limit on their number is left to the HTTP library
and is not part of the model: what is shown here holds of any number of them.

Main definitions:

* `AcceptPhase`, `Connection`, `Server` — where the loop is, a connection, and the whole server;
* `Server.Step` — one step of the loop, of a connection or of a request;
* `Server.Invariant` — what holds in every reachable state;
* `Server.advance` — what the loop does by itself.

Main results:

* `Server.Invariant.step`, `Server.invariant_of_run` — **one step, and any run**;
* `Server.run_bounds` — permits are neither lost nor made, so connections stay below their limit, and
  the loop waits only while the server is full;
* `Server.run_accepts` — **the loop accepts connections exactly as long as there is room**;
* `Server.run_authentic` — **every request that goes upstream came over a connection whose peer
  showed the very chain that was checked**, and no request ends for want of a certificate.
-/

import TrustConnector.Availability
import TrustConnector.Startup

set_option relaxedAutoImplicit false
set_option autoImplicit false

namespace TrustConnector

open Text Fallible Http Interleaving

/-! ### The server -/

/-- Where the loop of the server is. -/
inductive AcceptPhase where
  /-- It waits for a permit. -/
  | acquiring
  /-- It holds a permit and waits for a connection. -/
  | accepting
  /-- A connection could not be accepted; the permit is back, and the loop pauses. -/
  | backingOff
  deriving DecidableEq, Repr

/-- A connection: what the peer has shown in the handshake, once it is over, and whether its task,
with its permit, is still there. -/
structure Connection where
  chain : Option (List Str)
  isOpen : Bool
  deriving DecidableEq, Repr

/-- The server. -/
structure Server where
  phase : AcceptPhase
  /-- The permits that nobody holds. -/
  permits : ℕ
  connections : List Connection
  requests : ServerPool
  /-- The connection that each request came over. -/
  carriers : List ℕ

/-- The server when it begins to listen. -/
def Server.start (limits : LimitsConfig) : Server :=
  ⟨.acquiring, limits.maxConcurrentConnections, [], Pool.start Memory.start, []⟩

/-- How many connections are open. -/
def Server.opened (s : Server) : ℕ := s.connections.countP Connection.isOpen

/-- The permit that the loop holds. -/
def AcceptPhase.held : AcceptPhase → ℕ
  | .accepting => 1
  | .acquiring | .backingOff => 0

variable (N : Platform) (P : Pki) (D : Pdp) (started : StartedServer)

/-- **One step of the server.** -/
inductive Server.Step : Server → Server → Prop
  | acquire {s : Server} (hphase : s.phase = .acquiring) (hpermits : 0 < s.permits) :
      Step s { s with phase := .accepting, permits := s.permits - 1 }
  | accept {s : Server} (hphase : s.phase = .accepting) :
      Step s { s with phase := .acquiring, connections := s.connections ++ [⟨none, true⟩] }
  | acceptFailed {s : Server} (hphase : s.phase = .accepting) :
      Step s { s with phase := .backingOff, permits := s.permits + 1 }
  | wake {s : Server} (hphase : s.phase = .backingOff) : Step s { s with phase := .acquiring }
  | handshake {s : Server} {k : ℕ} {H : Host} {chain : List Str}
      (hconnection : s.connections[k]? = some ⟨none, true⟩)
      (haccept : started.tls.acceptClient P H chain = .ok ()) :
      Step s { s with connections := s.connections.set k ⟨some chain, true⟩ }
  /-- The handshake fails or takes too long, or the connection is over; the requests of a connection
  that is over have ended or are stopped. -/
  | hangUp {s : Server} {k : ℕ} {chain : Option (List Str)}
      (hconnection : s.connections[k]? = some ⟨chain, true⟩)
      (hidle : ∀ (i : ℕ) (slot : Slot Arrival Memory UpstreamRequest Handled),
        s.requests.slots[i]? = some slot → s.carriers[i]? = some k → slot.running = false) :
      Step s { s with
        permits := s.permits + 1
        connections := s.connections.set k ⟨chain, false⟩ }
  | request {s : Server} {k : ℕ} {chain : List Str} {a : Arrival}
      (hconnection : s.connections[k]? = some ⟨some chain, true⟩)
      (hchain : a.request.chain = some chain) :
      Step s { s with
        requests := { s.requests with
          slots := s.requests.slots ++ [⟨a, some (serverProcess N P D started.state a)⟩] }
        carriers := s.carriers ++ [k] }
  /-- A request takes its next step, or its time runs out. -/
  | work {s : Server} {w : ServerPool}
      (hstep : Interleaving.Step (serverProcess N P D started.state) s.requests w)
      (hlength : w.slots.length = s.requests.slots.length) :
      Step s { s with requests := w }

/-- What the server comes to, from the moment it listens. -/
def Server.Run (s : Server) : Prop :=
  Relation.ReflTransGen (Server.Step N P D started)
    (Server.start started.state.config.limits) s

/-! ### The invariant -/

/-- A request came over a connection that has shown its certificates, and that is open as long as
the request runs. -/
def Server.Carried (s : Server) (i : ℕ) (slot : Slot Arrival Memory UpstreamRequest Handled) :
    Prop :=
  ∃ k connection, s.carriers[i]? = some k ∧ s.connections[k]? = some connection ∧
    connection.chain.isSome = true ∧ slot.task.request.chain = connection.chain ∧
    (slot.running = true → connection.isOpen = true)

/-- **What holds in every state of the server.** -/
structure Server.Invariant (s : Server) : Prop where
  /-- No permit is lost, and none is made. -/
  permits : s.permits + s.phase.held + s.opened =
    started.state.config.limits.maxConcurrentConnections
  /-- The requests run as requests do. -/
  requests : Interleaved N P D started.state s.requests
  carriers : s.carriers.length = s.requests.slots.length
  carried : ∀ i slot, s.requests.slots[i]? = some slot → s.Carried i slot
  /-- Who has shown certificates has passed the handshake with them. -/
  vouched : ∀ connection ∈ s.connections, ∀ chain ∈ connection.chain,
    ∃ H, started.tls.acceptClient P H chain = .ok ()

variable {N P D started}

theorem Server.invariant_start :
    Server.Invariant N P D started (Server.start started.state.config.limits) := by
  refine ⟨?_, Relation.ReflTransGen.refl, rfl, ?_, ?_⟩
  · simp [Server.start, Server.opened, AcceptPhase.held]
  · simp [Server.start, Pool.start]
  · simp [Server.start]

/-- A connection that changes without being closed under a running request carries its requests
as before. -/
theorem Server.Carried.set {s : Server} {i k : ℕ} {connection : Connection}
    {slot : Slot Arrival Memory UpstreamRequest Handled} (h : s.Carried i slot)
    (hk : s.connections[k]? = some connection) (connection' : Connection)
    (hchain : connection.chain.isSome = true → connection'.chain = connection.chain)
    (hopen : slot.running = true → s.carriers[i]? = some k → connection'.isOpen = true)
    (permits : ℕ) :
    Server.Carried
      { s with permits := permits, connections := s.connections.set k connection' } i slot := by
  obtain ⟨j, old, hcarrier, hold, hsome, hslot, hrunning⟩ := h
  by_cases hjk : j = k
  · subst hjk
    obtain ⟨hlt, -⟩ := List.getElem?_eq_some_iff.1 hk
    obtain rfl : old = connection := Option.some.inj (hold.symm.trans hk)
    refine ⟨j, connection', hcarrier, List.getElem?_set_self hlt, ?_, ?_, fun h => hopen h hcarrier⟩
    · rw [hchain hsome]
      exact hsome
    · rw [hslot, hchain hsome]
  · refine ⟨j, old, hcarrier, ?_, hsome, hslot, hrunning⟩
    rw [List.getElem?_set_ne (Ne.symm hjk)]
    exact hold

theorem Server.vouched_set {connections : List Connection} {k : ℕ} {connection : Connection}
    {S : List Str → Prop} (h : ∀ c ∈ connections, ∀ chain ∈ c.chain, S chain)
    (hnew : ∀ chain ∈ connection.chain, S chain) :
    ∀ c ∈ connections.set k connection, ∀ chain ∈ c.chain, S chain := by
  intro c hc
  rcases List.mem_or_eq_of_mem_set hc with hc | rfl
  · exact h c hc
  · exact hnew

/-- Counting after one of the counted has been replaced. -/
theorem countP_set_add_one {α : Type*} {p : α → Bool} {l : List α} {i : ℕ} {a : α}
    (h : l[i]? = some a) (ha : p a = true) (b : α) :
    (l.set i b).countP p + 1 = l.countP p + if p b = true then 1 else 0 := by
  obtain ⟨hlt, hi⟩ := List.getElem?_eq_some_iff.1 h
  have hpos : 0 < l.countP p := List.countP_pos_iff.2 ⟨a, List.mem_of_getElem? h, ha⟩
  rw [List.countP_set hlt, hi, if_pos ha]
  split_ifs <;> omega

/-- Counting where whatever is counted in one list is counted at its place in another. -/
theorem countP_le_of_getElem? {α : Type*} {p : α → Bool} {l l' : List α}
    (h : ∀ (k : ℕ) (a : α), l[k]? = some a → p a = true → ∃ a', l'[k]? = some a' ∧ p a' = true) :
    l.countP p ≤ l'.countP p := by
  induction l generalizing l' with
  | nil => simp
  | cons a l ih =>
      cases l' with
      | nil =>
          refine (List.countP_eq_zero.2 fun b hb hpb => ?_).le
          obtain ⟨k, hk⟩ := List.getElem?_of_mem hb
          obtain ⟨b', hb', -⟩ := h k b hk hpb
          cases hb'
      | cons a' l' =>
          have hrest : l.countP p ≤ l'.countP p := ih fun k b hb hpb => h (k + 1) b hb hpb
          have hhead : p a = true → p a' = true := by
            intro hpa
            obtain ⟨b, hb, hpb⟩ := h 0 a rfl hpa
            obtain rfl := Option.some.inj hb
            exact hpb
          rw [List.countP_cons, List.countP_cons]
          split_ifs with hpa hpa'
          · omega
          · exact absurd (hhead hpa) hpa'
          · omega
          · omega

section

variable {s : Server} (h : Server.Invariant N P D started s)

include h

/-- The loop goes on without losing a permit. -/
theorem Server.Invariant.turn {phase : AcceptPhase} {permits : ℕ}
    (hpermits : permits + phase.held = s.permits + s.phase.held) :
    Server.Invariant N P D started { s with phase, permits } := by
  refine ⟨?_, h.requests, h.carriers, h.carried, h.vouched⟩
  have hkept := h.permits
  simp only [Server.opened] at hkept ⊢
  omega

/-- The permit of the loop goes over to the new connection. -/
theorem Server.Invariant.accept (hphase : s.phase = .accepting) :
    Server.Invariant N P D started
      { s with phase := .acquiring, connections := s.connections ++ [⟨none, true⟩] } := by
  refine ⟨?_, h.requests, h.carriers, ?_, ?_⟩
  · have hpermits := h.permits
    simp only [hphase, AcceptPhase.held, Server.opened, List.countP_append] at hpermits ⊢
    simp only [List.countP_singleton, if_true]
    omega
  · intro i slot hslot
    obtain ⟨k, connection, hcarrier, hconnection, hrest⟩ := h.carried i slot hslot
    have hlt := (List.getElem?_eq_some_iff.1 hconnection).1
    exact ⟨k, connection, hcarrier, (List.getElem?_append_left hlt).trans hconnection, hrest⟩
  · intro connection hconnection
    rcases List.mem_append.1 hconnection with hold | hnew
    · exact h.vouched connection hold
    · rw [List.mem_singleton.1 hnew]
      simp

/-- A connection has shown its certificates in the handshake. -/
theorem Server.Invariant.handshake {k : ℕ} {H : Host} {chain : List Str}
    (hconnection : s.connections[k]? = some ⟨none, true⟩)
    (haccept : started.tls.acceptClient P H chain = .ok ()) :
    Server.Invariant N P D started
      { s with connections := s.connections.set k ⟨some chain, true⟩ } := by
  refine ⟨?_, h.requests, h.carriers, ?_, ?_⟩
  · have hpermits := h.permits
    have hopened := countP_set_add_one (p := Connection.isOpen) hconnection rfl
      ⟨some chain, true⟩
    simp only [Server.opened, if_true] at hopened hpermits ⊢
    omega
  · intro i slot hslot
    exact (h.carried i slot hslot).set hconnection ⟨some chain, true⟩ (by simp) (fun _ _ => rfl)
      s.permits
  · refine Server.vouched_set h.vouched ?_
    rintro chain' ⟨rfl⟩
    exact ⟨H, haccept⟩

/-- The permit of a connection that is over is free again, and none of its requests runs. -/
theorem Server.Invariant.hangUp {k : ℕ} {chain : Option (List Str)}
    (hconnection : s.connections[k]? = some ⟨chain, true⟩)
    (hidle : ∀ (i : ℕ) (slot : Slot Arrival Memory UpstreamRequest Handled),
      s.requests.slots[i]? = some slot → s.carriers[i]? = some k → slot.running = false) :
    Server.Invariant N P D started
      { s with permits := s.permits + 1, connections := s.connections.set k ⟨chain, false⟩ } := by
  refine ⟨?_, h.requests, h.carriers, ?_, ?_⟩
  · have hpermits := h.permits
    have hopened := countP_set_add_one (p := Connection.isOpen) hconnection rfl ⟨chain, false⟩
    simp only [Server.opened, Bool.false_eq_true, if_false] at hopened hpermits ⊢
    omega
  · intro i slot hslot
    refine (h.carried i slot hslot).set hconnection ⟨chain, false⟩ (fun _ => rfl) ?_
      (s.permits + 1)
    intro hrunning hcarrier
    rw [hidle i slot hslot hcarrier] at hrunning
    cases hrunning
  · have hshown := h.vouched _ (List.mem_of_getElem? hconnection)
    exact Server.vouched_set h.vouched hshown

/-- A request carries the certificates of the connection that it comes over. -/
theorem Server.Invariant.request {k : ℕ} {chain : List Str} {a : Arrival}
    (hconnection : s.connections[k]? = some ⟨some chain, true⟩)
    (hchain : a.request.chain = some chain) :
    Server.Invariant N P D started { s with
      requests := { s.requests with
        slots := s.requests.slots ++ [⟨a, some (serverProcess N P D started.state a)⟩] }
      carriers := s.carriers ++ [k] } := by
  refine ⟨h.permits, h.requests.tail (Interleaving.Step.arrive _ a), by simp [h.carriers], ?_,
    h.vouched⟩
  intro i slot hslot
  rcases Nat.lt_or_ge i s.requests.slots.length with hlt | hge
  · rw [List.getElem?_append_left hlt] at hslot
    obtain ⟨j, connection, hcarrier, hrest⟩ := h.carried i slot hslot
    have hlt' := (List.getElem?_eq_some_iff.1 hcarrier).1
    exact ⟨j, connection, (List.getElem?_append_left hlt').trans hcarrier, hrest⟩
  · rw [List.getElem?_append_right hge, List.getElem?_singleton] at hslot
    split_ifs at hslot with hi
    obtain rfl := Option.some.inj hslot
    refine ⟨k, _, ?_, hconnection, rfl, hchain, fun _ => rfl⟩
    have hge' : s.carriers.length ≤ i := h.carriers ▸ hge
    rw [List.getElem?_append_right hge', h.carriers, hi]
    rfl

/-- A request goes on over its connection, and one that has ended does not run again. -/
theorem Server.Invariant.work {w : ServerPool}
    (hstep : Interleaving.Step (serverProcess N P D started.state) s.requests w)
    (hlength : w.slots.length = s.requests.slots.length) :
    Server.Invariant N P D started { s with requests := w } := by
  refine ⟨h.permits, h.requests.tail hstep, by rw [h.carriers, hlength], ?_, h.vouched⟩
  intro i slot' hslot'
  obtain ⟨slot, hslot, htask, hrunning⟩ := hstep.slot_of_slot hlength hslot'
  obtain ⟨k, connection, hcarrier, hconnection, hsome, hchain, hopen⟩ := h.carried i slot hslot
  refine ⟨k, connection, hcarrier, hconnection, hsome, ?_, fun hr => hopen (hrunning hr)⟩
  rw [← htask]
  exact hchain

/-- **One step keeps the invariant.** -/
theorem Server.Invariant.step {s' : Server} (hstep : Server.Step N P D started s s') :
    Server.Invariant N P D started s' := by
  cases hstep with
  | acquire hphase hfree => exact h.turn (by simp only [hphase, AcceptPhase.held]; omega)
  | accept hphase => exact h.accept hphase
  | acceptFailed hphase => exact h.turn (by rw [hphase]; rfl)
  | wake hphase => exact h.turn (by rw [hphase]; rfl)
  | handshake hconnection haccept => exact h.handshake hconnection haccept
  | hangUp hconnection hidle => exact h.hangUp hconnection hidle
  | request hconnection hchain => exact h.request hconnection hchain
  | work hwork hlength => exact h.work hwork hlength

end

/-- **Every run keeps the invariant.** -/
theorem Server.invariant_of_run {s : Server} (h : Server.Run N P D started s) :
    Server.Invariant N P D started s := by
  induction h with
  | refl => exact Server.invariant_start
  | tail _ hstep ih => exact ih.step hstep

/-! ### Requests that end -/

/-- What requests do without new ones is what the server can do. -/
theorem Server.steps_work {s : Server} {w : ServerPool}
    (h : Interleaving.Steps (serverProcess N P D started.state) s.requests w)
    (hlength : w.slots.length = s.requests.slots.length) :
    Relation.ReflTransGen (Server.Step N P D started) s { s with requests := w } := by
  induction h with
  | refl => exact Relation.ReflTransGen.refl
  | @tail w w' hsteps hstep ih =>
      -- the number of requests only grows, and it is the same at both ends
      have hfirst := Interleaving.Steps.length_le hsteps
      have hlast := hstep.length_le
      exact (ih (by omega)).tail (Server.Step.work hstep (by dsimp only; omega))

/-- A request can be brought to its end. -/
theorem Server.finish {s : Server} {i : ℕ} {a : Arrival}
    {p : Process Memory UpstreamRequest Handled}
    (h : s.requests.slots[i]? = some ⟨a, some p⟩) :
    Relation.ReflTransGen (Server.Step N P D started) s
      { s with requests :=
        { shared := (p.run s.requests.shared).left
          slots := s.requests.slots.set i ⟨a, some (.done (p.run s.requests.shared).result)⟩
          sent := s.requests.sent ++ (p.run s.requests.shared).sent.map (Prod.mk i) } } :=
  Server.steps_work (steps_run _ p h) (by simp)

section

open Sample

/-- A run of the sample server: the client of `alpha` connects, and its request is forwarded. -/
theorem Sample.server_run : ∃ s, Server.Run platform uriPki pdp startedServer s ∧
    s.opened = 1 ∧ s.phase = .acquiring ∧ s.requests.sent.length = 1 := by
  have haccept : startedServer.tls.acceptClient uriPki host alphaChain = .ok () := by
    decide +kernel
  have hlisten : Server.Run platform uriPki pdp startedServer _ := Relation.ReflTransGen.refl
  have hpermit := hlisten.tail (Server.Step.acquire rfl (by decide))
  have hconnection := hpermit.tail (Server.Step.accept rfl)
  have hshaken := hconnection.tail (Server.Step.handshake (k := 0) rfl haccept)
  have harrived := hshaken.tail (Server.Step.request (k := 0) (a := arrival) rfl rfl)
  have hended := harrived.trans (Server.finish (i := 0) rfl)
  refine ⟨_, hended, rfl, rfl, ?_⟩
  have hcall : (serve platform uriPki pdp startedServer.state Memory.start arrival).1.call.isSome =
      true := by
    decide +kernel
  simp only [Server.start, Pool.start, List.nil_append, List.length_map, serverProcess_run,
    Option.length_toList, hcall, if_true]

end

/-! ### What the invariant says -/

/-- **Permits are neither lost nor made.**  However connections and requests end, the server never
has more connections than its limit allows; and while its loop waits for a permit in vain, it has as
many connections as it may, and at least one. -/
theorem Server.run_bounds {H₀ : Host} {M : Machine} {path : Str} {config : ConnectorConfig}
    {s : Server} (hstart : startServer P H₀ M path config = .ok started)
    (h : Server.Run N P D started s) :
    s.permits + s.phase.held + s.opened = config.limits.maxConcurrentConnections ∧
      (s.phase = .acquiring → s.permits = 0 →
        s.opened = config.limits.maxConcurrentConnections ∧ 0 < s.opened) := by
  have hfrom := startServer_eq_ok_iff.1 hstart
  obtain ⟨-, hpositive, -⟩ := limits_of_accepted hfrom.valid
  have hpermits := (Server.invariant_of_run h).permits
  rw [ProxyState.server_config hfrom.state] at hpermits
  refine ⟨hpermits, fun hphase hnone => ?_⟩
  rw [hphase, hnone, AcceptPhase.held] at hpermits
  omega

section

open Sample

/-- The sample configuration, with room for one connection. -/
def Sample.narrowConfig : ConnectorConfig :=
  { tcpConfig with limits := { tcpConfig.limits with maxConcurrentConnections := 1 } }

/-- The server with room for one connection, started. -/
def Sample.narrowServer : StartedServer :=
  { startedServer with state := ⟨narrowConfig, some (policyOf uriPki narrowConfig), some ()⟩ }

theorem Sample.startServer_narrowConfig :
    startServer uriPki host machine (str "connector.yaml") narrowConfig = .ok narrowServer :=
  startServer_eq_ok_iff.2 ⟨rfl, by decide +kernel, rfl, rfl, rfl, by decide, rfl, by decide⟩

/-- The narrow server accepts a connection, and its loop waits for another permit. -/
theorem Sample.narrow_run : ∃ s, Server.Run platform uriPki pdp narrowServer s ∧
    s.phase = .acquiring ∧ s.permits = 0 ∧ s.connections.length = 1 := by
  have hlisten : Server.Run platform uriPki pdp narrowServer _ := Relation.ReflTransGen.refl
  have hpermit := hlisten.tail (Server.Step.acquire rfl (by decide))
  exact ⟨_, hpermit.tail (Server.Step.accept rfl), rfl, rfl, rfl⟩

/-- With its connection the narrow server is full. -/
theorem run_bounds_narrow : ∃ s, Server.Run platform uriPki pdp narrowServer s ∧
    s.phase = .acquiring ∧ s.permits = 0 ∧
    s.permits + s.phase.held + s.opened = narrowConfig.limits.maxConcurrentConnections ∧
    s.opened = 1 := by
  obtain ⟨s, hrun, hphase, hnone, -⟩ := narrow_run
  obtain ⟨hpermits, hfull⟩ := Server.run_bounds startServer_narrowConfig hrun
  exact ⟨s, hrun, hphase, hnone, hpermits, (hfull hphase hnone).1⟩

end

/-! ### The loop -/

/-- **What the loop does by itself**: it wakes up, and it takes a permit if there is one. -/
def Server.advance (s : Server) : Server :=
  match s.phase with
  | .backingOff => { s with phase := .acquiring }
  | .acquiring =>
      if 0 < s.permits then { s with phase := .accepting, permits := s.permits - 1 } else s
  | .accepting => s

theorem Server.advance_steps (s : Server) :
    Relation.ReflTransGen (Server.Step N P D started) s s.advance := by
  unfold Server.advance
  split
  · next hphase => exact .single (Server.Step.wake hphase)
  · next hphase =>
      split_ifs with hfree
      · exact .single (Server.Step.acquire hphase hfree)
      · exact .refl
  · exact .refl

theorem Server.advance_keeps (s : Server) :
    s.advance.connections = s.connections ∧ s.advance.requests = s.requests := by
  unfold Server.advance
  split
  · exact ⟨rfl, rfl⟩
  · split_ifs <;> exact ⟨rfl, rfl⟩
  · exact ⟨rfl, rfl⟩

/-- The loop comes to accept a connection if there is a permit for it, or it has one already. -/
theorem Server.advance_accepting_iff (s : Server) :
    s.advance.advance.phase = .accepting ↔ 0 < s.permits + s.phase.held := by
  cases hphase : s.phase <;> by_cases hfree : 0 < s.permits <;>
    simp [Server.advance, AcceptPhase.held, hphase, hfree]

/-- Every connection that is open in one state is open in another. -/
def Server.StaysOpen (s s' : Server) : Prop :=
  ∀ (k : ℕ) (c : Connection), s.connections[k]? = some c → c.isOpen = true →
    ∃ c', s'.connections[k]? = some c' ∧ c'.isOpen = true

theorem Server.StaysOpen.opened_le {s s' : Server} (h : s.StaysOpen s') :
    s.opened ≤ s'.opened := countP_le_of_getElem? h

/-- A connection that is over stays over. -/
theorem Server.Step.was_open {s s' : Server} (h : Server.Step N P D started s s') {k : ℕ}
    {c c' : Connection} (hc : s.connections[k]? = some c) (hc' : s'.connections[k]? = some c')
    (hopen : c'.isOpen = true) : c.isOpen = true := by
  have hsame : s.connections[k]? = some c' → c.isOpen = true := by
    intro hsame
    obtain rfl := Option.some.inj (hc.symm.trans hsame)
    exact hopen
  cases h with
  | acquire | acceptFailed | wake | request | work => exact hsame hc'
  | accept =>
      have hlt := (List.getElem?_eq_some_iff.1 hc).1
      exact hsame ((List.getElem?_append_left hlt).symm.trans hc')
  | @handshake j _ _ hconnection =>
      by_cases hkj : k = j
      · subst hkj
        obtain rfl := Option.some.inj (hc.symm.trans hconnection)
        rfl
      · exact hsame (by rwa [List.getElem?_set_ne (Ne.symm hkj)] at hc')
  | @hangUp j _ hconnection =>
      by_cases hkj : k = j
      · subst hkj
        obtain rfl := Option.some.inj (hc.symm.trans hconnection)
        rfl
      · exact hsame (by rwa [List.getElem?_set_ne (Ne.symm hkj)] at hc')

/-- There are more connections only if the loop accepts one. -/
theorem Server.Step.length_connections {s s' : Server} (h : Server.Step N P D started s s') :
    s.connections.length ≤ s'.connections.length ∧
      (s.phase ≠ .accepting → s'.connections.length = s.connections.length) := by
  cases h with
  | accept hphase => exact ⟨by simp, fun hnot => absurd hphase hnot⟩
  | acquire | acceptFailed | wake | request | work => exact ⟨le_rfl, fun _ => rfl⟩
  | handshake | hangUp => simp

/-- While as many connections as there may be stay open, no other one is accepted. -/
theorem Server.full_of_staysOpen {s s' : Server} (h : Server.Run N P D started s)
    (hfull : s.opened = started.state.config.limits.maxConcurrentConnections)
    (hsteps : Relation.ReflTransGen (Server.Step N P D started) s s') (hopen : s.StaysOpen s') :
    s'.phase ≠ .accepting ∧ s'.connections.length = s.connections.length := by
  have hphase : ∀ t, Relation.ReflTransGen (Server.Step N P D started) s t → s.StaysOpen t →
      t.phase ≠ .accepting := by
    intro t ht hstays haccepting
    have hpermits := (Server.invariant_of_run (h.trans ht)).permits
    have hopened := hstays.opened_le
    rw [haccepting, AcceptPhase.held] at hpermits
    omega
  refine ⟨hphase s' hsteps hopen, ?_⟩
  -- backwards along the run: what is open at its end was open all the time
  induction hsteps with
  | refl => rfl
  | @tail t s' hsteps hstep ih =>
      have hlength : s.connections.length ≤ t.connections.length := by
        clear ih hopen hstep
        induction hsteps with
        | refl => exact le_rfl
        | tail _ hstep ih => exact ih.trans hstep.length_connections.1
      have hstays : s.StaysOpen t := by
        intro k c hc hcopen
        obtain ⟨c', hc', hopen'⟩ := hopen k c hc hcopen
        have hlt := (List.getElem?_eq_some_iff.1 hc).1
        have hmid := List.getElem?_eq_getElem (hlt.trans_le hlength)
        exact ⟨_, hmid, hstep.was_open hmid hc' hopen'⟩
      rw [hstep.length_connections.2 (hphase t hsteps hstays), ih hstays]

/-- **The loop accepts connections exactly as long as there is room.**  Whatever has happened, the
loop comes to accept the next connection by itself, without the end of a connection or of a request,
if and only if fewer connections are open than there may be.  While as many as that stay open,
nothing lets it accept another one. -/
theorem Server.run_accepts {H₀ : Host} {M : Machine} {path : Str} {config : ConnectorConfig}
    {s : Server} (hstart : startServer P H₀ M path config = .ok started)
    (h : Server.Run N P D started s) :
    (Relation.ReflTransGen (Server.Step N P D started) s s.advance.advance ∧
      s.advance.advance.connections = s.connections ∧
      s.advance.advance.requests = s.requests ∧
      (s.advance.advance.phase = .accepting ↔
        s.opened < config.limits.maxConcurrentConnections)) ∧
    (s.opened = config.limits.maxConcurrentConnections →
      ∀ s', Relation.ReflTransGen (Server.Step N P D started) s s' → s.StaysOpen s' →
        s'.phase ≠ .accepting ∧ s'.connections.length = s.connections.length) := by
  have hconfig := ProxyState.server_config (startServer_eq_ok_iff.1 hstart).state
  have hpermits := (Server.invariant_of_run h).permits
  rw [hconfig] at hpermits
  refine ⟨⟨s.advance_steps.trans s.advance.advance_steps, ?_, ?_, ?_⟩, ?_⟩
  · rw [s.advance.advance_keeps.1, s.advance_keeps.1]
  · rw [s.advance.advance_keeps.2, s.advance_keeps.2]
  · rw [Server.advance_accepting_iff]
    omega
  · intro hfull s' hsteps hopen
    exact Server.full_of_staysOpen h (by rw [hconfig, hfull]) hsteps hopen

section

open Sample

/-- The narrow server accepts a first connection, and no second one while the first is there. -/
theorem run_accepts_narrow :
    (Server.start narrowConfig.limits).advance.advance.phase = .accepting ∧
      ∃ s, Server.Run platform uriPki pdp narrowServer s ∧ s.connections.length = 1 ∧
        s.opened = 1 ∧ s.advance.advance.phase ≠ .accepting ∧
        ∀ s', Relation.ReflTransGen (Server.Step platform uriPki pdp narrowServer) s s' →
          s.StaysOpen s' → s'.connections.length = 1 := by
  have hlisten : Server.Run platform uriPki pdp narrowServer (Server.start narrowConfig.limits) :=
    Relation.ReflTransGen.refl
  refine ⟨(Server.run_accepts startServer_narrowConfig hlisten).1.2.2.2.2 (by decide), ?_⟩
  obtain ⟨s, hrun, hphase, hnone, hlength⟩ := narrow_run
  have hopened : s.opened = 1 := by
    have hpermits : s.permits + s.phase.held + s.opened = 1 := (Server.invariant_of_run hrun).permits
    rw [hphase, hnone, AcceptPhase.held] at hpermits
    omega
  obtain ⟨⟨-, -, -, hiff⟩, hfull⟩ := Server.run_accepts startServer_narrowConfig hrun
  refine ⟨s, hrun, hlength, hopened, fun haccepting => ?_, fun s' hsteps hstays => ?_⟩
  · have hroom : s.opened < 1 := hiff.1 haccepting
    omega
  · rw [(hfull hopened s' hsteps hstays).2, hlength]

end

/-! ### Whom the requests are from -/

/-- The problem is not a missing certificate. -/
def Identified (problem : ConnectorProblem) : Prop := problem ≠ .clientIdentityMissing

theorem identified_of_late {α : Type} {x : Except ConnectorProblem α} (h : FailsIn Late x) :
    FailsIn Identified x := by
  rintro problem hx rfl
  cases h _ hx

theorem identified_of_aboutPurpose {problem : ConnectorProblem} (h : AboutPurpose problem) :
    Identified problem := by
  rintro rfl
  cases h

/-- A request with certificates is refused at the first gates for another reason than that it has
none. -/
theorem serverAdmission_identified {H : Host} {state : ProxyState} {request : Request} {path : Str}
    (h : request.chain.isSome = true) :
    FailsIn Identified (serverAdmission P H state request path) := by
  obtain ⟨chain, hchain⟩ := Option.isSome_iff_exists.1 h
  unfold serverAdmission
  rw [hchain]
  refine FailsIn.chain (FailsIn.ok chain) fun chain => ?_
  refine FailsIn.chain (FailsIn.okOr (by simp [Identified]) _) fun trust => ?_
  refine FailsIn.chain (FailsIn.mapError (fun _ => by simp [Identified]) _) fun identity => ?_
  refine FailsIn.chain (FailsIn.ensure (by simp [Identified]) _) fun _ => ?_
  exact FailsIn.chain (FailsIn.mapError (fun _ => by simp [Identified]) _) fun m => FailsIn.ok _

/-- **A request with certificates does not end for want of one.** -/
theorem serve_identified {state : ProxyState} {memory : Memory} {a : Arrival}
    (h : a.request.chain.isSome = true) :
    FailsIn Identified (serve N P D state memory a).1.result := by
  have hserved := serve_served N P D state memory a
  generalize serve N P D state memory a = out at hserved
  intro problem hresult
  cases hserved with
  | notAdmitted hadmission =>
      obtain rfl := Except.error.inj hresult
      exact serverAdmission_identified h _ hadmission
  | notAuthorized _ hpurpose =>
      obtain rfl := Except.error.inj hresult
      exact identified_of_aboutPurpose (authorizeServerPurpose_aboutPurpose _ _ _ _ _ _ _ hpurpose)
  | limited _ _ hlimit =>
      obtain rfl := Except.error.inj hresult
      exact identified_of_late (check_late _ _ _ _ _) _ hlimit
  | notSent _ _ _ hrequest =>
      obtain rfl := Except.error.inj hresult
      exact identified_of_late serverRequest_late _ hrequest
  | forwarded => exact identified_of_late (sendUpstream_late _ _) _ hresult

/-- **Every request that goes upstream came over a connection whose peer showed the very chain that
was checked**, in a handshake that succeeded, and passed all gates; and no request ends for want of
a certificate. -/
theorem Server.run_authentic {H₀ : Host} {M : Machine} {path : Str} {config : ConnectorConfig}
    {s : Server} (hstart : startServer P H₀ M path config = .ok started)
    (h : Server.Run N P D started s) :
    (∀ i call, (i, call) ∈ s.requests.sent → ∃ a rest k connection chain memory identity m,
        s.requests.slots[i]? = some ⟨a, rest⟩ ∧ s.carriers[i]? = some k ∧
        s.connections[k]? = some connection ∧ connection.chain = some chain ∧
        a.request.chain = some chain ∧ (∃ H, started.tls.acceptClient P H chain = .ok ()) ∧
        Reachable N P D started.state memory ∧
        Mediated P a.host D started.state memory a.readings a.request a.path call identity m) ∧
      ∀ (i : ℕ) (a : Arrival) (handled : Handled),
        s.requests.slots[i]? = some ⟨a, some (.done handled)⟩ →
          handled.result ≠ .error .clientIdentityMissing := by
  have hfrom := startServer_eq_ok_iff.1 hstart
  have hinv := Server.invariant_of_run h
  obtain ⟨order, hlinear⟩ := linear_of_interleaved hinv.requests
  have hlinearized := Linearized.of_linear hlinear
  constructor
  · intro i call hsent
    obtain ⟨a, rest, memory, identity, m, hslot, hreachable, hmediated⟩ :=
      mediated_of_sent hfrom.valid hfrom.state hlinearized hsent
    obtain ⟨k, connection, hcarrier, hconnection, hsome, hchain, -⟩ := hinv.carried i _ hslot
    obtain ⟨chain, hshown⟩ := Option.isSome_iff_exists.1 hsome
    exact ⟨a, rest, k, connection, chain, memory, identity, m, hslot, hcarrier, hconnection, hshown,
      hchain.trans hshown, hinv.vouched connection (List.mem_of_getElem? hconnection) chain hshown,
      hreachable, hmediated⟩
  · intro i a handled hslot
    obtain ⟨k, connection, -, -, hsome, hchain, -⟩ := hinv.carried i _ hslot
    obtain ⟨before, after, -, rfl⟩ := hlinearized.ended i a handled hslot
    have hcertified : a.request.chain.isSome = true := by
      rw [hchain]
      exact hsome
    intro hmissing
    exact serve_identified hcertified _ hmissing rfl

/-- The request of the client of `alpha` that goes upstream. -/
theorem run_authentic_alpha : ∃ s i call a connection, Server.Run Sample.platform Sample.uriPki
      Sample.pdp Sample.startedServer s ∧ (i, call) ∈ s.requests.sent ∧
    s.requests.slots[i]?.map Slot.task = some a ∧ connection ∈ s.connections ∧
    a.request.chain = connection.chain := by
  obtain ⟨s, hrun, -, -, hsent⟩ := Sample.server_run
  obtain ⟨⟨i, call⟩, hone⟩ := List.length_eq_one_iff.1 hsent
  have hmem : (i, call) ∈ s.requests.sent := by rw [hone]; exact List.mem_singleton_self _
  obtain ⟨a, rest, k, connection, chain, -, -, -, hslot, -, hconnection, hshown, hchain, -⟩ :=
    (Server.run_authentic Sample.startServer_tcpConfig hrun).1 i call hmem
  refine ⟨s, i, call, a, connection, hrun, hmem, ?_, List.mem_of_getElem? hconnection, ?_⟩
  · rw [hslot]
    rfl
  · rw [hchain, hshown]

end TrustConnector
