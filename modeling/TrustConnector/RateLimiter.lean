/-
**The request rate limiter.**

The server counts the requests of each identity on each route in windows of a minute.  The windows
of all pairs stand in one map, under keys that join the identity and the route by a NUL byte, and a
call takes its clock reading before it has the map to itself: calls are ordered by the lock, and
their readings need not be.  Readings are nanoseconds.

Main definitions:

* `RequestRateLimiter`, `RequestRateLimiter.check` — the map of windows, and one call;
* `RateCall`, `limiterRun` — a sequence of calls in the order of the lock, with its record;
* `eventsOf`, `readingsOf` — what a run looks like from one key.

Main results:

* `tracks_limiterRun` — **seen from one key, a run is the run of a fixed-window limiter** on the
  readings of that key;
* `limiterRun_onPair` — calls on other pairs do not show;
* `fixedWindowRun` — what the limiter guarantees over a whole run.
-/

import TrustConnector.Errors
import TrustConnector.FixedWindow
import TrustConnector.StrMap

set_option relaxedAutoImplicit false
set_option autoImplicit false

namespace TrustConnector

open Text FixedWindow

/-! ### The limiter -/

/-- A window of one identity on one route. -/
@[ext]
structure RateWindow where
  started : ℕ
  count : UInt32
  deriving DecidableEq

/-- The windows of all pairs. -/
abbrev RequestRateLimiter := StrMap RateWindow

/-- The key of an identity and a route. -/
def rateKey (identity routeId : Str) : Str := identity ++ 0 :: routeId

/-- The whole seconds from one reading to another, none if they are the other way round. -/
def secondsSince (now started : ℕ) : ℕ := (now - started) / 10 ^ 9

/-- A call on the window of its key: the verdict, and the window it leaves. -/
def checkWindow (held : Option RateWindow) (now : ℕ) (limit : UInt32) :
    Except ConnectorProblem Unit × RateWindow :=
  let window := held.getD ⟨now, 0⟩
  -- a reading from before the start of the window counts as age zero, so the window stays
  let window := if 60 ≤ secondsSince now window.started then ⟨now, 0⟩ else window
  if limit ≤ window.count then (.error .rateLimited, window)
  else (.ok (), { window with count := window.count + 1 })

/-- One call. -/
def RequestRateLimiter.check (windows : RequestRateLimiter) (now : ℕ) (identity routeId : Str)
    (limit : UInt32) : Except ConnectorProblem Unit × RequestRateLimiter :=
  let key := rateKey identity routeId
  let (verdict, window) := checkWindow (windows.lookup key) now limit
  -- the source holds the entry by reference, so what the call did to it stays
  (verdict, windows.insert key window)

/-! ### Runs -/

/-- A call, with the reading it took. -/
structure RateCall where
  identity : Str
  routeId : Str
  now : ℕ
  deriving DecidableEq

def RateCall.key (c : RateCall) : Str := rateKey c.identity c.routeId

/-- The call is on the given identity and route. -/
def RateCall.onPair (identity routeId : Str) (c : RateCall) : Bool :=
  c.identity == identity && c.routeId == routeId

/-- The record of a call: the window it fell in, and its verdict. -/
structure RateRecord where
  call : RateCall
  started : ℕ
  verdict : Except ConnectorProblem Unit

/-- A limiter with the record of its calls. -/
structure LimiterHistory where
  windows : RequestRateLimiter
  records : List RateRecord

/-- One call, recorded. -/
def LimiterHistory.step (limit : UInt32) (h : LimiterHistory) (c : RateCall) : LimiterHistory :=
  { windows := (h.windows.check c.now c.identity c.routeId limit).2
    records := h.records ++
      [{ call := c
         started := (checkWindow (h.windows.lookup c.key) c.now limit).2.started
         verdict := (h.windows.check c.now c.identity c.routeId limit).1 }] }

/-- A sequence of calls on a new limiter. -/
def limiterRun (limit : UInt32) (calls : List RateCall) : LimiterHistory :=
  calls.foldl (LimiterHistory.step limit) ⟨∅, []⟩

theorem limiterRun_append (limit : UInt32) (calls : List RateCall) (c : RateCall) :
    limiterRun limit (calls ++ [c]) = (limiterRun limit calls).step limit c := by
  rw [limiterRun, List.foldl_append]
  rfl

/-! ### One key -/

/-- A record as the event of a fixed-window limiter. -/
def RateRecord.event (r : RateRecord) : Event := ⟨r.call.now, r.started, r.verdict.isOk⟩

/-- The events of a key. -/
def eventsOf (key : Str) (records : List RateRecord) : List Event :=
  (records.filter fun r => r.call.key = key).map RateRecord.event

/-- The readings of a key. -/
def readingsOf (key : Str) (calls : List RateCall) : List ℕ :=
  (calls.filter fun c => c.key = key).map RateCall.now

/-- The events of a key after one more call. -/
theorem eventsOf_step (key : Str) (limit : UInt32) (h : LimiterHistory) (c : RateCall) :
    eventsOf key (h.step limit c).records = eventsOf key h.records ++
      if c.key = key then
        [⟨c.now, (checkWindow (h.windows.lookup c.key) c.now limit).2.started,
          (h.windows.check c.now c.identity c.routeId limit).1.isOk⟩]
      else [] := by
  by_cases hkey : c.key = key
  · simp [eventsOf, LimiterHistory.step, hkey, RateRecord.event]
  · simp [eventsOf, LimiterHistory.step, hkey]

/-- Later calls only add to the events of a key. -/
theorem eventsOf_isPrefix (key : Str) (limit : UInt32) (calls more : List RateCall) :
    eventsOf key (limiterRun limit calls).records <+:
      eventsOf key (limiterRun limit (calls ++ more)).records := by
  induction more using List.reverseRecOn with
  | nil => simp
  | append_singleton more c ih =>
      rw [← List.append_assoc, limiterRun_append, eventsOf_step]
      exact ih.trans (List.prefix_append _ _)

/-- The age at which a window is over. -/
def minute : ℕ := 60 * 10 ^ 9

/-- A window with its count as a number. -/
def RateWindow.toWindow (w : RateWindow) : Window := ⟨w.started, w.count.toNat⟩

theorem RateWindow.toWindow_injective : Function.Injective RateWindow.toWindow := by
  intro w w' h
  exact RateWindow.ext (congrArg Window.started h) (UInt32.toNat_inj.1 (congrArg Window.count h))

theorem minute_pos : 0 < minute := by
  unfold minute
  omega

theorem secondsSince_iff (now started : ℕ) :
    60 ≤ secondsSince now started ↔ minute ≤ now - started := by
  unfold secondsSince minute
  omega

/-- **A call on a key is a call of a fixed-window limiter**; the count does not overflow. -/
theorem checkWindow_eq (held : Option RateWindow) (now : ℕ) (limit : UInt32) :
    (checkWindow held now limit).2.toWindow =
        next limit.toNat (current minute (held.map RateWindow.toWindow) now) ∧
      (checkWindow held now limit).2.started =
        (current minute (held.map RateWindow.toWindow) now).started ∧
      (checkWindow held now limit).1 =
        if (record minute limit.toNat (held.map RateWindow.toWindow) now).admitted then .ok ()
        else .error .rateLimited := by
  have hcurrent : current minute (held.map RateWindow.toWindow) now =
      (if 60 ≤ secondsSince now (held.getD ⟨now, 0⟩).started then ⟨now, 0⟩
        else held.getD ⟨now, 0⟩ : RateWindow).toWindow := by
    cases held with
    | none => simp [current, secondsSince, RateWindow.toWindow]
    | some w =>
        simp only [current, Option.map_some, Option.getD_some, secondsSince_iff]
        split_ifs with hold h' h'
        · rfl
        · exact absurd hold h'
        · exact absurd h' hold
        · rfl
  -- from here on only the window matters, and not where it comes from
  simp only [record, checkWindow, hcurrent]
  generalize (if 60 ≤ secondsSince now (held.getD ⟨now, 0⟩).started then (⟨now, 0⟩ : RateWindow)
    else held.getD ⟨now, 0⟩) = w
  by_cases hfull : limit ≤ w.count
  · have hnot : ¬w.count.toNat < limit.toNat := Nat.not_lt.2 hfull
    simp [hfull, next, RateWindow.toWindow, hnot]
  · have hlt : w.count.toNat < limit.toNat := Nat.not_le.1 hfull
    -- the count is below a limit of 32 bits, so adding one does not wrap
    have hsucc : (w.count + 1).toNat = w.count.toNat + 1 := by
      have := limit.toNat_lt
      rw [UInt32.toNat_add]
      exact Nat.mod_eq_of_lt (by simpa using by omega)
    simp [hfull, next, RateWindow.toWindow, hlt, hsucc]

theorem check_fst (windows : RequestRateLimiter) (c : RateCall) (limit : UInt32) :
    (windows.check c.now c.identity c.routeId limit).1 =
      (checkWindow (windows.lookup c.key) c.now limit).1 := rfl

/-- The limiter refuses with one problem only. -/
theorem check_eq_error {windows : RequestRateLimiter} {now : ℕ} {identity routeId : Str}
    {limit : UInt32} {problem : ConnectorProblem}
    (h : (windows.check now identity routeId limit).1 = .error problem) :
    problem = .rateLimited := by
  simp only [RequestRateLimiter.check, checkWindow] at h
  split_ifs at h <;> cases h <;> rfl

/-- An admitted call found its window below the limit, or no window. -/
theorem below_of_check {windows : RequestRateLimiter} {now : ℕ} {identity routeId : Str}
    {limit : UInt32} (h : (windows.check now identity routeId limit).1 = .ok ()) :
    ∀ w ∈ windows.lookup (rateKey identity routeId), now < w.started + minute →
      w.count < limit := by
  intro w hw hyoung
  have hlookup : windows.lookup (rateKey identity routeId) = some w := hw
  have hsame : ¬60 ≤ secondsSince now w.started := by
    have := minute_pos
    rw [secondsSince_iff]
    omega
  simp only [RequestRateLimiter.check, checkWindow, hlookup, Option.getD_some, if_neg hsame] at h
  split_ifs at h with hfull
  exact UInt32.not_le.1 hfull

/-- A call replaces the window of its own key. -/
theorem lookup_check (windows : RequestRateLimiter) (c : RateCall) (limit : UInt32) (key : Str) :
    (windows.check c.now c.identity c.routeId limit).2.lookup key =
      if c.key = key then some (checkWindow (windows.lookup c.key) c.now limit).2
      else windows.lookup key := by
  split_ifs with hkey
  · rw [← hkey]
    exact AList.lookup_insert windows
  · exact AList.lookup_insert_ne (Ne.symm hkey)

/-- A history of the limiter, seen from one key, is a history of a fixed-window limiter. -/
structure Tracks (key : Str) (h : LimiterHistory) (a : History) : Prop where
  held : (h.windows.lookup key).map RateWindow.toWindow = a.held
  events : eventsOf key h.records = a.events

/-- **What one call does to a key**: its own key takes a step, every other key stays. -/
theorem Tracks.step {key : Str} {h : LimiterHistory} {a : History} (ht : Tracks key h a)
    (limit : UInt32) (c : RateCall) :
    Tracks key (h.step limit c)
      (if c.key = key then FixedWindow.step minute limit.toNat a c.now else a) := by
  obtain ⟨hheld, hevents⟩ := ht
  split_ifs with hkey
  · subst hkey
    obtain ⟨hwindow, hstarted, hverdict⟩ := checkWindow_eq (h.windows.lookup c.key) c.now limit
    rw [hheld] at hwindow hstarted hverdict
    refine ⟨?_, ?_⟩
    · rw [LimiterHistory.step, lookup_check, if_pos rfl, Option.map_some, hwindow]
      rfl
    · have hisOk : (checkWindow (h.windows.lookup c.key) c.now limit).1.isOk =
          (record minute limit.toNat a.held c.now).admitted := by
        rw [hverdict]
        cases (record minute limit.toNat a.held c.now).admitted <;> rfl
      simp only [eventsOf, LimiterHistory.step, FixedWindow.step, List.filter_append,
        List.map_append] at hevents ⊢
      rw [hevents]
      simp only [List.filter_singleton, decide_true, cond_true, List.map_singleton,
        RateRecord.event, check_fst, hstarted, hisOk, record]
  · refine ⟨?_, ?_⟩
    · rw [LimiterHistory.step, lookup_check, if_neg hkey, hheld]
    · rw [← hevents]
      simp [eventsOf, LimiterHistory.step, List.filter_append, hkey]

/-- **Seen from one key, a run is the run of a fixed-window limiter** on the readings of the key. -/
theorem tracks_limiterRun (limit : UInt32) (calls : List RateCall) (key : Str) :
    Tracks key (limiterRun limit calls)
      (run minute limit.toNat History.start (readingsOf key calls)) := by
  induction calls using List.reverseRecOn with
  | nil => exact ⟨rfl, rfl⟩
  | append_singleton calls c ih =>
      have hstep := ih.step limit c
      rw [limiterRun_append]
      by_cases hkey : c.key = key
      · rw [if_pos hkey] at hstep
        simpa [readingsOf, List.filter_append, hkey, run] using hstep
      · rw [if_neg hkey] at hstep
        simpa [readingsOf, List.filter_append, hkey] using hstep

/-! ### Other pairs -/

/-- The keys of identities without a NUL byte tell the pairs apart. -/
theorem rateKey_injective {i i' r r' : Str} (hi : 0 ∉ i) (hi' : 0 ∉ i') :
    rateKey i r = rateKey i' r' ↔ i = i' ∧ r = r' := by
  constructor
  · exact append_cons_inj hi hi'
  · rintro ⟨rfl, rfl⟩
    rfl

theorem onPair_iff {identity routeId : Str} {c : RateCall} (hi : 0 ∉ identity)
    (hc : 0 ∉ c.identity) :
    c.onPair identity routeId = true ↔ c.key = rateKey identity routeId := by
  rw [RateCall.key, rateKey_injective hc hi, RateCall.onPair, Bool.and_eq_true, beq_iff_eq,
    beq_iff_eq]

/-- **Calls on other pairs do not show**: a run without them has the same window and the same
records of the pair. -/
theorem limiterRun_onPair (limit : UInt32) {identity routeId : Str} (hi : 0 ∉ identity)
    {calls : List RateCall} (hcalls : ∀ c ∈ calls, 0 ∉ c.identity) :
    (limiterRun limit calls).windows.lookup (rateKey identity routeId) =
        (limiterRun limit (calls.filter (RateCall.onPair identity routeId))).windows.lookup
          (rateKey identity routeId) ∧
      (limiterRun limit calls).records.filter (fun r => r.call.onPair identity routeId) =
        (limiterRun limit (calls.filter (RateCall.onPair identity routeId))).records := by
  induction calls using List.reverseRecOn with
  | nil => exact ⟨rfl, rfl⟩
  | append_singleton calls c ih =>
      obtain ⟨hwindow, hrecords⟩ := ih fun c' h => hcalls c' (List.mem_append_left _ h)
      have honPair : c.onPair identity routeId = true ↔ c.key = rateKey identity routeId :=
        onPair_iff hi (hcalls c (by simp))
      rw [limiterRun_append, List.filter_append]
      by_cases hpair : c.onPair identity routeId = true
      · -- the call is on the pair, and both runs hold the same window for it
        have hkey := honPair.1 hpair
        rw [← hkey] at hwindow ⊢
        rw [List.filter_singleton, hpair, cond_true, limiterRun_append]
        refine ⟨?_, ?_⟩
        · simp only [LimiterHistory.step, lookup_check, if_true, hwindow]
        · simp only [LimiterHistory.step, check_fst, hwindow, List.filter_append, hrecords,
            List.filter_singleton, hpair, cond_true]
      · have hkey : c.key ≠ rateKey identity routeId := fun h => hpair (honPair.2 h)
        rw [Bool.not_eq_true] at hpair
        rw [List.filter_singleton, hpair, cond_false, List.append_nil]
        refine ⟨?_, ?_⟩
        · rw [LimiterHistory.step, lookup_check, if_neg hkey, hwindow]
        · simp only [LimiterHistory.step, List.filter_append, hrecords, List.filter_singleton, hpair,
            cond_false, List.append_nil]

/-! ### Whole runs -/

/-- **What the limiter guarantees over a whole run.** -/
structure FixedWindowRun (limit : UInt32) (calls : List RateCall) : Prop where
  /-- The windows of a key start at least a minute apart. -/
  spaced : ∀ key, (eventsOf key (limiterRun limit calls).records).Pairwise fun e f =>
    e.started = f.started ∨ e.started + minute ≤ f.started
  /-- A window admits at most the limit. -/
  bounded : ∀ key started,
    admittedIn started (eventsOf key (limiterRun limit calls).records) ≤ limit.toNat
  /-- The next call is refused exactly when its window is younger than a minute and full. -/
  refused : ∀ c : RateCall,
    (((limiterRun limit calls).windows.check c.now c.identity c.routeId limit).1 =
        .error .rateLimited ↔
      ∃ w ∈ (limiterRun limit calls).windows.lookup c.key, c.now < w.started + minute ∧
        admittedIn w.started (eventsOf c.key (limiterRun limit calls).records) = limit.toNat)
  /-- A call that is not refused is admitted. -/
  admitted : ∀ c : RateCall,
    ((limiterRun limit calls).windows.check c.now c.identity c.routeId limit).1 ≠
        .error .rateLimited →
      ((limiterRun limit calls).windows.check c.now c.identity c.routeId limit).1 = .ok ()
  /-- A refused call changes no window. -/
  unchanged : ∀ c : RateCall,
    ((limiterRun limit calls).windows.check c.now c.identity c.routeId limit).1 =
        .error .rateLimited →
      ∀ key, ((limiterRun limit calls).windows.check c.now c.identity c.routeId limit).2.lookup key =
        (limiterRun limit calls).windows.lookup key
  /-- The count of a window is the number of calls it has admitted, and within the limit. -/
  counted : ∀ key, ∀ w ∈ (limiterRun limit calls).windows.lookup key,
    w.count ≤ limit ∧
      w.count.toNat = admittedIn w.started (eventsOf key (limiterRun limit calls).records)
  /-- With ordered readings, a minute sees at most twice the limit. -/
  twice : ∀ key, (readingsOf key calls).Pairwise (· ≤ ·) → ∀ t,
    (eventsOf key (limiterRun limit calls).records).countP
      (fun e => e.admitted && (t ≤ e.now && e.now ≤ t + minute)) ≤ 2 * limit.toNat
  /-- The records of a pair are those of the run without the calls on other pairs. -/
  independent : (∀ c ∈ calls, 0 ∉ c.identity) → ∀ identity routeId, 0 ∉ identity →
    (limiterRun limit calls).records.filter (fun r => r.call.onPair identity routeId) =
      (limiterRun limit (calls.filter (RateCall.onPair identity routeId))).records

/-- **A verdict on a history**, from what its key has been through. -/
theorem Tracks.verdict {h : LimiterHistory} {a : History} {c : RateCall} (ht : Tracks c.key h a)
    (limit : UInt32) :
    (h.windows.check c.now c.identity c.routeId limit).1 =
      if (record minute limit.toNat a.held c.now).admitted then .ok ()
      else .error .rateLimited := by
  rw [check_fst, (checkWindow_eq _ _ _).2.2, ht.held]

theorem Tracks.refused_iff {h : LimiterHistory} {a : History} {c : RateCall} (ht : Tracks c.key h a)
    (limit : UInt32) :
    (h.windows.check c.now c.identity c.routeId limit).1 = .error .rateLimited ↔
      (record minute limit.toNat a.held c.now).admitted = false := by
  rw [ht.verdict]
  cases (record minute limit.toNat a.held c.now).admitted <;> simp

/-- A refused call changes no window. -/
theorem Tracks.lookup_of_refused {h : LimiterHistory} {a : History} {c : RateCall}
    (ht : Tracks c.key h a) {limit : UInt32} (hlimit : 0 < limit.toNat)
    (hrefused : (h.windows.check c.now c.identity c.routeId limit).1 = .error .rateLimited)
    (key : Str) :
    (h.windows.check c.now c.identity c.routeId limit).2.lookup key = h.windows.lookup key := by
  rw [ht.refused_iff, ← ht.held] at hrefused
  have hkept := next_current_of_refused hlimit hrefused
  rw [← (checkWindow_eq _ _ _).1, ← Option.map_some] at hkept
  rw [lookup_check]
  split_ifs with hkey
  · rw [← hkey]
    exact Option.map_injective RateWindow.toWindow_injective hkept
  · rfl

/-- The count of a held window is the number of calls it has admitted. -/
theorem Tracks.count_eq {key : Str} {h : LimiterHistory} {a : History} (ht : Tracks key h a)
    {limit : ℕ} (hi : Invariant minute limit a) {w : RateWindow} (hw : w ∈ h.windows.lookup key) :
    w.count.toNat = admittedIn w.started (eventsOf key h.records) := by
  have hheld : w.toWindow ∈ a.held := by
    rw [← ht.held]
    exact Option.mem_map_of_mem _ hw
  rw [ht.events]
  exact (hi.held _ hheld).1

/-- **The limiter is a fixed-window limiter for each pair**, over every run. -/
theorem fixedWindowRun (limit : UInt32) (hlimit : 0 < limit) (calls : List RateCall) :
    FixedWindowRun limit calls := by
  have hpos : 0 < limit.toNat := hlimit
  have htracks := tracks_limiterRun limit calls
  have hinv : ∀ key, Invariant minute limit.toNat
      (run minute limit.toNat History.start (readingsOf key calls)) :=
    fun key => invariant_run minute_pos _
  refine
    { spaced := fun key => ?_
      bounded := fun key started => ?_
      refused := fun c => ?_
      admitted := fun c hne => ?_
      unchanged := fun c hrefused key => ?_
      counted := fun key w hw => ?_
      twice := fun key hsorted t => ?_
      independent := fun hcalls identity routeId hi => (limiterRun_onPair limit hi hcalls).2 }
  · rw [(htracks key).events]
    exact (hinv key).spaced
  · rw [(htracks key).events]
    exact (hinv key).bounded started
  · rw [(htracks c.key).refused_iff, (htracks c.key).events, FixedWindow.refused_iff minute_pos hpos,
      ← (htracks c.key).held]
    simp only [Option.mem_def, Option.map_eq_some_iff, ↓existsAndEq, and_true]
    rfl
  · have hverdict := (htracks c.key).verdict limit
    split_ifs at hverdict with hadmitted
    · exact hverdict
    · exact absurd hverdict hne
  · exact (htracks c.key).lookup_of_refused hpos hrefused key
  · have hcount := (htracks key).count_eq (hinv key) hw
    have hle : w.count.toNat ≤ limit.toNat := by
      rw [hcount, (htracks key).events]
      exact (hinv key).bounded _
    exact ⟨hle, hcount⟩
  · rw [(htracks key).events]
    exact admitted_le_two_mul minute_pos hsorted t

/-- Calls of two identities, with readings out of order. -/
def Sample.rateCalls : List RateCall :=
  [⟨str "a", str "r", 5⟩, ⟨str "b", str "r", 7⟩, ⟨str "a", str "r", 3⟩, ⟨str "a", str "r", 9⟩,
    ⟨str "a", str "r", minute + 5⟩]

/-- At two calls a minute, the third call of an identity is refused, and one that comes a minute
after the first opens a new window. -/
theorem fixedWindowRun_out_of_order :
    (limiterRun 2 Sample.rateCalls).records.map (fun r => r.verdict.isOk) =
        [true, true, true, false, true] ∧
      FixedWindowRun 2 Sample.rateCalls :=
  ⟨by decide +kernel, fixedWindowRun 2 (by decide) _⟩

end TrustConnector
