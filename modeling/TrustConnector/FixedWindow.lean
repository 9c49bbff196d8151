/-
**Fixed-window rate limiting.**

A fixed-window limiter keeps one window: when it was opened and how many calls it has admitted.  A
call that comes when the window is old enough opens a new one; a call that finds its window full is
refused.  The clock readings need not be ordered: the age of a window is a truncated difference, so
a reading from before the window was opened counts as no time at all.

The history of a limiter is the window it holds together with a record of every call.  What one
call does to the history is the step lemma `FixedWindow.Invariant.step`; everything about whole
runs follows from it.

Main definitions:

* `FixedWindow.Window`, `FixedWindow.current`, `FixedWindow.next` — the window a call falls in, and
  what the call leaves;
* `FixedWindow.History`, `FixedWindow.run` — a limiter with the record of its calls;
* `FixedWindow.Invariant` — windows are spaced, none admits too many, and the count is right.

Main results:

* `FixedWindow.invariant_run` — **the invariant holds after every run**;
* `FixedWindow.refused_iff` — when a call is refused;
* `FixedWindow.admitted_le_two_mul` — in any span of time, at most two windows' worth of calls is
  admitted, if the readings are ordered.
-/

import Mathlib

set_option relaxedAutoImplicit false
set_option autoImplicit false

namespace FixedWindow

/-- A window: when it was opened, and how many calls it has admitted. -/
structure Window where
  started : ℕ
  count : ℕ
  deriving DecidableEq, Repr

variable (span limit : ℕ)

/-- The window that a call falls in: the one that is held, unless it is too old. -/
def current (held : Option Window) (now : ℕ) : Window :=
  match held with
  | none => ⟨now, 0⟩
  | some w => if span ≤ now - w.started then ⟨now, 0⟩ else w

/-- A window after a call. -/
def next (w : Window) : Window := if w.count < limit then ⟨w.started, w.count + 1⟩ else w

/-- The record of a call: its reading, the window it fell in, and the verdict. -/
structure Event where
  now : ℕ
  started : ℕ
  admitted : Bool
  deriving DecidableEq, Repr

/-- A limiter with the record of its calls. -/
structure History where
  held : Option Window
  events : List Event

/-- The history before the first call. -/
def History.start : History := ⟨none, []⟩

/-- The record of a call on what a limiter holds. -/
def record (held : Option Window) (now : ℕ) : Event :=
  ⟨now, (current span held now).started, decide ((current span held now).count < limit)⟩

/-- One call. -/
def step (h : History) (now : ℕ) : History :=
  ⟨some (next limit (current span h.held now)), h.events ++ [record span limit h.held now]⟩

/-- A sequence of calls. -/
def run (h : History) (readings : List ℕ) : History := readings.foldl (step span limit) h

/-- The calls that the window opened at `s` has admitted. -/
def admittedIn (s : ℕ) (events : List Event) : ℕ :=
  events.countP fun e => e.started = s && e.admitted

/-- Two windows are one, or the second was opened long enough after the first. -/
def Spaced (s t : ℕ) : Prop := s = t ∨ s + span ≤ t

/-! ### The invariant -/

/-- **What holds of every history.** -/
structure Invariant (h : History) : Prop where
  /-- Before the first call there is no window. -/
  fresh : h.held = none → h.events = []
  /-- Windows are at least a span apart. -/
  spaced : h.events.Pairwise fun e f => Spaced span e.started f.started
  /-- A call comes less than a span after its window was opened. -/
  young : ∀ e ∈ h.events, e.now < e.started + span
  /-- No window admits more calls than the limit. -/
  bounded : ∀ s, admittedIn s h.events ≤ limit
  /-- The window that is held is the last one, and its count is right. -/
  held : ∀ w ∈ h.held, w.count = admittedIn w.started h.events ∧
    ∀ e ∈ h.events, Spaced span e.started w.started

variable {span limit}

theorem admittedIn_append (s : ℕ) (events : List Event) (e : Event) :
    admittedIn s (events ++ [e]) =
      admittedIn s events + if e.started = s ∧ e.admitted = true then 1 else 0 := by
  simp only [admittedIn, List.countP_append, List.countP_singleton, Bool.and_eq_true,
    decide_eq_true_eq]

/-- A window in which no call fell has admitted none. -/
theorem admittedIn_eq_zero {s : ℕ} {events : List Event} (h : ∀ e ∈ events, e.started ≠ s) :
    admittedIn s events = 0 := by
  rw [admittedIn, List.countP_eq_zero]
  intro e he
  simp [h e he]

theorem next_started (w : Window) : (next limit w).started = w.started := by
  unfold next
  split_ifs <;> rfl

theorem next_count (w : Window) :
    (next limit w).count = w.count + if w.count < limit then 1 else 0 := by
  unfold next
  split_ifs <;> rfl

/-- **The window a call falls in**, in a history that satisfies the invariant. -/
theorem Invariant.current {h : History} (hi : Invariant span limit h) (hspan : 0 < span) (now : ℕ) :
    (FixedWindow.current span h.held now).count =
        admittedIn (FixedWindow.current span h.held now).started h.events ∧
      (∀ e ∈ h.events, Spaced span e.started (FixedWindow.current span h.held now).started) ∧
      now < (FixedWindow.current span h.held now).started + span := by
  cases hheld : h.held with
  | none =>
      have hnil := hi.fresh hheld
      simp only [FixedWindow.current, hnil]
      exact ⟨rfl, by simp, by omega⟩
  | some w =>
      obtain ⟨hcount, hspaced⟩ := hi.held w hheld
      simp only [FixedWindow.current]
      split_ifs with hold
      · -- the held window is too old, and every earlier call fell in it or in an older one
        have hlater : ∀ e ∈ h.events, e.started + span ≤ now := by
          intro e he
          rcases hspaced e he with heq | hle
          · omega
          · omega
        refine ⟨(admittedIn_eq_zero fun e he => ?_).symm, fun e he => Or.inr (hlater e he),
          Nat.lt_add_of_pos_right hspan⟩
        exact (Nat.lt_of_lt_of_le (Nat.lt_add_of_pos_right hspan) (hlater e he)).ne
      · exact ⟨hcount, hspaced, by omega⟩

/-- **What one call does**: it keeps the invariant. -/
theorem Invariant.step {h : History} (hi : Invariant span limit h) (hspan : 0 < span) (now : ℕ) :
    Invariant span limit (FixedWindow.step span limit h now) := by
  obtain ⟨hcount, hspaced, hyoung⟩ := hi.current hspan now
  have hbounded := hi.bounded (FixedWindow.current span h.held now).started
  simp only [FixedWindow.step, record]
  generalize FixedWindow.current span h.held now = w at *
  refine ⟨(fun hnone => nomatch hnone), ?_, ?_, ?_, ?_⟩
  · rw [List.pairwise_append]
    refine ⟨hi.spaced, List.pairwise_singleton _ _, fun e he f hf => ?_⟩
    rw [List.mem_singleton.1 hf]
    exact hspaced e he
  · intro e he
    rcases List.mem_append.1 he with he | he
    · exact hi.young e he
    · rw [List.mem_singleton.1 he]
      exact hyoung
  · intro s
    rw [admittedIn_append]
    split_ifs with hs
    -- the new call adds one to its window only if it found the window below the limit
    · have hlt : w.count < limit := of_decide_eq_true hs.2
      rw [← hs.1]
      exact hcount ▸ hlt
    · exact hi.bounded s
  · intro w' hw'
    obtain rfl : next limit w = w' := Option.some.inj hw'
    rw [next_started, next_count, admittedIn_append, ← hcount]
    constructor
    · simp
    · intro e he
      rcases List.mem_append.1 he with he | he
      · exact hspaced e he
      · rw [List.mem_singleton.1 he]
        exact Or.inl rfl

theorem Invariant.start : Invariant span limit History.start where
  fresh := fun _ => rfl
  spaced := List.Pairwise.nil
  young := by simp [History.start]
  bounded := by simp [History.start, admittedIn]
  held := by simp [History.start]

/-- **The invariant holds after every run.** -/
theorem invariant_run (hspan : 0 < span) (readings : List ℕ) :
    Invariant span limit (run span limit History.start readings) := by
  induction readings using List.reverseRecOn with
  | nil => exact Invariant.start
  | append_singleton readings now ih =>
      rw [run, List.foldl_append]
      exact ih.step hspan now

/-! ### Verdicts -/

/-- **When a call is refused**: its window is younger than a span and has admitted its limit. -/
theorem refused_iff (hspan : 0 < span) (hlimit : 0 < limit) (readings : List ℕ) (now : ℕ) :
    (record span limit (run span limit History.start readings).held now).admitted = false ↔
      ∃ w ∈ (run span limit History.start readings).held, now < w.started + span ∧
        admittedIn w.started (run span limit History.start readings).events = limit := by
  have hi : Invariant span limit _ := invariant_run hspan readings
  generalize run span limit History.start readings = h at *
  simp only [record, decide_eq_false_iff_not, not_lt]
  cases hheld : h.held with
  | none => simp [current, hlimit.ne']
  | some w =>
      have hcount := (hi.held w hheld).1
      have hbounded := hi.bounded w.started
      simp only [current, Option.mem_def, Option.some.injEq, exists_eq_left']
      -- a window that is too old is replaced by an empty one, which cannot be full
      split_ifs with hold
      · constructor
        · intro hle
          exact absurd hle (Nat.not_le.2 hlimit)
        · rintro ⟨hlt, -⟩
          omega
      · omega

/-- A refused call leaves the window that was held. -/
theorem next_current_of_refused (hlimit : 0 < limit) {held : Option Window} {now : ℕ}
    (h : (record span limit held now).admitted = false) :
    some (next limit (current span held now)) = held := by
  have hfull : ¬(current span held now).count < limit := of_decide_eq_false h
  rw [next, if_neg hfull]
  cases held with
  | none => exact absurd hlimit hfull
  | some w =>
      simp only [current] at hfull ⊢
      split_ifs at hfull ⊢ with hold
      · exact absurd hlimit hfull
      · rfl

/-! ### Ordered readings -/

/-- Nothing in the history is later than it should be. -/
structure Ordered (bound : ℕ) (h : History) : Prop where
  events : ∀ e ∈ h.events, e.started ≤ e.now
  held : ∀ w ∈ h.held, w.started ≤ bound

theorem current_started_le {held : Option Window} {now : ℕ} (h : ∀ w ∈ held, w.started ≤ now) :
    (current span held now).started ≤ now := by
  cases held with
  | none => exact le_rfl
  | some w =>
      simp only [current]
      split_ifs with hold
      · exact le_rfl
      · exact h w rfl

/-- **Ordered readings give an ordered history.** -/
theorem ordered_run {readings : List ℕ} (hsorted : readings.Pairwise (· ≤ ·)) {bound : ℕ}
    (hbound : ∀ now ∈ readings, now ≤ bound) :
    Ordered bound (run span limit History.start readings) := by
  induction readings using List.reverseRecOn generalizing bound with
  | nil => exact ⟨by simp [run, History.start], by simp [run, History.start]⟩
  | append_singleton readings now ih =>
      rw [List.pairwise_append] at hsorted
      obtain ⟨hsorted, -, hle⟩ := hsorted
      have hnow : now ≤ bound := hbound now (by simp)
      -- the last reading bounds the earlier ones, so it is the bound for the history before it
      have ho := ih hsorted fun earlier h => hle earlier h now (by simp)
      have hstarted : (current span _ now).started ≤ now := current_started_le ho.held
      rw [run, List.foldl_append]
      refine ⟨fun e he => ?_, fun w hw => ?_⟩
      · rcases List.mem_append.1 he with he | he
        · exact ho.events e he
        · rw [List.mem_singleton.1 he]
          exact hstarted
      · obtain rfl := Option.some.inj hw
        rw [next_started]
        exact hstarted.trans hnow

/-- Any two calls fell in one window, or in windows a span apart. -/
theorem Invariant.apart {h : History} (hi : Invariant span limit h) {e f : Event}
    (he : e ∈ h.events) (hf : f ∈ h.events) :
    Spaced span e.started f.started ∨ Spaced span f.started e.started :=
  List.Pairwise.forall_of_forall_of_flip
    (R := fun e f : Event => Spaced span e.started f.started ∨ Spaced span f.started e.started)
    (fun _ _ => Or.inl (Or.inl rfl)) (hi.spaced.imp Or.inl) (hi.spaced.imp Or.inr) he hf

/-- The calls of a span of time fall in at most two windows. -/
theorem two_windows {h : History} (hi : Invariant span limit h) {bound : ℕ} (ho : Ordered bound h)
    (t : ℕ) : ∃ s₁ s₂, ∀ e ∈ h.events, t ≤ e.now → e.now ≤ t + span →
      e.started = s₁ ∨ e.started = s₂ := by
  by_cases hone : ∃ e ∈ h.events, t ≤ e.now ∧ e.now ≤ t + span
  swap
  · exact ⟨0, 0, fun e he hlo hhi => absurd ⟨e, he, hlo, hhi⟩ hone⟩
  obtain ⟨e, he, helo, hehi⟩ := hone
  by_cases htwo : ∃ f ∈ h.events, t ≤ f.now ∧ f.now ≤ t + span ∧ f.started ≠ e.started
  swap
  · refine ⟨e.started, e.started, fun f hf hlo hhi => Or.inl ?_⟩
    by_contra hne
    exact htwo ⟨f, hf, hlo, hhi, hne⟩
  obtain ⟨f, hf, hflo, hfhi, hne⟩ := htwo
  refine ⟨e.started, f.started, fun g hg hglo hghi => ?_⟩
  -- a third window would open two spans after the first, but a call is within a span of its window
  have hef := hi.apart he hf
  have heg := hi.apart he hg
  have hfg := hi.apart hf hg
  have := hi.young e he
  have := hi.young f hf
  have := hi.young g hg
  have := ho.events e he
  have := ho.events f hf
  have := ho.events g hg
  unfold Spaced at hef heg hfg
  omega

/-- What satisfies one of two conditions is counted by one of two counts. -/
theorem countP_le_add {α : Type*} {p q r : α → Bool} {l : List α}
    (h : ∀ a ∈ l, p a = true → q a = true ∨ r a = true) :
    l.countP p ≤ l.countP q + l.countP r := by
  induction l with
  | nil => simp
  | cons a l ih =>
      have hl := ih fun b hb => h b (List.mem_cons_of_mem a hb)
      have ha := h a List.mem_cons_self
      simp only [List.countP_cons]
      by_cases hp : p a = true
      · rcases ha hp with hq | hr
        · simp only [hp, hq, if_true]
          omega
        · simp only [hp, hr, if_true]
          omega
      · rw [if_neg hp]
        omega

/-- **At most two windows' worth of calls** is admitted in a span of time. -/
theorem admitted_le_two_mul (hspan : 0 < span) {readings : List ℕ}
    (hsorted : readings.Pairwise (· ≤ ·)) (t : ℕ) :
    (run span limit History.start readings).events.countP
      (fun e => e.admitted && (t ≤ e.now && e.now ≤ t + span)) ≤ 2 * limit := by
  have hi : Invariant span limit _ := invariant_run hspan readings
  have ho : Ordered _ (run span limit History.start readings) :=
    ordered_run hsorted fun now h => List.le_sum_of_mem h
  generalize run span limit History.start readings = h at *
  obtain ⟨s₁, s₂, hs⟩ := two_windows hi ho t
  have hle : h.events.countP (fun e => e.admitted && (t ≤ e.now && e.now ≤ t + span)) ≤
      admittedIn s₁ h.events + admittedIn s₂ h.events := by
    refine countP_le_add fun e he hp => ?_
    simp only [Bool.and_eq_true, decide_eq_true_eq] at hp ⊢
    obtain ⟨hadmitted, hlo, hhi⟩ := hp
    rcases hs e he hlo hhi with h₁ | h₂
    · exact Or.inl ⟨h₁, hadmitted⟩
    · exact Or.inr ⟨h₂, hadmitted⟩
  have := hi.bounded s₁
  have := hi.bounded s₂
  omega

end FixedWindow
