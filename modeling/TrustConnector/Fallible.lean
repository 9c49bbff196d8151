/-
**Computations that can fail.**

A function that stops at its first error is a chain of steps, each of which hands its value to the
next or ends the chain.  These are the steps such functions are written with, and for each the
lemma that says when it succeeds, so that a whole chain is taken apart by rewriting.

Main definitions:

* `Fallible.okOr` — the value of an option, or an error;
* `Fallible.ensure` — a check;
* `Fallible.best`, `Fallible.FirstBest` — the loop that keeps the first of the highest-ranked
  candidates, and what it looks for;
* `Fallible.FailsIn` — the errors that a computation can end in;
* `Fallible.Alike` — two computations that end alike;
* `Fallible.reportIf`, `Fallible.reportError` — steps of a check that collects its errors.

Main results:

* `Fallible.chain_eq_ok`, `Fallible.chain_eq_error` — **a chain succeeds exactly when each of its
  steps does, and fails where the first of them does not**;
* `Fallible.best_mem` — the loop returns the candidate of one of the elements;
* `Fallible.best_spec` — **the loop returns the first of the highest-ranked proposals**.
-/

import Mathlib

set_option relaxedAutoImplicit false
set_option autoImplicit false

namespace Fallible

variable {ε ε' α β : Type}

/-- The value of an option, or the error. -/
def okOr (e : ε) : Option α → Except ε α
  | none => .error e
  | some a => .ok a

/-- A check that must succeed. -/
def ensure (c : Bool) (e : ε) : Except ε Unit := if c then .ok () else .error e

/-- **A chain succeeds exactly when each of its steps does.** -/
theorem chain_eq_ok (step : Except ε α) (next : α → Except ε β) (out : β) :
    step >>= next = Except.ok out ↔ ∃ mid, step = Except.ok mid ∧ next mid = Except.ok out := by
  cases step with
  | error e => simp [bind, Except.bind]
  | ok a => simp [bind, Except.bind]

@[simp] theorem ok_bind (a : α) (f : α → Except ε β) : ((Except.ok a : Except ε α) >>= f) = f a :=
  rfl

theorem error_bind (e : ε) (f : α → Except ε β) :
    ((Except.error e : Except ε α) >>= f) = Except.error e :=
  rfl

theorem okOr_eq_ok (e : ε) (o : Option α) (a : α) : okOr e o = .ok a ↔ o = some a := by
  cases o with
  | none => simp [okOr]
  | some b => simp [okOr]

theorem ensure_eq_ok (c : Bool) (e : ε) (u : Unit) : ensure c e = .ok u ↔ c = true := by
  unfold ensure
  cases c with
  | false => simp
  | true => simp

/-- Rewording an error does not change whether there is one. -/
theorem mapError_ok_iff (f : ε → ε') (x : Except ε α) (a : α) :
    Except.mapError f x = Except.ok a ↔ x = Except.ok a := by
  cases x with
  | error e => simp [Except.mapError]
  | ok b => simp [Except.mapError]

/-! ### The errors that a computation can end in -/

/-- **A chain fails exactly where one of its steps does**, behind steps that succeed. -/
theorem chain_eq_error (step : Except ε α) (next : α → Except ε β) (e : ε) :
    step >>= next = Except.error e ↔
      step = Except.error e ∨ ∃ mid, step = Except.ok mid ∧ next mid = Except.error e := by
  cases step with
  | error e' => simp [bind, Except.bind]
  | ok a => simp [bind, Except.bind]

theorem okOr_eq_error (e e' : ε) (o : Option α) : okOr e o = .error e' ↔ o = none ∧ e = e' := by
  cases o with
  | none => simp [okOr]
  | some a => simp [okOr]

theorem map_eq_error (f : α → β) (x : Except ε α) (e : ε) :
    Except.map f x = Except.error e ↔ x = Except.error e := by
  cases x with
  | error e' => simp [Except.map]
  | ok a => simp [Except.map]

/-- Every error that a computation ends in is one of `S`. -/
def FailsIn (S : ε → Prop) (step : Except ε α) : Prop := ∀ e, step = .error e → S e

theorem FailsIn.ok {S : ε → Prop} (a : α) : FailsIn S (.ok a : Except ε α) := by
  rintro e ⟨⟩

theorem FailsIn.error {S : ε → Prop} {e : ε} (he : S e) : FailsIn S (.error e : Except ε α) := by
  rintro e' ⟨⟩
  exact he

theorem FailsIn.okOr {S : ε → Prop} {e : ε} (he : S e) (o : Option α) :
    FailsIn S (Fallible.okOr e o) := by
  cases o with
  | none => exact FailsIn.error he
  | some a => exact FailsIn.ok a

theorem FailsIn.map {S : ε → Prop} {step : Except ε α} (h : FailsIn S step) (f : α → β) :
    FailsIn S (step.map f) := by
  cases step with
  | error e => exact FailsIn.error (h e rfl)
  | ok a => exact FailsIn.ok (f a)

theorem FailsIn.mapError {ε' : Type} {S : ε' → Prop} {f : ε → ε'} (hf : ∀ e, S (f e))
    (step : Except ε α) : FailsIn S (step.mapError f) := by
  cases step with
  | error e => exact FailsIn.error (hf e)
  | ok a => exact FailsIn.ok a

theorem FailsIn.ensure {S : ε → Prop} {e : ε} (he : S e) (c : Bool) :
    FailsIn S (Fallible.ensure c e) := by
  cases c with
  | false => exact FailsIn.error he
  | true => exact FailsIn.ok ()

/-- The rule for a step and what follows it. -/
theorem FailsIn.chain {S : ε → Prop} {step : Except ε α} {next : α → Except ε β}
    (hstep : FailsIn S step) (hnext : ∀ a, FailsIn S (next a)) :
    FailsIn S (step >>= next) := by
  intro e h
  cases hs : step with
  | error e' =>
      rw [hs] at h
      obtain rfl := Except.error.inj h
      exact hstep _ hs
  | ok a =>
      rw [hs] at h
      exact hnext a e h

/-- **Two computations that end alike**: in the same error, or in values that are related. -/
inductive Alike (R : α → β → Prop) : Except ε α → Except ε β → Prop where
  | error (e : ε) : Alike R (.error e) (.error e)
  | ok {a : α} {b : β} (h : R a b) : Alike R (.ok a) (.ok b)

theorem Alike.refl {R : α → α → Prop} (hR : ∀ a, R a a) (step : Except ε α) : Alike R step step := by
  cases step with
  | error e => exact Alike.error e
  | ok a => exact Alike.ok (hR a)

/-- The rule for a step and what follows it. -/
theorem Alike.chain {γ δ : Type} {R : α → β → Prop} {S : γ → δ → Prop} {step : Except ε α}
    {step' : Except ε β} {next : α → Except ε γ} {next' : β → Except ε δ} (h : Alike R step step')
    (hnext : ∀ a b, R a b → Alike S (next a) (next' b)) :
    Alike S (step >>= next) (step' >>= next') := by
  cases h with
  | error e => exact Alike.error e
  | ok hR => exact hnext _ _ hR

/-- The same step, and what follows it in one computation and in the other. -/
theorem Alike.same_chain {γ δ : Type} {S : γ → δ → Prop} (step : Except ε α)
    {next : α → Except ε γ} {next' : α → Except ε δ} (hnext : ∀ a, Alike S (next a) (next' a)) :
    Alike S (step >>= next) (step >>= next') :=
  (Alike.refl (R := Eq) (fun _ => rfl) step).chain fun a _ h => h ▸ hnext a

/-! ### Keeping the best candidate -/

/-- Go through a list, in which every element may fail, be passed over or propose a ranked
candidate, and keep the first of the candidates with the highest rank. -/
def best (candidate : α → Except ε (Option (ℕ × β))) :
    Option (ℕ × β) → List α → Except ε (Option (ℕ × β))
  | kept, [] => .ok kept
  | kept, a :: as => do
      match ← candidate a with
      | none => best candidate kept as
      | some (rank, b) =>
          best candidate
            (match kept with
              | none => some (rank, b)
              -- of two candidates of one rank the earlier stays
              | some (keptRank, c) => if keptRank < rank then some (rank, b) else some (keptRank, c))
            as

theorem best_cons_none {candidate : α → Except ε (Option (ℕ × β))} {a : α} {as : List α}
    (h : candidate a = .ok none) (kept : Option (ℕ × β)) :
    best candidate kept (a :: as) = best candidate kept as := by
  rw [best, h]
  rfl

/-- Elements that are passed over can be left out. -/
theorem best_filter {candidate : α → Except ε (Option (ℕ × β))} {p : α → Bool}
    (h : ∀ a, p a = false → candidate a = .ok none) (kept : Option (ℕ × β)) (as : List α) :
    best candidate kept (as.filter p) = best candidate kept as := by
  induction as generalizing kept with
  | nil => rfl
  | cons a as ih =>
      cases hp : p a with
      | false => rw [List.filter_cons_of_neg (by simp [hp]), ih, best_cons_none (h a hp)]
      | true =>
          rw [List.filter_cons_of_pos hp, best, best]
          cases candidate a with
          | error e => rfl
          | ok proposal =>
              cases proposal with
              | none => exact ih kept
              | some q => exact ih _

/-- A proposal takes the place of what was kept, or is not higher than it. -/
theorem best_cons {candidate : α → Except ε (Option (ℕ × β))} {a : α} {as : List α}
    {p : ℕ × β} (h : candidate a = .ok (some p)) (kept : Option (ℕ × β)) :
    best candidate kept (a :: as) = best candidate p as ∧ (∀ k ∈ kept, k.1 < p.1) ∨
      ∃ k ∈ kept, best candidate kept (a :: as) = best candidate kept as ∧ p.1 ≤ k.1 := by
  obtain ⟨rank, b⟩ := p
  cases kept with
  | none =>
      refine Or.inl ⟨?_, by simp⟩
      rw [best, h]
      rfl
  | some k =>
      by_cases hlt : k.1 < rank
      · refine Or.inl ⟨?_, by simpa using hlt⟩
        rw [best, h, ok_bind]
        simp only [if_pos hlt]
      · refine Or.inr ⟨k, rfl, ?_, Nat.le_of_not_lt hlt⟩
        rw [best, h, ok_bind]
        simp only [if_neg hlt]

/-- What the loop returns was kept already or is the candidate of an element. -/
theorem best_mem {candidate : α → Except ε (Option (ℕ × β))} {as : List α} {kept : Option (ℕ × β)}
    {out : ℕ × β} (h : best candidate kept as = .ok (some out)) :
    kept = some out ∨ ∃ a ∈ as, candidate a = .ok (some out) := by
  induction as generalizing kept with
  | nil =>
      rw [best, Except.ok.injEq] at h
      exact Or.inl h
  | cons a as ih =>
      have hlater : (∃ a' ∈ as, candidate a' = .ok (some out)) →
          ∃ a' ∈ a :: as, candidate a' = .ok (some out) := by
        rintro ⟨a', ha', hc⟩
        exact ⟨a', List.mem_cons_of_mem a ha', hc⟩
      obtain ⟨proposal, hproposal, -⟩ := (chain_eq_ok _ _ _).1 h
      cases proposal with
      | none =>
          rw [best_cons_none hproposal] at h
          exact (ih h).imp_right hlater
      | some p =>
          rcases best_cons hproposal kept with ⟨hstep, -⟩ | ⟨k, -, hstep, -⟩
          · rw [hstep] at h
            rcases ih h with hkept | hfound
            · obtain rfl := Option.some.inj hkept
              exact Or.inr ⟨a, List.mem_cons_self, hproposal⟩
            · exact Or.inr (hlater hfound)
          · rw [hstep] at h
            exact (ih h).imp_right hlater

/-- `p` is the first of the highest-ranked proposals of a list. -/
def FirstBest (propose : α → Option (ℕ × β)) (as : List α) (p : ℕ × β) : Prop :=
  ∃ before a after, as = before ++ a :: after ∧ propose a = some p ∧
    (∀ x ∈ before, ∀ q ∈ propose x, q.1 < p.1) ∧ ∀ x ∈ after, ∀ q ∈ propose x, q.1 ≤ p.1

/-- An element in front with a lower proposal, or with none, changes nothing. -/
theorem FirstBest.cons {propose : α → Option (ℕ × β)} {as : List α} {p : ℕ × β}
    (h : FirstBest propose as p) {a : α} (ha : ∀ q ∈ propose a, q.1 < p.1) :
    FirstBest propose (a :: as) p := by
  obtain ⟨before, a', after, rfl, hp, hbefore, hafter⟩ := h
  exact ⟨a :: before, a', after, rfl, hp, List.forall_mem_cons.2 ⟨ha, hbefore⟩, hafter⟩

/-- **The loop returns what it kept, or the first of the highest-ranked proposals**, where no
element fails. -/
theorem best_spec {candidate : α → Except ε (Option (ℕ × β))} {propose : α → Option (ℕ × β)}
    {as : List α} (h : ∀ a ∈ as, candidate a = .ok (propose a)) (kept : Option (ℕ × β)) :
    (best candidate kept as = .ok kept ∧ ∀ a ∈ as, ∀ p ∈ propose a, ∃ k ∈ kept, p.1 ≤ k.1) ∨
      ∃ p, best candidate kept as = .ok (some p) ∧ (∀ k ∈ kept, k.1 < p.1) ∧
        FirstBest propose as p := by
  induction as generalizing kept with
  | nil => exact Or.inl ⟨rfl, by simp⟩
  | cons a as ih =>
      rw [List.forall_mem_cons] at h
      obtain ⟨ha, has⟩ := h
      cases hp : propose a with
      | none =>
          have hnone : ∀ {c : ℕ × β → Prop}, ∀ q ∈ propose a, c q := by simp [hp]
          rw [best_cons_none (ha.trans (congrArg _ hp))]
          rcases ih has kept with ⟨hbest, hle⟩ | ⟨p, hbest, hkept, hfirst⟩
          · exact Or.inl ⟨hbest, List.forall_mem_cons.2 ⟨hnone, hle⟩⟩
          · exact Or.inr ⟨p, hbest, hkept, hfirst.cons hnone⟩
      | some p =>
          have hsome : ∀ {c : ℕ × β → Prop}, c p → ∀ q ∈ propose a, c q := by simp [hp]
          rw [hp] at ha
          rcases best_cons ha kept with ⟨hstep, hlow⟩ | ⟨k, hk, hstep, hpk⟩
          · -- the proposal is kept, and is the first of its rank so far
            rw [hstep]
            rcases ih has (some p) with ⟨hbest, hle⟩ | ⟨p', hbest, hkept, hfirst⟩
            · refine Or.inr ⟨p, hbest, hlow, [], a, as, rfl, hp, by simp, ?_⟩
              simpa using hle
            · have hlt : p.1 < p'.1 := hkept p rfl
              exact Or.inr ⟨p', hbest, fun k hk => (hlow k hk).trans hlt, hfirst.cons (hsome hlt)⟩
          · rw [hstep]
            rcases ih has kept with ⟨hbest, hle⟩ | ⟨p', hbest, hkept, hfirst⟩
            · exact Or.inl ⟨hbest, List.forall_mem_cons.2 ⟨hsome ⟨k, hk, hpk⟩, hle⟩⟩
            · have hlt : p.1 < p'.1 := hpk.trans_lt (hkept k hk)
              exact Or.inr ⟨p', hbest, hkept, hfirst.cons (hsome hlt)⟩

/-! ### Collecting errors -/

/-- An error, if the condition for it holds. -/
def reportIf (c : Bool) (e : ε) : List ε := if c then [e] else []

/-- The error of a failed computation, reworded. -/
def reportError (f : ε → ε') : Except ε α → List ε'
  | .ok _ => []
  | .error e => [f e]

@[simp] theorem reportIf_eq_nil {c : Bool} {e : ε} : reportIf c e = [] ↔ c = false := by
  unfold reportIf
  cases c with
  | false => simp
  | true => simp

@[simp] theorem reportError_eq_nil {f : ε → ε'} {x : Except ε α} :
    reportError f x = [] ↔ ∃ a, x = .ok a := by
  cases x with
  | error e => simp [reportError]
  | ok a => simp [reportError]

end Fallible
