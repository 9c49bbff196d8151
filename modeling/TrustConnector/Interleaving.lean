/-
**Processes that share a state, in every order of their steps.**

A process computes on its own, and now and then accesses the state that it shares with others; each
access is one step, as under a lock.  It can send messages out, and it can be interrupted where it
waits.  In a pool of processes the steps come in any order.

Of the shared state only a part may matter: a view says which states are good and what is seen of
them.  An access is silent if it keeps what is seen and if all good states let the process go on in
the same way.  A process with a single effect makes silent accesses up to one that is not, and sends
and waits only after that one.  A pool of such processes behaves as if they had been run one after
the other, in the order of their effects.

Main definitions:

* `Process`, `Process.run` — a process, and its run with the shared state to itself;
* `View`, `View.Silent`, `View.Quiet`, `View.Single` — which accesses and processes are seen;
* `Pool`, `Step`, `Pool.Linear` — the pool, its steps, and an order that explains it.

Main results:

* `Pool.Linear.step`, `Pool.Linear.steps` — **the order only grows, over one step and over any run**;
* `Pool.Linear.ended`, `Pool.Linear.sentBy_isPrefix` — what the order says of the results and of the
  messages.
-/

import Mathlib

set_option relaxedAutoImplicit false
set_option autoImplicit false

namespace Interleaving

/-- What is left of a process: `σ` is the state it shares, `ε` are its messages and `ρ` its
results. -/
inductive Process (σ ε ρ : Type) where
  | done (result : ρ)
  /-- One access to the shared state; what it writes and how the process goes on depend on what it
  reads. -/
  | access (write : σ → σ) (next : σ → Process σ ε ρ)
  | send (message : ε) (next : Process σ ε ρ)
  /-- The process waits, and can be interrupted. -/
  | wait (next : Process σ ε ρ)

/-- What a process that was not interrupted leaves. -/
structure Outcome (σ ε ρ : Type) where
  result : ρ
  sent : List ε
  left : σ

variable {ι σ ε ρ τ : Type}

/-- The run of a process that has the shared state to itself. -/
def Process.run : Process σ ε ρ → σ → Outcome σ ε ρ
  | .done result, s => ⟨result, [], s⟩
  | .access write next, s => (next s).run (write s)
  | .send message next, s => ⟨(next.run s).result, message :: (next.run s).sent, (next.run s).left⟩
  | .wait next, s => next.run s

/-- The shared state after some tasks, one after the other. -/
def afterAll (code : ι → Process σ ε ρ) (s : σ) (tasks : List ι) : σ :=
  tasks.foldl (fun s task => ((code task).run s).left) s

theorem afterAll_append (code : ι → Process σ ε ρ) (s : σ) (tasks : List ι) (task : ι) :
    afterAll code s (tasks ++ [task]) = ((code task).run (afterAll code s tasks)).left := by
  simp [afterAll, List.foldl_append]

/-! ### Views -/

/-- What matters of a shared state: whether it is good, and what is seen of it. -/
structure View (σ τ : Type) where
  good : σ → Prop
  see : σ → τ

namespace View

variable (V : View σ τ)

/-- An access that is not seen, and that goes on in one way from every good state. -/
structure Silent (write : σ → σ) (next : σ → Process σ ε ρ) : Prop where
  good : ∀ s, V.good s → V.good (write s)
  see : ∀ s, V.good s → V.see (write s) = V.see s
  next : ∀ s s', V.good s → V.good s' → next s = next s'

/-- An access that depends on what is seen only. -/
structure Effect (write : σ → σ) (next : σ → Process σ ε ρ) : Prop where
  good : ∀ s, V.good s → V.good (write s)
  see : ∀ s s', V.good s → V.good s' → V.see s = V.see s' → V.see (write s) = V.see (write s')
  next : ∀ s s', V.good s → V.good s' → V.see s = V.see s' → next s = next s'

/-- A process all of whose accesses are silent. -/
inductive Quiet : Process σ ε ρ → Prop
  | done (result : ρ) : Quiet (.done result)
  | access {write : σ → σ} {next : σ → Process σ ε ρ} (silent : V.Silent write next)
      (hnext : ∀ s, V.good s → Quiet (next s)) : Quiet (.access write next)
  | send {message : ε} {next : Process σ ε ρ} (hnext : Quiet next) : Quiet (.send message next)
  | wait {next : Process σ ε ρ} (hnext : Quiet next) : Quiet (.wait next)

/-- A process with at most one access that is seen, and that sends and waits only after it. -/
inductive Single : Process σ ε ρ → Prop
  | quiet {p : Process σ ε ρ} (h : V.Quiet p) : Single p
  | silent {write : σ → σ} {next : σ → Process σ ε ρ} (silent : V.Silent write next)
      (hnext : ∀ s, V.good s → Single (next s)) : Single (.access write next)
  | effect {write : σ → σ} {next : σ → Process σ ε ρ} (effect : V.Effect write next)
      (hnext : ∀ s, V.good s → V.Quiet (next s)) : Single (.access write next)

/-- Two outcomes that differ in what is not seen at most. -/
structure Same (o o' : Outcome σ ε ρ) : Prop where
  result : o.result = o'.result
  sent : o.sent = o'.sent
  see : V.see o.left = V.see o'.left

variable {V}

theorem Same.trans {o₁ o₂ o₃ : Outcome σ ε ρ} (h : V.Same o₁ o₂) (h' : V.Same o₂ o₃) :
    V.Same o₁ o₃ :=
  ⟨h.result.trans h'.result, h.sent.trans h'.sent, h.see.trans h'.see⟩

theorem Quiet.good_run {p : Process σ ε ρ} (h : V.Quiet p) {s : σ} (hs : V.good s) :
    V.good (p.run s).left := by
  induction h generalizing s with
  | done result => exact hs
  | access silent _ ih => exact ih s hs (silent.good s hs)
  | send _ ih => exact ih hs
  | wait _ ih => exact ih hs

theorem Quiet.see_run {p : Process σ ε ρ} (h : V.Quiet p) {s : σ} (hs : V.good s) :
    V.see (p.run s).left = V.see s := by
  induction h generalizing s with
  | done result => rfl
  | access silent _ ih => exact (ih s hs (silent.good s hs)).trans (silent.see s hs)
  | send _ ih => exact ih hs
  | wait _ ih => exact ih hs

/-- A quiet process ends in the same way from every good state. -/
theorem Quiet.run_const {p : Process σ ε ρ} (h : V.Quiet p) {s s' : σ} (hs : V.good s)
    (hs' : V.good s') :
    (p.run s).result = (p.run s').result ∧ (p.run s).sent = (p.run s').sent := by
  induction h generalizing s s' with
  | done result => exact ⟨rfl, rfl⟩
  | @access write next silent _ ih =>
      simp only [Process.run, silent.next s' s hs' hs]
      exact ih s hs (silent.good s hs) (silent.good s' hs')
  | send _ ih =>
      obtain ⟨hresult, hsent⟩ := ih hs hs'
      exact ⟨hresult, congrArg (List.cons _) hsent⟩
  | wait _ ih => exact ih hs hs'

theorem Quiet.same {p : Process σ ε ρ} (h : V.Quiet p) {s s' : σ} (hs : V.good s)
    (hs' : V.good s') (hsee : V.see s = V.see s') : V.Same (p.run s) (p.run s') := by
  obtain ⟨hresult, hsent⟩ := h.run_const hs hs'
  exact ⟨hresult, hsent, by rw [h.see_run hs, h.see_run hs', hsee]⟩

theorem Single.good_run {p : Process σ ε ρ} (h : V.Single p) {s : σ} (hs : V.good s) :
    V.good (p.run s).left := by
  induction h generalizing s with
  | quiet h => exact h.good_run hs
  | silent silent _ ih => exact ih s hs (silent.good s hs)
  | effect effect hnext => exact (hnext s hs).good_run (effect.good s hs)

/-- What a process with a single effect does depends on what is seen only. -/
theorem Single.same {p : Process σ ε ρ} (h : V.Single p) {s s' : σ} (hs : V.good s)
    (hs' : V.good s') (hsee : V.see s = V.see s') : V.Same (p.run s) (p.run s') := by
  induction h generalizing s s' with
  | quiet h => exact h.same hs hs' hsee
  | silent silent _ ih =>
      simp only [Process.run, silent.next s' s hs' hs]
      refine ih s hs (silent.good s hs) (silent.good s' hs') ?_
      rw [silent.see s hs, silent.see s' hs', hsee]
  | effect effect hnext =>
      simp only [Process.run, effect.next s' s hs' hs hsee.symm]
      exact (hnext s hs).same (effect.good s hs) (effect.good s' hs') (effect.see s s' hs hs' hsee)

/-- A silent access changes nothing of what is to come. -/
theorem Silent.same {write : σ → σ} {next : σ → Process σ ε ρ} (silent : V.Silent write next)
    {s s' : σ} (hs : V.good s) (hs' : V.good s') (hnext : V.Single (next s)) :
    V.Same ((next s).run s') ((Process.access write next).run s') := by
  simp only [Process.run, silent.next s' s hs' hs]
  exact hnext.same hs' (silent.good s' hs') (silent.see s' hs').symm

theorem good_afterAll {code : ι → Process σ ε ρ} (hcode : ∀ task, V.Single (code task)) {s : σ}
    (hs : V.good s) (tasks : List ι) : V.good (afterAll code s tasks) := by
  induction tasks using List.reverseRecOn with
  | nil => exact hs
  | append_singleton tasks task ih =>
      rw [afterAll_append]
      exact (hcode task).good_run ih

end View

/-! ### Pools -/

/-- A task of a pool and what is left of its process, if it was not interrupted. -/
structure Slot (ι σ ε ρ : Type) where
  task : ι
  rest : Option (Process σ ε ρ)

/-- A pool: the shared state, the tasks in the order in which they came, and the messages that were
sent, each with the number of its task. -/
structure Pool (ι σ ε ρ : Type) where
  shared : σ
  slots : List (Slot ι σ ε ρ)
  sent : List (ℕ × ε)

/-- The pool before the first task. -/
def Pool.start (s : σ) : Pool ι σ ε ρ := ⟨s, [], []⟩

/-- **One step of a pool**: a task comes, or a process of the pool takes its next step, or is
interrupted where it waits. -/
inductive Step (code : ι → Process σ ε ρ) : Pool ι σ ε ρ → Pool ι σ ε ρ → Prop
  | arrive (w : Pool ι σ ε ρ) (task : ι) :
      Step code w { w with slots := w.slots ++ [⟨task, some (code task)⟩] }
  | access {w : Pool ι σ ε ρ} {i : ℕ} {task : ι} {write : σ → σ} {next : σ → Process σ ε ρ}
      (h : w.slots[i]? = some ⟨task, some (.access write next)⟩) :
      Step code w { w with
        shared := write w.shared
        slots := w.slots.set i ⟨task, some (next w.shared)⟩ }
  | send {w : Pool ι σ ε ρ} {i : ℕ} {task : ι} {message : ε} {next : Process σ ε ρ}
      (h : w.slots[i]? = some ⟨task, some (.send message next)⟩) :
      Step code w { w with
        slots := w.slots.set i ⟨task, some next⟩
        sent := w.sent ++ [(i, message)] }
  | resume {w : Pool ι σ ε ρ} {i : ℕ} {task : ι} {next : Process σ ε ρ}
      (h : w.slots[i]? = some ⟨task, some (.wait next)⟩) :
      Step code w { w with slots := w.slots.set i ⟨task, some next⟩ }
  | interrupt {w : Pool ι σ ε ρ} {i : ℕ} {task : ι} {next : Process σ ε ρ}
      (h : w.slots[i]? = some ⟨task, some (.wait next)⟩) :
      Step code w { w with slots := w.slots.set i ⟨task, none⟩ }

/-- Any number of steps. -/
abbrev Steps (code : ι → Process σ ε ρ) : Pool ι σ ε ρ → Pool ι σ ε ρ → Prop :=
  Relation.ReflTransGen (Step code)

/-- The process of a slot has neither ended nor been interrupted. -/
def Slot.running (slot : Slot ι σ ε ρ) : Bool :=
  match slot.rest with
  | none => false
  | some (.done _) => false
  | some _ => true

theorem slot_of_set {slots : List (Slot ι σ ε ρ)} {i j : ℕ} {slot slot' new : Slot ι σ ε ρ}
    (h : slots[i]? = some slot) (hrunning : slot.running = true)
    (h' : (slots.set i new)[j]? = some slot') (htask : new.task = slot.task) :
    ∃ old, slots[j]? = some old ∧ old.task = slot'.task ∧
      (slot'.running = true → old.running = true) := by
  by_cases hji : j = i
  · subst hji
    obtain ⟨hlt, -⟩ := List.getElem?_eq_some_iff.1 h
    rw [List.getElem?_set_self hlt, Option.some.injEq] at h'
    subst h'
    exact ⟨slot, h, htask.symm, fun _ => hrunning⟩
  · rw [List.getElem?_set_ne (Ne.symm hji)] at h'
    exact ⟨slot', h', rfl, id⟩

/-- A step that brings no new task keeps the tasks, and wakes no process. -/
theorem Step.slot_of_slot {code : ι → Process σ ε ρ} {w w' : Pool ι σ ε ρ} (h : Step code w w')
    (hlength : w'.slots.length = w.slots.length) {j : ℕ} {slot' : Slot ι σ ε ρ}
    (hslot' : w'.slots[j]? = some slot') :
    ∃ slot, w.slots[j]? = some slot ∧ slot.task = slot'.task ∧
      (slot'.running = true → slot.running = true) := by
  cases h with
  | arrive task => simp at hlength
  | access hslot => exact slot_of_set hslot rfl hslot' rfl
  | send hslot => exact slot_of_set hslot rfl hslot' rfl
  | resume hslot => exact slot_of_set hslot rfl hslot' rfl
  | interrupt hslot => exact slot_of_set hslot rfl hslot' rfl

/-- A process of a pool can run to its end without the others. -/
theorem steps_run (code : ι → Process σ ε ρ) (p : Process σ ε ρ) {w : Pool ι σ ε ρ} {i : ℕ}
    {task : ι} (h : w.slots[i]? = some ⟨task, some p⟩) :
    Steps code w
      { shared := (p.run w.shared).left
        slots := w.slots.set i ⟨task, some (.done (p.run w.shared).result)⟩
        sent := w.sent ++ (p.run w.shared).sent.map (Prod.mk i) } := by
  obtain ⟨hlt, hslot⟩ := List.getElem?_eq_some_iff.1 h
  induction p generalizing w with
  | done result =>
      have hset : w.slots.set i ⟨task, some (.done result)⟩ = w.slots := by
        rw [← hslot, List.set_getElem_self]
      simp only [Process.run, hset, List.map_nil, List.append_nil]
      exact Relation.ReflTransGen.refl
  | access write next ih =>
      refine Relation.ReflTransGen.head (Step.access h) ?_
      have hrest := ih w.shared (w := { w with
          shared := write w.shared
          slots := w.slots.set i ⟨task, some (next w.shared)⟩ })
        (List.getElem?_set_self hlt) (by simpa using hlt) (by simp)
      simpa only [Process.run, List.set_set] using hrest
  | send message next ih =>
      refine Relation.ReflTransGen.head (Step.send h) ?_
      have hrest := ih (w := { w with
          slots := w.slots.set i ⟨task, some next⟩
          sent := w.sent ++ [(i, message)] })
        (List.getElem?_set_self hlt) (by simpa using hlt) (by simp)
      simpa only [List.set_set, Process.run, List.map_cons, List.append_assoc,
        List.singleton_append] using hrest
  | wait next ih =>
      refine Relation.ReflTransGen.head (Step.resume h) ?_
      have hrest := ih (w := { w with slots := w.slots.set i ⟨task, some next⟩ })
        (List.getElem?_set_self hlt) (by simpa using hlt) (by simp)
      simpa only [Process.run, List.set_set] using hrest

/-- A process that has the shared state to itself can be interrupted, after it has sent some messages
and has left a state. -/
inductive Process.Stops : Process σ ε ρ → σ → List ε → σ → Prop
  | here {next : Process σ ε ρ} {s : σ} : Stops (.wait next) s [] s
  | access {write : σ → σ} {next : σ → Process σ ε ρ} {s left : σ} {sent : List ε}
      (h : Stops (next s) (write s) sent left) : Stops (.access write next) s sent left
  | send {message : ε} {next : Process σ ε ρ} {s left : σ} {sent : List ε}
      (h : Stops next s sent left) : Stops (.send message next) s (message :: sent) left
  | wait {next : Process σ ε ρ} {s left : σ} {sent : List ε} (h : Stops next s sent left) :
      Stops (.wait next) s sent left

/-- A process of a pool can run to where it is interrupted, without the others. -/
theorem steps_stop (code : ι → Process σ ε ρ) {p : Process σ ε ρ} {s left : σ} {sent : List ε}
    (h : p.Stops s sent left) {slots : List (Slot ι σ ε ρ)} {before : List (ℕ × ε)} {i : ℕ}
    {task : ι} (hslot : slots[i]? = some ⟨task, some p⟩) :
    Steps code ⟨s, slots, before⟩
      ⟨left, slots.set i ⟨task, none⟩, before ++ sent.map (Prod.mk i)⟩ := by
  obtain ⟨hlt, -⟩ := List.getElem?_eq_some_iff.1 hslot
  induction h generalizing slots before with
  | here =>
      rw [List.map_nil, List.append_nil]
      exact Relation.ReflTransGen.single (Step.interrupt hslot)
  | access _ ih =>
      refine Relation.ReflTransGen.head (Step.access hslot) ?_
      simpa only [List.set_set] using
        ih (List.getElem?_set_self hlt) (by rwa [List.length_set])
  | @send message next s left sent _ ih =>
      refine Relation.ReflTransGen.head (Step.send hslot) ?_
      have hrest : Steps code
          ⟨s, slots.set i ⟨task, some next⟩, before ++ [(i, message)]⟩ _ :=
        ih (List.getElem?_set_self hlt) (by rwa [List.length_set])
      simpa only [List.set_set, List.map_cons, List.append_assoc, List.singleton_append] using hrest
  | wait _ ih =>
      refine Relation.ReflTransGen.head (Step.resume hslot) ?_
      simpa only [List.set_set] using
        ih (List.getElem?_set_self hlt) (by rwa [List.length_set])

/-- No step takes a task away. -/
theorem Step.length_le {code : ι → Process σ ε ρ} {w w' : Pool ι σ ε ρ} (h : Step code w w') :
    w.slots.length ≤ w'.slots.length := by
  cases h <;> simp

theorem Steps.length_le {code : ι → Process σ ε ρ} {w w' : Pool ι σ ε ρ} (h : Steps code w w') :
    w.slots.length ≤ w'.slots.length := by
  induction h with
  | refl => exact le_rfl
  | tail _ hstep ih => exact ih.trans hstep.length_le

namespace Pool

/-- The messages of one task. -/
def sentBy (w : Pool ι σ ε ρ) (i : ℕ) : List ε :=
  w.sent.filterMap fun m => if m.1 = i then some m.2 else none

/-- The tasks with the given numbers. -/
def tasks (w : Pool ι σ ε ρ) (order : List ℕ) : List ι :=
  order.filterMap fun i => (w.slots[i]?).map Slot.task

/-- How often a task has sent a message. -/
theorem count_sent (w : Pool ι σ ε ρ) (i : ℕ) :
    (w.sent.map Prod.fst).count i = (w.sentBy i).length := by
  unfold sentBy
  induction w.sent with
  | nil => rfl
  | cons m sent ih =>
      by_cases h : m.1 = i
      · simp [h, ih]
      · simp [h, ih]

variable (V : View σ τ) (code : ι → Process σ ε ρ) (s₀ : σ)

/-- A task that has had no effect yet: what is left of it is as good as all of it. -/
def Ahead (w : Pool ι σ ε ρ) (order : List ℕ) (i : ℕ) (slot : Slot ι σ ε ρ) : Prop :=
  i ∉ order ∧ w.sentBy i = [] ∧ ∃ p, slot.rest = some p ∧ V.Single p ∧ ¬ V.Quiet p ∧
    ∀ s, V.good s → V.Same (p.run s) ((code slot.task).run s)

/-- A task that has its place in the order: it does what it does after the tasks before it. -/
def Placed (w : Pool ι σ ε ρ) (order : List ℕ) (i : ℕ) (slot : Slot ι σ ε ρ) : Prop :=
  ∃ before after o, order = before ++ i :: after ∧
    o = (code slot.task).run (afterAll code s₀ (w.tasks before)) ∧
    w.sentBy i <+: o.sent ∧
    ∀ p, slot.rest = some p → V.Quiet p ∧
      ∀ s, V.good s → (p.run s).result = o.result ∧ w.sentBy i ++ (p.run s).sent = o.sent

/-- **An order that explains a pool**: the shared state looks as after the tasks of the order, one
after the other, and each task is ahead of its effect or has its place in the order. -/
structure Linear (w : Pool ι σ ε ρ) (order : List ℕ) : Prop where
  nodup : order.Nodup
  lt_length : ∀ i ∈ order, i < w.slots.length
  sent_lt : ∀ m ∈ w.sent, m.1 < w.slots.length
  good : V.good w.shared
  see : V.see w.shared = V.see (afterAll code s₀ (w.tasks order))
  slots : ∀ i slot, w.slots[i]? = some slot →
    Ahead V code w order i slot ∨ Placed V code s₀ w order i slot

/-- A pool after a step of task `i`: all else is as it was. -/
structure Extends (w w' : Pool ι σ ε ρ) (i : ℕ) : Prop where
  length : w.slots.length ≤ w'.slots.length
  tasks : ∀ j, j < w.slots.length → (w'.slots[j]?).map Slot.task = (w.slots[j]?).map Slot.task
  others : ∀ j, j ≠ i → w'.slots[j]? = w.slots[j]?
  sentBy : ∀ j, j ≠ i → w'.sentBy j = w.sentBy j
  sent : ∀ m ∈ w'.sent, m ∈ w.sent ∨ m.1 = i
  lt : i < w'.slots.length

variable {V code s₀}

theorem Extends.tasks_eq {w w' : Pool ι σ ε ρ} {i : ℕ} (h : w.Extends w' i) {order : List ℕ}
    (horder : ∀ j ∈ order, j < w.slots.length) : w'.tasks order = w.tasks order := by
  unfold Pool.tasks
  apply List.filterMap_congr
  intro j hj
  exact h.tasks j (horder j hj)

/-- Replacing one slot, with messages of its own at most. -/
theorem extends_set {w : Pool ι σ ε ρ} {i : ℕ} {slot slot' : Slot ι σ ε ρ} {s : σ}
    {sent : List (ℕ × ε)} (messages : List ε) (h : w.slots[i]? = some slot)
    (htask : slot'.task = slot.task) (hsent : sent = w.sent ++ messages.map (Prod.mk i)) :
    w.Extends ⟨s, w.slots.set i slot', sent⟩ i := by
  obtain ⟨hi, hslot⟩ := List.getElem?_eq_some_iff.1 h
  subst hsent
  refine ⟨by simp, ?_, ?_, ?_, ?_, by simpa using hi⟩
  · intro j hj
    by_cases hji : j = i
    · subst hji
      simp [hi, hslot, htask]
    · simp [List.getElem?_set_ne (Ne.symm hji)]
  · intro j hji
    simp [List.getElem?_set_ne (Ne.symm hji)]
  · intro j hji
    simp [Pool.sentBy, List.filterMap_append, List.filterMap_map, Ne.symm hji]
  · intro m hm
    rcases List.mem_append.1 hm with hm | hm
    · exact .inl hm
    · obtain ⟨e, -, rfl⟩ := List.mem_map.1 hm
      exact .inr rfl

theorem extends_arrive (w : Pool ι σ ε ρ) (slot : Slot ι σ ε ρ) :
    w.Extends { w with slots := w.slots ++ [slot] } w.slots.length := by
  refine ⟨by simp, ?_, ?_, fun j hj => rfl, fun m hm => .inl hm, by simp⟩
  · intro j hj
    simp [List.getElem?_append_left hj]
  · intro j hj
    rcases Nat.lt_or_ge j w.slots.length with hlt | hge
    · simp [List.getElem?_append_left hlt]
    · have hgt : w.slots.length < j := lt_of_le_of_ne hge (Ne.symm hj)
      rw [List.getElem?_eq_none (by simpa using hgt), List.getElem?_eq_none hge]

theorem Ahead.extend {w w' : Pool ι σ ε ρ} {order extra : List ℕ} {i j : ℕ}
    {slot : Slot ι σ ε ρ} (h : Ahead V code w order j slot) (hw : w.Extends w' i) (hj : j ≠ i)
    (hextra : ∀ k ∈ extra, k = i) : Ahead V code w' (order ++ extra) j slot := by
  obtain ⟨horder, hsent, hrest⟩ := h
  refine ⟨?_, (hw.sentBy j hj).trans hsent, hrest⟩
  rw [List.mem_append]
  rintro (hmem | hmem)
  · exact horder hmem
  · exact hj (hextra j hmem)

theorem Placed.extend {w w' : Pool ι σ ε ρ} {order extra : List ℕ} {i j : ℕ}
    {slot : Slot ι σ ε ρ} (h : Placed V code s₀ w order j slot) (hw : w.Extends w' i) (hj : j ≠ i)
    (horder : ∀ k ∈ order, k < w.slots.length) :
    Placed V code s₀ w' (order ++ extra) j slot := by
  obtain ⟨before, after, o, rfl, ho, hsent, hrest⟩ := h
  have hbefore : w'.tasks before = w.tasks before :=
    hw.tasks_eq fun k hk => horder k (List.mem_append_left _ hk)
  refine ⟨before, after ++ extra, o, by simp, by rw [hbefore, ho], ?_, ?_⟩
  · rwa [hw.sentBy j hj]
  · rwa [hw.sentBy j hj]

/-- After a step of task `i` only that task has to be looked at. -/
theorem Linear.extend {w w' : Pool ι σ ε ρ} {order extra : List ℕ} {i : ℕ}
    (h : Linear V code s₀ w order) (hw : w.Extends w' i)
    (hextra : extra = [] ∨ extra = [i] ∧ i ∉ order) (hgood : V.good w'.shared)
    (hsee : V.see w'.shared = V.see (afterAll code s₀ (w'.tasks (order ++ extra))))
    (hslot : ∀ slot, w'.slots[i]? = some slot →
      Ahead V code w' (order ++ extra) i slot ∨ Placed V code s₀ w' (order ++ extra) i slot) :
    Linear V code s₀ w' (order ++ extra) := by
  have hi : ∀ k ∈ extra, k = i := by
    rcases hextra with rfl | ⟨rfl, -⟩ <;> simp
  refine ⟨?_, ?_, ?_, hgood, hsee, ?_⟩
  · rcases hextra with rfl | ⟨rfl, hnot⟩
    · simpa using h.nodup
    · exact List.nodup_append.2 ⟨h.nodup, List.nodup_singleton i, by
        intro a ha b hb hab
        rw [List.mem_singleton.1 hb] at hab
        exact hnot (hab ▸ ha)⟩
  · intro k hk
    rcases List.mem_append.1 hk with hk | hk
    · exact lt_of_lt_of_le (h.lt_length k hk) hw.length
    · rw [hi k hk]
      exact hw.lt
  · intro m hm
    rcases hw.sent m hm with hm | hm
    · exact lt_of_lt_of_le (h.sent_lt m hm) hw.length
    · rw [hm]
      exact hw.lt
  · intro j slot hj
    by_cases hji : j = i
    · subst hji
      exact hslot slot hj
    · rw [hw.others j hji] at hj
      rcases h.slots j slot hj with hahead | hplaced
      · exact .inl (hahead.extend hw hji hi)
      · exact .inr (hplaced.extend hw hji h.lt_length)

/-- A task that has no effect ahead of it any more takes its place at the end of the order. -/
theorem Linear.commit {w w' : Pool ι σ ε ρ} {order : List ℕ} {i : ℕ} {task : ι}
    {p : Process σ ε ρ} (h : Linear V code s₀ w order) (hw : w.Extends w' i) (hi : i ∉ order)
    (hgood : V.good w'.shared) (hslot : w'.slots[i]? = some ⟨task, some p⟩)
    (hsent : w'.sentBy i = []) (hquiet : V.Quiet p)
    (hsee : V.see w'.shared = V.see ((code task).run (afterAll code s₀ (w.tasks order))).left)
    (hrun : ∀ s, V.good s →
      (p.run s).result = ((code task).run (afterAll code s₀ (w.tasks order))).result ∧
      (p.run s).sent = ((code task).run (afterAll code s₀ (w.tasks order))).sent) :
    Linear V code s₀ w' (order ++ [i]) := by
  have htasks : w'.tasks order = w.tasks order := hw.tasks_eq h.lt_length
  have hone : w'.tasks (order ++ [i]) = w.tasks order ++ [task] := by
    rw [← htasks]
    simp [Pool.tasks, List.filterMap_append, hslot]
  refine h.extend hw (.inr ⟨rfl, hi⟩) hgood ?_ ?_
  · rw [hone, afterAll_append, hsee]
  · intro slot hslot'
    obtain rfl : slot = ⟨task, some p⟩ := Option.some.inj (hslot'.symm.trans hslot)
    refine .inr ⟨order, [], _, rfl, by rw [htasks], by simp [hsent], ?_⟩
    rintro q ⟨rfl⟩
    refine ⟨hquiet, fun s hs => ?_⟩
    rw [hsent, List.nil_append]
    exact hrun s hs

/-- A placed task after a step that is not seen. -/
theorem Linear.go {w w' : Pool ι σ ε ρ} {order : List ℕ} {i : ℕ} {task : ι}
    {rest : Option (Process σ ε ρ)} (h : Linear V code s₀ w order) (hw : w.Extends w' i)
    (hgood : V.good w'.shared) (hsee : V.see w'.shared = V.see w.shared)
    (hslot : w'.slots[i]? = some ⟨task, rest⟩)
    (hplaced : Placed V code s₀ w' order i ⟨task, rest⟩) : Linear V code s₀ w' order := by
  have hnil : order ++ [] = order := List.append_nil order
  rw [← hnil]
  refine h.extend hw (.inl rfl) hgood ?_ ?_
  · rw [hnil, hsee, h.see, hw.tasks_eq h.lt_length]
  · intro slot hslot'
    obtain rfl : slot = ⟨task, rest⟩ := Option.some.inj (hslot'.symm.trans hslot)
    rw [hnil]
    exact .inr hplaced

/-! ### Steps and runs -/

section Steps

variable (hcode : ∀ task, V.Single (code task)) (hs₀ : V.good s₀)
include hcode hs₀

/-- A new task is ahead of its effect, or has none. -/
theorem Linear.arrive {w : Pool ι σ ε ρ} {order : List ℕ} (h : Linear V code s₀ w order)
    (task : ι) : ∃ order', order <+: order' ∧
      Linear V code s₀ { w with slots := w.slots ++ [⟨task, some (code task)⟩] } order' := by
  have hw := extends_arrive w ⟨task, some (code task)⟩
  have hslot : (w.slots ++ [⟨task, some (code task)⟩])[w.slots.length]? =
      some ⟨task, some (code task)⟩ := by simp
  have hnot : w.slots.length ∉ order := fun hmem => (h.lt_length _ hmem).false
  have hsent : w.sentBy w.slots.length = [] := by
    unfold Pool.sentBy
    rw [List.filterMap_eq_nil_iff]
    intro m hm
    rw [if_neg (h.sent_lt m hm).ne]
  have hgood : V.good (afterAll code s₀ (w.tasks order)) := View.good_afterAll hcode hs₀ _
  by_cases hquiet : V.Quiet (code task)
  · refine ⟨_, List.prefix_append _ _, h.commit hw hnot h.good hslot hsent hquiet ?_ ?_⟩
    · rw [hquiet.see_run hgood]
      exact h.see
    · intro s hs
      exact hquiet.run_const hs hgood
  · refine ⟨order ++ [], List.prefix_append _ _, h.extend hw (.inl rfl) h.good ?_ ?_⟩
    · rw [List.append_nil, hw.tasks_eq h.lt_length]
      exact h.see
    · intro slot hslot'
      obtain rfl : slot = ⟨task, some (code task)⟩ := Option.some.inj (hslot'.symm.trans hslot)
      exact .inl ⟨by simpa using hnot, hsent, code task, rfl, hcode task, hquiet,
        fun s _ => ⟨rfl, rfl, rfl⟩⟩

/-- An access of a task that is ahead of its effect: silent, or the effect itself. -/
theorem Linear.access_ahead {w : Pool ι σ ε ρ} {order : List ℕ} {i : ℕ} {task : ι}
    {write : σ → σ} {next : σ → Process σ ε ρ} (h : Linear V code s₀ w order)
    (hslot : w.slots[i]? = some ⟨task, some (.access write next)⟩)
    (hahead : Ahead V code w order i ⟨task, some (.access write next)⟩) :
    ∃ order', order <+: order' ∧ Linear V code s₀
      { w with
        shared := write w.shared
        slots := w.slots.set i ⟨task, some (next w.shared)⟩ } order' := by
  obtain ⟨hi, hsent, p, ⟨rfl⟩, hsingle, hloud, hsame⟩ := hahead
  have hlt : i < w.slots.length := (List.getElem?_eq_some_iff.1 hslot).1
  have hw : w.Extends { w with
      shared := write w.shared
      slots := w.slots.set i ⟨task, some (next w.shared)⟩ } i :=
    extends_set [] hslot rfl (by simp)
  have hslot' : (w.slots.set i ⟨task, some (next w.shared)⟩)[i]? =
      some ⟨task, some (next w.shared)⟩ := List.getElem?_set_self hlt
  have hgood : V.good (afterAll code s₀ (w.tasks order)) := View.good_afterAll hcode hs₀ _
  cases hsingle with
  | quiet hquiet => exact absurd hquiet hloud
  | silent silent hnext =>
      have hthen := hnext _ h.good
      -- what is left is as good as what was left before the access
      have hrest : ∀ s, V.good s → V.Same ((next w.shared).run s) ((code task).run s) :=
        fun s hs => (silent.same h.good hs hthen).trans (hsame s hs)
      have hsee := (silent.see _ h.good).trans h.see
      by_cases hquiet : V.Quiet (next w.shared)
      · refine ⟨_, List.prefix_append _ _, h.commit hw hi (silent.good _ h.good) hslot' hsent hquiet
          ?_ ?_⟩
        · rw [← (hrest _ hgood).see, hquiet.see_run hgood]
          exact hsee
        · intro s hs
          obtain ⟨hresult, hsent'⟩ := hquiet.run_const hs hgood
          exact ⟨hresult.trans (hrest _ hgood).result, hsent'.trans (hrest _ hgood).sent⟩
      · refine ⟨order ++ [], List.prefix_append _ _,
          h.extend hw (.inl rfl) (silent.good _ h.good) ?_ ?_⟩
        · rw [List.append_nil, hw.tasks_eq h.lt_length]
          exact hsee
        · intro slot hslot''
          obtain rfl := Option.some.inj (hslot''.symm.trans hslot')
          exact .inl ⟨by simpa using hi, hsent, _, rfl, hthen, hquiet, hrest⟩
  | effect effect hnext =>
      have hquiet := hnext _ h.good
      -- the effect happens on a state that looks as after the tasks of the order
      have hseq : ((Process.access write next).run (afterAll code s₀ (w.tasks order))) =
          (next w.shared).run (write (afterAll code s₀ (w.tasks order))) := by
        simp only [Process.run, effect.next _ _ hgood h.good h.see.symm]
      have hthere := hsame _ hgood
      rw [hseq] at hthere
      refine ⟨_, List.prefix_append _ _, h.commit hw hi (effect.good _ h.good) hslot' hsent hquiet
        ?_ ?_⟩
      · rw [← hthere.see, hquiet.see_run (effect.good _ hgood)]
        exact effect.see _ _ h.good hgood h.see
      · intro s hs
        obtain ⟨hresult, hsent'⟩ := hquiet.run_const hs (effect.good _ hgood)
        exact ⟨hresult.trans hthere.result, hsent'.trans hthere.sent⟩

end Steps

theorem not_ahead_of_quiet {w : Pool ι σ ε ρ} {order : List ℕ} {i : ℕ} {task : ι}
    {p : Process σ ε ρ} (h : Ahead V code w order i ⟨task, some p⟩)
    (hp : V.Single p → V.Quiet p) : False := by
  obtain ⟨-, -, q, ⟨rfl⟩, hsingle, hloud, -⟩ := h
  exact hloud (hp hsingle)

/-- A task that has its place takes a step of its own. -/
theorem Placed.next {w w' : Pool ι σ ε ρ} {order : List ℕ} {i : ℕ} {task : ι}
    {p p' : Process σ ε ρ} (h : Placed V code s₀ w order i ⟨task, some p⟩)
    (horder : ∀ k ∈ order, k < w.slots.length) (hw : w.Extends w' i) (messages : List ε)
    (hsent : w'.sentBy i = w.sentBy i ++ messages) (hgood : V.good w'.shared)
    (hquiet : V.Quiet p → V.Quiet p')
    (hrun : ∀ s, V.good s → ∃ s', V.good s' ∧ (p.run s').result = (p'.run s).result ∧
      (p.run s').sent = messages ++ (p'.run s).sent) :
    Placed V code s₀ w' order i ⟨task, some p'⟩ := by
  obtain ⟨before, after, o, rfl, ho, -, hrest⟩ := h
  have hbefore : w'.tasks before = w.tasks before :=
    hw.tasks_eq fun k hk => horder k (List.mem_append_left _ hk)
  obtain ⟨hp, hend⟩ := hrest p rfl
  have hall : ∀ s, V.good s →
      (p'.run s).result = o.result ∧ w'.sentBy i ++ (p'.run s).sent = o.sent := by
    intro s hs
    obtain ⟨s', hs', hresult, hmessages⟩ := hrun s hs
    obtain ⟨hresult', hsent'⟩ := hend s' hs'
    refine ⟨hresult.symm.trans hresult', ?_⟩
    rw [hsent, List.append_assoc, ← hmessages, hsent']
  refine ⟨before, after, o, rfl, by rw [hbefore, ho], ?_, ?_⟩
  · exact ⟨_, (hall _ hgood).2⟩
  · rintro q ⟨rfl⟩
    exact ⟨hquiet hp, hall⟩

theorem Linear.access_placed {w : Pool ι σ ε ρ} {order : List ℕ} {i : ℕ} {task : ι}
    {write : σ → σ} {next : σ → Process σ ε ρ} (h : Linear V code s₀ w order)
    (hslot : w.slots[i]? = some ⟨task, some (.access write next)⟩)
    (hplaced : Placed V code s₀ w order i ⟨task, some (.access write next)⟩) :
    Linear V code s₀
      { w with
        shared := write w.shared
        slots := w.slots.set i ⟨task, some (next w.shared)⟩ } order := by
  have hlt : i < w.slots.length := (List.getElem?_eq_some_iff.1 hslot).1
  have hw : w.Extends { w with
      shared := write w.shared
      slots := w.slots.set i ⟨task, some (next w.shared)⟩ } i :=
    extends_set [] hslot rfl (by simp)
  obtain ⟨_, _, _, _, _, _, hrest⟩ := id hplaced
  cases (hrest _ rfl).1 with
  | access silent hnext =>
      refine h.go hw (silent.good _ h.good) (silent.see _ h.good) (List.getElem?_set_self hlt) ?_
      refine hplaced.next h.lt_length hw [] (by simp [Pool.sentBy]) (silent.good _ h.good)
        (fun _ => hnext _ h.good) ?_
      intro s hs
      obtain ⟨hresult, hsent⟩ := (hnext _ h.good).run_const (silent.good s hs) hs
      refine ⟨s, hs, ?_, ?_⟩
      · rw [Process.run, silent.next _ _ hs h.good, hresult]
      · rw [Process.run, silent.next _ _ hs h.good, hsent, List.nil_append]

/-- **One step**: the order that explains the pool grows at its end at most. -/
theorem Linear.step (hcode : ∀ task, V.Single (code task)) (hs₀ : V.good s₀)
    {w w' : Pool ι σ ε ρ} {order : List ℕ} (h : Linear V code s₀ w order)
    (hstep : Step code w w') :
    ∃ order', order <+: order' ∧ Linear V code s₀ w' order' := by
  cases hstep with
  | arrive task => exact h.arrive hcode hs₀ task
  | access hslot =>
      rcases h.slots _ _ hslot with hahead | hplaced
      · exact h.access_ahead hcode hs₀ hslot hahead
      · exact ⟨order, List.prefix_rfl, h.access_placed hslot hplaced⟩
  | @send i task message next hslot =>
      have hlt : i < w.slots.length := (List.getElem?_eq_some_iff.1 hslot).1
      have hw : w.Extends { w with
          slots := w.slots.set i ⟨task, some next⟩
          sent := w.sent ++ [(i, message)] } i := extends_set [message] hslot rfl rfl
      rcases h.slots _ _ hslot with hahead | hplaced
      · exact (not_ahead_of_quiet hahead fun hp => by cases hp; assumption).elim
      · refine ⟨order, List.prefix_rfl, h.go hw h.good rfl (List.getElem?_set_self hlt) ?_⟩
        refine hplaced.next h.lt_length hw [message] ?_ h.good
          (fun hp => by cases hp; assumption) fun s hs => ⟨s, hs, rfl, rfl⟩
        simp [Pool.sentBy, List.filterMap_append]
  | @resume i task next hslot =>
      have hlt : i < w.slots.length := (List.getElem?_eq_some_iff.1 hslot).1
      have hw : w.Extends { w with slots := w.slots.set i ⟨task, some next⟩ } i :=
        extends_set [] hslot rfl (by simp)
      rcases h.slots _ _ hslot with hahead | hplaced
      · exact (not_ahead_of_quiet hahead fun hp => by cases hp; assumption).elim
      · refine ⟨order, List.prefix_rfl, h.go hw h.good rfl (List.getElem?_set_self hlt) ?_⟩
        exact hplaced.next h.lt_length hw [] (by simp [Pool.sentBy]) h.good
          (fun hp => by cases hp; assumption) fun s hs => ⟨s, hs, rfl, rfl⟩
  | @interrupt i task next hslot =>
      have hlt : i < w.slots.length := (List.getElem?_eq_some_iff.1 hslot).1
      have hw : w.Extends { w with slots := w.slots.set i ⟨task, none⟩ } i :=
        extends_set [] hslot rfl (by simp)
      rcases h.slots _ _ hslot with hahead | hplaced
      · exact (not_ahead_of_quiet hahead fun hp => by cases hp; assumption).elim
      · refine ⟨order, List.prefix_rfl, h.go hw h.good rfl (List.getElem?_set_self hlt) ?_⟩
        obtain ⟨before, after, o, rfl, ho, hsent, -⟩ := hplaced
        have hbefore : Pool.tasks { w with slots := w.slots.set i ⟨task, none⟩ } before =
            w.tasks before :=
          hw.tasks_eq fun k hk => h.lt_length k (List.mem_append_left _ hk)
        exact ⟨before, after, o, rfl, by rw [hbefore, ho], hsent, by simp⟩

/-- **Any run**: the order that explains the pool grows at its end at most. -/
theorem Linear.steps (hcode : ∀ task, V.Single (code task)) (hs₀ : V.good s₀)
    {w w' : Pool ι σ ε ρ} {order : List ℕ} (h : Linear V code s₀ w order)
    (hsteps : Steps code w w') :
    ∃ order', order <+: order' ∧ Linear V code s₀ w' order' := by
  induction hsteps with
  | refl => exact ⟨order, List.prefix_rfl, h⟩
  | tail _ hstep ih =>
      obtain ⟨order₁, hprefix₁, h₁⟩ := ih
      obtain ⟨order₂, hprefix₂, h₂⟩ := h₁.step hcode hs₀ hstep
      exact ⟨order₂, hprefix₁.trans hprefix₂, h₂⟩

theorem linear_start (hs₀ : V.good s₀) : Linear V code s₀ (Pool.start s₀) [] := by
  refine ⟨List.nodup_nil, by simp, by simp [Pool.start], hs₀, rfl, ?_⟩
  intro i slot h
  simp [Pool.start] at h

/-! ### What an order says -/

/-- A task that has ended has the result that it has after the tasks before it. -/
theorem Linear.ended {w : Pool ι σ ε ρ} {order : List ℕ} {i : ℕ} {task : ι} {result : ρ}
    (h : Linear V code s₀ w order) (hslot : w.slots[i]? = some ⟨task, some (.done result)⟩) :
    ∃ before after, order = before ++ i :: after ∧
      result = ((code task).run (afterAll code s₀ (w.tasks before))).result := by
  rcases h.slots i _ hslot with hahead | ⟨before, after, o, horder, rfl, -, hrest⟩
  · exact (not_ahead_of_quiet hahead fun _ => .done result).elim
  · exact ⟨before, after, horder, ((hrest _ rfl).2 _ h.good).1⟩

/-- A task that was interrupted has had its effect. -/
theorem Linear.interrupted {w : Pool ι σ ε ρ} {order : List ℕ} {i : ℕ} {task : ι}
    (h : Linear V code s₀ w order) (hslot : w.slots[i]? = some ⟨task, none⟩) : i ∈ order := by
  rcases h.slots i _ hslot with ⟨-, -, p, hp, -⟩ | ⟨before, after, o, rfl, -⟩
  · cases hp
  · simp

/-- The messages of a task are among the ones it sends after the tasks before it. -/
theorem Linear.sentBy_isPrefix {w : Pool ι σ ε ρ} {order : List ℕ} {i : ℕ} {message : ε}
    (h : Linear V code s₀ w order) (hsent : (i, message) ∈ w.sent) :
    ∃ task rest before after, w.slots[i]? = some ⟨task, rest⟩ ∧ order = before ++ i :: after ∧
      w.sentBy i <+: ((code task).run (afterAll code s₀ (w.tasks before))).sent := by
  obtain ⟨⟨task, rest⟩, hslot⟩ : ∃ slot, w.slots[i]? = some slot :=
    ⟨_, List.getElem?_eq_getElem (h.sent_lt _ hsent)⟩
  have hmem : message ∈ w.sentBy i := List.mem_filterMap.2 ⟨_, hsent, if_pos rfl⟩
  rcases h.slots i _ hslot with ⟨-, hnil, -⟩ | ⟨before, after, o, horder, rfl, hprefix, -⟩
  · simp [hnil] at hmem
  · exact ⟨task, rest, before, after, hslot, horder, hprefix⟩

end Pool

end Interleaving
