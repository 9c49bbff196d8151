/-
**Multimaps, and their two iterators.**

A multimap keeps, for every name, the sequence of values that were stored under it.  It can be
read in two ways: a borrowing iterator yields the name with every value, while an owning iterator
yields the name only with the first value of each name and nothing with the values that follow.
A loop over the second that looks at the name alone sees less than it thinks, and this module says
how much less.

Main definitions:

* `MultiMap` — the maps; names are distinct and no name is stored without a value;
* `MultiMap.getAll`, `MultiMap.get` — all values of a name, and the first;
* `MultiMap.insert`, `MultiMap.append`, `MultiMap.remove` — the updates;
* `MultiMap.iter`, `MultiMap.intoIter` — the borrowing and the owning iterator.

Main results:

* `MultiMap.getAll_insert`, `MultiMap.getAll_remove`, `MultiMap.getAll_appendAll` — what each
  update does to the values of every name;
* `MultiMap.valuesOf_iter` — the borrowing iterator yields every value;
* `MultiMap.getAll_appendAll_filter` — copying the pairs with some names keeps these names only;
* `MultiMap.valuesOf_namedPairs` — **the pairs of the owning iterator that carry a name hold
  exactly the first value of each name**.
-/

import Mathlib

set_option relaxedAutoImplicit false
set_option autoImplicit false

/-- **A multimap.**  The order of the names is whatever the map keeps; the order of the values of
one name is the order in which they were added. -/
structure MultiMap (κ β : Type) where
  /-- Each name with its values. -/
  entries : List (κ × List β)
  /-- No name is stored twice. -/
  nodup : (entries.map Prod.fst).Nodup
  /-- No name is stored without a value. -/
  nonempty : ∀ e ∈ entries, e.2 ≠ []

namespace MultiMap

variable {κ β : Type} [DecidableEq κ]

/-! ### Lists of pairs -/

/-- The values that a list of pairs holds for a key, in order. -/
def valuesOf (k : κ) (kvs : List (κ × β)) : List β := (kvs.filter fun kv => kv.1 = k).map Prod.snd

@[simp] theorem valuesOf_nil (k : κ) : valuesOf k ([] : List (κ × β)) = [] := rfl

theorem valuesOf_cons (k : κ) (kv : κ × β) (kvs : List (κ × β)) :
    valuesOf k (kv :: kvs) = if kv.1 = k then kv.2 :: valuesOf k kvs else valuesOf k kvs := by
  unfold valuesOf
  by_cases h : kv.1 = k <;> simp [h]

@[simp] theorem valuesOf_append (k : κ) (a b : List (κ × β)) :
    valuesOf k (a ++ b) = valuesOf k a ++ valuesOf k b := by simp [valuesOf]

/-! ### Reading -/

/-- The values stored under a name in a list of entries. -/
def find (k : κ) : List (κ × List β) → List β
  | [] => []
  | e :: es => if e.1 = k then e.2 else find k es

/-- All values of a name, in order. -/
def getAll (m : MultiMap κ β) (k : κ) : List β := find k m.entries

/-- The first value of a name. -/
def get (m : MultiMap κ β) (k : κ) : Option β := (m.getAll k).head?

theorem find_of_not_mem {k : κ} {es : List (κ × List β)} (h : k ∉ es.map Prod.fst) :
    find k es = [] := by
  induction es with
  | nil => rfl
  | cons e es ih =>
      simp only [List.map_cons, List.mem_cons, not_or] at h
      rw [find, if_neg (Ne.symm h.1), ih h.2]

/-! ### Updates -/

/-- The map without any name. -/
def empty : MultiMap κ β := ⟨[], List.nodup_nil, by simp⟩

instance : EmptyCollection (MultiMap κ β) := ⟨empty⟩

@[simp] theorem getAll_empty (k : κ) : (∅ : MultiMap κ β).getAll k = [] := rfl

/-- Change the values of one name, which is added at the end if it is new. -/
def adjust (k : κ) (f : List β → List β) : List (κ × List β) → List (κ × List β)
  | [] => [(k, f [])]
  | e :: es => if e.1 = k then (k, f e.2) :: es else e :: adjust k f es

theorem mem_fst_adjust {k k' : κ} {f : List β → List β} {es : List (κ × List β)}
    (h : k' ∈ (adjust k f es).map Prod.fst) : k' = k ∨ k' ∈ es.map Prod.fst := by
  induction es with
  | nil => simpa [adjust] using h
  | cons e es ih =>
      rw [adjust] at h
      split_ifs at h with he
      · simp only [List.map_cons, List.mem_cons] at h ⊢
        exact h.imp_right Or.inr
      · simp only [List.map_cons, List.mem_cons] at h ⊢
        rcases h with h | h
        · exact Or.inr (Or.inl h)
        · exact (ih h).imp_right Or.inr

theorem find_adjust (k k' : κ) (f : List β → List β) (es : List (κ × List β)) :
    find k' (adjust k f es) = if k' = k then f (find k es) else find k' es := by
  induction es with
  | nil => simp [adjust, find, eq_comm]
  | cons e es ih =>
      rw [adjust]
      by_cases he : e.1 = k
      · by_cases hk : k' = k
        · simp [find, he, hk]
        · simp [find, he, hk, Ne.symm hk]
      · by_cases hk : k' = k
        · subst hk
          simpa [find, he] using ih
        · rw [if_neg hk] at ih ⊢
          rw [if_neg he, find, find, ih]

theorem nodup_adjust {k : κ} {f : List β → List β} {es : List (κ × List β)}
    (h : (es.map Prod.fst).Nodup) : ((adjust k f es).map Prod.fst).Nodup := by
  induction es with
  | nil => simp [adjust]
  | cons e es ih =>
      rw [List.map_cons, List.nodup_cons] at h
      rw [adjust]
      split_ifs with he
      · rw [List.map_cons, List.nodup_cons]
        exact ⟨he ▸ h.1, h.2⟩
      · rw [List.map_cons, List.nodup_cons]
        refine ⟨fun hmem => ?_, ih h.2⟩
        rcases mem_fst_adjust hmem with hk | hk
        exacts [he hk, h.1 hk]

theorem nonempty_adjust {k : κ} {f : List β → List β} {es : List (κ × List β)}
    (hf : ∀ vs, f vs ≠ []) (h : ∀ e ∈ es, e.2 ≠ []) : ∀ e ∈ adjust k f es, e.2 ≠ [] := by
  induction es with
  | nil => simp [adjust, hf]
  | cons e es ih =>
      rw [List.forall_mem_cons] at h
      rw [adjust]
      split_ifs with he
      · exact List.forall_mem_cons.2 ⟨hf _, h.2⟩
      · exact List.forall_mem_cons.2 ⟨h.1, ih h.2⟩

/-- Replace the values of a name by one value. -/
def insert (m : MultiMap κ β) (k : κ) (v : β) : MultiMap κ β :=
  ⟨adjust k (fun _ => [v]) m.entries, nodup_adjust m.nodup, nonempty_adjust (by simp) m.nonempty⟩

/-- Add a value behind the values of a name. -/
def append (m : MultiMap κ β) (k : κ) (v : β) : MultiMap κ β :=
  ⟨adjust k (· ++ [v]) m.entries, nodup_adjust m.nodup, nonempty_adjust (by simp) m.nonempty⟩

/-- Add a list of pairs, one after the other. -/
def appendAll (m : MultiMap κ β) (kvs : List (κ × β)) : MultiMap κ β :=
  kvs.foldl (fun m kv => m.append kv.1 kv.2) m

/-- Remove a name with all its values. -/
def remove (m : MultiMap κ β) (k : κ) : MultiMap κ β :=
  ⟨m.entries.filter fun e => e.1 ≠ k,
    m.nodup.sublist (List.filter_sublist.map Prod.fst),
    fun e he => m.nonempty e (List.mem_filter.1 he).1⟩

theorem getAll_insert (m : MultiMap κ β) (k k' : κ) (v : β) :
    (m.insert k v).getAll k' = if k' = k then [v] else m.getAll k' :=
  find_adjust k k' (fun _ => [v]) m.entries

theorem getAll_append (m : MultiMap κ β) (k k' : κ) (v : β) :
    (m.append k v).getAll k' = if k' = k then m.getAll k ++ [v] else m.getAll k' :=
  find_adjust k k' (· ++ [v]) m.entries

theorem getAll_remove (m : MultiMap κ β) (k k' : κ) :
    (m.remove k).getAll k' = if k' = k then [] else m.getAll k' := by
  show find k' (m.entries.filter fun e => e.1 ≠ k) = if k' = k then [] else find k' m.entries
  induction m.entries with
  | nil => simp [find]
  | cons e es ih =>
      by_cases he : e.1 = k
      · rw [List.filter_cons_of_neg (by simp [he]), ih, find]
        by_cases hk : k' = k
        · rw [if_pos hk, if_pos hk]
        · rw [if_neg hk, if_neg hk, he, if_neg (Ne.symm hk)]
      · rw [List.filter_cons_of_pos (by simp [he]), find, find, ih]
        by_cases hk : k' = k
        · rw [if_pos hk, if_pos hk, hk, if_neg he]
        · rw [if_neg hk, if_neg hk]

/-- **Adding a list of pairs** adds to each name the values that the list holds for it. -/
theorem getAll_appendAll (m : MultiMap κ β) (kvs : List (κ × β)) (k : κ) :
    (m.appendAll kvs).getAll k = m.getAll k ++ valuesOf k kvs := by
  induction kvs generalizing m with
  | nil => simp [appendAll]
  | cons kv kvs ih =>
      rw [appendAll, List.foldl_cons, ← appendAll, ih, getAll_append, valuesOf_cons]
      by_cases h : kv.1 = k
      · rw [if_pos h.symm, if_pos h, h, List.append_assoc, List.singleton_append]
      · rw [if_neg (Ne.symm h), if_neg h]

/-! ### Iterators -/

/-- The borrowing iterator: the name with every value. -/
def iter (m : MultiMap κ β) : List (κ × β) := m.entries.flatMap fun e => e.2.map fun v => (e.1, v)

/-- What the owning iterator yields for one name: the name comes with the first value only. -/
def owned (k : κ) : List β → List (Option κ × β)
  | [] => []
  | v :: vs => (some k, v) :: vs.map fun w => (none, w)

/-- The owning iterator. -/
def intoIter (m : MultiMap κ β) : List (Option κ × β) := m.entries.flatMap fun e => owned e.1 e.2

/-- The pairs of an owning iteration that carry a name. -/
def namedPairs (it : List (Option κ × β)) : List (κ × β) :=
  it.filterMap fun nv => nv.1.map fun k => (k, nv.2)

theorem valuesOf_map_pair (k k' : κ) (vs : List β) :
    valuesOf k (vs.map fun v => (k', v)) = if k' = k then vs else [] := by
  induction vs with
  | nil => simp
  | cons v vs ih =>
      rw [List.map_cons, valuesOf_cons, ih]
      split_ifs <;> rfl

omit [DecidableEq κ] in
theorem namedPairs_owned (k : κ) (vs : List β) :
    namedPairs (owned k vs) = (vs.take 1).map fun v => (k, v) := by
  cases vs with
  | nil => rfl
  | cons v vs => simp [owned, namedPairs, List.filterMap_map]

/-- Summing a per-entry contribution over distinct names picks the entry of the name. -/
theorem valuesOf_flatMap (g : List β → List β) (hg : g [] = []) (k : κ)
    {es : List (κ × List β)} (hnd : (es.map Prod.fst).Nodup) :
    valuesOf k (es.flatMap fun e => (g e.2).map fun v => (e.1, v)) = g (find k es) := by
  induction es with
  | nil => simp [find, hg]
  | cons e es ih =>
      rw [List.map_cons, List.nodup_cons] at hnd
      rw [List.flatMap_cons, valuesOf_append, valuesOf_map_pair, ih hnd.2, find]
      by_cases h : e.1 = k
      · rw [if_pos h, if_pos h, find_of_not_mem (h ▸ hnd.1), hg, List.append_nil]
      · rw [if_neg h, if_neg h, List.nil_append]

/-- **The borrowing iterator yields every value.** -/
theorem valuesOf_iter (m : MultiMap κ β) (k : κ) : valuesOf k m.iter = m.getAll k :=
  valuesOf_flatMap id rfl k m.nodup

theorem valuesOf_filter (p : κ → Bool) (k : κ) (kvs : List (κ × β)) :
    valuesOf k (kvs.filter fun kv => p kv.1) = if p k = true then valuesOf k kvs else [] := by
  induction kvs with
  | nil => simp
  | cons kv kvs ih =>
      rw [List.filter_cons, valuesOf_cons]
      by_cases hk : kv.1 = k
      · subst hk
        cases hp : p kv.1 with
        | true => simp [valuesOf_cons, ih, hp]
        | false => simp [ih, hp]
      · cases p kv.1 with
        | true => simp [valuesOf_cons, ih, hk]
        | false => simp [ih, hk]

/-- **Copying the pairs with some names** keeps the values of these names, and nothing else. -/
theorem getAll_appendAll_filter (p : κ → Bool) (m : MultiMap κ β) (k : κ) :
    ((∅ : MultiMap κ β).appendAll (m.iter.filter fun kv => p kv.1)).getAll k =
      if p k = true then m.getAll k else [] := by
  rw [getAll_appendAll, getAll_empty, List.nil_append, valuesOf_filter, valuesOf_iter]

/-- **The named pairs of the owning iterator hold the first value of each name, and no more.** -/
theorem valuesOf_namedPairs (m : MultiMap κ β) (k : κ) :
    valuesOf k (namedPairs m.intoIter) = (m.getAll k).take 1 := by
  have hpairs : namedPairs m.intoIter =
      m.entries.flatMap fun e => (e.2.take 1).map fun v => (e.1, v) := by
    simp only [intoIter, namedPairs, List.filterMap_flatMap]
    exact List.flatMap_congr fun e _ => namedPairs_owned e.1 e.2
  rw [hpairs]
  exact valuesOf_flatMap (List.take 1) rfl k m.nodup

end MultiMap
