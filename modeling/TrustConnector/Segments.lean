/-
**Segments of a list.**

A separator cuts a list into segments, one more than there are separators; neighbouring separators
have an empty segment between them.  A list `p` that is the start of `s` has its own segments, and
`s` has the segments that follow them; a separator at the end of `p` ends the last segment of `p`
and does not start another.

Main definitions:

* `Segments.own` — the segments of a start;
* `Segments.behind` — the segments that follow it.

Main results:

* `Segments.induction_on` — induction along the separators;
* `Segments.behind_append_cons`, `Segments.behind_append` — **what follows a start, without and with
  a separator at its end**;
* `Segments.own_prefix_iff` — **when the segments of a start are the first ones of a list**.
-/

import Mathlib

set_option relaxedAutoImplicit false
set_option autoImplicit false

namespace Segments

variable {α : Type} [DecidableEq α] {sep : α}

/-- Induction along the separators: a list is a single segment, or a segment, a separator and a
list. -/
theorem induction_on {P : List α → Prop} (sep : α) (single : ∀ s, sep ∉ s → P s)
    (step : ∀ s t, sep ∉ s → P t → P (s ++ sep :: t)) (l : List α) : P l := by
  induction hn : l.length using Nat.strong_induction_on generalizing l with
  | _ n ih =>
      subst hn
      by_cases hmem : sep ∈ l
      · obtain ⟨s, t, hl, hs⟩ := List.eq_append_cons_of_mem hmem
        rw [hl]
        refine step s t hs (ih t.length ?_ t rfl)
        rw [hl]
        simp only [List.length_append, List.length_cons]
        omega
      · exact single l hmem

/-- The segments of a start; a separator at its end ends the last of them. -/
def own (sep : α) (p : List α) : List (List α) :=
  if p.getLast? = some sep then (p.splitOn sep).dropLast else p.splitOn sep

/-- A start with a separator at its end has the segments in front of that separator. -/
theorem own_append_singleton (q : List α) : own sep (q ++ [sep]) = q.splitOn sep := by
  rw [own, if_pos List.getLast?_concat, List.splitOn_append_cons_self, List.splitOn_nil,
    List.dropLast_concat]

/-- The segments of a list that follow those of a start. -/
def behind (sep : α) (s p : List α) : List (List α) := (s.splitOn sep).drop (own sep p).length

/-- **Behind a start without a separator at its end** the next separator belongs to neither. -/
theorem behind_append_cons {p : List α} (h : p.getLast? ≠ some sep) (t : List α) :
    behind sep (p ++ sep :: t) p = t.splitOn sep := by
  rw [behind, own, if_neg h, List.splitOn_append_cons_self, List.drop_left]

/-- **Behind a start with a separator at its end** the next segment begins at once. -/
theorem behind_append {p : List α} (h : p.getLast? = some sep) (t : List α) :
    behind sep (p ++ t) p = t.splitOn sep := by
  obtain ⟨q, rfl⟩ := List.getLast?_eq_some_iff.1 h
  rw [behind, own_append_singleton, List.append_assoc, List.singleton_append,
    List.splitOn_append_cons_self, List.drop_left]

/-- A separator in front adds an empty segment. -/
theorem splitOn_cons_self (t : List α) : (sep :: t).splitOn sep = [] :: t.splitOn sep := by
  have h := List.splitOn_append_cons_self (a := sep) [] t
  rwa [List.splitOn_nil, List.nil_append, List.singleton_append] at h

/-- The last separator of a list is where its last segment begins. -/
theorem append_cons_inj {s s' t t' : List α} (ht : sep ∉ t) (ht' : sep ∉ t')
    (h : s ++ sep :: t = s' ++ sep :: t') : s = s' ∧ t = t' := by
  have hsplit := congrArg (List.splitOn sep) h
  rw [List.splitOn_append_cons_self, List.splitOn_append_cons_self, List.splitOn_eq_singleton ht,
    List.splitOn_eq_singleton ht'] at hsplit
  obtain rfl : t = t' := List.singleton_inj.1 (List.append_inj_right' hsplit rfl)
  exact ⟨List.append_cancel_right h, rfl⟩

/-- The first of some segments that come first is where the list starts. -/
theorem cons_prefix_splitOn {a s : List α} {l : List (List α)} (h : a :: l <+: s.splitOn sep) :
    (s = a ∧ l = []) ∨ ∃ t, s = a ++ sep :: t ∧ l <+: t.splitOn sep := by
  cases s using induction_on sep with
  | single s hs =>
      rw [List.splitOn_eq_singleton hs, List.cons_prefix_cons, List.prefix_nil] at h
      exact Or.inl ⟨h.1.symm, h.2⟩
  | step b t hb _ =>
      rw [List.splitOn_append_cons_self_of_not_mem hb, List.cons_prefix_cons] at h
      obtain ⟨rfl, h⟩ := h
      exact Or.inr ⟨t, rfl, h⟩

/-- **The segments of a list start those of another** exactly when the other continues it behind a
separator, or not at all. -/
theorem splitOn_prefix_iff {p s : List α} :
    p.splitOn sep <+: s.splitOn sep ↔ s = p ∨ ∃ t, s = p ++ sep :: t := by
  constructor
  · intro h
    -- the segments of the start are taken off one by one
    induction p using induction_on sep generalizing s with
    | single p hp =>
        rw [List.splitOn_eq_singleton hp] at h
        rcases cons_prefix_splitOn h with ⟨rfl, -⟩ | ⟨t, rfl, -⟩
        · exact Or.inl rfl
        · exact Or.inr ⟨t, rfl⟩
    | step a p ha ih =>
        rw [List.splitOn_append_cons_self_of_not_mem ha] at h
        rcases cons_prefix_splitOn h with ⟨-, hnil⟩ | ⟨t, rfl, hrest⟩
        · exact absurd hnil (List.splitOn_ne_nil sep p)
        · rcases ih hrest with rfl | ⟨u, rfl⟩
          · exact Or.inl rfl
          · exact Or.inr ⟨u, by simp⟩
  · rintro (rfl | ⟨t, rfl⟩)
    · exact List.prefix_rfl
    · rw [List.splitOn_append_cons_self]
      exact List.prefix_append _ _

/-- **The own segments of a start come first**, and one more follows where a separator ends the
start, exactly when the rest begins at a separator or behind one. -/
theorem own_prefix_iff {p s : List α} :
    (own sep p <+: s.splitOn sep ∧
        (p.getLast? = some sep → (own sep p).length < (s.splitOn sep).length)) ↔
      s = p ∨ ∃ t, s = p ++ t ∧ (p.getLast? = some sep ∨ t.head? = some sep) := by
  by_cases hend : p.getLast? = some sep
  · obtain ⟨q, rfl⟩ := List.getLast?_eq_some_iff.1 hend
    rw [own_append_singleton, splitOn_prefix_iff]
    constructor
    · rintro ⟨rfl | ⟨t, rfl⟩, hlength⟩
      · exact absurd (hlength hend) (Nat.lt_irrefl _)
      · exact Or.inr ⟨t, by simp, Or.inl hend⟩
    · intro h
      -- both ways the list goes on behind the separator
      have hmore : ∃ t, s = q ++ sep :: t := by
        rcases h with rfl | ⟨t, rfl, -⟩
        · exact ⟨[], rfl⟩
        · exact ⟨t, by simp⟩
      obtain ⟨t, rfl⟩ := hmore
      refine ⟨Or.inr ⟨t, rfl⟩, fun _ => ?_⟩
      rw [List.splitOn_append_cons_self, List.length_append]
      have := List.length_pos_of_ne_nil (List.splitOn_ne_nil sep t)
      omega
  · rw [own, if_neg hend, splitOn_prefix_iff]
    simp only [hend, false_imp_iff, and_true, false_or]
    refine or_congr_right ⟨?_, ?_⟩
    · rintro ⟨t, rfl⟩
      exact ⟨sep :: t, rfl, rfl⟩
    · rintro ⟨t, rfl, hhead⟩
      obtain ⟨u, rfl⟩ := List.head?_eq_some_iff.1 hhead
      exact ⟨u, rfl⟩

end Segments
