/-
**Ordered maps with text keys.**

A map from strings to values with one value per key, whose iteration visits the keys in
increasing order.  The order of the entries in memory is immaterial, so the map is an association
list without duplicate keys, and iteration sorts the keys.

Main definitions:

* `StrMap` — the maps;
* `StrMap.push`, `StrMap.pushAll` — appending to the list stored under a key, once and for a whole
  list of pairs;
* `StrMap.mapM` — rebuilding a map with a fallible function, key after key.

Main results:

* `StrMap.lookup_pushAll` — **grouping neither loses a pair nor moves it to another key**;
* `StrMap.lookup_mapM` — the rebuilt map holds, under every key, the image of the old value.
-/

import TrustConnector.MultiMap
import TrustConnector.Text

set_option relaxedAutoImplicit false
set_option autoImplicit false

open Text MultiMap

/-- A map from strings to values. -/
abbrev StrMap (β : Type) := AList fun _ : Str => β

namespace StrMap

variable {α β ε : Type}

/-! ### Grouping -/

/-- Append a value to the list stored under a key, starting it if there is none. -/
def push (m : StrMap (List α)) (k : Str) (x : α) : StrMap (List α) :=
  m.insert k ((m.lookup k).getD [] ++ [x])

/-- Append every value to the list of its key, in order. -/
def pushAll (m : StrMap (List α)) (kvs : List (Str × α)) : StrMap (List α) :=
  kvs.foldl (fun m kv => push m kv.1 kv.2) m

theorem lookup_push_self (m : StrMap (List α)) (k : Str) (x : α) :
    (push m k x).lookup k = some ((m.lookup k).getD [] ++ [x]) :=
  AList.lookup_insert m

theorem lookup_push_of_ne (m : StrMap (List α)) {k k' : Str} (x : α) (h : k' ≠ k) :
    (push m k x).lookup k' = m.lookup k' :=
  AList.lookup_insert_ne h

/-- **Grouping**: under each key stand the values that were there and then those of its pairs. -/
theorem lookup_pushAll (m : StrMap (List α)) (kvs : List (Str × α)) (k : Str) :
    (pushAll m kvs).lookup k =
      if valuesOf k kvs = [] then m.lookup k
      else some ((m.lookup k).getD [] ++ valuesOf k kvs) := by
  induction kvs generalizing m with
  | nil => simp [pushAll]
  | cons kv kvs ih =>
      obtain ⟨k', x⟩ := kv
      rw [pushAll, List.foldl_cons, ← pushAll, ih]
      by_cases hk : k' = k
      · subst hk
        have hv : valuesOf k' ((k', x) :: kvs) = x :: valuesOf k' kvs := by
          rw [valuesOf_cons, if_pos rfl]
        rw [lookup_push_self, hv, if_neg (List.cons_ne_nil _ _)]
        split_ifs with hnil
        · rw [hnil]
        · rw [Option.getD_some, List.append_assoc, List.singleton_append]
      · have hv : valuesOf k ((k', x) :: kvs) = valuesOf k kvs := by
          rw [valuesOf_cons, if_neg hk]
        rw [lookup_push_of_ne m x (Ne.symm hk), hv]

theorem lookup_pushAll_empty (kvs : List (Str × α)) (k : Str) :
    (pushAll ∅ kvs).lookup k = if valuesOf k kvs = [] then none else some (valuesOf k kvs) := by
  rw [lookup_pushAll, AList.lookup_empty]
  simp

/-! ### Rebuilding -/

/-- Rebuild the map under the keys `ks`; keys without a value are passed over. -/
def mapKeys (f : α → Except ε β) (m : StrMap α) : List Str → StrMap β → Except ε (StrMap β)
  | [], out => .ok out
  | k :: ks, out =>
      match m.lookup k with
      | none => mapKeys f m ks out
      | some a =>
          match f a with
          | .error e => .error e
          | .ok b => mapKeys f m ks (out.insert k b)

/-- Rebuild the map with a fallible function, in key order. -/
def mapM (f : α → Except ε β) (m : StrMap α) : Except ε (StrMap β) :=
  mapKeys f m (orderedSet m.keys) ∅

theorem lookup_mapKeys {f : α → Except ε β} {m : StrMap α} {ks : List Str} {out out' : StrMap β}
    (h : mapKeys f m ks out = .ok out') (k : Str) :
    (k ∈ ks ∧ ∃ a b, m.lookup k = some a ∧ f a = .ok b ∧ out'.lookup k = some b) ∨
      ((k ∉ ks ∨ m.lookup k = none) ∧ out'.lookup k = out.lookup k) := by
  induction ks generalizing out with
  | nil =>
      rw [mapKeys, Except.ok.injEq] at h
      exact Or.inr ⟨Or.inl List.not_mem_nil, h ▸ rfl⟩
  | cons k₀ ks ih =>
      rw [mapKeys] at h
      cases hm : m.lookup k₀ with
      | none =>
          rw [hm] at h
          rcases ih h with ⟨hk, hrest⟩ | ⟨hk, hout⟩
          · exact Or.inl ⟨List.mem_cons_of_mem _ hk, hrest⟩
          · refine Or.inr ⟨?_, hout⟩
            by_cases hkk : k = k₀
            · exact Or.inr (hkk ▸ hm)
            · exact hk.imp_left fun hn => by simp [hkk, hn]
      | some a =>
          cases hf : f a with
          | error e => simp only [hm, hf, reduceCtorEq] at h
          | ok b =>
              simp only [hm, hf] at h
              rcases ih h with ⟨hk, hrest⟩ | ⟨hk, hout⟩
              · exact Or.inl ⟨List.mem_cons_of_mem _ hk, hrest⟩
              · by_cases hkk : k = k₀
                · subst hkk
                  rw [AList.lookup_insert] at hout
                  exact Or.inl ⟨List.mem_cons_self, a, b, hm, hf, hout⟩
                · rw [AList.lookup_insert_ne hkk] at hout
                  exact Or.inr ⟨hk.imp_left fun hn => by simp [hkk, hn], hout⟩

/-- **A rebuilt map** holds, under every key, the image of the old value, and nothing else. -/
theorem lookup_mapM {f : α → Except ε β} {m : StrMap α} {out : StrMap β}
    (h : mapM f m = .ok out) (k : Str) :
    (∃ a b, m.lookup k = some a ∧ f a = .ok b ∧ out.lookup k = some b) ∨
      (m.lookup k = none ∧ out.lookup k = none) := by
  rcases lookup_mapKeys h k with ⟨-, hk⟩ | ⟨hk, hout⟩
  · exact Or.inl hk
  · refine Or.inr ⟨?_, by rw [hout, AList.lookup_empty]⟩
    rcases hk with hk | hk
    · exact AList.lookup_eq_none.2 fun hmem => hk (mem_orderedSet.2 (AList.mem_keys.1 hmem))
    · exact hk

theorem mapKeys_of_lookup {f : α → Except ε β} {m : StrMap α}
    (hf : ∀ k a, m.lookup k = some a → ∃ b, f a = .ok b) (ks : List Str) (out : StrMap β) :
    ∃ out', mapKeys f m ks out = .ok out' := by
  induction ks generalizing out with
  | nil => exact ⟨out, rfl⟩
  | cons k ks ih =>
      cases hm : m.lookup k with
      | none =>
          obtain ⟨out', h⟩ := ih out
          exact ⟨out', by simp only [mapKeys, hm, h]⟩
      | some a =>
          obtain ⟨b, hb⟩ := hf k a hm
          obtain ⟨out', h⟩ := ih (out.insert k b)
          exact ⟨out', by simp only [mapKeys, hm, hb, h]⟩

/-- Rebuilding with a function that does not fail on the values of the map does not fail. -/
theorem mapM_of_lookup {f : α → Except ε β} {m : StrMap α}
    (hf : ∀ k a, m.lookup k = some a → ∃ b, f a = .ok b) : ∃ out, mapM f m = .ok out :=
  mapKeys_of_lookup hf _ ∅

/-- Rebuilding with a function that never fails does not fail. -/
theorem mapM_total {f : α → Except ε β} (hf : ∀ a, ∃ b, f a = .ok b) (m : StrMap α) :
    ∃ out, mapM f m = .ok out :=
  mapM_of_lookup fun _ a _ => hf a

end StrMap
