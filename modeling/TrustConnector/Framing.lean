/-
**Framed fields.**

A list of named fields is written as text by putting each field on a line of its own, its value
behind the value's length: `name:length:value`.  Values may contain anything, also colons and line
ends; because the length says where the value stops, the text still determines the fields.

Groups of fields with one name are how sets are written.  A group ends where another name starts,
so the text determines the members of the group too.

The names are an arbitrary type with a spelling for each.

Main definitions:

* `Framing.frame`, `Framing.encode` — a field and a list of fields as text;
* `Framing.group`, `Framing.Avoids` — a group of fields with one name, and fields without it.

Main results:

* `Framing.encode_injective` — **the text determines the fields**;
* `Framing.group_append_inj` — the fields determine the groups they are made of.
-/

import TrustConnector.Text

set_option relaxedAutoImplicit false
set_option autoImplicit false

namespace Framing

open Text

variable {ν : Type} (spell : ν → Str)

/-- A field as text: the name, the length of the value, the value, and a line end. -/
def frame (f : ν × Str) : Str :=
  spell f.1 ++ colon :: (decimal f.2.length ++ colon :: (f.2 ++ [0x0a]))

/-- A list of fields as text. -/
def encode (fs : List (ν × Str)) : Str := fs.flatMap (frame spell)

@[simp] theorem encode_nil : encode spell [] = [] := rfl

@[simp] theorem encode_cons (f : ν × Str) (fs : List (ν × Str)) :
    encode spell (f :: fs) = frame spell f ++ encode spell fs := List.flatMap_cons

theorem frame_ne_nil (f : ν × Str) : frame spell f ≠ [] := by simp [frame]

theorem colon_not_mem_decimal (n : ℕ) : colon ∉ decimal n := by
  intro h
  have hdigit := isDigit_of_mem_decimal h
  revert hdigit
  decide

variable {spell}

/-- The first field, and what follows it, are determined by the text. -/
theorem frame_append_inj (hcolon : ∀ n, colon ∉ spell n) (hinj : Function.Injective spell)
    {f g : ν × Str} {r s : Str} (h : frame spell f ++ r = frame spell g ++ s) : f = g ∧ r = s := by
  obtain ⟨n, v⟩ := f
  obtain ⟨m, w⟩ := g
  simp only [frame, List.append_assoc, List.cons_append] at h
  obtain ⟨hname, hlengths⟩ := append_cons_inj (hcolon n) (hcolon m) h
  obtain rfl := hinj hname
  obtain ⟨hlen, hvalues⟩ :=
    append_cons_inj (colon_not_mem_decimal _) (colon_not_mem_decimal _) hlengths
  -- the two values have one length, so they end at the same place
  obtain ⟨rfl, hrest⟩ := List.append_inj hvalues (decimal_injective hlen)
  exact ⟨rfl, (List.cons.inj hrest).2⟩

/-- **The text determines the fields**, as long as the spelling of a name determines the name and
contains no colon. -/
theorem encode_injective (hcolon : ∀ n, colon ∉ spell n) (hinj : Function.Injective spell) :
    Function.Injective (encode spell) := by
  intro fs
  induction fs with
  | nil =>
      intro gs h
      cases gs with
      | nil => rfl
      | cons g gs =>
          rw [encode_nil, encode_cons] at h
          exact absurd (List.append_eq_nil_iff.1 h.symm).1 (frame_ne_nil spell g)
  | cons f fs ih =>
      intro gs h
      cases gs with
      | nil =>
          rw [encode_nil, encode_cons] at h
          exact absurd (List.append_eq_nil_iff.1 h).1 (frame_ne_nil spell f)
      | cons g gs =>
          rw [encode_cons, encode_cons] at h
          obtain ⟨rfl, hrest⟩ := frame_append_inj hcolon hinj h
          rw [ih hrest]

/-! ### Groups -/

/-- One field for each value, all with the same name. -/
def group (name : ν) (values : List Str) : List (ν × Str) := values.map fun v => (name, v)

/-- No field has the name. -/
def Avoids (name : ν) (fs : List (ν × Str)) : Prop := ∀ f ∈ fs, f.1 ≠ name

@[simp] theorem avoids_nil (name : ν) : Avoids name [] := by simp [Avoids]

@[simp] theorem avoids_cons {name : ν} {f : ν × Str} {fs : List (ν × Str)} :
    Avoids name (f :: fs) ↔ f.1 ≠ name ∧ Avoids name fs := List.forall_mem_cons

@[simp] theorem avoids_append {name : ν} {fs gs : List (ν × Str)} :
    Avoids name (fs ++ gs) ↔ Avoids name fs ∧ Avoids name gs := List.forall_mem_append

@[simp] theorem avoids_group {name other : ν} (h : other ≠ name) (values : List Str) :
    Avoids name (group other values) := by
  intro f hf
  obtain ⟨v, -, rfl⟩ := List.mem_map.1 hf
  exact h

/-- A group and what follows it are determined, if the name does not come again. -/
theorem group_append_inj {name : ν} {vs ws : List Str} {fs gs : List (ν × Str)}
    (hfs : Avoids name fs) (hgs : Avoids name gs)
    (h : group name vs ++ fs = group name ws ++ gs) : vs = ws ∧ fs = gs := by
  induction vs generalizing ws with
  | nil =>
      cases ws with
      | nil => exact ⟨rfl, h⟩
      | cons w ws =>
          simp only [group, List.map_nil, List.nil_append, List.map_cons, List.cons_append] at h
          exact absurd rfl (hfs (name, w) (by simp [h]))
  | cons v vs ih =>
      cases ws with
      | nil =>
          simp only [group, List.map_nil, List.nil_append, List.map_cons, List.cons_append] at h
          exact absurd rfl (hgs (name, v) (by simp [← h]))
      | cons w ws =>
          simp only [group, List.map_cons, List.cons_append, List.cons.injEq, Prod.mk.injEq,
            true_and] at h
          obtain ⟨rfl, hrest⟩ := ih h.2
          exact ⟨by rw [h.1], hrest⟩

end Framing
