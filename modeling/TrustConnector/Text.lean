/-
**Text as bytes.**

A string of the systems language is a sequence of bytes that happens to be UTF-8, and its
operations (comparison, prefixes, splitting at an ASCII character, length) are operations on those
bytes.  Only two of them look at characters: trimming, which removes Unicode white space, and the
check that a byte string is UTF-8 at all.  This module fixes that representation once and gives
each operation the lemmas that later proofs rewrite with.

Main definitions:

* `Text.Str`, `Text.str` — byte strings, and the byte string of a literal;
* `Text.decodeUtf8`, `Text.isUtf8` — the characters of a byte string, when it has any;
* `Text.trim` — removal of leading and trailing white space;
* `Text.decimal`, `Text.parseU64` — a number as text and back;
* `Text.orderedSet` — the elements of a list as an ordered set iterates over them.

Main results:

* `Text.decodeUtf8_utf8` — decoding reads back what encoding writes;
* `Text.isUtf8_append_cons` — UTF-8 can be cut at an ASCII byte;
* `Text.trim_trim`, `Text.trim_ascii` — trimming twice is trimming once, and trimming an ASCII
  string drops bytes from its ends;
* `Text.parseU64_decimal` — a printed 64-bit number parses back to itself;
* `Text.orderedSet_eq_iff` — **two ordered sets are equal exactly when their elements are**.
-/

import Mathlib

set_option relaxedAutoImplicit false
set_option autoImplicit false

namespace Text

/-! ### Byte strings -/

/-- A string, as the bytes it is stored in. -/
abbrev Str := List UInt8

/-- The instance behind membership of strings in lists, under a name of its own. -/
instance lawfulBEqStr : LawfulBEq Str := inferInstance

/-- The bytes of a literal. -/
def str (s : String) : Str := s.toByteArray.data.toList

/-- The byte `/`. -/
abbrev slash : UInt8 := 0x2f

/-- The byte `\`. -/
abbrev backslash : UInt8 := 0x5c

/-- The byte `%`. -/
abbrev percent : UInt8 := 0x25

/-- The byte `:`. -/
abbrev colon : UInt8 := 0x3a

/-- The byte `?`. -/
abbrev question : UInt8 := 0x3f

/-- The byte `#`. -/
abbrev hash : UInt8 := 0x23

/-- The byte `.`. -/
abbrev dot : UInt8 := 0x2e

/-- The byte of `,`. -/
abbrev comma : UInt8 := 0x2c

/-- The ASCII decimal digits. -/
def isDigit (b : UInt8) : Bool := 0x30 ≤ b && b ≤ 0x39

/-- The ASCII letters. -/
def isAlpha (b : UInt8) : Bool := (0x41 ≤ b && b ≤ 0x5a) || (0x61 ≤ b && b ≤ 0x7a)

/-- The ASCII hexadecimal digits, in either case. -/
def isHexDigit (b : UInt8) : Bool :=
  isDigit b || (0x41 ≤ b && b ≤ 0x46) || (0x61 ≤ b && b ≤ 0x66)

/-- Lower-casing one ASCII byte; every other byte is left alone. -/
def lowerByte (b : UInt8) : UInt8 := if 0x41 ≤ b && b ≤ 0x5a then b + 0x20 else b

/-- Lower-casing the ASCII letters of a string. -/
def toAsciiLowercase (s : Str) : Str := s.map lowerByte

/-- What follows the text `pre` at the start of `s`, if `s` starts with it. -/
def stripPrefix (s pre : Str) : Option Str :=
  if pre <+: s then some (s.drop pre.length) else none

theorem stripPrefix_eq_some_iff {s pre rest : Str} :
    stripPrefix s pre = some rest ↔ s = pre ++ rest := by
  unfold stripPrefix
  constructor
  · intro h
    split_ifs at h with hp
    obtain ⟨t, rfl⟩ := hp
    rw [List.drop_left, Option.some.injEq] at h
    rw [h]
  · rintro rfl
    rw [if_pos (List.prefix_append pre rest), List.drop_left]

@[simp] theorem stripPrefix_append (pre rest : Str) : stripPrefix (pre ++ rest) pre = some rest :=
  stripPrefix_eq_some_iff.2 rfl

/-- A text that ends at the first separator is determined by what it is part of. -/
theorem append_cons_inj {sep : UInt8} {a b c d : Str} (ha : sep ∉ a) (hc : sep ∉ c)
    (h : a ++ sep :: b = c ++ sep :: d) : a = c ∧ b = d := by
  induction a generalizing c with
  | nil =>
      cases c with
      | nil => exact ⟨rfl, (List.cons.inj h).2⟩
      | cons x c => exact absurd ((List.cons.inj h).1 ▸ List.mem_cons_self) hc
  | cons y a ih =>
      cases c with
      | nil => exact absurd ((List.cons.inj h).1 ▸ List.mem_cons_self) ha
      | cons x c =>
          obtain ⟨rfl, htail⟩ := List.cons.inj h
          obtain ⟨rfl, hrest⟩ := ih (fun hm => ha (List.mem_cons_of_mem y hm))
            (fun hm => hc (List.mem_cons_of_mem y hm)) htail
          exact ⟨rfl, hrest⟩

/-! ### UTF-8 -/

/-- The bytes of a list of characters. -/
def utf8 (cs : List Char) : Str := cs.flatMap String.utf8EncodeChar

/-- The characters of a byte string, when it is UTF-8. -/
def decodeUtf8 (s : Str) : Option (List Char) :=
  (ByteArray.mk s.toArray).utf8Decode?.map Array.toList

/-- A byte string is UTF-8. -/
def isUtf8 (s : Str) : Bool := (decodeUtf8 s).isSome

theorem mk_toArray_utf8 (cs : List Char) : ByteArray.mk (utf8 cs).toArray = cs.utf8Encode := by
  apply ByteArray.ext
  simp [utf8, List.utf8Encode, List.data_toByteArray]

theorem decodeUtf8_utf8 (cs : List Char) : decodeUtf8 (utf8 cs) = some cs := by
  rw [decodeUtf8, mk_toArray_utf8, List.utf8Decode?_utf8Encode]
  rfl

theorem utf8_append (cs ds : List Char) : utf8 (cs ++ ds) = utf8 cs ++ utf8 ds := by
  simp [utf8]

theorem utf8_cons (c : Char) (cs : List Char) :
    utf8 (c :: cs) = String.utf8EncodeChar c ++ utf8 cs := by
  simp [utf8]

/-- **The strings that are UTF-8** are the encodings of lists of characters. -/
theorem isUtf8_iff {s : Str} : isUtf8 s = true ↔ ∃ cs, s = utf8 cs := by
  constructor
  · intro h
    rw [isUtf8, decodeUtf8, Option.isSome_map, ByteArray.isSome_utf8Decode?_iff] at h
    obtain ⟨cs, hcs⟩ := h
    refine ⟨cs, ?_⟩
    rw [← mk_toArray_utf8] at hcs
    simpa using hcs
  · rintro ⟨cs, rfl⟩
    rw [isUtf8, decodeUtf8_utf8]
    rfl

/-- The encoding of a character is a single byte, or has no ASCII byte at all. -/
theorem utf8EncodeChar_cases (c : Char) :
    (∃ b : UInt8, String.utf8EncodeChar c = [b]) ∨
      ∀ b ∈ String.utf8EncodeChar c, 0x80 ≤ b.toNat := by
  unfold String.utf8EncodeChar
  simp only
  split_ifs with h₁ h₂ h₃
  · exact Or.inl ⟨_, rfl⟩
  all_goals
    refine Or.inr ?_
    simp only [List.forall_mem_cons, UInt8.toNat_ofNat', List.not_mem_nil, false_imp_iff,
      implies_true, and_true]
    omega

/-- What stands around an ASCII byte in an encoding is an encoding. -/
theorem utf8_cut {b : UInt8} (hb : b.toNat < 0x80) {t : Str} {cs : List Char} {s : Str}
    (h : s ++ b :: t = utf8 cs) : (∃ ds, s = utf8 ds) ∧ ∃ ds, t = utf8 ds := by
  -- character after character, until the encoding of one reaches the byte
  induction cs generalizing s with
  | nil => simp [utf8] at h
  | cons c cs ih =>
      rw [utf8_cons] at h
      rcases List.append_eq_append_iff.1 h with ⟨u, hc, hrest⟩ | ⟨u, hs, hrest⟩
      · cases u with
        | nil =>
            obtain ⟨-, ht⟩ := ih (s := []) hrest
            exact ⟨⟨[c], by rw [utf8_cons, hc]; simp [utf8]⟩, ht⟩
        | cons x u =>
            obtain ⟨rfl, rfl⟩ := List.cons.inj hrest
            rcases utf8EncodeChar_cases c with ⟨b', hone⟩ | hhigh
            · rw [hone] at hc
              cases s with
              | nil =>
                  obtain ⟨-, rfl⟩ := List.cons.inj hc
                  exact ⟨⟨[], rfl⟩, cs, rfl⟩
              | cons y s => simp at hc
            · have := hhigh b (by rw [hc]; simp)
              omega
      · obtain ⟨⟨ds, rfl⟩, ht⟩ := ih hrest.symm
        exact ⟨⟨c :: ds, by rw [utf8_cons, hs]⟩, ht⟩

/-- An ASCII byte is the encoding of a character. -/
theorem utf8EncodeChar_ofUInt8 {b : UInt8} (hb : b.toNat < 0x80) :
    String.utf8EncodeChar (Char.ofUInt8 b) = [b] := by
  have hval : (Char.ofUInt8 b).val.toNat = b.toNat := by simp [Char.ofUInt8]
  simp only [String.utf8EncodeChar, hval]
  rw [if_pos (by omega), UInt8.ofNat_toNat]

/-- **UTF-8 can be cut at an ASCII byte.** -/
theorem isUtf8_append_cons {b : UInt8} (hb : b.toNat < 0x80) {s t : Str} :
    isUtf8 (s ++ b :: t) = true ↔ isUtf8 s = true ∧ isUtf8 t = true := by
  simp only [isUtf8_iff]
  constructor
  · rintro ⟨cs, h⟩
    exact utf8_cut hb h
  · rintro ⟨⟨cs, rfl⟩, ds, rfl⟩
    refine ⟨cs ++ Char.ofUInt8 b :: ds, ?_⟩
    rw [utf8_append, utf8_cons, utf8EncodeChar_ofUInt8 hb, List.singleton_append]

/-- An ASCII string is the encoding of its bytes as characters. -/
theorem utf8_map_ofUInt8 {s : Str} (h : ∀ b ∈ s, b.toNat < 0x80) :
    utf8 (s.map Char.ofUInt8) = s := by
  induction s with
  | nil => rfl
  | cons b s ih =>
      rw [List.forall_mem_cons] at h
      rw [List.map_cons, utf8_cons, utf8EncodeChar_ofUInt8 h.1, ih h.2, List.singleton_append]

/-! ### Trimming -/

/-- The characters with the Unicode property `White_Space`. -/
def isWhitespace (c : Char) : Bool :=
  let n := c.toNat
  (0x09 ≤ n && n ≤ 0x0d) || n == 0x20 || n == 0x85 || n == 0xa0 || n == 0x1680 ||
    (0x2000 ≤ n && n ≤ 0x200a) || n == 0x2028 || n == 0x2029 || n == 0x202f || n == 0x205f ||
    n == 0x3000

/-- Dropping the elements that satisfy `p` from both ends of a list. -/
def trimBy {α : Type} (p : α → Bool) (l : List α) : List α := (l.dropWhile p).rdropWhile p

/-- What is trimmed off makes no difference to trimming. -/
theorem trimBy_padded {α : Type} {p : α → Bool} {l r : List α} (hl : ∀ a ∈ l, p a = true)
    (hr : ∀ a ∈ r, p a = true) (s : List α) : trimBy p (l ++ s ++ r) = trimBy p s := by
  have hdrop : r.dropWhile p = [] := List.dropWhile_eq_nil_iff.2 hr
  have hright : ∀ x : List α, (x ++ r).rdropWhile p = x.rdropWhile p := by
    intro x
    have hreverse : ∀ a ∈ r.reverse, p a = true := fun a ha => hr a (List.mem_reverse.1 ha)
    rw [List.rdropWhile, List.reverse_append, List.dropWhile_append_of_pos hreverse,
      List.rdropWhile]
  rw [trimBy, List.append_assoc, List.dropWhile_append_of_pos hl, List.dropWhile_append, trimBy]
  split_ifs with hempty
  · rw [hdrop, List.isEmpty_iff.1 hempty]
  · exact hright _

/-- A list is what trimming leaves, between elements that are trimmed off. -/
theorem exists_padding {α : Type} (p : α → Bool) (s : List α) :
    ∃ l r, s = l ++ trimBy p s ++ r ∧ (∀ a ∈ l, p a = true) ∧ ∀ a ∈ r, p a = true := by
  refine ⟨s.takeWhile p, (s.dropWhile p).rtakeWhile p, ?_, ?_, ?_⟩
  · rw [trimBy, List.append_assoc, List.rdropWhile_append_rtakeWhile,
      List.takeWhile_append_dropWhile]
  · exact fun a => List.mem_takeWhile_imp
  · exact fun a => List.mem_rtakeWhile_imp

/-- Trimming less first makes no difference. -/
theorem trimBy_trimBy_of_imp {α : Type} {p q : α → Bool} (h : ∀ a, q a = true → p a = true)
    (s : List α) : trimBy p (trimBy q s) = trimBy p s := by
  obtain ⟨l, r, hs, hl, hr⟩ := exists_padding q s
  conv_rhs => rw [hs]
  exact (trimBy_padded (fun a ha => h a (hl a ha)) (fun a ha => h a (hr a ha)) _).symm

theorem trimBy_trimBy {α : Type} (p : α → Bool) (l : List α) :
    trimBy p (trimBy p l) = trimBy p l :=
  trimBy_trimBy_of_imp (fun _ h => h) l

/-- There is nothing to trim where no byte is trimmed. -/
theorem trimBy_eq_self {α : Type} {p : α → Bool} {s : List α} (h : ∀ a ∈ s, p a = false) :
    trimBy p s = s := by
  obtain ⟨l, r, hs, hl, hr⟩ := exists_padding p s
  have hpad : ∀ pad : List α, pad ⊆ s → (∀ a ∈ pad, p a = true) → pad = [] := by
    intro pad hsub hpad
    refine List.eq_nil_iff_forall_not_mem.2 fun a ha => ?_
    simpa [h a (hsub ha)] using hpad a ha
  have hleft : l = [] := hpad l (fun a ha => by rw [hs]; simp [ha]) hl
  have hright : r = [] := hpad r (fun a ha => by rw [hs]; simp [ha]) hr
  rw [hleft, hright, List.nil_append, List.append_nil] at hs
  exact hs.symm

/-- Trimming commutes with a map. -/
theorem trimBy_map {α β : Type} (p : β → Bool) (f : α → β) (l : List α) :
    trimBy p (l.map f) = (trimBy (p ∘ f) l).map f := by
  rw [trimBy, trimBy, List.dropWhile_map, List.rdropWhile, List.rdropWhile, ← List.map_reverse,
    List.dropWhile_map, List.map_reverse]

theorem trimBy_subset {α : Type} (p : α → Bool) (l : List α) : trimBy p l ⊆ l := by
  intro a ha
  have hmid : a ∈ l.dropWhile p := (List.rdropWhile_prefix p _).subset ha
  exact (List.dropWhile_sublist p).subset hmid

/-- **Trimming**: the string without its leading and trailing white space.  A byte string that is
not UTF-8 is not a string of the language, and is left alone. -/
def trim (s : Str) : Str :=
  match decodeUtf8 s with
  | some cs => utf8 (trimBy isWhitespace cs)
  | none => s

/-- Trimming the encoding of a list of characters is encoding the trimmed list. -/
theorem trim_utf8 (cs : List Char) : trim (utf8 cs) = utf8 (trimBy isWhitespace cs) := by
  rw [trim, decodeUtf8_utf8]

/-- **Trimming twice is trimming once.** -/
@[simp] theorem trim_trim (s : Str) : trim (trim s) = trim s := by
  cases h : decodeUtf8 s with
  | none =>
      have hs : trim s = s := by rw [trim, h]
      rw [hs, hs]
  | some cs =>
      have hs : trim s = utf8 (trimBy isWhitespace cs) := by rw [trim, h]
      rw [hs, trim_utf8, trimBy_trimBy]

/-- **Trimming an ASCII string** drops bytes from its ends. -/
theorem trim_ascii {s : Str} (h : ∀ b ∈ s, b.toNat < 0x80) :
    trim s = trimBy (fun b => isWhitespace (Char.ofUInt8 b)) s := by
  have hsub : ∀ b ∈ trimBy (fun b => isWhitespace (Char.ofUInt8 b)) s, b.toNat < 0x80 :=
    fun b hb => h b (trimBy_subset _ s hb)
  have htrim := trim_utf8 (s.map Char.ofUInt8)
  rw [utf8_map_ofUInt8 h, trimBy_map] at htrim
  rw [htrim]
  exact utf8_map_ofUInt8 hsub

/-- A string of white space only. -/
def isBlank (s : Str) : Bool := (trim s).isEmpty

@[simp] theorem trim_nil : trim [] = [] := by
  have h := trim_utf8 []
  simpa [utf8, trimBy] using h

/-- The empty string is blank, so a string that is not blank is not empty. -/
theorem ne_nil_of_not_blank {s : Str} (h : isBlank s = false) : s ≠ [] := by
  rintro rfl
  simp [isBlank] at h

/-! ### Numbers -/

/-- A number in decimal digits. -/
def decimal (n : ℕ) : Str := (Nat.toDigits 10 n).map Char.toUInt8

/-- The number written by decimal digits. -/
def ofDigits (s : Str) : ℕ := s.foldl (fun n b => 10 * n + (b.toNat - 0x30)) 0

/-- Parsing a 64-bit unsigned number: an optional `+`, then one or more digits. -/
def parseU64 (s : Str) : Option ℕ :=
  let digits := if s.head? = some 0x2b then s.tail else s
  if digits ≠ [] ∧ digits.all isDigit ∧ ofDigits digits < 2 ^ 64 then some (ofDigits digits)
  else none

theorem toNat_digit_toUInt8 {c : Char} (hc : c.isDigit) : c.toUInt8.toNat = c.toNat := by
  have h : c.toNat ≤ 57 := by
    simp only [Char.isDigit, Bool.and_eq_true, decide_eq_true_eq] at hc
    simpa [UInt32.le_iff_toNat_le] using hc.2
  simp only [Char.toUInt8, UInt32.toNat_toUInt8]
  exact Nat.mod_eq_of_lt (by simp only [Char.toNat] at h; omega)

theorem isDigit_toUInt8 {c : Char} (hc : c.isDigit) : isDigit c.toUInt8 = true := by
  have hn := toNat_digit_toUInt8 hc
  simp only [Char.isDigit, Bool.and_eq_true, decide_eq_true_eq, UInt32.le_iff_toNat_le] at hc
  simp only [isDigit, Bool.and_eq_true, decide_eq_true_eq, UInt8.le_iff_toNat_le, hn]
  exact hc

theorem decimal_ne_nil (n : ℕ) : decimal n ≠ [] := by
  simp [decimal, Nat.toDigits_ne_nil]

theorem isDigit_of_mem_decimal {n : ℕ} {b : UInt8} (h : b ∈ decimal n) : isDigit b = true := by
  obtain ⟨c, hc, rfl⟩ := List.mem_map.1 h
  exact isDigit_toUInt8 (Nat.isDigit_of_mem_toDigits (by omega) (by omega) hc)

/-- The digits of a number read back as that number. -/
theorem ofDigits_decimal (n : ℕ) : ofDigits (decimal n) = n := by
  have h : ∀ (cs : List Char) (k : ℕ), (∀ c ∈ cs, c.isDigit) →
      (cs.map Char.toUInt8).foldl (fun n b => 10 * n + (b.toNat - 0x30)) k =
        Nat.ofDigitChars 10 cs k := by
    intro cs
    induction cs with
    | nil => intro k _; simp
    | cons c cs ih =>
        intro k hcs
        rw [List.map_cons, List.foldl_cons, ih _ (fun d hd => hcs d (List.mem_cons_of_mem c hd)),
          Nat.ofDigitChars_cons, toNat_digit_toUInt8 (hcs c List.mem_cons_self)]
        rfl
  rw [ofDigits, decimal, h _ 0 fun c hc => Nat.isDigit_of_mem_toDigits (by omega) (by omega) hc]
  exact Nat.ofDigitChars_ten_toDigits

theorem decimal_injective : Function.Injective decimal := by
  intro m n h
  rw [← ofDigits_decimal m, h, ofDigits_decimal]

/-- **A printed 64-bit number parses back to itself.** -/
theorem parseU64_decimal {n : ℕ} (hn : n < 2 ^ 64) : parseU64 (decimal n) = some n := by
  have hplus : (decimal n).head? ≠ some 0x2b := by
    intro h
    have := isDigit_of_mem_decimal (List.mem_of_mem_head? h)
    revert this; decide
  have hall : (decimal n).all isDigit = true :=
    List.all_eq_true.2 fun b hb => isDigit_of_mem_decimal hb
  simp only [parseU64, if_neg hplus, ofDigits_decimal]
  rw [if_pos ⟨decimal_ne_nil n, hall, hn⟩]

/-! ### Ordered sets of strings -/

/-- **The elements of a list as an ordered set iterates over them**: in increasing order, byte by
byte and a proper prefix first, each once. -/
def orderedSet (l : List Str) : List Str := l.dedup.insertionSort (· ≤ ·)

@[simp] theorem mem_orderedSet {l : List Str} {s : Str} : s ∈ orderedSet l ↔ s ∈ l := by
  simp [orderedSet]

/-- **Two ordered sets are equal exactly when they have the same elements.** -/
theorem orderedSet_eq_iff {l m : List Str} :
    orderedSet l = orderedSet m ↔ ∀ s, s ∈ l ↔ s ∈ m := by
  constructor
  · intro h s
    rw [← mem_orderedSet, h, mem_orderedSet]
  · intro h
    have hperm : l.dedup.Perm m.dedup :=
      (List.perm_ext_iff_of_nodup (List.nodup_dedup l) (List.nodup_dedup m)).2 fun s => by
        rw [List.mem_dedup, List.mem_dedup]
        exact h s
    refine List.Perm.eq_of_pairwise (fun _ _ _ _ => List.le_antisymm)
      (List.pairwise_insertionSort _ _) (List.pairwise_insertionSort _ _) ?_
    exact (List.perm_insertionSort _ _).trans (hperm.trans (List.perm_insertionSort _ _).symm)

end Text
