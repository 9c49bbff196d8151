/-
**Percent-encoding.**

Percent-encoding writes a byte as `%` and two hexadecimal digits.  Decoding replaces every such
triplet by its byte, once, from left to right, and leaves everything else alone: a `%` that two
hexadecimal digits do not follow stays a `%`.  The decoder is therefore total, and not injective;
what it does to a string is decided by the triplets the string contains, and most lemmas below are
about where those can be.

Main definitions:

* `Percent.decode` — the decoder;
* `Percent.encode` — the encoder, for the bytes selected by a set;
* `Percent.wellFormed` — every `%` of a left-to-right scan starts a triplet;
* `Percent.Encoded` — the same as a grammar;
* `Percent.hasTriplet` — the decoder changes the string.

Main results:

* `Percent.decode_append` — decoding distributes over an append that no triplet straddles;
* `Percent.decode_of_not_hasTriplet`, `Percent.length_decode_lt` — the decoder fixes the strings
  without a triplet, and shortens all others;
* `Percent.wellFormed_iff` — the scan accepts exactly the grammar;
* `Percent.decode_encode`, `Percent.wellFormed_encode` — **encoding first does not change what
  decoding reads**, nor whether a string is well formed;
* `Percent.encode_encode` — encoding twice is encoding once;
* `Percent.percent_mem_decode_iff` — in a well-formed string, a decoded `%` comes from `%25`.
-/

import TrustConnector.Text

set_option relaxedAutoImplicit false
set_option autoImplicit false

namespace Percent

open Text

/-! ### Hexadecimal digits -/

/-- The value of a hexadecimal digit. -/
def hexVal (b : UInt8) : UInt8 :=
  if b ≤ 0x39 then b - 0x30 else if b ≤ 0x46 then b - 0x37 else b - 0x57

/-- The upper-case hexadecimal digit of a value below sixteen. -/
def hexDigit (n : UInt8) : UInt8 := if n < 10 then n + 0x30 else n + 0x37

/-- A decidable property of bytes is checked on the 256 of them. -/
theorem of_all_bytes {p : UInt8 → Bool} (h : (List.finRange 256).all (fun i => p ⟨⟨i⟩⟩) = true)
    (b : UInt8) : p b = true :=
  List.all_eq_true.1 h b.toFin (List.mem_finRange _)

theorem isHexDigit_hexDigit_div (b : UInt8) : isHexDigit (hexDigit (b / 16)) = true :=
  of_all_bytes (p := fun b => isHexDigit (hexDigit (b / 16))) (by decide +kernel) b

theorem isHexDigit_hexDigit_mod (b : UInt8) : isHexDigit (hexDigit (b % 16)) = true :=
  of_all_bytes (p := fun b => isHexDigit (hexDigit (b % 16))) (by decide +kernel) b

theorem hexVal_hexDigit (b : UInt8) :
    hexVal (hexDigit (b / 16)) * 16 + hexVal (hexDigit (b % 16)) = b :=
  of_decide_eq_true (of_all_bytes
    (p := fun b => decide (hexVal (hexDigit (b / 16)) * 16 + hexVal (hexDigit (b % 16)) = b))
    (by decide +kernel) b)

theorem not_isHexDigit_percent : isHexDigit percent = false := by decide

theorem not_isHexDigit_slash : isHexDigit slash = false := by decide

/-! ### Decoding -/

/-- **Decoding**: every triplet `%HH` becomes its byte, once, from left to right. -/
def decode : Str → Str
  | [] => []
  | b :: rest =>
      if b = percent then
        match rest with
        | h :: l :: tail =>
            if isHexDigit h && isHexDigit l then (hexVal h * 16 + hexVal l) :: decode tail
            else b :: decode (h :: l :: tail)
        | short => b :: short
      else b :: decode rest

@[simp] theorem decode_nil : decode [] = [] := rfl

theorem decode_cons_of_ne {b : UInt8} (h : b ≠ percent) (rest : Str) :
    decode (b :: rest) = b :: decode rest := by
  rw [decode.eq_def]
  simp [h]

theorem decode_triplet {h l : UInt8} (hh : isHexDigit h = true) (hl : isHexDigit l = true)
    (tail : Str) : decode (percent :: h :: l :: tail) = (hexVal h * 16 + hexVal l) :: decode tail := by
  rw [decode.eq_def]
  simp [hh, hl]

/-- A string starts with a triplet. -/
def startsTriplet : Str → Bool
  | b :: h :: l :: _ => b = percent && isHexDigit h && isHexDigit l
  | _ => false

theorem startsTriplet_iff {s : Str} : startsTriplet s = true ↔
    ∃ h l tail, s = percent :: h :: l :: tail ∧ isHexDigit h = true ∧ isHexDigit l = true := by
  constructor
  · intro hs
    match s, hs with
    | b :: h :: l :: tail, hs =>
        simp only [startsTriplet, Bool.and_eq_true, decide_eq_true_eq] at hs
        obtain ⟨⟨rfl, hh⟩, hl⟩ := hs
        exact ⟨h, l, tail, rfl, hh, hl⟩
  · rintro ⟨h, l, tail, rfl, hh, hl⟩
    simp [startsTriplet, hh, hl]

/-- Where no triplet starts, the first byte is copied. -/
theorem decode_cons_of_not_triplet {b : UInt8} {rest : Str}
    (h : startsTriplet (b :: rest) = false) : decode (b :: rest) = b :: decode rest := by
  by_cases hb : b = percent
  · subst hb
    match rest with
    | [] => rfl
    | [c] =>
        by_cases hc : c = percent
        · subst hc; rfl
        · rw [decode_cons_of_ne hc]; rfl
    | x :: y :: tail =>
        simp only [startsTriplet, decide_true, Bool.true_and, Bool.and_eq_false_iff] at h
        rw [decode.eq_def]
        rcases h with h | h <;> simp [h]
  · exact decode_cons_of_ne hb rest

/-- Induction along the decoder: a string is empty, starts with a triplet, or starts with a byte
that is copied. -/
theorem decode_induction {P : Str → Prop} (nil : P [])
    (triplet : ∀ h l tail, isHexDigit h = true → isHexDigit l = true → P tail →
      P (percent :: h :: l :: tail))
    (copy : ∀ b rest, startsTriplet (b :: rest) = false → P rest → P (b :: rest)) :
    ∀ s, P s := by
  intro s
  induction hn : s.length using Nat.strong_induction_on generalizing s with
  | _ n ih =>
      subst hn
      match s with
      | [] => exact nil
      | b :: rest =>
          cases ht : startsTriplet (b :: rest) with
          | true =>
              obtain ⟨h, l, tail, hs, hh, hl⟩ := startsTriplet_iff.1 ht
              rw [hs]
              refine triplet h l tail hh hl (ih tail.length ?_ tail rfl)
              rw [hs]
              simp only [List.length_cons]
              omega
          | false => exact copy b rest ht (ih rest.length (by simp) rest rfl)

/-- The decoder never lengthens a string. -/
theorem length_decode_le (s : Str) : (decode s).length ≤ s.length := by
  induction s using decode_induction with
  | nil => simp
  | triplet h l tail hh hl ih =>
      rw [decode_triplet hh hl]
      simp only [List.length_cons]
      omega
  | copy b rest ht ih =>
      rw [decode_cons_of_not_triplet ht]
      simp only [List.length_cons]
      omega

/-! ### Where the triplets are -/

/-- A string contains a triplet. -/
def hasTriplet : Str → Bool
  | [] => false
  | b :: rest => startsTriplet (b :: rest) || hasTriplet rest

theorem hasTriplet_of_mem {s : Str} (h : percent ∉ s) : hasTriplet s = false := by
  induction s with
  | nil => rfl
  | cons b rest ih =>
      simp only [List.mem_cons, not_or] at h
      rw [hasTriplet, ih h.2, Bool.or_false]
      by_contra ht
      rw [Bool.not_eq_false] at ht
      obtain ⟨x, y, tail, hs, -, -⟩ := startsTriplet_iff.1 ht
      exact h.1 (List.cons.inj hs).1.symm

theorem decode_of_not_hasTriplet {s : Str} (h : hasTriplet s = false) : decode s = s := by
  induction s with
  | nil => rfl
  | cons b rest ih =>
      rw [hasTriplet, Bool.or_eq_false_iff] at h
      rw [decode_cons_of_not_triplet h.1, ih h.2]

/-- A triplet makes the decoded string shorter. -/
theorem length_decode_lt {s : Str} (h : hasTriplet s = true) :
    (decode s).length < s.length := by
  induction s using decode_induction with
  | nil => simp [hasTriplet] at h
  | triplet x l tail hh hl ih =>
      rw [decode_triplet hh hl]
      have := length_decode_le tail
      simp only [List.length_cons]
      omega
  | copy b rest ht ih =>
      rw [hasTriplet, ht, Bool.false_or] at h
      rw [decode_cons_of_not_triplet ht]
      have := ih h
      simp only [List.length_cons]
      omega

theorem decode_of_not_mem {s : Str} (h : percent ∉ s) : decode s = s :=
  decode_of_not_hasTriplet (hasTriplet_of_mem h)

/-- **Decoding distributes over an append** whose second part does not start with a hexadecimal
digit: no triplet straddles the two. -/
theorem decode_append {s t : Str} (h : ∀ b ∈ t.head?, isHexDigit b = false) :
    decode (s ++ t) = decode s ++ decode t := by
  induction s using decode_induction with
  | nil => simp
  | triplet x l tail hh hl ih =>
      rw [List.cons_append, List.cons_append, List.cons_append, decode_triplet hh hl,
        decode_triplet hh hl, ih, List.cons_append]
  | copy b rest ht ih =>
      have ht' : startsTriplet (b :: rest ++ t) = false := by
        by_contra hc
        rw [Bool.not_eq_false] at hc
        obtain ⟨x, y, tail, hs, hx, hy⟩ := startsTriplet_iff.1 hc
        -- the digit that `rest` lacks would have to be the first byte of `t`
        match rest with
        | [] =>
            obtain rfl : t = x :: y :: tail := by simpa using (List.cons.inj hs).2
            simp [h x rfl] at hx
        | [c] =>
            obtain rfl : t = y :: tail := by simpa using (List.cons.inj (List.cons.inj hs).2).2
            simp [h y rfl] at hy
        | c :: d :: rest =>
            simp only [List.cons_append, List.cons.injEq] at hs
            obtain ⟨rfl, rfl, rfl, -⟩ := hs
            simp [startsTriplet, hx, hy] at ht
      rw [List.cons_append] at ht' ⊢
      rw [decode_cons_of_not_triplet ht', ih, decode_cons_of_not_triplet ht,
        List.cons_append]

/-! ### Well-formed strings -/

/-- Every `%` that a left-to-right scan meets starts a triplet. -/
def wellFormed : Str → Bool
  | [] => true
  | b :: rest =>
      if b = percent then
        match rest with
        | h :: l :: tail => isHexDigit h && isHexDigit l && wellFormed tail
        | _ => false
      else wellFormed rest

theorem wellFormed_cons_of_ne {b : UInt8} (h : b ≠ percent) (rest : Str) :
    wellFormed (b :: rest) = wellFormed rest := by
  rw [wellFormed.eq_def]
  simp [h]

theorem wellFormed_triplet {h l : UInt8} (hh : isHexDigit h = true) (hl : isHexDigit l = true)
    (tail : Str) : wellFormed (percent :: h :: l :: tail) = wellFormed tail := by
  rw [wellFormed.eq_def]
  simp [hh, hl]

theorem wellFormed_of_not_mem {s : Str} (h : percent ∉ s) : wellFormed s = true := by
  induction s with
  | nil => rfl
  | cons b rest ih =>
      simp only [List.mem_cons, not_or] at h
      rw [wellFormed_cons_of_ne (fun e => h.1 e.symm)]
      exact ih h.2

/-- The grammar of well-formed strings: bytes other than `%`, and triplets. -/
inductive Encoded : Str → Prop where
  | nil : Encoded []
  | byte {b : UInt8} {rest : Str} (hb : b ≠ percent) (hrest : Encoded rest) : Encoded (b :: rest)
  | triplet {h l : UInt8} {tail : Str} (hh : isHexDigit h = true) (hl : isHexDigit l = true)
      (htail : Encoded tail) : Encoded (percent :: h :: l :: tail)

/-- In a well-formed string a byte that is copied is not a `%`. -/
theorem ne_percent_of_wellFormed {b : UInt8} {rest : Str} (hw : wellFormed (b :: rest) = true)
    (ht : startsTriplet (b :: rest) = false) : b ≠ percent := by
  rintro rfl
  match rest with
  | [] => simp [wellFormed] at hw
  | [_] => simp [wellFormed] at hw
  | h :: l :: tail =>
      rw [wellFormed.eq_def] at hw
      simp only [if_true, Bool.and_eq_true] at hw
      simp [startsTriplet, hw.1.1, hw.1.2] at ht

/-- **The scan accepts exactly the grammar.** -/
theorem wellFormed_iff {s : Str} : wellFormed s = true ↔ Encoded s := by
  constructor
  · intro hw
    induction s using decode_induction with
    | nil => exact Encoded.nil
    | triplet h l tail hh hl ih =>
        rw [wellFormed_triplet hh hl] at hw
        exact Encoded.triplet hh hl (ih hw)
    | copy b rest ht ih =>
        have hb := ne_percent_of_wellFormed hw ht
        rw [wellFormed_cons_of_ne hb] at hw
        exact Encoded.byte hb (ih hw)
  · intro h
    induction h with
    | nil => rfl
    | byte hb _ ih => rw [wellFormed_cons_of_ne hb, ih]
    | triplet hh hl _ ih => rw [wellFormed_triplet hh hl, ih]

/-- In a well-formed string every `%` belongs to a triplet. -/
theorem hasTriplet_of_wellFormed {s : Str} (hw : wellFormed s = true) (hm : percent ∈ s) :
    hasTriplet s = true := by
  induction s using decode_induction with
  | nil => simp at hm
  | triplet h l tail hh hl _ => simp [hasTriplet, startsTriplet, hh, hl]
  | copy b rest ht ih =>
      have hb := ne_percent_of_wellFormed hw ht
      rw [wellFormed_cons_of_ne hb] at hw
      rcases List.mem_cons.1 hm with rfl | hm
      · exact absurd rfl hb
      · rw [hasTriplet, ih hw hm, Bool.or_true]

/-- The triplet of the byte `%` itself. -/
abbrev percentTriplet : Str := [percent, 0x32, 0x35]

/-- The value of a hexadecimal digit is below sixteen, and `2` and `5` are the only digits with
their values. -/
theorem hexVal_spec {b : UInt8} (hb : isHexDigit b = true) :
    (hexVal b).toNat < 16 ∧ (hexVal b = 2 → b = 0x32) ∧ (hexVal b = 5 → b = 0x35) := by
  have h := of_all_bytes (p := fun b => !isHexDigit b ||
    decide ((hexVal b).toNat < 16 ∧ (hexVal b = 2 → b = 0x32) ∧ (hexVal b = 5 → b = 0x35)))
    (by decide +kernel) b
  rw [hb, Bool.not_true, Bool.false_or] at h
  exact of_decide_eq_true h

/-- The one triplet that decodes to `%` is `%25`. -/
theorem eq_percent_iff {h l : UInt8} (hh : isHexDigit h = true) (hl : isHexDigit l = true) :
    hexVal h * 16 + hexVal l = percent ↔ h = 0x32 ∧ l = 0x35 := by
  obtain ⟨hlt, h2, -⟩ := hexVal_spec hh
  obtain ⟨llt, -, l5⟩ := hexVal_spec hl
  constructor
  · intro he
    have hn := congrArg UInt8.toNat he
    simp only [percent, UInt8.toNat_add, UInt8.toNat_mul, UInt8.reduceToNat] at hn
    refine ⟨h2 (UInt8.toNat_inj.1 ?_), l5 (UInt8.toNat_inj.1 ?_)⟩
    · simp only [UInt8.reduceToNat]; omega
    · simp only [UInt8.reduceToNat]; omega
  · rintro ⟨rfl, rfl⟩
    decide

/-- An infix that starts with `c` and is not at the front lies in the tail. -/
theorem infix_cons_of_ne {c b : UInt8} {p s : Str} (h : b ≠ c) :
    c :: p <:+: b :: s ↔ c :: p <:+: s := by
  rw [List.infix_cons_iff]
  constructor
  · rintro (⟨t, ht⟩ | h')
    · exact absurd (List.cons.inj ht).1.symm h
    · exact h'
  · exact Or.inr

/-- **A decoded `%` comes from `%25`**: in a well-formed string, the decoded string contains a
`%` exactly when the string contains the triplet `%25`. -/
theorem percent_mem_decode_iff {s : Str} (hw : wellFormed s = true) :
    percent ∈ decode s ↔ percentTriplet <:+: s := by
  induction s using decode_induction with
  | nil => simp
  | triplet h l tail hh hl ih =>
      rw [wellFormed_triplet hh hl] at hw
      have hne : ∀ b, isHexDigit b = true → b ≠ percent := by
        rintro b hb rfl
        simp [not_isHexDigit_percent] at hb
      rw [decode_triplet hh hl, List.mem_cons, ih hw, List.infix_cons_iff,
        infix_cons_of_ne (hne h hh), infix_cons_of_ne (hne l hl), eq_comm, eq_percent_iff hh hl]
      simp only [List.cons_prefix_cons, List.nil_prefix, and_true, true_and]
      constructor
      · rintro (⟨rfl, rfl⟩ | h)
        exacts [Or.inl ⟨rfl, rfl⟩, Or.inr h]
      · rintro (⟨rfl, rfl⟩ | h)
        exacts [Or.inl ⟨rfl, rfl⟩, Or.inr h]
  | copy b rest ht ih =>
      have hb := ne_percent_of_wellFormed hw ht
      rw [wellFormed_cons_of_ne hb] at hw
      rw [decode_cons_of_not_triplet ht, List.mem_cons, ih hw, infix_cons_of_ne hb]
      simp [hb.symm]

/-! ### Encoding -/

/-- The triplet of a byte. -/
def encodeByte (b : UInt8) : Str := [percent, hexDigit (b / 16), hexDigit (b % 16)]

/-- **Encoding**: the bytes selected by `set` become triplets. -/
def encode (set : UInt8 → Bool) (s : Str) : Str :=
  s.flatMap fun b => if set b then encodeByte b else [b]

@[simp] theorem encode_nil (set : UInt8 → Bool) : encode set [] = [] := rfl

theorem encode_cons (set : UInt8 → Bool) (b : UInt8) (s : Str) :
    encode set (b :: s) = (if set b then encodeByte b else [b]) ++ encode set s := rfl

theorem encode_append (set : UInt8 → Bool) (s t : Str) :
    encode set (s ++ t) = encode set s ++ encode set t := List.flatMap_append

theorem decode_encodeByte (b : UInt8) (s : Str) : decode (encodeByte b ++ s) = b :: decode s := by
  simp only [encodeByte, List.cons_append, List.nil_append]
  rw [decode_triplet (isHexDigit_hexDigit_div b) (isHexDigit_hexDigit_mod b), hexVal_hexDigit]

/-- The first byte of an encoded string is the first byte of the string, or the `%` of its
triplet. -/
theorem head?_encode {set : UInt8 → Bool} {b : UInt8} {s : Str} :
    (encode set (b :: s)).head? = some (if set b then percent else b) := by
  rw [encode_cons]
  split <;> simp [encodeByte]

/-- A digit at the head of an encoded string is a byte that was left alone, since an encoded byte
starts with `%`. -/
theorem eq_cons_of_encode_eq_cons {set : UInt8 → Bool} {s tail : Str} {x : UInt8}
    (hx : isHexDigit x = true) (h : encode set s = x :: tail) :
    ∃ rest, s = x :: rest ∧ encode set rest = tail := by
  cases s with
  | nil => simp at h
  | cons c rest =>
      have hhead := @head?_encode set c rest
      rw [h, List.head?_cons, Option.some.injEq] at hhead
      cases hc : set c with
      | true => simp [hhead, hc, not_isHexDigit_percent] at hx
      | false =>
          rw [hc, if_neg Bool.false_ne_true] at hhead
          subst hhead
          simp only [encode_cons, hc, Bool.false_eq_true, if_false, List.cons_append,
            List.nil_append, List.cons.injEq, true_and] at h
          exact ⟨rest, rfl, h⟩

/-- Encoding what follows a byte makes no triplet with it. -/
theorem startsTriplet_encode {set : UInt8 → Bool} {b : UInt8} {rest : Str}
    (h : startsTriplet (b :: rest) = false) : startsTriplet (b :: encode set rest) = false := by
  by_contra hc
  rw [Bool.not_eq_false] at hc
  obtain ⟨x, y, tail, hs, hxd, hyd⟩ := startsTriplet_iff.1 hc
  obtain ⟨rfl, hfirst⟩ := List.cons.inj hs
  obtain ⟨rest, rfl, hsecond⟩ := eq_cons_of_encode_eq_cons hxd hfirst
  obtain ⟨rest, rfl, -⟩ := eq_cons_of_encode_eq_cons hyd hsecond
  simp [startsTriplet, hxd, hyd] at h

/-- **Encoding first does not change what decoding reads**, as long as the encoder leaves `%` and
the hexadecimal digits alone. -/
theorem decode_encode {set : UInt8 → Bool} (hp : set percent = false)
    (hx : ∀ b, isHexDigit b = true → set b = false) (s : Str) :
    decode (encode set s) = decode s := by
  induction s using decode_induction with
  | nil => rfl
  | triplet h l tail hh hl ih =>
      simp only [encode_cons, hp, hx h hh, hx l hl, Bool.false_eq_true, if_false,
        List.cons_append, List.nil_append]
      rw [decode_triplet hh hl, decode_triplet hh hl, ih]
  | copy b rest ht ih =>
      rw [decode_cons_of_not_triplet ht, encode_cons]
      cases hb : set b with
      | true => simp only [if_true]; rw [decode_encodeByte, ih]
      | false =>
          simp only [Bool.false_eq_true, if_false, List.cons_append, List.nil_append]
          rw [decode_cons_of_not_triplet (startsTriplet_encode ht), ih]

/-- A `%` that starts no triplet is not well formed. -/
theorem wellFormed_percent_cons {rest : Str} (h : startsTriplet (percent :: rest) = false) :
    wellFormed (percent :: rest) = false := by
  by_contra hc
  rw [Bool.not_eq_false] at hc
  exact ne_percent_of_wellFormed hc h rfl

/-- **Encoding does not change whether a string is well formed**, under the same condition. -/
theorem wellFormed_encode {set : UInt8 → Bool} (hp : set percent = false)
    (hx : ∀ b, isHexDigit b = true → set b = false) (s : Str) :
    wellFormed (encode set s) = wellFormed s := by
  induction s using decode_induction with
  | nil => rfl
  | triplet h l tail hh hl ih =>
      simp only [encode_cons, hp, hx h hh, hx l hl, Bool.false_eq_true, if_false,
        List.cons_append, List.nil_append]
      rw [wellFormed_triplet hh hl, wellFormed_triplet hh hl, ih]
  | copy b rest ht ih =>
      rw [encode_cons]
      cases hb : set b with
      | true =>
          have hne : b ≠ percent := by
            rintro rfl
            rw [hp] at hb
            cases hb
          rw [if_pos rfl, wellFormed_cons_of_ne hne, ← ih]
          exact wellFormed_triplet (isHexDigit_hexDigit_div b) (isHexDigit_hexDigit_mod b) _
      | false =>
          rw [if_neg Bool.false_ne_true, List.singleton_append]
          by_cases hne : b = percent
          · subst hne
            rw [wellFormed_percent_cons ht, wellFormed_percent_cons (startsTriplet_encode ht)]
          · rw [wellFormed_cons_of_ne hne, wellFormed_cons_of_ne hne, ih]

/-- Encoding twice is encoding once. -/
theorem encode_encode {set : UInt8 → Bool} (hp : set percent = false)
    (hx : ∀ b, isHexDigit b = true → set b = false) (s : Str) :
    encode set (encode set s) = encode set s := by
  induction s with
  | nil => rfl
  | cons b rest ih =>
      rw [encode_cons, encode_append, ih]
      cases hb : set b with
      | true =>
          simp [encodeByte, encode_cons, hp, hx _ (isHexDigit_hexDigit_div b),
            hx _ (isHexDigit_hexDigit_mod b)]
      | false => simp [encode_cons, hb]

/-- A byte of an encoded string was left alone, or belongs to a triplet. -/
theorem mem_encode {set : UInt8 → Bool} {s : Str} {b : UInt8} (h : b ∈ encode set s) :
    (b ∈ s ∧ set b = false) ∨ b = percent ∨ isHexDigit b = true := by
  obtain ⟨c, hc, hb⟩ := List.mem_flatMap.1 h
  cases hset : set c with
  | true =>
      simp only [hset, if_true, encodeByte, List.mem_cons, List.not_mem_nil, or_false] at hb
      rcases hb with rfl | rfl | rfl
      · exact Or.inr (Or.inl rfl)
      · exact Or.inr (Or.inr (isHexDigit_hexDigit_div c))
      · exact Or.inr (Or.inr (isHexDigit_hexDigit_mod c))
  | false =>
      simp only [hset, Bool.false_eq_true, if_false, List.mem_singleton] at hb
      subst hb
      exact Or.inl ⟨hc, hset⟩

/-- No byte that is left alone gets lost. -/
theorem count_le_count_encode {set : UInt8 → Bool} {b : UInt8} (hb : set b = false) (s : Str) :
    s.count b ≤ (encode set s).count b := by
  induction s with
  | nil => exact le_rfl
  | cons c rest ih =>
      rw [encode_cons, List.count_append, ← List.singleton_append, List.count_append]
      refine Nat.add_le_add ?_ ih
      cases hc : set c with
      | false => simp
      | true =>
          have hne : c ≠ b := by
            rintro rfl
            rw [hb] at hc
            cases hc
          simp [hne]

end Percent
