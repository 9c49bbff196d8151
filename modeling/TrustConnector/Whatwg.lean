/-
**The URL parser, for `http` and `https`.**

The WHATWG URL parser does not read a URL as it is written.  It drops control characters and
spaces at both ends and every tab and newline inside, takes `\` for `/`, ends the path at the first
`?` or `#`, and walks through the `/`-separated segments removing the ones that spell `.` or `..`,
also where the dots are percent-encoded.  A program that hands the parser a path it has already
interpreted itself has to know when the two readings agree; that is what this module is about.

The parser is modelled for the special schemes `http` and `https` with an authority.  The host
parser (IDNA, IP addresses, default ports) is a parameter: `authorityOf scheme text` is the
serialised authority that `text` parses to, if it parses.  Everything behind the authority is
written out.

Main definitions:

* `Whatwg.Url`, `Whatwg.parse` — a parsed URL, and the parser;
* `Whatwg.resolve` — the walk of the path state over the segments;
* `Whatwg.Base` — a parsed `http` or `https` URL, whose serialised authority parses to itself;
* `Whatwg.Plain` — the texts in which the parser finds nothing to interpret, in front of a query or
  without one.

Main results:

* `Whatwg.parse_base` — what the parser makes of the authority of a base URL followed by a text
  that starts with `/`;
* `Whatwg.length_readPath_le` — the decoded path is never longer than the text it was read from;
* `Whatwg.readPath_append_eq_iff` — **the parser reads a path as itself exactly when it is plain**,
  in front of the query that follows it;
* `Whatwg.query_fragment_iff` — the query and the fragment are the ones that were asked for
  exactly when the path in front of them contains no `?` and no `#`.
-/

import TrustConnector.Percent

set_option relaxedAutoImplicit false
set_option autoImplicit false

namespace Whatwg

open Text

/-! ### Classes of bytes -/

/-- The C0 control characters and the space. -/
def isC0OrSpace (b : UInt8) : Bool := b ≤ 0x20

/-- ASCII tab, line feed and carriage return. -/
def isTabOrNewline (b : UInt8) : Bool := b = 0x09 || b = 0x0a || b = 0x0d

/-- What separates the segments of a special URL. -/
def isSlash (b : UInt8) : Bool := b = slash || b = backslash

/-- What ends the path. -/
def endsPath (b : UInt8) : Bool := b = question || b = hash

/-- The C0 control percent-encode set: the controls, and every byte beyond `~`. -/
def controlSet (b : UInt8) : Bool := b < 0x20 || 0x7e < b

/-- The query percent-encode set: also the space, `"`, `#`, `<` and `>`. -/
def querySet (b : UInt8) : Bool := controlSet b || b ∈ str " \"#<>"

/-- The special-query percent-encode set: also `'`. -/
def specialQuerySet (b : UInt8) : Bool := querySet b || b = 0x27

/-- The fragment percent-encode set: also the grave accent, but not `#`. -/
def fragmentSet (b : UInt8) : Bool := controlSet b || b ∈ str " \"<>" || b = 0x60

/-- The path percent-encode set: the query set, `?`, `^`, the grave accent and the braces. -/
def pathSet (b : UInt8) : Bool := querySet b || b ∈ [0x3f, 0x5e, 0x60, 0x7b, 0x7d]

/-! ### The path state -/

/-- A segment that spells `.`. -/
def isSingleDot (seg : Str) : Bool := toAsciiLowercase seg ∈ [str ".", str "%2e"]

/-- A segment that spells `..`. -/
def isDoubleDot (seg : Str) : Bool :=
  toAsciiLowercase seg ∈ [str "..", str ".%2e", str "%2e.", str "%2e%2e"]

/-- **The walk of the path state** over the segments of a path, with the segments kept so far in
`kept`.  A dot segment at the end of the path leaves an empty segment behind. -/
def resolve (kept : List Str) : List Str → List Str
  | [] => kept
  | [seg] =>
      -- the last segment is not followed by a slash, so a dot segment has to leave its own
      if isDoubleDot seg then kept.dropLast ++ [[]]
      else if isSingleDot seg then kept ++ [[]]
      else kept ++ [seg]
  | seg :: next :: rest =>
      if isDoubleDot seg then resolve kept.dropLast (next :: rest)
      else if isSingleDot seg then resolve kept (next :: rest)
      else resolve (kept ++ [seg]) (next :: rest)

/-- The segments of a path text, whose leading slash is not part of any of them. -/
def segments (t : Str) : List Str :=
  List.splitOnP isSlash (if t.head?.any isSlash then t.tail else t)

/-- The path component: the segments that the walk keeps, each percent-encoded behind a `/`. -/
def parsePath (t : Str) : Str :=
  (resolve [] (segments t)).flatMap fun seg => slash :: Percent.encode pathSet seg

/-! ### The parser -/

/-- A parsed URL.  The authority is the serialised user information, host and port. -/
structure Url where
  scheme : Str
  authority : Str
  path : Str
  query : Option Str
  fragment : Option Str
  deriving DecidableEq, Repr

/-- What the parser does before it looks at the input. -/
def preprocess (raw : Str) : Str := (trimBy isC0OrSpace raw).filter fun b => !isTabOrNewline b

/-- What follows the path: a query up to the first `#`, and a fragment. -/
def parseQueryFragment : Str → Option Str × Option Str
  | [] => (none, none)
  | b :: rest =>
      if b = question then
        (some (Percent.encode specialQuerySet (rest.takeWhile (· ≠ hash))),
          match rest.dropWhile (· ≠ hash) with
          | [] => none
          | _ :: f => some (Percent.encode fragmentSet f))
      else (none, some (Percent.encode fragmentSet rest))

/-- A byte of the authority. -/
def inAuthority (b : UInt8) : Bool := !isSlash b && !endsPath b

/-- The URL that an authority and the text behind it make. -/
def assemble (scheme authority tail : Str) : Url :=
  let after := parseQueryFragment (tail.dropWhile fun b => !endsPath b)
  { scheme, authority
    path := parsePath (tail.takeWhile fun b => !endsPath b)
    query := after.1
    fragment := after.2 }

/-- **The parser.**  A URL without a scheme, or with another scheme, is outside the model. -/
def parse (authorityOf : Str → Str → Option Str) (raw : Str) : Option Url :=
  let input := preprocess raw
  let scheme := toAsciiLowercase (input.takeWhile (· ≠ colon))
  match input.dropWhile (· ≠ colon) with
  | [] => none
  | _ :: afterColon =>
      if scheme = str "http" ∨ scheme = str "https" then
        let rest := afterColon.dropWhile isSlash
        match authorityOf scheme (rest.takeWhile inAuthority) with
        | none => none
        | some authority => some (assemble scheme authority (rest.dropWhile inAuthority))
      else none

/-- The text of a URL up to its path. -/
def Url.beforePath (u : Url) : Str := u.scheme ++ str "://" ++ u.authority

/-- **A base URL**: an `http` or `https` URL as the parser produces it.  Its serialised authority
contains nothing that the parser drops or that ends an authority, and parses to itself. -/
structure Base (authorityOf : Str → Str → Option Str) (u : Url) : Prop where
  /-- Only the two schemes of the model. -/
  scheme : u.scheme = str "http" ∨ u.scheme = str "https"
  /-- A special URL has a host. -/
  authority_ne : u.authority ≠ []
  /-- The serialised authority is printable and contains no delimiter. -/
  authority_clean : ∀ b ∈ u.authority, isC0OrSpace b = false ∧ inAuthority b = true
  /-- Parsing a serialised authority gives it back. -/
  stable : authorityOf u.scheme u.authority = some u.authority

/-! ### The parser behind a base URL -/

/-- What the parser keeps of a text that ends the input. -/
def cleanTail (t : Str) : Str := (t.rdropWhile isC0OrSpace).filter fun b => !isTabOrNewline b

theorem isTabOrNewline_of_not_c0 {b : UInt8} (h : isC0OrSpace b = false) :
    isTabOrNewline b = false := by
  by_contra hc
  rw [Bool.not_eq_false] at hc
  simp only [isTabOrNewline, Bool.or_eq_true, decide_eq_true_eq] at hc
  rcases hc with (rfl | rfl) | rfl <;> simp [isC0OrSpace] at h

theorem rdropWhile_cons_of_neg {p : UInt8 → Bool} {b : UInt8} (t : Str) (h : p b = false) :
    (b :: t).rdropWhile p = b :: t.rdropWhile p := by
  induction t using List.reverseRecOn with
  | nil => simp [List.rdropWhile_singleton, h]
  | append_singleton t c ih =>
      cases hc : p c with
      | true =>
          rw [← List.cons_append, List.rdropWhile_concat_pos _ _ _ hc, ih,
            List.rdropWhile_concat_pos _ _ _ hc]
      | false =>
          rw [← List.cons_append, List.rdropWhile_concat_neg _ _ _ (by simp [hc]),
            List.rdropWhile_concat_neg _ _ _ (by simp [hc]), List.cons_append]

theorem rdropWhile_append_of_neg {p : UInt8 → Bool} {a : Str} (t : Str)
    (h : ∀ b ∈ a, p b = false) : (a ++ t).rdropWhile p = a ++ t.rdropWhile p := by
  induction a with
  | nil => rfl
  | cons b a ih =>
      rw [List.cons_append, rdropWhile_cons_of_neg _ (h b List.mem_cons_self),
        ih fun c hc => h c (List.mem_cons_of_mem b hc), List.cons_append]

/-- The clean part of a text is kept, and trimming happens in what follows it. -/
theorem preprocess_append {a : Str} (t : Str) (hne : a ≠ [])
    (h : ∀ b ∈ a, isC0OrSpace b = false) : preprocess (a ++ t) = a ++ cleanTail t := by
  obtain ⟨b, a', rfl⟩ := List.exists_cons_of_ne_nil hne
  have hb := h b List.mem_cons_self
  rw [preprocess, trimBy, List.cons_append, List.dropWhile_cons_of_neg (by simp [hb]),
    ← List.cons_append, rdropWhile_append_of_neg t h, List.filter_append, cleanTail]
  congr 1
  exact List.filter_eq_self.2 fun c hc => by simp [isTabOrNewline_of_not_c0 (h c hc)]

theorem cleanTail_cons {b : UInt8} (t : Str) (h : isC0OrSpace b = false) :
    cleanTail (b :: t) = b :: cleanTail t := by
  rw [cleanTail, rdropWhile_cons_of_neg t h,
    List.filter_cons_of_pos (by simp [isTabOrNewline_of_not_c0 h]), cleanTail]

variable {authorityOf : Str → Str → Option Str} {u : Url}

theorem Base.scheme_clean (hu : Base authorityOf u) :
    (∀ b ∈ u.scheme, isC0OrSpace b = false ∧ b ≠ colon) ∧ toAsciiLowercase u.scheme = u.scheme := by
  rcases hu.scheme with h | h <;> rw [h] <;> decide +kernel

theorem Base.beforePath_clean (hu : Base authorityOf u) :
    ∀ b ∈ u.beforePath, isC0OrSpace b = false := by
  intro b hb
  simp only [Url.beforePath, List.mem_append] at hb
  rcases hb with (hb | hb) | hb
  · exact (hu.scheme_clean.1 b hb).1
  · have hsep : ∀ b ∈ str "://", isC0OrSpace b = false := by decide +kernel
    exact hsep b hb
  · exact (hu.authority_clean b hb).1

/-- **The parser behind a base URL**: a text that starts with `/` leaves the authority alone. -/
theorem parse_base (hu : Base authorityOf u) (t : Str) :
    parse authorityOf (u.beforePath ++ slash :: t) =
      some (assemble u.scheme u.authority (slash :: cleanTail t)) := by
  have hne : u.beforePath ≠ [] := by simp [Url.beforePath, hu.authority_ne]
  have hpre : preprocess (u.beforePath ++ slash :: t) =
      u.scheme ++ colon :: slash :: slash :: (u.authority ++ slash :: cleanTail t) := by
    rw [preprocess_append _ hne hu.beforePath_clean, cleanTail_cons t (by decide), Url.beforePath]
    simp only [show str "://" = [colon, slash, slash] by decide, List.append_assoc,
      List.cons_append, List.nil_append]
  have hsch : ∀ b ∈ u.scheme, decide (b ≠ colon) = true := fun b hb => by
    simpa using (hu.scheme_clean.1 b hb).2
  have hauth : ∀ b ∈ u.authority, inAuthority b = true := fun b hb => (hu.authority_clean b hb).2
  obtain ⟨a, as, has⟩ := List.exists_cons_of_ne_nil hu.authority_ne
  have hna : isSlash a = false := by
    have := hauth a (by rw [has]; exact List.mem_cons_self)
    simp only [inAuthority, Bool.and_eq_true, Bool.not_eq_true'] at this
    exact this.1
  have hdrop : (slash :: slash :: (u.authority ++ slash :: cleanTail t)).dropWhile isSlash =
      u.authority ++ slash :: cleanTail t := by
    rw [List.dropWhile_cons_of_pos (by decide), List.dropWhile_cons_of_pos (by decide), has,
      List.cons_append, List.dropWhile_cons_of_neg (by simp [hna])]
  have hstop : inAuthority slash = false := by decide
  simp only [parse, hpre]
  rw [List.takeWhile_append_of_pos hsch, List.dropWhile_append_of_pos hsch,
    List.takeWhile_cons_of_neg (by simp), List.dropWhile_cons_of_neg (by simp), List.append_nil]
  simp only [hu.scheme_clean.2, if_pos hu.scheme, hdrop]
  rw [List.takeWhile_append_of_pos hauth, List.dropWhile_append_of_pos hauth,
    List.takeWhile_cons_of_neg (by simp [hstop]), List.dropWhile_cons_of_neg (by simp [hstop]),
    List.append_nil, hu.stable]

/-! ### Reading the path back -/

/-- **The path as a reader of the URL decodes it.** -/
def readPath (t : Str) : Str := Percent.decode (parsePath t)

theorem pathSet_percent : pathSet percent = false := by decide

theorem pathSet_hexDigit (b : UInt8) (h : isHexDigit b = true) : pathSet b = false := by
  have := Percent.of_all_bytes (p := fun b => !isHexDigit b || !pathSet b) (by decide +kernel) b
  simpa [h] using this

/-- No triplet straddles a `/`, so segments are decoded one by one. -/
theorem decode_flatMap_slash (f : Str → Str) (segs : List Str) :
    Percent.decode (segs.flatMap fun seg => slash :: f seg) =
      segs.flatMap fun seg => slash :: Percent.decode (f seg) := by
  induction segs with
  | nil => rfl
  | cons seg segs ih =>
      have hhead : ∀ b ∈ (segs.flatMap fun seg => slash :: f seg).head?,
          isHexDigit b = false := by
        cases segs with
        | nil => simp
        | cons s _ => simp [Percent.not_isHexDigit_slash]
      rw [List.flatMap_cons, List.cons_append, Percent.decode_cons_of_ne (by decide),
        Percent.decode_append hhead, ih, List.flatMap_cons, List.cons_append]

theorem readPath_eq (t : Str) :
    readPath t = (resolve [] (segments t)).flatMap fun seg => slash :: Percent.decode seg := by
  rw [readPath, parsePath, decode_flatMap_slash]
  simp only [Percent.decode_encode pathSet_percent pathSet_hexDigit]

/-! ### The decoded path is no longer than the text -/

/-- The length of the path that a list of segments makes. -/
def weight (segs : List Str) : ℕ := (segs.map fun seg => seg.length + 1).sum

@[simp] theorem weight_nil : weight [] = 0 := rfl

@[simp] theorem weight_cons (seg : Str) (segs : List Str) :
    weight (seg :: segs) = seg.length + 1 + weight segs := by simp [weight]

@[simp] theorem weight_append (a b : List Str) : weight (a ++ b) = weight a + weight b := by
  simp [weight]

theorem weight_dropLast_le (segs : List Str) : weight segs.dropLast ≤ weight segs := by
  induction segs using List.reverseRecOn with
  | nil => simp
  | append_singleton segs s _ => simp

/-- A segment that spells one or two dots. -/
def isDot (seg : Str) : Bool := isDoubleDot seg || isSingleDot seg

theorem length_pos_of_isDot {seg : Str} (h : isDot seg = true) : 0 < seg.length := by
  rcases seg with - | ⟨b, seg⟩
  · revert h; decide
  · simp

/-- The walk only keeps what it was given, and a dot segment costs at least its own length. -/
theorem weight_resolve_le (segs : List Str) : ∀ kept : List Str,
    weight (resolve kept segs) + (segs.countP isDot) ≤ weight kept + weight segs := by
  induction segs with
  | nil => intro kept; simp [resolve]
  | cons seg rest ih =>
      intro kept
      have hdrop := weight_dropLast_le kept
      have hpos : isDot seg = true → 0 < seg.length := length_pos_of_isDot
      cases rest with
      | nil =>
          rw [resolve, List.countP_cons, List.countP_nil]
          cases hd : isDoubleDot seg with
          | true => simp [isDot, hd] at hpos ⊢; omega
          | false =>
              cases hs : isSingleDot seg with
              | true => simp [isDot, hd, hs] at hpos ⊢; omega
              | false => simp [isDot, hd, hs]
      | cons next rest =>
          rw [resolve, List.countP_cons]
          cases hd : isDoubleDot seg with
          | true =>
              have := ih kept.dropLast
              simp [isDot, hd] at hpos this ⊢
              omega
          | false =>
              cases hs : isSingleDot seg with
              | true =>
                  have := ih kept
                  simp [isDot, hd, hs] at hpos this ⊢
                  omega
              | false =>
                  have := ih (kept ++ [seg])
                  simp [isDot, hd, hs] at this ⊢
                  omega

/-- Without dot segments the walk keeps everything. -/
theorem resolve_of_no_dot (segs : List Str) (h : ∀ seg ∈ segs, isDot seg = false) :
    ∀ kept : List Str, resolve kept segs = kept ++ segs := by
  induction segs with
  | nil => intro kept; simp [resolve]
  | cons seg rest ih =>
      intro kept
      have hseg := h seg List.mem_cons_self
      rw [isDot, Bool.or_eq_false_iff] at hseg
      cases rest with
      | nil => simp [resolve, hseg.1, hseg.2]
      | cons next rest =>
          rw [resolve, hseg.1, hseg.2, if_neg Bool.false_ne_true, if_neg Bool.false_ne_true,
            ih (fun s hs => h s (List.mem_cons_of_mem seg hs))]
          simp

theorem weight_splitOnP (p : UInt8 → Bool) (s : Str) :
    weight (s.splitOnP p) = s.length + 1 := by
  induction s with
  | nil => simp
  | cons b s ih =>
      rw [List.splitOnP_cons_eq_if_modifyHead]
      obtain ⟨x, xs, hx⟩ := List.exists_cons_of_ne_nil (List.splitOnP_ne_nil p s)
      rw [hx] at ih ⊢
      simp only [weight_cons] at ih
      split
      · simp; omega
      · simp; omega

theorem weight_segments (t : Str) : weight (segments (slash :: t)) = t.length + 1 := by
  rw [segments, if_pos (by simp [isSlash]), List.tail_cons, weight_splitOnP]

theorem length_flatMap_decode_le (segs : List Str) :
    (segs.flatMap fun seg => slash :: Percent.decode seg).length ≤ weight segs := by
  induction segs with
  | nil => simp
  | cons seg segs ih =>
      have := Percent.length_decode_le seg
      simp only [List.flatMap_cons, List.length_append, List.length_cons, weight_cons]
      omega

/-- **The decoded path is no longer than the text it was read from.** -/
theorem length_readPath_le (t : Str) : (readPath (slash :: t)).length ≤ t.length + 1 := by
  rw [readPath_eq]
  have h₁ := length_flatMap_decode_le (resolve [] (segments (slash :: t)))
  have h₂ := weight_resolve_le (segments (slash :: t)) []
  rw [weight_segments] at h₂
  simp only [weight_nil] at h₂
  omega

/-! ### Plain texts -/

/-- **A plain text**: the parser finds nothing in it to drop, to decode, to resolve or to stop
at.  What is at its end is only trimmed where no query follows. -/
structure Plain (q : Option Str) (t : Str) : Prop where
  /-- No percent-encoded byte. -/
  noTriplet : Percent.hasTriplet t = false
  /-- No tab or newline, no `?` or `#`, no `\`. -/
  clean : ∀ b ∈ t, isTabOrNewline b = false ∧ endsPath b = false ∧ b ≠ backslash
  /-- Nothing to trim at the end. -/
  last : q = none → ∀ b ∈ t.getLast?, isC0OrSpace b = false

/-- No `/`-separated segment of the text is `.` or `..`. -/
def NoDotSegment (t : Str) : Prop := ∀ seg ∈ t.splitOn slash, seg ≠ str "." ∧ seg ≠ str ".."

/-- A `/` separates the segments in front of it from those behind it. -/
theorem noDotSegment_append {s t : Str} :
    NoDotSegment (s ++ slash :: t) ↔ NoDotSegment s ∧ NoDotSegment t := by
  simp only [NoDotSegment, List.splitOn_eq_splitOnP]
  rw [List.splitOnP_append_cons (p := (· == slash)) s t (by simp), List.forall_mem_append]

/-- What the parser takes a byte of the path for. -/
def unback (b : UInt8) : UInt8 := if isSlash b then slash else b

/-- Joining the segments gives the text back, with every `\` turned into a `/`. -/
theorem flatMap_segments (t : Str) :
    ((segments (slash :: t)).flatMap fun seg => slash :: seg) = slash :: t.map unback := by
  rw [segments, if_pos (by simp [isSlash]), List.tail_cons]
  induction t with
  | nil => simp
  | cons b t ih =>
      obtain ⟨x, xs, hx⟩ := List.exists_cons_of_ne_nil (List.splitOnP_ne_nil isSlash t)
      rw [hx, List.flatMap_cons, List.cons_append, List.cons.injEq] at ih
      rw [List.splitOnP_cons_eq_if_modifyHead, hx]
      cases hb : isSlash b with
      | true => simp [unback, hb, ← ih.2]
      | false => simp [unback, hb, ← ih.2]

/-- Without dot segments, reading the path is decoding the text. -/
theorem readPath_of_no_dot {t : Str} (h : ∀ seg ∈ segments (slash :: t), isDot seg = false) :
    readPath (slash :: t) = Percent.decode (slash :: t.map unback) := by
  rw [readPath_eq, resolve_of_no_dot _ h, List.nil_append, ← flatMap_segments,
    decode_flatMap_slash fun seg => seg]

/-- Without dot segments, the path is the encoded text. -/
theorem parsePath_of_no_dot {t : Str} (h : ∀ seg ∈ segments (slash :: t), isDot seg = false) :
    parsePath (slash :: t) = Percent.encode pathSet (slash :: t.map unback) := by
  have hslash : pathSet slash = false := by decide
  rw [parsePath, resolve_of_no_dot _ h, List.nil_append, ← flatMap_segments, Percent.encode,
    List.flatMap_assoc]
  simp only [List.flatMap_cons, hslash, Bool.false_eq_true, if_false, List.singleton_append]
  rfl

/-- Segments that decoding does not shorten contain no triplet. -/
theorem not_hasTriplet_of_length {segs : List Str}
    (h : (segs.flatMap fun seg => slash :: Percent.decode seg).length = weight segs) :
    ∀ seg ∈ segs, Percent.hasTriplet seg = false := by
  induction segs with
  | nil => simp
  | cons s segs ih =>
      have hs := Percent.length_decode_le s
      have hsegs := length_flatMap_decode_le segs
      simp only [List.flatMap_cons, List.length_append, List.length_cons, weight_cons] at h
      intro seg hseg
      rcases List.mem_cons.1 hseg with rfl | hseg
      · by_contra ht
        rw [Bool.not_eq_false] at ht
        have := Percent.length_decode_lt ht
        omega
      · exact ih (by omega) seg hseg

theorem lowerByte_spec (b : UInt8) :
    isHexDigit (lowerByte b) = isHexDigit b ∧ (lowerByte b = percent ↔ b = percent) ∧
      (lowerByte b = 0x2e ↔ b = 0x2e) := by
  have := Percent.of_all_bytes (p := fun b => decide (isHexDigit (lowerByte b) = isHexDigit b ∧
    (lowerByte b = percent ↔ b = percent) ∧ (lowerByte b = 0x2e ↔ b = 0x2e))) (by decide +kernel) b
  exact of_decide_eq_true this

theorem hasTriplet_toAsciiLowercase (s : Str) :
    Percent.hasTriplet (toAsciiLowercase s) = Percent.hasTriplet s := by
  induction s with
  | nil => rfl
  | cons b s ih =>
      have hstart : Percent.startsTriplet (toAsciiLowercase (b :: s)) =
          Percent.startsTriplet (b :: s) := by
        match s with
        | [] => rfl
        | [_] => rfl
        | h :: l :: tail =>
            simp only [toAsciiLowercase, List.map_cons, Percent.startsTriplet,
              (lowerByte_spec h).1, (lowerByte_spec l).1, (lowerByte_spec b).2.1]
      rw [Percent.hasTriplet, ← ih, ← hstart]
      rfl

/-- A text whose lower-case form is all dots is all dots. -/
theorem eq_dots_of_toAsciiLowercase {s : Str} {n : ℕ}
    (h : toAsciiLowercase s = List.replicate n 0x2e) : s = List.replicate n 0x2e := by
  rw [toAsciiLowercase, List.eq_replicate_iff, List.length_map] at h
  rw [List.eq_replicate_iff]
  refine ⟨h.1, fun b hb => ?_⟩
  exact (lowerByte_spec b).2.2.1 (h.2 _ (List.mem_map_of_mem hb))

/-- A segment that spells dots without percent-encoding is `.` or `..`. -/
theorem eq_dots_of_isDot {seg : Str} (h : isDot seg = true)
    (ht : Percent.hasTriplet seg = false) : seg = str "." ∨ seg = str ".." := by
  rw [← hasTriplet_toAsciiLowercase] at ht
  have hcases : toAsciiLowercase seg = str "." ∨ toAsciiLowercase seg = str ".." := by
    simp only [isDot, isDoubleDot, isSingleDot, Bool.or_eq_true, decide_eq_true_eq,
      List.mem_cons, List.not_mem_nil, or_false] at h
    rcases h with (h | h | h | h) | (h | h)
    · exact Or.inr h
    · rw [h] at ht; exact absurd ht (by decide)
    · rw [h] at ht; exact absurd ht (by decide)
    · rw [h] at ht; exact absurd ht (by decide)
    · exact Or.inl h
    · rw [h] at ht; exact absurd ht (by decide)
  exact hcases.imp (eq_dots_of_toAsciiLowercase (n := 1)) (eq_dots_of_toAsciiLowercase (n := 2))

theorem map_unback_eq_self_iff {t : Str} : t.map unback = t ↔ backslash ∉ t := by
  induction t with
  | nil => simp
  | cons b t ih =>
      rw [List.map_cons, List.cons.injEq, ih, List.mem_cons, not_or]
      refine and_congr_left fun _ => ?_
      by_cases hb : b = backslash
      · subst hb; decide
      · by_cases hs : b = slash
        · subst hs; decide
        · simp [unback, isSlash, hb, hs, Ne.symm hb]

/-- Splitting at both slashes is splitting at `/`, where there is no `\`. -/
theorem segments_eq_splitOn {t : Str} (h : backslash ∉ t) :
    segments (slash :: t) = t.splitOn slash := by
  rw [segments, if_pos (by simp [isSlash]), List.tail_cons, List.splitOn_eq_splitOnP]
  induction t with
  | nil => rfl
  | cons b t ih =>
      simp only [List.mem_cons, not_or] at h
      have hb : isSlash b = (b == slash) := by
        simp [isSlash, Ne.symm h.1, beq_eq_decide]
      rw [List.splitOnP_cons_eq_if_modifyHead, List.splitOnP_cons_eq_if_modifyHead, ih h.2, hb]

/-- A path that loses nothing has no dot segment. -/
theorem no_dot_of_length_readPath {t : Str} (h : (readPath (slash :: t)).length = t.length + 1) :
    ∀ seg ∈ segments (slash :: t), isDot seg = false := by
  have hweight := weight_resolve_le (segments (slash :: t)) []
  have hle := length_flatMap_decode_le (resolve [] (segments (slash :: t)))
  rw [readPath_eq] at h
  rw [weight_segments, weight_nil] at hweight
  have hzero : (segments (slash :: t)).countP isDot = 0 := by omega
  intro seg hseg
  simpa using List.countP_eq_zero.1 hzero seg hseg

/-- Without triplets and `\`, the parser finds no dot segment where there is none. -/
theorem no_dot_of_not_hasTriplet {t : Str} (hdots : NoDotSegment t)
    (htriplet : Percent.hasTriplet (slash :: t) = false) (hback : backslash ∉ t) :
    ∀ seg ∈ segments (slash :: t), isDot seg = false := by
  have hjoin : ((segments (slash :: t)).flatMap fun seg => slash :: Percent.decode seg) =
      slash :: t := by
    rw [← decode_flatMap_slash fun seg => seg, flatMap_segments, map_unback_eq_self_iff.2 hback,
      Percent.decode_of_not_hasTriplet htriplet]
  intro seg hseg
  have hplain := not_hasTriplet_of_length (by rw [hjoin, weight_segments]; simp) seg hseg
  rw [segments_eq_splitOn hback] at hseg
  by_contra hdot
  rw [Bool.not_eq_false] at hdot
  rcases eq_dots_of_isDot hdot hplain with rfl | rfl
  · exact (hdots _ hseg).1 rfl
  · exact (hdots _ hseg).2 rfl

/-- **The parser reads a path text as itself** exactly when it contains no triplet and no `\`
(and no dot segment, which is assumed). -/
theorem readPath_eq_self_iff {t : Str} (hdots : NoDotSegment t) :
    readPath (slash :: t) = slash :: t ↔
      Percent.hasTriplet (slash :: t) = false ∧ backslash ∉ t := by
  constructor
  · intro h
    rw [readPath_of_no_dot (no_dot_of_length_readPath (by rw [h, List.length_cons]))] at h
    -- the decoder has not shortened the text, so it met no triplet
    have htriplet : Percent.hasTriplet (slash :: t.map unback) = false := by
      by_contra hc
      rw [Bool.not_eq_false] at hc
      have hlt := Percent.length_decode_lt hc
      rw [h] at hlt
      simp at hlt
    rw [Percent.decode_of_not_hasTriplet htriplet, List.cons.injEq] at h
    rw [h.2] at htriplet
    exact ⟨htriplet, map_unback_eq_self_iff.1 h.2⟩
  · rintro ⟨htriplet, hback⟩
    rw [readPath_of_no_dot (no_dot_of_not_hasTriplet hdots htriplet hback),
      map_unback_eq_self_iff.2 hback, Percent.decode_of_not_hasTriplet htriplet]

/-! ### The text that the path is read from -/

/-- The path text of an input: what the parser keeps, up to the first `?` or `#`. -/
def pathText (t : Str) : Str := (cleanTail t).takeWhile fun b => !endsPath b

theorem pathText_sublist (t : Str) : (pathText t).Sublist t :=
  (List.takeWhile_sublist _).trans
    (List.filter_sublist.trans (List.rdropWhile_prefix isC0OrSpace t).sublist)

/-- The path of a URL assembled from an input is read from its path text. -/
theorem assemble_path (scheme authority t : Str) :
    (assemble scheme authority (slash :: cleanTail t)).path = parsePath (slash :: pathText t) := by
  simp only [assemble, pathText]
  rw [List.takeWhile_cons_of_pos (p := fun b => !endsPath b) (by decide)]

theorem cleanTail_eq_self {t : Str} (h : ∀ b ∈ t, isTabOrNewline b = false)
    (hlast : ∀ b ∈ t.getLast?, isC0OrSpace b = false) : cleanTail t = t := by
  have htrim : t.rdropWhile isC0OrSpace = t := by
    rw [List.rdropWhile_eq_self_iff]
    intro hne
    simpa using hlast _ (List.getLast?_eq_getLast_of_ne_nil hne)
  rw [cleanTail, htrim, List.filter_eq_self]
  exact fun b hb => by simp [h b hb]

theorem pathText_eq_self_iff {t : Str} : pathText t = t ↔
    (∀ b ∈ t, isTabOrNewline b = false ∧ endsPath b = false) ∧
      ∀ b ∈ t.getLast?, isC0OrSpace b = false := by
  constructor
  · intro h
    have hclean : cleanTail t = t := by
      refine (List.filter_sublist.trans
        (List.rdropWhile_prefix isC0OrSpace t).sublist).eq_of_length_le ?_
      calc t.length = (pathText t).length := by rw [h]
        _ ≤ (cleanTail t).length := (List.takeWhile_sublist _).length_le
    have htrim : t.rdropWhile isC0OrSpace = t := by
      refine (List.rdropWhile_prefix isC0OrSpace t).eq_of_length_le ?_
      calc t.length = (cleanTail t).length := by rw [hclean]
        _ ≤ _ := List.filter_sublist.length_le
    rw [pathText, hclean, List.takeWhile_eq_self_iff] at h
    rw [cleanTail, htrim, List.filter_eq_self] at hclean
    refine ⟨fun b hb => ⟨by simpa using hclean b hb, by simpa using h b hb⟩, fun b hb => ?_⟩
    rw [List.rdropWhile_eq_self_iff] at htrim
    obtain ⟨hne, rfl⟩ := List.mem_getLast?_eq_getLast hb
    simpa using htrim hne
  · rintro ⟨h, hlast⟩
    rw [pathText, cleanTail_eq_self (fun b hb => (h b hb).1) hlast, List.takeWhile_eq_self_iff]
    exact fun b hb => by simp [(h b hb).2]

/-! ### A query behind the path -/

/-- A query text as a request line can carry it: no blanks, no controls and no `#`. -/
def CleanQuery (q : Str) : Prop := ∀ b ∈ q, isC0OrSpace b = false ∧ b ≠ hash

instance (q : Str) : Decidable (CleanQuery q) :=
  inferInstanceAs (Decidable (∀ b ∈ q, isC0OrSpace b = false ∧ b ≠ hash))

/-- Nothing is trimmed off a text that ends in a query, and nothing of the query is dropped. -/
theorem cleanTail_append_query (t : Str) {q : Str} (hq : CleanQuery q) :
    cleanTail (t ++ question :: q) =
      (t.filter fun b => !isTabOrNewline b) ++ question :: q := by
  have hclean : ∀ b ∈ question :: q, isC0OrSpace b = false := by
    intro b hb
    rcases List.mem_cons.1 hb with rfl | hb
    exacts [by decide, (hq b hb).1]
  have htrim : (t ++ question :: q).rdropWhile isC0OrSpace = t ++ question :: q := by
    rw [List.rdropWhile_eq_self_iff]
    intro hne
    rw [List.getLast_append_of_ne_nil _ (by simp)]
    simpa using hclean _ (List.getLast_mem (by simp))
  rw [cleanTail, htrim, List.filter_append, List.append_right_inj, List.filter_eq_self]
  exact fun b hb => by simp [isTabOrNewline_of_not_c0 (hclean b hb)]

/-- Before a query, only the bytes of the path text itself matter. -/
theorem pathText_append_query {t q : Str} (hq : CleanQuery q)
    (h : ∀ b ∈ t, isTabOrNewline b = false ∧ endsPath b = false) :
    pathText (t ++ question :: q) = t := by
  have hkeep : (t.filter fun b => !isTabOrNewline b) = t :=
    List.filter_eq_self.2 fun b hb => by simp [(h b hb).1]
  rw [pathText, cleanTail_append_query t hq, hkeep,
    List.takeWhile_append_of_pos fun b hb => by simp [(h b hb).2],
    List.takeWhile_cons_of_neg (by decide), List.append_nil]

/-- A query, as it is glued behind a path. -/
def queryText : Option Str → Str
  | none => []
  | some q => question :: q

/-- In front of a query, tabs and newlines are dropped, and nothing is trimmed. -/
theorem pathText_query (t : Str) {q : Str} (hq : CleanQuery q) :
    pathText (t ++ question :: q) =
      (t.filter fun b => !isTabOrNewline b).takeWhile fun b => !endsPath b := by
  rw [pathText, cleanTail_append_query t hq, List.takeWhile_append]
  split_ifs with h
  · rw [List.takeWhile_cons_of_neg (by decide), List.append_nil]
    exact ((List.takeWhile_sublist _).eq_of_length h).symm
  · rfl

/-- Whatever is behind it, the parser keeps at most the text. -/
theorem pathText_append_sublist (t : Str) {q : Option Str} (hq : ∀ s ∈ q, CleanQuery s) :
    (pathText (t ++ queryText q)).Sublist t := by
  cases q with
  | none =>
      rw [queryText, List.append_nil]
      exact pathText_sublist t
  | some q =>
      rw [queryText, pathText_query t (hq q rfl)]
      exact (List.takeWhile_sublist _).trans List.filter_sublist

/-- **What the parser keeps whole**: a text without what it drops or stops at, which may only end in
a space if a query follows. -/
theorem pathText_append_eq_iff {t : Str} {q : Option Str} (hq : ∀ s ∈ q, CleanQuery s) :
    pathText (t ++ queryText q) = t ↔
      (∀ b ∈ t, isTabOrNewline b = false ∧ endsPath b = false) ∧
        (q = none → ∀ b ∈ t.getLast?, isC0OrSpace b = false) := by
  cases q with
  | none =>
      rw [queryText, List.append_nil, pathText_eq_self_iff]
      simp
  | some q =>
      simp only [reduceCtorEq, false_imp_iff, and_true]
      refine ⟨fun h => ?_, fun h => pathText_append_query (hq q rfl) h⟩
      rw [queryText, pathText_query t (hq q rfl)] at h
      -- neither the filter nor the cut can have taken anything
      have hfilter : (t.filter fun b => !isTabOrNewline b) = t := by
        refine List.filter_sublist.eq_of_length_le ?_
        have hle := (List.takeWhile_sublist (fun b => !endsPath b)
          (l := t.filter fun b => !isTabOrNewline b)).length_le
        rwa [h] at hle
      rw [hfilter, List.takeWhile_eq_self_iff] at h
      rw [List.filter_eq_self] at hfilter
      exact fun b hb => ⟨by simpa using hfilter b hb, by simpa using h b hb⟩

/-- What is at the end of a text behind a `/`: nothing to trim, if there is nothing to trim at the
end of the text. -/
theorem getLast?_cons_slash {t : Str} :
    (∀ b ∈ (slash :: t).getLast?, isC0OrSpace b = false) ↔
      ∀ b ∈ t.getLast?, isC0OrSpace b = false := by
  have hslash : isC0OrSpace slash = false := by decide
  cases t using List.reverseRecOn with
  | nil => simpa using hslash
  | append_singleton t c => rw [← List.cons_append, List.getLast?_concat, List.getLast?_concat]

/-- A text behind a `/` is plain if the parser finds nothing to decode in it and keeps it all. -/
theorem plain_cons_slash_iff {t : Str} {q : Option Str} (hq : ∀ s ∈ q, CleanQuery s) :
    Plain q (slash :: t) ↔
      Percent.hasTriplet (slash :: t) = false ∧ backslash ∉ t ∧
        pathText (t ++ queryText q) = t := by
  have hslash : isTabOrNewline slash = false ∧ endsPath slash = false ∧ slash ≠ backslash := by
    decide
  rw [pathText_append_eq_iff hq]
  constructor
  · rintro ⟨htriplet, hclean, hlast⟩
    rw [List.forall_mem_cons] at hclean
    refine ⟨htriplet, fun hback => (hclean.2 _ hback).2.2 rfl, fun b hb => ?_, fun hnone => ?_⟩
    · exact ⟨(hclean.2 b hb).1, (hclean.2 b hb).2.1⟩
    · exact getLast?_cons_slash.1 (hlast hnone)
  · rintro ⟨htriplet, hback, hclean, hlast⟩
    refine ⟨htriplet, List.forall_mem_cons.2 ⟨hslash, fun b hb => ?_⟩, fun hnone => ?_⟩
    · exact ⟨(hclean b hb).1, (hclean b hb).2, fun hc => hback (hc ▸ hb)⟩
    · exact getLast?_cons_slash.2 (hlast hnone)

/-- **The parser reads a path as itself exactly when it is plain**, in front of the query that
follows it. -/
theorem readPath_append_eq_iff {t : Str} {q : Option Str} (hdots : NoDotSegment t)
    (hq : ∀ s ∈ q, CleanQuery s) :
    readPath (slash :: pathText (t ++ queryText q)) = slash :: t ↔ Plain q (slash :: t) := by
  rw [plain_cons_slash_iff hq]
  constructor
  · intro h
    have htext : pathText (t ++ queryText q) = t := by
      refine (pathText_append_sublist t hq).eq_of_length_le ?_
      have hle := length_readPath_le (pathText (t ++ queryText q))
      rw [h, List.length_cons] at hle
      omega
    rw [htext, readPath_eq_self_iff hdots] at h
    exact ⟨h.1, h.2, htext⟩
  · rintro ⟨htriplet, hback, htext⟩
    rw [htext]
    exact (readPath_eq_self_iff hdots).2 ⟨htriplet, hback⟩

/-- The encoder of a query leaves nothing that a request line cannot carry. -/
theorem cleanQuery_encode (q : Str) : CleanQuery (Percent.encode specialQuerySet q) := by
  have hkept : ∀ b, (specialQuerySet b || !isC0OrSpace b && b != hash) = true :=
    Percent.of_all_bytes (by decide +kernel)
  have hdigit : ∀ b, (!isHexDigit b || !isC0OrSpace b && b != hash) = true :=
    Percent.of_all_bytes (by decide +kernel)
  intro b hb
  rcases Percent.mem_encode hb with ⟨-, hset⟩ | rfl | hhex
  · simpa [hset] using hkept b
  · decide
  · simpa [hhex] using hdigit b

/-- Trimming keeps every byte that is not a control or a space. -/
theorem mem_cleanTail {t : Str} {b : UInt8} (hb : isC0OrSpace b = false) :
    b ∈ cleanTail t ↔ b ∈ t := by
  have htab := isTabOrNewline_of_not_c0 hb
  rw [cleanTail, List.mem_filter, htab, Bool.not_false]
  refine ⟨fun h => (List.rdropWhile_prefix isC0OrSpace t).subset h.1, fun h => ⟨?_, rfl⟩⟩
  rw [← List.mem_reverse, ← List.takeWhile_append_dropWhile (p := isC0OrSpace) (l := t.reverse),
    List.mem_append] at h
  rcases h with h | h
  · exact absurd (List.mem_takeWhile_imp h) (by simp [hb])
  · exact List.mem_reverse.2 h

theorem dropWhile_eq_nil_iff_no_end {t : Str} :
    t.dropWhile (fun b => !endsPath b) = [] ↔ question ∉ t ∧ hash ∉ t := by
  rw [List.dropWhile_eq_nil_iff]
  constructor
  · intro h
    exact ⟨fun hq => absurd (h _ hq) (by decide), fun hh => absurd (h _ hh) (by decide)⟩
  · rintro ⟨hq, hh⟩ b hb
    have hbq : b ≠ question := fun hc => hq (hc ▸ hb)
    have hbh : b ≠ hash := fun hc => hh (hc ▸ hb)
    simp [endsPath, hbq, hbh]

/-- A remainder of the path in front of the query shows in the query or in the fragment. -/
theorem parseQueryFragment_append {w q : Str} (hq : hash ∉ q) :
    parseQueryFragment (w ++ question :: q) = (some (Percent.encode specialQuerySet q), none) ↔
      w = [] := by
  constructor
  · intro h
    by_contra hne
    obtain ⟨b, w', rfl⟩ := List.exists_cons_of_ne_nil hne
    rw [List.cons_append, parseQueryFragment] at h
    split_ifs at h with hb
    · rw [Prod.mk.injEq, Option.some.injEq] at h
      obtain ⟨hquery, hfrag⟩ := h
      -- without a fragment the whole remainder went into the query
      have hdrop : (w' ++ question :: q).dropWhile (· ≠ hash) = [] := by
        revert hfrag
        cases (w' ++ question :: q).dropWhile (· ≠ hash) <;> simp
      rw [List.dropWhile_eq_nil_iff, ← List.takeWhile_eq_self_iff] at hdrop
      rw [hdrop, Percent.encode_append, Percent.encode_cons, if_neg (by decide)] at hquery
      have hlen := congrArg List.length hquery
      simp only [List.length_append, List.length_singleton] at hlen
      omega
    · simp at h
  · rintro rfl
    have hall : ∀ b ∈ q, decide (b ≠ Text.hash) = true := fun b hb =>
      decide_eq_true fun hc => hq (hc ▸ hb)
    rw [List.nil_append, parseQueryFragment, if_pos rfl, List.takeWhile_eq_self_iff.2 hall,
      List.dropWhile_eq_nil_iff.2 hall]

/-- There is neither a query nor a fragment exactly where the path ends the text. -/
theorem parseQueryFragment_eq_none_iff {w : Str} : parseQueryFragment w = (none, none) ↔ w = [] := by
  cases w with
  | nil => simp [parseQueryFragment]
  | cons b w =>
      rw [parseQueryFragment]
      split_ifs <;> simp

/-- A `?` ends the path, if nothing in front of it does. -/
theorem dropWhile_append_question (t q : Str) :
    (t ++ question :: q).dropWhile (fun b => !endsPath b) =
      t.dropWhile (fun b => !endsPath b) ++ question :: q := by
  rw [List.dropWhile_append]
  cases t.dropWhile fun b => !endsPath b with
  | nil => simp [endsPath]
  | cons b w => simp

/-- **The query and the fragment of a URL** are the ones that were asked for exactly when the path
in front of them contains no `?` and no `#`. -/
theorem query_fragment_iff {scheme authority t : Str} {q : Option Str}
    (hq : ∀ s ∈ q, CleanQuery s) :
    ((assemble scheme authority (slash :: cleanTail (t ++ queryText q))).query =
        q.map (Percent.encode specialQuerySet) ∧
      (assemble scheme authority (slash :: cleanTail (t ++ queryText q))).fragment = none) ↔
      question ∉ t ∧ hash ∉ t := by
  have hslash : (!endsPath slash) = true := by decide
  have hends : isC0OrSpace question = false ∧ isC0OrSpace hash = false := by decide
  simp only [assemble]
  rw [List.dropWhile_cons_of_pos (p := fun b => !endsPath b) hslash, ← Prod.mk.injEq, Prod.mk.eta]
  cases q with
  | none =>
      rw [queryText, List.append_nil, Option.map_none, ← mem_cleanTail hends.1 (t := t),
        ← mem_cleanTail hends.2 (t := t), ← dropWhile_eq_nil_iff_no_end,
        parseQueryFragment_eq_none_iff]
  | some q =>
      have hclean := hq q rfl
      have hhash : hash ∉ q := fun h => (hclean _ h).2 rfl
      have hmem : ∀ {b : UInt8}, isTabOrNewline b = false →
          (b ∈ (t.filter fun b => !isTabOrNewline b) ↔ b ∈ t) := by
        intro b hb
        simp [List.mem_filter, hb]
      rw [queryText, cleanTail_append_query t hclean, Option.map_some,
        ← hmem (isTabOrNewline_of_not_c0 hends.1), ← hmem (isTabOrNewline_of_not_c0 hends.2),
        ← dropWhile_eq_nil_iff_no_end]
      rw [dropWhile_append_question, parseQueryFragment_append hhash]

end Whatwg
