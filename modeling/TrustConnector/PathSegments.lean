/-
**Paths as segments.**

The checks of `canonicalRequestPath` look at the whole path: they decode it, count its slashes
before and after, and look for backslashes.  What they are for is a statement about segments: the
decoded path has the segments of the path that was sent, each decoded on its own.  This module
proves that the two agree, so that a path is accepted exactly when it belongs to a grammar over its
segments.

Matching a prefix looks at bytes as well, with a condition on the slashes where the prefix ends, and
again this is a statement about segments.  Replacing a prefix is meant to leave the segments behind
the prefix alone.  It does so only if the two prefixes end in the same way, or nothing depends on how
they end.

Main definitions:

* `PathGrammar` — the grammar of request paths, segment by segment;
* `JoinsCleanly` — the prefixes between which a path can be moved.

Main results:

* `canonicalRequestPath_grammar` — **a path is accepted exactly when it is in the grammar, and its
  segments are then decoded one by one**;
* `prefixMatches_segments` — **a prefix matches segment by segment**;
* `rewritePrefix_segments_iff` — **when the segments behind a prefix survive its replacement**.
-/

import TrustConnector.Routing
import TrustConnector.Segments

set_option relaxedAutoImplicit false
set_option autoImplicit false

namespace TrustConnector

open Text

/-! ### Decoding segment by segment -/

theorem decode_append_slash (s t : Str) :
    Percent.decode (s ++ slash :: t) = Percent.decode s ++ slash :: Percent.decode t := by
  rw [Percent.decode_append (by simp [Percent.not_isHexDigit_slash]),
    Percent.decode_cons_of_ne (by decide)]

/-- A property that can be checked on both sides of a slash can be checked segment by segment. -/
theorem decode_segments {Q : Str → Prop} (hQ : ∀ s t, Q (s ++ slash :: t) ↔ Q s ∧ Q t)
    (path : Str) : Q (Percent.decode path) ↔ ∀ seg ∈ path.splitOn slash, Q (Percent.decode seg) := by
  induction path using Segments.induction_on slash with
  | single s hs => rw [List.splitOn_eq_singleton hs, List.forall_mem_singleton]
  | step s t hs ih =>
      rw [decode_append_slash, hQ, ih, List.splitOn_append_cons_self_of_not_mem hs,
        List.forall_mem_cons]

/-- The slashes of a path stay slashes, so that counting finds the encoded ones. -/
theorem count_slash_decode (path : Str) :
    path.count slash ≤ (Percent.decode path).count slash ∧
      ((Percent.decode path).count slash ≤ path.count slash ↔
        ∀ seg ∈ path.splitOn slash, slash ∉ Percent.decode seg) := by
  induction path using Segments.induction_on slash with
  | single s hs =>
      rw [List.splitOn_eq_singleton hs, List.forall_mem_singleton, List.count_eq_zero.2 hs,
        Nat.le_zero, List.count_eq_zero]
      exact ⟨Nat.zero_le _, Iff.rfl⟩
  | step s t hs ih =>
      obtain ⟨hle, hiff⟩ := ih
      have hzero : slash ∉ Percent.decode s ↔ (Percent.decode s).count slash = 0 :=
        List.count_eq_zero.symm
      rw [decode_append_slash, List.splitOn_append_cons_self_of_not_mem hs, List.forall_mem_cons,
        ← hiff, hzero]
      simp only [List.count_append, List.count_cons_self, List.count_eq_zero.2 hs]
      omega

/-- Where no slash is encoded, decoding and cutting commute. -/
theorem splitOn_decode {path : Str} (h : ∀ seg ∈ path.splitOn slash, slash ∉ Percent.decode seg) :
    (Percent.decode path).splitOn slash = (path.splitOn slash).map Percent.decode := by
  induction path using Segments.induction_on slash with
  | single s hs =>
      rw [List.splitOn_eq_singleton hs, List.forall_mem_singleton] at h
      rw [List.splitOn_eq_singleton hs, List.splitOn_eq_singleton h, List.map_singleton]
  | step s t hs ih =>
      rw [List.splitOn_append_cons_self_of_not_mem hs, List.forall_mem_cons] at h
      rw [decode_append_slash, List.splitOn_append_cons_self_of_not_mem h.1, ih h.2,
        List.splitOn_append_cons_self_of_not_mem hs, List.map_cons]

/-! ### The grammar of request paths -/

/-- **The grammar of request paths.** -/
structure PathGrammar (path : Str) : Prop where
  rooted : path.head? = some slash
  /-- Every `%` of a scan from the left starts a triplet. -/
  encoded : Percent.Encoded path
  utf8 : ∀ seg ∈ path.splitOn slash, isUtf8 (Percent.decode seg) = true
  noSlash : ∀ seg ∈ path.splitOn slash, slash ∉ Percent.decode seg
  noDots : ∀ seg ∈ path.splitOn slash,
    Percent.decode seg ≠ str "." ∧ Percent.decode seg ≠ str ".."
  /-- Only a path with a `%` is kept from having a backslash. -/
  noBackslash : percent ∈ path → ∀ seg ∈ path.splitOn slash, backslash ∉ Percent.decode seg

/-- **The accepted paths and their canonical forms.**  A path has a canonical form exactly when it is
in the grammar, and the form has the segments of the path, in order, each decoded on its own. -/
theorem canonicalRequestPath_grammar (path out : Str) :
    canonicalRequestPath path = .ok out ↔
      PathGrammar path ∧ out.splitOn slash = (path.splitOn slash).map Percent.decode := by
  have hutf8 := decode_segments (Q := fun s => isUtf8 s = true)
    (fun _ _ => isUtf8_append_cons (by decide)) path
  have hne : backslash ≠ slash := by decide
  have hbackslash := decode_segments (Q := fun s => backslash ∉ s) (fun s t => by simp [hne]) path
  have hcount := (count_slash_decode path).2
  rw [canonicalRequestPath_eq_ok_iff]
  constructor
  · rintro ⟨rfl, hrooted, hwf, hutf, hback, hslashes, hdots⟩
    have hsplit := splitOn_decode (hcount.1 hslashes)
    refine ⟨⟨hrooted, Percent.wellFormed_iff.1 hwf, hutf8.1 hutf, hcount.1 hslashes, ?_,
      fun hp => hbackslash.1 (hback hp)⟩, hsplit⟩
    rw [Whatwg.NoDotSegment, hsplit] at hdots
    exact fun seg hseg => hdots _ (List.mem_map_of_mem hseg)
  · rintro ⟨hg, hsplit⟩
    have hdecode := splitOn_decode hg.noSlash
    -- a path is its segments with slashes between them
    obtain rfl : out = Percent.decode path := by
      have hout : [slash].intercalate (out.splitOn slash) = out := List.intercalate_splitOn slash
      rw [hsplit, ← hdecode, List.intercalate_splitOn] at hout
      exact hout.symm
    refine ⟨rfl, hg.rooted, Percent.wellFormed_iff.2 hg.encoded, hutf8.2 hg.utf8,
      fun hp => hbackslash.2 (hg.noBackslash hp), hcount.2 hg.noSlash, ?_⟩
    intro seg hseg
    rw [hdecode] at hseg
    obtain ⟨raw, hraw, rfl⟩ := List.mem_map.1 hseg
    exact hg.noDots raw hraw

/-! ### Matching a prefix -/

/-- A prefix of a prefix is a prefix. -/
theorem prefixMatches_trans {path mid pre : Str} (hpath : prefixMatches path mid = true)
    (hmid : prefixMatches mid pre = true) : prefixMatches path pre = true := by
  rcases prefixMatches_iff.1 hpath with rfl | ⟨rest, rfl, hrest⟩
  · exact hmid
  rcases prefixMatches_iff.1 hmid with rfl | ⟨suffix, rfl, hsuffix⟩
  · exact hpath
  refine prefixMatches_iff.2 (Or.inr ⟨suffix ++ rest, by simp, ?_⟩)
  cases suffix with
  | nil => simpa using hrest
  | cons b suffix => simpa using hsuffix

/-- **Prefixes match segment by segment.**  A path matches a prefix exactly when the segments of the
prefix are its first ones, and there is one more behind a prefix with a slash at its end.  So every
path matches itself, a prefix of a prefix matches, and a prefix without a slash at its end does not
match where its last segment goes on. -/
theorem prefixMatches_segments :
    (∀ path pre : Str, prefixMatches path pre = true ↔
        Segments.own slash pre <+: path.splitOn slash ∧
          (pre.getLast? = some slash →
            (Segments.own slash pre).length < (path.splitOn slash).length)) ∧
      (∀ path : Str, prefixMatches path path = true) ∧
      (∀ path mid pre : Str, prefixMatches path mid = true → prefixMatches mid pre = true →
        prefixMatches path pre = true) ∧
      ∀ (pre : Str) (b : UInt8) (t : Str), pre.getLast? ≠ some slash → b ≠ slash →
        prefixMatches (pre ++ b :: t) pre = false := by
  refine ⟨?_, ?_, ?_, ?_⟩
  · intro path pre
    rw [prefixMatches_iff, Segments.own_prefix_iff]
  · intro path
    exact prefixMatches_iff.2 (Or.inl rfl)
  · intro path mid pre hpath hmid
    exact prefixMatches_trans hpath hmid
  · intro pre b t hend hb
    rw [Bool.eq_false_iff]
    intro hmatch
    rcases prefixMatches_iff.1 hmatch with heq | ⟨rest, heq, hboundary⟩
    · simp at heq
    · obtain rfl := List.append_cancel_left heq
      rcases hboundary with hlast | hhead
      · exact hend hlast
      · exact hb (Option.some.inj hhead)

/-! ### Replacing a prefix -/

/-- **The segments behind a prefix can be moved to another**: the two prefixes both end in a slash
or neither does, or only the old one does and the path has no empty segment right behind it. -/
def JoinsCleanly (path localPrefix upstreamPrefix : Str) : Prop :=
  (localPrefix.getLast? = some slash ↔ upstreamPrefix.getLast? = some slash) ∨
    (localPrefix.getLast? = some slash ∧ ¬ localPrefix ++ [slash] <+: path)

theorem rewritePrefix_append {suffix : Str} (h : suffix ≠ []) (localPrefix upstreamPrefix : Str) :
    rewritePrefix (localPrefix ++ suffix) localPrefix upstreamPrefix =
      if upstreamPrefix.getLast? = some slash ∨ suffix.head? = some slash then
        upstreamPrefix ++ suffix
      else upstreamPrefix ++ slash :: suffix := by
  have hempty : suffix.isEmpty = false := List.isEmpty_eq_false_iff.2 h
  simp only [rewritePrefix, stripPrefix_append, Option.getD_some, hempty, Bool.false_eq_true,
    if_false]

theorem cons_splitOn_ne (t : Str) : [] :: t.splitOn slash ≠ t.splitOn slash := by
  intro h
  have hlength := congrArg List.length h
  simp at hlength

/-- **When the segments behind a prefix survive its replacement.** -/
theorem rewritePrefix_segments_iff {path localPrefix upstreamPrefix : Str}
    (hmatch : prefixMatches path localPrefix = true) (hne : path ≠ localPrefix) :
    Segments.behind slash (rewritePrefix path localPrefix upstreamPrefix) upstreamPrefix =
        Segments.behind slash path localPrefix ↔
      JoinsCleanly path localPrefix upstreamPrefix := by
  obtain ⟨suffix, rfl, hboundary⟩ := (prefixMatches_iff.1 hmatch).resolve_left hne
  have hsuffix : suffix ≠ [] := by
    rintro rfl
    exact hne (List.append_nil _)
  rw [rewritePrefix_append hsuffix, JoinsCleanly, List.prefix_append_right_inj,
    List.singleton_prefix_iff_head?_eq_some]
  by_cases hlocal : localPrefix.getLast? = some slash
  · rw [Segments.behind_append hlocal]
    by_cases hupstream : upstreamPrefix.getLast? = some slash
    · -- both end in a slash, and the suffix is appended as it is
      rw [if_pos (Or.inl hupstream), Segments.behind_append hupstream]
      simp [hlocal, hupstream]
    · by_cases hhead : suffix.head? = some slash
      · -- the slash that starts the suffix is taken for the separator
        obtain ⟨t, rfl⟩ := List.head?_eq_some_iff.1 hhead
        rw [if_pos (Or.inr hhead), Segments.behind_append_cons hupstream, Segments.splitOn_cons_self]
        simp [hlocal, hupstream, (cons_splitOn_ne t).symm]
      · rw [if_neg (by simp [hupstream, hhead]), Segments.behind_append_cons hupstream]
        simp [hlocal, hhead]
  · -- the suffix brings its own separator
    have hhead := hboundary.resolve_left hlocal
    obtain ⟨t, rfl⟩ := List.head?_eq_some_iff.1 hhead
    rw [if_pos (Or.inr hhead), Segments.behind_append_cons hlocal]
    by_cases hupstream : upstreamPrefix.getLast? = some slash
    · rw [Segments.behind_append hupstream, Segments.splitOn_cons_self]
      simp [hlocal, hupstream, cons_splitOn_ne t]
    · rw [Segments.behind_append_cons hupstream]
      simp [hlocal, hupstream]

/-- Between prefixes without a slash at the end, the rest of the path is moved as it is. -/
theorem rewritePrefix_segments_items :
    Segments.behind slash (rewritePrefix (str "/relay/items") (str "/relay") (str "/v1"))
        (str "/v1") =
      Segments.behind slash (str "/relay/items") (str "/relay") := by
  have hmatch : prefixMatches (str "/relay/items") (str "/relay") = true := by decide +kernel
  have hne : str "/relay/items" ≠ str "/relay" := by decide +kernel
  have hends : (str "/relay").getLast? = some slash ↔ (str "/v1").getLast? = some slash := by
    decide +kernel
  exact (rewritePrefix_segments_iff hmatch hne).2 (Or.inl hends)

/-- From `/relay` to `/v1/` an empty segment is added, and from `/relay/` to `/v1` one is dropped. -/
theorem rewritePrefix_segments_changed :
    (∀ path ∈ [str "/relay", str "/relay/", str "/v1", str "/v1/", str "/relay/items",
        str "/relay//items"], canonicalRequestPath path = .ok path) ∧
      (prefixMatches (str "/relay/items") (str "/relay") = true ∧
        rewritePrefix (str "/relay/items") (str "/relay") (str "/v1/") = str "/v1//items" ∧
        Segments.behind slash (str "/relay/items") (str "/relay") = [str "items"] ∧
        Segments.behind slash (str "/v1//items") (str "/v1/") = [[], str "items"]) ∧
      prefixMatches (str "/relay//items") (str "/relay/") = true ∧
      rewritePrefix (str "/relay//items") (str "/relay/") (str "/v1") = str "/v1/items" ∧
      Segments.behind slash (str "/relay//items") (str "/relay/") = [[], str "items"] ∧
      Segments.behind slash (str "/v1/items") (str "/v1") = [str "items"] := by
  decide +kernel

end TrustConnector
