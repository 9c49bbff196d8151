/-
**HTTP headers.**

Header names are tokens, compared in lower case; header values are bytes without control
characters other than tab.  A value can be read as text only if it is printable ASCII.

Main definitions:

* `Http.HeaderMap` — a header map, with lower-case names;
* `Http.headerNameFromBytes`, `Http.headerValueFromStr` — the two constructors, which may refuse;
* `Http.toStr` — a value as text.

Main result:

* `Http.all_isValueByte_of_text` — what can be read as text can be sent.
-/

import TrustConnector.MultiMap
import TrustConnector.Text

set_option relaxedAutoImplicit false
set_option autoImplicit false

namespace Http

open Text

/-- Header names with their values. -/
abbrev HeaderMap := MultiMap Str Str

/-- The bytes of a token. -/
def isTokenByte (b : UInt8) : Bool :=
  isDigit b || isAlpha b || b ∈ str "!#$%&'*+-.^_|~" || b = 0x60

/-- The longest header name. -/
def maxHeaderNameLen : ℕ := 65535

/-- A header name from bytes: a token, in lower case. -/
def headerNameFromBytes (bytes : Str) : Option Str :=
  if bytes.isEmpty || maxHeaderNameLen < bytes.length || !bytes.all isTokenByte then none
  else some (toAsciiLowercase bytes)

/-- The bytes of a header value. -/
def isValueByte (b : UInt8) : Bool := (0x20 ≤ b && b ≠ 0x7f) || b = 0x09

/-- A header value from text. -/
def headerValueFromStr (value : Str) : Option Str :=
  if value.all isValueByte then some value else none

/-- The bytes that can be read as text. -/
def isVisibleByte (b : UInt8) : Bool := (0x20 ≤ b && b < 0x7f) || b = 0x09

/-- A header value as text. -/
def toStr (value : Str) : Option Str := if value.all isVisibleByte then some value else none

theorem isValueByte_of_isVisibleByte {b : UInt8} (h : isVisibleByte b = true) :
    isValueByte b = true := by
  simp only [isVisibleByte, isValueByte, Bool.or_eq_true, Bool.and_eq_true,
    decide_eq_true_eq] at h ⊢
  rcases h with ⟨hlow, hhigh⟩ | htab
  · refine Or.inl ⟨hlow, ?_⟩
    rintro rfl
    exact absurd hhigh (by decide)
  · exact Or.inr htab

/-- What can be read as text can be sent. -/
theorem all_isValueByte_of_text {value : Str} (h : value.all isVisibleByte = true) :
    value.all isValueByte = true := by
  rw [List.all_eq_true] at h ⊢
  intro b hb
  exact isValueByte_of_isVisibleByte (h b hb)

end Http
