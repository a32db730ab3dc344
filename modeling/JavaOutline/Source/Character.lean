import JavaOutline.Source.IdentifierRanges

/-!
# JavaOutline.Source.Character

The classes of characters that the lexical structure rests on: blanks between
tokens, characters of identifiers, digits, and the white space that compact
text leaves out.
-/

namespace JavaOutline.Source

/-! ## Blanks and white space -/

/-- The blanks that separate tokens: the space and the control characters from
tab to carriage return. -/
def isBlank (c : Char) : Bool :=
  c = ' ' || ('\t' ≤ c && c ≤ '\r')

/-- White space in the sense of Unicode. -/
def isWhiteSpace (c : Char) : Bool :=
  isBlank c || c = '\u0085' || c = '\u00a0' || c = '\u1680'
    || ('\u2000' ≤ c && c ≤ '\u200a') || c = '\u2028' || c = '\u2029' || c = '\u202f'
    || c = '\u205f' || c = '\u3000'

theorem isWhiteSpace_of_isBlank {c : Char} (h : isBlank c) : isWhiteSpace c := by
  simp [isWhiteSpace, h]

/-- A text without its white space. -/
def compact (s : String) : String :=
  String.ofList (s.toList.filter fun c => !isWhiteSpace c)

/-! ## Identifiers -/

/-- Letters of the English alphabet. -/
def isAsciiLetter (c : Char) : Bool :=
  ('a' ≤ c && c ≤ 'z') || ('A' ≤ c && c ≤ 'Z')

/-- Decimal digits. -/
def isDecimal (c : Char) : Bool := '0' ≤ c && c ≤ '9'

/-- Characters that begin an identifier. -/
def isNameStart (c : Char) : Bool :=
  isAsciiLetter c || c = '_' || c = '$' || (128 ≤ c.toNat && inRanges identifierStarts c.toNat)

/-- Characters that continue an identifier. The cent sign is among them. -/
def isNamePart (c : Char) : Bool :=
  isNameStart c || isDecimal c || c = '\u00a2'
    || (128 ≤ c.toNat && inRanges identifierParts c.toNat)

/-! ## Digits of other bases -/

/-- Hexadecimal digits. -/
def isHexadecimal (c : Char) : Bool :=
  isDecimal c || ('a' ≤ c && c ≤ 'f') || ('A' ≤ c && c ≤ 'F')

/-- Octal digits. -/
def isOctal (c : Char) : Bool := '0' ≤ c && c ≤ '7'

/-- Binary digits. -/
def isBinary (c : Char) : Bool := c = '0' || c = '1'

end JavaOutline.Source
