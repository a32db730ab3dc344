import JavaOutline.Source.Character

/-!
# JavaOutline.Source.Number

The spelling of number literals. A `Matcher` gives the length of the longest
spelling of one form at the start of a text; `numberLength?` is the longest
over all forms: integers to four bases and floating point numbers to two.
-/

namespace JavaOutline.Source

/-! ## Matchers -/

/-- The length of the longest match at the start of a text, if there is one. -/
abbrev Matcher := List Char → Option Nat

namespace Matcher

/-- One match after another. -/
def andThen (first second : Matcher) : Matcher := fun cs => do
  let n ← first cs
  let m ← second (cs.drop n)
  return n + m

/-- A match, or nothing. -/
def optional (m : Matcher) : Matcher := fun cs => some ((m cs).getD 0)

/-- One character of a list. -/
def oneOf (chars : List Char) : Matcher
  | [] => none
  | c :: _ => if chars.contains c then some 1 else none

/-- The longest match of several forms. -/
def longest (forms : List Matcher) : Matcher := fun cs =>
  (forms.filterMap (· cs)).max?

/-- All of several matches in a row. -/
def inOrder (parts : List Matcher) : Matcher := fun cs =>
  parts.foldr andThen (fun _ => some 0) cs

end Matcher

open Matcher

/-! ## Runs of digits -/

/-- The length of the digits that follow a digit, where single underscores
may stand between digits. -/
def groupTail (digit : Char → Bool) : List Char → Nat
  | '_' :: c :: cs => if digit c then groupTail digit cs + 2 else 0
  | c :: cs => if digit c then groupTail digit cs + 1 else 0
  | [] => 0

/-- Digits with single underscores between them. -/
def groups (digit : Char → Bool) : Matcher
  | c :: cs => if digit c then some (groupTail digit cs + 1) else none
  | [] => none

/-- The length of the decimal digits that follow a digit, where underscores in
any number may stand between digits; `pending` underscores were just seen. -/
def looseTail : (pending : Nat) → List Char → Nat
  | pending, c :: cs =>
    if isDecimal c then looseTail 0 cs + pending + 1
    else if c = '_' then looseTail (pending + 1) cs
    else 0
  | _, [] => 0

/-- The digits of a decimal integer: zero, or digits that begin with another
one. After the first digit at most one underscore may stand, after the others
any number. -/
def decimalDigits : Matcher
  | '0' :: _ => some 1
  | c :: '_' :: d :: cs =>
    if !isDecimal c then none
    else if isDecimal d then some (looseTail 0 cs + 3) else some 1
  | c :: d :: cs =>
    if !isDecimal c then none
    else if isDecimal d then some (looseTail 0 cs + 2) else some 1
  | [c] => if isDecimal c then some 1 else none
  | [] => none

/-! ## Forms of numbers -/

/-- The sign of an exponent. -/
def sign : Matcher := optional (oneOf ['+', '-'])

/-- The mark of a long integer. -/
def longMark : Matcher := optional (oneOf ['l', 'L'])

/-- The mark of a floating point type. -/
def floatMark : Matcher := oneOf ['f', 'F', 'd', 'D']

/-- The exponent of a decimal number. -/
def decimalExponent : Matcher := inOrder [oneOf ['e', 'E'], sign, groups isDecimal]

/-- An integer to a base other than ten. -/
def basedInteger (marks : List Char) (digit : Char → Bool) : Matcher :=
  inOrder [oneOf ['0'], oneOf marks, groups digit, longMark]

/-- The digits of a hexadecimal floating point number. -/
def hexadecimalDigits : Matcher := longest [
  inOrder [groups isHexadecimal, optional (oneOf ['.'])],
  inOrder [optional (groups isHexadecimal), oneOf ['.'], groups isHexadecimal]]

/-- All forms of number literals. -/
def numberForms : List Matcher := [
  inOrder [decimalDigits, longMark],
  basedInteger ['x', 'X'] isHexadecimal,
  basedInteger ['o', 'O'] isOctal,
  basedInteger ['b', 'B'] isBinary,
  inOrder [oneOf ['0'], groups isOctal, longMark],
  inOrder [groups isDecimal, oneOf ['.'], optional (groups isDecimal),
    optional decimalExponent, optional floatMark],
  inOrder [oneOf ['.'], groups isDecimal, optional decimalExponent, optional floatMark],
  inOrder [decimalDigits, oneOf ['e', 'E', 'p', 'P'], sign, groups isDecimal,
    optional floatMark],
  inOrder [decimalDigits, optional decimalExponent, floatMark],
  inOrder [oneOf ['0'], oneOf ['x', 'X'], hexadecimalDigits,
    optional (inOrder [oneOf ['e', 'E', 'p', 'P'], sign, decimalDigits, optional floatMark])]]

/-- The length of the number at the start of a text. -/
def numberLength? : Matcher := longest numberForms

end JavaOutline.Source
