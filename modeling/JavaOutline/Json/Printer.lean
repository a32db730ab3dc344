import JavaOutline.Json.Basic

/-!
# JavaOutline.Json.Printer

The canonical text of a document: two blanks of indentation per level, one
entry per line, `[]` and `{}` for empty collections, a blank after the colon.
Strings escape the quote, the backslash and the control characters below
U+0020 and nothing else.

Texts are built as lists of characters (`chars`); `pretty` is the string.
-/

namespace JavaOutline.Json

/-! ## Strings -/

/-- The lower-case hexadecimal digit of a number below sixteen. -/
def hexDigit (n : Nat) : Char :=
  if n < 10 then Char.ofNat (48 + n) else Char.ofNat (87 + n)

/-- One character of a string, escaped where the format asks for it. -/
def escapeChar (c : Char) : List Char :=
  if c = '"' then ['\\', '"']
  else if c = '\\' then ['\\', '\\']
  else if c = '\x08' then ['\\', 'b']
  else if c = '\x0c' then ['\\', 'f']
  else if c = '\n' then ['\\', 'n']
  else if c = '\r' then ['\\', 'r']
  else if c = '\t' then ['\\', 't']
  else if c.toNat < 32 then
    ['\\', 'u', '0', '0', hexDigit (c.toNat / 16), hexDigit (c.toNat % 16)]
  else [c]

/-- A string with its quotes. -/
def quote (s : List Char) : List Char :=
  '"' :: (s.flatMap escapeChar ++ ['"'])

/-! ## Layout -/

/-- A line break followed by the indentation of level `depth`. -/
def newline (depth : Nat) : List Char :=
  '\n' :: List.replicate (2 * depth) ' '

/-- The parts of a collection between its brackets: each on a line of its own
at level `depth + 1`, the closing bracket on the last line. -/
def bracket (opening closing : Char) (depth : Nat) : List (List Char) → List Char
  | [] => [opening, closing]
  | parts =>
    opening :: ((parts.map (newline (depth + 1) ++ ·)).intersperse [',']).flatten
      ++ newline depth ++ [closing]

/-- The text of a number. -/
def numberChars : Number → List Char
  | .integer n => (toString n).toList
  | .double x => x.toText.toList

mutual
/-- The text of a document that starts at level `depth`. -/
def chars (depth : Nat) : Json → List Char
  | .null => ['n', 'u', 'l', 'l']
  | .bool true => ['t', 'r', 'u', 'e']
  | .bool false => ['f', 'a', 'l', 's', 'e']
  | .number n => numberChars n
  | .string s => quote s.toList
  | .array items => bracket '[' ']' depth (itemParts (depth + 1) items)
  | .object entries => bracket '\x7b' '\x7d' depth (entryParts (depth + 1) entries)

/-- The texts of the items of an array. -/
def itemParts (depth : Nat) : List Json → List (List Char)
  | [] => []
  | j :: js => chars depth j :: itemParts depth js

/-- The texts of the entries of an object. -/
def entryParts (depth : Nat) : List (String × Json) → List (List Char)
  | [] => []
  | (key, j) :: entries =>
    (quote key.toList ++ [':', ' '] ++ chars depth j) :: entryParts depth entries
end

/-- The canonical text of a document. -/
def pretty (j : Json) : String := String.ofList (chars 0 j)

end JavaOutline.Json
