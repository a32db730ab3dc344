import JavaOutline.Source.Number

/-!
# JavaOutline.Source.Lexeme

The lexical structure of source text: blanks, comments, words, literals and
symbols, each as long as it can be.

`lexemes` cuts a text into lexemes without losing a character
(`flatten_lexemes`). What starts no lexeme, such as a stray `#` or an
unclosed string, becomes a stray lexeme of one character. Angle brackets that
close type arguments may stand side by side, so `>` is a lexeme of its own and
operators such as `>>=` are several lexemes.
-/

namespace JavaOutline.Source

/-- What a lexeme is. -/
inductive LexemeKind where
  | blank | comment | word | literal | string | symbol | stray
  deriving Repr, DecidableEq, Inhabited

/-- A piece of source text. -/
structure Lexeme where
  kind : LexemeKind
  text : String
  deriving Repr, DecidableEq, Inhabited

/-! ## Comments -/

/-- The length of a block comment after its opening sign, the closing sign
included. -/
def blockCommentTail? : List Char → Option Nat
  | '*' :: '/' :: _ => some 2
  | _ :: cs => (blockCommentTail? cs).map (· + 1)
  | [] => none

/-! ## Characters and strings -/

/-- The length of a character literal after its opening quote, the closing
quote included. Several characters may stand between the quotes. -/
def characterTail? : List Char → Option Nat
  | '\x27' :: _ => some 1
  | '\n' :: _ => none
  | '\\' :: _ :: cs => (characterTail? cs).map (· + 2)
  | _ :: cs => (characterTail? cs).map (· + 1)
  | [] => none

/-- May the character follow a backslash in a string, given what comes after
it? Code points need their digits. -/
def isEscape (c : Char) (cs : List Char) : Bool :=
  if c = 'x' then 2 ≤ (cs.takeWhile isHexadecimal).length
  else if c = 'u' then
    match cs with
    | '\x7b' :: digits =>
      !(digits.takeWhile isHexadecimal).isEmpty
        && (digits.dropWhile isHexadecimal).head? == some '\x7d'
    | digits => 4 ≤ (digits.takeWhile isHexadecimal).length
  else true

/-- The length of a string after its opening quote, the closing quote
included. -/
def stringTail? : List Char → Option Nat
  | '"' :: _ => some 1
  | '\\' :: c :: cs => if isEscape c cs then (stringTail? cs).map (· + 2) else none
  | _ :: cs => (stringTail? cs).map (· + 1)
  | [] => none

/-- The length of a text block after its three opening quotes, the closing
quotes included. -/
def textBlockTail? : List Char → Option Nat
  | '"' :: '"' :: '"' :: _ => some 3
  | '\\' :: _ :: cs => (textBlockTail? cs).map (· + 2)
  | _ :: cs => (textBlockTail? cs).map (· + 1)
  | [] => none

/-! ## Symbols -/

/-- The symbols, longer ones before their prefixes. The sign of an annotation
type is one of them, whatever comes after it. -/
def symbols : List String :=
  ["@interface", "<<=", "...",
    "->", "::", "++", "--", "+=", "-=", "*=", "/=", "%=", "&=", "|=", "^=", "&&", "||", "==",
    "!=", "<=", "<<",
    "\x7b", "\x7d", "(", ")", "[", "]", ";", ",", ".", "@", ":", "?", "-", "+", "*", "/", "%",
    "&", "|", "^", "!", "~", "=", "<", ">"]

/-- The length of the symbol at the start of a text. -/
def symbolLength? (cs : List Char) : Option Nat :=
  (symbols.find? fun s => s.toList.isPrefixOf cs).map String.length

/-! ## Lexemes -/

/-- A lexeme given by its number of further characters, or else a stray
character. -/
def orStray (kind : LexemeKind) (further : Option Nat) : LexemeKind × Nat :=
  match further with
  | some n => (kind, n)
  | none => (.stray, 0)

/-- The kind of the lexeme that begins with `c`, and how many of the
characters after it belong to it. -/
def lexemeAt (c : Char) (cs : List Char) : LexemeKind × Nat :=
  if isBlank c then (.blank, (cs.takeWhile isBlank).length)
  else if isNameStart c then (.word, (cs.takeWhile isNamePart).length)
  else match numberLength? (c :: cs) with
    | some n => (.literal, n - 1)
    | none =>
      match c, cs with
      | '/', '/' :: rest => (.comment, (rest.takeWhile (· ≠ '\n')).length + 1)
      | '/', '*' :: rest => orStray .comment ((blockCommentTail? rest).map (· + 1))
      | '"', '"' :: '"' :: rest => orStray .string ((textBlockTail? rest).map (· + 2))
      | '"', rest => orStray .string (stringTail? rest)
      | '\x27', '\x27' :: _ => (.stray, 0)
      | '\x27', rest => orStray .literal (characterTail? rest)
      | c, rest => orStray .symbol ((symbolLength? (c :: rest)).map (· - 1))

/-- The lexemes of a text. -/
def lexemes (cs : List Char) : List Lexeme :=
  match cs with
  | [] => []
  | c :: cs =>
    let (kind, n) := lexemeAt c cs
    ⟨kind, String.ofList (c :: cs.take n)⟩ :: lexemes (cs.drop n)
termination_by cs.length
decreasing_by simp only [List.length_cons, List.length_drop]; omega

/-- No character is lost or moved. -/
theorem flatten_lexemes (cs : List Char) :
    ((lexemes cs).map fun l => l.text.toList).flatten = cs := by
  fun_induction lexemes cs with
  | case1 => rfl
  | case2 c cs kind n h ih => simp [ih]

/-! ## Source files -/

/-- The lexemes of a source file, which may begin with a byte order mark. -/
def lexemesOfSource (source : String) : List Lexeme :=
  match source.toList with
  | '\ufeff' :: cs => ⟨.blank, "\ufeff"⟩ :: lexemes cs
  | cs => lexemes cs

end JavaOutline.Source
