/-!
# JavaOutline.Failure

What can go wrong between a source file and its document, and the text that
says so. Positions count lines and bytes from one.
-/

namespace JavaOutline

/-- A position in a text: the line, and the byte in its line. -/
structure Position where
  line : Nat
  column : Nat
  deriving Repr, DecidableEq, Inhabited

namespace Position

/-- The first position of a text. -/
def start : Position := ⟨1, 1⟩

/-- The position behind a character. Only a line feed ends a line. -/
def next (p : Position) (c : Char) : Position :=
  if c = '\n' then ⟨p.line + 1, 1⟩ else ⟨p.line, p.column + c.utf8Size⟩

/-- The position behind a text that stands at the start of a file. -/
def behind (text : List Char) : Position := text.foldl next start

end Position

/-- A failure to read a source file or to write its document. -/
inductive Failure where
  /-- A file cannot be read or written, for the reason given. -/
  | io (reason : String)
  /-- A document cannot be written as JSON. -/
  | json (reason : String)
  /-- The input is no valid source. -/
  | parsing (reason : String)
  /-- There is no file at the path of the input. -/
  | inputNotFound (path : String)
  /-- No syntax tree came out of parsing. -/
  | noTree
  /-- The source breaks the rules of the grammar at a position. -/
  | syntaxError (position : Position)
  deriving Repr, DecidableEq, Inhabited

namespace Failure

/-- The text of a failure. -/
def message : Failure → String
  | io reason => "I/O error: " ++ reason
  | json reason => "JSON serialization error: " ++ reason
  | parsing reason => "Parsing error: " ++ reason
  | inputNotFound path => "Input file not found: " ++ path
  | noTree => "Parser produced no syntax tree"
  | syntaxError p => "Syntax error at line " ++ toString p.line ++ ", column " ++ toString p.column

end Failure

end JavaOutline
