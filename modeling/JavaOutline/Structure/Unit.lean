import JavaOutline.Failure
import JavaOutline.Structure.Declaration

/-!
# JavaOutline.Structure.Unit

Reading a source file: its tokens, the trees they form, and what the trees
declare. A file is either read as a whole or refused with the position of its
first error.
-/

namespace JavaOutline

open Grammar Source

namespace Structure

/-! ## The first error -/

/-- The text of some tokens with all that stands in front of them. -/
def textOf (ts : List Token) : String := String.join (ts.map Token.fullText)

/-- Lexemes without the blanks at their end. -/
def dropFinalBlanks (ls : List Lexeme) : List Lexeme :=
  (ls.reverse.dropWhile fun l => l.kind == .blank).reverse

/-- Is a token out of place by itself, and not because something is missing in
front of it? -/
def isMisplaced (t : Token) : Bool := t.kind == .stray || t.text == "%"

/-- The text in front of an error at the first of the tokens `rest`: a token
that is out of place is an error where it begins, a missing one where the last
token or comment in front of it ends. -/
def textBeforeError (before rest : List Token) : String :=
  textOf before ++ match rest with
    | [] => ""
    | t :: _ =>
      if isMisplaced t then t.leadText
      else String.join ((dropFinalBlanks t.lead).map Lexeme.text)

/-- The position of the first error among the tokens of a file that is not
valid: it is at the furthest token that reading the file looks at. -/
def errorPosition (tokens : List Token) : Position :=
  let n := tokens.length - unitReach tokens
  Position.behind (textBeforeError (tokens.take n) (tokens.drop n)).toList

end Structure

namespace CompilationUnit

open Structure

/-- Reads a source file. -/
def parse (source : String) : Except Failure CompilationUnit :=
  let tokens := Token.ofSource source
  match unitTrees? tokens with
  | some trees => .ok (unitOf trees)
  | none => .error (.syntaxError (errorPosition tokens))

/-- A file is read if its tokens form trees, and then as what the trees declare. -/
theorem parse_eq_ok_iff {source : String} {u : CompilationUnit} :
    parse source = .ok u ↔ ∃ ts, unitTrees? (Token.ofSource source) = some ts ∧ u = unitOf ts := by
  unfold parse
  cases h : unitTrees? (Token.ofSource source) with
  | none => simp [h]
  | some ts => simp [h, eq_comm]

/-- What is found out about a file that is read holds of what it is read as. -/
theorem exists_parse_of_check {source : String} {P : CompilationUnit → Prop} [DecidablePred P]
    (h : (parse source).toOption.any (fun u => decide (P u)) = true) :
    ∃ u, parse source = .ok u ∧ P u := by
  cases hu : parse source with
  | error => simp [hu, Except.toOption] at h
  | ok u => exact ⟨u, rfl, by simpa [hu, Except.toOption] using h⟩

end CompilationUnit

end JavaOutline
