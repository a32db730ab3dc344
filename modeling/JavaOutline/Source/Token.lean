import JavaOutline.Source.Lexeme

/-!
# JavaOutline.Source.Token

Tokens: the lexemes that grammar speaks about, each with the blanks and
comments in front of it. The end of the file is a token too, so that what
stands after the last lexeme has a place.

Two tokens are *joined* when nothing stands between them; `>` `>` is a shift
only if its parts are joined.
-/

namespace JavaOutline.Source

/-- A token with what stands in front of it. -/
structure Token where
  /-- The blanks and comments in front. -/
  lead : List Lexeme
  kind : LexemeKind
  /-- The text of the token; the end of the file has none. -/
  text : String
  deriving Repr, DecidableEq, Inhabited

/-- Does a lexeme stand between tokens? -/
def Lexeme.isTrivia (l : Lexeme) : Bool :=
  l.kind == .blank || l.kind == .comment

namespace Token

/-- The end of the file. -/
def finish (lead : List Lexeme) : Token := ⟨lead, .blank, ""⟩

/-- Collects lexemes into tokens; `lead` are the blanks and comments seen since
the last token. -/
def collect (lead : List Lexeme) : List Lexeme → List Token
  | [] => [finish lead]
  | l :: ls =>
    if l.isTrivia then collect (lead ++ [l]) ls
    else ⟨lead, l.kind, l.text⟩ :: collect [] ls

/-- The tokens of a source file. -/
def ofSource (source : String) : List Token := collect [] (lexemesOfSource source)

/-- Does nothing stand in front of the token? -/
def isJoined (t : Token) : Bool := t.lead.isEmpty

/-- The comments in front of a token. -/
def comments (t : Token) : List String :=
  t.lead.filterMap fun l => if l.kind = .comment then some l.text else none

/-- The text in front of a token. -/
def leadText (t : Token) : String := String.join (t.lead.map Lexeme.text)

/-- A token's text together with the text in front of it. -/
def fullText (t : Token) : String := t.leadText ++ t.text

end Token

end JavaOutline.Source
