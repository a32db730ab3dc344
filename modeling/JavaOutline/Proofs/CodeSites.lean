import JavaOutline.Proofs.FileTokens
import JavaOutline.Proofs.ItemBoundaries

/-!
# JavaOutline.Proofs.CodeSites

Where code stands in a file.

Outside of code the tokens in front of a token tell what it belongs to: `Site.next` goes over
them one by one and keeps how far a declaration or a member has been read. Braces that hold
declarations are not counted, for behind them comes the next declaration or member whatever
stands around it; all other brackets are counted until they are closed.

At each site code can begin with few signs only (`CodeKind.opener`), and what stands behind
the sign has one of few forms (`Region.codes`). Sites are about all files, whether they can be
read or not; some code is not told apart from what is around it: that of members whose type is
called `module` or `open`, and that of types inside of annotation types.
-/

namespace JavaOutline.Grammar

open Source Structure Pattern

/-! ## Marks -/

/-- What the text of a token tells about what follows it. -/
inductive Mark where
  | plain
  -- words
  | modifier | default | type | enum | record | module | throws
  -- signs
  | annotationType | name | dot | semicolon | comma | equals | minus | less | greater
  -- brackets
  | brace | parenthesis | bracket | closingBrace | closing
  deriving DecidableEq, Inhabited

/-- The words that tell something. -/
def wordMarks : List (String × Mark) :=
  [("default", .default), ("class", .type), ("interface", .type), ("enum", .enum),
    ("record", .record), ("module", .module), ("open", .module), ("throws", .throws)]
  ++ (modifierWords.erase "default").map (·, .modifier)

/-- The signs that tell something, the dot apart: a number may begin with one. -/
def signMarks : List (String × Mark) :=
  [("\x7b", .brace), ("(", .parenthesis), ("[", .bracket), ("\x7d", .closingBrace),
    (")", .closing), ("]", .closing), (";", .semicolon), (",", .comma), ("@", .name),
    ("@interface", .annotationType), ("=", .equals), ("-", .minus), ("<", .less), (">", .greater)]

/-- All texts that tell something, and what. -/
def allMarks : List (String × Mark) := signMarks ++ (".", .dot) :: wordMarks

namespace Mark

/-- The mark of a token with the given text. -/
def of (s : String) : Mark := (allMarks.lookup s).getD .plain

/-- Does the mark open a pair of brackets? -/
def isOpening (mark : Mark) : Bool :=
  mark == .brace || mark == .parenthesis || mark == .bracket

/-- Does the mark close a pair of brackets? -/
def isClosing (mark : Mark) : Bool := mark == .closingBrace || mark == .closing

/-- A text tells nothing, or what the table says. -/
theorem of_eq (s : String) : of s = .plain ∨ (s, of s) ∈ allMarks := by
  cases hs : allMarks.lookup s with
  | none => exact .inl (by rw [of, hs]; rfl)
  | some mark =>
      obtain ⟨before, behind, hall, -⟩ := List.lookup_eq_some_iff.mp hs
      refine .inr ?_
      rw [of, hs, hall]
      simp

/-- What does not look like a sign tells nothing, or is a dot or a word of the table. -/
theorem of_not_sign {s : String} (h : s ∉ signMarks.map Prod.fst) :
    of s = .plain ∨ s = "." ∧ of s = .dot ∨ (s, of s) ∈ wordMarks := by
  refine (of_eq s).imp id fun hmem => ?_
  rcases List.mem_append.mp hmem with hsign | hmem
  · exact absurd (List.mem_map_of_mem hsign) h
  · exact (List.mem_cons.mp hmem).imp (fun hdot => Prod.mk.inj hdot) id

/-- Which texts have a mark with some property is settled by the table. -/
theorem check_of {check : Mark → Bool} {texts : List String} (hplain : check .plain = false)
    (htexts : ∀ s ∈ texts, s ∈ allMarks.map Prod.fst)
    (hall : ∀ s ∈ allMarks.map Prod.fst, check (of s) = texts.contains s) (s : String) :
    check (of s) = texts.contains s := by
  by_cases hs : s ∈ allMarks.map Prod.fst
  · exact hall s hs
  · have hmark : of s = .plain := (of_eq s).resolve_right fun h => hs (List.mem_map_of_mem h)
    have hnot : s ∉ texts := fun h => hs (htexts s h)
    rw [hmark, hplain]
    simpa using hnot

theorem isOpening_of (s : String) : (of s).isOpening = openings.contains s :=
  check_of rfl (by decide +kernel) (by decide +kernel) s

theorem isClosing_of (s : String) : (of s).isClosing = closings.contains s :=
  check_of rfl (by decide +kernel) (by decide +kernel) s

end Mark

/-- A word looks like no sign and no dot, a literal like no sign. -/
def IsMarked (t : Token) : Prop :=
  (t.kind = .word ∨ t.kind = .literal ∨ t.kind = .string → t.text ∉ signMarks.map Prod.fst)
    ∧ (t.kind = .word → t.text ≠ ".")

/-- The tokens of a source file are marked. -/
theorem isMarked_ofSource {source : String} {t : Token} (h : t ∈ Token.ofSource source) :
    IsMarked t :=
  ⟨fun hkind => not_mem_of_isSymbolic h hkind (by decide +kernel), ne_dot_of_word h⟩

/-! ## Sites -/

/-- What has been reached outside of brackets. -/
inductive Region where
  /-- The start of a declaration or a member, or its modifiers. -/
  | item
  /-- A sign that a name follows. -/
  | sign
  /-- The head of a class, an interface or a record. -/
  | type
  /-- The head of an annotation type. -/
  | annotationType
  /-- The head of an enumeration. -/
  | enum
  /-- The constants of an enumeration. -/
  | constants
  /-- The first word of a member. -/
  | word
  /-- More of the head of a member. -/
  | head
  /-- The parameters of a method, and what follows them. -/
  | signature
  /-- The parameters of a constructor, and what follows them. -/
  | constructor
  /-- A head with type parameters in front or with an annotation in it. -/
  | mixed
  /-- A value. -/
  | value
  /-- A comma outside of brackets in a value: more type arguments follow, or a variable. -/
  | comma
  /-- The declaration of a module. -/
  | module
  deriving DecidableEq, Inhabited

/-- Where in a file a token stands: outside of brackets, or within a number of further ones.
`elements` says whether that is in the body of an annotation type, where elements can be
declared but no records, and where the bodies of other types count as brackets. -/
inductive Site where
  | outside (elements : Bool) (region : Region)
  | inside (elements : Bool) (region : Region) (level : Nat)
  deriving DecidableEq, Inhabited

/-- The region behind a token that is no bracket. -/
def Region.next (elements : Bool) : Region → Mark → Region
  | _, .semicolon => .item
  | .item, .modifier | .item, .default => .item
  | .item, .name | .item, .dot => .sign
  | .item, .type => .type
  | .item, .annotationType => if elements then .type else .annotationType
  | .item, .enum => .enum
  | .item, .record => if elements then .word else .type
  | .item, .module => if elements then .word else .module
  | .item, .less => .mixed
  | .item, _ => .word
  | .sign, _ => .item
  -- the sign in the modifier `non-sealed`
  | .word, .minus => .sign
  | .word, .name | .head, .name | .signature, .name => .mixed
  | .word, _ => .head
  | .head, .equals | .signature, .equals | .mixed, .equals | .module, .equals => .value
  | .signature, .throws => .head
  | .signature, .default => .value
  | .mixed, .default => if elements then .value else .mixed
  | .value, .comma => .comma
  | .comma, .equals | .comma, .greater => .value
  | region, _ => region

/-- The site behind a bracket that opens. -/
def Region.opened (elements : Bool) : Region → Mark → Site
  | .type, .brace => if elements then .inside elements .item 0 else .outside elements .item
  | .annotationType, .brace => .outside true .item
  | .enum, .brace => if elements then .inside elements .item 0 else .outside elements .constants
  | .constants, _ => .inside elements .constants 0
  | .value, _ => .inside elements .value 0
  | .comma, _ => .inside elements .comma 0
  | _, .brace => .inside elements .item 0
  | .word, .parenthesis => .inside elements .constructor 0
  | .word, _ => .inside elements .head 0
  | .head, .parenthesis => .inside elements .signature 0
  | region, _ => .inside elements region 0

/-- The site behind a token. -/
def Site.next : Site → Mark → Site
  | .outside elements region, mark =>
    if mark.isOpening then region.opened elements mark
    else if mark = .closingBrace then .outside false .item
    else .outside elements (region.next elements mark)
  | .inside elements region level, mark =>
    if mark.isOpening then .inside elements region (level + 1)
    else if mark.isClosing then
      if level = 0 then .outside elements region else .inside elements region (level - 1)
    else .inside elements region level

/-- The site behind some tokens. -/
def Site.behind (site : Site) (ts : List Token) : Site :=
  ts.foldl (fun site t => site.next (Mark.of t.text)) site

/-- The site behind the first tokens of a file. -/
def siteBehind (ts : List Token) : Site := Site.behind (.outside false .item) ts

/-! ## Code -/

/-- The kinds of code that declarations and members hold. -/
inductive CodeKind where
  /-- The body of a method, a constructor or an initializer. -/
  | block
  /-- The constants of an enumeration. -/
  | constants
  /-- The initial value of a field. -/
  | value
  /-- The arguments of an annotation in front of a declaration or a member. -/
  | arguments
  /-- The default value of an element. -/
  | defaultValue
  deriving DecidableEq, Inhabited

namespace CodeKind

/-- The text of the token in front of code. -/
def opener : CodeKind → String
  | .block | .constants => "\x7b"
  | .value => "="
  | .arguments => "("
  | .defaultValue => "default"

/-- The form of code with its opener, given that of what stands behind the opener. Behind the
constants of an enumeration it goes on to the end of the body. -/
def whole (kind : CodeKind) (p : Form) : Form :=
  match kind with
  | .block => .node .block (.seq (text "\x7b") p)
  | .constants => inBraces (all [.node .constants p, maybe (text ","),
      maybe (.node .body (.seq (text ";") (.many (.rule .classMember))))])
  | .value => .seq (text "=") (.node .value p)
  | .arguments => .node .arguments (.seq (text "(") p)
  | .defaultValue => .node .defaultValue (.seq (text "default") p)

/-- May a class accept the opener? -/
def mayOpen (kind : CodeKind) : Terminal → Bool
  | .oneOf texts => texts.contains kind.opener
  | .joined s => s == kind.opener
  | .word except => kind == .defaultValue && !except.contains kind.opener
  | .literal | .string => kind == .defaultValue
  | .finish => false

end CodeKind

/-- What stands behind the brace of a block. -/
def blockContents : Form := .seq (.many (.rule .statement)) (text "\x7d")

/-- What stands behind the brace of the body of a constructor. -/
def constructorContents : Form :=
  .seq (.seq (maybe constructorCall) (.many (.rule .statement))) (text "\x7d")

/-- The initial value of a field. -/
def initialValue : Form := any [.rule .arrayInitializer, .rule (.expression true)]

/-- What stands behind the parenthesis of the arguments of an annotation. -/
def annotationContents : Form :=
  any [.seq (.rule .elementValue) (text ")"),
    .seq (commaSeparated (all [anyWord, text "=", .rule .elementValue])) (text ")")]

/-- The code that may begin in a region, each with the form of what stands behind its opener.
A head that begins with type parameters may be that of a method or of a constructor. -/
def Region.codes : Region → List (CodeKind × Form)
  | .item => [(.block, blockContents), (.arguments, annotationContents)]
  | .word => [(.block, blockContents)]
  | .head => [(.block, blockContents), (.value, initialValue)]
  | .signature => [(.block, blockContents), (.defaultValue, .rule .elementValue)]
  | .constructor => [(.block, constructorContents)]
  | .mixed => [(.block, blockContents), (.block, constructorContents), (.value, initialValue)]
  | .comma => [(.value, initialValue)]
  | .enum => [(.constants, commaSeparated enumConstant)]
  | _ => []

/-- The code that may begin at a site. -/
def Site.codes : Site → List (CodeKind × Form)
  | .outside _ region => region.codes
  | .inside .. => []

end JavaOutline.Grammar
