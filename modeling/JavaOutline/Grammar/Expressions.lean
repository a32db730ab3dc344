import JavaOutline.Grammar.Types

/-!
# JavaOutline.Grammar.Expressions

How expressions are written. Their trees are flat: which operator binds more
tightly decides nothing about the structure of a file, only that the operators
have their operands.
-/

namespace JavaOutline.Grammar

open Pattern

/-! ## Operators -/

/-- A text made of several tokens with nothing between them. -/
def joinedText (first : String) (rest : List String) : Form :=
  all (text first :: rest.map fun s => .token (.joined s))

/-- An operator between two operands. -/
def binaryOperator : Form :=
  any [.token (.oneOf ["+", "-", "*", "/", "%", "&", "|", "^", "&&", "||", "==", "!=", "<=",
      "<<", "<"]),
    joinedText ">" [">", ">"], joinedText ">" [">"], joinedText ">" ["="], text ">"]

/-- An operator that assigns. -/
def assignmentOperator : Form :=
  any [.token (.oneOf ["=", "+=", "-=", "*=", "/=", "%=", "&=", "|=", "^=", "<<="]),
    joinedText ">" [">", ">", "="], joinedText ">" [">", "="]]

/-! ## Parts of expressions -/

/-- An expression in parentheses. -/
def parenthesized : Form := inParentheses (.rule (.expression true))

/-- The arguments of a call. -/
def arguments : Form := .node .arguments (inParentheses (commaSeparated (.rule (.expression true))))

/-- Type arguments, if there are any. -/
def someTypeArguments : Form := maybe (.rule .typeArguments)

/-- A reference to a method or a constructor, after its qualifier. -/
def methodReference : Form := all [text "::", someTypeArguments, anyWord]

/-- The name of a variable or a method. -/
def operandName : Form := .token (.word operandReserved)

/-- A lambda: parameters, an arrow and a body. -/
def lambda : Form :=
  let names : Form := inParentheses (separated "," operandName)
  all [any [operandName, names, .rule (.parameters .expression)], text "->",
    any [.rule .block, .rule (.expression true)]]

/-- A cast to a type, or to several types at once. -/
def cast (arrows : Bool) : Form :=
  let type : Form := .rule (.anyType .expression)
  any [all [text "(", type, text ")", .rule (.term arrows)],
    all [text "(", type, oneOrMore (.seq (text "&") type), text ")",
      if arrows then any [lambda, .rule (.operand arrows)] else .rule (.operand arrows)]]

/-- The creation of an object or an array. -/
def creationForm : Form :=
  let bracketed : Form := all [annotations, text "[", .rule (.expression true), text "]"]
  all [text "new", annotations, maybe (.seq (.rule .typeArguments) annotations),
    simpleType .plain,
    any [.seq arguments (maybe (.rule .classBody)),
      .seq (oneOrMore bracketed) (maybe (.rule .dimensions)),
      .seq (.rule .dimensions) (.rule .arrayInitializer)]]

/-- The creation of an object of an inner class, after the outer object. -/
def innerCreation : Form :=
  all [text "new", annotations, maybe (.seq (.rule .typeArguments) annotations),
    simpleType .plain, arguments, maybe (.rule .classBody)]

/-- A type as a qualifier: of a method reference, or of a class literal. -/
def typeQualified : Form :=
  .seq (.rule (.type .expression)) (any [methodReference, .seq (text ".") (text "class")])

/-- A call or a reference through `super`. -/
def superCall : Form :=
  .seq (text "super")
    (any [methodReference, all [text ".", someTypeArguments, anyWord, arguments]])

/-- Something that values cannot be assigned to, at the start of an
operand. -/
def closedStart : Form :=
  any [.token .literal, .token .string, .token (.oneOf ["true", "false", "null", "this"]),
    parenthesized, .rule .creation, .seq operandName arguments, superCall]

/-- A member of the superclass. -/
def superMember : Form := all [text "super", text ".", anyWord]

/-- A variable at the start of an operand. -/
def openStart : Form := .choice superMember operandName

/-- What can follow an operand to form a value. -/
def closedSuffix : Form :=
  let called : Form := .token (.word ["new", "super", "class"])
  any [all [text ".", someTypeArguments, called, arguments],
    all [text ".", text "super", text ".", someTypeArguments, anyWord, arguments],
    .seq (text ".") innerCreation,
    .seq (text ".") (.token .string),
    .seq (text ".") (text "class"),
    methodReference]

/-- An element of what was read so far. -/
def indexSuffix : Form := all [text "[", .rule (.expression true), text "]"]

/-- A member of what was read so far. -/
def memberSuffix : Form :=
  any [all [text ".", text "super", text ".", anyWord],
    .seq (text ".") (.token (.word ["new", "super"]))]

/-- What can follow an operand to form a variable. -/
def openSuffix : Form := .choice memberSuffix indexSuffix

/-- A variable that is a member of something. -/
def memberAccess : Form :=
  any [.seq (any [typeQualified, closedStart, openStart])
      (oneOrMore (.seq (.many (.choice closedSuffix indexSuffix)) memberSuffix)),
    superMember]

/-! ## Expressions -/

/-- What follows the start of an operand; `assignable` says whether a value
can be assigned to what was read so far. -/
def suffixesForm (arrows assignable : Bool) : Form :=
  let assignment : Form := .seq assignmentOperator (.rule (.expression arrows))
  any ((if assignable then [assignment] else []) ++
    [.seq closedSuffix (.rule (.suffixes arrows false)),
      .seq openSuffix (.rule (.suffixes arrows true)),
      .nothing])

/-- An operand: a value or a variable, and what follows it. -/
def operandForm (arrows : Bool) : Form :=
  any [.seq typeQualified (.rule (.suffixes arrows false)),
    .seq closedStart (.rule (.suffixes arrows false)),
    .seq openStart (.rule (.suffixes arrows true))]

/-- A part of an expression between two operators. -/
def termForm (arrows : Bool) : Form :=
  any ([.seq (.token (.oneOf ["+", "-", "!", "~", "++", "--"])) (.rule (.term arrows))]
    ++ (if arrows then [lambda] else [])
    ++ [cast arrows, .rule .switch, .rule (.operand arrows)])

/-- A pattern that takes a record apart. Only with arguments may its name have dots. -/
def recordPatternForm : Form :=
  let component : Form := any [.rule .recordPattern, .seq (.rule (.type .plain)) anyWord, text "_"]
  let first : Form := .seq (.token (.word operandReserved)) someTypeArguments
  let segment : Form := all [annotations, anyWord, someTypeArguments, text "."]
  all [any [.seq first (.ahead (.oneOf ["("])),
      all [first, text ".", .many segment, annotations, anyWord, .rule .typeArguments]],
    inParentheses (commaSeparated component)]

/-- An operator and the operand after it. -/
def infixForm (arrows : Bool) : Form :=
  let name : Form := .token (.word ["instanceof"])
  any [.seq binaryOperator (.rule (.term arrows)),
    all [text "instanceof", maybe (text "final"),
      any [.rule .recordPattern, .seq (.rule (.anyType .expression)) (maybe name)]],
    all [text "?", .rule (.expression true), text ":", .rule (.term arrows)],
    .token (.oneOf ["++", "--"])]

/-- An expression. -/
def expressionForm (arrows : Bool) : Form :=
  .seq (.rule (.term arrows)) (.many (.rule (.infixPart arrows)))

/-! ## Switches -/

/-- The label of a case. -/
def caseLabel : Form :=
  let guard : Form := maybe (.seq (text "when") (.rule (.expression false)))
  let pattern : Form := any [.rule .recordPattern, .seq (.rule (.type .expression)) anyWord]
  any [all [text "case", pattern, guard, .ahead (.oneOf ["->", ":"])],
    all [text "case", separated "," (.rule (.expression false)), guard],
    text "default"]

/-- A statement that throws. -/
def throwing : Form := all [text "throw", .rule (.expression true), text ";"]

/-- A switch, as an expression or as a statement: cases with arrows, or groups
of statements under labels. -/
def switchForm : Form :=
  let arrowCase : Form := all [caseLabel, text "->",
    any [.seq (.rule (.expression true)) (text ";"), throwing, .rule .block]]
  let group : Form := .seq (oneOrMore (.seq caseLabel (text ":"))) (.many (.rule .statement))
  all [text "switch", parenthesized, inBraces (any [oneOrMore arrowCase, .many group])]

end JavaOutline.Grammar
