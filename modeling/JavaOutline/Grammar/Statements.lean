import JavaOutline.Grammar.Expressions

/-!
# JavaOutline.Grammar.Statements

How statements are written, package and import declarations among them: they
may stand wherever a statement may.
-/

namespace JavaOutline.Grammar

open Pattern

/-! ## Parts of a file -/

/-- The package of a file. -/
def packageForm : Form :=
  .node .package (all [annotations, text "package", qualifiedName, text ";"])

/-- The import of a type, of members, or of everything in a package. -/
def importForm : Form :=
  .node .importing (all [text "import", maybe (text "static"), qualifiedName,
    maybe (.seq (text ".") (text "*")), text ";"])

/-- A directive of a module. -/
def directive : Form :=
  let targets (word : String) : Form := .seq (text word) (separated "," qualifiedName)
  any [all [text "requires", .many (.token (.oneOf ["transitive", "static"])), qualifiedName,
      text ";"],
    all [.token (.oneOf ["exports", "opens"]), qualifiedName, maybe (targets "to"), text ";"],
    all [text "uses", qualifiedName, text ";"],
    all [text "provides", qualifiedName, targets "with", text ";"]]

/-- The declaration of a module. -/
def moduleForm : Form :=
  all [annotations, maybe (text "open"), text "module", qualifiedName,
    inBraces (.many directive)]

/-! ## Blocks -/

/-- Statements in braces. -/
def blockForm : Form := .node .block (inBraces (.many (.rule .statement)))

/-- The call of another constructor at the start of a constructor. -/
def constructorCall : Form :=
  any [all [someTypeArguments, .token (.oneOf ["this", "super"]), arguments, text ";"],
    all [.rule (.operand true), text ".", someTypeArguments, text "super", arguments, text ";"]]

/-- The body of a constructor. -/
def constructorBody : Form :=
  .node .block (inBraces (.seq (maybe constructorCall) (.many (.rule .statement))))

/-! ## Statements -/

/-- The declaration of local variables. -/
def localVariables : Form := all [modifiers, .rule (.type .statement), variableList, text ";"]

/-- The variable that a loop or a resource binds. -/
def boundVariable : Form :=
  all [modifiers, .rule (.type .statement), identifier, maybe (.rule .dimensions)]

/-- A statement under a label. -/
def labelled : Form :=
  all [.token (.word Place.statement.reserved), text ":", .rule .statement]

/-- Conditions and loops. -/
def controlStatements : List Form := [
  all [text "if", parenthesized, .rule .statement,
    maybe (.seq (text "else") (.rule .statement))],
  all [text "while", parenthesized, .rule .statement],
  all [text "for", text "(", boundVariable, text ":", .rule (.expression true), text ")",
    .rule .statement],
  all [text "for", text "(",
    any [localVariables, .seq (commaSeparated (.rule (.expression true))) (text ";")],
    maybe (.rule (.expression true)), text ";", commaSeparated (.rule (.expression true)),
    text ")", .rule .statement],
  all [text "do", .rule .statement, text "while", parenthesized, text ";"],
  all [text "synchronized", parenthesized, .rule .block]]

/-- Statements that leave a block, and assertions. -/
def jumpStatements : List Form := [
  all [text "return", maybe (.rule (.expression true)), text ";"],
  throwing,
  all [text "break", maybe anyWord, text ";"],
  all [text "continue", maybe anyWord, text ";"],
  all [text "yield", .rule (.expression true), text ";"],
  all [text "assert", .rule (.expression true),
    maybe (.seq (text ":") (.rule (.expression true))), text ";"]]

/-- Statements that handle exceptions. -/
def tryStatements : List Form :=
  let caught : Form := all [modifiers, separated "|" (.rule (.type .parameter)), identifier,
    maybe (.rule .dimensions)]
  let catching : Form := all [text "catch", inParentheses caught, .rule .block]
  let finishing : Form := .seq (text "finally") (.rule .block)
  let resource : Form := any [all [boundVariable, text "=", .rule (.expression true)],
    memberAccess, operandName]
  let resources : Form := inParentheses (.seq (separated ";" resource) (maybe (text ";")))
  [all [text "try", .rule .block,
      any [.seq (oneOrMore catching) (maybe finishing), finishing]],
    all [text "try", resources, .rule .block, .many catching, maybe finishing]]

/-- A switch is a statement without a semicolon, or the start of an expression
that is one. -/
def switchStatement : Form :=
  .seq (.rule .switch)
    (any [.seq (oneOrMore (.rule (.infixPart true))) (text ";"), .nothing])

/-- An expression as a statement. -/
def expressionStatement : Form :=
  all [.unless (.oneOf notExpressionStatement), .rule (.expression true), text ";"]

/-- A statement. -/
def statementForm : Form :=
  any [text ";", .rule .block, packageForm, importForm, moduleForm, .rule .typeDeclaration,
    .node .statement (any ([labelled] ++ controlStatements ++ jumpStatements ++ tryStatements
      ++ [switchStatement, localVariables, expressionStatement]))]

end JavaOutline.Grammar
