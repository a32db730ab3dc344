import JavaOutline.Grammar.Pattern

/-!
# JavaOutline.Grammar.Rule

The vocabulary of the grammar: labels of tree nodes, names of rules, and the
words that are not names in a given place.

Keywords are not reserved everywhere. A word is a keyword only where the
grammar has a use for the keyword; in any other place it is a name like any
other. So a type may be called `record` where no record can be declared, and a
variable may have any name at all. `Place` lists the places that differ.
-/

namespace JavaOutline.Grammar

/-! ## Labels -/

/-- What a node of a syntax tree is. Constructs whose contents do not matter
to the structure of a file have no label of their own. -/
inductive Label where
  -- parts of a file
  | package | importing | declaration | name
  -- declarations
  | modifiers | nonSealed | annotationUse | identifier
  | classType | interfaceType | enumType | recordType | annotationType
  | superclass | interfaces | superinterfaces | body | constants
  -- members
  | field | variable | method | constructor | compactConstructor | element | defaultValue
  | parameters | parameter | spread | receiver | throws
  -- types
  | type | annotated | named | typeArguments | wildcard | dimensions | typeParameters
  -- contents
  | arguments | block | value | statement
  deriving Repr, DecidableEq, Inhabited

/-! ## Places -/

/-- The names of primitive types, `void` among them. -/
def primitiveTypes : List String :=
  ["byte", "short", "int", "long", "char", "float", "double", "boolean", "void"]

/-- Modifiers that are keywords wherever a modifier may stand. -/
def strictModifiers : List String :=
  ["public", "protected", "private", "abstract", "static", "final", "strictfp", "default",
    "synchronized", "native", "transient", "volatile"]

/-- Modifiers that are one word. -/
def modifierWords : List String := strictModifiers ++ ["sealed"]

/-- Words that begin a declaration of a type. -/
def typeWords : List String := ["class", "interface", "enum"]

/-- Words that begin an expression and are not names there. -/
def expressionWords : List String :=
  ["new", "this", "super", "true", "false", "null", "switch"]

/-- Words that begin a statement and nothing else. -/
def statementWords : List String :=
  ["if", "while", "for", "do", "try", "return", "break", "continue", "throw", "assert", "import",
    "package"]

/-- Keywords in some places that may be names of variables and methods. -/
def softWords : List String := ["open", "module", "record", "with", "sealed", "yield"]

/-- A place where a type may begin. -/
inductive Place where
  /-- After a token that only a type can follow. -/
  | plain
  /-- At the start of a member. -/
  | member
  /-- At the start of a member of an annotation type, where no record can be
  declared. -/
  | annotationMember
  /-- At the start of a parameter. -/
  | parameter
  /-- At the start of a statement. -/
  | statement
  /-- At the start of an expression. -/
  | expression
  deriving Repr, DecidableEq, Inhabited

/-- The words that do not name a type in a place. -/
def Place.reserved : Place → List String
  | .plain => primitiveTypes
  | .member => primitiveTypes ++ modifierWords ++ typeWords ++ ["record"]
  | .annotationMember => primitiveTypes ++ modifierWords ++ typeWords
  | .parameter => primitiveTypes ++ modifierWords
  | .statement =>
    primitiveTypes ++ strictModifiers ++ typeWords ++ expressionWords ++ statementWords
      ++ softWords
  | .expression => primitiveTypes ++ strictModifiers ++ expressionWords ++ softWords

/-- The words that are not names of variables or methods at the start of an
expression. The operator `instanceof` is never taken for a name there. -/
def operandReserved : List String := primitiveTypes ++ expressionWords ++ ["instanceof"]

/-- The words that do not begin an expression that is a statement. -/
def notExpressionStatement : List String := strictModifiers ++ typeWords ++ statementWords

/-! ## Rules -/

/-- The rules of the grammar. In front of the arrow of a `case` the flag
`arrows` is off, so that the arrow does not begin a lambda there. -/
inductive Rule where
  | unit | topLevel
  | typeDeclaration | classBody | classMember | interfaceMember | annotationMember
  | annotationUse | elementValue
  | type (place : Place) | anyType (place : Place) | typeArguments | dimensions | typeParameters
  | parameters (place : Place) | variable | arrayInitializer
  | block | statement | switch
  | expression (arrows : Bool) | infixPart (arrows : Bool) | term (arrows : Bool)
  | operand (arrows : Bool) | suffixes (arrows assignable : Bool) | creation | recordPattern
  deriving Repr, DecidableEq, Inhabited

/-- A pattern of the grammar. -/
abbrev Form := Pattern Rule Label

end JavaOutline.Grammar
