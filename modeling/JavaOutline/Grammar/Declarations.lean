import JavaOutline.Grammar.Statements

/-!
# JavaOutline.Grammar.Declarations

How types and their members are written, and the grammar as a whole:
`Rule.form` gives each rule its pattern and `unitTrees?` reads a file.

A declaration is a node of its modifiers, if it has any, and what is declared.
-/

namespace JavaOutline.Grammar

open Pattern Source

/-! ## Members -/

/-- The exceptions a method or a constructor throws. -/
def throwsForm : Form := .node .throws (typeList "throws")

/-- A field statement. -/
def fieldForm (place : Place) : Form :=
  .node .field (all [.rule (.type place), variableList, text ";"])

/-- The name of what is no variable where a variable could be declared: the underscore is for
variables only. -/
def memberName : Form := .node .identifier (.token (.word ["_"]))

/-- What a method returns, and its name. Behind type parameters there is no variable and no
modifier. -/
def methodHead (place : Place) : Form :=
  any [all [.rule .typeParameters, annotations, .rule (.type .plain), identifier],
    .seq (.rule (.type place)) memberName]

/-- A method, with or without a body. -/
def methodForm (place : Place) : Form :=
  .node .method (all [methodHead place, .rule (.parameters .parameter), maybe (.rule .dimensions),
    maybe throwsForm, any [.rule .block, text ";"]])

/-- The name of a constructor. -/
def constructorName : Form := .node .identifier (.token (.word Place.member.reserved))

/-- A constructor, whatever its name. -/
def constructorForm : Form :=
  .node .constructor (all [maybe (.rule .typeParameters), constructorName,
    .rule (.parameters .parameter), maybe throwsForm, constructorBody])

/-- A constructor of a record without parameters of its own. -/
def compactConstructorForm : Form :=
  .node .compactConstructor (.seq constructorName (.rule .block))

/-- An element of an annotation type. -/
def elementForm : Form :=
  .node .element (all [.rule (.type .annotationMember), memberName, text "(", text ")",
    maybe (.rule .dimensions),
    maybe (.node .defaultValue (.seq (text "default") (.rule .elementValue))), text ";"])

/-! ## Types -/

/-- Type parameters, if there are any. -/
def someTypeParameters : Form := maybe (.rule .typeParameters)

/-- The types a class, an enumeration or a record implements. -/
def interfacesForm : Form := maybe (.node .interfaces (typeList "implements"))

/-- The types that may extend a sealed type. -/
def permits : Form := maybe (typeList "permits")

/-- A body of members of one sort. -/
def bodyOf (member : Rule) : Form := .node .body (inBraces (.many (.rule member)))

/-- A class. -/
def classForm : Form :=
  .node .classType (all [text "class", identifier, someTypeParameters,
    maybe (.node .superclass (.seq (text "extends") (.rule (.anyType .plain)))),
    interfacesForm, permits, .rule .classBody])

/-- An interface. -/
def interfaceForm : Form :=
  .node .interfaceType (all [text "interface", identifier, someTypeParameters,
    maybe (.node .superinterfaces (typeList "extends")), permits, bodyOf .interfaceMember])

/-- An annotation type. -/
def annotationTypeForm : Form :=
  .node .annotationType (all [text "@interface", identifier, bodyOf .annotationMember])

/-- A record. -/
def recordForm : Form :=
  .node .recordType (all [text "record", identifier, someTypeParameters,
    .rule (.parameters .parameter), interfacesForm, .rule .classBody])

/-- A constant of an enumeration. -/
def enumConstant : Form :=
  all [modifiers, .token (.word modifierWords), maybe arguments, maybe (.rule .classBody)]

/-- An enumeration: its constants come first, its members after a
semicolon. -/
def enumForm : Form :=
  .node .enumType (all [text "enum", identifier, interfacesForm,
    inBraces (all [.node .constants (commaSeparated enumConstant), maybe (text ","),
      maybe (.node .body (.seq (text ";") (.many (.rule .classMember))))])])

/-- A type that an annotation type may hold. -/
def plainTypes : List Form := [classForm, interfaceForm, annotationTypeForm, enumForm]

/-- Any type. -/
def typeForms : List Form := plainTypes ++ [recordForm]

/-- Modifiers and what they belong to. -/
def declared (forms : List Form) : Form := .node .declaration (.seq modifiers (any forms))

/-! ## Bodies -/

/-- A member of a class, an enumeration or a record. -/
def classMemberForm : Form :=
  any [text ";", .rule .block, .seq (text "static") (.rule .block),
    declared (typeForms ++ [constructorForm, compactConstructorForm, methodForm .member,
      fieldForm .member])]

/-- A member of an interface. -/
def interfaceMemberForm : Form :=
  any [text ";", declared (typeForms ++ [methodForm .member, fieldForm .member])]

/-- A member of an annotation type. -/
def annotationMemberForm : Form :=
  any [text ";", declared (plainTypes ++ [elementForm, fieldForm .annotationMember])]

/-! ## Files -/

/-- What stands at the top level of a file: any statement, or a method. -/
def topLevelForm : Form :=
  any [.rule .statement, .seq modifiers (methodForm .statement)]

/-- A file. -/
def unitForm : Form := .seq (.many (.rule .topLevel)) (.token .finish)

/-- The pattern of each rule. -/
def Rule.form : Rule → Form
  | .unit => unitForm
  | .topLevel => topLevelForm
  | .typeDeclaration => declared typeForms
  | .classBody => bodyOf .classMember
  | .classMember => classMemberForm
  | .interfaceMember => interfaceMemberForm
  | .annotationMember => annotationMemberForm
  | .annotationUse => annotationForm
  | .elementValue => elementValueForm
  | .type place => typeForm place
  | .anyType place => anyTypeForm place
  | .typeArguments => typeArgumentsForm
  | .dimensions => dimensionsForm
  | .typeParameters => typeParametersForm
  | .parameters place => parametersForm place
  | .variable => variableForm
  | .arrayInitializer => arrayInitializerForm
  | .block => blockForm
  | .statement => statementForm
  | .switch => switchForm
  | .expression arrows => expressionForm arrows
  | .infixPart arrows => infixForm arrows
  | .term arrows => termForm arrows
  | .operand arrows => operandForm arrows
  | .suffixes arrows assignable => suffixesForm arrows assignable
  | .creation => creationForm
  | .recordPattern => recordPatternForm

/-- The trees at the top level of a file, if its tokens form one. -/
def unitTrees? (tokens : List Token) : Option (List (ParseTree Label)) :=
  (Pattern.parse Rule.form depthLimit unitForm tokens).map Prod.fst

/-- How many tokens are left at the furthest token that reading a file looks
at. -/
def unitReach (tokens : List Token) : Nat :=
  Pattern.reach Rule.form depthLimit unitForm tokens

end JavaOutline.Grammar
