import JavaOutline.Grammar.Rule

/-!
# JavaOutline.Grammar.Types

How types, annotations and parameters are written.
-/

namespace JavaOutline.Grammar

open Pattern

/-! ## Names -/

/-- Any word. -/
def anyWord : Form := .token (.word [])

/-- The name that a declaration declares. -/
def identifier : Form := .node .identifier anyWord

/-- A name of one or more words. -/
def qualifiedName : Form := .node .name (separated "." anyWord)

/-- A list in parentheses. -/
def inParentheses (p : Form) : Form := all [text "(", p, text ")"]

/-- Something in braces. -/
def inBraces (p : Form) : Form := all [text "\x7b", p, text "\x7d"]

/-! ## Annotations -/

/-- The arguments of an annotation: one value, or pairs of a name and a
value. -/
def annotationArguments : Form :=
  let pair : Form := all [anyWord, text "=", .rule .elementValue]
  .node .arguments (.seq (text "(")
    (any [.seq (.rule .elementValue) (text ")"), .seq (commaSeparated pair) (text ")")]))

/-- An annotation. A name that begins with `interface` cannot stand right behind
the sign, which would be that of an annotation type. -/
def annotationForm : Form :=
  .node .annotationUse (all [text "@", qualifiedName, maybe annotationArguments])

/-- The value of an annotation's element. -/
def elementValueForm : Form :=
  any [.rule .annotationUse,
    inBraces (.seq (commaSeparated (.rule .elementValue)) (maybe (text ","))),
    .rule (.expression true)]

/-- Any number of annotations. -/
def annotations : Form := .many (.rule .annotationUse)

/-- A modifier. -/
def modifier : Form :=
  any [.token (.oneOf modifierWords), .rule .annotationUse,
    .node .nonSealed (all [text "non", .token (.joined "-"), .token (.joined "sealed")])]

/-- Modifiers and annotations in front of a declaration, if there are any. -/
def modifiers : Form := maybe (.node .modifiers (oneOrMore modifier))

/-! ## Types -/

/-- A named type; any segment of the name may have arguments. -/
def namedType (place : Place) : Form :=
  all [.token (.word place.reserved), maybe (.rule .typeArguments),
    .many (all [text ".", annotations, anyWord, maybe (.rule .typeArguments)])]

/-- A type without dimensions. -/
def simpleType (place : Place) : Form :=
  .node .named (any [.token (.oneOf primitiveTypes), namedType place])

/-- A type without annotations in front. -/
def typeForm (place : Place) : Form :=
  .node .type (.seq (simpleType place) (maybe (.rule .dimensions)))

/-- A type with or without annotations in front. -/
def anyTypeForm (place : Place) : Form :=
  any [.node .annotated (.seq (oneOrMore (.rule .annotationUse)) (.rule (.type .plain))),
    .rule (.type place)]

/-- Brackets, each pair with annotations in front. -/
def dimensionsForm : Form :=
  .node .dimensions (oneOrMore (all [annotations, text "[", text "]"]))

/-- A wildcard. -/
def wildcard : Form :=
  .node .wildcard (all [annotations, text "?",
    maybe (.seq (.token (.oneOf ["extends", "super"])) (.rule (.anyType .plain)))])

/-- Type arguments; there may be none between the angle brackets. -/
def typeArgumentsForm : Form :=
  .node .typeArguments
    (all [text "<", commaSeparated (any [wildcard, .rule (.anyType .plain)]), text ">"])

/-- The parameters of a generic declaration. -/
def typeParametersForm : Form :=
  let bound : Form := .seq (text "extends") (separated "&" (.rule (.anyType .plain)))
  .node .typeParameters
    (all [text "<", separated "," (all [annotations, anyWord, maybe bound]), text ">"])

/-- A list of types after a keyword. -/
def typeList (keyword : String) : Form :=
  .seq (text keyword) (separated "," (.rule (.anyType .plain)))

/-! ## Parameters -/

/-- A parameter of fixed arity. -/
def parameterForm (place : Place) : Form :=
  .node .parameter (all [modifiers, .rule (.type place), identifier, maybe (.rule .dimensions)])

/-- A parameter of variable arity. -/
def spread (place : Place) : Form :=
  .node .spread (all [modifiers, .rule (.type place), text "...", .rule .variable])

/-- The receiver of a method, which is not one of its parameters. With
annotations in front, it has to name the type whose `this` it is. -/
def receiver (place : Place) : Form :=
  let outer : Form := .seq anyWord (text ".")
  .node .receiver
    (any [all [oneOrMore (.rule .annotationUse), .rule (.type .plain), oneOrMore outer,
        text "this"],
      all [.rule (.type place), .many outer, text "this"]])

/-- The parameters of a method, a constructor, a record or a lambda. -/
def parametersForm (place : Place) : Form :=
  .node .parameters (.seq (text "(")
    (any [.seq (receiver place) (text ")"),
      all [maybe (.seq (receiver place) (text ",")),
        commaSeparated (any [spread place, parameterForm place]), text ")"]]))

/-! ## Variables -/

/-- A variable with its dimensions and its initial value. -/
def variableForm : Form :=
  let value : Form := any [.rule .arrayInitializer, .rule (.expression true)]
  .node .variable (all [identifier, maybe (.rule .dimensions),
    maybe (.seq (text "=") (.node .value value))])

/-- One or more variables. -/
def variableList : Form := separated "," (.rule .variable)

/-- The values of an array. -/
def arrayInitializerForm : Form :=
  inBraces (.seq
    (commaSeparated (any [.rule .arrayInitializer, .rule (.expression true)]))
    (maybe (text ",")))

end JavaOutline.Grammar
