import JavaOutline.Declaration.Basic
import JavaOutline.Grammar.Declarations
import JavaOutline.Structure.TypeRef

/-!
# JavaOutline.Structure.Declaration

The declarations that syntax trees hold.

Bodies of methods, initial values, initializer blocks, the constants of an
enumeration and compact constructors are no members; neither are the types
declared inside them.
-/

namespace JavaOutline.Structure

open Grammar Source

/-! ## Parts of declarations -/

/-- The name that a declaration declares. -/
def nameIn (ts : List SyntaxTree) : String := ParseTree.sourceText (ParseTree.inside .identifier ts)

/-- The type of a declaration, without the brackets after its name. -/
def typeIn (ts : List SyntaxTree) : TypeRef := typeOf (.node .type (ParseTree.inside .type ts))

/-- The dimensions that the brackets after a name or a parameter list add. -/
def dimensionsIn (ts : List SyntaxTree) : Nat := bracketCount (ParseTree.inside .dimensions ts)

/-- The modifier that a tree spells. -/
def modifier? : SyntaxTree → Option Modifier
  | .leaf t => Modifier.ofKeyword? t.text
  | .node .nonSealed _ => some .nonSealed
  | _ => none

/-- The modifiers written, each where it stands first. -/
def modifiersIn (ts : List SyntaxTree) : List Modifier := (ts.filterMap modifier?).eraseDups

/-- The names of the annotations written. -/
def annotationsIn (ts : List SyntaxTree) : List String :=
  ts.filterMap fun
    | .node .annotationUse us => some (ParseTree.compactText (ParseTree.inside .name us))
    | _ => none

/-! ## Parameters -/

/-- The type of a parameter of variable arity. Behind modifiers a comment in
front of the type stands for the type. -/
def spreadType : List SyntaxTree → TypeRef
  | .node .modifiers _ :: t :: _ => (t.comments.map commentType).headD (typeOf t)
  | t :: _ => typeOf t
  | [] => default

/-- The parameter that a tree declares; a receiver is none. -/
def parameter? : SyntaxTree → Option Parameter
  | .node .parameter ts =>
    some {
      name := nameIn ts
      type := (typeIn ts).arrayOf (dimensionsIn ts)
      isVarargs := false }
  | .node .spread ts =>
    some {
      name := nameIn (ParseTree.inside .variable ts)
      type := spreadType ts
      isVarargs := true }
  | _ => none

/-- The parameters of a declaration. -/
def parametersIn (ts : List SyntaxTree) : List Parameter :=
  (ParseTree.inside .parameters ts).filterMap parameter?

/-! ## Members -/

/-- The variable that a tree declares. -/
def variableOf? : SyntaxTree → Option Variable
  | .node .variable ts => some { name := nameIn ts, dimensions := dimensionsIn ts }
  | _ => none

/-- The exceptions a declaration lists. -/
def throwsIn (ts : List SyntaxTree) : List TypeRef := clauseTypes (ParseTree.inside .throws ts)

/-- A field statement from its modifiers and its parts. -/
def fieldOf (modifiers ts : List SyntaxTree) : Field where
  modifiers := modifiersIn modifiers
  type := typeIn ts
  declarators := ts.filterMap variableOf?

/-- A constructor from its modifiers and its parts. -/
def constructorOf (modifiers ts : List SyntaxTree) : Constructor where
  name := nameIn ts
  modifiers := modifiersIn modifiers
  parameters := parametersIn ts
  throws := throwsIn ts

/-- A method from its modifiers and its parts. -/
def methodOf (modifiers ts : List SyntaxTree) : Method where
  name := nameIn ts
  modifiers := modifiersIn modifiers
  returnType := (typeIn ts).arrayOf (dimensionsIn ts)
  parameters := parametersIn ts
  throws := throwsIn ts

/-- An element of an annotation type from its modifiers and its parts. -/
def elementOf (modifiers ts : List SyntaxTree) : Element where
  name := nameIn ts
  modifiers := modifiersIn modifiers
  returnType := (typeIn ts).arrayOf (dimensionsIn ts)
  hasDefault := (ParseTree.inside? .defaultValue ts).isSome

/-! ## Types -/

/-- The category of the type that a node of the given label declares. -/
def category? : Label → Option Category
  | .classType => some .classType
  | .interfaceType => some .interfaceType
  | .enumType => some .enumType
  | .recordType => some .recordType
  | .annotationType => some .annotationType
  | _ => none

/-- A type from its modifiers, its parts and its members. -/
def declarationOf (category : Category) (modifiers ts : List SyntaxTree)
    (members : List Member) : Declaration where
  name := nameIn ts
  category := category
  modifiers := modifiersIn modifiers
  annotations := annotationsIn modifiers
  superclasses :=
    clauseTypes (ParseTree.inside .superclass ts)
      ++ clauseTypes (ParseTree.inside .superinterfaces ts)
  interfaces := clauseTypes (ParseTree.inside .interfaces ts)
  components := if category = .recordType then parametersIn ts else []
  members := members

mutual
/-- The member that a tree declares. -/
def member? : SyntaxTree → Option Member
  | .node .declaration [t] => declared? [] t
  | .node .declaration [.node .modifiers modifiers, t] => declared? modifiers t
  | _ => none

/-- The member declared behind some modifiers. -/
def declared? (modifiers : List SyntaxTree) : SyntaxTree → Option Member
  | .leaf _ => none
  | .node .field ts => some (.field (fieldOf modifiers ts))
  | .node .constructor ts => some (.constructor (constructorOf modifiers ts))
  | .node .method ts => some (.method (methodOf modifiers ts))
  | .node .element ts => some (.element (elementOf modifiers ts))
  | .node label ts =>
    match category? label with
    | none => none
    | some category => some (.type (declarationOf category modifiers ts (bodyMembers ts)))

/-- The members in the body of a type. -/
def bodyMembers : List SyntaxTree → List Member
  | [] => []
  | .node .body ts :: _ => members ts
  | _ :: ts => bodyMembers ts

/-- The members among some trees. -/
def members : List SyntaxTree → List Member
  | [] => []
  | t :: ts => (member? t).toList ++ members ts
end

theorem members_eq_filterMap (ts : List SyntaxTree) : members ts = ts.filterMap member? := by
  induction ts with
  | nil => rfl
  | cons t ts ih => cases h : member? t <;> simp [members, ih, h]

/-! ## Files -/

/-- The package that a tree declares. -/
def package? : SyntaxTree → Option String
  | .node .package ts => some (ParseTree.sourceText (ParseTree.inside .name ts))
  | _ => none

/-- What a tree imports: a name, followed by an asterisk if it is everything in
there. -/
def import? : SyntaxTree → Option String
  | .node .importing ts =>
    some (ParseTree.sourceText (ParseTree.inside .name ts)
      ++ if ts.any (ParseTree.isText "*") then ".*" else "")
  | _ => none

/-- The contents of a file from the trees at its top level. Of several package
declarations the last one counts. -/
def unitOf (ts : List SyntaxTree) : CompilationUnit where
  package := (ts.filterMap package?).getLast?
  imports := ts.filterMap import?
  types := (members ts).filterMap Member.type?

end JavaOutline.Structure
