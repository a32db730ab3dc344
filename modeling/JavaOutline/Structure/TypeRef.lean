import JavaOutline.Declaration.TypeRef
import JavaOutline.Grammar.Rule

/-!
# JavaOutline.Structure.TypeRef

The types that syntax trees spell.

A name is kept as written, without white space. Annotations on a type leave no
trace, except between the segments of a name. A comment in a list of types is
an entry of the list: it counts as a type whose name is the comment's text. The
bound of a wildcard is the last entry behind its first token.
-/

namespace JavaOutline.Structure

open Grammar Source

/-- A syntax tree of a source file. -/
abbrev SyntaxTree := ParseTree Label

/-- Does the tree spell a type or a wildcard? -/
def isType : SyntaxTree → Bool
  | .node .type _ | .node .annotated _ | .node .wildcard _ => true
  | _ => false

/-- The type named by a comment. -/
def commentType (comment : String) : TypeRef := .raw (compact comment)

/-- How many dimensions brackets add: every opening bracket in their text
counts. -/
def bracketCount (brackets : List SyntaxTree) : Nat :=
  (ParseTree.sourceText brackets).toList.count '['

mutual
/-- The type that a tree spells. -/
def typeOf : SyntaxTree → TypeRef
  | .node .type (element :: brackets) => (typeOf element).arrayOf (bracketCount brackets)
  | .node .annotated ts => lastType ts
  | .node .wildcard (first :: ts) =>
    .wildcard (typesIn ts).getLast? (!(first :: ts).any (ParseTree.isText "super"))
  | .node .named ts =>
    match finalArguments? ts with
    | some args => .generic (.raw (ParseTree.compactText ts.dropLast)) args
    | none => .raw (ParseTree.compactText ts)
  | t => .raw (ParseTree.compactText [t])

/-- The type that the last of some trees spells. -/
def lastType : List SyntaxTree → TypeRef
  | [] => default
  | [t] => typeOf t
  | _ :: ts => lastType ts

/-- The type arguments at the end of a named type. Arguments in the middle of
it are part of its name. -/
def finalArguments? : List SyntaxTree → Option (List TypeRef)
  | [] => none
  | [.node .typeArguments (_ :: ts)] => some (typesIn ts)
  | _ :: ts => finalArguments? ts

/-- The types in a list, the comments in front of its parts among them. -/
def typesIn : List SyntaxTree → List TypeRef
  | [] => []
  | t :: ts =>
    t.comments.map commentType ++ (if isType t then [typeOf t] else []) ++ typesIn ts
end

/-- The types of a clause: those behind its keyword. -/
def clauseTypes (clause : List SyntaxTree) : List TypeRef := typesIn clause.tail

end JavaOutline.Structure
