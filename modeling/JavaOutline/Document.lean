import JavaOutline.Json.Printer
import JavaOutline.Json.Prune
import JavaOutline.Outline.Codec
import JavaOutline.Outline.Root

/-!
# JavaOutline.Document

The document extracted from a file: the outline of its root type, or the
outlines of all its top-level types beside the name of its package, pruned if
the extraction is strict.
-/

namespace JavaOutline

/-- Which declarations of a file go into its document. -/
inductive Scope where
  /-- The root type alone. -/
  | root
  /-- Every top-level type. -/
  | all
  deriving Repr, DecidableEq, Inhabited

/-- How a document is extracted. -/
structure ExtractOptions where
  strict : Bool
  scope : Scope
  deriving Repr, DecidableEq, Inhabited

namespace CompilationUnit

/-- The document of the root type; a file without types has the empty
document. -/
def rootDocument (u : CompilationUnit) (strict : Bool) : Json :=
  match Outline.rootOf? u.types with
  | none => .object []
  | some root => root.toJson.prune strict

/-- The document of all types. The types are pruned one by one, so that the
list itself stays when it is empty. -/
def allDocument (u : CompilationUnit) (strict : Bool) : Json :=
  let package := match u.package with
    | none => []
    | some name => [("package", Json.string name)]
  let types := u.types.map fun d => (Outline.ofDeclaration d none).toJson.prune strict
  .object (package ++ [("types", .array types)])

/-- The document extracted from a file. -/
def document (u : CompilationUnit) (options : ExtractOptions) : Json :=
  match options.scope with
  | .root => u.rootDocument options.strict
  | .all => u.allDocument options.strict

/-- The text of the document extracted from a file. -/
def render (u : CompilationUnit) (options : ExtractOptions) : String :=
  (u.document options).pretty

end CompilationUnit

end JavaOutline
