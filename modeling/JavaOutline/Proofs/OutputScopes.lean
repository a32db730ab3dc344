import JavaOutline.Document
import JavaOutline.Proofs.RootSelection

/-!
# JavaOutline.Proofs.OutputScopes

The two scopes of a document tell the same story.

The document of a root type is the pruned outline of one declaration
(`rootDocument_eq`), and the document of all types lists the pruned outlines of all of
them (`allDocument_eq`). So every entry of the list is the document of a root, and the
document of the root is one of the entries (`scopes_agree`).
-/

namespace JavaOutline

namespace CompilationUnit

/-- The entry for a declaration in a document, strict or not. -/
def entry (strict : Bool) (d : Declaration) : Json :=
  (Outline.ofDeclaration d none).toJson.prune strict

/-- The document of the root type is the entry for the declaration that is chosen. -/
theorem rootDocument_eq {u : CompilationUnit} {i : Nat} {d : Declaration} (strict : Bool)
    (h : IsChosen Declaration.IsPublic u.types i) (hd : u.types[i]? = some d) :
    u.rootDocument strict = entry strict d := by
  rw [rootDocument, rootOf?_eq h, hd]
  rfl

/-- The document of a file with one type is the entry for it. -/
theorem rootDocument_singleton (package : Option String) (imports : List String)
    (d : Declaration) (strict : Bool) :
    rootDocument ⟨package, imports, [d]⟩ strict = entry strict d := by
  rw [rootDocument, rootOf?_singleton]
  rfl

/-- The document of all types has the package, if there is one, in front of the entries. -/
theorem allDocument_eq (u : CompilationUnit) (strict : Bool) :
    u.allDocument strict = .object ((u.package.map fun name => ("package", .string name)).toList
      ++ [("types", .array (u.types.map (entry strict)))]) := by
  rw [allDocument]
  cases u.package <;> rfl

end CompilationUnit

open CompilationUnit

/-- **The two scopes agree.** In a file with types, the list in the document of all types has
one entry for each of them, in order: the entry is the document of the root of any file with
that type alone. The document of the root of the whole file is the entry at the first public
type, or at the last type if none is public, and does not depend on the package and the
imports. The package stands in front of the list of types, if the file has one. -/
theorem scopes_agree {u : CompilationUnit} (h : u.types ≠ []) (strict : Bool) :
    ∃ entries : List Json,
      u.document ⟨strict, .all⟩
          = .object ((u.package.map fun name => ("package", .string name)).toList
              ++ [("types", .array entries)])
        ∧ entries.length = u.types.length
        ∧ (∀ (i : Nat) (d : Declaration) package imports, u.types[i]? = some d →
            entries[i]? = some (document ⟨package, imports, [d]⟩ ⟨strict, .root⟩))
        ∧ (∃ i, IsChosen Declaration.IsPublic u.types i)
        ∧ (∀ i, IsChosen Declaration.IsPublic u.types i →
            entries[i]? = some (u.document ⟨strict, .root⟩))
        ∧ ∀ package imports,
            document ⟨package, imports, u.types⟩ ⟨strict, .root⟩ = u.document ⟨strict, .root⟩ := by
  refine ⟨u.types.map (entry strict), u.allDocument_eq strict, by simp, ?_,
    exists_isChosen_isPublic h, ?_, fun _ _ => rfl⟩
  · intro i d package imports hd
    rw [List.getElem?_map, hd, document, rootDocument_singleton]
    rfl
  · intro i hi
    obtain ⟨d, hd⟩ := hi.exists_getElem?_eq
    rw [List.getElem?_map, hd, document, rootDocument_eq strict hi hd]
    rfl

/-- Two classes around a public interface, in a package. -/
def sampleScopes : CompilationUnit where
  package := some "a.b"
  imports := ["java.util.*"]
  types :=
    [⟨"First", .classType, [.final], [], [], [], [], []⟩,
      ⟨"Second", .interfaceType, [.sealed, .publicAccess], [], [], [], [],
        [.method ⟨"m", [], .raw "void", [], []⟩]⟩,
      ⟨"Third", .classType, [.publicAccess], [], [], [], [], []⟩]

theorem scopes_agree_sampleScopes : sampleScopes.types ≠ [] ∧
    IsChosen Declaration.IsPublic sampleScopes.types 1 ∧
    ∃ entries : List Json, entries.length = 3
      ∧ entries[1]? = some (sampleScopes.document ⟨true, .root⟩)
      ∧ (sampleScopes.document ⟨true, .all⟩).entries?
          = some [("package", .string "a.b"), ("types", .array entries)] := by
  have hne : sampleScopes.types ≠ [] := List.cons_ne_nil _ _
  have hchosen : IsChosen Declaration.IsPublic sampleScopes.types 1 := by
    refine .first rfl (by simp [Declaration.IsPublic]) fun j hj d hd => ?_
    obtain rfl : j = 0 := by omega
    obtain rfl := Option.some.inj hd
    simp [Declaration.IsPublic]
  obtain ⟨entries, hdocument, hlength, -, -, hroot, -⟩ := scopes_agree hne true
  exact ⟨hne, hchosen, entries, hlength, hroot 1 hchosen, congrArg Json.entries? hdocument⟩

end JavaOutline
