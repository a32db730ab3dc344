import JavaOutline.Proofs.NestedTypes
import JavaOutline.Proofs.WellFormedUnits

/-!
# JavaOutline.Proofs.DeclaringNodes

The nodes that the types of a source file are declared by.

Every type that a file declares, at whatever depth, is read off a node in the trees of the
file (`comesFrom_of_parse`), so what holds of all nodes holds where each of them comes
from. One thing that does is which sorts of members stand in which bodies: the grammar has
no path from an annotation type to a method of its own, and none from any other type to an
element (`allNodes_hasOwnSorts`).
-/

namespace JavaOutline

open Source Grammar Structure

/-! ## Where types come from -/

section

variable {P : Label → List SyntaxTree → Prop}

/-- A type is declared by a node; what is said of nodes holds of it and of those below it. -/
def Declaration.ComesFrom (P : Label → List SyntaxTree → Prop) (d : Declaration) : Prop :=
  ∃ label category modifiers ts, category? label = some category
    ∧ d = declarationOf category modifiers ts (bodyMembers ts)
    ∧ (ParseTree.node label ts).AllNodes P

theorem comesFrom_of_declared? {modifiers : List SyntaxTree} {t : SyntaxTree} {d : Declaration}
    (ht : t.AllNodes P) (h : declared? modifiers t = some (.type d)) : d.ComesFrom P := by
  unfold declared? at h
  split at h
  case h_6 label ts _ _ _ _ =>
    split at h
    · contradiction
    · next category hcategory =>
      obtain rfl := Member.type.inj (Option.some.inj h)
      exact ⟨label, category, modifiers, ts, hcategory, rfl, ht⟩
  all_goals simp at h

/-- A type among the members of some trees is declared by a node in one of them. -/
theorem comesFrom_of_member? {t : SyntaxTree} {d : Declaration} (ht : t.AllNodes P)
    (h : member? t = some (.type d)) : d.ComesFrom P := by
  obtain ⟨u, hu, modifiers, hdeclared⟩ := exists_of_member? h
  exact comesFrom_of_declared? (ht.children u hu) hdeclared

/-- Types nested in a type are declared by nodes in its body. -/
theorem Declaration.ComesFrom.nested {d d' : Declaration} (h : d.ComesFrom P)
    (hd : d' ∈ d.nested) : d'.ComesFrom P := by
  obtain ⟨label, category, modifiers, ts, -, rfl, hnodes⟩ := h
  obtain ⟨us, hus, t, ht, hmember⟩ := exists_of_mem_bodyMembers (Declaration.mem_nested.mp hd)
  exact comesFrom_of_member? ((hnodes.children _ hus).children t ht) hmember

/-- **Every type that a file declares comes from a node in its trees**, at any depth. -/
theorem comesFrom_of_parse (hP : ∀ {tokens : List Token} {ts : List SyntaxTree},
      unitTrees? tokens = some ts → ∀ t ∈ ts, t.AllNodes P)
    {source : String} {u : CompilationUnit} (h : CompilationUnit.parse source = .ok u)
    {d : Declaration} (hd : u.Declares d) : d.ComesFrom P := by
  unfold CompilationUnit.parse at h
  dsimp only at h
  split at h
  · next ts hts =>
    obtain rfl := Except.ok.inj h
    obtain ⟨outer, houter, hwithin⟩ := hd
    induction hwithin with
    | self =>
        obtain ⟨m, hm, htype⟩ := List.mem_filterMap.mp houter
        rw [members_eq_filterMap] at hm
        obtain ⟨t, ht, hmember⟩ := List.mem_filterMap.mp hm
        cases m with
        | type d => exact comesFrom_of_member? (hP hts t ht) (Option.some.inj htype ▸ hmember)
        | _ => contradiction
    | nested _ hd' ih => exact ih.nested hd'
  · contradiction

end

/-! ## Sorts of members -/

namespace Grammar

/-- The labels of types that hold methods. -/
def methodTypes : List Label := [.classType, .interfaceType, .enumType, .recordType]

/-- The grammar has no path from a node with the label and the body to a member of a sort that
does not belong to it. -/
def HasOwnSortsBody (label : Label) (p : Form) : Prop :=
  (label ∈ methodTypes → p.mayHavePath Rule.form 2 [.body, .declaration, .element] = false)
    ∧ (label = .annotationType → p.mayHavePath Rule.form 2 [.body, .declaration, .method] = false)

instance (label : Label) (p : Form) : Decidable (HasOwnSortsBody label p) :=
  inferInstanceAs (Decidable (_ ∧ _))

theorem allNodes_hasOwnSortsBody : ∀ r ∈ Rule.all, r.form.AllNodes HasOwnSortsBody := by
  decide +kernel

/-- There is no path from a node to a member of a sort that does not belong to it. -/
structure HasOwnSorts (label : Label) (ts : List SyntaxTree) : Prop where
  no_element : label ∈ methodTypes → ¬ ParseTree.HasPath [.body, .declaration, .element] ts
  no_method : label = .annotationType → ¬ ParseTree.HasPath [.body, .declaration, .method] ts

/-- **Bodies hold members of their own sorts**: elements are declared in annotation types
only, and methods only in the others. -/
theorem allNodes_hasOwnSorts {tokens : List Token} {ts : List SyntaxTree}
    (h : unitTrees? tokens = some ts) : ∀ t ∈ ts, t.AllNodes HasOwnSorts := by
  refine allNodes_of_bodies allNodes_hasOwnSortsBody (fun label p us hbody hforms => ?_) h
  constructor
  · intro hlabel hpath
    simpa [hbody.1 hlabel] using hforms.mayHavePath hpath 2
  · intro hlabel hpath
    simpa [hbody.2 hlabel] using hforms.mayHavePath hpath 2

end Grammar

end JavaOutline
