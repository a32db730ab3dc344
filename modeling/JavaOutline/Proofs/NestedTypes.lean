import JavaOutline.Outline.Build

/-!
# JavaOutline.Proofs.NestedTypes

Declarations in declarations and outlines in outlines.

`Declaration.Within` relates a type to the types nested in it at any depth, and
`Declaration.allWithin` finds out about all of them.
`Outline.Throughout` says that something holds of a declaration, of the kind of type
around it and of its outline, and so on for the nested types and the outlines listed for
them: there is one for each, and the kind around them is that of the type they stand in.
What holds of every declaration by itself holds throughout its outline
(`throughout_ofDeclaration`), so rules for one level are rules for all.
-/

namespace JavaOutline

/-! ## Nested declarations -/

/-- The second declaration is the first one or nested in it, at any depth. -/
inductive Declaration.Within (outer : Declaration) : Declaration → Prop
  | self : Within outer outer
  | nested {d d' : Declaration} (h : Within outer d) (hd : d' ∈ d.nested) : Within outer d'

/-- A file declares a type at its top level or nested in such a type. -/
def CompilationUnit.Declares (u : CompilationUnit) (d : Declaration) : Prop :=
  ∃ outer ∈ u.types, outer.Within d

theorem CompilationUnit.declares_of_mem {u : CompilationUnit} {d : Declaration}
    (h : d ∈ u.types) : u.Declares d :=
  ⟨d, h, .self⟩

theorem CompilationUnit.Declares.nested {u : CompilationUnit} {d d' : Declaration}
    (h : u.Declares d) (hd : d' ∈ d.nested) : u.Declares d' := by
  obtain ⟨outer, houter, hwithin⟩ := h
  exact ⟨outer, houter, hwithin.nested hd⟩

/-- What a list of one sort holds is what the members of that sort are made of. -/
theorem Member.mem_filterMap {read : Member → Option α} {make : α → Member}
    (h : ∀ m a, read m = some a ↔ m = make a) {ms : List Member} {a : α} :
    a ∈ ms.filterMap read ↔ make a ∈ ms := by
  simp only [List.mem_filterMap, h, exists_eq_right]

theorem Declaration.mem_nested {d d' : Declaration} :
    d' ∈ d.nested ↔ Member.type d' ∈ d.members :=
  Member.mem_filterMap fun m _ => by cases m <;> simp [Member.type?]

theorem Declaration.mem_methods {d : Declaration} {m : Method} :
    m ∈ d.methods ↔ Member.method m ∈ d.members :=
  Member.mem_filterMap fun m _ => by cases m <;> simp [Member.method?]

theorem Declaration.sizeOf_lt_of_mem_nested {d d' : Declaration} (h : d' ∈ d.nested) :
    sizeOf d' < sizeOf d := by
  have hmem := List.sizeOf_lt_of_mem (Declaration.mem_nested.mp h)
  cases d
  simp only [Member.type.sizeOf_spec, Declaration.mk.sizeOf_spec] at hmem ⊢
  omega

mutual
/-- Does something hold of a declaration and of all types nested in it? -/
def Declaration.allWithin (p : Declaration → Bool) : Declaration → Bool
  | ⟨name, category, modifiers, annotations, superclasses, interfaces, components, members⟩ =>
    p ⟨name, category, modifiers, annotations, superclasses, interfaces, components, members⟩
      && Member.allWithin p members

/-- Does something hold of all types among some members and of those nested in them? -/
def Member.allWithin (p : Declaration → Bool) : List Member → Bool
  | [] => true
  | .type d :: rest => d.allWithin p && Member.allWithin p rest
  | .field _ :: rest => Member.allWithin p rest
  | .constructor _ :: rest => Member.allWithin p rest
  | .method _ :: rest => Member.allWithin p rest
  | .element _ :: rest => Member.allWithin p rest
end

theorem Member.allWithin_eq (p : Declaration → Bool) (ms : List Member) :
    Member.allWithin p ms = (ms.filterMap Member.type?).all (·.allWithin p) := by
  induction ms with
  | nil => rfl
  | cons m ms ih => cases m <;> simp [Member.allWithin, Member.type?, ih, List.filterMap_cons]

theorem Declaration.allWithin_eq (p : Declaration → Bool) (d : Declaration) :
    d.allWithin p = (p d && d.nested.all (·.allWithin p)) := by
  cases d
  rw [Declaration.allWithin, Member.allWithin_eq]
  rfl

/-- What is found to hold of a declaration and all types nested in it does hold of them. -/
theorem Declaration.Within.of_allWithin {p : Declaration → Bool} {d d' : Declaration}
    (hd : d.Within d') (h : d.allWithin p = true) : p d' = true := by
  have hall : d'.allWithin p = true := by
    induction hd with
    | self => exact h
    | nested _ hmem ih =>
        rw [Declaration.allWithin_eq, Bool.and_eq_true, List.all_eq_true] at ih
        exact ih.2 _ hmem
  rw [Declaration.allWithin_eq, Bool.and_eq_true] at hall
  exact hall.1

/-! ## Nested outlines -/

namespace Outline

/-- Something holds of a declaration, the kind of type it directly stands in and its outline,
and of all types nested in the declaration and the outlines listed for them. -/
inductive Throughout (P : Declaration → Option Kind → Outline → Prop) :
    Declaration → Option Kind → Outline → Prop
  | intro {d : Declaration} {enclosing : Option Kind} {o : Outline} (here : P d enclosing o)
      (length_inners : o.inners.length = d.nested.length)
      (inners : ∀ (i : Nat) (d' : Declaration) (o' : Outline), d.nested[i]? = some d' →
        o.inners[i]? = some o' → Throughout P d' (some d.kind) o') : Throughout P d enclosing o

/-- **What holds of every outline by itself holds throughout**, by induction on the
declaration. The declarations in question may be restricted to a class of them that nested
types belong to as well. -/
theorem throughout_ofDeclaration {P : Declaration → Option Kind → Outline → Prop}
    {Q : Declaration → Prop} (hnested : ∀ d, Q d → ∀ d' ∈ d.nested, Q d')
    (h : ∀ d enclosing, Q d → P d enclosing (ofDeclaration d enclosing)) {d : Declaration}
    (hd : Q d) (enclosing : Option Kind) : Throughout P d enclosing (ofDeclaration d enclosing) := by
  induction hsize : sizeOf d using Nat.strongRecOn generalizing d enclosing with
  | ind n ih =>
      refine .intro (h d enclosing hd) (by rw [inners_ofDeclaration, List.length_map]) ?_
      intro i d' o' hd' ho'
      rw [inners_ofDeclaration, List.getElem?_map, hd', Option.map_some, Option.some.injEq] at ho'
      subst ho'
      have hmem : d' ∈ d.nested := List.mem_of_getElem? hd'
      have hlt := Declaration.sizeOf_lt_of_mem_nested hmem
      exact ih (sizeOf d') (by omega) (hnested d hd d' hmem) (some d.kind) rfl

end Outline

end JavaOutline
