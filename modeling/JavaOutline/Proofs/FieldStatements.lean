import JavaOutline.Proofs.MemberOrder
import JavaOutline.Proofs.NestedTypes

/-!
# JavaOutline.Proofs.FieldStatements

A field statement with several variables is short for one statement for each of them.

`Declaration.separated` writes the statements out, in a declaration and in all nested in it: every
variable gets a statement of its own, and the brackets after its name move to the type. The
fields of the new statements are those of the old ones (`flatMap_separated`), and nothing else
changes, so the outline stays the same (`separate_statements_mean_the_same`).
-/

namespace JavaOutline

/-! ## Separate statements -/

/-- A statement for each variable of a field statement, with the brackets after the name as part
of the type. -/
def Field.separated (f : Field) : List Field :=
  f.declarators.map fun v =>
    { f with type := f.type.arrayOf v.dimensions, declarators := [⟨v.name, 0⟩] }

mutual
/-- A declaration with a statement for each variable of its fields, at any depth. -/
def Declaration.separated : Declaration → Declaration
  | ⟨name, category, modifiers, annotations, superclasses, interfaces, components, members⟩ =>
    ⟨name, category, modifiers, annotations, superclasses, interfaces, components,
      Member.separatedAll members⟩

/-- Members with a statement for each variable of the fields among them. -/
def Member.separatedAll : List Member → List Member
  | [] => []
  | .field f :: ms => f.separated.map .field ++ Member.separatedAll ms
  | .constructor c :: ms => .constructor c :: Member.separatedAll ms
  | .method m :: ms => .method m :: Member.separatedAll ms
  | .element e :: ms => .element e :: Member.separatedAll ms
  | .type d :: ms => .type (Declaration.separated d) :: Member.separatedAll ms
end

/-! ## Members of the other sorts -/

namespace Member

/-- What is not read off fields does not show them. -/
theorem filterMap_fields_append {read : Member → Option α} (hfield : ∀ f, read (.field f) = none)
    (fs : List Field) (ms : List Member) :
    (fs.map Member.field ++ ms).filterMap read = ms.filterMap read := by
  induction fs with
  | nil => rfl
  | cons f fs ih => rw [List.map_cons, List.cons_append, List.filterMap_cons_none (hfield f), ih]

/-- What is read off neither fields nor types stays the same. -/
theorem filterMap_separatedAll {read : Member → Option α} (hfield : ∀ f, read (.field f) = none)
    (htype : ∀ d, read (.type d) = none) (ms : List Member) :
    (separatedAll ms).filterMap read = ms.filterMap read := by
  induction ms with
  | nil => rfl
  | cons m ms ih =>
      cases m with
      | field f =>
          rw [separatedAll, filterMap_fields_append hfield, ih,
            List.filterMap_cons_none (hfield f)]
      | type d =>
          rw [separatedAll, List.filterMap_cons_none (htype _), ih,
            List.filterMap_cons_none (htype d)]
      | _ => simp only [separatedAll, List.filterMap_cons, ih]

/-- Each field statement is replaced by its separate statements. -/
theorem filterMap_field?_separatedAll (ms : List Member) :
    (separatedAll ms).filterMap field? = (ms.filterMap field?).flatMap Field.separated := by
  induction ms with
  | nil => rfl
  | cons m ms ih =>
      cases m with
      | field f =>
          have hfields : (f.separated.map Member.field).filterMap field? = f.separated := by
            rw [List.filterMap_map]
            exact List.filterMap_some
          rw [separatedAll, List.filterMap_append, hfields, ih]
          rfl
      | _ => exact ih

/-- Each nested type is replaced by itself with separate statements. -/
theorem filterMap_type?_separatedAll (ms : List Member) :
    (separatedAll ms).filterMap type? = (ms.filterMap type?).map Declaration.separated := by
  induction ms with
  | nil => rfl
  | cons m ms ih =>
      cases m with
      | field f => rw [separatedAll, filterMap_fields_append (fun _ => rfl), ih]; rfl
      | type d => exact congrArg (d.separated :: ·) ih
      | _ => exact ih

end Member

/-! ## Outlines -/

/-- **Separate statements declare the same fields.** -/
theorem flatMap_separated (owner : Kind) (f : Field) :
    f.separated.flatMap (FieldOutline.ofField owner) = FieldOutline.ofField owner f := by
  rw [Field.separated, List.flatMap_map, FieldOutline.ofField, List.map_eq_flatMap]
  simp only [FieldOutline.ofField, List.map_cons, List.map_nil, TypeRef.arrayOf_zero]

namespace Outline

/-- Separate statements do not change the outline, by induction on the declaration. -/
theorem ofDeclaration_separated (d : Declaration) (enclosing : Option Kind) :
    ofDeclaration d.separated enclosing = ofDeclaration d enclosing := by
  induction hsize : sizeOf d using Nat.strongRecOn generalizing d enclosing with
  | ind n ih =>
      have hseparated : d.separated = { d with members := Member.separatedAll d.members } := by
        cases d
        rfl
      rw [hseparated]
      refine ofDeclaration_eq_of_members ?fields (Member.filterMap_separatedAll ?_ ?_ _)
        (Member.filterMap_separatedAll ?_ ?_ _) (Member.filterMap_separatedAll ?_ ?_ _)
        ?nested enclosing
      case fields =>
        rw [Member.filterMap_field?_separatedAll, List.flatMap_assoc]
        simp only [flatMap_separated]
        rfl
      case nested =>
        rw [Member.filterMap_type?_separatedAll, List.map_map]
        refine List.map_congr_left fun d' hd' => ?_
        have hlt := Declaration.sizeOf_lt_of_mem_nested hd'
        exact ih (sizeOf d') (by omega) d' (some d.kind) rfl
      all_goals exact fun _ => rfl

/-- A statement without variables does not show. -/
theorem ofDeclaration_field_nil (d : Declaration) (before after : List Member)
    (modifiers : List Modifier) (type : TypeRef) (enclosing : Option Kind) :
    ofDeclaration { d with members := before ++ .field ⟨modifiers, type, []⟩ :: after } enclosing
      = ofDeclaration { d with members := before ++ after } enclosing := by
  refine ofDeclaration_eq_of_members (d := { d with members := before ++ after })
    ?_ ?_ ?_ ?_ ?_ enclosing
  all_goals simp [Declaration.fields, Declaration.constructors, Declaration.methods,
    Declaration.elements, Declaration.nested, List.filterMap_cons, Member.field?,
    Member.constructor?, Member.method?, Member.element?, Member.type?, FieldOutline.ofField]

end Outline

/-- **Separate statements mean the same**: a declaration and the one with a statement for each
variable, at any depth, have the same outline, whatever they stand in. A statement without
variables means nothing. -/
theorem separate_statements_mean_the_same (d : Declaration) (enclosing : Option Kind) :
    Outline.ofDeclaration d.separated enclosing = Outline.ofDeclaration d enclosing
      ∧ ∀ before after modifiers type,
        Outline.ofDeclaration
            { d with members := before ++ .field ⟨modifiers, type, []⟩ :: after } enclosing
          = Outline.ofDeclaration { d with members := before ++ after } enclosing :=
  ⟨Outline.ofDeclaration_separated d enclosing, fun before after modifiers type =>
    Outline.ofDeclaration_field_nil d before after modifiers type enclosing⟩

end JavaOutline
