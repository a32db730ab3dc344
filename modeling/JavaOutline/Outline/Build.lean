import JavaOutline.Outline.Flags

/-!
# JavaOutline.Outline.Build

The outline of a declaration. `Outline.ofDeclaration` resolves the flags of a
type from its own kind and the kind around it, writes out its types, lists the
members of each sort in their order and does the same for nested types.
-/

namespace JavaOutline

/-! ## Texts -/

/-- The text of a parameter: the type, followed by `...` for variable arity. -/
def Parameter.render (p : Parameter) : String :=
  if p.isVarargs then p.type.render ++ "..." else p.type.render

/-- The last segment of an annotation name, without the sign in front of it. -/
def simpleAnnotationName (name : String) : String :=
  let bare := name.toList.dropWhile (· = '@')
  String.ofList (bare.reverse.takeWhile (· ≠ '.')).reverse

/-! ## Parts of a declaration -/

/-- The field of a record component. A component of variable arity keeps the
type of one element. -/
def FieldOutline.ofComponent (p : Parameter) : FieldOutline :=
  ⟨p.name, p.type.render, .ofComponent⟩

/-- The fields of a field statement, one for each variable. -/
def FieldOutline.ofField (owner : Kind) (f : Field) : List FieldOutline :=
  f.declarators.map fun v =>
    ⟨v.name, (f.type.arrayOf v.dimensions).render, .ofModifiers f.modifiers owner⟩

/-- The outline of a constructor. -/
def ConstructorOutline.ofConstructor (c : Constructor) : ConstructorOutline :=
  ⟨c.name, .ofModifiers c.modifiers, c.parameters.map Parameter.render, c.throws.map TypeRef.render⟩

/-- The outline of a method. -/
def MethodOutline.ofMethod (owner : Kind) (m : Method) : MethodOutline :=
  ⟨m.name, m.returnType.render, .ofModifiers m.modifiers owner, m.parameters.map Parameter.render,
    m.throws.map TypeRef.render⟩

/-- The outline of an annotation element. -/
def ElementOutline.ofElement (e : Element) : ElementOutline :=
  ⟨e.name, e.returnType.render, e.hasDefault⟩

namespace Declaration

/-- Is one of the methods written `abstract`? -/
def hasAbstractMethod (d : Declaration) : Bool :=
  d.methods.any (·.modifiers.contains .abstract)

/-- The texts of the types a declaration extends; only classes and interfaces
extend any. -/
def superclassTexts (d : Declaration) : List String :=
  match d.kind with
  | .classType | .interfaceType => d.superclasses.map TypeRef.render
  | _ => []

/-- The texts of the types a declaration implements; enumerations and
annotation types list none. -/
def interfaceTexts (d : Declaration) : List String :=
  match d.kind with
  | .classType | .interfaceType | .recordType => d.interfaces.map TypeRef.render
  | _ => []

/-- The fields of a declaration: the components of a record come first. -/
def fieldOutlines (d : Declaration) : List FieldOutline :=
  (if d.kind = .recordType then d.components.map FieldOutline.ofComponent else [])
    ++ d.fields.flatMap (FieldOutline.ofField d.kind)

/-- The entries of the list of methods: the elements of an annotation type,
the methods of any other. -/
def methodEntries (d : Declaration) : List MethodEntry :=
  if d.kind = .annotationType then d.elements.map fun e => .element (.ofElement e)
  else d.methods.map fun m => .method (.ofMethod d.kind m)

end Declaration

/-! ## Outlines -/

mutual
/-- The outline of a declaration that stands directly in a type of kind
`enclosing`, or at top level. -/
def Outline.ofDeclaration (d : Declaration) (enclosing : Option Kind) : Outline :=
  match d with
  | ⟨name, category, modifiers, annotations, superclasses, interfaces, components, members⟩ =>
    let d : Declaration :=
      ⟨name, category, modifiers, annotations, superclasses, interfaces, components, members⟩
    {
      name := name
      kind := d.kind
      flags := .ofModifiers d.kind modifiers d.hasAbstractMethod enclosing
      superclasses := d.superclassTexts
      interfaces := d.interfaceTexts
      annotations := annotations.map simpleAnnotationName
      fields := d.fieldOutlines
      constructors := d.constructors.map .ofConstructor
      methods := d.methodEntries
      inners := Outline.ofMembers members d.kind
    }

/-- The outlines of the types among the members of a type of kind `owner`. -/
def Outline.ofMembers (members : List Member) (owner : Kind) : List Outline :=
  match members with
  | [] => []
  | .type d :: rest => Outline.ofDeclaration d (some owner) :: Outline.ofMembers rest owner
  | .field _ :: rest => Outline.ofMembers rest owner
  | .constructor _ :: rest => Outline.ofMembers rest owner
  | .method _ :: rest => Outline.ofMembers rest owner
  | .element _ :: rest => Outline.ofMembers rest owner
end

namespace Outline

theorem ofMembers_eq (members : List Member) (owner : Kind) :
    ofMembers members owner
      = (members.filterMap Member.type?).map (ofDeclaration · (some owner)) := by
  induction members with
  | nil => simp [ofMembers]
  | cons m ms ih => cases m <;> simp [ofMembers, Member.type?, ih, List.filterMap_cons]

/-- The outlines in a declaration are those of its nested types. -/
theorem inners_ofDeclaration (d : Declaration) (enclosing : Option Kind) :
    (ofDeclaration d enclosing).inners = d.nested.map (ofDeclaration · (some d.kind)) := by
  cases d
  simp only [ofDeclaration, ofMembers_eq]
  rfl

/-- The outline of a declaration, part by part. -/
theorem ofDeclaration_eq (d : Declaration) (enclosing : Option Kind) :
    ofDeclaration d enclosing = {
      name := d.name
      kind := d.kind
      flags := .ofModifiers d.kind d.modifiers d.hasAbstractMethod enclosing
      superclasses := d.superclassTexts
      interfaces := d.interfaceTexts
      annotations := d.annotations.map simpleAnnotationName
      fields := d.fieldOutlines
      constructors := d.constructors.map .ofConstructor
      methods := d.methodEntries
      inners := d.nested.map (ofDeclaration · (some d.kind)) } := by
  rw [← inners_ofDeclaration d enclosing]
  cases d
  rw [ofDeclaration]

@[simp] theorem name_ofDeclaration (d : Declaration) (enclosing : Option Kind) :
    (ofDeclaration d enclosing).name = d.name := by
  rw [ofDeclaration_eq]

end Outline

end JavaOutline
