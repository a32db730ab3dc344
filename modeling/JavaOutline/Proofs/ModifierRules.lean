import Mathlib.Data.List.Forall2
import Mathlib.Data.List.TakeWhile
import JavaOutline.Proofs.NestedTypes

/-!
# JavaOutline.Proofs.ModifierRules

The modifiers that Java leaves unsaid, at every depth of an outline.

A flag says whether its keyword is written (`Reflects`), unless a rule of the language
says otherwise. `Outline.KeepsModifierRules` lists the rules, next to each of them what it
leaves alone, and `keepsModifierRules_ofDeclaration` shows that outlines keep them. The
rules speak of one declaration, the kind of type around it and its outline only, so they
hold throughout the outline as well (`modifier_rules_hold`).
-/

namespace JavaOutline

/-! ## Flags and keywords -/

/-- The flag of a type for a keyword, if types have one. -/
def TypeFlags.flag? (f : TypeFlags) : Modifier → Option Bool
  | .publicAccess => f.isPublic
  | .protectedAccess => f.isProtected
  | .privateAccess => f.isPrivate
  | .abstract => f.isAbstract
  | .final => f.isFinal
  | .static => f.isStatic
  | _ => none

/-- The flag of a field for a keyword, if fields have one. -/
def FieldFlags.flag? (f : FieldFlags) : Modifier → Option Bool
  | .publicAccess => f.isPublic
  | .protectedAccess => f.isProtected
  | .privateAccess => f.isPrivate
  | .final => f.isFinal
  | .static => f.isStatic
  | .transient => f.isTransient
  | .volatile => f.isVolatile
  | _ => none

/-- The flag of a constructor for a keyword, if constructors have one. -/
def ConstructorFlags.flag? (f : ConstructorFlags) : Modifier → Option Bool
  | .publicAccess => f.isPublic
  | .protectedAccess => f.isProtected
  | .privateAccess => f.isPrivate
  | _ => none

/-- The flag of a method for a keyword, if methods have one. -/
def MethodFlags.flag? (f : MethodFlags) : Modifier → Option Bool
  | .publicAccess => f.isPublic
  | .protectedAccess => f.isProtected
  | .privateAccess => f.isPrivate
  | .abstract => f.isAbstract
  | .final => f.isFinal
  | .static => f.isStatic
  | .synchronized => f.isSynchronized
  | .native => f.isNative
  | .default => f.isDefault
  | _ => none

/-- The flags for all keywords but the exempt ones say whether the keyword is written. -/
def Reflects (flag? : Modifier → Option Bool) (written : List Modifier)
    (exempt : Modifier → Prop) : Prop :=
  ∀ keyword flag, flag? keyword = some flag → ¬ exempt keyword → (flag = true ↔ keyword ∈ written)

/-- Fields of interfaces and annotation types have these modifiers without saying so. -/
def Kind.SettlesField (owner : Kind) (keyword : Modifier) : Prop :=
  owner ∈ [.interfaceType, .annotationType] ∧ keyword ∈ [.publicAccess, .final, .static]

/-- Whether methods of interfaces have these modifiers is not a matter of the keyword. -/
def Kind.SettlesMethod (owner : Kind) (keyword : Modifier) : Prop :=
  owner = .interfaceType ∧ keyword ∈ [.publicAccess, .abstract]

/-- Whether types have these modifiers is not a matter of the keyword alone. -/
def Kind.SettlesType (kind : Kind) (keyword : Modifier) : Prop :=
  keyword ∈ [.abstract, .static] ∨ kind = .recordType ∧ keyword = .final

/-! ## Rules -/

/-- The variables of all field statements, each with its statement. -/
def Declaration.variables (d : Declaration) : List (Field × Variable) :=
  d.fields.flatMap fun f => f.declarators.map (f, ·)

/-- The rules for the flags in the outline of a declaration that directly stands in a type of
kind `enclosing`, those in its nested types apart. -/
structure Outline.KeepsModifierRules (d : Declaration) (enclosing : Option Kind) (o : Outline) :
    Prop where
  kind : o.kind = d.kind
  /-- A type is abstract if it or one of its own methods is written `abstract`. -/
  isAbstract : o.flags.isAbstract = true ↔
    .abstract ∈ d.modifiers ∨ ∃ m, Member.method m ∈ d.members ∧ .abstract ∈ m.modifiers
  /-- A nested type is static if it is in an interface or an annotation type, and unless it
  is a class. -/
  isStatic : o.flags.isStatic = true ↔
    .static ∈ d.modifiers ∨ ∃ outer, enclosing = some outer ∧
      (outer ∈ [.interfaceType, .annotationType]
        ∨ o.kind ∈ [.interfaceType, .enumeration, .annotationType, .recordType])
  record : o.kind = .recordType → o.flags.isFinal = true ∧ o.superclasses = []
  typeFlags : Reflects o.flags.flag? d.modifiers o.kind.SettlesType
  supertypes : o.kind ∈ [.enumeration, .annotationType, .unknown] →
    o.superclasses = [] ∧ o.interfaces = []
  annotations : ∀ a ∈ o.annotations, '.' ∉ a.toList
  constants : o.kind ∈ [.interfaceType, .annotationType] → ∀ f ∈ o.fields,
    f.flags.isPublic = true ∧ f.flags.isStatic = true ∧ f.flags.isFinal = true
  /-- The first fields of a record are private and final, and nothing else. -/
  components : o.kind = .recordType → List.Forall₂ (fun (p : Parameter) (f : FieldOutline) =>
      f.name = p.name ∧ f.type = p.type.render
        ∧ Reflects f.flags.flag? [.privateAccess, .final] fun _ => False)
    d.components (o.fields.take d.components.length)
  fields : List.Forall₂ (fun (x : Field × Variable) (f : FieldOutline) =>
      f.name = x.2.name ∧ Reflects f.flags.flag? x.1.modifiers o.kind.SettlesField)
    d.variables (o.fields.drop (if o.kind = .recordType then d.components.length else 0))
  constructors : List.Forall₂ (fun (c : Constructor) (x : ConstructorOutline) =>
      x.name = c.name ∧ Reflects x.flags.flag? c.modifiers fun _ => False)
    d.constructors o.constructors
  methods : o.kind ≠ .annotationType → List.Forall₂ (fun (m : Method) (x : MethodEntry) =>
      ∃ mo, x = .method mo ∧ mo.name = m.name
        ∧ Reflects mo.flags.flag? m.modifiers o.kind.SettlesMethod
        ∧ (o.kind = .interfaceType → mo.flags.isPublic = true
          ∧ (mo.flags.isAbstract = true ↔ .default ∉ m.modifiers ∧ .static ∉ m.modifiers)))
    d.methods o.methods
  /-- What an annotation type lists instead of methods has no flags. -/
  elements : o.kind = .annotationType → ∀ x ∈ o.methods, ∃ e, x = .element e

/-! ## Flags of one thing -/

theorem Kind.isInterfaceLike_iff {k : Kind} :
    k.isInterfaceLike = true ↔ k ∈ [.interfaceType, .annotationType] := by
  cases k <;> simp [isInterfaceLike]

theorem Kind.isStaticIn_iff {kind : Kind} {enclosing : Option Kind} :
    kind.isStaticIn enclosing = true ↔ ∃ outer, enclosing = some outer ∧
      (outer ∈ [.interfaceType, .annotationType]
        ∨ kind ∈ [.interfaceType, .enumeration, .annotationType, .recordType]) := by
  cases enclosing with
  | none => simp [isStaticIn]
  | some outer => cases kind <;> simp [isStaticIn, isInterfaceLike_iff]

theorem Declaration.hasAbstractMethod_iff {d : Declaration} : d.hasAbstractMethod = true ↔
    ∃ m, Member.method m ∈ d.members ∧ .abstract ∈ m.modifiers := by
  simp [hasAbstractMethod, mem_methods]

theorem TypeFlags.reflects_ofModifiers (kind : Kind) (modifiers : List Modifier)
    (hasAbstractMethod : Bool) (enclosing : Option Kind) :
    Reflects (ofModifiers kind modifiers hasAbstractMethod enclosing).flag? modifiers
      kind.SettlesType := by
  intro keyword flag hflag hexempt
  cases keyword <;> cases hflag <;> simp_all [ofModifiers, Kind.SettlesType]

theorem FieldFlags.reflects_ofModifiers (modifiers : List Modifier) (owner : Kind) :
    Reflects (ofModifiers modifiers owner).flag? modifiers owner.SettlesField := by
  intro keyword flag hflag hexempt
  rw [Kind.SettlesField, ← Kind.isInterfaceLike_iff] at hexempt
  cases keyword <;> cases hflag <;> simp_all [ofModifiers]

theorem FieldFlags.reflects_ofComponent :
    Reflects ofComponent.flag? [.privateAccess, .final] fun _ => False := by
  intro keyword flag hflag _
  cases keyword <;> cases hflag <;> simp [ofComponent]

theorem ConstructorFlags.reflects_ofModifiers (modifiers : List Modifier) :
    Reflects (ofModifiers modifiers).flag? modifiers fun _ => False := by
  intro keyword flag hflag _
  cases keyword <;> cases hflag <;> simp [ofModifiers]

theorem MethodFlags.reflects_ofModifiers (modifiers : List Modifier) (owner : Kind) :
    Reflects (ofModifiers modifiers owner).flag? modifiers owner.SettlesMethod := by
  intro keyword flag hflag hexempt
  cases keyword <;> cases hflag <;> simp_all [ofModifiers, Kind.SettlesMethod]

/-- A method of an interface is public, and abstract unless it says that it has a body. -/
theorem MethodFlags.ofModifiers_interfaceType (modifiers : List Modifier) :
    (ofModifiers modifiers .interfaceType).isPublic = true
      ∧ ((ofModifiers modifiers .interfaceType).isAbstract = true
        ↔ .default ∉ modifiers ∧ .static ∉ modifiers) := by
  simp [ofModifiers]

/-! ## Outlines -/

/-- Nothing of the path in front of an annotation's name is left. -/
theorem notMem_simpleAnnotationName (name : String) : '.' ∉ (simpleAnnotationName name).toList := by
  intro h
  rw [simpleAnnotationName, String.toList_ofList, List.mem_reverse] at h
  simpa using List.mem_takeWhile_imp h

/-- The fields of the statements of a declaration, one for each variable. -/
theorem flatMap_ofField (d : Declaration) (owner : Kind) :
    d.fields.flatMap (FieldOutline.ofField owner) = d.variables.map fun x =>
      ⟨x.2.name, (x.1.type.arrayOf x.2.dimensions).render, .ofModifiers x.1.modifiers owner⟩ := by
  rw [Declaration.variables, List.map_flatMap]
  simp only [List.map_map]
  rfl

/-- The fields of an outline are the components, which count in records only, and then the
variables of all statements. -/
theorem Declaration.fieldOutlines_eq (d : Declaration) : d.fieldOutlines
    = (if d.kind = .recordType then d.components else []).map FieldOutline.ofComponent
      ++ d.variables.map fun x =>
        ⟨x.2.name, (x.1.type.arrayOf x.2.dimensions).render, .ofModifiers x.1.modifiers d.kind⟩ := by
  rw [fieldOutlines, flatMap_ofField]
  split <;> rfl

section

variable (d : Declaration)

/-- Fields of interfaces and annotation types are constants. -/
theorem constants_fieldOutlines (h : d.kind ∈ [.interfaceType, .annotationType]) :
    ∀ f ∈ d.fieldOutlines,
      f.flags.isPublic = true ∧ f.flags.isStatic = true ∧ f.flags.isFinal = true := by
  have hrecord : d.kind ≠ .recordType := by
    intro hrecord
    simp [hrecord] at h
  rw [← Kind.isInterfaceLike_iff] at h
  rw [d.fieldOutlines_eq, if_neg hrecord, List.map_nil, List.nil_append, List.forall_mem_map]
  simp [FieldFlags.ofModifiers, h]

/-- The components of a record come first. -/
theorem components_fieldOutlines (h : d.kind = .recordType) :
    List.Forall₂ (fun (p : Parameter) (f : FieldOutline) => f.name = p.name
        ∧ f.type = p.type.render ∧ Reflects f.flags.flag? [.privateAccess, .final] fun _ => False)
      d.components (d.fieldOutlines.take d.components.length) := by
  rw [d.fieldOutlines_eq, if_pos h, List.take_left' (List.length_map ..),
    List.forall₂_map_right_iff, List.forall₂_same]
  exact fun p _ => ⟨rfl, rfl, FieldFlags.reflects_ofComponent⟩

/-- Behind the components there is a field for each variable. -/
theorem variables_fieldOutlines :
    List.Forall₂ (fun (x : Field × Variable) (f : FieldOutline) =>
        f.name = x.2.name ∧ Reflects f.flags.flag? x.1.modifiers d.kind.SettlesField)
      d.variables
      (d.fieldOutlines.drop (if d.kind = .recordType then d.components.length else 0)) := by
  have hlength : ((if d.kind = .recordType then d.components else []).map
      FieldOutline.ofComponent).length
        = if d.kind = .recordType then d.components.length else 0 := by
    split <;> simp
  rw [d.fieldOutlines_eq, List.drop_left' hlength, List.forall₂_map_right_iff, List.forall₂_same]
  exact fun x _ => ⟨rfl, FieldFlags.reflects_ofModifiers x.1.modifiers d.kind⟩

theorem constructors_ofConstructor :
    List.Forall₂ (fun (c : Constructor) (x : ConstructorOutline) =>
        x.name = c.name ∧ Reflects x.flags.flag? c.modifiers fun _ => False)
      d.constructors (d.constructors.map .ofConstructor) := by
  rw [List.forall₂_map_right_iff, List.forall₂_same]
  exact fun c _ => ⟨rfl, ConstructorFlags.reflects_ofModifiers c.modifiers⟩

theorem methods_methodEntries (h : d.kind ≠ .annotationType) :
    List.Forall₂ (fun (m : Method) (x : MethodEntry) => ∃ mo, x = .method mo ∧ mo.name = m.name
        ∧ Reflects mo.flags.flag? m.modifiers d.kind.SettlesMethod
        ∧ (d.kind = .interfaceType → mo.flags.isPublic = true
          ∧ (mo.flags.isAbstract = true ↔ .default ∉ m.modifiers ∧ .static ∉ m.modifiers)))
      d.methods d.methodEntries := by
  rw [Declaration.methodEntries, if_neg h, List.forall₂_map_right_iff, List.forall₂_same]
  intro m _
  refine ⟨_, rfl, rfl, MethodFlags.reflects_ofModifiers m.modifiers d.kind, fun hinterface => ?_⟩
  rw [hinterface]
  exact MethodFlags.ofModifiers_interfaceType m.modifiers

end

theorem Outline.keepsModifierRules_ofDeclaration (d : Declaration) (enclosing : Option Kind) :
    KeepsModifierRules d enclosing (ofDeclaration d enclosing) := by
  rw [ofDeclaration_eq]
  exact {
    kind := rfl
    isAbstract := by simp [TypeFlags.ofModifiers, Declaration.hasAbstractMethod_iff]
    isStatic := by simp [TypeFlags.ofModifiers, Kind.isStaticIn_iff]
    record := fun h => by simp_all [TypeFlags.ofModifiers, Declaration.superclassTexts]
    typeFlags := TypeFlags.reflects_ofModifiers _ _ _ _
    supertypes := fun h => by
      simp only [List.mem_cons, List.not_mem_nil, or_false] at h
      rcases h with h | h | h <;> simp [Declaration.superclassTexts, Declaration.interfaceTexts, h]
    annotations := List.forall_mem_map.mpr fun a _ => notMem_simpleAnnotationName a
    constants := constants_fieldOutlines d
    components := components_fieldOutlines d
    fields := variables_fieldOutlines d
    constructors := constructors_ofConstructor d
    methods := methods_methodEntries d
    elements := fun h x hx => by
      rw [Declaration.methodEntries, if_pos h] at hx
      obtain ⟨e, -, rfl⟩ := List.mem_map.mp hx
      exact ⟨_, rfl⟩ }

/-- **The rules for modifiers hold in the whole outline** of every declaration, wherever it
stands. -/
theorem modifier_rules_hold (d : Declaration) (enclosing : Option Kind) :
    Outline.Throughout Outline.KeepsModifierRules d enclosing (.ofDeclaration d enclosing) :=
  Outline.throughout_ofDeclaration (fun _ _ _ _ => trivial)
    (fun d enclosing _ => Outline.keepsModifierRules_ofDeclaration d enclosing) trivial enclosing

end JavaOutline
