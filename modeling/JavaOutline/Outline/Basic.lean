import JavaOutline.Declaration.Basic

/-!
# JavaOutline.Outline.Basic

Outlines: the structural description of a declaration and of everything nested
in it, with all flags resolved and all types as text.

An outline lists its parts by sort. `method?`, `element?` and `inner?` find
the first part with a given name.
-/

namespace JavaOutline

/-! ## Kinds -/

/-- What an outline describes. -/
inductive Kind where
  | classType | interfaceType | enumeration | recordType | annotationType | unknown
  deriving Repr, DecidableEq, Inhabited

namespace Kind

/-- Types whose members are public and whose fields are constants without
saying so. -/
def isInterfaceLike : Kind → Bool
  | .interfaceType | .annotationType => true
  | _ => false

/-- The kind of a declaration of the given category. -/
def ofCategory : Category → Kind
  | .classType => .classType
  | .interfaceType => .interfaceType
  | .enumType => .enumeration
  | .recordType => .recordType
  | .annotationType => .annotationType
  | .other _ => .unknown

end Kind

/-- The kind of a declaration. -/
def Declaration.kind (d : Declaration) : Kind := .ofCategory d.category

theorem Declaration.kind_eq_recordType {d : Declaration} :
    d.kind = .recordType ↔ d.category = .recordType := by
  rw [kind]
  cases d.category <;> simp [Kind.ofCategory]

theorem Declaration.kind_eq_annotationType {d : Declaration} :
    d.kind = .annotationType ↔ d.category = .annotationType := by
  rw [kind]
  cases d.category <;> simp [Kind.ofCategory]

/-! ## Flags -/

/-- Flags of a type. -/
structure TypeFlags where
  isPublic : Bool
  isProtected : Bool
  isPrivate : Bool
  isAbstract : Bool
  isFinal : Bool
  isStatic : Bool
  deriving Repr, DecidableEq, Inhabited

/-- Flags of a field. -/
structure FieldFlags where
  isPublic : Bool
  isProtected : Bool
  isPrivate : Bool
  isFinal : Bool
  isStatic : Bool
  isTransient : Bool
  isVolatile : Bool
  deriving Repr, DecidableEq, Inhabited

/-- Flags of a constructor. -/
structure ConstructorFlags where
  isPublic : Bool
  isProtected : Bool
  isPrivate : Bool
  deriving Repr, DecidableEq, Inhabited

/-- Flags of a method. -/
structure MethodFlags where
  isPublic : Bool
  isProtected : Bool
  isPrivate : Bool
  isAbstract : Bool
  isFinal : Bool
  isStatic : Bool
  isSynchronized : Bool
  isNative : Bool
  isDefault : Bool
  deriving Repr, DecidableEq, Inhabited

/-! ## Parts -/

/-- A field: one variable of a field statement, or a component of a record. -/
structure FieldOutline where
  name : String
  type : String
  flags : FieldFlags
  deriving Repr, DecidableEq, Inhabited

/-- A constructor. -/
structure ConstructorOutline where
  name : String
  flags : ConstructorFlags
  params : List String
  throws : List String
  deriving Repr, DecidableEq, Inhabited

/-- A method. -/
structure MethodOutline where
  name : String
  returnType : String
  flags : MethodFlags
  params : List String
  throws : List String
  deriving Repr, DecidableEq, Inhabited

/-- An element of an annotation type. -/
structure ElementOutline where
  name : String
  returnType : String
  hasDefault : Bool
  deriving Repr, DecidableEq, Inhabited

/-- An entry of the list of methods. Annotation types list their elements
there, every other kind its methods. -/
inductive MethodEntry where
  | method (method : MethodOutline)
  | element (element : ElementOutline)
  deriving Repr, DecidableEq, Inhabited

/-- The outline of a type. -/
structure Outline where
  name : String
  kind : Kind
  flags : TypeFlags
  superclasses : List String
  interfaces : List String
  annotations : List String
  fields : List FieldOutline
  constructors : List ConstructorOutline
  methods : List MethodEntry
  inners : List Outline
  deriving Repr, Inhabited

/-! ## Finding parts by name -/

namespace MethodEntry

/-- The method an entry is, if it has the given name. -/
def methodNamed? (name : String) : MethodEntry → Option MethodOutline
  | .method m => if m.name = name then some m else none
  | .element _ => none

/-- The element an entry is, if it has the given name. -/
def elementNamed? (name : String) : MethodEntry → Option ElementOutline
  | .element e => if e.name = name then some e else none
  | .method _ => none

end MethodEntry

namespace Outline

/-- The first method with the given name. -/
def method? (o : Outline) (name : String) : Option MethodOutline :=
  o.methods.findSome? (·.methodNamed? name)

/-- The first annotation element with the given name. -/
def element? (o : Outline) (name : String) : Option ElementOutline :=
  o.methods.findSome? (·.elementNamed? name)

/-- The first nested type with the given name. -/
def inner? (o : Outline) (name : String) : Option Outline :=
  o.inners.find? (·.name == name)

end Outline

end JavaOutline
