import JavaOutline.Declaration.Modifier
import JavaOutline.Declaration.TypeRef

/-!
# JavaOutline.Declaration.Basic

Declarations of one source file, purely syntactic: the modifiers are the
keywords written, members keep their order, types are unresolved.

A declaration's members are of five sorts; `fields`, `constructors`,
`methods`, `elements` and `nested` are the sublists of one sort each.
-/

namespace JavaOutline

/-! ## Parts of members -/

/-- A parameter of a method, a constructor or a record. The type of a variable
arity parameter is that of one element. -/
structure Parameter where
  name : String
  type : TypeRef
  isVarargs : Bool
  deriving Repr, BEq, Inhabited

/-- One variable of a field statement, with the brackets after its name. -/
structure Variable where
  name : String
  dimensions : Nat
  deriving Repr, DecidableEq, Inhabited

/-! ## Members -/

/-- A field statement: `int x, y[];` is one statement with two variables that
share a type and modifiers. -/
structure Field where
  modifiers : List Modifier
  type : TypeRef
  declarators : List Variable
  deriving Repr, BEq, Inhabited

/-- A constructor. -/
structure Constructor where
  name : String
  modifiers : List Modifier
  parameters : List Parameter
  throws : List TypeRef
  deriving Repr, BEq, Inhabited

/-- A method. -/
structure Method where
  name : String
  modifiers : List Modifier
  returnType : TypeRef
  parameters : List Parameter
  throws : List TypeRef
  deriving Repr, BEq, Inhabited

/-- An element of an annotation type. -/
structure Element where
  name : String
  modifiers : List Modifier
  returnType : TypeRef
  hasDefault : Bool
  deriving Repr, BEq, Inhabited

/-- What kind of type a declaration declares. -/
inductive Category where
  | classType | interfaceType | enumType | recordType | annotationType
  /-- Something none of the other categories covers. -/
  | other (name : String)
  deriving Repr, DecidableEq, Inhabited

mutual
/-- A member of a type declaration. -/
inductive Member where
  | field (field : Field)
  | constructor (constructor : Constructor)
  | method (method : Method)
  | element (element : Element)
  | type (declaration : Declaration)

/-- The declaration of a type. -/
structure Declaration where
  name : String
  category : Category
  modifiers : List Modifier
  /-- The names of the annotations as written. -/
  annotations : List String
  /-- The types after `extends`. -/
  superclasses : List TypeRef
  /-- The types after `implements`. -/
  interfaces : List TypeRef
  /-- The components of a record. -/
  components : List Parameter
  members : List Member
end

/-- One source file. -/
structure CompilationUnit where
  package : Option String
  imports : List String
  types : List Declaration

instance : Inhabited Declaration := ⟨⟨"", .classType, [], [], [], [], [], []⟩⟩

instance : Inhabited CompilationUnit := ⟨⟨none, [], []⟩⟩

/-! ## Members by sort -/

namespace Member

/-- The field statement a member is. -/
def field? : Member → Option Field
  | .field f => some f
  | _ => none

/-- The constructor a member is. -/
def constructor? : Member → Option Constructor
  | .constructor c => some c
  | _ => none

/-- The method a member is. -/
def method? : Member → Option Method
  | .method m => some m
  | _ => none

/-- The annotation element a member is. -/
def element? : Member → Option Element
  | .element e => some e
  | _ => none

/-- The nested type a member is. -/
def type? : Member → Option Declaration
  | .type d => some d
  | _ => none

end Member

namespace Declaration

/-- The field statements, in order. -/
def fields (d : Declaration) : List Field := d.members.filterMap Member.field?

/-- The constructors, in order. -/
def constructors (d : Declaration) : List Constructor := d.members.filterMap Member.constructor?

/-- The methods, in order. -/
def methods (d : Declaration) : List Method := d.members.filterMap Member.method?

/-- The annotation elements, in order. -/
def elements (d : Declaration) : List Element := d.members.filterMap Member.element?

/-- The nested types, in order. -/
def nested (d : Declaration) : List Declaration := d.members.filterMap Member.type?

end Declaration

end JavaOutline
