import JavaOutline.Declaration.Basic
import JavaOutline.Json.Basic

/-!
# JavaOutline.Declaration.Codec

The JSON form of declarations: `toJson` writes it, `ofJson?` reads it.

Records are objects with one key per part; alternatives are objects whose only
key names the alternative, or just that name where nothing else belongs to it.
Reading ignores keys it does not know and the order of keys; every key is
required but for the bound of a wildcard and the package of a unit. Every record
but for those under the tag of a type is also read from the array of its values,
and a name also from an object with the name over `null`.
-/

namespace JavaOutline

/-! ## Types -/

namespace TypeRef

mutual
/-- The JSON form of a type. -/
def toJson : TypeRef → Json
  | .raw name => .object [("Raw", .string name)]
  | .generic base args =>
    .object [("Generic", .object [("base", toJson base), ("args", .array (toJsonAll args))])]
  | .array element dimensions =>
    .object [("Array",
      .object [("element", toJson element), ("dimensions", .ofNat dimensions)])]
  | .wildcard none isUpper =>
    .object [("Wildcard", .object [("bound", .null), ("is_upper_bound", .bool isUpper)])]
  | .wildcard (some bound) isUpper =>
    .object [("Wildcard",
      .object [("bound", toJson bound), ("is_upper_bound", .bool isUpper)])]

/-- The JSON forms of a list of types. -/
def toJsonAll : List TypeRef → List Json
  | [] => []
  | t :: ts => toJson t :: toJsonAll ts
end

mutual
/-- Reads a type. -/
def ofJson? (j : Json) : Option TypeRef := do
  let (tag, ⟨body, _⟩) ← j.tagged?
  match tag with
  | "Raw" => return .raw (← body.text?)
  | "Generic" =>
    let ⟨base, _⟩ ← body.child? "base"
    let ⟨args, _⟩ ← body.childItems? "args"
    return .generic (← ofJson? base) (← ofJsonAll? args)
  | "Array" =>
    let ⟨element, _⟩ ← body.child? "element"
    return .array (← ofJson? element) (← body.naturalAt? "dimensions")
  | "Wildcard" =>
    let isUpper ← body.flagAt? "is_upper_bound"
    match body.optionalChild? "bound" with
    | none => return .wildcard none isUpper
    | some ⟨bound, _⟩ => return .wildcard (some (← ofJson? bound)) isUpper
  | _ => none
termination_by sizeOf j

/-- Reads a list of types. -/
def ofJsonAll? (js : List Json) : Option (List TypeRef) :=
  match js with
  | [] => some []
  | j :: js => do return (← ofJson? j) :: (← ofJsonAll? js)
termination_by sizeOf js
end

end TypeRef

/-! ## Names of alternatives -/

/-- The JSON form of a modifier is its keyword. -/
def Modifier.toJson (m : Modifier) : Json := .string m.keyword

/-- Reads a modifier. -/
def Modifier.ofJson? (j : Json) : Option Modifier := do Modifier.ofKeyword? (← j.name?)

/-- The JSON form of a list of modifiers. -/
def Modifier.toJsonAll (ms : List Modifier) : Json := .array (ms.map Modifier.toJson)

/-- The JSON form of a category. -/
def Category.toJson : Category → Json
  | .classType => .string "Class"
  | .interfaceType => .string "Interface"
  | .enumType => .string "Enum"
  | .recordType => .string "Record"
  | .annotationType => .string "Annotation"
  | .other name => .object [("Other", .string name)]

/-- The category with the given name. -/
def Category.ofName? : String → Option Category
  | "Class" => some .classType
  | "Interface" => some .interfaceType
  | "Enum" => some .enumType
  | "Record" => some .recordType
  | "Annotation" => some .annotationType
  | _ => none

/-- Reads a category. -/
def Category.ofJson? (j : Json) : Option Category :=
  match j with
  | .object [("Other", name)] => name.text?.map .other
  | _ => do ofName? (← j.name?)

/-! ## Parts of members -/

/-- The JSON form of a parameter. -/
def Parameter.toJson (p : Parameter) : Json :=
  .object [("name", .string p.name), ("type_ref", p.type.toJson), ("is_varargs", .bool p.isVarargs)]

/-- Reads a parameter. -/
def Parameter.ofJson? (j : Json) : Option Parameter := do
  let r := j.keyed ["name", "type_ref", "is_varargs"]
  return ⟨← r.textAt? "name", ← TypeRef.ofJson? (← r.get? "type_ref"), ← r.flagAt? "is_varargs"⟩

/-- The JSON form of a variable. -/
def Variable.toJson (v : Variable) : Json :=
  .object [("name", .string v.name), ("dimensions", .ofNat v.dimensions)]

/-- Reads a variable. -/
def Variable.ofJson? (j : Json) : Option Variable := do
  let r := j.keyed ["name", "dimensions"]
  return ⟨← r.textAt? "name", ← r.naturalAt? "dimensions"⟩

/-! ## Members -/

/-- The JSON form of a field statement. -/
def Field.toJson (f : Field) : Json :=
  .object [("modifiers", Modifier.toJsonAll f.modifiers), ("type_ref", f.type.toJson),
    ("variables", .array (f.declarators.map Variable.toJson))]

/-- Reads a field statement. -/
def Field.ofJson? (j : Json) : Option Field := do
  let r := j.keyed ["modifiers", "type_ref", "variables"]
  return ⟨← r.listAt? Modifier.ofJson? "modifiers", ← TypeRef.ofJson? (← r.get? "type_ref"),
    ← r.listAt? Variable.ofJson? "variables"⟩

/-- The JSON form of a constructor. -/
def Constructor.toJson (c : Constructor) : Json :=
  .object [("name", .string c.name), ("modifiers", Modifier.toJsonAll c.modifiers),
    ("parameters", .array (c.parameters.map Parameter.toJson)),
    ("throws", .array (c.throws.map TypeRef.toJson))]

/-- Reads a constructor. -/
def Constructor.ofJson? (j : Json) : Option Constructor := do
  let r := j.keyed ["name", "modifiers", "parameters", "throws"]
  return ⟨← r.textAt? "name", ← r.listAt? Modifier.ofJson? "modifiers",
    ← r.listAt? Parameter.ofJson? "parameters", ← r.listAt? TypeRef.ofJson? "throws"⟩

/-- The JSON form of a method. -/
def Method.toJson (m : Method) : Json :=
  .object [("name", .string m.name), ("modifiers", Modifier.toJsonAll m.modifiers),
    ("return_type", m.returnType.toJson),
    ("parameters", .array (m.parameters.map Parameter.toJson)),
    ("throws", .array (m.throws.map TypeRef.toJson))]

/-- Reads a method. -/
def Method.ofJson? (j : Json) : Option Method := do
  let r := j.keyed ["name", "modifiers", "return_type", "parameters", "throws"]
  return ⟨← r.textAt? "name", ← r.listAt? Modifier.ofJson? "modifiers",
    ← TypeRef.ofJson? (← r.get? "return_type"), ← r.listAt? Parameter.ofJson? "parameters",
    ← r.listAt? TypeRef.ofJson? "throws"⟩

/-- The JSON form of an annotation element. -/
def Element.toJson (e : Element) : Json :=
  .object [("name", .string e.name), ("modifiers", Modifier.toJsonAll e.modifiers),
    ("return_type", e.returnType.toJson), ("has_default", .bool e.hasDefault)]

/-- Reads an annotation element. -/
def Element.ofJson? (j : Json) : Option Element := do
  let r := j.keyed ["name", "modifiers", "return_type", "has_default"]
  return ⟨← r.textAt? "name", ← r.listAt? Modifier.ofJson? "modifiers",
    ← TypeRef.ofJson? (← r.get? "return_type"), ← r.flagAt? "has_default"⟩

/-! ## Declarations -/

mutual
/-- The JSON form of a member. -/
def Member.toJson : Member → Json
  | .field f => .object [("Field", f.toJson)]
  | .constructor c => .object [("Constructor", c.toJson)]
  | .method m => .object [("Method", m.toJson)]
  | .element e => .object [("AnnotationElement", e.toJson)]
  | .type d => .object [("Type", Declaration.toJson d)]

/-- The JSON form of a declaration. -/
def Declaration.toJson : Declaration → Json
  | ⟨name, category, modifiers, annotations, superclasses, interfaces, components, members⟩ =>
    .object [("name", .string name), ("category", category.toJson),
      ("modifiers", Modifier.toJsonAll modifiers), ("annotations", .ofTexts annotations),
      ("extends", .array (superclasses.map TypeRef.toJson)),
      ("implements", .array (interfaces.map TypeRef.toJson)),
      ("components", .array (components.map Parameter.toJson)),
      ("members", .array (Member.toJsonAll members))]

/-- The JSON forms of a list of members. -/
def Member.toJsonAll : List Member → List Json
  | [] => []
  | m :: ms => Member.toJson m :: Member.toJsonAll ms
end

/-- The keys of a declaration. -/
def Declaration.keys : List String :=
  ["name", "category", "modifiers", "annotations", "extends", "implements", "components", "members"]

mutual
/-- Reads a member. -/
def Member.ofJson? (j : Json) : Option Member := do
  let (tag, ⟨body, _⟩) ← j.tagged?
  match tag with
  | "Field" => return .field (← Field.ofJson? body)
  | "Constructor" => return .constructor (← Constructor.ofJson? body)
  | "Method" => return .method (← Method.ofJson? body)
  | "AnnotationElement" => return .element (← Element.ofJson? body)
  | "Type" => return .type (← Declaration.ofJson? body)
  | _ => none
termination_by sizeOf j

/-- Reads a declaration. -/
def Declaration.ofJson? (j : Json) : Option Declaration := do
  let r := j.keyed Declaration.keys
  let ⟨members, _⟩ ← j.recordItems? Declaration.keys "members"
  return {
    name := ← r.textAt? "name"
    category := ← Category.ofJson? (← r.get? "category")
    modifiers := ← r.listAt? Modifier.ofJson? "modifiers"
    annotations := ← r.textsAt? "annotations"
    superclasses := ← r.listAt? TypeRef.ofJson? "extends"
    interfaces := ← r.listAt? TypeRef.ofJson? "implements"
    components := ← r.listAt? Parameter.ofJson? "components"
    members := ← Member.ofJsonAll? members
  }
termination_by sizeOf j

/-- Reads a list of members. -/
def Member.ofJsonAll? (js : List Json) : Option (List Member) :=
  match js with
  | [] => some []
  | j :: js => do return (← Member.ofJson? j) :: (← Member.ofJsonAll? js)
termination_by sizeOf js
end

/-! ## Units -/

/-- The JSON form of a unit. -/
def CompilationUnit.toJson (u : CompilationUnit) : Json :=
  .object [("package", (u.package.map Json.string).getD .null), ("imports", .ofTexts u.imports),
    ("types", .array (u.types.map Declaration.toJson))]

/-- Reads a text that may be missing or `null`. -/
def Json.optionalTextAt? (j : Json) (key : String) : Option (Option String) :=
  match j.get? key with
  | none | some .null => some none
  | some x => x.text?.map some

/-- Reads a unit. -/
def CompilationUnit.ofJson? (j : Json) : Option CompilationUnit := do
  let r := j.keyed ["package", "imports", "types"]
  let types ← r.listAt? Declaration.ofJson? "types"
  return ⟨← r.optionalTextAt? "package", ← r.textsAt? "imports", types⟩

end JavaOutline
