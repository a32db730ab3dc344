import JavaOutline.Json.Basic
import JavaOutline.Outline.Basic

/-!
# JavaOutline.Outline.Codec

The JSON form of outlines: `toJson` writes it, `ofJson?` reads it.

The keys of each record come in a fixed order, flags among those of the record
they belong to. Reading ignores keys it does not know and the order of keys,
and requires every key it knows. A record without flags is also read from the
array of its values, and a kind from an object with its name over `null`. An
entry of the list of methods carries no tag: it is read as a method if it can
be, otherwise as an annotation element.
-/

namespace JavaOutline

/-! ## Kinds -/

namespace Kind

/-- All kinds. -/
def all : List Kind :=
  [.classType, .interfaceType, .enumeration, .recordType, .annotationType, .unknown]

/-- The name of a kind. -/
def name : Kind → String
  | .classType => "Class"
  | .interfaceType => "Interface"
  | .enumeration => "Enumeration"
  | .recordType => "Record"
  | .annotationType => "Annotation"
  | .unknown => "Unknown"

/-- The kind with the given name. -/
def ofName? (name : String) : Option Kind := all.find? (·.name == name)

/-- The JSON form of a kind. -/
def toJson (k : Kind) : Json := .string k.name

/-- Reads a kind. -/
def ofJson? (j : Json) : Option Kind := do ofName? (← j.name?)

end Kind

/-! ## Flags -/

/-- The entries of the flags of a type. -/
def TypeFlags.entries (f : TypeFlags) : List (String × Json) :=
  [("public", .bool f.isPublic), ("protected", .bool f.isProtected),
    ("private", .bool f.isPrivate), ("abstract", .bool f.isAbstract),
    ("final", .bool f.isFinal), ("static", .bool f.isStatic)]

/-- Reads the flags of a type out of the record they belong to. -/
def TypeFlags.ofJson? (j : Json) : Option TypeFlags := do
  return ⟨← j.flagAt? "public", ← j.flagAt? "protected", ← j.flagAt? "private",
    ← j.flagAt? "abstract", ← j.flagAt? "final", ← j.flagAt? "static"⟩

/-- The entries of the flags of a field. -/
def FieldFlags.entries (f : FieldFlags) : List (String × Json) :=
  [("public", .bool f.isPublic), ("protected", .bool f.isProtected),
    ("private", .bool f.isPrivate), ("final", .bool f.isFinal), ("static", .bool f.isStatic),
    ("transient", .bool f.isTransient), ("volatile", .bool f.isVolatile)]

/-- Reads the flags of a field out of the record they belong to. -/
def FieldFlags.ofJson? (j : Json) : Option FieldFlags := do
  return ⟨← j.flagAt? "public", ← j.flagAt? "protected", ← j.flagAt? "private",
    ← j.flagAt? "final", ← j.flagAt? "static", ← j.flagAt? "transient", ← j.flagAt? "volatile"⟩

/-- The entries of the flags of a constructor. -/
def ConstructorFlags.entries (f : ConstructorFlags) : List (String × Json) :=
  [("public", .bool f.isPublic), ("protected", .bool f.isProtected),
    ("private", .bool f.isPrivate)]

/-- Reads the flags of a constructor out of the record they belong to. -/
def ConstructorFlags.ofJson? (j : Json) : Option ConstructorFlags := do
  return ⟨← j.flagAt? "public", ← j.flagAt? "protected", ← j.flagAt? "private"⟩

/-- The entries of the flags of a method. -/
def MethodFlags.entries (f : MethodFlags) : List (String × Json) :=
  [("public", .bool f.isPublic), ("protected", .bool f.isProtected),
    ("private", .bool f.isPrivate), ("abstract", .bool f.isAbstract),
    ("final", .bool f.isFinal), ("static", .bool f.isStatic),
    ("synchronized", .bool f.isSynchronized), ("native", .bool f.isNative),
    ("default", .bool f.isDefault)]

/-- Reads the flags of a method out of the record they belong to. -/
def MethodFlags.ofJson? (j : Json) : Option MethodFlags := do
  return ⟨← j.flagAt? "public", ← j.flagAt? "protected", ← j.flagAt? "private",
    ← j.flagAt? "abstract", ← j.flagAt? "final", ← j.flagAt? "static",
    ← j.flagAt? "synchronized", ← j.flagAt? "native", ← j.flagAt? "default"⟩

/-! ## Parts -/

/-- The JSON form of a field. -/
def FieldOutline.toJson (f : FieldOutline) : Json :=
  .object ([("name", .string f.name), ("type", .string f.type)] ++ f.flags.entries)

/-- Reads a field. -/
def FieldOutline.ofJson? (j : Json) : Option FieldOutline := do
  return ⟨← j.textAt? "name", ← j.textAt? "type", ← FieldFlags.ofJson? j⟩

/-- The JSON form of a constructor. -/
def ConstructorOutline.toJson (c : ConstructorOutline) : Json :=
  .object ([("name", .string c.name)] ++ c.flags.entries
    ++ [("params", .ofTexts c.params), ("throws", .ofTexts c.throws)])

/-- Reads a constructor. -/
def ConstructorOutline.ofJson? (j : Json) : Option ConstructorOutline := do
  return ⟨← j.textAt? "name", ← ConstructorFlags.ofJson? j, ← j.textsAt? "params",
    ← j.textsAt? "throws"⟩

/-- The JSON form of a method. -/
def MethodOutline.toJson (m : MethodOutline) : Json :=
  .object ([("name", .string m.name), ("returnType", .string m.returnType)] ++ m.flags.entries
    ++ [("params", .ofTexts m.params), ("throws", .ofTexts m.throws)])

/-- Reads a method. -/
def MethodOutline.ofJson? (j : Json) : Option MethodOutline := do
  return ⟨← j.textAt? "name", ← j.textAt? "returnType", ← MethodFlags.ofJson? j,
    ← j.textsAt? "params", ← j.textsAt? "throws"⟩

/-- The JSON form of an annotation element. -/
def ElementOutline.toJson (e : ElementOutline) : Json :=
  .object [("name", .string e.name), ("returnType", .string e.returnType),
    ("hasDefault", .bool e.hasDefault)]

/-- Reads an annotation element. -/
def ElementOutline.ofJson? (j : Json) : Option ElementOutline := do
  let r := j.keyed ["name", "returnType", "hasDefault"]
  return ⟨← r.textAt? "name", ← r.textAt? "returnType", ← r.flagAt? "hasDefault"⟩

/-- The JSON form of an entry of the list of methods. -/
def MethodEntry.toJson : MethodEntry → Json
  | .method m => m.toJson
  | .element e => e.toJson

/-- Reads an entry of the list of methods. -/
def MethodEntry.ofJson? (j : Json) : Option MethodEntry :=
  ((MethodOutline.ofJson? j).map .method).or ((ElementOutline.ofJson? j).map .element)

/-! ## Outlines -/

namespace Outline

mutual
/-- The JSON form of an outline. -/
def toJson : Outline → Json
  | ⟨name, kind, flags, superclasses, interfaces, annotations, fields, constructors, methods,
      inners⟩ =>
    .object ([("name", .string name), ("kind", kind.toJson)] ++ flags.entries
      ++ [("extends", .ofTexts superclasses), ("implements", .ofTexts interfaces),
        ("annotations", .ofTexts annotations),
        ("fields", .array (fields.map FieldOutline.toJson)),
        ("constructors", .array (constructors.map ConstructorOutline.toJson)),
        ("methods", .array (methods.map MethodEntry.toJson)),
        ("inners", .array (toJsonAll inners))])

/-- The JSON forms of a list of outlines. -/
def toJsonAll : List Outline → List Json
  | [] => []
  | o :: os => toJson o :: toJsonAll os
end

mutual
/-- Reads an outline. -/
def ofJson? (j : Json) : Option Outline := do
  let ⟨inners, _⟩ ← j.childItems? "inners"
  return {
    name := ← j.textAt? "name"
    kind := ← Kind.ofJson? (← j.get? "kind")
    flags := ← TypeFlags.ofJson? j
    superclasses := ← j.textsAt? "extends"
    interfaces := ← j.textsAt? "implements"
    annotations := ← j.textsAt? "annotations"
    fields := ← j.listAt? FieldOutline.ofJson? "fields"
    constructors := ← j.listAt? ConstructorOutline.ofJson? "constructors"
    methods := ← j.listAt? MethodEntry.ofJson? "methods"
    inners := ← ofJsonAll? inners
  }
termination_by sizeOf j

/-- Reads a list of outlines. -/
def ofJsonAll? (js : List Json) : Option (List Outline) :=
  match js with
  | [] => some []
  | j :: js => do return (← ofJson? j) :: (← ofJsonAll? js)
termination_by sizeOf js
end

end Outline

end JavaOutline
