import JavaOutline.Outline.Codec

/-!
# JavaOutline.Outline.Schema

The schema of outline documents. `Schema` has the few forms that outlines
need; `Outline.schema` is the description of the format, and `Schema.toJson`
and `SchemaDocument.toJson` are its form as a JSON Schema document.

Every key of a record is required.
-/

namespace JavaOutline

/-! ## Schemas -/

/-- What a value may be. -/
inductive Schema where
  /-- A string. -/
  | text
  /-- A boolean. -/
  | flag
  /-- An array of values of one schema. -/
  | list (items : Schema)
  /-- The whole document's own schema. -/
  | itself
  /-- A definition by name. -/
  | named (definition : String)
  deriving Repr, DecidableEq, Inhabited

/-- A record: its keys with their schemas, all of them required. -/
abbrev RecordSchema := List (String × Schema)

/-- A named definition. -/
inductive SchemaDefinition where
  /-- One of some texts. -/
  | choice (options : List String)
  /-- A record. -/
  | record (fields : RecordSchema)
  /-- A value of one of several schemas. -/
  | anyOf (description : String) (options : List Schema)
  deriving Repr, DecidableEq, Inhabited

/-- The schema of a kind of document: a record, with the definitions that its
parts refer to. -/
structure SchemaDocument where
  title : String
  description : String
  fields : RecordSchema
  definitions : List (String × SchemaDefinition)
  deriving Repr, DecidableEq, Inhabited

/-! ## JSON form -/

/-- The JSON form of a schema. -/
def Schema.toJson : Schema → Json
  | .text => .object [("type", .string "string")]
  | .flag => .object [("type", .string "boolean")]
  | .list items => .object [("type", .string "array"), ("items", items.toJson)]
  | .itself => .object [("$ref", .string "#")]
  | .named definition => .object [("$ref", .string ("#/$defs/" ++ definition))]

/-- The entries that describe a record. -/
def RecordSchema.entries (fields : RecordSchema) : List (String × Json) :=
  [("type", .string "object"),
    ("properties", .object (fields.map fun (key, schema) => (key, schema.toJson))),
    ("required", .ofTexts (fields.map Prod.fst))]

/-- The JSON form of a definition. -/
def SchemaDefinition.toJson : SchemaDefinition → Json
  | .choice options => .object [("type", .string "string"), ("enum", .ofTexts options)]
  | .record fields => .object fields.entries
  | .anyOf description options =>
    .object [("description", .string description), ("anyOf", .array (options.map Schema.toJson))]

/-- The JSON form of the schema of a kind of document. -/
def SchemaDocument.toJson (d : SchemaDocument) : Json :=
  .object ([("$schema", .string "https://json-schema.org/draft/2020-12/schema"),
      ("title", .string d.title), ("description", .string d.description)]
    ++ d.fields.entries
    ++ [("$defs", .object (d.definitions.map fun (name, definition) =>
      (name, definition.toJson)))])

/-! ## The schema of outlines -/

/-- A list of flags. -/
def flagFields (keys : List String) : RecordSchema := keys.map (·, .flag)

/-- A field. -/
def FieldOutline.schema : RecordSchema :=
  [("name", .text), ("type", .text)]
    ++ flagFields ["public", "protected", "private", "final", "static", "transient", "volatile"]

/-- A constructor. -/
def ConstructorOutline.schema : RecordSchema :=
  [("name", .text)] ++ flagFields ["public", "protected", "private"]
    ++ [("params", .list .text), ("throws", .list .text)]

/-- A method. -/
def MethodOutline.schema : RecordSchema :=
  [("name", .text), ("returnType", .text)]
    ++ flagFields ["public", "protected", "private", "abstract", "final", "static",
      "synchronized", "native", "default"]
    ++ [("params", .list .text), ("throws", .list .text)]

/-- An annotation element. -/
def ElementOutline.schema : RecordSchema :=
  [("name", .text), ("returnType", .text), ("hasDefault", .flag)]

/-- The schema of outline documents. -/
def Outline.schema : SchemaDocument where
  title := "TypeDescriptor"
  description := "One declaration and, transitively, everything nested in it."
  fields :=
    [("name", .text), ("kind", .named "TypeKind")]
      ++ flagFields ["public", "protected", "private", "abstract", "final", "static"]
      ++ [("extends", .list .text), ("implements", .list .text), ("annotations", .list .text),
        ("fields", .list (.named "FieldDescriptor")),
        ("constructors", .list (.named "ConstructorDescriptor")),
        ("methods", .list (.named "MethodEntry")), ("inners", .list .itself)]
  definitions :=
    [("TypeKind", .choice (Kind.all.map Kind.name)),
      ("FieldDescriptor", .record FieldOutline.schema),
      ("ConstructorDescriptor", .record ConstructorOutline.schema),
      ("MethodEntry", .anyOf
        ("Entry of a descriptor's `methods` list. Annotation types list their\n"
          ++ "elements here; every other kind lists methods.")
        [.named "MethodDescriptor", .named "AnnotationElementDescriptor"]),
      ("MethodDescriptor", .record MethodOutline.schema),
      ("AnnotationElementDescriptor", .record ElementOutline.schema)]

end JavaOutline
