import JavaOutline.Outline.Schema

/-!
# JavaOutline.Proofs.SchemaValidity

What it means for a document to be valid under a JSON Schema document, for the
keywords that schemas here use: `type`, `enum`, `properties`, `required`,
`items`, `anyOf` and `$ref` to the whole document or to one of its definitions.
All other keywords are annotations.

`Validates` reads schemas as documents, keyword by keyword, and knows nothing of
`Schema`. The equivalences after it say what the JSON form of each kind of schema
demands; they are all that later proofs need.
-/

namespace JavaOutline

open Json

/-! ## Keywords -/

/-- Is a document of the type that the keyword `type` names? -/
def Json.isOfType (name : String) : Json → Bool
  | .null => name == "null"
  | .bool _ => name == "boolean"
  | .number _ => name == "number"
  | .string _ => name == "string"
  | .array _ => name == "array"
  | .object _ => name == "object"

/-- The schema that a reference points to: the whole document `root`, or one of
its definitions. -/
def Json.resolve? (root : Json) (target : String) : Option Json :=
  if target = "#" then some root
  else
    (root.get? "$defs").bind fun definitions =>
      (definitions.entries?.getD []).findSome? fun (name, schema) =>
        if target = "#/$defs/" ++ name then some schema else none

mutual
/-- A document is valid under a schema of the schema document `root` if it obeys
each keyword of the schema. Keywords about objects and arrays say nothing about
other documents. -/
inductive Validates (root : Json) : (schema value : Json) → Prop
  | intro {schema value : Json}
      (type : ∀ name, schema.get? "type" = some (.string name) → value.isOfType name = true)
      (enum : ∀ options, schema.get? "enum" = some (.array options) → value ∈ options)
      (required : ∀ names, schema.get? "required" = some (.array names) →
        ∀ entries, value = .object entries → ∀ key, .string key ∈ names →
          ∃ x, value.get? key = some x)
      (properties : ∀ fields, schema.get? "properties" = some (.object fields) →
        ∀ key s, (key, s) ∈ fields → ∀ x, value.get? key = some x → Validates root s x)
      (items : ∀ s, schema.get? "items" = some s →
        ∀ xs, value = .array xs → ∀ x ∈ xs, Validates root s x)
      (anyOf : ∀ options, schema.get? "anyOf" = some (.array options) →
        ValidatesSome root options value)
      (ref : ∀ target, schema.get? "$ref" = some (.string target) →
        ValidatesSome root (root.resolve? target).toList value) :
      Validates root schema value

/-- A document is valid under one schema of a list. -/
inductive ValidatesSome (root : Json) : (schemas : List Json) → (value : Json) → Prop
  | head {s value : Json} {schemas : List Json} (h : Validates root s value) :
      ValidatesSome root (s :: schemas) value
  | tail {s value : Json} {schemas : List Json} (h : ValidatesSome root schemas value) :
      ValidatesSome root (s :: schemas) value
end

variable {root schema v : Json}

theorem validatesSome_iff {schemas : List Json} :
    ValidatesSome root schemas v ↔ ∃ s ∈ schemas, Validates root s v := by
  induction schemas with
  | nil =>
      constructor
      · intro h; nomatch h
      · rintro ⟨s, hs, -⟩; simp at hs
  | cons s ss ih =>
      constructor
      · intro h
        cases h with
        | head h => exact ⟨s, List.mem_cons_self, h⟩
        | tail h =>
            obtain ⟨t, ht, hv⟩ := ih.mp h
            exact ⟨t, List.mem_cons_of_mem s ht, hv⟩
      · rintro ⟨t, ht, hv⟩
        cases ht with
        | head => exact .head hv
        | tail _ ht => exact .tail (ih.mpr ⟨t, ht, hv⟩)

/-- Validity keyword by keyword. -/
theorem validates_iff :
    Validates root schema v ↔
      (∀ name, schema.get? "type" = some (.string name) → v.isOfType name = true) ∧
      (∀ options, schema.get? "enum" = some (.array options) → v ∈ options) ∧
      (∀ names, schema.get? "required" = some (.array names) →
        ∀ entries, v = .object entries → ∀ key, .string key ∈ names → ∃ x, v.get? key = some x) ∧
      (∀ fields, schema.get? "properties" = some (.object fields) →
        ∀ key s, (key, s) ∈ fields → ∀ x, v.get? key = some x → Validates root s x) ∧
      (∀ s, schema.get? "items" = some s → ∀ xs, v = .array xs → ∀ x ∈ xs, Validates root s x) ∧
      (∀ options, schema.get? "anyOf" = some (.array options) →
        ∃ s ∈ options, Validates root s v) ∧
      (∀ target, schema.get? "$ref" = some (.string target) →
        ∃ s ∈ root.resolve? target, Validates root s v) := by
  constructor
  · rintro ⟨h1, h2, h3, h4, h5, h6, h7⟩
    refine ⟨h1, h2, h3, h4, h5, fun os ho => validatesSome_iff.mp (h6 os ho), fun t ht => ?_⟩
    obtain ⟨s, hs, hv⟩ := validatesSome_iff.mp (h7 t ht)
    exact ⟨s, Option.mem_toList.mp hs, hv⟩
  · rintro ⟨h1, h2, h3, h4, h5, h6, h7⟩
    refine ⟨h1, h2, h3, h4, h5, fun os ho => validatesSome_iff.mpr (h6 os ho), fun t ht => ?_⟩
    obtain ⟨s, hs, hv⟩ := h7 t ht
    exact validatesSome_iff.mpr ⟨s, Option.mem_toList.mpr hs, hv⟩

/-! ## What schemas demand -/

/-- A schema for texts. -/
@[simp] theorem validates_text : Validates root Schema.text.toJson v ↔ ∃ s, v = .string s := by
  rw [validates_iff]
  cases v <;> simp [Schema.toJson, get?, List.lookup_cons, isOfType]

/-- A schema for booleans. -/
@[simp] theorem validates_flag : Validates root Schema.flag.toJson v ↔ ∃ b, v = .bool b := by
  rw [validates_iff]
  cases v <;> simp [Schema.toJson, get?, List.lookup_cons, isOfType]

/-- A schema for lists. -/
@[simp] theorem validates_list {items : Schema} :
    Validates root (Schema.list items).toJson v ↔
      ∃ xs, v = .array xs ∧ ∀ x ∈ xs, Validates root items.toJson x := by
  rw [validates_iff]
  cases v <;> simp [Schema.toJson, get?, List.lookup_cons, isOfType]

/-- A reference to the whole document. -/
@[simp] theorem validates_itself :
    Validates root Schema.itself.toJson v ↔ Validates root root v := by
  rw [validates_iff]
  simp [Schema.toJson, get?, List.lookup_cons, resolve?]

/-- A reference to a definition. -/
theorem validates_named {name : String} {s : Json}
    (h : root.resolve? ("#/$defs/" ++ name) = some s) :
    Validates root (Schema.named name).toJson v ↔ Validates root s v := by
  rw [validates_iff]
  simp [Schema.toJson, get?, List.lookup_cons, h]

/-- A choice of texts. -/
@[simp] theorem validates_choice {options : List String} :
    Validates root (SchemaDefinition.choice options).toJson v ↔ ∃ s ∈ options, v = .string s := by
  rw [validates_iff]
  cases v <;> simp [SchemaDefinition.toJson, ofTexts, get?, List.lookup_cons, isOfType]

/-- A choice of schemas. -/
@[simp] theorem validates_anyOf {description : String} {options : List Schema} :
    Validates root (SchemaDefinition.anyOf description options).toJson v ↔
      ∃ s ∈ options, Validates root s.toJson v := by
  rw [validates_iff]
  simp only [SchemaDefinition.toJson, get?, List.lookup_cons, List.lookup_nil, String.reduceBEq,
    reduceCtorEq, Option.some.injEq, Json.array.injEq, false_imp_iff, implies_true, true_and,
    and_true, forall_eq', List.mem_map]
  constructor
  · rintro ⟨_, ⟨s, hs, rfl⟩, hv⟩
    exact ⟨s, hs, hv⟩
  · rintro ⟨s, hs, hv⟩
    exact ⟨s.toJson, ⟨s, hs, rfl⟩, hv⟩

/-! ## Records -/

/-- Has a document the key of a field, with a valid value? -/
def HasField (root v : Json) (field : String × Schema) : Prop :=
  ∃ x, v.get? field.1 = some x ∧ Validates root field.2.toJson x

/-- What a document must be under a record's schema: an object with all the keys
of the record, each with a valid value. Other keys may stand beside them. -/
def ObeysRecord (root : Json) (fields : RecordSchema) (v : Json) : Prop :=
  (∃ entries, v = .object entries) ∧ ∀ field ∈ fields, HasField root v field

/-- A document with a field is an object. -/
theorem obeysRecord_of_ne_nil {fields : RecordSchema} (h : fields ≠ []) :
    ObeysRecord root fields v ↔ ∀ field ∈ fields, HasField root v field := by
  constructor
  · exact fun hv => hv.2
  · intro hv
    obtain ⟨field, hmem⟩ := List.exists_mem_of_ne_nil fields h
    obtain ⟨x, hx, -⟩ := hv field hmem
    refine ⟨?_, hv⟩
    cases v with
    | object entries => exact ⟨entries, rfl⟩
    | _ => simp [get?] at hx

/-- Any schema with the keywords of a record and no other keyword that counts
demands a record. -/
theorem validates_iff_obeysRecord {fields : RecordSchema}
    (htype : schema.get? "type" = some (.string "object"))
    (hproperties : schema.get? "properties" =
      some (.object (fields.map fun (key, s) => (key, s.toJson))))
    (hrequired : schema.get? "required" = some (.ofTexts (fields.map Prod.fst)))
    (henum : schema.get? "enum" = none) (hitems : schema.get? "items" = none)
    (hanyOf : schema.get? "anyOf" = none) (href : schema.get? "$ref" = none) :
    Validates root schema v ↔ ObeysRecord root fields v := by
  rw [validates_iff, htype, hproperties, hrequired, henum, hitems, hanyOf, href]
  constructor
  · rintro ⟨h1, -, h3, h4, -⟩
    obtain ⟨entries, rfl⟩ : ∃ entries, v = .object entries := by
      have hobject := h1 "object" rfl
      cases v <;> simp [isOfType] at hobject ⊢
    refine ⟨⟨entries, rfl⟩, fun field hmem => ?_⟩
    have hname : Json.string field.1 ∈ (fields.map Prod.fst).map Json.string :=
      List.mem_map_of_mem (List.mem_map_of_mem hmem)
    obtain ⟨x, hx⟩ := h3 _ rfl entries rfl field.1 hname
    have hfield : (field.1, field.2.toJson) ∈ fields.map fun (key, s) => (key, s.toJson) :=
      List.mem_map.mpr ⟨field, hmem, rfl⟩
    exact ⟨x, hx, h4 _ rfl field.1 field.2.toJson hfield x hx⟩
  · rintro ⟨⟨entries, rfl⟩, h⟩
    refine ⟨?_, by simp, ?_, ?_, by simp, by simp, by simp⟩
    · rintro _ ⟨rfl⟩
      rfl
    · rintro _ ⟨rfl⟩ _ _ key hkey
      obtain ⟨_, hname, ⟨rfl⟩⟩ := List.mem_map.mp hkey
      obtain ⟨field, hmem, rfl⟩ := List.mem_map.mp hname
      obtain ⟨x, hx, -⟩ := h field hmem
      exact ⟨x, hx⟩
    · rintro _ ⟨rfl⟩ key s hfield x hx
      obtain ⟨field, hmem, ⟨rfl, rfl⟩⟩ := List.mem_map.mp hfield
      obtain ⟨y, hy, hv⟩ := h field hmem
      rw [hy, Option.some.injEq] at hx
      exact hx ▸ hv

@[simp] theorem validates_record {fields : RecordSchema} :
    Validates root (SchemaDefinition.record fields).toJson v ↔ ObeysRecord root fields v := by
  apply validates_iff_obeysRecord <;> rfl

/-- The schema of a kind of document demands a record. -/
theorem validates_document {d : SchemaDocument} :
    Validates root d.toJson v ↔ ObeysRecord root d.fields v := by
  apply validates_iff_obeysRecord <;> rfl

end JavaOutline
