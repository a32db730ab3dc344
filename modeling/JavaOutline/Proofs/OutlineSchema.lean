import JavaOutline.Proofs.OutlineCodec
import JavaOutline.Proofs.SchemaValidity

/-!
# JavaOutline.Proofs.OutlineSchema

The schema of outlines describes the documents of outlines: what is written is
valid, and what is valid is read.

Record by record, the keys that a schema requires are the keys that reading
looks up, each with values of the same form. Reading takes more than the schema
allows, since a kind may be the key of an object and an annotation element the
array of its values; for all other records the two demand the same. Reading an
outline recurses into nested types where the schema refers to itself, so that
valid documents are read is shown by induction on the size of the document.
-/

namespace JavaOutline

open Json

/-! ## Values -/

/-- A chain of readings that cannot fail halfway for another reason succeeds if
each of them does. -/
theorem isSome_bind_iff {x : Option α} {f : α → Option β} {p : Prop}
    (h : ∀ a, (f a).isSome = true ↔ p) : (x.bind f).isSome = true ↔ x.isSome = true ∧ p := by
  cases x with
  | none => simp
  | some a => simp [h a]

theorem isSome_bind {x : Option α} {f : α → Option β} (hx : x.isSome = true)
    (hf : ∀ a, (f a).isSome = true) : (x.bind f).isSome = true := by
  obtain ⟨a, rfl⟩ := Option.isSome_iff_exists.mp hx
  exact hf a

/-- A list is read if each of its items is. -/
theorem isSome_mapM {read : Json → Option α} (js : List Json) :
    (js.mapM read).isSome = true ↔ ∀ j ∈ js, (read j).isSome = true := by
  induction js with
  | nil => simp
  | cons j js ih =>
      rw [List.mapM_cons, List.forall_mem_cons, ← ih]
      refine isSome_bind_iff fun a => ?_
      cases js.mapM read <;> simp

variable {root v : Json} {key : String}

/-- A text is read where the schema of texts is obeyed. -/
theorem hasField_text : HasField root v (key, .text) ↔ (v.textAt? key).isSome = true := by
  cases h : v.get? key with
  | none => simp [HasField, textAt?, h]
  | some x => cases x <;> simp [HasField, textAt?, text?, h]

/-- A flag is read where the schema of flags is obeyed. -/
theorem hasField_flag : HasField root v (key, .flag) ↔ (v.flagAt? key).isSome = true := by
  cases h : v.get? key with
  | none => simp [HasField, flagAt?, h]
  | some x => cases x <;> simp [HasField, flagAt?, flag?, h]

/-- What the schema of lists demands. -/
theorem hasField_list {items : Schema} : HasField root v (key, .list items) ↔
    ∃ xs, (v.get? key).bind items? = some xs ∧ ∀ x ∈ xs, Validates root items.toJson x := by
  cases h : v.get? key with
  | none => simp [HasField, h]
  | some x => cases x <;> simp [HasField, items?, h]

/-- What reading a list demands. -/
theorem isSome_listAt? {read : Json → Option α} : (v.listAt? read key).isSome = true ↔
    ∃ xs, (v.get? key).bind items? = some xs ∧ ∀ x ∈ xs, (read x).isSome = true := by
  cases h : v.get? key with
  | none => simp [listAt?, h]
  | some x => cases x <;> simp [listAt?, items?, h, isSome_mapM]

/-- A list is read where the schema of lists is obeyed, if that is so for its
items. -/
theorem isSome_listAt?_of_hasField {read : Json → Option α} {items : Schema}
    (hread : ∀ x, Validates root items.toJson x → (read x).isSome = true)
    (h : HasField root v (key, .list items)) : (v.listAt? read key).isSome = true := by
  obtain ⟨xs, hxs, hvalid⟩ := hasField_list.mp h
  exact isSome_listAt?.mpr ⟨xs, hxs, fun x hx => hread x (hvalid x hx)⟩

/-- A list of texts is read where the schema of such lists is obeyed. -/
theorem hasField_texts : HasField root v (key, .list .text) ↔ (v.textsAt? key).isSome = true := by
  have hread : ∀ x : Json, Validates root Schema.text.toJson x ↔ x.text?.isSome = true := by
    intro x
    cases x <;> simp [text?]
  simp only [hasField_list, hread]
  exact isSome_listAt?.symm

/-! ## Flags -/

theorem TypeFlags.isSome_ofJson? : (TypeFlags.ofJson? v).isSome = true ↔ ∀ field ∈
    flagFields ["public", "protected", "private", "abstract", "final", "static"],
    HasField root v field := by
  simp only [flagFields, List.map_cons, List.map_nil, List.forall_mem_cons, hasField_flag]
  iterate 6 refine isSome_bind_iff fun _ => ?_
  simp

theorem FieldFlags.isSome_ofJson? : (FieldFlags.ofJson? v).isSome = true ↔ ∀ field ∈
    flagFields ["public", "protected", "private", "final", "static", "transient", "volatile"],
    HasField root v field := by
  simp only [flagFields, List.map_cons, List.map_nil, List.forall_mem_cons, hasField_flag]
  iterate 7 refine isSome_bind_iff fun _ => ?_
  simp

theorem ConstructorFlags.isSome_ofJson? : (ConstructorFlags.ofJson? v).isSome = true ↔ ∀ field ∈
    flagFields ["public", "protected", "private"], HasField root v field := by
  simp only [flagFields, List.map_cons, List.map_nil, List.forall_mem_cons, hasField_flag]
  iterate 3 refine isSome_bind_iff fun _ => ?_
  simp

theorem MethodFlags.isSome_ofJson? : (MethodFlags.ofJson? v).isSome = true ↔ ∀ field ∈
    flagFields ["public", "protected", "private", "abstract", "final", "static", "synchronized",
      "native", "default"], HasField root v field := by
  simp only [flagFields, List.map_cons, List.map_nil, List.forall_mem_cons, hasField_flag]
  iterate 9 refine isSome_bind_iff fun _ => ?_
  simp

/-! ## Parts -/

/-- The schema document of outlines. -/
def outlineSchema : Json := Outline.schema.toJson

/-- What a reference demands is what the definition it names demands. -/
theorem validates_definition {name : String} {d : SchemaDefinition}
    (h : outlineSchema.resolve? ("#/$defs/" ++ name) = some d.toJson) :
    Validates outlineSchema (Schema.named name).toJson v ↔ Validates outlineSchema d.toJson v :=
  validates_named h

theorem Kind.validates_iff : Validates outlineSchema (Schema.named "TypeKind").toJson v ↔
    ∃ k : Kind, v = k.toJson := by
  rw [validates_definition (d := .choice (Kind.all.map Kind.name)) rfl, validates_choice]
  constructor
  · rintro ⟨_, hs, rfl⟩
    obtain ⟨k, -, rfl⟩ := List.mem_map.mp hs
    exact ⟨k, rfl⟩
  · rintro ⟨k, rfl⟩
    have hmem : k ∈ Kind.all := by cases k <;> decide
    exact ⟨k.name, List.mem_map_of_mem hmem, rfl⟩

theorem FieldOutline.validates_iff :
    Validates outlineSchema (Schema.named "FieldDescriptor").toJson v ↔
      (FieldOutline.ofJson? v).isSome = true := by
  rw [validates_definition (d := .record FieldOutline.schema) rfl, validates_record,
    obeysRecord_of_ne_nil (by simp [FieldOutline.schema])]
  simp only [FieldOutline.schema, List.forall_mem_append, List.forall_mem_cons,
    List.not_mem_nil, false_imp_iff, implies_true, true_and, and_assoc, hasField_text,
    ← FieldFlags.isSome_ofJson?]
  symm
  iterate 2 refine isSome_bind_iff fun _ => ?_
  cases FieldFlags.ofJson? v <;> simp

theorem ConstructorOutline.validates_iff :
    Validates outlineSchema (Schema.named "ConstructorDescriptor").toJson v ↔
      (ConstructorOutline.ofJson? v).isSome = true := by
  rw [validates_definition (d := .record ConstructorOutline.schema) rfl, validates_record,
    obeysRecord_of_ne_nil (by simp [ConstructorOutline.schema])]
  simp only [ConstructorOutline.schema, List.forall_mem_append, List.forall_mem_cons,
    List.not_mem_nil, false_imp_iff, implies_true, true_and, and_assoc, hasField_text,
    hasField_texts, ← ConstructorFlags.isSome_ofJson?]
  symm
  iterate 4 refine isSome_bind_iff fun _ => ?_
  simp

theorem MethodOutline.validates_iff :
    Validates outlineSchema (Schema.named "MethodDescriptor").toJson v ↔
      (MethodOutline.ofJson? v).isSome = true := by
  rw [validates_definition (d := .record MethodOutline.schema) rfl, validates_record,
    obeysRecord_of_ne_nil (by simp [MethodOutline.schema])]
  simp only [MethodOutline.schema, List.forall_mem_append, List.forall_mem_cons,
    List.not_mem_nil, false_imp_iff, implies_true, true_and, and_assoc, hasField_text,
    hasField_texts, ← MethodFlags.isSome_ofJson?]
  symm
  iterate 5 refine isSome_bind_iff fun _ => ?_
  simp

/-- Where an annotation element is an object, the schema demands what reading does. -/
theorem ElementOutline.obeysRecord_iff {entries : List (String × Json)} :
    ObeysRecord root ElementOutline.schema (.object entries) ↔
      (ElementOutline.ofJson? (.object entries)).isSome = true := by
  rw [obeysRecord_of_ne_nil (by simp [ElementOutline.schema])]
  simp only [ElementOutline.schema, List.forall_mem_cons, hasField_text, hasField_flag]
  symm
  iterate 3 refine isSome_bind_iff fun _ => ?_
  simp

theorem ElementOutline.validates_iff :
    Validates outlineSchema (Schema.named "AnnotationElementDescriptor").toJson v ↔
      ∃ entries, v = .object entries ∧ (ElementOutline.ofJson? v).isSome = true := by
  rw [validates_definition (d := .record ElementOutline.schema) rfl, validates_record]
  constructor
  · intro h
    obtain ⟨entries, rfl⟩ := h.1
    exact ⟨entries, rfl, obeysRecord_iff.mp h⟩
  · rintro ⟨entries, rfl, h⟩
    exact obeysRecord_iff.mpr h

/-- The schema leaves a choice for an entry of the list of methods. -/
theorem MethodEntry.validates_iff :
    Validates outlineSchema (Schema.named "MethodEntry").toJson v ↔
      Validates outlineSchema (Schema.named "MethodDescriptor").toJson v ∨
        Validates outlineSchema (Schema.named "AnnotationElementDescriptor").toJson v := by
  rw [validates_definition (d := .anyOf _ _) rfl, validates_anyOf]
  simp only [List.mem_cons, List.not_mem_nil, or_false, exists_eq_or_imp, exists_eq_left]

/-- Reading tries what the schema leaves as a choice. -/
theorem MethodEntry.isSome_ofJson?_of_validates
    (h : Validates outlineSchema (Schema.named "MethodEntry").toJson v) :
    (MethodEntry.ofJson? v).isSome = true := by
  rw [MethodEntry.validates_iff, MethodOutline.validates_iff, ElementOutline.validates_iff] at h
  rw [MethodEntry.ofJson?, Option.isSome_or, Option.isSome_map, Option.isSome_map, Bool.or_eq_true]
  rcases h with hmethod | ⟨_, _, helement⟩
  · exact .inl hmethod
  · exact .inr helement

theorem MethodEntry.validates_toJson (x : MethodEntry) :
    Validates outlineSchema (Schema.named "MethodEntry").toJson x.toJson := by
  rw [MethodEntry.validates_iff, MethodOutline.validates_iff, ElementOutline.validates_iff]
  cases x with
  | method m => exact .inl (by simp [MethodEntry.toJson])
  | element e => exact .inr ⟨_, rfl, by simp [MethodEntry.toJson]⟩

/-! ## Outlines -/

namespace Outline

/-- What is written for an outline is valid if what is written for its nested types is. -/
theorem validates_of_inners {o : Outline}
    (h : ∀ j ∈ toJsonAll o.inners, Validates outlineSchema outlineSchema j) :
    Validates outlineSchema outlineSchema o.toJson := by
  obtain ⟨name, kind, flags, superclasses, interfaces, annotations, fields, constructors, methods,
    inners⟩ := o
  have hfields : ∀ f ∈ fields, Validates outlineSchema (Schema.named "FieldDescriptor").toJson
      f.toJson := fun f _ => FieldOutline.validates_iff.mpr (by simp)
  have hconstructors : ∀ c ∈ constructors, Validates outlineSchema
      (Schema.named "ConstructorDescriptor").toJson c.toJson :=
    fun c _ => ConstructorOutline.validates_iff.mpr (by simp)
  have hmethods : ∀ m ∈ methods, Validates outlineSchema (Schema.named "MethodEntry").toJson
      m.toJson := fun m _ => m.validates_toJson
  have hkind : Validates outlineSchema (Schema.named "TypeKind").toJson kind.toJson :=
    Kind.validates_iff.mpr ⟨kind, rfl⟩
  rw [outlineSchema, validates_document, obeysRecord_of_ne_nil (by simp [schema])]
  rw [← outlineSchema]
  simpa [schema, flagFields, HasField, toJson, TypeFlags.entries, get?, ofTexts, List.lookup_cons,
    hkind] using And.intro hfields ⟨hconstructors, hmethods, h⟩

mutual
/-- What is written for an outline is valid. -/
theorem validates_toJson : (o : Outline) → Validates outlineSchema outlineSchema o.toJson
  | ⟨_, _, _, _, _, _, _, _, _, inners⟩ => validates_of_inners (validates_toJsonAll inners)

theorem validates_toJsonAll : (os : List Outline) →
    ∀ j ∈ toJsonAll os, Validates outlineSchema outlineSchema j
  | [] => by simp [toJsonAll]
  | o :: os => by
      rw [toJsonAll, List.forall_mem_cons]
      exact ⟨validates_toJson o, validates_toJsonAll os⟩
end

/-- Nested types are read where the schema refers to itself, if that is so for all smaller
documents. -/
theorem isSome_inners_of_hasField
    (ih : ∀ x : Json, sizeOf x < sizeOf v →
      Validates outlineSchema outlineSchema x → (ofJson? x).isSome = true)
    (h : HasField outlineSchema v ("inners", .list .itself)) :
    ∃ items, (v.get? "inners").bind items? = some items ∧
      (items.mapM ofJson?).isSome = true := by
  obtain ⟨xs, hxs, hvalid⟩ := hasField_list.mp h
  refine ⟨xs, hxs, (isSome_mapM xs).mpr fun x hx => ih x ?_ (validates_itself.mp (hvalid x hx))⟩
  obtain ⟨items, hget, hitems⟩ := Option.bind_eq_some_iff.mp hxs
  have hlt : sizeOf items < sizeOf v := sizeOf_get?_lt hget
  cases items with
  | array items =>
      obtain rfl : items = xs := Option.some.inj hitems
      have := List.sizeOf_lt_of_mem hx
      simp only [Json.array.sizeOf_spec] at hlt
      omega
  | _ => nomatch hitems

/-- A valid document is read as an outline, if that is so for all smaller documents. -/
theorem isSome_ofJson?_of_smaller
    (ih : ∀ x : Json, sizeOf x < sizeOf v →
      Validates outlineSchema outlineSchema x → (ofJson? x).isSome = true)
    (h : Validates outlineSchema outlineSchema v) : (ofJson? v).isSome = true := by
  rw [outlineSchema, validates_document, obeysRecord_of_ne_nil (by simp [schema])] at h
  rw [← outlineSchema] at h
  simp only [schema, List.forall_mem_append, List.forall_mem_cons, List.not_mem_nil,
    false_imp_iff, implies_true, and_true, and_assoc, hasField_text, hasField_texts,
    ← TypeFlags.isSome_ofJson?] at h
  obtain ⟨hname, hkind, hflags, hextends, himplements, hannotations, hfields, hconstructors,
    hmethods, hinners⟩ := h
  replace hfields := isSome_listAt?_of_hasField
    (fun x hx => FieldOutline.validates_iff.mp hx) hfields
  replace hconstructors := isSome_listAt?_of_hasField
    (fun x hx => ConstructorOutline.validates_iff.mp hx) hconstructors
  replace hmethods := isSome_listAt?_of_hasField
    (fun x hx => MethodEntry.isSome_ofJson?_of_validates hx) hmethods
  obtain ⟨items, hitems, hinners⟩ := isSome_inners_of_hasField ih hinners
  obtain ⟨_, hkind, hvalid⟩ := hkind
  obtain ⟨kind, rfl⟩ := Kind.validates_iff.mp hvalid
  rw [ofJson?_eq]
  simp only [hitems, hkind, Option.bind_eq_bind, Option.bind_some, Kind.ofJson?_toJson]
  refine isSome_bind hname fun _ => isSome_bind hflags fun _ => ?_
  refine isSome_bind hextends fun _ => isSome_bind himplements fun _ => ?_
  refine isSome_bind hannotations fun _ => isSome_bind hfields fun _ => ?_
  refine isSome_bind hconstructors fun _ => isSome_bind hmethods fun _ => ?_
  exact isSome_bind hinners fun _ => rfl

theorem isSome_ofJson?_of_validates (h : Validates outlineSchema outlineSchema v) :
    (ofJson? v).isSome = true := by
  induction hn : sizeOf v using Nat.strongRecOn generalizing v with
  | ind n ih =>
      refine isSome_ofJson?_of_smaller (fun x hx hvalid => ?_) h
      exact ih (sizeOf x) (by omega) hvalid rfl

end Outline

/-- **The schema describes the format**: what is written for an outline is valid,
and every valid document is read as an outline. -/
theorem schema_describes_outlines :
    (∀ o : Outline, Validates outlineSchema outlineSchema o.toJson) ∧
    ∀ v : Json, Validates outlineSchema outlineSchema v → ∃ o, Outline.ofJson? v = some o :=
  ⟨Outline.validates_toJson, fun _ h =>
    Option.isSome_iff_exists.mp (Outline.isSome_ofJson?_of_validates h)⟩

end JavaOutline
