import JavaOutline.Outline.Codec

/-!
# JavaOutline.Proofs.OutlineCodec

Reading undoes writing: the JSON form of an outline is read back as the outline
it was written from.

Flags are read out of the record around them, so each record is read back as a
whole. The form of an annotation element has none of the flags of a method and
is therefore not read as one (`MethodOutline.ofJson?_element`); this is what
makes entries without a tag safe.
-/

namespace JavaOutline

namespace Json

/-! ## Lists -/

/-- A list is read back if each of its items is. -/
theorem mapM_map_eq_some_of_mem {read : Json → Option α} {write : α → Json} {xs : List α}
    (h : ∀ a ∈ xs, read (write a) = some a) : (xs.map write).mapM read = some xs := by
  induction xs with
  | nil => rfl
  | cons x xs ih =>
      obtain ⟨hx, hxs⟩ := List.forall_mem_cons.mp h
      rw [List.map_cons, List.mapM_cons, hx, ih hxs]
      rfl

theorem mapM_map_eq_some {read : Json → Option α} {write : α → Json}
    (h : ∀ a, read (write a) = some a) (xs : List α) : (xs.map write).mapM read = some xs :=
  mapM_map_eq_some_of_mem fun a _ => h a

@[simp] theorem texts?_ofTexts (ts : List String) : (ofTexts ts).texts? = some ts := by
  have h : (ts.map Json.string).mapM text? = some ts :=
    @mapM_map_eq_some _ text? Json.string (fun _ => rfl) ts
  simpa only [texts?, ofTexts, items?, Option.bind_eq_bind, Option.bind_some] using h

/-- Forgetting the size, `childItems?` is the array under the key. -/
theorem map_val_childItems? (j : Json) (key : String) :
    (j.childItems? key).map Subtype.val = (j.get? key).bind items? := by
  rw [← map_val_child?]
  unfold childItems?
  cases j.child? key with
  | none => rfl
  | some child =>
      obtain ⟨x, hx⟩ := child
      cases x <;> rfl

end Json

open Json

/-! ## Parts -/

/-- A kind is found by its name. -/
@[simp] theorem Kind.ofName?_name (k : Kind) : Kind.ofName? k.name = some k := by
  cases k <;> decide

@[simp] theorem Kind.ofJson?_toJson (k : Kind) : Kind.ofJson? k.toJson = some k := by
  simp [Kind.ofJson?, Kind.toJson]

@[simp] theorem FieldOutline.ofJson?_toJson (f : FieldOutline) :
    FieldOutline.ofJson? f.toJson = some f := by
  simp [FieldOutline.ofJson?, FieldOutline.toJson, FieldFlags.ofJson?, FieldFlags.entries, textAt?,
    flagAt?, get?, text?, flag?, List.lookup_cons]

@[simp] theorem ConstructorOutline.ofJson?_toJson (c : ConstructorOutline) :
    ConstructorOutline.ofJson? c.toJson = some c := by
  simp [ConstructorOutline.ofJson?, ConstructorOutline.toJson, ConstructorFlags.ofJson?,
    ConstructorFlags.entries, textAt?, flagAt?, textsAt?, get?, text?, flag?, List.lookup_cons]

@[simp] theorem MethodOutline.ofJson?_toJson (m : MethodOutline) :
    MethodOutline.ofJson? m.toJson = some m := by
  simp [MethodOutline.ofJson?, MethodOutline.toJson, MethodFlags.ofJson?, MethodFlags.entries,
    textAt?, flagAt?, textsAt?, get?, text?, flag?, List.lookup_cons]

@[simp] theorem ElementOutline.ofJson?_toJson (e : ElementOutline) :
    ElementOutline.ofJson? e.toJson = some e := by
  simp [ElementOutline.ofJson?, ElementOutline.toJson, textAt?, flagAt?, get?, text?, flag?,
    List.lookup_cons]

/-- An annotation element is not read as a method: it has no flags. -/
@[simp] theorem MethodOutline.ofJson?_element (e : ElementOutline) :
    MethodOutline.ofJson? e.toJson = none := by
  have hflag : e.toJson.flagAt? "public" = none := by
    simp [ElementOutline.toJson, flagAt?, get?, List.lookup_cons]
  simp [MethodOutline.ofJson?, MethodFlags.ofJson?, hflag]

@[simp] theorem MethodEntry.ofJson?_toJson (x : MethodEntry) :
    MethodEntry.ofJson? x.toJson = some x := by
  cases x with
  | method m => simp [MethodEntry.ofJson?, MethodEntry.toJson]
  | element e => simp [MethodEntry.ofJson?, MethodEntry.toJson]

/-! ## Outlines -/

namespace Outline

theorem ofJsonAll?_eq_mapM (js : List Json) : ofJsonAll? js = js.mapM ofJson? := by
  induction js with
  | nil => rw [ofJsonAll?]; rfl
  | cons j js ih => rw [ofJsonAll?, ih, List.mapM_cons]

/-- What reading an outline does, key by key. -/
theorem ofJson?_eq (j : Json) : ofJson? j = do
    let inners ← (j.get? "inners").bind items?
    return {
      name := ← j.textAt? "name"
      kind := ← Kind.ofJson? (← j.get? "kind")
      flags := ← TypeFlags.ofJson? j
      superclasses := ← j.textsAt? "extends"
      interfaces := ← j.textsAt? "implements"
      annotations := ← j.textsAt? "annotations"
      fields := ← j.listAt? FieldOutline.ofJson? "fields"
      constructors := ← j.listAt? ConstructorOutline.ofJson? "constructors"
      methods := ← j.listAt? MethodEntry.ofJson? "methods"
      inners := ← inners.mapM ofJson? } := by
  rw [ofJson?, ← map_val_childItems?]
  cases j.childItems? "inners" with
  | none => rfl
  | some child =>
      obtain ⟨inners, hlt⟩ := child
      simp only [← ofJsonAll?_eq_mapM]
      rfl

/-- An outline is read back if its nested types are. -/
theorem ofJson?_of_inners {o : Outline} (h : ofJsonAll? (toJsonAll o.inners) = some o.inners) :
    ofJson? o.toJson = some o := by
  obtain ⟨name, kind, flags, superclasses, interfaces, annotations, fields, constructors, methods,
    inners⟩ := o
  rw [ofJsonAll?_eq_mapM] at h
  have hfields : (fields.map FieldOutline.toJson).mapM FieldOutline.ofJson? = some fields :=
    mapM_map_eq_some FieldOutline.ofJson?_toJson fields
  have hconstr : (constructors.map ConstructorOutline.toJson).mapM ConstructorOutline.ofJson?
      = some constructors := mapM_map_eq_some ConstructorOutline.ofJson?_toJson constructors
  have hmethods : (methods.map MethodEntry.toJson).mapM MethodEntry.ofJson? = some methods :=
    mapM_map_eq_some MethodEntry.ofJson?_toJson methods
  rw [ofJson?_eq]
  simp [h, hfields, hconstr, hmethods, toJson, TypeFlags.ofJson?, TypeFlags.entries, textAt?,
    flagAt?, textsAt?, listAt?, items?, get?, text?, flag?, List.lookup_cons]

mutual
/-- The JSON form of an outline is read back as the outline. -/
theorem ofJson?_toJson : (o : Outline) → ofJson? o.toJson = some o
  | ⟨_, _, _, _, _, _, _, _, _, inners⟩ => ofJson?_of_inners (ofJsonAll?_toJsonAll inners)

/-- The JSON forms of a list of outlines are read back as the list. -/
theorem ofJsonAll?_toJsonAll : (os : List Outline) → ofJsonAll? (toJsonAll os) = some os
  | [] => by simp [toJsonAll, ofJsonAll?]
  | o :: os => by
      have ho := ofJson?_toJson o
      have hos := ofJsonAll?_toJsonAll os
      rw [toJsonAll, ofJsonAll?, ho, hos]
      rfl
end

end Outline

/-- **Reading undoes writing**: the JSON form of every outline, whatever mixture
of entries it lists, is read back as that outline, and no annotation element is
ever mistaken for a method. -/
theorem outline_read_back :
    (∀ o : Outline, Outline.ofJson? o.toJson = some o) ∧
    ∀ e : ElementOutline, MethodOutline.ofJson? e.toJson = none :=
  ⟨Outline.ofJson?_toJson, MethodOutline.ofJson?_element⟩

end JavaOutline
