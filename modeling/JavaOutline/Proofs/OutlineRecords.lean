import JavaOutline.Outline.Schema
import JavaOutline.Proofs.Pruning

/-!
# JavaOutline.Proofs.OutlineRecords

The records that outlines are made of: each is written with the keys its
schema lists, in that order, and no key comes twice.
-/

namespace JavaOutline

/-- The keys of a record, in order. -/
def RecordSchema.keys (fields : RecordSchema) : List String := fields.map Prod.fst

/-! ## Keys -/

/-- A kind is determined by its name. -/
@[simp] theorem Kind.name_inj {k l : Kind} : k.name = l.name ↔ k = l := by
  cases k <;> cases l <;> simp [Kind.name]

@[simp] theorem FieldOutline.keys_toJson (f : FieldOutline) :
    f.toJson.keys = FieldOutline.schema.keys := rfl

@[simp] theorem ConstructorOutline.keys_toJson (c : ConstructorOutline) :
    c.toJson.keys = ConstructorOutline.schema.keys := rfl

@[simp] theorem MethodOutline.keys_toJson (m : MethodOutline) :
    m.toJson.keys = MethodOutline.schema.keys := rfl

@[simp] theorem ElementOutline.keys_toJson (e : ElementOutline) :
    e.toJson.keys = ElementOutline.schema.keys := rfl

@[simp] theorem Outline.keys_toJson (o : Outline) : o.toJson.keys = Outline.schema.fields.keys := by
  cases o
  rw [Outline.toJson]
  rfl

theorem FieldOutline.nodup_keys : FieldOutline.schema.keys.Nodup := by decide

theorem ConstructorOutline.nodup_keys : ConstructorOutline.schema.keys.Nodup := by decide

theorem MethodOutline.nodup_keys : MethodOutline.schema.keys.Nodup := by decide

theorem ElementOutline.nodup_keys : ElementOutline.schema.keys.Nodup := by decide

theorem Outline.nodup_keys : Outline.schema.fields.keys.Nodup := by decide

end JavaOutline
