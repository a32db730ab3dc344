import JavaOutline.Proofs.OutlineRecords
import JavaOutline.Proofs.PrunedContent

/-!
# JavaOutline.Proofs.RecordLayout

Which objects an outline document has, and the keys of each of them in order.

`objects` lists the objects in a document in document order, each with the path that leads to it
and its keys, and `Outline.records` lists the records in an outline with the paths where they
belong. The objects of the document are the records, each with the keys of its sort and in their
order, whatever the depth. A strict document has the same objects at the same paths: pruning
drops no record, since each of them is an item of a list and has a name. Of the keys it leaves
some in their order, among them those of the texts that every record of the sort has
(`keys_canonical`).
-/

namespace JavaOutline

namespace Json

/-! ## Objects of a document -/

/-- Something found at a path, seen from one step further up. -/
def under (s : Step) (x : List Step × α) : List Step × α := (s :: x.1, x.2)

/-- The path of a place and the keys of the object there. -/
def Place.object? (x : Place) : Option (List Step × List String) :=
  x.value.entries?.map fun entries => (x.path, entries.map Prod.fst)

/-- The objects of a document in document order, with their paths and keys. -/
def objects (j : Json) : List (List Step × List String) := (places j).filterMap Place.object?

/-- The objects in the entries of an object. -/
def entryObjects (entries : List (String × Json)) : List (List Step × List String) :=
  entries.flatMap fun e => (objects e.2).map (under (.key e.1))

/-- The objects in the items of an array from position `i` on. -/
def itemObjects (i : Nat) : List Json → List (List Step × List String)
  | [] => []
  | j :: js => (objects j).map (under (.index i)) ++ itemObjects (i + 1) js

theorem entryObjects_nil : entryObjects [] = [] := rfl

theorem entryObjects_cons (key : String) (j : Json) (es : List (String × Json)) :
    entryObjects ((key, j) :: es) = (objects j).map (under (.key key)) ++ entryObjects es := by
  rw [entryObjects, List.flatMap_cons, entryObjects]

theorem filterMap_under (s : Step) (j : Json) :
    ((places j).map (Place.under s)).filterMap Place.object? = (objects j).map (under s) := by
  rw [objects, List.filterMap_map, List.map_filterMap]
  refine List.filterMap_congr fun x _ => ?_
  simp only [Function.comp_def, Place.object?, Place.under, Option.map_map]
  rfl

theorem objects_array (items : List Json) : objects (.array items) = itemObjects 0 items := by
  have hitems : ∀ (items : List Json) (i : Nat),
      (itemPlaces i items).filterMap Place.object? = itemObjects i items := by
    intro items
    induction items with
    | nil => exact fun _ => rfl
    | cons j js ih =>
        intro i
        rw [itemPlaces, List.filterMap_append, ih, itemObjects, ← filterMap_under]
        rfl
  exact hitems items 0

theorem objects_object (entries : List (String × Json)) :
    objects (.object entries) = ([], entries.map Prod.fst) :: entryObjects entries := by
  have hentries : (entryPlaces entries).filterMap Place.object? = entryObjects entries := by
    induction entries with
    | nil => rfl
    | cons e es ih =>
        obtain ⟨key, j⟩ := e
        rw [entryPlaces, List.filterMap_append, ih, entryObjects_cons, ← filterMap_under]
        rfl
  rw [← hentries]
  rfl

@[simp] theorem entries?_bool (b : Bool) : (Json.bool b).entries? = none := rfl

@[simp] theorem entries?_string (s : String) : (Json.string s).entries? = none := rfl

@[simp] theorem entries?_array (items : List Json) : (Json.array items).entries? = none := rfl

@[simp] theorem entries?_ofTexts (ts : List String) : (ofTexts ts).entries? = none := rfl

/-! ## Objects of pruned documents -/

@[simp] theorem prune_bool (b strict : Bool) : (Json.bool b).prune strict = .bool b := by
  cases strict <;> rfl

@[simp] theorem prune_string (s : String) (strict : Bool) :
    (Json.string s).prune strict = .string s := by
  cases strict <;> rfl

@[simp] theorem prune_array (items : List Json) (strict : Bool) :
    (Json.array items).prune strict = .array (items.map (·.prune strict)) := by
  cases strict with
  | false => simp [prune]
  | true => rw [prune_true, pruned, prunedItems_eq_map]; rfl

/-- What pruning leaves out of an object has no objects inside, unless it is one itself. -/
theorem entryObjects_prunedEntries {es : List (String × Json)}
    (h : ∀ e ∈ es, e.2.entries? = none) :
    entryObjects (prunedEntries es) = entryObjects (es.map fun e => (e.1, pruned e.2)) := by
  induction es with
  | nil => rfl
  | cons e es ih =>
      obtain ⟨key, j⟩ := e
      rw [List.forall_mem_cons] at h
      rw [List.map_cons, entryObjects_cons, ← ih h.2, prunedEntries]
      split
      · next hnoise =>
        have hnone : objects (pruned j) = [] := by
          cases j with
          | object entries => exact absurd h.1 nofun
          | array items =>
              rw [pruned] at hnoise ⊢
              rw [List.isEmpty_iff.mp hnoise]
              rfl
          | _ => rfl
        rw [hnone, List.map_nil, List.nil_append]
      · rw [entryObjects_cons]

/-- An entry whose pruned value says something stays. -/
theorem mem_prunedEntries {key : String} {j : Json} {es : List (String × Json)} (h : (key, j) ∈ es)
    (hnoise : isNoise (pruned j) = false) : (key, pruned j) ∈ prunedEntries es := by
  obtain ⟨before, after, rfl⟩ := List.append_of_mem h
  rw [prunedEntries_append, prunedEntries_cons_of_some (v := pruned j) (by simp [visible?, hnoise])]
  simp

/-- The objects of a record, pruned or not: the record itself and those of its values. -/
theorem objects_prune_object {es : List (String × Json)} (h : ∀ e ∈ es, e.2.entries? = none)
    (strict : Bool) : objects ((Json.object es).prune strict)
      = ([], ((Json.object es).prune strict).keys)
        :: entryObjects (es.map fun e => (e.1, e.2.prune strict)) := by
  cases strict with
  | false => simp [prune, objects_object, keys]
  | true =>
      simp only [prune_true, pruned, objects_object, entryObjects_prunedEntries h]
      rfl

/-- An object has the objects of its values, and none if they have none. -/
theorem entryObjects_eq_nil {es : List (String × Json)} (h : ∀ e ∈ es, objects e.2 = []) :
    entryObjects es = [] := by
  rw [entryObjects, List.flatMap_eq_nil_iff]
  intro e he
  rw [h e he, List.map_nil]

@[simp] theorem objects_bool (b : Bool) : objects (.bool b) = [] := rfl

@[simp] theorem objects_string (s : String) : objects (.string s) = [] := rfl

theorem itemObjects_eq_nil {items : List Json} (h : ∀ j ∈ items, objects j = []) (i : Nat) :
    itemObjects i items = [] := by
  induction items generalizing i with
  | nil => rfl
  | cons j js ih =>
      rw [List.forall_mem_cons] at h
      rw [itemObjects, h.1, ih h.2, List.map_nil, List.nil_append]

@[simp] theorem prune_ofTexts (ts : List String) (strict : Bool) :
    (ofTexts ts).prune strict = ofTexts ts := by
  simp [ofTexts]

@[simp] theorem objects_ofTexts (ts : List String) : objects (ofTexts ts) = [] := by
  rw [ofTexts, objects_array, itemObjects_eq_nil (by simp)]

end Json

open Json

/-! ## Records of an outline -/

/-- What an object in the document of an outline stands for. -/
inductive RecordSort where
  | outline | field | constructor | method | element
  deriving Repr, DecidableEq

namespace RecordSort

/-- The keys of a record, in the order they are written. -/
def keys : RecordSort → List String
  | .outline => ["name", "kind", "public", "protected", "private", "abstract", "final", "static",
      "extends", "implements", "annotations", "fields", "constructors", "methods", "inners"]
  | .field => ["name", "type", "public", "protected", "private", "final", "static", "transient",
      "volatile"]
  | .constructor => ["name", "public", "protected", "private", "params", "throws"]
  | .method => ["name", "returnType", "public", "protected", "private", "abstract", "final",
      "static", "synchronized", "native", "default", "params", "throws"]
  | .element => ["name", "returnType", "hasDefault"]

/-- The keys of the texts that every record of the sort has. -/
def lasting : RecordSort → List String
  | .outline => ["name", "kind"]
  | .field => ["name", "type"]
  | .constructor => ["name"]
  | .method | .element => ["name", "returnType"]

end RecordSort

/-- What an entry of the list of methods stands for. -/
def MethodEntry.sort : MethodEntry → RecordSort
  | .method _ => .method
  | .element _ => .element

/-- Records in a list, from position `i` on. -/
def positioned (i : Nat) (sorts : List RecordSort) : List (List Json.Step × RecordSort) :=
  (sorts.zipIdx i).map fun (s, k) => ([.index k], s)

/-- Records in the list under a key. -/
def listed (key : String) (sorts : List RecordSort) : List (List Json.Step × RecordSort) :=
  (positioned 0 sorts).map (under (.key key))

namespace Outline

mutual
/-- The records in an outline in document order, each with the path to its place: the outline
itself, its fields, its constructors, its entries of the list of methods and the records in its
nested types. -/
def records : Outline → List (List Json.Step × RecordSort)
  | ⟨_, _, _, _, _, _, fields, constructors, methods, inners⟩ =>
    ([], .outline) ::
      (listed "fields" (fields.map fun _ => .field)
        ++ (listed "constructors" (constructors.map fun _ => .constructor)
        ++ (listed "methods" (methods.map MethodEntry.sort)
        ++ (recordsAll 0 inners).map (under (.key "inners")))))

/-- The records in a list of outlines from position `i` on. -/
def recordsAll (i : Nat) : List Outline → List (List Json.Step × RecordSort)
  | [] => []
  | o :: os => (records o).map (under (.index i)) ++ recordsAll (i + 1) os
end

end Outline

/-! ## Objects are records -/

/-- An object has keys of the record that belongs to its place: some of them in their order, with
those of its texts, and all of them unless the document is strict. -/
structure KeysFit (strict : Bool) (x : List Json.Step × List String)
    (r : List Json.Step × RecordSort) : Prop where
  path : x.1 = r.1
  order : x.2.Sublist r.2.keys
  lasting : r.2.lasting ⊆ x.2
  whole : strict = false → x.2 = r.2.keys

theorem KeysFit.under {strict : Bool} {x : List Json.Step × List String}
    {r : List Json.Step × RecordSort} (h : KeysFit strict x r) (step : Json.Step) :
    KeysFit strict (under step x) (under step r) where
  path := congrArg (step :: ·) h.path
  order := h.order
  lasting := h.lasting
  whole := h.whole

/-- The objects of a document are those of some records. -/
abbrev ObjectsFit (strict : Bool) : List (List Json.Step × List String) →
    List (List Json.Step × RecordSort) → Prop :=
  List.Forall₂ (KeysFit strict)

theorem ObjectsFit.under {strict : Bool} {xs : List (List Json.Step × List String)}
    {rs : List (List Json.Step × RecordSort)} (h : ObjectsFit strict xs rs) (step : Json.Step) :
    ObjectsFit strict (xs.map (under step)) (rs.map (under step)) := by
  rw [ObjectsFit, List.forall₂_map_left_iff, List.forall₂_map_right_iff]
  exact h.imp fun _ _ hfit => hfit.under step

/-- **A record that is pruned keeps its texts and the order of its keys.** -/
theorem keysFit_record {es : List (String × Json)} {s : RecordSort} (strict : Bool)
    (hkeys : es.map Prod.fst = s.keys) (hlasting : ∀ key ∈ s.lasting, ∃ t, (key, .string t) ∈ es) :
    KeysFit strict ([], ((Json.object es).prune strict).keys) ([], s) := by
  cases strict with
  | false =>
      refine ⟨rfl, ?_, fun key hkey => ?_, fun _ => hkeys⟩
      · exact hkeys ▸ List.Sublist.refl _
      · obtain ⟨t, ht⟩ := hlasting key hkey
        exact List.mem_map_of_mem ht
  | true =>
      refine ⟨rfl, ?_, fun key hkey => ?_, nofun⟩
      · exact hkeys ▸ keys_prunedEntries_sublist es
      · obtain ⟨t, ht⟩ := hlasting key hkey
        exact List.mem_map_of_mem (mem_prunedEntries ht rfl)

/-- A record without other records in it is the only object of its document. -/
theorem objectsFit_record {es : List (String × Json)} {s : RecordSort} (strict : Bool)
    (hkeys : es.map Prod.fst = s.keys) (hlasting : ∀ key ∈ s.lasting, ∃ t, (key, .string t) ∈ es)
    (hvalues : ∀ e ∈ es, e.2.entries? = none ∧ objects (e.2.prune strict) = []) :
    ObjectsFit strict (objects ((Json.object es).prune strict)) [([], s)] := by
  rw [objects_prune_object (fun e he => (hvalues e he).1), entryObjects_eq_nil]
  · exact .cons (keysFit_record strict hkeys hlasting) .nil
  · rw [List.forall_mem_map]
    exact fun e he => (hvalues e he).2

/-- The objects of a list are those of its items. -/
theorem objectsFit_items {strict : Bool} {f : α → Json} {sort : α → RecordSort} {xs : List α}
    (h : ∀ x ∈ xs, ObjectsFit strict (objects ((f x).prune strict)) [([], sort x)]) (i : Nat) :
    ObjectsFit strict (itemObjects i ((xs.map f).map (·.prune strict)))
      (positioned i (xs.map sort)) := by
  induction xs generalizing i with
  | nil => exact .nil
  | cons x xs ih =>
      rw [List.forall_mem_cons] at h
      exact List.rel_append (h.1.under (.index i)) (ih h.2 (i + 1))

theorem FieldOutline.objectsFit_toJson (f : FieldOutline) (strict : Bool) :
    ObjectsFit strict (objects (f.toJson.prune strict)) [([], .field)] :=
  objectsFit_record strict rfl (by simp [RecordSort.lasting]) (by simp [FieldFlags.entries])

theorem ConstructorOutline.objectsFit_toJson (c : ConstructorOutline) (strict : Bool) :
    ObjectsFit strict (objects (c.toJson.prune strict)) [([], .constructor)] :=
  objectsFit_record strict rfl (by simp [RecordSort.lasting])
    (by simp [ConstructorFlags.entries])

theorem MethodEntry.objectsFit_toJson (m : MethodEntry) (strict : Bool) :
    ObjectsFit strict (objects (m.toJson.prune strict)) [([], m.sort)] := by
  cases m with
  | method m =>
      exact objectsFit_record strict rfl (by simp [MethodEntry.sort, RecordSort.lasting])
        (by simp [MethodFlags.entries])
  | element e =>
      exact objectsFit_record strict rfl (by simp [MethodEntry.sort, RecordSort.lasting]) (by simp)

namespace Outline

mutual
/-- **The objects of the document are the records of the outline.** -/
theorem objectsFit_toJson (strict : Bool) : (o : Outline) →
    ObjectsFit strict (objects (o.toJson.prune strict)) o.records
  | ⟨name, kind, flags, superclasses, interfaces, annotations, fields, constructors, methods,
      inners⟩ => by
      have hfields := (objectsFit_items (fun f (_ : f ∈ fields) => f.objectsFit_toJson strict)
        0).under (.key "fields")
      have hconstructors := (objectsFit_items
        (fun c (_ : c ∈ constructors) => c.objectsFit_toJson strict) 0).under (.key "constructors")
      have hmethods := (objectsFit_items (fun m (_ : m ∈ methods) => m.objectsFit_toJson strict)
        0).under (.key "methods")
      have hinners := (objectsFit_toJsonAll strict 0 inners).under (.key "inners")
      rw [toJson, objects_prune_object (by simp [TypeFlags.entries, Kind.toJson])]
      refine .cons (keysFit_record strict rfl (by simp [RecordSort.lasting, Kind.toJson])) ?_
      simp only [TypeFlags.entries, Kind.toJson, List.cons_append, List.nil_append, List.map_cons,
        List.map_nil, prune_bool, prune_string, prune_ofTexts, prune_array, entryObjects_cons,
        objects_bool, objects_string, objects_ofTexts, objects_array, entryObjects_nil,
        List.append_nil]
      exact List.rel_append hfields
        (List.rel_append hconstructors (List.rel_append hmethods hinners))

theorem objectsFit_toJsonAll (strict : Bool) (i : Nat) : (os : List Outline) →
    ObjectsFit strict (itemObjects i ((toJsonAll os).map (·.prune strict))) (recordsAll i os)
  | [] => .nil
  | o :: os => by
      rw [toJsonAll, List.map_cons, itemObjects, recordsAll]
      exact List.rel_append ((objectsFit_toJson strict o).under (.index i))
        (objectsFit_toJsonAll strict (i + 1) os)
end

end Outline

/-- **The order of keys is canonical**: the objects in the document of an outline are the records
of the outline at their places, each with exactly the keys of its sort; those in the strict
document are the same records, each with some of these keys in the same order and at least those
of its texts. -/
theorem keys_canonical (o : Outline) :
    objects o.toJson = o.records.map (fun r => (r.1, r.2.keys))
      ∧ List.Forall₂ (fun x r => x.1 = r.1 ∧ x.2.Sublist r.2.keys ∧ r.2.lasting ⊆ x.2)
          (objects (o.toJson.prune true)) o.records := by
  constructor
  · have hwhole : List.Forall₂ (fun x r => x = (r.1, r.2.keys)) (objects o.toJson) o.records :=
      (o.objectsFit_toJson false).imp fun _ _ hfit => Prod.ext hfit.path (hfit.whole rfl)
    rw [← List.forall₂_eq_eq_eq, List.forall₂_map_right_iff]
    exact hwhole
  · exact (o.objectsFit_toJson true).imp fun _ _ hfit => ⟨hfit.path, hfit.order, hfit.lasting⟩

/-- The strict document of an annotation type with an element that has no default. -/
example : objects ((Outline.toJson ⟨"A", .annotationType, ⟨true, false, false, false, false, false⟩,
      [], [], [], [], [], [.element ⟨"v", "int", false⟩], []⟩).prune true)
    = [([], ["name", "kind", "public", "methods"]),
      ([.key "methods", .index 0], ["name", "returnType"])] := by
  rfl

end JavaOutline
