import JavaOutline.Declaration.Codec
import JavaOutline.Outline.Codec
import JavaOutline.Proofs.OutlineRecords
import Mathlib.Data.List.Forall2
import Mathlib.Data.List.Nodup

/-!
# JavaOutline.Proofs.RecordKeys

Which keys the records of a document have, and when two documents differ only
in the order of entries and in entries that no record knows.

What may be added to an object depends on what it stands for, so every part of
a document is given a `Role`. `Role.fields` lists the keys that are known at a
role with the roles of what stands under them; they are the keys that are
written there (`Role.keys_unit_written`, `Role.keys_outline_written`). Where a
record is the array of its values, the same keys in order give the roles of the
items (`Role.itemAt`). `Respelled role v w` says that `w` is `v` with entries of
its objects permuted and unknown entries added, at any depths.

Where an object writes no key twice, both changes leave every known key with
the value it had, up to changes inside it (`lookup_of_perm_append`).
-/

namespace JavaOutline

/-! ## Roles -/

/-- What a part of a document stands for. -/
inductive Role where
  | unit | declaration | member | field | constructor | method | element | parameter | declarator
  | category | type | genericType | arrayType | wildcardType
  | outline | fieldOutline | constructorOutline | methodEntry
  /-- A list, each item with the same role. -/
  | listOf (item : Role)
  /-- A text, a flag, a number or the name of an alternative, and whatever stands
  under an unknown key. -/
  | plain

namespace Role

/-- The known keys at a role, in the order they are written, with the roles of
what stands under them. An entry of the list of methods has the keys of both
of its forms. -/
def fields : Role → List (String × Role)
  | .unit => [("package", .plain), ("imports", .listOf .plain), ("types", .listOf .declaration)]
  | .declaration => [("name", .plain), ("category", .category), ("modifiers", .listOf .plain),
      ("annotations", .listOf .plain), ("extends", .listOf .type), ("implements", .listOf .type),
      ("components", .listOf .parameter), ("members", .listOf .member)]
  | .member => [("Field", .field), ("Constructor", .constructor), ("Method", .method),
      ("AnnotationElement", .element), ("Type", .declaration)]
  | .field => [("modifiers", .listOf .plain), ("type_ref", .type),
      ("variables", .listOf .declarator)]
  | .constructor => [("name", .plain), ("modifiers", .listOf .plain),
      ("parameters", .listOf .parameter), ("throws", .listOf .type)]
  | .method => [("name", .plain), ("modifiers", .listOf .plain), ("return_type", .type),
      ("parameters", .listOf .parameter), ("throws", .listOf .type)]
  | .element => [("name", .plain), ("modifiers", .listOf .plain), ("return_type", .type),
      ("has_default", .plain)]
  | .parameter => [("name", .plain), ("type_ref", .type), ("is_varargs", .plain)]
  | .declarator => [("name", .plain), ("dimensions", .plain)]
  | .category => [("Other", .plain)]
  | .type => [("Raw", .plain), ("Generic", .genericType), ("Array", .arrayType),
      ("Wildcard", .wildcardType)]
  | .genericType => [("base", .type), ("args", .listOf .type)]
  | .arrayType => [("element", .type), ("dimensions", .plain)]
  | .wildcardType => [("bound", .type), ("is_upper_bound", .plain)]
  | .outline => [("name", .plain), ("kind", .plain), ("public", .plain), ("protected", .plain),
      ("private", .plain), ("abstract", .plain), ("final", .plain), ("static", .plain),
      ("extends", .listOf .plain), ("implements", .listOf .plain),
      ("annotations", .listOf .plain), ("fields", .listOf .fieldOutline),
      ("constructors", .listOf .constructorOutline), ("methods", .listOf .methodEntry),
      ("inners", .listOf .outline)]
  | .fieldOutline => [("name", .plain), ("type", .plain), ("public", .plain),
      ("protected", .plain), ("private", .plain), ("final", .plain), ("static", .plain),
      ("transient", .plain), ("volatile", .plain)]
  | .constructorOutline => [("name", .plain), ("public", .plain), ("protected", .plain),
      ("private", .plain), ("params", .listOf .plain), ("throws", .listOf .plain)]
  | .methodEntry => [("name", .plain), ("returnType", .plain), ("public", .plain),
      ("protected", .plain), ("private", .plain), ("abstract", .plain), ("final", .plain),
      ("static", .plain), ("synchronized", .plain), ("native", .plain), ("default", .plain),
      ("params", .listOf .plain), ("throws", .listOf .plain), ("hasDefault", .plain)]
  | .listOf _ | .plain => []

/-- Does an object with this role stand for a record? The others are tagged
alternatives, whose only key is the tag, and values that are no objects. -/
def isRecord : Role → Bool
  | .member | .category | .type | .listOf _ | .plain => false
  | _ => true

/-- The role of what stands under a key. -/
def child (role : Role) (key : String) : Role := (role.fields.lookup key).getD .plain

/-- May a record with this role be the array of its values? An entry of the list
of methods may, as an annotation element, but nothing in it is a record. -/
def hasArrayForm : Role → Bool
  | .unit | .declaration | .field | .constructor | .method | .element | .parameter
  | .declarator => true
  | _ => false

/-- The role of the item at a position of an array: all items of a list have one
role, those of a record have the roles of its keys in order. -/
def itemAt (role : Role) (i : Nat) : Role :=
  match role with
  | .listOf item => item
  | _ => if role.hasArrayForm then ((role.fields[i]?).map Prod.snd).getD .plain else .plain

/-- Is a key unknown to the record with this role? -/
def ignores (role : Role) (key : String) : Bool :=
  role.isRecord && (role.fields.lookup key).isNone

/-- The keys known at a role, in order. -/
def keys (role : Role) : List String := role.fields.map Prod.fst

/-- The parts of a unit are written with the known keys, in order. -/
theorem keys_unit_written (u : CompilationUnit) (d : Declaration) (f : Field) (c : Constructor)
    (m : Method) (e : Element) (p : Parameter) (x : Variable) :
    u.toJson.keys = unit.keys ∧ d.toJson.keys = declaration.keys ∧
    f.toJson.keys = field.keys ∧ c.toJson.keys = constructor.keys ∧
    m.toJson.keys = method.keys ∧ e.toJson.keys = element.keys ∧
    p.toJson.keys = parameter.keys ∧ x.toJson.keys = declarator.keys := by
  refine ⟨rfl, ?_, rfl, rfl, rfl, rfl, rfl, rfl⟩
  cases d
  rw [Declaration.toJson]
  rfl

/-- The parts of an outline are written with the known keys, in order; both
forms of an entry of the list of methods have only such keys. -/
theorem keys_outline_written (o : Outline) (f : FieldOutline) (c : ConstructorOutline)
    (m : MethodEntry) :
    o.toJson.keys = outline.keys ∧ f.toJson.keys = fieldOutline.keys ∧
    c.toJson.keys = constructorOutline.keys ∧ m.toJson.keys ⊆ methodEntry.keys := by
  refine ⟨by rw [Outline.keys_toJson]; rfl, rfl, rfl, ?_⟩
  cases m with
  | method m =>
      rw [MethodEntry.toJson, MethodOutline.keys_toJson]
      decide
  | element e =>
      rw [MethodEntry.toJson, ElementOutline.keys_toJson]
      decide

end Role

/-! ## Documents that differ in spelling -/

/-- No object of the document writes a key twice, at any depth. -/
inductive Json.HasUniqueKeys : Json → Prop
  | null : Json.null.HasUniqueKeys
  | bool (b : Bool) : (Json.bool b).HasUniqueKeys
  | number (n : Number) : (Json.number n).HasUniqueKeys
  | string (s : String) : (Json.string s).HasUniqueKeys
  | array {items : List Json} (hitems : ∀ x ∈ items, x.HasUniqueKeys) :
      (Json.array items).HasUniqueKeys
  | object {entries : List (String × Json)} (hnodup : (entries.map Prod.fst).Nodup)
      (hvalues : ∀ e ∈ entries, e.2.HasUniqueKeys) : (Json.object entries).HasUniqueKeys

namespace Json

@[simp] theorem hasUniqueKeys_null : Json.null.HasUniqueKeys := .null

@[simp] theorem hasUniqueKeys_bool (b : Bool) : (Json.bool b).HasUniqueKeys := .bool b

@[simp] theorem hasUniqueKeys_number (n : Number) : (Json.number n).HasUniqueKeys := .number n

@[simp] theorem hasUniqueKeys_string (s : String) : (Json.string s).HasUniqueKeys := .string s

@[simp] theorem hasUniqueKeys_array {items : List Json} :
    (Json.array items).HasUniqueKeys ↔ ∀ x ∈ items, x.HasUniqueKeys := by
  constructor
  · rintro (_ | _ | _ | _ | hitems | _)
    exact hitems
  · exact .array

@[simp] theorem hasUniqueKeys_object {entries : List (String × Json)} :
    (Json.object entries).HasUniqueKeys ↔
      (entries.map Prod.fst).Nodup ∧ ∀ e ∈ entries, e.2.HasUniqueKeys := by
  constructor
  · rintro (_ | _ | _ | _ | _ | ⟨hnodup, hvalues⟩)
    exact ⟨hnodup, hvalues⟩
  · exact fun h => .object h.1 h.2

end Json

/-- The second document is the first one with the entries of its objects
permuted and unknown entries added to its records, at any depths. -/
inductive Respelled : Role → Json → Json → Prop
  | same (role : Role) (v : Json) : Respelled role v v
  | array {role : Role} {xs ys : List Json} (hlength : xs.length = ys.length)
      (hitems : ∀ i x y, xs[i]? = some x → ys[i]? = some y → Respelled (role.itemAt i) x y) :
      Respelled role (.array xs) (.array ys)
  /-- First the values change, then unknown entries are added, then all entries
  are permuted. -/
  | object {role : Role} {fs gs added hs : List (String × Json)} (hlength : fs.length = gs.length)
      (hkeys : ∀ p ∈ fs.zip gs, p.1.1 = p.2.1)
      (hvalues : ∀ p ∈ fs.zip gs, Respelled (role.child p.1.1) p.1.2 p.2.2)
      (hadded : ∀ e ∈ added, role.ignores e.1 = true) (hperm : hs.Perm (gs ++ added)) :
      Respelled role (.object fs) (.object hs)

/-- Entries with the same keys whose values are respelled one by one. -/
def RespelledEntries (role : Role) : List (String × Json) → List (String × Json) → Prop :=
  List.Forall₂ fun e g => e.1 = g.1 ∧ Respelled (role.child e.1) e.2 g.2

theorem RespelledEntries.same (role : Role) (fs : List (String × Json)) :
    RespelledEntries role fs fs :=
  List.forall₂_same.mpr fun _ _ => ⟨rfl, .same _ _⟩

namespace Respelled

variable {role : Role} {xs ys : List Json} {fs gs added hs : List (String × Json)}

/-- Respelling the item at one position of an array. -/
theorem of_item (before : List Json) {after : List Json} {x y : Json}
    (h : Respelled (role.itemAt before.length) x y) :
    Respelled role (.array (before ++ x :: after)) (.array (before ++ y :: after)) := by
  refine .array (by simp) fun i a b ha hb => ?_
  by_cases hi : i = before.length
  · subst hi
    obtain rfl : x = a := by simpa using ha
    obtain rfl : y = b := by simpa using hb
    exact h
  · have heq : (before ++ x :: after)[i]? = (before ++ y :: after)[i]? := by
      rw [List.getElem?_append, List.getElem?_append]
      split
      · rfl
      · obtain ⟨k, hk⟩ : ∃ k, i - before.length = k + 1 := ⟨i - before.length - 1, by omega⟩
        rw [hk, List.getElem?_cons_succ, List.getElem?_cons_succ]
    obtain rfl : a = b := by rwa [ha, hb, Option.some.injEq] at heq
    exact .same _ _

theorem of_entries (h : RespelledEntries role fs gs)
    (hadded : ∀ e ∈ added, role.ignores e.1 = true) (hperm : hs.Perm (gs ++ added)) :
    Respelled role (.object fs) (.object hs) := by
  obtain ⟨hlength, hentries⟩ := List.forall₂_iff_zip.mp h
  exact .object hlength (fun _ hp => (hentries hp).1) (fun _ hp => (hentries hp).2) hadded hperm

theorem of_values (h : RespelledEntries role fs gs) : Respelled role (.object fs) (.object gs) :=
  of_entries h (List.forall_mem_nil _) (by simp)

end Respelled

/-! ## The same entry under every known key -/

theorem lookup_eq_head?_filter (entries : List (String × Json)) (key : String) :
    entries.lookup key = ((entries.filter (key == ·.1)).head?).map Prod.snd := by
  induction entries with
  | nil => rfl
  | cons e es ih =>
      obtain ⟨k, x⟩ := e
      by_cases h : (key == k) = true <;> simp [List.lookup_cons, h, ih]

/-- Where keys are unique, at most one entry has a given key. -/
theorem length_filter_key_le_one {entries : List (String × Json)}
    (hnodup : (entries.map Prod.fst).Nodup) (key : String) :
    (entries.filter (key == ·.1)).length ≤ 1 := by
  have hcount : (entries.filter (key == ·.1)).length = (entries.map Prod.fst).count key := by
    rw [List.count, List.countP_map, List.countP_eq_length_filter]
    simp only [Function.comp_def, Bool.beq_comm]
  rw [hcount]
  exact List.nodup_iff_count_le_one.mp hnodup key

theorem eq_of_perm_of_length_le_one {α : Type} {xs ys : List α} (hperm : xs.Perm ys)
    (hle : ys.length ≤ 1) : xs = ys := by
  match ys, hle with
  | [], _ => exact List.perm_nil.mp hperm
  | [_], _ => exact List.perm_singleton.mp hperm

/-- Permuting entries and adding entries with other keys does not change what
stands under a key. -/
theorem lookup_of_perm_append {gs added hs : List (String × Json)} {key : String}
    (hnodup : (gs.map Prod.fst).Nodup) (hadded : ∀ e ∈ added, e.1 ≠ key)
    (hperm : hs.Perm (gs ++ added)) : hs.lookup key = gs.lookup key := by
  have hnone : added.filter (key == ·.1) = [] :=
    List.filter_eq_nil_iff.mpr fun e he heq => hadded e he (eq_of_beq heq).symm
  have hfilter : (hs.filter (key == ·.1)).Perm (gs.filter (key == ·.1)) := by
    simpa [hnone] using hperm.filter (key == ·.1)
  have heq : hs.filter (key == ·.1) = gs.filter (key == ·.1) :=
    eq_of_perm_of_length_le_one hfilter (length_filter_key_le_one hnodup key)
  rw [lookup_eq_head?_filter, lookup_eq_head?_filter, heq]

/-- Entries with the same keys and related values have related values under
each key. -/
theorem lookup_of_forall₂ {R : String → Json → Json → Prop} {fs gs : List (String × Json)}
    (h : List.Forall₂ (fun e g => e.1 = g.1 ∧ R e.1 e.2 g.2) fs gs) (key : String) :
    Option.Rel (R key) (fs.lookup key) (gs.lookup key) := by
  induction h with
  | nil => exact .none
  | @cons e g fs gs hhead _ ih =>
      obtain ⟨k, x⟩ := e
      obtain ⟨k', y⟩ := g
      obtain ⟨rfl, hxy⟩ := hhead
      rw [List.lookup_cons, List.lookup_cons]
      by_cases hk : (key == k) = true
      · have hkey : key = k := eq_of_beq hk
        subst hkey
        simpa using Option.Rel.some hxy
      · simpa [hk] using ih

end JavaOutline
