import JavaOutline.Proofs.DeclarationCodec
import JavaOutline.Proofs.RecordKeys

/-!
# JavaOutline.Proofs.KeyOrder

Reading a document does not depend on the order of its keys or on keys that it
does not know.

`Role.Agree` says that two documents are read alike at a role. A reader looks at a document only
through a few views of it: the value under a known key, the items of a list, the only entry of a
tagged value. So two documents are read alike if these views of them are (`Role.Corresponds`,
`Agree.of_corresponds`: one lemma for each reader), and respelling a document leaves its views
alike (`Corresponds.object`, `Corresponds.array`). A record that is the array of its values has
the views of the object it stands for (`Corresponds.keyed`). By induction over the document,
respelled documents are read alike (`Respelled.agree`).
-/

namespace JavaOutline

open Json

/-! ## Views -/

namespace Json

/-- A document without parts. -/
def scalar? : Json → Option Json
  | .array _ | .object _ => none
  | j => some j

/-- The only entry of an object. -/
def sole? : Json → Option (String × Json)
  | .object [e] => some e
  | _ => none

theorem text?_eq_bind (j : Json) : j.text? = j.scalar?.bind text? := by cases j <;> rfl

theorem flag?_eq_bind (j : Json) : j.flag? = j.scalar?.bind flag? := by cases j <;> rfl

theorem natural?_eq_bind (j : Json) : j.natural? = j.scalar?.bind natural? := by cases j <;> rfl

/-- A name is a text or the only key of an object, with `null` under it. -/
theorem name?_eq (j : Json) : j.name? =
    match j.scalar? with
    | some s => s.text?
    | none => j.sole?.bind fun e =>
      match e.2.scalar? with
      | some .null => some e.1
      | _ => none := by
  cases j with
  | object entries =>
      match entries with
      | [] => rfl
      | [(_, x)] => cases x <;> rfl
      | _ :: _ :: _ => simp [name?, scalar?, sole?]
  | _ => rfl

theorem listAt?_eq_bind {α : Type} (read : Json → Option α) (j : Json) (key : String) :
    j.listAt? read key = ((j.get? key).bind items?).bind (·.mapM read) := by
  rw [listAt?, Option.bind_assoc]
  rfl

/-- Forgetting the size, `tagged?` is the only entry. -/
theorem map_val_tagged? (j : Json) :
    j.tagged?.map (fun e => (e.1, e.2.val)) = j.sole? := by
  unfold tagged?
  split <;> simp_all [sole?]

end Json

/-! ## Readers of tagged values -/

namespace TypeRef

/-- Reads what stands under the tag of an applied type. -/
def readGeneric? (body : Json) : Option TypeRef := do
  let base ← body.get? "base"
  return .generic (← ofJson? base) (← body.listAt? ofJson? "args")

/-- Reads what stands under the tag of an array type. -/
def readArray? (body : Json) : Option TypeRef := do
  let element ← body.get? "element"
  return .array (← ofJson? element) (← body.naturalAt? "dimensions")

/-- Reads what stands under the tag of a wildcard. -/
def readWildcard? (body : Json) : Option TypeRef := do
  let isUpper ← body.flagAt? "is_upper_bound"
  match body.get? "bound" with
  | none | some .null => return .wildcard none isUpper
  | some bound => return .wildcard (some (← ofJson? bound)) isUpper

/-- What reading a type does, tag by tag. -/
theorem ofJson?_eq (j : Json) : ofJson? j = j.sole?.bind fun (tag, body) =>
    match tag with
    | "Raw" => do return .raw (← body.text?)
    | "Generic" => readGeneric? body
    | "Array" => readArray? body
    | "Wildcard" => readWildcard? body
    | _ => none := by
  rw [ofJson?, ← map_val_tagged?]
  cases j.tagged? with
  | none => rfl
  | some e =>
      obtain ⟨tag, body, hlt⟩ := e
      simp only [Option.bind_eq_bind, Option.bind_some, Option.map_some]
      split
      · simp
      · rw [readGeneric?, listAt?_eq_bind, ← map_val_child?, ← map_val_childItems?]
        cases body.child? "base" <;> cases body.childItems? "args" <;> simp [ofJsonAll?_eq_mapM]
      · rw [readArray?, ← map_val_child?]
        cases body.child? "element" <;> rfl
      · rw [readWildcard?, ← map_val_child?, optionalChild?]
        cases body.flagAt? "is_upper_bound" with
        | none => rfl
        | some isUpper =>
            cases body.child? "bound" with
            | none => rfl
            | some bound =>
                obtain ⟨bound, hbound⟩ := bound
                cases bound <;> rfl
      · simp_all

end TypeRef

/-- What reading a category does: the tag of a text, or a name. -/
theorem Category.ofJson?_eq (j : Json) : Category.ofJson? j =
    (j.sole?.bind fun e => if e.1 = "Other" then e.2.text?.map .other else none).or
      (j.name?.bind ofName?) := by
  cases j with
  | object entries =>
      match entries with
      | [] => rfl
      | [(tag, x)] =>
          by_cases htag : tag = "Other"
          · subst htag
            cases x <;> rfl
          · simp [ofJson?, sole?, htag]
      | _ :: _ :: _ => simp [ofJson?, sole?]
  | _ => rfl

/-- What reading a member does, tag by tag. -/
theorem Member.ofJson?_eq (j : Json) : Member.ofJson? j = j.sole?.bind fun (tag, body) =>
    match tag with
    | "Field" => do return .field (← Field.ofJson? body)
    | "Constructor" => do return .constructor (← Constructor.ofJson? body)
    | "Method" => do return .method (← Method.ofJson? body)
    | "AnnotationElement" => do return .element (← Element.ofJson? body)
    | "Type" => do return .type (← Declaration.ofJson? body)
    | _ => none := by
  rw [ofJson?, ← map_val_tagged?]
  cases j.tagged? <;> rfl

theorem Member.ofJsonAll?_eq_mapM (js : List Json) :
    Member.ofJsonAll? js = js.mapM Member.ofJson? := by
  induction js with
  | nil => rw [ofJsonAll?]; rfl
  | cons j js ih => rw [ofJsonAll?, ih, List.mapM_cons]

/-! ## Documents that are read alike -/

namespace Role

/-- The two documents are read alike where something with the given role is
expected. -/
def Agree (role : Role) (v w : Json) : Prop :=
  w.scalar? = v.scalar? ∧
  match role with
  | .unit => CompilationUnit.ofJson? w = CompilationUnit.ofJson? v
  | .declaration => Declaration.ofJson? w = Declaration.ofJson? v
  | .member => Member.ofJson? w = Member.ofJson? v
  | .field => Field.ofJson? w = Field.ofJson? v
  | .constructor => Constructor.ofJson? w = Constructor.ofJson? v
  | .method => Method.ofJson? w = Method.ofJson? v
  | .element => Element.ofJson? w = Element.ofJson? v
  | .parameter => Parameter.ofJson? w = Parameter.ofJson? v
  | .declarator => Variable.ofJson? w = Variable.ofJson? v
  | .category => Category.ofJson? w = Category.ofJson? v
  | .type => TypeRef.ofJson? w = TypeRef.ofJson? v
  | .genericType => TypeRef.readGeneric? w = TypeRef.readGeneric? v
  | .arrayType => TypeRef.readArray? w = TypeRef.readArray? v
  | .wildcardType => TypeRef.readWildcard? w = TypeRef.readWildcard? v
  | .outline => Outline.ofJson? w = Outline.ofJson? v
  | .fieldOutline => FieldOutline.ofJson? w = FieldOutline.ofJson? v
  | .constructorOutline => ConstructorOutline.ofJson? w = ConstructorOutline.ofJson? v
  | .methodEntry => MethodEntry.ofJson? w = MethodEntry.ofJson? v
  | .listOf item => Option.Rel (List.Forall₂ item.Agree) v.items? w.items?
  | .plain => w.name? = v.name?

theorem Agree.refl (role : Role) (v : Json) : role.Agree v v := by
  induction role generalizing v with
  | listOf item ih =>
      refine ⟨rfl, ?_⟩
      cases v.items? with
      | none => exact .none
      | some items => exact .some (List.forall₂_same.mpr fun x _ => ih x)
  | _ => exact ⟨rfl, rfl⟩

/-- The items of two arrays are read alike one by one. -/
def ItemsAgree (role : Role) (xs ys : List Json) : Prop :=
  xs.length = ys.length ∧ ∀ i x y, xs[i]? = some x → ys[i]? = some y → (role.itemAt i).Agree x y

/-- The parts of two documents at which something with the given role is read
are read alike. -/
structure Corresponds (role : Role) (v w : Json) : Prop where
  scalar : w.scalar? = v.scalar?
  items : Option.Rel role.ItemsAgree v.items? w.items?
  get (key : String) (hkey : role.ignores key = false) :
    Option.Rel (role.child key).Agree (v.get? key) (w.get? key)
  sole (htagged : role.isRecord = false) :
    Option.Rel (fun e f => e.1 = f.1 ∧ (role.child e.1).Agree e.2 f.2) v.sole? w.sole?

end Role

/-! ## Views of documents that are read alike -/

/-- Related values bound to functions that agree on them. -/
theorem bind_eq_of_rel {α β : Type} {R : α → α → Prop} {x y : Option α} {f g : α → Option β}
    (h : Option.Rel R x y) (hfg : ∀ a b, R a b → g b = f a) : y.bind g = x.bind f := by
  cases h with
  | none => rfl
  | some hab => exact hfg _ _ hab

theorem mapM_eq_of_forall₂ {α : Type} {R : Json → Json → Prop} {read : Json → Option α}
    {xs ys : List Json} (h : List.Forall₂ R xs ys) (hread : ∀ x y, R x y → read y = read x) :
    ys.mapM read = xs.mapM read := by
  induction h with
  | nil => rfl
  | cons hxy _ ih => rw [List.mapM_cons, List.mapM_cons, hread _ _ hxy, ih]

namespace Role

variable {role inner : Role} {v w : Json}

theorem Agree.scalar?_eq (h : role.Agree v w) : w.scalar? = v.scalar? := by
  cases role <;> exact h.1

theorem Agree.text?_eq (h : role.Agree v w) : w.text? = v.text? := by
  rw [text?_eq_bind w, text?_eq_bind v, h.scalar?_eq]

theorem Agree.name?_eq (h : Role.plain.Agree v w) : w.name? = v.name? := h.2

/-- Only `null` is read like `null`. -/
theorem Agree.eq_null_iff (h : role.Agree v w) : w = .null ↔ v = .null := by
  have hnull : ∀ j : Json, j = .null ↔ j.scalar? = some .null := fun j => by
    cases j <;> simp [scalar?]
  rw [hnull w, hnull v, h.scalar?_eq]

theorem Agree.flag?_eq (h : role.Agree v w) : w.flag? = v.flag? := by
  rw [flag?_eq_bind w, flag?_eq_bind v, h.scalar?_eq]

theorem Agree.natural?_eq (h : role.Agree v w) : w.natural? = v.natural? := by
  rw [natural?_eq_bind w, natural?_eq_bind v, h.scalar?_eq]

namespace Corresponds

/-- Records with the same keys and values that are read alike have their parts alike. -/
theorem of_entries {fs gs : List (String × Json)} (hrecord : role.isRecord = true)
    (hentries : List.Forall₂ (fun e g => e.1 = g.1 ∧ (role.child e.1).Agree e.2 g.2) fs gs) :
    role.Corresponds (.object fs) (.object gs) where
  scalar := rfl
  items := .none
  get key _ := lookup_of_forall₂ (R := fun key x y => (role.child key).Agree x y) hentries key
  sole htagged := by simp [hrecord] at htagged

/-- The items of a list are read alike. -/
theorem items_listOf (h : (listOf inner).Corresponds v w) :
    Option.Rel (List.Forall₂ inner.Agree) v.items? w.items? := by
  have hitems := h.items
  generalize v.items? = x, w.items? = y at hitems
  cases hitems with
  | none => exact .none
  | some hitems =>
      obtain ⟨hlength, hagree⟩ := hitems
      refine .some (List.forall₂_iff_get.mpr ⟨hlength, fun i hx hy => ?_⟩)
      exact hagree i _ _ (List.getElem?_eq_getElem hx) (List.getElem?_eq_getElem hy)

/-- The values of a record in an array are read alike if the items are: the keys have the roles of
the positions. -/
theorem zip_agree {keys : List String} {xs ys : List Json} (hlength : xs.length = keys.length)
    (hroles : keys.map role.child = (List.range keys.length).map role.itemAt)
    (h : role.ItemsAgree xs ys) :
    List.Forall₂ (fun e g => e.1 = g.1 ∧ (role.child e.1).Agree e.2 g.2)
      (keys.zip xs) (keys.zip ys) := by
  refine List.forall₂_iff_get.mpr ⟨by simp [h.1], fun i hx hy => ?_⟩
  simp only [List.get_eq_getElem, List.getElem_zip, true_and]
  rw [List.length_zip] at hx hy
  have hkey : i < keys.length := by omega
  have hrole : role.child keys[i] = role.itemAt i := by
    have hat := congrArg (·[i]?) hroles
    simpa [hkey] using hat
  rw [hrole]
  exact h.2 i _ _ (List.getElem?_eq_getElem (by omega)) (List.getElem?_eq_getElem (by omega))

/-- The record that an array stands for has its values read alike if the items of the array are:
the keys have the roles of the positions. -/
theorem keyed (h : role.Corresponds v w) (keys : List String) (hrecord : role.isRecord = true)
    (hroles : keys.map role.child = (List.range keys.length).map role.itemAt) :
    role.Corresponds (v.keyed keys) (w.keyed keys) := by
  have hscalar := h.scalar
  have hitems := h.items
  cases v with
  | array xs =>
      obtain ⟨ys, rfl⟩ : ∃ ys, w = .array ys := by
        cases w with
        | array ys => exact ⟨ys, rfl⟩
        | _ => nomatch hitems
      obtain ⟨hlength, hagree⟩ : role.ItemsAgree xs ys := by
        cases hitems with
        | some h => exact h
      simp only [Json.keyed, ← hlength]
      split
      · next hkeys =>
          exact .of_entries hrecord (zip_agree hkeys hroles ⟨hlength, hagree⟩)
      · exact h
  | _ =>
      have hsame : w.keyed keys = w := by
        cases w with
        | array ys => nomatch hitems
        | _ => rfl
      rw [hsame]
      exact h

/-- A name is read alike where no record is expected. -/
theorem name?_eq (h : role.Corresponds v w) (htagged : role.isRecord = false) :
    w.name? = v.name? := by
  rw [Json.name?_eq w, Json.name?_eq v, h.scalar]
  cases v.scalar? with
  | some s => rfl
  | none =>
      refine bind_eq_of_rel (h.sole htagged) fun e f ⟨htag, hbody⟩ => ?_
      rw [htag, hbody.scalar?_eq]

/-- What stands under a known key is read alike. -/
theorem get_known (h : role.Corresponds v w) (key : String)
    (hkey : role.fields.lookup key = some inner) :
    Option.Rel inner.Agree (v.get? key) (w.get? key) := by
  have hget := h.get key (by simp [ignores, hkey])
  rwa [child, hkey, Option.getD_some] at hget

theorem textAt?_eq (h : role.Corresponds v w) (key : String)
    (hkey : role.fields.lookup key = some .plain) : w.textAt? key = v.textAt? key :=
  bind_eq_of_rel (h.get_known key hkey) fun _ _ hxy => hxy.text?_eq

theorem flagAt?_eq (h : role.Corresponds v w) (key : String)
    (hkey : role.fields.lookup key = some .plain) : w.flagAt? key = v.flagAt? key :=
  bind_eq_of_rel (h.get_known key hkey) fun _ _ hxy => hxy.flag?_eq

theorem naturalAt?_eq (h : role.Corresponds v w) (key : String)
    (hkey : role.fields.lookup key = some .plain) : w.naturalAt? key = v.naturalAt? key :=
  bind_eq_of_rel (h.get_known key hkey) fun _ _ hxy => hxy.natural?_eq

/-- What is made of a list under a known key is the same if it does not tell
items apart that are read alike. -/
theorem bind_items?_eq {β : Type} (h : role.Corresponds v w) (key : String)
    (hkey : role.fields.lookup key = some (.listOf inner)) {f g : List Json → Option β}
    (hfg : ∀ xs ys, List.Forall₂ inner.Agree xs ys → g ys = f xs) :
    ((w.get? key).bind items?).bind g = ((v.get? key).bind items?).bind f := by
  rw [Option.bind_assoc, Option.bind_assoc]
  exact bind_eq_of_rel (h.get_known key hkey) fun _ _ hxy => bind_eq_of_rel hxy.2 hfg

/-- A list under a known key is read alike if its items are. -/
theorem listAt?_eq {α : Type} {read : Json → Option α} (h : role.Corresponds v w) (key : String)
    (hkey : role.fields.lookup key = some (.listOf inner))
    (hread : ∀ x y, inner.Agree x y → read y = read x) : w.listAt? read key = v.listAt? read key :=
  bind_eq_of_rel (h.get_known key hkey) fun _ _ hxy =>
    bind_eq_of_rel hxy.2 fun _ _ hitems => mapM_eq_of_forall₂ hitems hread

/-- A value that may be missing or `null` is read alike if it is where it is
neither. -/
theorem matchAt_eq {β : Type} (h : role.Corresponds v w) (key : String)
    (hkey : role.fields.lookup key = some inner) {missing : β} {f : Json → β}
    (hf : ∀ x y, inner.Agree x y → f y = f x) :
    (match w.get? key with
      | none | some .null => missing
      | some x => f x) =
    match v.get? key with
      | none | some .null => missing
      | some x => f x := by
  have hget := h.get_known key hkey
  generalize v.get? key = x, w.get? key = y at hget
  cases hget with
  | none => rfl
  | @some a b hab =>
      have hnull : b = .null ↔ a = .null := hab.eq_null_iff
      have hf : f b = f a := hf a b hab
      split <;> split <;> simp_all

theorem textsAt?_eq (h : role.Corresponds v w) (key : String)
    (hkey : role.fields.lookup key = some (.listOf .plain)) : w.textsAt? key = v.textsAt? key :=
  h.listAt?_eq key hkey fun _ _ hxy => hxy.text?_eq

theorem modifiersAt?_eq (h : role.Corresponds v w) (key : String)
    (hkey : role.fields.lookup key = some (.listOf .plain)) :
    w.listAt? Modifier.ofJson? key = v.listAt? Modifier.ofJson? key :=
  h.listAt?_eq key hkey fun _ _ hxy => by
    rw [Modifier.ofJson?, Modifier.ofJson?, hxy.name?_eq]

theorem typesAt?_eq (h : role.Corresponds v w) (key : String)
    (hkey : role.fields.lookup key = some (.listOf .type)) :
    w.listAt? TypeRef.ofJson? key = v.listAt? TypeRef.ofJson? key :=
  h.listAt?_eq key hkey fun _ _ hxy => hxy.2

/-- What stands under a known key is read alike, whatever is made of it. -/
theorem bind_get?_eq {α β : Type} {read : Json → Option α} (h : role.Corresponds v w)
    (key : String) (hkey : role.fields.lookup key = some inner)
    (hread : ∀ x y, inner.Agree x y → read y = read x) (f : α → Option β) :
    ((w.get? key).bind fun x => (read x).bind f) = (v.get? key).bind fun x => (read x).bind f :=
  bind_eq_of_rel (h.get_known key hkey) fun x y hxy => by rw [hread x y hxy]

theorem bind_typeAt_eq {β : Type} (h : role.Corresponds v w) (key : String)
    (hkey : role.fields.lookup key = some .type) (f : TypeRef → Option β) :
    ((w.get? key).bind fun x => (TypeRef.ofJson? x).bind f)
      = (v.get? key).bind fun x => (TypeRef.ofJson? x).bind f :=
  h.bind_get?_eq key hkey (fun _ _ hxy => hxy.2) f

end Corresponds

end Role

/-! ## Reading declarations -/

section Declarations

variable {v w : Json}

theorem Variable.ofJson?_eq_of_corresponds (h : Role.declarator.Corresponds v w) :
    Variable.ofJson? w = Variable.ofJson? v := by
  replace h := h.keyed ["name", "dimensions"] rfl rfl
  rw [Variable.ofJson?, Variable.ofJson?, h.textAt?_eq "name" rfl, h.naturalAt?_eq "dimensions" rfl]

theorem Parameter.ofJson?_eq_of_corresponds (h : Role.parameter.Corresponds v w) :
    Parameter.ofJson? w = Parameter.ofJson? v := by
  replace h := h.keyed ["name", "type_ref", "is_varargs"] rfl rfl
  simp only [Parameter.ofJson?, Option.bind_eq_bind, h.textAt?_eq "name" rfl,
    h.bind_typeAt_eq "type_ref" rfl, h.flagAt?_eq "is_varargs" rfl]

theorem Field.ofJson?_eq_of_corresponds (h : Role.field.Corresponds v w) :
    Field.ofJson? w = Field.ofJson? v := by
  replace h := h.keyed ["modifiers", "type_ref", "variables"] rfl rfl
  rw [Field.ofJson?, Field.ofJson?]
  generalize v.keyed _ = v, w.keyed _ = w at h ⊢
  have hvariables : w.listAt? Variable.ofJson? "variables"
      = v.listAt? Variable.ofJson? "variables" :=
    h.listAt?_eq "variables" rfl fun _ _ hxy => hxy.2
  simp only [Option.bind_eq_bind, h.modifiersAt?_eq "modifiers" rfl,
    h.bind_typeAt_eq "type_ref" rfl, hvariables]

theorem Role.Corresponds.parametersAt?_eq {role : Role} (h : role.Corresponds v w) (key : String)
    (hkey : role.fields.lookup key = some (.listOf .parameter)) :
    w.listAt? Parameter.ofJson? key = v.listAt? Parameter.ofJson? key :=
  h.listAt?_eq key hkey fun _ _ hxy => hxy.2

theorem Constructor.ofJson?_eq_of_corresponds (h : Role.constructor.Corresponds v w) :
    Constructor.ofJson? w = Constructor.ofJson? v := by
  replace h := h.keyed ["name", "modifiers", "parameters", "throws"] rfl rfl
  simp only [Constructor.ofJson?, Option.bind_eq_bind, h.textAt?_eq "name" rfl,
    h.modifiersAt?_eq "modifiers" rfl, h.parametersAt?_eq "parameters" rfl,
    h.typesAt?_eq "throws" rfl]

theorem Method.ofJson?_eq_of_corresponds (h : Role.method.Corresponds v w) :
    Method.ofJson? w = Method.ofJson? v := by
  replace h := h.keyed ["name", "modifiers", "return_type", "parameters", "throws"] rfl rfl
  simp only [Method.ofJson?, Option.bind_eq_bind, h.textAt?_eq "name" rfl,
    h.modifiersAt?_eq "modifiers" rfl, h.bind_typeAt_eq "return_type" rfl,
    h.parametersAt?_eq "parameters" rfl, h.typesAt?_eq "throws" rfl]

theorem Element.ofJson?_eq_of_corresponds (h : Role.element.Corresponds v w) :
    Element.ofJson? w = Element.ofJson? v := by
  replace h := h.keyed ["name", "modifiers", "return_type", "has_default"] rfl rfl
  simp only [Element.ofJson?, Option.bind_eq_bind, h.textAt?_eq "name" rfl,
    h.modifiersAt?_eq "modifiers" rfl, h.bind_typeAt_eq "return_type" rfl,
    h.flagAt?_eq "has_default" rfl]

theorem Declaration.ofJson?_eq_of_corresponds (h : Role.declaration.Corresponds v w) :
    Declaration.ofJson? w = Declaration.ofJson? v := by
  replace h := h.keyed Declaration.keys rfl rfl
  rw [Declaration.ofJson?_eq, Declaration.ofJson?_eq]
  generalize v.keyed _ = v, w.keyed _ = w at h ⊢
  have hcategory : ∀ f : Category → Option Declaration,
      ((w.get? "category").bind fun x => (Category.ofJson? x).bind f)
        = (v.get? "category").bind fun x => (Category.ofJson? x).bind f :=
    h.bind_get?_eq "category" rfl fun _ _ hxy => hxy.2
  refine h.bind_items?_eq "members" rfl fun xs ys hitems => ?_
  have hmembers : ys.mapM Member.ofJson? = xs.mapM Member.ofJson? :=
    mapM_eq_of_forall₂ hitems fun _ _ hxy => hxy.2
  simp only [Option.bind_eq_bind, h.textAt?_eq "name" rfl, hcategory,
    h.modifiersAt?_eq "modifiers" rfl, h.textsAt?_eq "annotations" rfl, h.typesAt?_eq "extends" rfl,
    h.typesAt?_eq "implements" rfl, h.parametersAt?_eq "components" rfl,
    Member.ofJsonAll?_eq_mapM, hmembers]

theorem CompilationUnit.ofJson?_eq_of_corresponds (h : Role.unit.Corresponds v w) :
    CompilationUnit.ofJson? w = CompilationUnit.ofJson? v := by
  replace h := h.keyed ["package", "imports", "types"] rfl rfl
  rw [CompilationUnit.ofJson?, CompilationUnit.ofJson?]
  generalize v.keyed _ = v, w.keyed _ = w at h ⊢
  have htypes : w.listAt? Declaration.ofJson? "types" = v.listAt? Declaration.ofJson? "types" :=
    h.listAt?_eq "types" rfl fun _ _ hxy => hxy.2
  have hpackage : w.optionalTextAt? "package" = v.optionalTextAt? "package" :=
    h.matchAt_eq "package" rfl fun _ _ hxy => by rw [hxy.text?_eq]
  simp only [htypes, hpackage, h.textsAt?_eq "imports" rfl]

theorem TypeRef.readGeneric?_eq_of_corresponds (h : Role.genericType.Corresponds v w) :
    readGeneric? w = readGeneric? v := by
  simp only [readGeneric?, Option.bind_eq_bind, h.bind_typeAt_eq "base" rfl,
    h.typesAt?_eq "args" rfl]

theorem TypeRef.readArray?_eq_of_corresponds (h : Role.arrayType.Corresponds v w) :
    readArray? w = readArray? v := by
  simp only [readArray?, Option.bind_eq_bind, h.bind_typeAt_eq "element" rfl,
    h.naturalAt?_eq "dimensions" rfl]

theorem TypeRef.readWildcard?_eq_of_corresponds (h : Role.wildcardType.Corresponds v w) :
    readWildcard? w = readWildcard? v := by
  rw [readWildcard?, readWildcard?, h.flagAt?_eq "is_upper_bound" rfl]
  refine Option.bind_congr fun isUpper _ => ?_
  exact h.matchAt_eq "bound" rfl fun _ _ hxy => by rw [hxy.2]

theorem TypeRef.ofJson?_eq_of_corresponds (h : Role.type.Corresponds v w) :
    TypeRef.ofJson? w = TypeRef.ofJson? v := by
  rw [ofJson?_eq, ofJson?_eq]
  refine bind_eq_of_rel (h.sole rfl) fun e f ⟨htag, hbody⟩ => ?_
  obtain ⟨tag, x⟩ := e
  obtain ⟨tag', y⟩ := f
  subst htag
  dsimp only at hbody ⊢
  split
  · rw [hbody.text?_eq]
  · exact (show Role.genericType.Agree x y from hbody).2
  · exact (show Role.arrayType.Agree x y from hbody).2
  · exact (show Role.wildcardType.Agree x y from hbody).2
  · rfl

theorem Category.ofJson?_eq_of_corresponds (h : Role.category.Corresponds v w) :
    Category.ofJson? w = Category.ofJson? v := by
  rw [ofJson?_eq w, ofJson?_eq v, h.name?_eq rfl]
  refine congrArg (Option.or · _) (bind_eq_of_rel (h.sole rfl) fun e f ⟨htag, hbody⟩ => ?_)
  rw [htag, hbody.text?_eq]

theorem Member.ofJson?_eq_of_corresponds (h : Role.member.Corresponds v w) :
    Member.ofJson? w = Member.ofJson? v := by
  rw [Member.ofJson?_eq, Member.ofJson?_eq]
  refine bind_eq_of_rel (h.sole rfl) fun e f ⟨htag, hbody⟩ => ?_
  obtain ⟨tag, x⟩ := e
  obtain ⟨tag', y⟩ := f
  subst htag
  dsimp only at hbody ⊢
  split
  · rw [(show Role.field.Agree x y from hbody).2]
  · rw [(show Role.constructor.Agree x y from hbody).2]
  · rw [(show Role.method.Agree x y from hbody).2]
  · rw [(show Role.element.Agree x y from hbody).2]
  · rw [(show Role.declaration.Agree x y from hbody).2]
  · rfl

end Declarations

/-! ## Reading outlines -/

section Outlines

variable {v w : Json} {role : Role}

theorem FieldOutline.ofJson?_eq_of_corresponds (h : Role.fieldOutline.Corresponds v w) :
    FieldOutline.ofJson? w = FieldOutline.ofJson? v := by
  have hflags : FieldFlags.ofJson? w = FieldFlags.ofJson? v := by
    simp only [FieldFlags.ofJson?, h.flagAt?_eq "public" rfl, h.flagAt?_eq "protected" rfl,
      h.flagAt?_eq "private" rfl, h.flagAt?_eq "final" rfl, h.flagAt?_eq "static" rfl,
      h.flagAt?_eq "transient" rfl, h.flagAt?_eq "volatile" rfl]
  rw [ofJson?, ofJson?, h.textAt?_eq "name" rfl, h.textAt?_eq "type" rfl, hflags]

theorem ConstructorOutline.ofJson?_eq_of_corresponds (h : Role.constructorOutline.Corresponds v w) :
    ConstructorOutline.ofJson? w = ConstructorOutline.ofJson? v := by
  have hflags : ConstructorFlags.ofJson? w = ConstructorFlags.ofJson? v := by
    simp only [ConstructorFlags.ofJson?, h.flagAt?_eq "public" rfl, h.flagAt?_eq "protected" rfl,
      h.flagAt?_eq "private" rfl]
  rw [ofJson?, ofJson?, h.textAt?_eq "name" rfl, hflags, h.textsAt?_eq "params" rfl,
    h.textsAt?_eq "throws" rfl]

/-- Both forms of an entry are read alike, so the same one is taken. -/
theorem MethodEntry.ofJson?_eq_of_corresponds (h : Role.methodEntry.Corresponds v w) :
    MethodEntry.ofJson? w = MethodEntry.ofJson? v := by
  have hflags : MethodFlags.ofJson? w = MethodFlags.ofJson? v := by
    simp only [MethodFlags.ofJson?, h.flagAt?_eq "public" rfl, h.flagAt?_eq "protected" rfl,
      h.flagAt?_eq "private" rfl, h.flagAt?_eq "abstract" rfl, h.flagAt?_eq "final" rfl,
      h.flagAt?_eq "static" rfl, h.flagAt?_eq "synchronized" rfl, h.flagAt?_eq "native" rfl,
      h.flagAt?_eq "default" rfl]
  have hmethod : MethodOutline.ofJson? w = MethodOutline.ofJson? v := by
    rw [MethodOutline.ofJson?, MethodOutline.ofJson?, h.textAt?_eq "name" rfl,
      h.textAt?_eq "returnType" rfl, hflags, h.textsAt?_eq "params" rfl,
      h.textsAt?_eq "throws" rfl]
  have hkeyed := h.keyed ["name", "returnType", "hasDefault"] rfl rfl
  have helement : ElementOutline.ofJson? w = ElementOutline.ofJson? v := by
    rw [ElementOutline.ofJson?, ElementOutline.ofJson?, hkeyed.textAt?_eq "name" rfl,
      hkeyed.textAt?_eq "returnType" rfl, hkeyed.flagAt?_eq "hasDefault" rfl]
  rw [MethodEntry.ofJson?, MethodEntry.ofJson?, hmethod, helement]

theorem Outline.ofJson?_eq_of_corresponds (h : Role.outline.Corresponds v w) :
    Outline.ofJson? w = Outline.ofJson? v := by
  have hkind : ∀ f : Kind → Option Outline,
      ((w.get? "kind").bind fun x => (Kind.ofJson? x).bind f)
        = (v.get? "kind").bind fun x => (Kind.ofJson? x).bind f :=
    h.bind_get?_eq "kind" rfl fun _ _ hxy => by
      rw [Kind.ofJson?, Kind.ofJson?, hxy.name?_eq]
  have hflags : TypeFlags.ofJson? w = TypeFlags.ofJson? v := by
    simp only [TypeFlags.ofJson?, h.flagAt?_eq "public" rfl, h.flagAt?_eq "protected" rfl,
      h.flagAt?_eq "private" rfl, h.flagAt?_eq "abstract" rfl, h.flagAt?_eq "final" rfl,
      h.flagAt?_eq "static" rfl]
  have hfields : w.listAt? FieldOutline.ofJson? "fields"
      = v.listAt? FieldOutline.ofJson? "fields" :=
    h.listAt?_eq "fields" rfl fun _ _ hxy => hxy.2
  have hconstructors : w.listAt? ConstructorOutline.ofJson? "constructors"
      = v.listAt? ConstructorOutline.ofJson? "constructors" :=
    h.listAt?_eq "constructors" rfl fun _ _ hxy => hxy.2
  have hmethods : w.listAt? MethodEntry.ofJson? "methods"
      = v.listAt? MethodEntry.ofJson? "methods" :=
    h.listAt?_eq "methods" rfl fun _ _ hxy => hxy.2
  rw [Outline.ofJson?_eq, Outline.ofJson?_eq]
  refine h.bind_items?_eq "inners" rfl fun xs ys hitems => ?_
  have hinners : ys.mapM Outline.ofJson? = xs.mapM Outline.ofJson? :=
    mapM_eq_of_forall₂ hitems fun _ _ hxy => hxy.2
  simp only [Option.bind_eq_bind, h.textAt?_eq "name" rfl, hkind, hflags,
    h.textsAt?_eq "extends" rfl, h.textsAt?_eq "implements" rfl, h.textsAt?_eq "annotations" rfl,
    hfields, hconstructors, hmethods, hinners]

end Outlines

/-! ## Respelled documents -/

/-- Documents whose parts are read alike are read alike. -/
theorem Role.Agree.of_corresponds {role : Role} {v w : Json} (h : role.Corresponds v w) :
    role.Agree v w := by
  cases role with
  | unit => exact ⟨h.scalar, CompilationUnit.ofJson?_eq_of_corresponds h⟩
  | declaration => exact ⟨h.scalar, Declaration.ofJson?_eq_of_corresponds h⟩
  | member => exact ⟨h.scalar, Member.ofJson?_eq_of_corresponds h⟩
  | field => exact ⟨h.scalar, Field.ofJson?_eq_of_corresponds h⟩
  | constructor => exact ⟨h.scalar, Constructor.ofJson?_eq_of_corresponds h⟩
  | method => exact ⟨h.scalar, Method.ofJson?_eq_of_corresponds h⟩
  | element => exact ⟨h.scalar, Element.ofJson?_eq_of_corresponds h⟩
  | parameter => exact ⟨h.scalar, Parameter.ofJson?_eq_of_corresponds h⟩
  | declarator => exact ⟨h.scalar, Variable.ofJson?_eq_of_corresponds h⟩
  | category => exact ⟨h.scalar, Category.ofJson?_eq_of_corresponds h⟩
  | type => exact ⟨h.scalar, TypeRef.ofJson?_eq_of_corresponds h⟩
  | genericType => exact ⟨h.scalar, TypeRef.readGeneric?_eq_of_corresponds h⟩
  | arrayType => exact ⟨h.scalar, TypeRef.readArray?_eq_of_corresponds h⟩
  | wildcardType => exact ⟨h.scalar, TypeRef.readWildcard?_eq_of_corresponds h⟩
  | outline => exact ⟨h.scalar, Outline.ofJson?_eq_of_corresponds h⟩
  | fieldOutline => exact ⟨h.scalar, FieldOutline.ofJson?_eq_of_corresponds h⟩
  | constructorOutline => exact ⟨h.scalar, ConstructorOutline.ofJson?_eq_of_corresponds h⟩
  | methodEntry => exact ⟨h.scalar, MethodEntry.ofJson?_eq_of_corresponds h⟩
  | listOf item => exact ⟨h.scalar, h.items_listOf⟩
  | plain => exact ⟨h.scalar, h.name?_eq rfl⟩

theorem Role.Corresponds.array {role : Role} {xs ys : List Json} (h : role.ItemsAgree xs ys) :
    role.Corresponds (.array xs) (.array ys) where
  scalar := rfl
  items := .some h
  get _ _ := .none
  sole _ := .none

section Objects

variable {role : Role} {fs gs added hs : List (String × Json)}

theorem map_fst_eq_of_forall₂ {R : String × Json → String × Json → Prop}
    (h : List.Forall₂ (fun e g => e.1 = g.1 ∧ R e g) fs gs) :
    gs.map Prod.fst = fs.map Prod.fst := by
  induction h with
  | nil => rfl
  | cons hhead _ ih => rw [List.map_cons, List.map_cons, hhead.1, ih]

/-- Objects that are no records have their only entry in common. -/
theorem sole?_of_forall₂ {R : String × Json → String × Json → Prop}
    (hentries : List.Forall₂ R fs gs) (hperm : hs.Perm gs) :
    Option.Rel R (Json.object fs).sole? (Json.object hs).sole? := by
  cases hentries with
  | nil =>
      rw [List.perm_nil.mp hperm]
      exact .none
  | cons hhead htail =>
      cases htail with
      | nil =>
          rw [List.perm_singleton.mp hperm]
          exact .some hhead
      | cons _ _ =>
          match hs, hperm.length_eq with
          | _ :: _ :: _, _ => exact .none

/-- Respelling an object leaves its parts alike if its values are. -/
theorem Role.Corresponds.object (hnodup : (fs.map Prod.fst).Nodup)
    (hentries : List.Forall₂ (fun e g => e.1 = g.1 ∧ (role.child e.1).Agree e.2 g.2) fs gs)
    (hadded : ∀ e ∈ added, role.ignores e.1 = true) (hperm : hs.Perm (gs ++ added)) :
    role.Corresponds (.object fs) (.object hs) where
  scalar := rfl
  items := .none
  get key hkey := by
    have hother : ∀ e ∈ added, e.1 ≠ key := by
      rintro e he rfl
      simp [hadded e he] at hkey
    have hgs : (gs.map Prod.fst).Nodup := by rwa [map_fst_eq_of_forall₂ hentries]
    have hlookup : hs.lookup key = gs.lookup key := lookup_of_perm_append hgs hother hperm
    show Option.Rel _ (fs.lookup key) (hs.lookup key)
    rw [hlookup]
    exact lookup_of_forall₂ (R := fun key x y => (role.child key).Agree x y) hentries key
  sole htagged := by
    have hnone : added = [] := by
      refine List.eq_nil_iff_forall_not_mem.mpr fun e he => ?_
      simpa [ignores, htagged] using hadded e he
    exact sole?_of_forall₂ hentries (by simpa [hnone] using hperm)

end Objects

theorem Respelled.agree {role : Role} {v w : Json} (h : Respelled role v w)
    (hunique : v.HasUniqueKeys) : role.Agree v w := by
  induction h with
  | same role v => exact Role.Agree.refl role v
  | array hlength hitems ih =>
      refine Role.Agree.of_corresponds (.array ⟨hlength, fun i x y hx hy => ?_⟩)
      have hmem : x ∈ _ := List.mem_of_getElem? hx
      exact ih i x y hx hy (hasUniqueKeys_array.mp hunique x hmem)
  | object hlength hkeys hvalues hadded hperm ih =>
      obtain ⟨hnodup, hunique⟩ := hasUniqueKeys_object.mp hunique
      refine Role.Agree.of_corresponds (.object hnodup ?_ hadded hperm)
      refine List.forall₂_iff_zip.mpr ⟨hlength, ?_⟩
      intro e g heg
      have he := hunique e (List.of_mem_zip heg).1
      exact ⟨hkeys (e, g) heg, ih (e, g) heg he⟩

/-- **Spelling does not matter**: permuting the entries of objects and adding
entries that no record knows, at any depths of a document, changes neither
whether it is read as a unit or as an outline nor what is read, and so not how
that is written again. -/
theorem reading_ignores_spelling {v w : Json} (hunique : v.HasUniqueKeys) :
    (Respelled .unit v w →
      CompilationUnit.ofJson? w = CompilationUnit.ofJson? v ∧
      (CompilationUnit.ofJson? w).map CompilationUnit.toJson
        = (CompilationUnit.ofJson? v).map CompilationUnit.toJson) ∧
    (Respelled .outline v w →
      Outline.ofJson? w = Outline.ofJson? v ∧
      (Outline.ofJson? w).map Outline.toJson = (Outline.ofJson? v).map Outline.toJson) := by
  constructor
  · intro h
    have hread : CompilationUnit.ofJson? w = CompilationUnit.ofJson? v := (h.agree hunique).2
    exact ⟨hread, by rw [hread]⟩
  · intro h
    have hread : Outline.ofJson? w = Outline.ofJson? v := (h.agree hunique).2
    exact ⟨hread, by rw [hread]⟩

/-! ## Documents written backwards -/

/-- An object with its entries backwards and one more in front. -/
def backwards (fs : List (String × Json)) (e : String × Json) : Json := .object (fs ++ [e]).reverse

theorem respelled_backwards {role : Role} {fs gs : List (String × Json)} {e : String × Json}
    (h : RespelledEntries role fs gs) (he : role.ignores e.1 = true) :
    Respelled role (.object fs) (backwards gs e) :=
  .of_entries h (List.forall_mem_singleton.mpr he) (List.reverse_perm _)

/-- The entries of the outline of an annotation type but for its methods. -/
def markerEntries : List (String × Json) :=
  [("name", .string "Marker"), ("kind", .string "Annotation"), ("public", .bool true),
    ("protected", .bool false), ("private", .bool false), ("abstract", .bool false),
    ("final", .bool false), ("static", .bool false), ("extends", .array []),
    ("implements", .array []), ("annotations", .array []), ("fields", .array []),
    ("constructors", .array []), ("inners", .array [])]

/-- The entries of the outline of an annotation element. -/
def markerElement : List (String × Json) :=
  [("name", .string "value"), ("returnType", .string "int"), ("hasDefault", .bool false)]

/-- The outline of an annotation type with one element. -/
def marker : Json := .object (markerEntries ++ [("methods", .array [.object markerElement])])

/-- The outline backwards, its element too, with an unknown entry in both. -/
def markerBackwards : Json :=
  backwards (markerEntries ++
    [("methods", Json.array [backwards markerElement ("since", .string "2")])])
    ("version", .ofNat 3)

theorem respelled_marker : Respelled .outline marker markerBackwards := by
  have helement : Respelled .methodEntry (.object markerElement)
      (backwards markerElement ("since", .string "2")) := respelled_backwards (.same _ _) rfl
  have hmethods : Respelled (.listOf .methodEntry) (.array [.object markerElement])
      (.array [backwards markerElement ("since", .string "2")]) :=
    .of_item [] helement
  have hentries : RespelledEntries .outline [("methods", .array [.object markerElement])]
      [("methods", .array [backwards markerElement ("since", .string "2")])] :=
    .cons ⟨rfl, hmethods⟩ .nil
  exact respelled_backwards (List.rel_append (RespelledEntries.same _ markerEntries) hentries) rfl

/-- The entries of a constructor. -/
def pointConstructor : List (String × Json) :=
  [("name", .string "Point"), ("modifiers", .array []), ("parameters", .array []),
    ("throws", .array [])]

/-- What stands in front of the members where a class is the array of its values. -/
def pointHead : List Json :=
  [.string "Point", .object [("Class", .null)], .array [], .array [], .array [], .array [],
    .array []]

/-- A unit with one class, the array of its values, with one constructor. -/
def pointUnit : Json :=
  .object [("package", .null), ("imports", .array []),
    ("types", .array [.array (pointHead ++
      [.array [.object [("Constructor", .object pointConstructor)]]])])]

/-- The unit backwards, its constructor too, with an unknown entry in both. -/
def pointUnitBackwards : Json :=
  backwards [("package", .null), ("imports", .array []),
    ("types", .array [.array (pointHead ++
      [.array [.object [("Constructor", backwards pointConstructor ("line", .ofNat 2))]]])])]
    ("path", .string "Point.java")

theorem respelled_pointUnit : Respelled .unit pointUnit pointUnitBackwards := by
  have hconstructor : Respelled .constructor (.object pointConstructor)
      (backwards pointConstructor ("line", .ofNat 2)) := respelled_backwards (.same _ _) rfl
  have hentries : RespelledEntries .member [("Constructor", .object pointConstructor)]
      [("Constructor", backwards pointConstructor ("line", .ofNat 2))] :=
    .cons ⟨rfl, hconstructor⟩ .nil
  have hmember : Respelled .member (.object _) (.object _) :=
    .of_values hentries
  have hmembers : Respelled (.listOf .member) (.array [_]) (.array [_]) :=
    .of_item [] hmember
  have hclass : Respelled .declaration (.array (pointHead ++ [.array [_]]))
      (.array (pointHead ++ [.array [_]])) := .of_item pointHead hmembers
  have htypes : Respelled (.listOf .declaration) (.array [_]) (.array [_]) :=
    .of_item [] hclass
  exact respelled_backwards
    (.cons ⟨rfl, .same _ _⟩ (.cons ⟨rfl, .same _ _⟩ (.cons ⟨rfl, htypes⟩ .nil))) rfl

theorem reading_ignores_spelling_backwards :
    (pointUnit.HasUniqueKeys ∧ Respelled .unit pointUnit pointUnitBackwards ∧
      CompilationUnit.ofJson? pointUnitBackwards = CompilationUnit.ofJson? pointUnit ∧
      (CompilationUnit.ofJson? pointUnit).isSome = true) ∧
    marker.HasUniqueKeys ∧ Respelled .outline marker markerBackwards ∧
      Outline.ofJson? markerBackwards = Outline.ofJson? marker ∧
      (Outline.ofJson? marker).isSome = true := by
  have hclass : Declaration.ofJson?
        (.array (pointHead ++ [.array [.object [("Constructor", .object pointConstructor)]]]))
      = some ⟨"Point", .classType, [], [], [], [], [], [.constructor ⟨"Point", [], [], []⟩]⟩ := by
    rw [Declaration.ofJson?_eq]
    simp only [Member.ofJsonAll?_eq_mapM, funext Member.ofJson?_eq]
    rfl
  have hunit : pointUnit.HasUniqueKeys := by
    simp [pointUnit, pointHead, pointConstructor]
  have hmarker : marker.HasUniqueKeys := by simp [marker, markerEntries, markerElement]
  refine ⟨⟨hunit, respelled_pointUnit, ?_, ?_⟩, hmarker, respelled_marker, ?_, ?_⟩
  · exact ((reading_ignores_spelling hunit).1 respelled_pointUnit).1
  · simp [CompilationUnit.ofJson?, pointUnit, listAt?, textsAt?, texts?, optionalTextAt?,
      get?, items?, List.lookup_cons, hclass]
  · exact ((reading_ignores_spelling hmarker).2 respelled_marker).1
  · rw [Outline.ofJson?_eq]
    rfl

end JavaOutline
