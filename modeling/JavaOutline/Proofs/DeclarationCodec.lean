import JavaOutline.Declaration.Codec
import JavaOutline.Proofs.OutlineCodec

/-!
# JavaOutline.Proofs.DeclarationCodec

Reading undoes writing: the JSON form of a file is read back as the file it was
written from.

Numbers are the only parts with a limit: a reader takes no dimensions of `2 ^ 64` or
more, so this is asked of every array and of every variable (`DimensionsFit`).
Everything else is free: names, categories, missing packages and bounds, and how deep
types are nested in types and declarations in declarations.
-/

namespace JavaOutline

open Json

/-! ## Files with dimensions that fit -/

/-- Every array in the type has fewer than `UInt64.size` dimensions. -/
inductive TypeRef.DimensionsFit : TypeRef → Prop
  | raw (name : String) : DimensionsFit (.raw name)
  | generic {base : TypeRef} {args : List TypeRef} (hbase : DimensionsFit base)
      (hargs : ∀ a ∈ args, DimensionsFit a) : DimensionsFit (.generic base args)
  | array {element : TypeRef} {n : Nat} (helement : DimensionsFit element) (hn : n < UInt64.size) :
      DimensionsFit (.array element n)
  | unbounded (isUpper : Bool) : DimensionsFit (.wildcard none isUpper)
  | bounded {bound : TypeRef} (hbound : DimensionsFit bound) (isUpper : Bool) :
      DimensionsFit (.wildcard (some bound) isUpper)

/-- The dimensions in the type of a parameter fit. -/
def Parameter.DimensionsFit (p : Parameter) : Prop := p.type.DimensionsFit

/-- The dimensions of a field statement and of each of its variables fit. -/
structure Field.DimensionsFit (f : Field) : Prop where
  type : f.type.DimensionsFit
  declarators : ∀ v ∈ f.declarators, v.dimensions < UInt64.size

/-- The dimensions in the types of a constructor fit. -/
structure Constructor.DimensionsFit (c : Constructor) : Prop where
  parameters : ∀ p ∈ c.parameters, p.DimensionsFit
  throws : ∀ t ∈ c.throws, t.DimensionsFit

/-- The dimensions in the types of a method fit. -/
structure Method.DimensionsFit (m : Method) : Prop where
  returnType : m.returnType.DimensionsFit
  parameters : ∀ p ∈ m.parameters, p.DimensionsFit
  throws : ∀ t ∈ m.throws, t.DimensionsFit

/-- The dimensions in the type of an annotation element fit. -/
def Element.DimensionsFit (e : Element) : Prop := e.returnType.DimensionsFit

/-- The dimensions in the types in front of the members of a declaration fit. -/
structure Declaration.HeadDimensionsFit (d : Declaration) : Prop where
  superclasses : ∀ t ∈ d.superclasses, t.DimensionsFit
  interfaces : ∀ t ∈ d.interfaces, t.DimensionsFit
  components : ∀ p ∈ d.components, p.DimensionsFit

mutual
/-- The dimensions in a member fit. -/
inductive Member.DimensionsFit : Member → Prop
  | field {f : Field} (h : f.DimensionsFit) : Member.DimensionsFit (.field f)
  | constructor {c : Constructor} (h : c.DimensionsFit) : Member.DimensionsFit (.constructor c)
  | method {m : Method} (h : m.DimensionsFit) : Member.DimensionsFit (.method m)
  | element {e : Element} (h : e.DimensionsFit) : Member.DimensionsFit (.element e)
  | type {d : Declaration} (h : Declaration.DimensionsFit d) : Member.DimensionsFit (.type d)

/-- The dimensions in a declaration fit, at any depth of its members. -/
inductive Declaration.DimensionsFit : Declaration → Prop
  | mk {d : Declaration} (hhead : d.HeadDimensionsFit)
      (hmembers : ∀ m ∈ d.members, Member.DimensionsFit m) : Declaration.DimensionsFit d
end

/-- All dimensions in a file fit. -/
def CompilationUnit.DimensionsFit (u : CompilationUnit) : Prop := ∀ d ∈ u.types, d.DimensionsFit

/-! ## Numbers -/

/-- A number that fits is read back. -/
theorem Json.natural?_ofNat {n : Nat} (h : n < UInt64.size) : (ofNat n).natural? = some n := if_pos h

/-! ## Types -/

namespace TypeRef

theorem ofJsonAll?_eq_mapM (js : List Json) : ofJsonAll? js = js.mapM ofJson? := by
  induction js with
  | nil => rw [ofJsonAll?]; rfl
  | cons j js ih => rw [ofJsonAll?, ih, List.mapM_cons]

theorem toJsonAll_eq_map (ts : List TypeRef) : toJsonAll ts = ts.map toJson := by
  induction ts with
  | nil => rfl
  | cons t ts ih => rw [toJsonAll, ih, List.map_cons]

/-- No type is written as `null`, so a bound is never taken for a missing one. -/
theorem exists_toJson_eq_object (t : TypeRef) : ∃ entries, t.toJson = .object entries := by
  cases t with
  | wildcard bound => cases bound <;> exact ⟨_, by rw [toJson]⟩
  | _ => exact ⟨_, by rw [toJson]⟩

/-- A type with arguments is read back if its parts are. -/
theorem ofJson?_generic {base : TypeRef} {args : List TypeRef}
    (hbase : ofJson? base.toJson = some base) (hargs : ∀ a ∈ args, ofJson? a.toJson = some a) :
    ofJson? (generic base args).toJson = some (generic base args) := by
  have hall : ofJsonAll? (toJsonAll args) = some args := by
    rw [ofJsonAll?_eq_mapM, toJsonAll_eq_map]
    exact mapM_map_eq_some_of_mem hargs
  rw [toJson, ofJson?]
  change (do return generic (← ofJson? base.toJson) (← ofJsonAll? (toJsonAll args))) = _
  rw [hbase, hall]
  rfl

/-- An array is read back if its element is and its dimensions fit. -/
theorem ofJson?_array {element : TypeRef} {n : Nat}
    (helement : ofJson? element.toJson = some element) (hn : n < UInt64.size) :
    ofJson? (array element n).toJson = some (array element n) := by
  rw [toJson, ofJson?]
  change (do return array (← ofJson? element.toJson) (← (ofNat n).natural?)) = _
  rw [helement, natural?_ofNat hn]
  rfl

/-- A wildcard is read back if its bound is. -/
theorem ofJson?_bounded {bound : TypeRef} (hbound : ofJson? bound.toJson = some bound)
    (isUpper : Bool) :
    ofJson? (wildcard (some bound) isUpper).toJson = some (wildcard (some bound) isUpper) := by
  obtain ⟨entries, hentries⟩ := bound.exists_toJson_eq_object
  rw [toJson, hentries, ofJson?]
  change (do return wildcard (some (← ofJson? (.object entries))) isUpper) = _
  rw [← hentries, hbound]
  rfl

/-- **The JSON form of a type is read back as the type**, by induction on how the type is
built. -/
theorem ofJson?_toJson {t : TypeRef} (h : t.DimensionsFit) : ofJson? t.toJson = some t := by
  induction h with
  | raw name => rw [toJson, ofJson?]; rfl
  | generic _ _ ihbase ihargs => exact ofJson?_generic ihbase ihargs
  | array _ hn ih => exact ofJson?_array ih hn
  | unbounded isUpper => rw [toJson, ofJson?]; rfl
  | bounded _ isUpper ih => exact ofJson?_bounded ih isUpper

end TypeRef

/-! ## Names of alternatives -/

@[simp] theorem Modifier.ofJson?_toJson (m : Modifier) : Modifier.ofJson? m.toJson = some m :=
  Modifier.ofKeyword?_keyword m

@[simp] theorem Category.ofJson?_toJson (c : Category) : Category.ofJson? c.toJson = some c := by
  cases c <;> rfl

/-! ## Lists -/

/-- A list under a key is read back if each of its items is. -/
theorem Json.listAt?_eq_some {read : Json → Option α} {write : α → Json} {j : Json} {key : String}
    {xs : List α} (hj : j.get? key = some (.array (xs.map write)))
    (h : ∀ a ∈ xs, read (write a) = some a) : j.listAt? read key = some xs := by
  have hxs : (xs.map write).mapM read = some xs := mapM_map_eq_some_of_mem h
  simpa [listAt?, hj, items?] using hxs

section

variable {j : Json} {key : String}

theorem listAt?_modifiers {ms : List Modifier} (hj : j.get? key = some (Modifier.toJsonAll ms)) :
    j.listAt? Modifier.ofJson? key = some ms :=
  listAt?_eq_some hj fun m _ => m.ofJson?_toJson

theorem listAt?_types {ts : List TypeRef} (hj : j.get? key = some (.array (ts.map TypeRef.toJson)))
    (h : ∀ t ∈ ts, t.DimensionsFit) : j.listAt? TypeRef.ofJson? key = some ts :=
  listAt?_eq_some hj fun t ht => TypeRef.ofJson?_toJson (h t ht)

end

/-! ## Parts of members -/

theorem Parameter.ofJson?_toJson {p : Parameter} (h : p.DimensionsFit) :
    Parameter.ofJson? p.toJson = some p := by
  have hkeyed : ∀ keys, p.toJson.keyed keys = p.toJson := fun _ => rfl
  have hname : p.toJson.textAt? "name" = some p.name := rfl
  have hget : p.toJson.get? "type_ref" = some p.type.toJson := rfl
  have htype : TypeRef.ofJson? p.type.toJson = some p.type := TypeRef.ofJson?_toJson h
  have hvarargs : p.toJson.flagAt? "is_varargs" = some p.isVarargs := rfl
  simp [Parameter.ofJson?, hkeyed, hname, hget, htype, hvarargs]

theorem listAt?_parameters {j : Json} {key : String} {ps : List Parameter}
    (hj : j.get? key = some (.array (ps.map Parameter.toJson)))
    (h : ∀ p ∈ ps, p.DimensionsFit) : j.listAt? Parameter.ofJson? key = some ps :=
  listAt?_eq_some hj fun p hp => Parameter.ofJson?_toJson (h p hp)

theorem Variable.ofJson?_toJson {v : Variable} (h : v.dimensions < UInt64.size) :
    Variable.ofJson? v.toJson = some v := by
  have hkeyed : ∀ keys, v.toJson.keyed keys = v.toJson := fun _ => rfl
  have hname : v.toJson.textAt? "name" = some v.name := rfl
  have hdimensions : v.toJson.naturalAt? "dimensions" = some v.dimensions := natural?_ofNat h
  simp [Variable.ofJson?, hkeyed, hname, hdimensions]

/-! ## Members -/

theorem Field.ofJson?_toJson {f : Field} (h : f.DimensionsFit) :
    Field.ofJson? f.toJson = some f := by
  have hkeyed : ∀ keys, f.toJson.keyed keys = f.toJson := fun _ => rfl
  have hmodifiers : f.toJson.listAt? Modifier.ofJson? "modifiers" = some f.modifiers :=
    listAt?_modifiers rfl
  have hget : f.toJson.get? "type_ref" = some f.type.toJson := rfl
  have htype : TypeRef.ofJson? f.type.toJson = some f.type := TypeRef.ofJson?_toJson h.type
  have hdeclarators : f.toJson.listAt? Variable.ofJson? "variables" = some f.declarators :=
    listAt?_eq_some rfl fun v hv => Variable.ofJson?_toJson (h.declarators v hv)
  simp [Field.ofJson?, hkeyed, hmodifiers, hget, htype, hdeclarators]

theorem Constructor.ofJson?_toJson {c : Constructor} (h : c.DimensionsFit) :
    Constructor.ofJson? c.toJson = some c := by
  have hkeyed : ∀ keys, c.toJson.keyed keys = c.toJson := fun _ => rfl
  have hname : c.toJson.textAt? "name" = some c.name := rfl
  have hmodifiers : c.toJson.listAt? Modifier.ofJson? "modifiers" = some c.modifiers :=
    listAt?_modifiers rfl
  have hparameters : c.toJson.listAt? Parameter.ofJson? "parameters" = some c.parameters :=
    listAt?_parameters rfl h.parameters
  have hthrows : c.toJson.listAt? TypeRef.ofJson? "throws" = some c.throws :=
    listAt?_types rfl h.throws
  simp [Constructor.ofJson?, hkeyed, hname, hmodifiers, hparameters, hthrows]

theorem Method.ofJson?_toJson {m : Method} (h : m.DimensionsFit) :
    Method.ofJson? m.toJson = some m := by
  have hkeyed : ∀ keys, m.toJson.keyed keys = m.toJson := fun _ => rfl
  have hname : m.toJson.textAt? "name" = some m.name := rfl
  have hmodifiers : m.toJson.listAt? Modifier.ofJson? "modifiers" = some m.modifiers :=
    listAt?_modifiers rfl
  have hget : m.toJson.get? "return_type" = some m.returnType.toJson := rfl
  have htype : TypeRef.ofJson? m.returnType.toJson = some m.returnType :=
    TypeRef.ofJson?_toJson h.returnType
  have hparameters : m.toJson.listAt? Parameter.ofJson? "parameters" = some m.parameters :=
    listAt?_parameters rfl h.parameters
  have hthrows : m.toJson.listAt? TypeRef.ofJson? "throws" = some m.throws :=
    listAt?_types rfl h.throws
  simp [Method.ofJson?, hkeyed, hname, hmodifiers, hget, htype, hparameters, hthrows]

theorem Element.ofJson?_toJson {e : Element} (h : e.DimensionsFit) :
    Element.ofJson? e.toJson = some e := by
  have hkeyed : ∀ keys, e.toJson.keyed keys = e.toJson := fun _ => rfl
  have hname : e.toJson.textAt? "name" = some e.name := rfl
  have hmodifiers : e.toJson.listAt? Modifier.ofJson? "modifiers" = some e.modifiers :=
    listAt?_modifiers rfl
  have hget : e.toJson.get? "return_type" = some e.returnType.toJson := rfl
  have htype : TypeRef.ofJson? e.returnType.toJson = some e.returnType := TypeRef.ofJson?_toJson h
  have hdefault : e.toJson.flagAt? "has_default" = some e.hasDefault := rfl
  simp [Element.ofJson?, hkeyed, hname, hmodifiers, hget, htype, hdefault]

/-! ## Declarations -/

/-- Forgetting the size, `recordItems?` is the array under the key. -/
theorem Json.map_val_recordItems? (j : Json) (keys : List String) (key : String) :
    (j.recordItems? keys key).map Subtype.val = ((j.keyed keys).get? key).bind items? := by
  unfold recordItems?
  split
  · next items h => simp [h, items?]
  · next h =>
      cases hget : (j.keyed keys).get? key with
      | none => rfl
      | some x =>
          cases x with
          | array items => exact absurd hget (h items)
          | _ => rfl

/-- What reading a declaration does, key by key. -/
theorem Declaration.ofJson?_eq (j : Json) : Declaration.ofJson? j = do
    let r := j.keyed Declaration.keys
    let members ← (r.get? "members").bind items?
    return {
      name := ← r.textAt? "name"
      category := ← Category.ofJson? (← r.get? "category")
      modifiers := ← r.listAt? Modifier.ofJson? "modifiers"
      annotations := ← r.textsAt? "annotations"
      superclasses := ← r.listAt? TypeRef.ofJson? "extends"
      interfaces := ← r.listAt? TypeRef.ofJson? "implements"
      components := ← r.listAt? Parameter.ofJson? "components"
      members := ← Member.ofJsonAll? members } := by
  dsimp only
  rw [Declaration.ofJson?, ← map_val_recordItems?]
  cases j.recordItems? Declaration.keys "members" <;> rfl

/-- A declaration is read back if the list of its members is. -/
theorem Declaration.ofJson?_of_members {d : Declaration} (h : d.HeadDimensionsFit)
    (hmembers : Member.ofJsonAll? (Member.toJsonAll d.members) = some d.members) :
    Declaration.ofJson? d.toJson = some d := by
  obtain ⟨name, category, modifiers, annotations, superclasses, interfaces, components, members⟩ :=
    d
  generalize hj : Declaration.toJson ⟨name, category, modifiers, annotations, superclasses,
    interfaces, components, members⟩ = j
  rw [Declaration.toJson] at hj
  have hname : j.textAt? "name" = some name := by rw [← hj]; rfl
  have hcategory : j.get? "category" = some category.toJson := by rw [← hj]; rfl
  have hmodifiers : j.listAt? Modifier.ofJson? "modifiers" = some modifiers :=
    listAt?_modifiers (by rw [← hj]; rfl)
  have hannotations : j.textsAt? "annotations" = some annotations := by
    rw [← hj]
    exact texts?_ofTexts annotations
  have hsuperclasses : j.listAt? TypeRef.ofJson? "extends" = some superclasses :=
    listAt?_types (by rw [← hj]; rfl) h.superclasses
  have hinterfaces : j.listAt? TypeRef.ofJson? "implements" = some interfaces :=
    listAt?_types (by rw [← hj]; rfl) h.interfaces
  have hcomponents : j.listAt? Parameter.ofJson? "components" = some components :=
    listAt?_parameters (by rw [← hj]; rfl) h.components
  have hget : (j.get? "members").bind items? = some (Member.toJsonAll members) := by rw [← hj]; rfl
  have hkeyed : j.keyed Declaration.keys = j := by rw [← hj]; rfl
  simp [Declaration.ofJson?_eq, hkeyed, hname, hcategory, hmodifiers, hannotations, hsuperclasses,
    hinterfaces, hcomponents, hget, hmembers]

mutual
/-- The JSON form of a member is read back as the member. -/
theorem Member.ofJson?_toJson : (m : Member) → m.DimensionsFit → Member.ofJson? m.toJson = some m
  | .field f, .field h => by
      have hf : Field.ofJson? f.toJson = some f := Field.ofJson?_toJson h
      simp [Member.toJson, Member.ofJson?, tagged?, hf]
  | .constructor c, .constructor h => by
      have hc : Constructor.ofJson? c.toJson = some c := Constructor.ofJson?_toJson h
      simp [Member.toJson, Member.ofJson?, tagged?, hc]
  | .method m, .method h => by
      have hm : Method.ofJson? m.toJson = some m := Method.ofJson?_toJson h
      simp [Member.toJson, Member.ofJson?, tagged?, hm]
  | .element e, .element h => by
      have he : Element.ofJson? e.toJson = some e := Element.ofJson?_toJson h
      simp [Member.toJson, Member.ofJson?, tagged?, he]
  | .type d, .type h => by
      have hd : Declaration.ofJson? d.toJson = some d := Declaration.ofJson?_toJson d h
      simp [Member.toJson, Member.ofJson?, tagged?, hd]

/-- The JSON form of a declaration is read back as the declaration. -/
theorem Declaration.ofJson?_toJson : (d : Declaration) → d.DimensionsFit →
    Declaration.ofJson? d.toJson = some d
  | ⟨_, _, _, _, _, _, _, members⟩, .mk hhead hmembers =>
    Declaration.ofJson?_of_members hhead (Member.ofJsonAll?_toJsonAll members hmembers)

/-- The JSON forms of a list of members are read back as the list. -/
theorem Member.ofJsonAll?_toJsonAll : (ms : List Member) → (∀ m ∈ ms, m.DimensionsFit) →
    Member.ofJsonAll? (Member.toJsonAll ms) = some ms
  | [], _ => by rw [Member.toJsonAll, Member.ofJsonAll?]
  | m :: ms, h => by
      obtain ⟨hm, hms⟩ := List.forall_mem_cons.mp h
      have hhead := Member.ofJson?_toJson m hm
      have htail := Member.ofJsonAll?_toJsonAll ms hms
      rw [Member.toJsonAll, Member.ofJsonAll?, hhead, htail]
      rfl
end

/-! ## Files -/

/-- A package is read back, and so is that there is none. -/
theorem CompilationUnit.optionalTextAt?_package (u : CompilationUnit) :
    u.toJson.optionalTextAt? "package" = some u.package := by
  obtain ⟨package, imports, types⟩ := u
  cases package <;> rfl

/-- **Reading undoes writing**: the JSON form of every file whose dimensions fit is read back
as that file. -/
theorem unit_read_back {u : CompilationUnit} (h : u.DimensionsFit) :
    CompilationUnit.ofJson? u.toJson = some u := by
  have htypes : u.toJson.listAt? Declaration.ofJson? "types" = some u.types :=
    listAt?_eq_some rfl fun d hd => Declaration.ofJson?_toJson d (h d hd)
  have hpackage := u.optionalTextAt?_package
  have himports : u.toJson.textsAt? "imports" = some u.imports := texts?_ofTexts u.imports
  have hkeyed : ∀ keys, u.toJson.keyed keys = u.toJson := fun _ => rfl
  simp [CompilationUnit.ofJson?, hkeyed, htypes, hpackage, himports]

/-- A file without a package that declares something of no known category; inside it is a
record with a variable of as many dimensions as there can be, a method and a wildcard
without a bound. -/
def sampleFile : CompilationUnit where
  package := none
  imports := ["java.util.*"]
  types :=
    [⟨"Odd", .other "module", [.nonSealed], ["a.B"], [], [], [],
      [.type ⟨"Inner", .recordType, [.publicAccess], [], [], [],
        [⟨"xs", .generic (.raw "List") [.wildcard none false], true⟩],
        [.field ⟨[], .raw "int", [⟨"n", UInt64.size - 1⟩]⟩,
          .method ⟨"m", [.default], .array (.raw "int") 2, [], [.raw "Failure"]⟩]⟩]⟩]

theorem dimensionsFit_sampleFile : sampleFile.DimensionsFit := by
  have hlist : (TypeRef.generic (.raw "List") [.wildcard none false]).DimensionsFit :=
    .generic (.raw _) (List.forall_mem_singleton.mpr (.unbounded _))
  have hfield : (Field.mk [] (.raw "int") [⟨"n", UInt64.size - 1⟩]).DimensionsFit :=
    ⟨.raw _, List.forall_mem_singleton.mpr (by decide)⟩
  have hmethod :
      (Method.mk "m" [.default] (.array (.raw "int") 2) [] [.raw "Failure"]).DimensionsFit :=
    ⟨.array (.raw _) (by decide), by simp, List.forall_mem_singleton.mpr (.raw _)⟩
  refine List.forall_mem_singleton.mpr (.mk ⟨by simp, by simp, by simp⟩ ?_)
  refine List.forall_mem_singleton.mpr (.type (.mk ⟨by simp, by simp, ?_⟩ ?_))
  · exact List.forall_mem_singleton.mpr hlist
  · exact List.forall_mem_cons.mpr
      ⟨.field hfield, List.forall_mem_singleton.mpr (.method hmethod)⟩

theorem unit_read_back_sampleFile : sampleFile.DimensionsFit ∧
    CompilationUnit.ofJson? sampleFile.toJson = some sampleFile :=
  ⟨dimensionsFit_sampleFile, unit_read_back dimensionsFit_sampleFile⟩

end JavaOutline
