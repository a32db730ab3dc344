import JavaOutline.Proofs.DeclaringNodes
import JavaOutline.Proofs.StrictOutlines

/-!
# JavaOutline.Proofs.MemberListing

No member of a source file is lost on the way to its outline, and none is listed twice.

An outline leaves out members that have no place in it: elements outside of annotation
types, methods in them, components of types that are no records. Types that a file declares
have none of these (`Declaration.HoldsOwnSorts`), because their bodies are written by rules
that do not allow them. So the outline of each of them names every component, variable,
constructor, method, element and nested type, once and in order (`members_listed`).
-/

namespace JavaOutline

open Source Grammar Structure

/-! ## Members and their names -/

namespace Member

/-- The names of the fields that a member declares, one for each variable. -/
def fieldNames : Member → List String
  | .field f => f.declarators.map Variable.name
  | _ => []

/-- The name of the constructor that a member declares. -/
def constructorNames : Member → List String
  | .constructor c => [c.name]
  | _ => []

/-- The name of the method or the annotation element that a member declares. -/
def methodNames : Member → List String
  | .method m => [m.name]
  | .element e => [e.name]
  | _ => []

/-- The name of the type that a member declares. -/
def typeNames : Member → List String
  | .type d => [d.name]
  | _ => []

/-- The label of the node that a member other than a type is declared by. -/
def label? : Member → Option Label
  | .field _ => some .field
  | .constructor _ => some .constructor
  | .method _ => some .method
  | .element _ => some .element
  | .type _ => none

/-- Elements belong to annotation types, and methods to all others. -/
def BelongsTo (category : Category) : Member → Prop
  | .element _ => category = .annotationType
  | .method _ => category ≠ .annotationType
  | _ => True

end Member

/-- The name of an entry of the list of methods. -/
def MethodEntry.name : MethodEntry → String
  | .method m => m.name
  | .element e => e.name

/-- A declaration without components and members of sorts that do not belong to it, its nested
types apart. -/
structure Declaration.HoldsOwnSorts (d : Declaration) : Prop where
  components : d.components ≠ [] → d.category = .recordType
  members : ∀ m ∈ d.members, m.BelongsTo d.category

/-! ## Members of source files -/

/-- A member is declared by a node of its sort. -/
theorem exists_node_of_declared? {modifiers : List SyntaxTree} {t : SyntaxTree} {m : Member}
    {label : Label} (h : declared? modifiers t = some m) (hlabel : m.label? = some label) :
    ∃ ts, t = .node label ts := by
  unfold declared? at h
  split at h
  case h_1 => contradiction
  case h_6 =>
    split at h
    · contradiction
    · obtain rfl := Option.some.inj h
      contradiction
  all_goals
    obtain rfl := Option.some.inj h
    obtain rfl := Option.some.inj hlabel
    exact ⟨_, rfl⟩

theorem hasPath_of_member? {ts : List SyntaxTree} {t : SyntaxTree} {m : Member} {label : Label}
    (ht : t ∈ ts) (h : member? t = some m) (hlabel : m.label? = some label) :
    ParseTree.HasPath [.declaration, label] ts := by
  unfold member? at h
  split at h
  · next u =>
    obtain ⟨us, rfl⟩ := exists_node_of_declared? h hlabel
    exact ⟨_, ht, us, by simp, trivial⟩
  · next modifiers u =>
    obtain ⟨us, rfl⟩ := exists_node_of_declared? h hlabel
    exact ⟨_, ht, us, by simp, trivial⟩
  · contradiction

/-- There is a path from a type to each of its members. -/
theorem hasPath_of_mem_bodyMembers {ts : List SyntaxTree} {m : Member} {label : Label}
    (h : m ∈ bodyMembers ts) (hlabel : m.label? = some label) :
    ParseTree.HasPath [.body, .declaration, label] ts := by
  obtain ⟨us, hus, t, ht, hmember⟩ := exists_of_mem_bodyMembers h
  exact ⟨us, hus, hasPath_of_member? ht hmember hlabel⟩

/-- The label of an annotation type is its own, and all other types hold methods. -/
theorem label_of_category? {label : Label} {category : Category}
    (h : category? label = some category) :
    category = .annotationType ∧ label = .annotationType
      ∨ category ≠ .annotationType ∧ label ∈ methodTypes := by
  cases label <;> cases h <;> simp [methodTypes]

/-- A type that is declared by a node has members of its own sorts only. -/
theorem holdsOwnSorts_declarationOf {label : Label} {category : Category} {ts : List SyntaxTree}
    (modifiers : List SyntaxTree) (hcategory : category? label = some category)
    (h : HasOwnSorts label ts) :
    (declarationOf category modifiers ts (bodyMembers ts)).HoldsOwnSorts where
  components hne := Decidable.byContradiction fun hrecord => hne (if_neg hrecord)
  members m hm := by
    obtain ⟨hsame, hlabel⟩ | ⟨hother, hlabel⟩ := label_of_category? hcategory
    · cases m with
      | method => exact absurd (hasPath_of_mem_bodyMembers hm rfl) (h.no_method hlabel)
      | element => exact hsame
      | _ => trivial
    · cases m with
      | method => exact hother
      | element => exact absurd (hasPath_of_mem_bodyMembers hm rfl) (h.no_element hlabel)
      | _ => trivial

/-- **Types that a file declares have members of their own sorts only**, at any depth. -/
theorem holdsOwnSorts_of_parse {source : String} {u : CompilationUnit}
    (h : CompilationUnit.parse source = .ok u) {d : Declaration} (hd : u.Declares d) :
    d.HoldsOwnSorts := by
  obtain ⟨label, category, modifiers, ts, hcategory, rfl, hnodes⟩ :=
    comesFrom_of_parse allNodes_hasOwnSorts h hd
  cases hnodes with
  | node hsorts _ => exact holdsOwnSorts_declarationOf modifiers hcategory hsorts

/-! ## Lists of an outline -/

/-- The lists in the outline of a declaration name its members, each list those of its sorts in
order and nothing else. -/
structure Outline.ListsMembers (d : Declaration) (o : Outline) : Prop where
  name : o.name = d.name
  /-- Components come first; only records have any. -/
  fields : o.fields.map (·.name)
    = d.components.map (·.name) ++ d.members.flatMap Member.fieldNames
  components : d.components ≠ [] → o.kind = .recordType
  constructors : o.constructors.map (·.name) = d.members.flatMap Member.constructorNames
  methods : o.methods.map MethodEntry.name = d.members.flatMap Member.methodNames
  /-- Annotation types have elements and no methods, others have methods and no elements. -/
  sorts : (∀ m ∈ d.members, m.BelongsTo d.category) ∧ ∀ x ∈ o.methods, x.fits o.kind = true
  inners : o.inners.map (·.name) = d.members.flatMap Member.typeNames

/-- A list of the parts of one sort names what the members name, if members of other sorts
name nothing there. -/
theorem flatMap_filterMap_eq {sort? : Member → Option α} {partNames : α → List String}
    {names : Member → List String} {ms : List Member}
    (h : ∀ m ∈ ms, ((sort? m).map partNames).getD [] = names m) :
    (ms.filterMap sort?).flatMap partNames = ms.flatMap names := by
  induction ms with
  | nil => rfl
  | cons m ms ih =>
      obtain ⟨hm, hms⟩ := List.forall_mem_cons.mp h
      rw [List.flatMap_cons, ← hm, ← ih hms, List.filterMap_cons]
      cases sort? m <;> rfl

theorem map_filterMap_eq {sort? : Member → Option α} {partName : α → String}
    {names : Member → List String} {ms : List Member}
    (h : ∀ m ∈ ms, ((sort? m).map fun a => [partName a]).getD [] = names m) :
    (ms.filterMap sort?).map partName = ms.flatMap names := by
  rw [List.map_eq_flatMap, flatMap_filterMap_eq h]

section

variable (d : Declaration)

theorem names_fieldOutlines (h : d.components ≠ [] → d.category = .recordType) :
    d.fieldOutlines.map (·.name)
      = d.components.map (·.name) ++ d.members.flatMap Member.fieldNames := by
  have hcomponents : (if d.kind = .recordType then d.components.map FieldOutline.ofComponent
      else []).map (·.name) = d.components.map (·.name) := by
    by_cases hnil : d.components = []
    · simp [hnil]
    · rw [if_pos (Declaration.kind_eq_recordType.mpr (h hnil)), List.map_map]
      rfl
  have hfields : (d.fields.flatMap (FieldOutline.ofField d.kind)).map (·.name)
      = d.members.flatMap Member.fieldNames := by
    rw [List.map_flatMap, Declaration.fields]
    refine flatMap_filterMap_eq fun m _ => ?_
    cases m with
    | field f => simp [Member.field?, Member.fieldNames, FieldOutline.ofField]
    | _ => rfl
  rw [Declaration.fieldOutlines, List.map_append, hcomponents, hfields]

theorem names_constructors : (d.constructors.map ConstructorOutline.ofConstructor).map (·.name)
    = d.members.flatMap Member.constructorNames := by
  rw [List.map_map, Declaration.constructors]
  exact map_filterMap_eq fun m _ => by cases m <;> rfl

theorem names_methodEntries (h : ∀ m ∈ d.members, m.BelongsTo d.category) :
    d.methodEntries.map MethodEntry.name = d.members.flatMap Member.methodNames := by
  rw [Declaration.methodEntries]
  split
  · next hkinds =>
    rw [List.map_map, Declaration.elements]
    refine map_filterMap_eq fun m hm => ?_
    cases m with
    | method => exact absurd (Declaration.kind_eq_annotationType.mp hkinds) (h _ hm)
    | _ => rfl
  · next hother =>
    rw [List.map_map, Declaration.methods]
    refine map_filterMap_eq fun m hm => ?_
    cases m with
    | element => exact absurd (Declaration.kind_eq_annotationType.mpr (h _ hm)) hother
    | _ => rfl

theorem names_inners (enclosing : Option Kind) :
    (d.nested.map (Outline.ofDeclaration · enclosing)).map (·.name)
      = d.members.flatMap Member.typeNames := by
  rw [List.map_map, Declaration.nested]
  refine map_filterMap_eq fun m _ => ?_
  cases m with
  | type d => simp [Member.type?, Member.typeNames]
  | _ => rfl

end

/-- The outline of a declaration lists its members if they are of its own sorts. -/
theorem Declaration.HoldsOwnSorts.listsMembers {d : Declaration} (h : d.HoldsOwnSorts)
    (enclosing : Option Kind) : Outline.ListsMembers d (.ofDeclaration d enclosing) := by
  rw [Outline.ofDeclaration_eq]
  exact {
    name := rfl
    fields := names_fieldOutlines d h.components
    components := fun hne => Declaration.kind_eq_recordType.mpr (h.components hne)
    constructors := names_constructors d
    methods := names_methodEntries d h.members
    sorts := ⟨h.members, List.all_eq_true.mp d.fits_methodEntries⟩
    inners := names_inners d (some d.kind) }

/-- **No member of a source file is lost or listed twice**: the outline of every type that the
file declares, at any depth, lists the members of the type and nothing else. -/
theorem members_listed {source : String} {u : CompilationUnit}
    (h : CompilationUnit.parse source = .ok u) :
    ∀ d ∈ u.types, ∀ enclosing, Outline.Throughout (fun d _ o => Outline.ListsMembers d o)
      d enclosing (.ofDeclaration d enclosing) := by
  intro d hd enclosing
  refine Outline.throughout_ofDeclaration (fun _ h _ hd => h.nested hd) ?_
    (CompilationUnit.declares_of_mem hd) enclosing
  intro d enclosing hdeclared
  exact (holdsOwnSorts_of_parse h hdeclared).listsMembers enclosing

/-- A class with two variables in one statement, an initializer, a constructor and a method in
whose body a class is declared, around an annotation type with an element and a constant. -/
def sampleMembers : String :=
  "class A \x7b int a, b[]; static \x7b\x7d A() \x7b\x7d void m() \x7b class L \x7b\x7d \x7d "
    ++ "@interface B \x7b int v() default 0; int K = 1; \x7d \x7d"

theorem members_listed_sampleMembers : ∃ u, CompilationUnit.parse sampleMembers = .ok u
    ∧ u.types.flatMap (fun d => (Outline.ofDeclaration d none).inners.flatMap fun o =>
        o.fields.map (·.name) ++ o.methods.map MethodEntry.name) = ["K", "v"]
    ∧ ∀ d ∈ u.types, Outline.Throughout (fun d _ o => Outline.ListsMembers d o)
        d none (.ofDeclaration d none) := by
  have hnames : ∃ u, CompilationUnit.parse sampleMembers = .ok u
      ∧ u.types.flatMap (fun d => (Outline.ofDeclaration d none).inners.flatMap fun o =>
          o.fields.map (·.name) ++ o.methods.map MethodEntry.name) = ["K", "v"] :=
    CompilationUnit.exists_parse_of_check (by decide +kernel)
  obtain ⟨u, hu, hnames⟩ := hnames
  exact ⟨u, hu, hnames, fun d hd => members_listed hu d hd none⟩

end JavaOutline
