import JavaOutline.Declaration.Basic
import JavaOutline.Proofs.CanonicalTypes

/-!
# JavaOutline.Proofs.SourceText

How a file is written down, and which files can be.

`CompilationUnit.toSource` writes what a file declares in the order of the language, with
one blank in front of words and of the braces of bodies; bodies of methods and
constructors are empty, constants of enumerations there are none, and a default value is
`0`. A file is *writable* if the language has a place for everything in it: names are no
keywords, types are canonical or names, modifiers are single words and written once, and
every type holds what its category admits.

Keywords of the grammar that are none of the language may be names too. Where one of them
would be read as a keyword the name is lost; `Opening.Reads` says which names are read in
the positions where that can happen.
-/

namespace JavaOutline

open Source Grammar

/-! ## Names -/

/-- Is the text a word, and not one that is a keyword everywhere? The underscore is one. -/
def isName (s : String) : Bool := isWord s && s != "_" && !keywords.contains s

/-- Does the text consist of names with dots between them? -/
def IsQualified (name : String) : Prop := ∀ w ∈ segments name, isName w = true

instance : DecidablePred IsQualified := fun name =>
  inferInstanceAs (Decidable (∀ w ∈ segments name, isName w = true))

/-- Does an import name something, or everything in something? -/
inductive IsImport : String → Prop
  | single {name : String} (h : IsQualified name) : IsImport name
  | everything {name : String} (h : IsQualified name) : IsImport (name ++ ".*")

theorem isWord_of_isName {w : String} (h : isName w = true) : isWord w = true := by
  rw [isName, Bool.and_eq_true, Bool.and_eq_true] at h
  exact h.1.1

theorem notMem_keywords_of_isName {w : String} (h : isName w = true) : w ∉ keywords := by
  rw [isName, Bool.and_eq_true] at h
  simpa using h.2

theorem IsQualified.isDotted {name : String} (h : IsQualified name) : IsDotted name :=
  fun w hw => isWord_of_isName (h w hw)

/-- A name is none of the signs and keywords in a list. -/
theorem notMem_of_isName {w : String} (h : isName w = true) {ss : List String}
    (hss : ∀ s ∈ ss, isName s = false) : w ∉ ss := by
  intro hw
  rw [hss w hw] at h
  contradiction

/-! ## Text -/

/-- A text with a blank in front. -/
def spaced (s : String) : String := " " ++ s

/-- Texts with commas between them. -/
def commaText (ss : List String) : String := ",".intercalate ss

/-- Modifiers, each of them a word. -/
def modifiersText (ms : List Modifier) : String := String.join (ms.map fun m => spaced m.keyword)

/-- Annotations without arguments. -/
def annotationsText (names : List String) : String :=
  String.join (names.map fun name => spaced "@" ++ name)

/-- A type. -/
def typeText (t : TypeRef) : String := spaced t.render

/-- A list of types behind a keyword; without types there is no keyword. -/
def clauseText (keyword : String) : List TypeRef → String
  | [] => ""
  | ts => spaced keyword ++ commaText (ts.map typeText)

/-- The body of a method. -/
def emptyBlock : String := spaced "\x7b" ++ "\x7d"

/-- A parameter. -/
def Parameter.toSource (p : Parameter) : String :=
  typeText p.type ++ ((if p.isVarargs then "..." else "") ++ spaced p.name)

/-- Parameters in parentheses. -/
def parametersText (ps : List Parameter) : String :=
  "(" ++ (commaText (ps.map Parameter.toSource) ++ ")")

/-- A variable with the brackets after its name. -/
def Variable.toSource (v : Variable) : String :=
  spaced v.name ++ String.join (List.replicate v.dimensions "[]")

/-- A field statement. -/
def Field.toSource (f : Field) : String :=
  String.join [modifiersText f.modifiers, typeText f.type,
    commaText (f.declarators.map Variable.toSource), ";"]

/-- A constructor. -/
def Constructor.toSource (c : Constructor) : String :=
  String.join [modifiersText c.modifiers, spaced c.name, parametersText c.parameters,
    clauseText "throws" c.throws, emptyBlock]

/-- A method. -/
def Method.toSource (m : Method) : String :=
  String.join [modifiersText m.modifiers, typeText m.returnType, spaced m.name,
    parametersText m.parameters, clauseText "throws" m.throws, emptyBlock]

/-- An element of an annotation type. -/
def Element.toSource (e : Element) : String :=
  String.join [modifiersText e.modifiers, typeText e.returnType, spaced e.name, "(", ")",
    if e.hasDefault then String.join [spaced "default", spaced "0", ";"] else ";"]

/-- The keyword of a category. -/
def Category.keyword : Category → String
  | .classType => "class"
  | .interfaceType => "interface"
  | .enumType => "enum"
  | .recordType => "record"
  | .annotationType => "@interface"
  | .other name => name

/-- A type between its modifiers and its body. -/
def Declaration.headText (d : Declaration) : String :=
  String.join [spaced d.category.keyword, spaced d.name,
    if d.category = .recordType then parametersText d.components else "",
    clauseText "extends" d.superclasses, clauseText "implements" d.interfaces]

/-- Members in braces; in an enumeration a semicolon stands in front of them. -/
def bodyText (category : Category) (members : String) : String :=
  String.join [spaced "\x7b", if category = .enumType then ";" else "", members, spaced "\x7d"]

mutual
/-- A member. -/
def Member.toSource : Member → String
  | .field f => f.toSource
  | .constructor c => c.toSource
  | .method m => m.toSource
  | .element e => e.toSource
  | .type d => Declaration.toSource d

/-- A type. -/
def Declaration.toSource : Declaration → String
  | ⟨name, category, modifiers, annotations, superclasses, interfaces, components, members⟩ =>
    String.join [annotationsText annotations, modifiersText modifiers,
      Declaration.headText ⟨name, category, modifiers, annotations, superclasses, interfaces,
        components, members⟩,
      bodyText category (membersText members)]

/-- Members one after another. -/
def membersText : List Member → String
  | [] => ""
  | m :: ms => Member.toSource m ++ membersText ms
end

theorem membersText_eq (ms : List Member) :
    membersText ms = String.join (ms.map Member.toSource) := by
  induction ms with
  | nil => rfl
  | cons m ms ih => rw [membersText, ih, List.map_cons, String.join_cons]

theorem Declaration.toSource_eq (d : Declaration) :
    d.toSource = String.join [annotationsText d.annotations, modifiersText d.modifiers, d.headText,
      bodyText d.category (membersText d.members)] := by
  cases d
  rw [toSource]

/-- The package of a file, if it has one. -/
def packageText : Option String → String
  | none => ""
  | some name => String.join [spaced "package", spaced name, ";"]

/-- An import. -/
def importText (name : String) : String := String.join [spaced "import", spaced name, ";"]

/-- A file: its package, its imports and its types. -/
def CompilationUnit.toSource (u : CompilationUnit) : String :=
  String.join [packageText u.package, String.join (u.imports.map importText),
    String.join (u.types.map Declaration.toSource)]

/-! ## Names that are read -/

/-- Where a name may be taken for the beginning of something else. -/
inductive Opening where
  /-- Behind the sign of an annotation. -/
  | annotationName
  /-- At the start of a constructor. -/
  | constructor
  /-- In place of a type. -/
  | type (place : Place)

/-- Is the name read as one in the position? -/
def Opening.Reads : Opening → String → Prop
  | .annotationName, name => ¬ "interface".toList <+: name.toList
  | .constructor, name => name ∉ Place.member.reserved
  | .type place, name => name ∉ place.reserved

instance (p : Opening) (name : String) : Decidable (p.Reads name) :=
  match p with
  | .annotationName => inferInstanceAs (Decidable (¬ "interface".toList <+: name.toList))
  | .constructor => inferInstanceAs (Decidable (name ∉ Place.member.reserved))
  | .type place => inferInstanceAs (Decidable (name ∉ place.reserved))

/-- Where the members of a category begin. -/
def Category.place : Category → Place
  | .annotationType => .annotationMember
  | _ => .member

/-! ## What can be written -/

/-- A canonical type, or a name of the given ones. -/
inductive TypeRef.IsSpelled (names : String → Prop) : TypeRef → Prop
  | canonical {t : TypeRef} (h : t.IsCanonical) : IsSpelled names t
  | name {w : String} (h : isName w = true) (hnames : names w) : IsSpelled names (.raw w)

/-- Modifiers that are single words, each of them once. -/
structure AreWritable (ms : List Modifier) : Prop where
  nodup : ms.Nodup
  nonSealed_notMem : .nonSealed ∉ ms

instance (ms : List Modifier) : Decidable (AreWritable ms) :=
  decidable_of_iff (ms.Nodup ∧ .nonSealed ∉ ms) ⟨fun h => ⟨h.1, h.2⟩, fun h => ⟨h.nodup, h.2⟩⟩

section

-- the names that may stand in each position
variable (names : Opening → String → Prop)

/-- A parameter that can be written. -/
structure Parameter.IsWritable (p : Parameter) : Prop where
  name : isName p.name = true
  type : p.type.IsSpelled (names (.type .parameter))

/-- A field statement that can be written as a member of a category. -/
structure Field.IsWritable (category : Category) (f : Field) : Prop where
  modifiers : AreWritable f.modifiers
  type : f.type.IsSpelled (names (.type category.place))
  declarators : f.declarators ≠ []
  names : ∀ v ∈ f.declarators, isName v.name = true

/-- A constructor that can be written. -/
structure Constructor.IsWritable (c : Constructor) : Prop where
  name : isName c.name = true
  reads : names .constructor c.name
  modifiers : AreWritable c.modifiers
  parameters : ∀ p ∈ c.parameters, p.IsWritable names
  throws : ∀ t ∈ c.throws, t.IsSpelled (names (.type .plain))

/-- A method that can be written. -/
structure Method.IsWritable (m : Method) : Prop where
  name : isName m.name = true
  modifiers : AreWritable m.modifiers
  returnType : m.returnType.IsSpelled (names (.type .member))
  parameters : ∀ p ∈ m.parameters, p.IsWritable names
  throws : ∀ t ∈ m.throws, t.IsSpelled (names (.type .plain))

/-- An element of an annotation type that can be written. -/
structure Element.IsWritable (e : Element) : Prop where
  name : isName e.name = true
  modifiers : AreWritable e.modifiers
  returnType : e.returnType.IsSpelled (names (.type .annotationMember))

/-- Has the declaration only the clauses that its category has a place for? -/
def Declaration.FitsCategory (d : Declaration) : Prop :=
  match d.category with
  | .classType => d.superclasses.length ≤ 1 ∧ d.components = []
  | .interfaceType => d.interfaces = [] ∧ d.components = []
  | .enumType => d.superclasses = [] ∧ d.components = []
  | .recordType => d.superclasses = []
  | .annotationType => d.superclasses = [] ∧ d.interfaces = [] ∧ d.components = []
  | .other _ => False

/-- May a type of the category have such a member? -/
def Category.Admits (category : Category) : Member → Prop
  | .field _ => True
  | .constructor _ => category ≠ .interfaceType ∧ category ≠ .annotationType
  | .method _ => category ≠ .annotationType
  | .element _ => category = .annotationType
  | .type d => category = .annotationType → d.category ≠ .recordType

/-- A declaration that can be written up to its body. -/
structure Declaration.HasWritableHead (d : Declaration) : Prop where
  name : isName d.name = true
  modifiers : AreWritable d.modifiers
  annotations : ∀ a ∈ d.annotations, IsQualified a ∧ names .annotationName a
  superclasses : ∀ t ∈ d.superclasses, t.IsSpelled (names (.type .plain))
  interfaces : ∀ t ∈ d.interfaces, t.IsSpelled (names (.type .plain))
  components : ∀ p ∈ d.components, p.IsWritable names
  fits : d.FitsCategory

theorem Declaration.HasWritableHead.category_ne {names : Opening → String → Prop}
    {d : Declaration} (h : d.HasWritableHead names) (name : String) :
    d.category ≠ .other name := by
  intro heq
  have hfits := h.fits
  rw [Declaration.FitsCategory, heq] at hfits
  exact hfits

mutual
/-- A member of a category that can be written. -/
inductive Member.IsWritable : Category → Member → Prop
  | field {category : Category} {f : Field} (h : f.IsWritable names category) :
      Member.IsWritable category (.field f)
  | constructor {category : Category} {c : Constructor} (h : c.IsWritable names) :
      Member.IsWritable category (.constructor c)
  | method {category : Category} {m : Method} (h : m.IsWritable names) :
      Member.IsWritable category (.method m)
  | element {category : Category} {e : Element} (h : e.IsWritable names) :
      Member.IsWritable category (.element e)
  | type {category : Category} {d : Declaration} (h : Declaration.IsWritable d) :
      Member.IsWritable category (.type d)

/-- A declaration that can be written, together with its members at any depth. -/
inductive Declaration.IsWritable : Declaration → Prop
  | mk {d : Declaration} (head : d.HasWritableHead names)
      (admits : ∀ m ∈ d.members, d.category.Admits m)
      (members : ∀ m ∈ d.members, Member.IsWritable d.category m) : Declaration.IsWritable d
end

theorem Declaration.IsWritable.head {names : Opening → String → Prop} {d : Declaration}
    (h : d.IsWritable names) : d.HasWritableHead names := by
  cases h
  assumption

/-- A file that can be written. -/
structure CompilationUnit.IsWritable (u : CompilationUnit) : Prop where
  package : ∀ name ∈ u.package, IsQualified name
  imports : ∀ name ∈ u.imports, IsImport name
  types : ∀ d ∈ u.types, d.IsWritable names

end

end JavaOutline
