import JavaOutline.Proofs.DeclarationMeaning
import JavaOutline.Proofs.FileReading

/-!
# JavaOutline.Proofs.ReadingBack

What is written down is read back: `CompilationUnit.parse` undoes
`CompilationUnit.toSource` for every file that can be written.

The three parts of that are put together here for the package, the imports and the types of
a file: their trees spell their texts, the grammar forms these trees, and the trees declare
what was written.
-/

namespace JavaOutline

open Source Grammar Structure

/-! ## Packages and imports -/

theorem package?_tree (name : String) : package? (packageTree name) = some name :=
  congrArg some (sourceText_nameTrees space name)

theorem import?_single (name : String) : import? (importTree name) = some name := by
  have htext : import? (importTree name)
      = some (ParseTree.sourceText (nameTrees space name) ++ "") := rfl
  rw [htext, sourceText_nameTrees, String.append_empty]

theorem import?_everything (name : String) :
    some (name ++ ".*") = import? (importAllTree name) := by
  have htext : import? (importAllTree name)
      = some (ParseTree.sourceText (nameTrees space name) ++ ".*") := rfl
  rw [htext, sourceText_nameTrees]

/-- Imports have trees that spell them and import the same. -/
theorem exists_importTrees {names : List String} (h : ∀ name ∈ names, IsImport name) :
    ∃ ts, (∀ t ∈ ts, IsImportTree t) ∧ AreWritten ts (String.join (names.map importText))
      ∧ ts.filterMap import? = names := by
  induction names with
  | nil => exact ⟨[], by simp, areWritten_nil, rfl⟩
  | cons name names ih =>
      rw [List.forall_mem_cons] at h
      obtain ⟨ts, hts, hwritten, himports⟩ := ih h.2
      rw [List.map_cons, String.join_cons]
      cases h.1 with
      | single hname =>
          refine ⟨importTree name :: ts, List.forall_mem_cons.mpr ⟨.single hname, hts⟩,
            (areWritten_import hname).append hwritten, ?_⟩
          rw [List.filterMap_cons, import?_single, himports]
      | @everything name hname =>
          refine ⟨importAllTree name :: ts, List.forall_mem_cons.mpr ⟨.everything hname, hts⟩,
            (areWritten_importAll hname).append hwritten, ?_⟩
          rw [List.filterMap_cons, ← import?_everything, himports]

/-! ## Blanks in front -/

/-- A text that begins with a blank, if with anything. -/
def BeginsBlank (s : String) : Prop := s = "" ∨ ∃ r, s = " " ++ r

section

variable {s r : String}

theorem beginsBlank_spaced (s : String) : BeginsBlank (spaced s) := .inr ⟨s, rfl⟩

theorem BeginsBlank.append (hs : BeginsBlank s) (hr : BeginsBlank r) : BeginsBlank (s ++ r) := by
  rcases hs with rfl | ⟨t, rfl⟩
  · rwa [String.empty_append]
  · exact .inr ⟨t ++ r, String.append_assoc⟩

theorem beginsBlank_spaced_append (s r : String) : BeginsBlank (spaced s ++ r) :=
  .inr ⟨s ++ r, String.append_assoc⟩

theorem beginsBlank_join {ss : List String} (h : ∀ s ∈ ss, BeginsBlank s) :
    BeginsBlank (String.join ss) := by
  induction ss with
  | nil => exact .inl rfl
  | cons s ss ih =>
      rw [List.forall_mem_cons] at h
      rw [String.join_cons]
      exact h.1.append (ih h.2)

/-- So a file does not begin with a byte order mark. -/
theorem BeginsBlank.head?_ne (h : BeginsBlank s) : s.toList.head? ≠ some '\ufeff' := by
  rcases h with rfl | ⟨r, rfl⟩
  · simp
  · simp [String.toList_append]

end

theorem beginsBlank_declaration (d : Declaration) : BeginsBlank d.toSource := by
  have hannotations : BeginsBlank (annotationsText d.annotations) :=
    beginsBlank_join (List.forall_mem_map.mpr fun _ _ => beginsBlank_spaced_append _ _)
  have hmodifiers : BeginsBlank (modifiersText d.modifiers) :=
    beginsBlank_join (List.forall_mem_map.mpr fun _ _ => beginsBlank_spaced _)
  have hhead : ∀ r, BeginsBlank (d.headText ++ r) := by
    intro r
    rw [Declaration.headText, String.join_cons, String.append_assoc]
    exact beginsBlank_spaced_append _ _
  rw [Declaration.toSource_eq, String.join_cons, String.join_cons, String.join_cons]
  exact hannotations.append (hmodifiers.append (hhead _))

theorem beginsBlank_unit (u : CompilationUnit) : BeginsBlank u.toSource := by
  have hpackage : BeginsBlank (packageText u.package) := by
    cases u.package with
    | none => exact .inl rfl
    | some name =>
        rw [packageText, String.join_cons]
        exact beginsBlank_spaced_append _ _
  have himports : BeginsBlank (String.join (u.imports.map importText)) :=
    beginsBlank_join (List.forall_mem_map.mpr fun name _ => by
      rw [importText, String.join_cons]
      exact beginsBlank_spaced_append _ _)
  have htypes : BeginsBlank (String.join (u.types.map Declaration.toSource)) :=
    beginsBlank_join (List.forall_mem_map.mpr fun d _ => beginsBlank_declaration d)
  rw [CompilationUnit.toSource, String.join_cons, String.join_cons, String.join_cons]
  exact hpackage.append (himports.append (htypes.append (.inl rfl)))

/-! ## Files -/

theorem tokens_tree_ne_nil (d : Declaration) : d.tree.tokens ≠ [] :=
  tokens_member_ne_nil (.type d)

theorem IsImportTree.tokens_ne_nil {t : SyntaxTree} (h : IsImportTree t) : t.tokens ≠ [] := by
  cases h with
  | single | everything => simp [importTree, importAllTree, ParseTree.tokens, ParseTree.tokensAll]

/-- The package of a file, if it has one. -/
def packageTrees (package : Option String) : List SyntaxTree := package.toList.map packageTree

theorem areWritten_packageTrees {package : Option String}
    (h : ∀ name ∈ package, IsQualified name) :
    AreWritten (packageTrees package) (packageText package) := by
  cases package with
  | none => exact areWritten_nil
  | some name => exact areWritten_package (h name rfl)

theorem filterMap_packageTrees (package : Option String) :
    (packageTrees package).filterMap package? = package.toList
      ∧ (packageTrees package).filterMap import? = []
      ∧ (packageTrees package).filterMap member? = [] := by
  cases package with
  | none => exact ⟨rfl, rfl, rfl⟩
  | some name => exact ⟨congrArg (fun x => [x].filterMap id) (package?_tree name), rfl, rfl⟩

theorem filterMap_importTrees {ts : List SyntaxTree} (h : ∀ t ∈ ts, IsImportTree t) :
    ts.filterMap package? = [] ∧ ts.filterMap member? = [] := by
  simp only [List.filterMap_eq_nil_iff]
  refine ⟨fun t ht => ?_, fun t ht => ?_⟩
  · cases h t ht <;> rfl
  · cases h t ht <;> rfl

/-- Types are no packages and no imports. -/
theorem filterMap_typeTrees {ds : List Declaration} (h : ∀ d ∈ ds, d.IsWritable Opening.Reads) :
    (ds.map Declaration.tree).filterMap package? = []
      ∧ (ds.map Declaration.tree).filterMap import? = []
      ∧ ((ds.map Declaration.tree).filterMap member?).filterMap Member.type? = ds := by
  have hlabel : ∀ ms t, package? (modified ms t) = none ∧ import? (modified ms t) = none := by
    intro ms t
    cases ms <;> exact ⟨rfl, rfl⟩
  refine ⟨?_, ?_, ?_⟩
  · rw [List.filterMap_eq_nil_iff]
    exact List.forall_mem_map.mpr fun d _ => by rw [Declaration.tree_eq, (hlabel _ _).1]
  · rw [List.filterMap_eq_nil_iff]
    exact List.forall_mem_map.mpr fun d _ => by rw [Declaration.tree_eq, (hlabel _ _).2]
  · rw [List.filterMap_filterMap]
    refine filterMap_map_eq_self fun d hd => ?_
    rw [member?_declaration (h d hd)]
    rfl

/-- The trees of a file declare what is in it. -/
theorem unitOf_trees {u : CompilationUnit} (h : u.IsWritable Opening.Reads) {imports : List SyntaxTree}
    (himports : ∀ t ∈ imports, IsImportTree t) (hnames : imports.filterMap import? = u.imports) :
    unitOf (packageTrees u.package ++ (imports ++ u.types.map Declaration.tree)
      ++ [.leaf (Token.finish [])]) = u := by
  obtain ⟨hpackage, hpackage', hpackage''⟩ := filterMap_packageTrees u.package
  obtain ⟨himport, himport'⟩ := filterMap_importTrees himports
  obtain ⟨htype, htype', htypes⟩ := filterMap_typeTrees h.types
  have hend : [ParseTree.leaf (Token.finish [])].filterMap package? = []
      ∧ [ParseTree.leaf (Token.finish [])].filterMap import? = []
      ∧ [ParseTree.leaf (Token.finish [])].filterMap member? = [] := ⟨rfl, rfl, rfl⟩
  have hlast : u.package.toList.getLast? = u.package := by cases u.package <;> rfl
  simp only [unitOf, members_eq_filterMap, List.filterMap_append, hpackage, hpackage', hpackage'',
    himport, himport', hnames, htype, htype', htypes, hend, List.append_nil, List.nil_append, hlast]

/-- The trees of a file: those of its parts, in the order of the language. -/
theorem exists_unitTrees {u : CompilationUnit} (h : u.IsWritable Opening.Reads) :
    ∃ ts, AreWritten ts u.toSource ∧ (∀ t ∈ ts, t.tokens ≠ [])
      ∧ (∀ t ∈ ts, ∀ rest, Reads 4 (.rule .topLevel) [t] rest)
      ∧ unitOf (ts ++ [.leaf (Token.finish [])]) = u := by
  obtain ⟨imports, himports, hwritten, hnames⟩ := exists_importTrees h.imports
  refine ⟨packageTrees u.package ++ (imports ++ u.types.map Declaration.tree), ?_, ?_, ?_, ?_⟩
  · have htypes := areWritten_map fun d hd => areWritten_tree (h.types d hd)
    rw [CompilationUnit.toSource, String.join_cons, String.join_cons, String.join_cons,
      String.join_nil, String.append_empty]
    exact (areWritten_packageTrees h.package).append (hwritten.append htypes)
  · simp only [List.forall_mem_append, packageTrees]
    refine ⟨List.forall_mem_map.mpr fun name _ => ?_, fun t ht => (himports t ht).tokens_ne_nil,
      List.forall_mem_map.mpr fun d _ => tokens_tree_ne_nil d⟩
    simp [packageTree, ParseTree.tokens, ParseTree.tokensAll]
  · simp only [List.forall_mem_append, packageTrees]
    exact ⟨List.forall_mem_map.mpr fun name _ _ => reads_package name,
      fun t ht _ => reads_import (himports t ht),
      List.forall_mem_map.mpr fun d hd _ => reads_tree (h.types d hd)⟩
  · exact unitOf_trees h himports hnames

/-- A file that can be written has the trees of its parts, which declare what is in it. -/
theorem exists_unitTrees?_toSource {u : CompilationUnit} (h : u.IsWritable Opening.Reads) :
    ∃ ts, Token.ofSource u.toSource = ParseTree.tokensAll ts ++ [Token.finish []]
      ∧ unitTrees? (Token.ofSource u.toSource) = some (ts ++ [.leaf (Token.finish [])])
      ∧ unitOf (ts ++ [.leaf (Token.finish [])]) = u := by
  obtain ⟨ts, hwritten, hne, hreads, hmeaning⟩ := exists_unitTrees h
  have htokens : Token.ofSource u.toSource = ParseTree.tokensAll ts ++ [Token.finish []] :=
    Token.ofSource_eq hwritten.spells.text.symm (beginsBlank_unit u).head?_ne
      (hwritten.spells.separated [] (stops_nil _)) hwritten.placed
  refine ⟨ts, htokens, ?_, hmeaning⟩
  rw [htokens]
  exact unitTrees?_eq hne hreads

/-- **What is written down is read back**: a file that can be written, with types of all
categories and members at any depth, is accepted and read as itself, if its names are read
wherever they might not be. -/
theorem CompilationUnit.parse_toSource {u : CompilationUnit} (h : u.IsWritable Opening.Reads) :
    CompilationUnit.parse u.toSource = .ok u := by
  obtain ⟨ts, -, htrees, hmeaning⟩ := exists_unitTrees?_toSource h
  rw [CompilationUnit.parse, htrees]
  simp only [hmeaning]

/-! ### An instance -/

/-- A record with a component. -/
def sampleRecord : Declaration :=
  ⟨"R", .recordType, [.static], [], [], [.raw "I"], [⟨"c", .raw "record", false⟩], []⟩

/-- An enumeration with a constructor. -/
def sampleEnum : Declaration :=
  ⟨"E", .enumType, [], [], [], [.raw "sealed"], [], [.constructor ⟨"module", [], [], []⟩]⟩

/-- An annotation type with elements of both sorts. -/
def sampleAnnotationType : Declaration :=
  ⟨"V", .annotationType, [], [], [], [], [],
    [.element ⟨"v", [], .raw "int", true⟩, .element ⟨"w", [.abstract], .raw "record", false⟩]⟩

/-- An interface with a method, and a type in it. -/
def sampleInterface : Declaration :=
  ⟨"N", .interfaceType, [], [], [.raw "I", .raw "J"], [], [],
    [.method ⟨"m", [.default], .raw "void", [], []⟩, .type sampleAnnotationType]⟩

/-- A class with members of the other sorts. -/
def sampleClass : Declaration where
  name := "T"
  category := .classType
  modifiers := [.publicAccess, .final]
  annotations := ["Marker", "x.interfaces"]
  superclasses := [.raw "B"]
  interfaces := [.raw "I", .raw "J"]
  components := []
  members := [
    .field ⟨[.privateAccess], .raw "int", [⟨"x", 0⟩, ⟨"y", 2⟩]⟩,
    .constructor ⟨"T", [], [⟨"p", .raw "int", false⟩, ⟨"q", .raw "A", true⟩], [.raw "X"]⟩,
    .method ⟨"m", [.static, .synchronized], .raw "open", [], [.raw "X", .raw "Y"]⟩,
    .type sampleRecord, .type sampleEnum, .type sampleInterface]

/-- A file with types of all categories. -/
def sampleUnit : CompilationUnit := ⟨some "a.b", ["c.*", "d.E"], [sampleClass]⟩

theorem isSpelled_raw {names : String → Prop} {name : String}
    (h : name ∈ primitiveTypes ∨ (isName name = true ∧ names name)) :
    (TypeRef.raw name).IsSpelled names := by
  rcases h with h | ⟨h, hnames⟩
  · exact .canonical (.element (.primitive h))
  · exact .name h hnames

theorem isSpelled_raws {names : String → Prop} (ws : List String)
    (h : ∀ w ∈ ws, w ∈ primitiveTypes ∨ (isName w = true ∧ names w)) :
    ∀ t ∈ ws.map TypeRef.raw, t.IsSpelled names :=
  List.forall_mem_map.mpr fun w hw => isSpelled_raw (h w hw)

theorem isWritable_sampleRecord : sampleRecord.IsWritable Opening.Reads := by
  refine .mk ?_ (by simp [sampleRecord]) (by simp [sampleRecord])
  exact {
    name := by decide
    modifiers := by decide
    annotations := by simp [sampleRecord]
    superclasses := by simp [sampleRecord]
    interfaces := isSpelled_raws ["I"] (by decide)
    components := List.forall_mem_singleton.mpr ⟨by decide, isSpelled_raw (by decide)⟩
    fits := rfl }

theorem isWritable_sampleEnum : sampleEnum.IsWritable Opening.Reads := by
  have hconstructor : (Member.constructor ⟨"module", [], [], []⟩).IsWritable Opening.Reads
      .enumType := .constructor ⟨by decide, by decide, by decide, by simp, by simp⟩
  refine .mk ?_ (by simp [sampleEnum, Category.Admits])
    (List.forall_mem_singleton.mpr hconstructor)
  exact {
    name := by decide
    modifiers := by decide
    annotations := by simp [sampleEnum]
    superclasses := by simp [sampleEnum]
    interfaces := isSpelled_raws ["sealed"] (by decide)
    components := by simp [sampleEnum]
    fits := ⟨rfl, rfl⟩ }

theorem isWritable_sampleAnnotationType : sampleAnnotationType.IsWritable Opening.Reads := by
  have hwith : (Member.element ⟨"v", [], .raw "int", true⟩).IsWritable Opening.Reads
      .annotationType := .element ⟨by decide, by decide, isSpelled_raw (by decide)⟩
  have hwithout : (Member.element ⟨"w", [.abstract], .raw "record", false⟩).IsWritable
      Opening.Reads .annotationType := .element ⟨by decide, by decide, isSpelled_raw (by decide)⟩
  refine .mk ?_ (by simp [sampleAnnotationType, Category.Admits])
    (by simpa [sampleAnnotationType] using ⟨hwith, hwithout⟩)
  exact {
    name := by decide
    modifiers := by decide
    annotations := by simp [sampleAnnotationType]
    superclasses := by simp [sampleAnnotationType]
    interfaces := by simp [sampleAnnotationType]
    components := by simp [sampleAnnotationType]
    fits := ⟨rfl, rfl, rfl⟩ }

theorem isWritable_sampleInterface : sampleInterface.IsWritable Opening.Reads := by
  have hmethod : (Member.method ⟨"m", [.default], .raw "void", [], []⟩).IsWritable Opening.Reads
      .interfaceType :=
    .method ⟨by decide, by decide, isSpelled_raw (by decide), by simp, by simp⟩
  have htype : (Member.type sampleAnnotationType).IsWritable Opening.Reads .interfaceType :=
    .type isWritable_sampleAnnotationType
  refine .mk ?_ (by simp [sampleInterface, Category.Admits])
    (by simpa [sampleInterface] using ⟨hmethod, htype⟩)
  exact {
    name := by decide
    modifiers := by decide
    annotations := by simp [sampleInterface]
    superclasses := isSpelled_raws ["I", "J"] (by decide)
    interfaces := by simp [sampleInterface]
    components := by simp [sampleInterface]
    fits := ⟨rfl, rfl⟩ }

theorem isWritable_sampleClass : sampleClass.IsWritable Opening.Reads := by
  have hfield : (Member.field ⟨[.privateAccess], .raw "int", [⟨"x", 0⟩, ⟨"y", 2⟩]⟩).IsWritable
      Opening.Reads .classType :=
    .field ⟨by decide, isSpelled_raw (by decide), by simp, by decide⟩
  have hfixed : Parameter.IsWritable Opening.Reads ⟨"p", .raw "int", false⟩ :=
    ⟨by decide, isSpelled_raw (by decide)⟩
  have hspread : Parameter.IsWritable Opening.Reads ⟨"q", .raw "A", true⟩ :=
    ⟨by decide, isSpelled_raw (by decide)⟩
  have hconstructor : (Member.constructor ⟨"T", [], [⟨"p", .raw "int", false⟩,
      ⟨"q", .raw "A", true⟩], [.raw "X"]⟩).IsWritable Opening.Reads .classType :=
    .constructor ⟨by decide, by decide, by decide, by simpa using ⟨hfixed, hspread⟩,
      isSpelled_raws ["X"] (by decide)⟩
  have hmethod : (Member.method ⟨"m", [.static, .synchronized], .raw "open", [],
      [.raw "X", .raw "Y"]⟩).IsWritable Opening.Reads .classType :=
    .method ⟨by decide, by decide, isSpelled_raw (by decide), by simp,
      isSpelled_raws ["X", "Y"] (by decide)⟩
  refine .mk ?_ (by simp [sampleClass, Category.Admits]) ?_
  · exact {
      name := by decide
      modifiers := by decide
      annotations := by decide
      superclasses := isSpelled_raws ["B"] (by decide)
      interfaces := isSpelled_raws ["I", "J"] (by decide)
      components := by simp [sampleClass]
      fits := ⟨by decide, rfl⟩ }
  · simp only [sampleClass, List.forall_mem_cons]
    exact ⟨hfield, hconstructor, hmethod, .type isWritable_sampleRecord,
      .type isWritable_sampleEnum, .type isWritable_sampleInterface, by simp⟩

theorem isWritable_sampleUnit : sampleUnit.IsWritable Opening.Reads where
  package := by simp [sampleUnit]; decide
  imports := by
    have hall : IsImport ("c" ++ ".*") := .everything (by decide)
    have hone : IsImport "d.E" := .single (by decide)
    simpa [sampleUnit] using ⟨hall, hone⟩
  types := List.forall_mem_singleton.mpr isWritable_sampleClass

/-- The text of the file. -/
def sampleText : String :=
  " package a.b; import c.*; import d.E;"
    ++ " @Marker @x.interfaces public final class T extends B implements I, J \x7b"
    ++ " private int x, y[][]; T( int p, A... q) throws X \x7b\x7d"
    ++ " static synchronized open m() throws X, Y \x7b\x7d"
    ++ " static record R( record c) implements I \x7b \x7d"
    ++ " enum E implements sealed \x7b; module() \x7b\x7d \x7d"
    ++ " interface N extends I, J \x7b default void m() \x7b\x7d"
    ++ " @interface V \x7b int v() default 0; abstract record w(); \x7d \x7d \x7d"

theorem parse_toSource_sampleUnit :
    sampleUnit.IsWritable Opening.Reads ∧ CompilationUnit.parse sampleText = .ok sampleUnit := by
  have htext : sampleUnit.toSource = sampleText := by decide +kernel
  rw [← htext]
  exact ⟨isWritable_sampleUnit, CompilationUnit.parse_toSource isWritable_sampleUnit⟩

/-! ## Names that are not read -/

/-- Is a file lost if it is written down, whatever names it has? -/
structure CompilationUnit.IsLost (u : CompilationUnit) : Prop where
  isWritable : u.IsWritable fun _ _ => True
  parse_ne : CompilationUnit.parse u.toSource ≠ .ok u

/-- A file with a type that has some annotations and members and nothing else. -/
def fileOf (category : Category) (annotations : List String) (members : List Member) :
    CompilationUnit :=
  ⟨none, [], [⟨"T", category, [], annotations, [], [], [], members⟩]⟩

theorem areWritable_nil : AreWritable [] := by decide

theorem isWritable_fileOf {names : Opening → String → Prop} {category : Category}
    {annotations : List String} {members : List Member}
    (hcategory : category = .classType ∨ category = .annotationType)
    (hannotations : ∀ name ∈ annotations, IsQualified name ∧ names .annotationName name)
    (hadmits : ∀ m ∈ members, category.Admits m)
    (hmembers : ∀ m ∈ members, m.IsWritable names category) :
    (fileOf category annotations members).IsWritable names where
  package := by simp [fileOf]
  imports := by simp [fileOf]
  types := by
    have hname : isName "T" = true := by decide
    refine List.forall_mem_singleton.mpr (.mk ?_ hadmits hmembers)
    exact {
      name := hname
      modifiers := areWritable_nil
      annotations := hannotations
      superclasses := by simp
      interfaces := by simp
      components := by simp
      fits := by rcases hcategory with rfl | rfl <;> simp [Declaration.FitsCategory] }

/-- A file is lost if it is refused, or read with other methods. -/
theorem isLost_of_check {u : CompilationUnit} (h : u.IsWritable fun _ _ => True)
    (hcheck : (CompilationUnit.parse u.toSource).toOption.map
        (fun v => v.types.flatMap fun d => d.methods.map (·.name))
      ≠ some (u.types.flatMap fun d => d.methods.map (·.name))) : u.IsLost where
  isWritable := h
  parse_ne := by
    intro hu
    rw [hu] at hcheck
    exact hcheck rfl

/-- A file with a field of a type that is a name. -/
def fieldFile (category : Category) (type : String) : CompilationUnit :=
  fileOf category [] [.field ⟨[], .raw type, [⟨"f", 0⟩]⟩]

/-- A file with an element of such a type. -/
def elementFile (type : String) : CompilationUnit :=
  fileOf .annotationType [] [.element ⟨"v", [], .raw type, false⟩]

/-- A file with a method and its parameter. -/
def methodFile (type parameterType : String) : CompilationUnit :=
  fileOf .classType [] [.method ⟨"m", [], .raw type, [⟨"p", .raw parameterType, false⟩], []⟩]

/-- A file with a constructor of some name. -/
def constructorFile (name : String) : CompilationUnit :=
  fileOf .classType [] [.constructor ⟨name, [], [], []⟩]

section

variable {names : Opening → String → Prop}

theorem isWritable_fieldFile {category : Category} {type : String}
    (hcategory : category = .classType ∨ category = .annotationType)
    (h : (TypeRef.raw type).IsSpelled (names (.type category.place))) :
    (fieldFile category type).IsWritable names := by
  have hname : isName "f" = true := by decide
  have hfield : (Member.field ⟨[], .raw type, [⟨"f", 0⟩]⟩).IsWritable names category :=
    .field ⟨areWritable_nil, h, by simp, by simpa using hname⟩
  exact isWritable_fileOf hcategory (by simp) (by simp [Category.Admits]) (by simpa using hfield)

theorem isWritable_elementFile {type : String}
    (h : (TypeRef.raw type).IsSpelled (names (.type .annotationMember))) :
    (elementFile type).IsWritable names := by
  have hname : isName "v" = true := by decide
  have helement : (Member.element ⟨"v", [], .raw type, false⟩).IsWritable names .annotationType :=
    .element ⟨hname, areWritable_nil, h⟩
  exact isWritable_fileOf (.inr rfl) (by simp) (by simp [Category.Admits])
    (by simpa using helement)

theorem isWritable_methodFile {type parameterType : String}
    (h : (TypeRef.raw type).IsSpelled (names (.type .member)))
    (hparameter : (TypeRef.raw parameterType).IsSpelled (names (.type .parameter))) :
    (methodFile type parameterType).IsWritable names := by
  have hname : isName "m" = true ∧ isName "p" = true := by decide
  have hparameters : Parameter.IsWritable names ⟨"p", .raw parameterType, false⟩ :=
    ⟨hname.2, hparameter⟩
  have hmethod : (Member.method ⟨"m", [], .raw type, [⟨"p", .raw parameterType, false⟩],
      []⟩).IsWritable names .classType :=
    .method ⟨hname.1, areWritable_nil, h, by simpa using hparameters, by simp⟩
  exact isWritable_fileOf (.inl rfl) (by simp) (by simp [Category.Admits]) (by simpa using hmethod)

theorem isWritable_constructorFile {name : String} (h : isName name = true)
    (hreads : names .constructor name) : (constructorFile name).IsWritable names := by
  have hconstructor : (Member.constructor ⟨name, [], [], []⟩).IsWritable names .classType :=
    .constructor ⟨h, hreads, areWritable_nil, by simp, by simp⟩
  exact isWritable_fileOf (.inl rfl) (by simp) (by simp [Category.Admits])
    (by simpa using hconstructor)

end

/-- **Where `Opening.Reads` refuses a name, files are lost**: an annotation whose name begins with
`interface` looks like an annotation type, `record` looks like a record where one can be declared,
and `sealed` looks like a modifier. -/
theorem isLost_of_names :
    (fileOf .classType ["interfaces"] []).IsLost
      ∧ (constructorFile "record").IsLost ∧ (constructorFile "sealed").IsLost
      ∧ (fieldFile .classType "record").IsLost ∧ (fieldFile .classType "sealed").IsLost
      ∧ (methodFile "record" "int").IsLost ∧ (methodFile "sealed" "int").IsLost
      ∧ (methodFile "int" "sealed").IsLost
      ∧ (fieldFile .annotationType "sealed").IsLost ∧ (elementFile "sealed").IsLost := by
  refine ⟨isLost_of_check ?_ (by decide +kernel), isLost_of_check ?_ (by decide +kernel),
    isLost_of_check ?_ (by decide +kernel), isLost_of_check ?_ (by decide +kernel),
    isLost_of_check ?_ (by decide +kernel), isLost_of_check ?_ (by decide +kernel),
    isLost_of_check ?_ (by decide +kernel), isLost_of_check ?_ (by decide +kernel),
    isLost_of_check ?_ (by decide +kernel), isLost_of_check ?_ (by decide +kernel)⟩
  · exact isWritable_fileOf (.inl rfl) (by decide) (by simp) (by simp)
  · exact isWritable_constructorFile (by decide) trivial
  · exact isWritable_constructorFile (by decide) trivial
  · exact isWritable_fieldFile (.inl rfl) (isSpelled_raw (by decide))
  · exact isWritable_fieldFile (.inl rfl) (isSpelled_raw (by decide))
  · exact isWritable_methodFile (isSpelled_raw (by decide)) (isSpelled_raw (by decide))
  · exact isWritable_methodFile (isSpelled_raw (by decide)) (isSpelled_raw (by decide))
  · exact isWritable_methodFile (isSpelled_raw (by decide)) (isSpelled_raw (by decide))
  · exact isWritable_fieldFile (.inr rfl) (isSpelled_raw (by decide))
  · exact isWritable_elementFile (isSpelled_raw (by decide))

end JavaOutline
