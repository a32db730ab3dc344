import Mathlib.Data.List.Forall2
import JavaOutline.Outline.Build

/-!
# JavaOutline.Proofs.RelevantInputs

What an outline depends on, and what it does not.

`Declaration.LooksLike` relates declarations that differ, at any depth, only in parts that no
outline shows: the order and number of keywords, keywords without a flag, names of the
parameters of methods and constructors, variable arity of components, modifiers of annotation
elements, and all that stands in a declaration of a kind that has no use for it. Members that
look alike are listed alike, sort by sort (`Member.AllLookLike.forall₂_filterMap`), so the
outlines of such declarations are equal (`only_relevant_inputs_count`).
-/

namespace JavaOutline

/-! ## Parts that look alike -/

/-- The same keywords in any order and number, but for those that have no flag. -/
def Modifier.SameFlagged (ms ms' : List Modifier) : Prop :=
  ∀ m, m ∉ [.strictfp, .sealed, .nonSealed] → (m ∈ ms ↔ m ∈ ms')

/-- Parameters that differ in their names only. -/
structure Parameter.SameButName (p p' : Parameter) : Prop where
  type : p.type = p'.type
  isVarargs : p.isVarargs = p'.isVarargs

/-- Components that differ in their arity only. -/
structure Parameter.SameButArity (p p' : Parameter) : Prop where
  name : p.name = p'.name
  type : p.type = p'.type

structure Field.LooksLike (f f' : Field) : Prop where
  modifiers : Modifier.SameFlagged f.modifiers f'.modifiers
  type : f.type = f'.type
  declarators : f.declarators = f'.declarators

structure Constructor.LooksLike (c c' : Constructor) : Prop where
  name : c.name = c'.name
  modifiers : Modifier.SameFlagged c.modifiers c'.modifiers
  parameters : List.Forall₂ Parameter.SameButName c.parameters c'.parameters
  throws : c.throws = c'.throws

structure Method.LooksLike (m m' : Method) : Prop where
  name : m.name = m'.name
  modifiers : Modifier.SameFlagged m.modifiers m'.modifiers
  returnType : m.returnType = m'.returnType
  parameters : List.Forall₂ Parameter.SameButName m.parameters m'.parameters
  throws : m.throws = m'.throws

/-- Annotation elements that differ in their modifiers only. -/
structure Element.LooksLike (e e' : Element) : Prop where
  name : e.name = e'.name
  returnType : e.returnType = e'.returnType
  hasDefault : e.hasDefault = e'.hasDefault

/-- The same category; the text of the last one may be any. -/
inductive Category.LooksLike : Category → Category → Prop
  | same (category : Category) : LooksLike category category
  | other (name name' : String) : LooksLike (.other name) (.other name')

/-- Declarations that look alike apart from their members. What is not listed for the category
may be any. -/
structure Declaration.HeadLooksLike (d d' : Declaration) : Prop where
  name : d.name = d'.name
  category : d.category.LooksLike d'.category
  modifiers : Modifier.SameFlagged d.modifiers d'.modifiers
  annotations : d.annotations = d'.annotations
  superclasses : d.category ∈ [.classType, .interfaceType] → d.superclasses = d'.superclasses
  interfaces : d.category ∈ [.classType, .interfaceType, .recordType] →
    d.interfaces = d'.interfaces
  components : d.category = .recordType →
    List.Forall₂ Parameter.SameButArity d.components d'.components

mutual
/-- Declarations that look alike, their members at any depth included. -/
inductive Declaration.LooksLike : Declaration → Declaration → Prop
  | mk {d d' : Declaration} (head : d.HeadLooksLike d')
      (members : Member.AllLookLike d.category d.members d'.members) : Declaration.LooksLike d d'

/-- Members of one sort that look alike. -/
inductive Member.LooksLike : Member → Member → Prop
  | field {f f' : Field} (h : f.LooksLike f') : Member.LooksLike (.field f) (.field f')
  | constructor {c c' : Constructor} (h : c.LooksLike c') :
      Member.LooksLike (.constructor c) (.constructor c')
  | method {m m' : Method} (h : m.LooksLike m') : Member.LooksLike (.method m) (.method m')
  | element {e e' : Element} (h : e.LooksLike e') : Member.LooksLike (.element e) (.element e')
  | type {d d' : Declaration} (h : Declaration.LooksLike d d') :
      Member.LooksLike (.type d) (.type d')

/-- Members of a declaration of the category that look alike one by one. Outside of annotation
types there may be any elements between them. -/
inductive Member.AllLookLike : Category → List Member → List Member → Prop
  | nil (category : Category) : Member.AllLookLike category [] []
  | cons {category : Category} {m m' : Member} {ms ms' : List Member}
      (h : Member.LooksLike m m') (hs : Member.AllLookLike category ms ms') :
      Member.AllLookLike category (m :: ms) (m' :: ms')
  | left {category : Category} {ms ms' : List Member} (hcategory : category ≠ .annotationType)
      (e : Element) (hs : Member.AllLookLike category ms ms') :
      Member.AllLookLike category (.element e :: ms) ms'
  | right {category : Category} {ms ms' : List Member} (hcategory : category ≠ .annotationType)
      (e : Element) (hs : Member.AllLookLike category ms ms') :
      Member.AllLookLike category ms (.element e :: ms')
end

/-! ## Flags -/

section

variable {ms ms' : List Modifier} (h : Modifier.SameFlagged ms ms')

include h

theorem Modifier.SameFlagged.contains_eq {m : Modifier}
    (hm : m ∉ [.strictfp, .sealed, .nonSealed]) : ms.contains m = ms'.contains m := by
  rw [Bool.eq_iff_iff, List.contains_iff_mem, List.contains_iff_mem]
  exact h m hm

theorem TypeFlags.ofModifiers_congr (kind : Kind) (hasAbstractMethod : Bool)
    (enclosing : Option Kind) : ofModifiers kind ms hasAbstractMethod enclosing
      = ofModifiers kind ms' hasAbstractMethod enclosing := by
  simp (disch := decide) only [ofModifiers, h.contains_eq]

theorem FieldFlags.ofModifiers_congr (owner : Kind) :
    ofModifiers ms owner = ofModifiers ms' owner := by
  simp (disch := decide) only [ofModifiers, h.contains_eq]

theorem ConstructorFlags.ofModifiers_congr : ofModifiers ms = ofModifiers ms' := by
  simp (disch := decide) only [ofModifiers, h.contains_eq]

theorem MethodFlags.ofModifiers_congr (owner : Kind) :
    ofModifiers ms owner = ofModifiers ms' owner := by
  simp (disch := decide) only [ofModifiers, h.contains_eq]

end

/-! ## Parts of outlines -/

/-- What is the same of related items is the same of related lists. -/
theorem map_eq_of_forall₂ {R : α → α → Prop} {f : α → β} (hf : ∀ a b, R a b → f a = f b)
    {as bs : List α} (h : List.Forall₂ R as bs) : as.map f = bs.map f := by
  induction h with
  | nil => rfl
  | cons hab _ ih => rw [List.map_cons, List.map_cons, hf _ _ hab, ih]

theorem Parameter.SameButName.render_eq {p p' : Parameter} (h : p.SameButName p') :
    p.render = p'.render := by
  rw [render, render, h.type, h.isVarargs]

theorem Parameter.SameButArity.ofComponent_eq {p p' : Parameter} (h : p.SameButArity p') :
    FieldOutline.ofComponent p = FieldOutline.ofComponent p' := by
  rw [FieldOutline.ofComponent, FieldOutline.ofComponent, h.name, h.type]

theorem Field.LooksLike.ofField_eq {f f' : Field} (h : f.LooksLike f') (owner : Kind) :
    FieldOutline.ofField owner f = FieldOutline.ofField owner f' := by
  rw [FieldOutline.ofField, FieldOutline.ofField, h.type, h.declarators,
    FieldFlags.ofModifiers_congr h.modifiers]

theorem Constructor.LooksLike.ofConstructor_eq {c c' : Constructor} (h : c.LooksLike c') :
    ConstructorOutline.ofConstructor c = ConstructorOutline.ofConstructor c' := by
  rw [ConstructorOutline.ofConstructor, ConstructorOutline.ofConstructor, h.name, h.throws,
    ConstructorFlags.ofModifiers_congr h.modifiers,
    map_eq_of_forall₂ (fun _ _ hp => hp.render_eq) h.parameters]

theorem Method.LooksLike.ofMethod_eq {m m' : Method} (h : m.LooksLike m') (owner : Kind) :
    MethodOutline.ofMethod owner m = MethodOutline.ofMethod owner m' := by
  rw [MethodOutline.ofMethod, MethodOutline.ofMethod, h.name, h.returnType, h.throws,
    MethodFlags.ofModifiers_congr h.modifiers,
    map_eq_of_forall₂ (fun _ _ hp => hp.render_eq) h.parameters]

theorem Method.LooksLike.isAbstract_eq {m m' : Method} (h : m.LooksLike m') :
    m.modifiers.contains .abstract = m'.modifiers.contains .abstract :=
  h.modifiers.contains_eq (by decide)

theorem Element.LooksLike.ofElement_eq {e e' : Element} (h : e.LooksLike e') :
    ElementOutline.ofElement e = ElementOutline.ofElement e' := by
  rw [ElementOutline.ofElement, ElementOutline.ofElement, h.name, h.returnType, h.hasDefault]

/-! ## Members sort by sort -/

/-- **Members that look alike are listed alike**: those of a sort are related one by one, unless
it is the sort of elements that do not count. -/
theorem Member.AllLookLike.forall₂_filterMap {sort? : Member → Option α} {R : α → α → Prop}
    (hsort : ∀ {m m'}, Member.LooksLike m m' → Option.Rel R (sort? m) (sort? m'))
    {category : Category}
    (helement : category ≠ .annotationType → ∀ e, sort? (.element e) = none)
    {ms ms' : List Member} (h : Member.AllLookLike category ms ms') :
    List.Forall₂ R (ms.filterMap sort?) (ms'.filterMap sort?) := by
  match h with
  | .nil _ => exact .nil
  | @Member.AllLookLike.cons _ m m' _ _ hm hs =>
      have ih := hs.forall₂_filterMap hsort helement
      have hrel := hsort hm
      rw [List.filterMap_cons, List.filterMap_cons]
      revert hrel
      cases sort? m <;> cases sort? m' <;> rintro ⟨⟩
      · exact ih
      · exact .cons ‹_› ih
  | .left hcategory e hs =>
      rw [List.filterMap_cons_none (helement hcategory e)]
      exact hs.forall₂_filterMap hsort helement
  | .right hcategory e hs =>
      rw [List.filterMap_cons_none (helement hcategory e)]
      exact hs.forall₂_filterMap hsort helement

namespace Declaration

theorem HeadLooksLike.kind_eq {d d' : Declaration} (h : d.HeadLooksLike d') : d.kind = d'.kind := by
  have hcategory := h.category
  rw [kind, kind]
  generalize d.category = category at hcategory
  generalize d'.category = category' at hcategory
  cases hcategory <;> rfl

section

variable {d d' : Declaration}

theorem HeadLooksLike.superclassTexts_eq (h : d.HeadLooksLike d') :
    d.superclassTexts = d'.superclassTexts := by
  have hsame := h.superclasses
  rw [superclassTexts, superclassTexts, ← h.kind_eq, kind]
  cases hcategory : d.category <;> simp_all [Kind.ofCategory]

theorem HeadLooksLike.interfaceTexts_eq (h : d.HeadLooksLike d') :
    d.interfaceTexts = d'.interfaceTexts := by
  have hsame := h.interfaces
  rw [interfaceTexts, interfaceTexts, ← h.kind_eq, kind]
  cases hcategory : d.category <;> simp_all [Kind.ofCategory]

/-- The members of each sort look alike. -/
theorem forall₂_fields (h : Member.AllLookLike d.category d.members d'.members) :
    List.Forall₂ Field.LooksLike d.fields d'.fields :=
  h.forall₂_filterMap (fun hm => by cases hm <;> constructor; assumption) fun _ _ => rfl

theorem forall₂_constructors (h : Member.AllLookLike d.category d.members d'.members) :
    List.Forall₂ Constructor.LooksLike d.constructors d'.constructors :=
  h.forall₂_filterMap (fun hm => by cases hm <;> constructor; assumption) fun _ _ => rfl

theorem forall₂_methods (h : Member.AllLookLike d.category d.members d'.members) :
    List.Forall₂ Method.LooksLike d.methods d'.methods :=
  h.forall₂_filterMap (fun hm => by cases hm <;> constructor; assumption) fun _ _ => rfl

/-- Elements are only looked at in annotation types. -/
theorem forall₂_elements (h : Member.AllLookLike d.category d.members d'.members)
    (hcategory : d.category = .annotationType) :
    List.Forall₂ Element.LooksLike d.elements d'.elements :=
  h.forall₂_filterMap (fun hm => by cases hm <;> constructor; assumption)
    fun hother _ => absurd hcategory hother

theorem hasAbstractMethod_eq (h : Member.AllLookLike d.category d.members d'.members) :
    d.hasAbstractMethod = d'.hasAbstractMethod := by
  have hmap := map_eq_of_forall₂ (fun _ _ hm => hm.isAbstract_eq) (forall₂_methods h)
  have hany := congrArg (List.any · id) hmap
  rwa [List.any_map, List.any_map] at hany

variable (hhead : d.HeadLooksLike d') (h : Member.AllLookLike d.category d.members d'.members)

include hhead h

theorem fieldOutlines_eq_of_looksLike : d.fieldOutlines = d'.fieldOutlines := by
  have hfields := map_eq_of_forall₂ (fun _ _ hf => hf.ofField_eq d.kind) (forall₂_fields h)
  rw [fieldOutlines, fieldOutlines, ← hhead.kind_eq, List.flatMap, hfields, ← List.flatMap]
  by_cases hrecord : d.kind = .recordType
  · have hcomponents := hhead.components (kind_eq_recordType.mp hrecord)
    rw [if_pos hrecord, if_pos hrecord,
      map_eq_of_forall₂ (fun _ _ hp => hp.ofComponent_eq) hcomponents]
  · rw [if_neg hrecord, if_neg hrecord]

theorem methodEntries_eq_of_looksLike : d.methodEntries = d'.methodEntries := by
  rw [methodEntries, methodEntries, ← hhead.kind_eq]
  by_cases hannotation : d.kind = .annotationType
  · have helements := forall₂_elements h (kind_eq_annotationType.mp hannotation)
    rw [if_pos hannotation, if_pos hannotation]
    exact map_eq_of_forall₂ (fun _ _ he => congrArg MethodEntry.element he.ofElement_eq) helements
  · rw [if_neg hannotation, if_neg hannotation]
    exact map_eq_of_forall₂ (fun _ _ hm => congrArg MethodEntry.method (hm.ofMethod_eq d.kind))
      (forall₂_methods h)

end

end Declaration

/-! ## Outlines -/

mutual
theorem Declaration.LooksLike.ofDeclaration_eq {d d' : Declaration} (h : d.LooksLike d')
    (enclosing : Option Kind) :
    Outline.ofDeclaration d enclosing = Outline.ofDeclaration d' enclosing := by
  match h with
  | .mk hhead hmembers =>
      have hinners := hmembers.ofMembers_eq d.kind
      have hconstructors : d.constructors.map ConstructorOutline.ofConstructor
          = d'.constructors.map .ofConstructor :=
        map_eq_of_forall₂ (fun _ _ hc => hc.ofConstructor_eq)
          (Declaration.forall₂_constructors hmembers)
      rw [Outline.ofMembers_eq, Outline.ofMembers_eq] at hinners
      rw [Outline.ofDeclaration_eq, Outline.ofDeclaration_eq d', ← hhead.kind_eq, hhead.name,
        hhead.annotations, TypeFlags.ofModifiers_congr hhead.modifiers,
        Declaration.hasAbstractMethod_eq hmembers, hhead.superclassTexts_eq,
        hhead.interfaceTexts_eq, Declaration.fieldOutlines_eq_of_looksLike hhead hmembers,
        hconstructors, Declaration.methodEntries_eq_of_looksLike hhead hmembers,
        Declaration.nested, hinners]
      rfl

/-- The types among members that look alike have the same outlines. -/
theorem Member.AllLookLike.ofMembers_eq {category : Category} {ms ms' : List Member}
    (h : Member.AllLookLike category ms ms') (owner : Kind) :
    Outline.ofMembers ms owner = Outline.ofMembers ms' owner := by
  match h with
  | .nil _ => rfl
  | .cons (.type hd) hs =>
      rw [Outline.ofMembers, Outline.ofMembers, hd.ofDeclaration_eq, hs.ofMembers_eq]
  | .cons (.field _) hs | .cons (.constructor _) hs | .cons (.method _) hs
  | .cons (.element _) hs =>
      rw [Outline.ofMembers, Outline.ofMembers, hs.ofMembers_eq]
  | .left _ e hs => rw [Outline.ofMembers, hs.ofMembers_eq]
  | @Member.AllLookLike.right _ _ rest _ e hs =>
      have hskip : Outline.ofMembers (.element e :: rest) owner = Outline.ofMembers rest owner := by
        rw [Outline.ofMembers]
      rw [hskip, hs.ofMembers_eq]
end

/-- **Only the relevant inputs count**: declarations that look alike have the same outline,
whatever they stand in. -/
theorem only_relevant_inputs_count {d d' : Declaration} (h : d.LooksLike d')
    (enclosing : Option Kind) :
    Outline.ofDeclaration d enclosing = Outline.ofDeclaration d' enclosing :=
  h.ofDeclaration_eq enclosing

/-- A record, with an annotation type and a declaration of no known category in it. -/
def sampleInputs : Declaration :=
  ⟨"R", .recordType, [.publicAccess, .final], ["A"], [], [.raw "I"], [⟨"c", .raw "int", false⟩],
    [.field ⟨[.static, .privateAccess], .raw "int", [⟨"count", 1⟩]⟩,
      .constructor ⟨"R", [.sealed], [⟨"c", .raw "int", false⟩], [.raw "E"]⟩,
      .method ⟨"m", [.static], .raw "void", [⟨"xs", .raw "int", true⟩], []⟩,
      .type ⟨"N", .annotationType, [], [], [], [], [],
        [.element ⟨"v", [], .raw "int", true⟩]⟩,
      .type ⟨"O", .other "module", [.strictfp], [], [], [], [], []⟩]⟩

/-- The same types with other inputs that do not count. -/
def sampleOtherInputs : Declaration :=
  ⟨"R", .recordType, [.final, .strictfp, .publicAccess, .final], ["A"], [.raw "X"], [.raw "I"],
    [⟨"c", .raw "int", true⟩],
    [.element ⟨"lost", [.static], .raw "int", true⟩,
      .field ⟨[.privateAccess, .static, .nonSealed], .raw "int", [⟨"count", 1⟩]⟩,
      .constructor ⟨"R", [], [⟨"x", .raw "int", false⟩], [.raw "E"]⟩,
      .method ⟨"m", [.static, .static], .raw "void", [⟨"rest", .raw "int", true⟩], []⟩,
      .type ⟨"N", .annotationType, [.sealed], [], [.raw "X"], [.raw "I"], [⟨"y", .raw "int", true⟩],
        [.element ⟨"v", [.abstract], .raw "int", true⟩]⟩,
      .type ⟨"O", .other "script", [], [], [.raw "X"], [.raw "I"], [],
        [.element ⟨"lost", [], .raw "int", false⟩]⟩]⟩

theorem only_relevant_inputs_count_sampleInputs : sampleInputs.LooksLike sampleOtherInputs
    ∧ Outline.ofDeclaration sampleInputs (some .interfaceType)
        = Outline.ofDeclaration sampleOtherInputs (some .interfaceType) := by
  have hsame : ∀ {ms ms' : List Modifier}, (∀ m ∈ Modifier.all,
      m ∉ [.strictfp, .sealed, .nonSealed] → (m ∈ ms ↔ m ∈ ms')) → Modifier.SameFlagged ms ms' :=
    fun h m => h m m.mem_all
  have hsample : sampleInputs.LooksLike sampleOtherInputs := by
    refine .mk ⟨rfl, .same _, hsame ?_, rfl, fun h => absurd h (by decide), fun _ => rfl,
        fun _ => .cons ⟨rfl, rfl⟩ .nil⟩
      (.right (by decide) _ (.cons (.field ⟨hsame ?_, rfl, rfl⟩)
        (.cons (.constructor ⟨rfl, hsame ?_, .cons ⟨rfl, rfl⟩ .nil, rfl⟩)
          (.cons (.method ⟨rfl, hsame ?_, rfl, .cons ⟨rfl, rfl⟩ .nil, rfl⟩)
            (.cons (.type (.mk ?elements (.cons (.element ⟨rfl, rfl, rfl⟩) (.nil _))))
              (.cons (.type (.mk ?other (.right (by decide) _ (.nil _)))) (.nil _)))))))
    case elements => exact ⟨rfl, .same _, hsame (by decide), rfl, nofun, nofun, nofun⟩
    case other => exact ⟨rfl, .other _ _, hsame (by decide), rfl, nofun, nofun, nofun⟩
    all_goals decide
  exact ⟨hsample, only_relevant_inputs_count hsample _⟩

end JavaOutline
