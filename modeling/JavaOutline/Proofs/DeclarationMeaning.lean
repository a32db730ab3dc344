import JavaOutline.Proofs.DeclarationTrees

/-!
# JavaOutline.Proofs.DeclarationMeaning

The trees that spell declarations declare them.

What a declaration says is looked up by label among the parts of its tree, so the first
lemmas say which parts a look-up passes over; each sort of declaration then reads its own
parts back, and `member?_tree` goes through the members at any depth.
-/

namespace JavaOutline

open Source Grammar Structure

/-! ## Looking parts up -/

section

variable {label l : Label} {us : List SyntaxTree}

@[simp] theorem inside?_nil : ParseTree.inside? label ([] : List SyntaxTree) = none := rfl

@[simp] theorem inside?_leaf (t : Token) :
    ParseTree.inside? label (.leaf t :: us) = ParseTree.inside? label us := rfl

@[simp] theorem inside?_node (ts : List SyntaxTree) :
    ParseTree.inside? label (.node l ts :: us)
      = if l = label then some ts else ParseTree.inside? label us := by
  rw [ParseTree.inside?, List.findSome?_cons]
  by_cases h : l = label
  · simp [h]
  · simp [h, ParseTree.inside?]

@[simp] theorem inside?_signLeaf (s : String) :
    ParseTree.inside? label (signLeaf s :: us) = ParseTree.inside? label us := rfl

@[simp] theorem inside?_nameTree (w : String) :
    ParseTree.inside? label (nameTree w :: us)
      = if .identifier = label then some [.leaf (wordToken space w)]
        else ParseTree.inside? label us := inside?_node _

/-- Clauses are passed over. -/
theorem inside?_clause (h : l ≠ label) (keyword : String) (ts : List TypeRef) :
    ParseTree.inside? label (clauseTrees l keyword ts ++ us) = ParseTree.inside? label us := by
  cases ts with
  | nil => rfl
  | cons t ts => simp [clauseTrees, h]

theorem inside?_typeTree {names : String → Prop} {t : TypeRef} (ht : t.IsSpelled names)
    (h : label ≠ .type) :
    ParseTree.inside? label (typeTree space t :: us) = ParseTree.inside? label us := by
  obtain ⟨ts, hts⟩ := ht.exists_node space
  rw [hts, inside?_node, if_neg h.symm]

/-- Commas are passed over where only some trees between them count. -/
theorem filterMap_withCommas {α : Type} {f : SyntaxTree → Option α}
    (hcomma : f (signLeaf ",") = none) (ts : List SyntaxTree) :
    (withCommas ts).filterMap f = ts.filterMap f := by
  have hafter : ∀ us : List SyntaxTree, (afterCommas us).filterMap f = us.filterMap f := by
    intro us
    induction us with
    | nil => rfl
    | cons u us ih =>
        rw [afterCommas] at ih
        rw [afterCommas, List.flatMap_cons, List.filterMap_append, ih, List.filterMap_cons, hcomma,
          ← List.filterMap_append]
        rfl
  cases ts with
  | nil => rfl
  | cons t ts => rw [withCommas, List.filterMap_cons, hafter, List.filterMap_cons]

/-- What is written down and read back one by one is there again. -/
theorem filterMap_map_eq_self {α : Type} {tree : α → SyntaxTree} {f : SyntaxTree → Option α}
    {xs : List α} (h : ∀ x ∈ xs, f (tree x) = some x) : (xs.map tree).filterMap f = xs := by
  induction xs with
  | nil => rfl
  | cons x xs ih =>
      rw [List.forall_mem_cons] at h
      rw [List.map_cons, List.filterMap_cons, h.1, ih h.2]

end

/-! ## Names, types and modifiers -/

section

variable {names : String → Prop} {t : TypeRef} {us : List SyntaxTree}

theorem nameIn_eq {ts : List SyntaxTree} {w : String}
    (h : ParseTree.inside? .identifier ts = some [.leaf (wordToken space w)]) : nameIn ts = w := by
  rw [nameIn, ParseTree.inside, h]
  exact String.append_empty

theorem dimensionsIn_eq_zero {ts : List SyntaxTree}
    (h : ParseTree.inside? .dimensions ts = none) : dimensionsIn ts = 0 := by
  rw [dimensionsIn, ParseTree.inside, h]
  rfl

/-- The type of a declaration is the one its tree spells. -/
theorem typeIn_typeTree (h : t.IsSpelled names) (us : List SyntaxTree) :
    typeIn (typeTree space t :: us) = t := by
  have hmeaning : typeOf (typeTree space t) = t := h.typeOf_typeTree space
  obtain ⟨ts, hts⟩ := h.exists_node space
  rw [hts] at hmeaning ⊢
  exact hmeaning

/-- Without modifiers the first tree is the type of a parameter of variable arity. -/
theorem spreadType_typeTree (h : t.IsSpelled names) (us : List SyntaxTree) :
    spreadType (typeTree space t :: us) = t := by
  have hmeaning : typeOf (typeTree space t) = t := h.typeOf_typeTree space
  obtain ⟨ts, hts⟩ := h.exists_node space
  rw [hts] at hmeaning ⊢
  exact hmeaning

/-- The types of a clause are those that were written. -/
theorem clauseTypes_clause {label : Label} (keyword : String) {ts : List TypeRef}
    (h : ∀ t ∈ ts, t.IsSpelled names) (hus : ParseTree.inside? label us = none) :
    clauseTypes (ParseTree.inside label (clauseTrees label keyword ts ++ us)) = ts := by
  have htypes : ∀ t ∈ ts, typesIn [typeTree space t] = [t] := by
    intro t ht
    obtain ⟨w, more, hwritten, -⟩ := (h t ht).plain.isWrittenAsType
    exact hwritten.typesIn_eq (.inr rfl) ((h t ht).typeOf_typeTree space)
  cases ts with
  | nil =>
      rw [clauseTrees, List.nil_append, ParseTree.inside, hus]
      rfl
  | cons t ts =>
      have hinside : ParseTree.inside label (clauseTrees label keyword (t :: ts) ++ us)
          = .leaf (wordToken space keyword) :: withCommas ((t :: ts).map (typeTree space)) := by
        simp [ParseTree.inside, clauseTrees]
      rw [hinside]
      exact typesIn_withCommas htypes

/-- Erasing duplicates changes nothing if there are none. -/
theorem eraseDups_eq_self {α : Type} [BEq α] [LawfulBEq α] {xs : List α} (h : xs.Nodup) :
    xs.eraseDups = xs := by
  induction xs with
  | nil => rfl
  | cons x xs ih =>
      obtain ⟨hx, hxs⟩ := List.nodup_cons.mp h
      have hne : xs.filter (fun y => !y == x) = xs := by
        rw [List.filter_eq_self]
        intro y hy
        have hyx : y ≠ x := fun he => hx (he ▸ hy)
        simpa using hyx
      rw [List.eraseDups_cons, hne, ih hxs]

theorem modifiersIn_eq (names : List String) {ms : List Modifier} (h : ms.Nodup) :
    modifiersIn (names.map annotationTree ++ ms.map modifierLeaf) = ms := by
  have hannotations : (names.map annotationTree).filterMap modifier? = [] := by
    rw [List.filterMap_eq_nil_iff]
    exact List.forall_mem_map.mpr fun _ _ => rfl
  have hmodifiers : (ms.map modifierLeaf).filterMap modifier? = ms :=
    filterMap_map_eq_self fun m _ => Modifier.ofKeyword?_keyword m
  rw [modifiersIn, List.filterMap_append, hannotations, List.nil_append, hmodifiers,
    eraseDups_eq_self h]

theorem modifiersIn_words {ms : List Modifier} (h : ms.Nodup) :
    modifiersIn (ms.map modifierLeaf) = ms := modifiersIn_eq [] h

theorem annotationsIn_eq {names : List String} {ms : List Modifier}
    (h : ∀ name ∈ names, IsQualified name) :
    annotationsIn (names.map annotationTree ++ ms.map modifierLeaf) = names := by
  have hnames : annotationsIn (names.map annotationTree) = names := by
    refine filterMap_map_eq_self fun name hname => ?_
    have htext := (h name hname).isDotted.compactText_nameTrees []
    exact congrArg some htext
  have hwords : annotationsIn (ms.map modifierLeaf) = [] := by
    rw [annotationsIn, List.filterMap_eq_nil_iff]
    exact List.forall_mem_map.mpr fun _ _ => rfl
  rw [annotationsIn] at hnames hwords
  rw [annotationsIn, List.filterMap_append, hnames, hwords, List.append_nil]

end

/-! ## Variables and parameters -/

section

variable {names : Opening → String → Prop}

theorem variableOf?_tree (v : Variable) : variableOf? v.tree = some v := by
  have hname : nameIn (nameTree v.name :: dimensionTrees v.dimensions) = v.name :=
    nameIn_eq (by simp)
  have hdimensions : dimensionsIn (nameTree v.name :: dimensionTrees v.dimensions)
      = v.dimensions := by
    rw [dimensionTrees]
    split
    · next hzero => rw [hzero, dimensionsIn_eq_zero (by simp)]
    · have hcount := bracketCount_bracketsTree v.dimensions
      rw [bracketCount, ParseTree.sourceText, tokensAll_singleton] at hcount
      exact hcount
  rw [Variable.tree, variableOf?, hname, hdimensions]

theorem parameter?_tree {p : Parameter} (h : p.IsWritable names) : parameter? p.tree = some p := by
  obtain ⟨name, type, isVarargs⟩ := p
  rw [Parameter.tree]
  cases isVarargs with
  | true =>
      have hname : nameIn (ParseTree.inside .variable
          [typeTree space type, signLeaf "...", variableTree name]) = name := by
        refine nameIn_eq ?_
        rw [ParseTree.inside, inside?_typeTree h.type (by decide)]
        rfl
      rw [if_pos rfl, parameter?, hname, spreadType_typeTree h.type]
  | false =>
      have hname : nameIn [typeTree space type, nameTree name] = name := by
        refine nameIn_eq ?_
        rw [inside?_typeTree h.type (by decide)]
        rfl
      have hdimensions : dimensionsIn [typeTree space type, nameTree name] = 0 := by
        refine dimensionsIn_eq_zero ?_
        rw [inside?_typeTree h.type (by decide)]
        rfl
      rw [if_neg (by simp), parameter?, hname, hdimensions, typeIn_typeTree h.type,
        TypeRef.arrayOf_zero]

theorem parametersIn_eq {ts : List SyntaxTree} {ps : List Parameter}
    (hts : ParseTree.inside? .parameters ts = some (parametersNode ps).children)
    (h : ∀ p ∈ ps, p.IsWritable names) : parametersIn ts = ps := by
  have hsign : ∀ s, parameter? (signLeaf s) = none := fun _ => rfl
  have hps : (ps.map Parameter.tree).filterMap parameter? = ps :=
    filterMap_map_eq_self fun p hp => parameter?_tree (h p hp)
  rw [parametersIn, ParseTree.inside, hts, Option.getD_some, parametersNode, ParseTree.children,
    List.filterMap_cons, hsign, List.filterMap_append, filterMap_withCommas (hsign ","), hps,
    List.filterMap_cons, hsign]
  exact List.append_nil ps

/-! ## Members -/

theorem fieldOf_parts {category : Category} {f : Field} (h : f.IsWritable names category) :
    fieldOf (f.modifiers.map modifierLeaf) f.parts = f := by
  have hsign : ∀ s, variableOf? (signLeaf s) = none := fun _ => rfl
  have hvariables : (f.declarators.map Variable.tree).filterMap variableOf? = f.declarators :=
    filterMap_map_eq_self fun v _ => variableOf?_tree v
  have hdeclarators : f.parts.filterMap variableOf? = f.declarators := by
    obtain ⟨ts, hts⟩ := h.type.exists_node space
    rw [Field.parts, hts, List.filterMap_cons, List.filterMap_append,
      filterMap_withCommas (hsign ","), hvariables, List.filterMap_cons, hsign]
    exact List.append_nil _
  rw [fieldOf, modifiersIn_words h.modifiers.nodup, hdeclarators, Field.parts,
    typeIn_typeTree h.type]

theorem throwsIn_eq {ts us : List SyntaxTree} {throws : List TypeRef}
    (hts : ParseTree.inside? .throws ts
      = ParseTree.inside? .throws (clauseTrees .throws "throws" throws ++ us))
    {place : Place} (h : ∀ t ∈ throws, t.IsSpelled (names (.type place)))
    (hus : ParseTree.inside? .throws us = none) :
    throwsIn ts = throws := by
  have hclause := clauseTypes_clause "throws" h hus
  rwa [ParseTree.inside, ← hts] at hclause

theorem constructorOf_parts {c : Constructor} (h : c.IsWritable names) :
    constructorOf (c.modifiers.map modifierLeaf) c.parts = c := by
  have hname : nameIn c.parts = c.name := nameIn_eq rfl
  have hparameters : parametersIn c.parts = c.parameters := parametersIn_eq rfl h.parameters
  have hthrows : throwsIn c.parts = c.throws := throwsIn_eq rfl h.throws rfl
  rw [constructorOf, modifiersIn_words h.modifiers.nodup, hname, hparameters, hthrows]

theorem methodOf_parts {m : Method} (h : m.IsWritable names) :
    methodOf (m.modifiers.map modifierLeaf) m.parts = m := by
  have hinside : ∀ {label : Label}, label ≠ .type → ParseTree.inside? label m.parts
      = ParseTree.inside? label (nameTree m.name :: parametersNode m.parameters
        :: (clauseTrees .throws "throws" m.throws ++ [emptyBlockTree])) :=
    fun hlabel => inside?_typeTree h.returnType hlabel
  have hname : nameIn m.parts = m.name := nameIn_eq (hinside (by decide))
  have hdimensions : dimensionsIn m.parts = 0 := by
    refine dimensionsIn_eq_zero ((hinside (by decide)).trans ?_)
    exact inside?_clause (by decide) "throws" m.throws
  have htype : typeIn m.parts = m.returnType := typeIn_typeTree h.returnType _
  have hparameters : parametersIn m.parts = m.parameters :=
    parametersIn_eq (hinside (by decide)) h.parameters
  have hthrows : throwsIn m.parts = m.throws := throwsIn_eq (hinside (by decide)) h.throws rfl
  rw [methodOf, modifiersIn_words h.modifiers.nodup, hname, hdimensions, htype, hparameters,
    hthrows, TypeRef.arrayOf_zero]

theorem elementOf_parts {e : Element} (h : e.IsWritable names) :
    elementOf (e.modifiers.map modifierLeaf) e.parts = e := by
  have hinside : ∀ {label : Label}, label ≠ .type → ParseTree.inside? label e.parts
      = ParseTree.inside? label (nameTree e.name :: (defaultTrees e.hasDefault
        ++ [signLeaf ";"])) :=
    fun hlabel => inside?_typeTree h.returnType hlabel
  have hname : nameIn e.parts = e.name := nameIn_eq (hinside (by decide))
  have hdimensions : dimensionsIn e.parts = 0 := by
    refine dimensionsIn_eq_zero ((hinside (by decide)).trans ?_)
    cases e.hasDefault <;> rfl
  have hdefault : (ParseTree.inside? .defaultValue e.parts).isSome = e.hasDefault := by
    rw [hinside (by decide)]
    cases e.hasDefault <;> rfl
  have htype : typeIn e.parts = e.returnType := typeIn_typeTree h.returnType _
  rw [elementOf, modifiersIn_words h.modifiers.nodup, hname, hdimensions, htype, hdefault,
    TypeRef.arrayOf_zero]

end

/-! ## Types -/

theorem bodyMembers_eq (us : List SyntaxTree) :
    bodyMembers us = members (ParseTree.inside .body us) := by
  induction us with
  | nil => rfl
  | cons u us ih =>
      cases u with
      | leaf t =>
          rw [bodyMembers, ih]
          · rfl
          · simp
      | node label ts =>
          by_cases h : label = .body
          · subst h
            simp [bodyMembers, ParseTree.inside]
          · rw [bodyMembers, ih]
            · simp [ParseTree.inside, h]
            · simpa using h

section

variable {names : Opening → String → Prop} {label : Label} {us : List SyntaxTree} {d : Declaration}

/-- Only a name is between the keyword of a type and its clauses, and the components of a
record. -/
theorem inside?_parts (hname : label ≠ .identifier) (hparameters : label ≠ .parameters) :
    ParseTree.inside? label d.parts
      = ParseTree.inside? label (clauseTrees d.category.superLabel "extends" d.superclasses
        ++ (clauseTrees .interfaces "implements" d.interfaces
          ++ bodyTrees d.category (d.members.map Member.tree))) := by
  have hcomponents : ∀ us, ParseTree.inside? label (d.componentTrees ++ us)
      = ParseTree.inside? label us := by
    intro us
    rw [Declaration.componentTrees]
    split
    · exact (inside?_node _).trans (if_neg hparameters.symm)
    · rfl
  rw [Declaration.parts_eq, inside?_leaf, inside?_nameTree, if_neg hname.symm, hcomponents]

theorem inside?_bodyTrees (hbody : label ≠ .body) (hconstants : label ≠ .constants)
    (category : Category) : ParseTree.inside? label (bodyTrees category us) = none := by
  rw [bodyTrees]
  split <;> simp [openBrace, closeBrace, hbody.symm, hconstants.symm]

theorem superLabel_ne (category : Category) (h : label ≠ .superclass)
    (h' : label ≠ .superinterfaces) : category.superLabel ≠ label := by
  cases category <;> simp [Category.superLabel, h.symm, h'.symm]

/-- The types behind `extends` are found under the label that the category has for them. -/
theorem clauseTypes_extends (h : d.HasWritableHead names)
    (hne : label ∉ [.identifier, .parameters, .interfaces, .body, .constants]) :
    clauseTypes (ParseTree.inside label d.parts)
      = if d.category.superLabel = label then d.superclasses else [] := by
  simp only [List.mem_cons, not_or] at hne
  obtain ⟨hname, hparameters, hinterfaces, hbody, hconstants, -⟩ := hne
  have hnone : ParseTree.inside? label (clauseTrees .interfaces "implements" d.interfaces
      ++ bodyTrees d.category (d.members.map Member.tree)) = none := by
    rw [inside?_clause (Ne.symm hinterfaces), inside?_bodyTrees hbody hconstants]
  rw [ParseTree.inside, inside?_parts hname hparameters]
  split
  · next heq =>
    rw [heq]
    exact clauseTypes_clause "extends" h.superclasses hnone
  · next heq =>
    rw [inside?_clause heq, hnone]
    rfl

theorem clauseTypes_superclasses (h : d.HasWritableHead names) :
    clauseTypes (ParseTree.inside .superclass d.parts)
      ++ clauseTypes (ParseTree.inside .superinterfaces d.parts) = d.superclasses := by
  rw [clauseTypes_extends h (by decide), clauseTypes_extends h (by decide)]
  cases d.category <;> simp [Category.superLabel]

theorem clauseTypes_interfaces (h : d.HasWritableHead names) :
    clauseTypes (ParseTree.inside .interfaces d.parts) = d.interfaces := by
  rw [ParseTree.inside, inside?_parts (by decide) (by decide),
    inside?_clause (superLabel_ne _ (by decide) (by decide))]
  exact clauseTypes_clause "implements" h.interfaces
    (inside?_bodyTrees (by decide) (by decide) d.category)

theorem nameIn_parts (d : Declaration) : nameIn d.parts = d.name := by
  refine nameIn_eq ?_
  rw [Declaration.parts_eq]
  cases d.category <;> rfl

theorem parametersIn_parts (h : d.HasWritableHead names) :
    (if d.category = .recordType then parametersIn d.parts else []) = d.components := by
  cases hcategory : d.category with
  | recordType =>
      refine parametersIn_eq ?_ h.components
      rw [Declaration.parts_eq, Declaration.componentTrees, hcategory]
      rfl
  | other name => exact absurd hcategory (h.category_ne name)
  | _ =>
      have hfits := h.fits
      simp only [Declaration.FitsCategory, hcategory] at hfits
      simp [hfits]

theorem bodyMembers_parts (d : Declaration) :
    bodyMembers d.parts = (d.members.map Member.tree).filterMap member? := by
  have hopen : member? openBrace = none := rfl
  have hclose : [closeBrace].filterMap member? = [] := rfl
  rw [bodyMembers_eq, ParseTree.inside, inside?_parts (by decide) (by decide),
    inside?_clause (superLabel_ne _ (by decide) (by decide)), inside?_clause (by decide),
    bodyTrees, members_eq_filterMap]
  split
  · rfl
  · have hbody : (ParseTree.inside? .body [ParseTree.node .body (openBrace
        :: (d.members.map Member.tree ++ [closeBrace]))]).getD []
        = openBrace :: (d.members.map Member.tree ++ [closeBrace]) := rfl
    rw [hbody, List.filterMap_cons, hopen, List.filterMap_append, hclose, List.append_nil]

/-- The parts of a type say what it is, if its body has its members. -/
theorem declarationOf_parts (h : d.HasWritableHead names) :
    declarationOf d.category (d.annotations.map annotationTree ++ d.modifiers.map modifierLeaf)
      d.parts d.members = d := by
  rw [declarationOf, nameIn_parts, modifiersIn_eq d.annotations h.modifiers.nodup,
    annotationsIn_eq fun a ha => (h.annotations a ha).1, clauseTypes_superclasses h, clauseTypes_interfaces h,
    parametersIn_parts h]
  -- types are recursive, so this is no equation by definition
  cases d
  rfl

end

/-! ## Any depth -/

theorem member?_modified (ms : List SyntaxTree) (t : SyntaxTree) :
    member? (modified ms t) = declared? ms t := by
  cases ms <;> rfl

theorem declared?_type {category : Category} (h : ∀ name, category ≠ .other name)
    (ms us : List SyntaxTree) : declared? ms (.node category.label us)
      = some (.type (declarationOf category ms us (bodyMembers us))) := by
  cases category with
  | other name => exact absurd rfl (h name)
  | _ => rfl

mutual
/-- **The tree of a member declares it.** -/
theorem member?_tree {names : Opening → String → Prop} {category : Category} : {m : Member} →
    m.IsWritable names category → member? m.tree = some m
  | .field _, .field h => by
      rw [Member.tree, member?_modified, declared?, fieldOf_parts h]
  | .constructor _, .constructor h => by
      rw [Member.tree, member?_modified, declared?, constructorOf_parts h]
  | .method _, .method h => by
      rw [Member.tree, member?_modified, declared?, methodOf_parts h]
  | .element _, .element h => by
      rw [Member.tree, member?_modified, declared?, elementOf_parts h]
  | .type _, .type h => member?_declaration h

/-- **The tree of a type declares it.** -/
theorem member?_declaration {names : Opening → String → Prop} : {d : Declaration} →
    d.IsWritable names → member? d.tree = some (.type d)
  | d, .mk head _ members => by
      have hmembers : (d.members.map Member.tree).filterMap member? = d.members :=
        filterMap_map_eq_self fun m hm => member?_tree (members m hm)
      rw [Declaration.tree_eq, member?_modified, declared?_type head.category_ne,
        bodyMembers_parts, hmembers, declarationOf_parts head]
end

end JavaOutline
