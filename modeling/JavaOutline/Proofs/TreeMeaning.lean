import JavaOutline.Structure.Unit

/-!
# JavaOutline.Proofs.TreeMeaning

What the members that trees declare depend on.

Declarations are read child by child down to certain nodes, which are read as a whole:
types, names, lists of parameters and the like. `SaysSame` relates trees that agree in
the texts of their tokens and in what those nodes say (`SameContent`). Of all other nodes
nothing is read: whatever stands inside blocks, values, constants and the arguments of
annotations, the members are the same (`SaysSame.member?_eq`).
-/

namespace JavaOutline.Structure

open Grammar Source ParseTree

/-! ## Trees that say the same -/

/-- Is a node with the label read child by child? -/
def isRead : Label → Bool
  | .declaration | .modifiers | .classType | .interfaceType | .enumType | .recordType
  | .annotationType | .body | .field | .variable | .method | .constructor | .element => true
  | _ => false

/-- What is read of the children of a node that is read as a whole. -/
def SameContent (label : Label) (ts us : List SyntaxTree) : Prop :=
  match label with
  | .identifier => sourceText ts = sourceText us
  | .type => typeOf (.node .type ts) = typeOf (.node .type us)
  | .dimensions => bracketCount ts = bracketCount us
  | .superclass | .superinterfaces | .interfaces | .throws => clauseTypes ts = clauseTypes us
  | .parameters => ts.filterMap parameter? = us.filterMap parameter?
  | .annotationUse => compactText (inside .name ts) = compactText (inside .name us)
  | _ => True

mutual
/-- The trees declare the same, so far as they declare anything. -/
inductive SaysSame : SyntaxTree → SyntaxTree → Prop
  | leaf {t u : Token} (h : t.text = u.text) : SaysSame (.leaf t) (.leaf u)
  | read {label : Label} {ts us : List SyntaxTree} (hlabel : isRead label = true)
      (h : AllSaySame ts us) : SaysSame (.node label ts) (.node label us)
  | content {label : Label} {ts us : List SyntaxTree} (hlabel : isRead label = false)
      (h : SameContent label ts us) : SaysSame (.node label ts) (.node label us)

/-- The trees of two lists say the same, one by one. -/
inductive AllSaySame : List SyntaxTree → List SyntaxTree → Prop
  | nil : AllSaySame [] []
  | cons {t u : SyntaxTree} {ts us : List SyntaxTree} (h : SaysSame t u) (hs : AllSaySame ts us) :
      AllSaySame (t :: ts) (u :: us)
end

theorem sameContent_refl (label : Label) (ts : List SyntaxTree) : SameContent label ts ts := by
  unfold SameContent
  split <;> trivial

mutual
theorem saysSame_refl : (t : SyntaxTree) → SaysSame t t
  | .leaf _ => .leaf rfl
  | .node label ts => by
      cases hread : isRead label with
      | true => exact .read hread (allSaySame_refl ts)
      | false => exact .content hread (sameContent_refl label ts)

theorem allSaySame_refl : (ts : List SyntaxTree) → AllSaySame ts ts
  | [] => .nil
  | t :: ts => .cons (saysSame_refl t) (allSaySame_refl ts)
end

/-! ## Parts of declarations -/

/-- What is inside a node with a label is the children of one. -/
theorem mem_of_inside? {label : Label} {ts us : List SyntaxTree} (h : inside? label ts = some us) :
    .node label us ∈ ts := by
  obtain ⟨t, ht, heq⟩ := List.exists_of_findSome?_eq_some h
  cases t with
  | leaf => contradiction
  | node l vs =>
      simp only [Option.ite_none_right_eq_some, beq_iff_eq, Option.some.injEq] at heq
      obtain ⟨rfl, rfl⟩ := heq
      exact ht

/-- The nodes of two trees with a label are in the same places and say the same. -/
theorem SaysSame.node_iff {t u : SyntaxTree} (h : SaysSame t u) (label : Label) :
    (∃ ts us, t = .node label ts ∧ u = .node label us)
      ∨ (∀ ts, t ≠ .node label ts) ∧ ∀ us, u ≠ .node label us := by
  cases h with
  | leaf => exact .inr ⟨nofun, nofun⟩
  | @read l ts us | @content l ts us =>
      by_cases hl : l = label
      · exact .inl ⟨ts, us, by rw [hl], by rw [hl]⟩
      · exact .inr ⟨by simp [hl], by simp [hl]⟩

/-- There is nothing inside a tree of another label. -/
theorem inside?_cons_of_ne {label : Label} {t : SyntaxTree} (h : ∀ ts, t ≠ .node label ts)
    (us : List SyntaxTree) : inside? label (t :: us) = inside? label us := by
  cases t with
  | leaf => rfl
  | node l ts =>
      have hl : l ≠ label := fun hl => h ts (by rw [hl])
      simp [ParseTree.inside?, hl]

/-- What is inside the first node with a label says the same, if there is one. -/
theorem AllSaySame.inside? {ts us : List SyntaxTree} (h : AllSaySame ts us) (label : Label) :
    (inside? label ts = none ∧ inside? label us = none)
      ∨ ∃ vs ws, inside? label ts = some vs ∧ inside? label us = some ws
        ∧ SaysSame (.node label vs) (.node label ws) := by
  induction ts generalizing us with
  | nil =>
      cases h
      exact .inl ⟨rfl, rfl⟩
  | cons t ts ih =>
      cases h with
      | cons htu hs =>
          rcases htu.node_iff label with ⟨vs, ws, rfl, rfl⟩ | ⟨ht, hu⟩
          · exact .inr ⟨vs, ws, by simp [ParseTree.inside?], by simp [ParseTree.inside?], htu⟩
          · rw [inside?_cons_of_ne ht, inside?_cons_of_ne hu]
            exact ih hs

variable {ts us ms ns : List SyntaxTree}

/-- What is inside a node that is read as a whole. -/
theorem AllSaySame.sameContent (h : AllSaySame ts us) (label : Label)
    (hlabel : isRead label = false) (hnil : SameContent label [] []) :
    SameContent label (inside label ts) (inside label us) := by
  rcases h.inside? label with ⟨ht, hu⟩ | ⟨vs, ws, ht, hu, hsame⟩
  · simpa [inside, ht, hu] using hnil
  · cases hsame with
    | read htrue => simp [hlabel] at htrue
    | content _ hcontent => simpa [inside, ht, hu] using hcontent

section

variable (h : AllSaySame ts us)

include h

theorem AllSaySame.nameIn_eq : nameIn ts = nameIn us :=
  h.sameContent .identifier rfl rfl

theorem AllSaySame.typeIn_eq : typeIn ts = typeIn us :=
  h.sameContent .type rfl rfl

theorem AllSaySame.dimensionsIn_eq : dimensionsIn ts = dimensionsIn us :=
  h.sameContent .dimensions rfl rfl

theorem AllSaySame.parametersIn_eq : parametersIn ts = parametersIn us :=
  h.sameContent .parameters rfl rfl

theorem AllSaySame.throwsIn_eq : throwsIn ts = throwsIn us :=
  h.sameContent .throws rfl rfl

/-- Whether there is a node with a label. -/
theorem AllSaySame.isSome_inside?_eq (label : Label) :
    (ParseTree.inside? label ts).isSome = (ParseTree.inside? label us).isSome := by
  rcases h.inside? label with ⟨ht, hu⟩ | ⟨vs, ws, ht, hu, -⟩ <;> rw [ht, hu]
  rfl

end

/-- What is read of trees one by one. -/
theorem AllSaySame.filterMap_eq {f : SyntaxTree → Option α}
    (hf : ∀ {t u : SyntaxTree}, SaysSame t u → f t = f u) {ts us : List SyntaxTree}
    (h : AllSaySame ts us) : ts.filterMap f = us.filterMap f := by
  match h with
  | .nil => rfl
  | .cons htu hs => rw [List.filterMap_cons, List.filterMap_cons, hf htu, hs.filterMap_eq hf]

/-! ## Members -/

theorem SaysSame.modifier?_eq {t u : SyntaxTree} (h : SaysSame t u) :
    modifier? t = modifier? u := by
  cases h with
  | leaf htext => simp [modifier?, htext]
  | @read label | @content label => cases label <;> rfl

theorem AllSaySame.modifiersIn_eq (h : AllSaySame ts us) : modifiersIn ts = modifiersIn us := by
  rw [modifiersIn, modifiersIn, h.filterMap_eq SaysSame.modifier?_eq]

theorem AllSaySame.annotationsIn_eq (h : AllSaySame ts us) :
    annotationsIn ts = annotationsIn us := by
  refine h.filterMap_eq fun htu => ?_
  cases htu with
  | leaf => rfl
  | @read label _ _ hlabel =>
      cases label
      case annotationUse => contradiction
      all_goals rfl
  | @content label _ _ _ hcontent =>
      cases label
      case annotationUse => exact congrArg some hcontent
      all_goals rfl

theorem SaysSame.variableOf?_eq {t u : SyntaxTree} (h : SaysSame t u) :
    variableOf? t = variableOf? u := by
  cases h with
  | leaf => rfl
  | @read label _ _ _ hs =>
      cases label
      case «variable» => simp only [variableOf?, hs.nameIn_eq, hs.dimensionsIn_eq]
      all_goals rfl
  | @content label _ _ hlabel =>
      cases label
      case «variable» => contradiction
      all_goals rfl

theorem AllSaySame.fieldOf_eq (hm : AllSaySame ms ns) (h : AllSaySame ts us) :
    fieldOf ms ts = fieldOf ns us := by
  simp only [fieldOf, hm.modifiersIn_eq, h.typeIn_eq, h.filterMap_eq SaysSame.variableOf?_eq]

theorem AllSaySame.constructorOf_eq (hm : AllSaySame ms ns) (h : AllSaySame ts us) :
    constructorOf ms ts = constructorOf ns us := by
  simp only [constructorOf, h.nameIn_eq, hm.modifiersIn_eq, h.parametersIn_eq, h.throwsIn_eq]

theorem AllSaySame.methodOf_eq (hm : AllSaySame ms ns) (h : AllSaySame ts us) :
    methodOf ms ts = methodOf ns us := by
  simp only [methodOf, h.nameIn_eq, hm.modifiersIn_eq, h.typeIn_eq, h.dimensionsIn_eq,
    h.parametersIn_eq, h.throwsIn_eq]

theorem AllSaySame.elementOf_eq (hm : AllSaySame ms ns) (h : AllSaySame ts us) :
    elementOf ms ts = elementOf ns us := by
  simp only [elementOf, h.nameIn_eq, hm.modifiersIn_eq, h.typeIn_eq, h.dimensionsIn_eq,
    h.isSome_inside?_eq]

/-- Types that say the same are the same apart from their members. -/
theorem AllSaySame.declarationOf_eq (hm : AllSaySame ms ns) (h : AllSaySame ts us)
    (category : Category) (members : List Member) :
    declarationOf category ms ts members = declarationOf category ns us members := by
  have hclause : ∀ label, isRead label = false → SameContent label = SameContent .throws →
      clauseTypes (inside label ts) = clauseTypes (inside label us) := by
    intro label hlabel heq
    have hcontent := h.sameContent label hlabel (by rw [heq]; rfl)
    rwa [heq] at hcontent
  simp only [declarationOf, h.nameIn_eq, hm.modifiersIn_eq, hm.annotationsIn_eq,
    hclause .superclass rfl rfl, hclause .superinterfaces rfl rfl,
    hclause .interfaces rfl rfl, h.parametersIn_eq]

mutual
/-- **Trees that say the same declare the same member**, if they declare one. -/
theorem SaysSame.member?_eq {t u : SyntaxTree} (h : SaysSame t u) : member? t = member? u := by
  match h with
  | .leaf _ => rfl
  | @SaysSame.content label _ _ hlabel _ =>
      cases label
      case declaration => contradiction
      all_goals rfl
  | @SaysSame.read label _ _ _ hs =>
      cases label
      case declaration =>
        match hs with
        | .nil => rfl
        | .cons ht .nil => exact ht.declared?_eq .nil
        | .cons (.leaf _) (.cons _ .nil) => rfl
        | .cons (@SaysSame.read label _ _ _ hms) (.cons ht .nil) =>
            cases label
            case modifiers => exact ht.declared?_eq hms
            all_goals rfl
        | .cons (@SaysSame.content label _ _ hlabel _) (.cons ht .nil) =>
            cases label
            case modifiers => contradiction
            all_goals rfl
        | .cons _ (.cons _ (.cons _ _)) => simp [member?]
      all_goals rfl

/-- So they do behind modifiers that say the same. -/
theorem SaysSame.declared?_eq {t u : SyntaxTree} {ms ns : List SyntaxTree} (h : SaysSame t u)
    (hm : AllSaySame ms ns) : declared? ms t = declared? ns u := by
  match h with
  | .leaf _ => rfl
  | @SaysSame.content label _ _ hlabel _ =>
      cases label
      all_goals first | rfl | contradiction
  | @SaysSame.read label ts us hlabel hs =>
      have hbody := hs.bodyMembers_eq
      cases label
      case field => rw [declared?, declared?, hm.fieldOf_eq hs]
      case constructor => rw [declared?, declared?, hm.constructorOf_eq hs]
      case method => rw [declared?, declared?, hm.methodOf_eq hs]
      case element => rw [declared?, declared?, hm.elementOf_eq hs]
      case classType | interfaceType | enumType | recordType | annotationType =>
        simp only [declared?, category?, hbody, hm.declarationOf_eq hs]
      all_goals rfl

theorem AllSaySame.bodyMembers_eq {ts us : List SyntaxTree} (h : AllSaySame ts us) :
    bodyMembers ts = bodyMembers us := by
  match h with
  | .nil => rfl
  | .cons (.leaf _) hs => exact hs.bodyMembers_eq
  | .cons (@SaysSame.read label _ _ _ hts) hs =>
      have hskip := hs.bodyMembers_eq
      cases label
      case body => exact hts.members_eq
      all_goals exact hskip
  | .cons (@SaysSame.content label _ _ hlabel _) hs =>
      have hskip := hs.bodyMembers_eq
      cases label
      case body => contradiction
      all_goals exact hskip

/-- The members among trees that say the same. -/
theorem AllSaySame.members_eq {ts us : List SyntaxTree} (h : AllSaySame ts us) :
    members ts = members us := by
  match h with
  | .nil => rfl
  | .cons htu hs => rw [members, members, htu.member?_eq, hs.members_eq]
end

end JavaOutline.Structure
