import JavaOutline.Proofs.ModifierReading

/-!
# JavaOutline.Proofs.DeclarationReading

How the grammar reads types and their members as their trees.

Behind its modifiers each sort of declaration is told apart from the alternatives in
front of it, by its first word or by what stands behind its name. The members in the body
of a type are read one by one, and a type may itself be a member, so `reads_member` and
`reads_declaration` go through a declaration together.
-/

namespace JavaOutline

open Source Grammar Pattern Structure

/-! ## Members -/

/-- The rule of the members of a type. -/
def Category.memberRule : Category → Rule
  | .interfaceType => .interfaceMember
  | .annotationType => .annotationMember
  | _ => .classMember

/-- What may be declared behind the modifiers of a member. -/
def Category.memberForms : Category → List Form
  | .interfaceType => typeForms ++ [methodForm .member, fieldForm .member]
  | .annotationType => plainTypes ++ [elementForm, fieldForm .annotationMember]
  | _ => typeForms ++ [constructorForm, compactConstructorForm, methodForm .member,
      fieldForm .member]

section

variable {us : List SyntaxTree} {t : SyntaxTree} {ts : List SyntaxTree} {rest : List Token}

/-- What is declared is a member if it is one of the forms of members. -/
theorem reads_declaredMember (category : Category) (hus : ∀ u ∈ us, IsModifierTree u)
    (ht : EndsModifiers (t.tokens ++ rest))
    (h : Reads 3 (any category.memberForms) [t] rest) :
    Reads 4 (.rule category.memberRule) [modified us t] rest := by
  have hdeclared := (reads_modified hus ht h (by decide) (by decide)).takes
  have hblocks : ∀ p ∈ [text ";", .rule .block, .seq (text "static") (.rule .block)],
      Refuses Rule.form 3 p ((modified us t).tokens ++ rest) :=
    fun p hp => (refuses_blocks hus ht p hp).mono (Nat.zero_le 3)
  have hsign : ∀ p ∈ [text ";"], Refuses Rule.form 3 p ((modified us t).tokens ++ rest) := by
    simpa using hblocks (text ";") (by simp)
  refine .of_takes (Takes.rule ?_)
  cases category with
  | interfaceType => exact hdeclared.any hsign
  | annotationType => exact hdeclared.any hsign
  | _ => exact hdeclared.any hblocks

/-- Behind a first word of a type modifiers have ended. -/
theorem endsModifiers_word {place : Place} (hplace : Place.ReservesModifiers place)
    {lead : List Lexeme} {w : String} (hw : BeginsType place w) {u : Token} {input : List Token}
    (hu : u.text ≠ "-") : EndsModifiers (wordToken lead w :: u :: input) where
  refuses := (refuses_modifier hplace hw hu).mono (Nat.zero_le 1)
  avoids := by
    have hall : ∀ s ∈ [".", "(", ";", "\x7b", "static"], ¬ BeginsType place s := by
      cases place <;> decide
    exact ⟨wordToken lead w, _, rfl, fun hmem => hall w hmem hw⟩

theorem BeginsMember.endsModifiers {place : Place} {input : List Token}
    (h : BeginsMember place input) (hplace : Place.ReservesModifiers place) :
    EndsModifiers input := by
  obtain ⟨lead, w, u, ys, rfl, hw, hu⟩ := h
  exact endsModifiers_word hplace hw fun he => hu (by simp [he])

/-! ### Methods, fields and elements -/

/-- The forms of types and of constructors come before those of methods and fields. -/
theorem exists_memberForms_eq {category : Category} (h : category ≠ .annotationType) :
    ∃ forms, category.memberForms = forms ++ [methodForm .member, fieldForm .member]
      ∧ ∀ p ∈ forms, p ∈ typeForms ++ [constructorForm, compactConstructorForm] := by
  cases category with
  | annotationType => contradiction
  | interfaceType => exact ⟨typeForms, rfl, fun _ => List.mem_append_left _⟩
  | _ => exact ⟨typeForms ++ [constructorForm, compactConstructorForm], rfl, fun _ => id⟩

theorem BeginsMember.refuses_forms {input : List Token} (h : BeginsMember .member input) :
    ∀ p ∈ typeForms ++ [constructorForm, compactConstructorForm], Refuses Rule.form 3 p input := by
  refine List.forall_mem_append.mpr ⟨fun p hp => ?_, fun p hp => ?_⟩
  · exact (h.refuses_typeForms p hp).mono (Nat.zero_le 3)
  · exact (h.refuses_constructors p hp).mono (Nat.zero_le 3)

theorem beginsMember_method {m : Method} (h : m.IsWritable Opening.Reads) :
    BeginsMember .member (ParseTree.tokensAll m.parts ++ rest) :=
  beginsMember_type h.returnType (avoids_nameTree h.name (by decide) _ rest)

theorem reads_memberMethod {m : Method} (h : m.IsWritable Opening.Reads) {category : Category}
    (hcategory : category ≠ .annotationType) :
    Reads 3 (any category.memberForms) [.node .method m.parts] rest := by
  have hmethod : Reads 3 (methodForm .member) [.node .method m.parts] rest := reads_method h
  obtain ⟨forms, heq, hforms⟩ := exists_memberForms_eq hcategory
  rw [heq]
  exact .of_takes (hmethod.takes.any fun p hp =>
    (beginsMember_method h).refuses_forms p (hforms p hp))

/-- What stands behind the first name of a field statement does not begin parameters. -/
theorem exists_fieldTokens_eq {category : Category} {f : Field}
    (h : f.IsWritable Opening.Reads category) (rest : List Token) :
    ∃ w x ys, ParseTree.tokensAll f.parts ++ rest
        = (typeTree space f.type).tokens ++ wordToken space w :: x :: ys
      ∧ isName w = true ∧ x.text ≠ "(" := by
  cases hvs : f.declarators with
  | nil => exact absurd hvs h.declarators
  | cons v vs =>
      have hname : isName v.name = true := h.names v (by simp [hvs])
      have hlist : Avoids ["("] (ParseTree.tokensAll (afterCommas (vs.map Variable.tree))
          ++ (signToken ";" :: rest)) :=
        avoids_afterCommas (by decide) _ ⟨signToken ";", rest, rfl, by decide⟩
      have hnext : Avoids ["("] (ParseTree.tokensAll (dimensionTrees v.dimensions)
          ++ (ParseTree.tokensAll (afterCommas (vs.map Variable.tree))
            ++ (signToken ";" :: rest))) := by
        rw [dimensionTrees]
        split
        · exact hlist
        · next hn =>
          obtain ⟨n, hn⟩ := Nat.exists_eq_succ_of_ne_zero hn
          rw [hn]
          exact ⟨signToken "[", _, rfl, by decide⟩
      obtain ⟨x, ys, heq, hx⟩ := hnext
      refine ⟨v.name, x, ys, ?_, hname, fun he => hx (by simp [he])⟩
      rw [← heq]
      simp [Field.parts, hvs, withCommas, Variable.tree, nameTree, signLeaf, ParseTree.tokens,
        ParseTree.tokensAll, ParseTree.tokensAll_append]

theorem beginsMember_field {category : Category} {f : Field}
    (h : f.IsWritable Opening.Reads category) :
    BeginsMember category.place (ParseTree.tokensAll f.parts ++ rest) := by
  obtain ⟨w, x, ys, heq, hw, -⟩ := exists_fieldTokens_eq h rest
  rw [heq]
  exact beginsMember_typeTree h.type space (notMem_of_isName hw (by decide)) _

theorem Category.place_eq_member {category : Category} (h : category ≠ .annotationType) :
    category.place = .member := by
  cases category with
  | annotationType => contradiction
  | _ => rfl

theorem Category.reservesModifiers (category : Category) :
    Place.ReservesModifiers category.place := by
  by_cases h : category = .annotationType
  · rw [h]
    decide
  · rw [place_eq_member h]
    decide

/-- A field statement is no method. -/
theorem refuses_method_field {category : Category} (hcategory : category ≠ .annotationType)
    {f : Field} (h : f.IsWritable Opening.Reads category) :
    Refuses Rule.form 2 (methodForm .member) (ParseTree.tokensAll f.parts ++ rest) := by
  obtain ⟨w, x, ys, heq, hw, hx⟩ := exists_fieldTokens_eq h rest
  have htype := h.type
  rw [Category.place_eq_member hcategory] at htype
  rw [heq]
  exact refuses_methodForm htype hw hx

/-- A field statement is no element of an annotation type. -/
theorem refuses_element_field {f : Field} (h : f.IsWritable Opening.Reads .annotationType) :
    Refuses Rule.form 2 elementForm (ParseTree.tokensAll f.parts ++ rest) := by
  obtain ⟨w, x, ys, heq, hw, hx⟩ := exists_fieldTokens_eq h rest
  have htype : Takes Rule.form 2 (.rule (.type .annotationMember))
      ((typeTree space f.type).tokens ++ wordToken space w :: x :: ys) [typeTree space f.type]
      (wordToken space w :: x :: ys) := h.type.takes space (notMem_typeEnds hw)
  have hname : Takes Rule.form 0 memberName (wordToken space w :: x :: ys) [nameTree w]
      (x :: ys) := takes_memberName hw
  rw [heq]
  exact (htype.followed_refuses ((hname.followed_refuses (refuses_text hx).seq
    (Nat.zero_le _)).mono (Nat.zero_le 2)) (by decide)).node

theorem reads_memberField {category : Category} {f : Field}
    (h : f.IsWritable Opening.Reads category) :
    Reads 3 (any category.memberForms) [.node .field f.parts] rest := by
  have hbegins : BeginsMember category.place (ParseTree.tokensAll f.parts ++ rest) :=
    beginsMember_field h
  have hfield : Takes Rule.form 3 (fieldForm category.place)
      (ParseTree.tokensAll f.parts ++ rest) [.node .field f.parts] rest :=
    ((reads_field h).mono (by decide)).takes
  refine .of_takes ?_
  by_cases hcategory : category = .annotationType
  · -- elements stand where other types have methods
    subst hcategory
    have hbefore : ∀ p ∈ plainTypes ++ [elementForm],
        Refuses Rule.form 3 p (ParseTree.tokensAll f.parts ++ rest) := by
      refine List.forall_mem_append.mpr
        ⟨fun p hp => (hbegins.refuses_plainTypes p hp).mono (Nat.zero_le 3), ?_⟩
      simpa using (refuses_element_field h).mono (by decide)
    have hforms : Category.annotationType.memberForms
        = (plainTypes ++ [elementForm]) ++ fieldForm .annotationMember :: [] := rfl
    rw [hforms]
    exact hfield.any hbefore
  · have hmethod : Refuses Rule.form 3 (methodForm .member)
        (ParseTree.tokensAll f.parts ++ rest) :=
      (refuses_method_field hcategory h).mono (by decide)
    rw [Category.place_eq_member hcategory] at hbegins hfield
    obtain ⟨forms, heq, hforms⟩ := exists_memberForms_eq hcategory
    have hbefore : ∀ p ∈ forms ++ [methodForm .member],
        Refuses Rule.form 3 p (ParseTree.tokensAll f.parts ++ rest) := by
      refine List.forall_mem_append.mpr ⟨fun p hp => hbegins.refuses_forms p (hforms p hp), ?_⟩
      simpa using hmethod
    rw [heq, List.append_cons]
    exact hfield.any hbefore

theorem beginsMember_element {e : Element} (h : e.IsWritable Opening.Reads) :
    BeginsMember .annotationMember (ParseTree.tokensAll e.parts ++ rest) :=
  beginsMember_type h.returnType (avoids_nameTree h.name (by decide) _ rest)

theorem reads_memberElement {e : Element} (h : e.IsWritable Opening.Reads) :
    Reads 3 (any Category.annotationType.memberForms) [.node .element e.parts] rest := by
  have helement : Reads 3 elementForm [.node .element e.parts] rest :=
    (reads_element h).mono (by decide)
  exact .of_takes (helement.takes.any fun p hp =>
    ((beginsMember_element h).refuses_plainTypes p hp).mono (Nat.zero_le 3))

/-! ### Constructors -/

/-- The name of a constructor could begin a type. -/
theorem beginsType_constructor {c : Constructor} (h : c.IsWritable Opening.Reads) :
    BeginsType .member c.name := beginsType_of_reads h.name h.reads

theorem refuses_typeForms_constructor {c : Constructor} (h : c.IsWritable Opening.Reads) :
    ∀ p ∈ typeForms, Refuses Rule.form 0 p (ParseTree.tokensAll c.parts ++ rest) := by
  intro p hp
  refine refuses_of_beginsType (beginsType_constructor h) 1 ?_
  revert p
  decide +kernel

theorem endsModifiers_constructor {c : Constructor} (h : c.IsWritable Opening.Reads) :
    EndsModifiers (ParseTree.tokensAll c.parts ++ rest) :=
  endsModifiers_word (by decide) (beginsType_constructor h) (u := signToken "(") (by decide)

theorem reads_memberConstructor {c : Constructor} (h : c.IsWritable Opening.Reads)
    {category : Category} (hinterface : category ≠ .interfaceType) (hannotationType : category ≠ .annotationType) :
    Reads 3 (any category.memberForms) [.node .constructor c.parts] rest := by
  have hconstructor : Reads 3 constructorForm [.node .constructor c.parts] rest :=
    reads_constructor h
  have htypes : ∀ p ∈ typeForms, Refuses Rule.form 3 p
      ((ParseTree.node .constructor c.parts).tokens ++ rest) :=
    fun p hp => (refuses_typeForms_constructor h p hp).mono (Nat.zero_le 3)
  refine .of_takes ?_
  cases category with
  | interfaceType | annotationType => contradiction
  | _ => exact hconstructor.takes.any htypes

end

/-! ## Types -/

/-- The form of a type of a category. -/
def Category.form : Category → Form
  | .classType => classForm
  | .interfaceType => interfaceForm
  | .enumType => enumForm
  | .recordType => recordForm
  | .annotationType => annotationTypeForm
  | .other _ => .nothing

/-- The forms of types that are tried in front of that of a category. -/
def Category.formsBefore : Category → List Form
  | .interfaceType => [classForm]
  | .annotationType => [classForm, interfaceForm]
  | .enumType => [classForm, interfaceForm, annotationTypeForm]
  | .recordType => plainTypes
  | _ => []

section

variable {category : Category} {us : List SyntaxTree} {rest : List Token}

/-- The keyword tells types apart. -/
theorem refuses_formsBefore (us : List SyntaxTree) : ∀ p ∈ category.formsBefore,
    Refuses Rule.form 0 p (ParseTree.tokensAll (.leaf category.keywordToken :: us) ++ rest) := by
  intro p hp
  cases category with
  | classType | other => contradiction
  | _ =>
      refine refuses_of_text 1 ?_
      revert p
      decide +kernel

/-- The words and the sign that types begin with. -/
def typeKeywords : List String := ["class", "interface", "enum", "record", "@interface"]

/-- What a type begins with. -/
theorem avoids_keyword {l : List String} (hcategory : ∀ name, category ≠ .other name)
    (hl : ∀ s ∈ typeKeywords, s ∉ l) (us : List SyntaxTree) :
    Avoids l (ParseTree.tokensAll (.leaf category.keywordToken :: us) ++ rest) := by
  cases category with
  | other name => exact absurd rfl (hcategory name)
  | _ => exact avoids_leaf (hl _ (by decide)) us rest

theorem endsModifiers_keyword (hcategory : ∀ name, category ≠ .other name)
    (us : List SyntaxTree) :
    EndsModifiers (ParseTree.tokensAll (.leaf category.keywordToken :: us) ++ rest) where
  refuses := by
    cases category with
    | other name => exact absurd rfl (hcategory name)
    | _ => exact (refuses_of_text 1 (by decide +kernel)).mono (Nat.zero_le 1)
  avoids := avoids_keyword hcategory (by decide) us

/-! ### Bodies -/

/-- No member begins with a closing brace. -/
theorem refuses_memberRule (category : Category) :
    Refuses Rule.form 0 (.rule category.memberRule) (spacedSign "\x7d" :: rest) := by
  have hclass : Refuses Rule.form 0 (.rule .classMember) (spacedSign "\x7d" :: rest) :=
    refuses_of_text 5 (by decide +kernel)
  cases category with
  | interfaceType => exact refuses_of_text 5 (by decide +kernel)
  | annotationType => exact refuses_of_text 5 (by decide +kernel)
  | _ => exact hclass

/-- Members are read one after another. -/
theorem reads_members (category : Category) (hne : ∀ u ∈ us, u.tokens ≠ [])
    (hus : ∀ u ∈ us, ∀ rest, Reads 4 (.rule category.memberRule) [u] rest) :
    Reads 4 (.many (.rule category.memberRule)) us (spacedSign "\x7d" :: rest) := by
  have hend : Refuses Rule.form 4 (.rule category.memberRule) (spacedSign "\x7d" :: rest) :=
    (refuses_memberRule category).mono (Nat.zero_le 4)
  exact (reads_many (C := fun _ => True) (by decide) hne
    (fun u hu rest _ => ⟨hus u hu rest, trivial⟩) trivial hend).1

theorem reads_closeBrace : Reads 0 (text "\x7d") [closeBrace] rest :=
  reads_token (accepts_text "\x7d" space .symbol)

/-- A body of members of one sort. -/
theorem reads_bodyOf (category : Category) (hne : ∀ u ∈ us, u.tokens ≠ [])
    (hus : ∀ u ∈ us, ∀ rest, Reads 4 (.rule category.memberRule) [u] rest) :
    Reads 0 (bodyOf category.memberRule) [.node .body (openBrace :: (us ++ [closeBrace]))]
      rest := by
  have hmembers : Reads 4 (.many (.rule category.memberRule)) us
      (ParseTree.tokensAll [closeBrace] ++ rest) := reads_members category hne hus
  have hinside := hmembers.seq (reads_closeBrace.mono (Nat.zero_le 4)) (by decide)
  exact (reads_token_seq (accepts_text "\x7b" space .symbol) hinside (by decide)).node .body

/-- The body of an enumeration without constants. -/
theorem reads_enumBody (hne : ∀ u ∈ us, u.tokens ≠ [])
    (hus : ∀ u ∈ us, ∀ rest, Reads 4 (.rule .classMember) [u] rest) :
    Reads 0 (inBraces (all [.node .constants (commaSeparated enumConstant), maybe (text ","),
        maybe (.node .body (.seq (text ";") (.many (.rule .classMember))))]))
      [openBrace, .node .constants [], .node .body (signLeaf ";" :: us), closeBrace] rest := by
  have hmembers : Reads 4 (.many (.rule .classMember)) us
      (ParseTree.tokensAll [closeBrace] ++ rest) :=
    reads_members .enumType hne hus
  have hbody := ((reads_token_seq (accepts_text ";" [] .symbol) hmembers (by decide)).node .body)
  have hmaybe : Reads 0 (maybe (.node .body (.seq (text ";") (.many (.rule .classMember)))))
      [.node .body (signLeaf ";" :: us)] (ParseTree.tokensAll [closeBrace] ++ rest) :=
    Takes.maybe hbody
  have hcomma := hmaybe.skip (p := text ",") (refuses_text (by decide))
  have hnone : Refuses Rule.form 0 (separated "," enumConstant)
      (ParseTree.tokensAll [.node .body (signLeaf ";" :: us)]
        ++ (ParseTree.tokensAll [closeBrace] ++ rest)) := refuses_of_text 2 (by decide +kernel)
  have hconstants := ((reads_none hnone).node .constants).seq hcomma (Nat.zero_le _)
  have hinside := hconstants.seq reads_closeBrace (Nat.zero_le _)
  exact reads_token_seq (accepts_text "\x7b" space .symbol) hinside (Nat.zero_le _)

/-! ### Heads -/

/-- A body begins with a brace. -/
theorem avoids_body {l : List String} (hl : "\x7b" ∉ l) (category : Category)
    (us : List SyntaxTree) : Avoids l (ParseTree.tokensAll (bodyTrees category us) ++ rest) := by
  rw [bodyTrees]
  split <;> exact ⟨spacedSign "\x7b", _, rfl, hl⟩

/-- Behind the name of a type there are its clauses and its body. -/
theorem avoids_clauses {l : List String} (label : Label) (ts vs : List TypeRef)
    (hl : "extends" ∉ l ∧ "implements" ∉ l ∧ "\x7b" ∉ l) (category : Category)
    (us : List SyntaxTree) :
    Avoids l (ParseTree.tokensAll (clauseTrees label "extends" ts
      ++ (clauseTrees .interfaces "implements" vs ++ bodyTrees category us)) ++ rest) := by
  rw [ParseTree.tokensAll_append, ParseTree.tokensAll_append, List.append_assoc, List.append_assoc]
  exact avoids_clause label ts hl.1 (avoids_clause .interfaces vs hl.2.1
    (avoids_body hl.2.2 category us))

/-- A class extends one type or none. -/
theorem reads_superclass {ts : List TypeRef}
    (h : ∀ t ∈ ts, t.IsSpelled (Opening.Reads (.type .plain))) (hlen : ts.length ≤ 1)
    (hrest : Avoids typeEnds rest) :
    Reads 3 (maybe (.node .superclass (.seq (text "extends") (.rule (.anyType .plain)))))
      (clauseTrees .superclass "extends" ts) rest := by
  match ts with
  | [] =>
      have hkeyword : Refuses Rule.form 0
          (.node .superclass (.seq (text "extends") (.rule (.anyType .plain)))) rest :=
        (hrest.refuses_text (by simp [typeEnds])).seq.node
      exact reads_none (hkeyword.mono (Nat.zero_le 3))
  | [t] =>
      have htype := reads_anyType (h t (by simp)) hrest
      have hclause := (reads_token_seq (accepts_text "extends" space .word) htype
        (by decide)).node .superclass
      exact Takes.maybe (hclause.mono (Nat.zero_le 3))

/-- Type parameters begin with a sign of their own. -/
theorem refuses_typeParameters {input : List Token} (h : Avoids ["<"] input) :
    Refuses Rule.form 3 (.rule .typeParameters) input :=
  (Refuses.rule (d := 0) (h.refuses_text (by simp)).seq.node).mono (Nat.zero_le 3)

theorem refuses_permits {input : List Token} (h : Avoids ["permits"] input) :
    Refuses Rule.form 3 (typeList "permits") input :=
  (h.refuses_text (by simp)).seq.mono (Nat.zero_le 3)

section

variable {d : Declaration}

/-- The types that a type implements, in front of its body. -/
theorem reads_interfaces (h : d.HasWritableHead Opening.Reads) {q : Form}
    (hq : Reads 3 q (bodyTrees category us) rest) :
    Reads 3 (.seq interfacesForm q)
      (clauseTrees .interfaces "implements" d.interfaces ++ bodyTrees category us) rest := by
  have hbody : Avoids ("implements" :: "," :: typeEnds)
      (ParseTree.tokensAll (bodyTrees category us) ++ rest) := avoids_body (by decide) category us
  exact (reads_clause .interfaces h.interfaces hbody).seq hq (by decide)

theorem reads_class (h : d.HasWritableHead Opening.Reads) (hcategory : d.category = .classType)
    (hbody : Reads 0 (bodyOf .classMember) (bodyTrees .classType us) rest) :
    Reads 0 classForm [.node .classType (d.headTrees ++ bodyTrees .classType us)] rest := by
  have hfits := h.fits
  rw [Declaration.FitsCategory, hcategory] at hfits
  have hrule : Reads 3 (.rule .classBody) (bodyTrees .classType us) rest :=
    (Reads.rule (r := .classBody) hbody).mono (by decide)
  have hinterfaces := reads_interfaces h
    (hrule.skip (refuses_permits (avoids_body (by decide) .classType us)))
  have hnext : Avoids typeEnds (ParseTree.tokensAll (clauseTrees .interfaces "implements"
      d.interfaces ++ bodyTrees .classType us) ++ rest) := by
    rw [ParseTree.tokensAll_append, List.append_assoc]
    exact avoids_clause .interfaces d.interfaces (by decide) (avoids_body (by decide) .classType us)
  have hsuper := (reads_superclass h.superclasses hfits.1 hnext).seq hinterfaces (by decide)
  have hgeneric := hsuper.skip (refuses_typeParameters (avoids_clauses .superclass d.superclasses
    d.interfaces (by decide) .classType us))
  have hname := ((reads_name d.name).mono (Nat.zero_le 3)).seq hgeneric (by decide)
  rw [headTrees_append, Declaration.componentTrees, hcategory]
  exact (reads_token_seq (accepts_text "class" space .word) hname (by decide)).node .classType

theorem reads_interface (h : d.HasWritableHead Opening.Reads) (hcategory : d.category = .interfaceType)
    (hbody : Reads 0 (bodyOf .interfaceMember) (bodyTrees .interfaceType us) rest) :
    Reads 0 interfaceForm [.node .interfaceType (d.headTrees ++ bodyTrees .interfaceType us)]
      rest := by
  have hfits := h.fits
  rw [Declaration.FitsCategory, hcategory] at hfits
  have hpermits := (hbody.mono (Nat.zero_le 3)).skip
    (refuses_permits (avoids_body (by decide) .interfaceType us))
  have hnext : Avoids ("extends" :: "," :: typeEnds)
      (ParseTree.tokensAll (bodyTrees .interfaceType us) ++ rest) := avoids_body (by decide) _ us
  have hsuper := (reads_clause .superinterfaces h.superclasses hnext).seq hpermits (by decide)
  have hsign : Avoids ["<"] (ParseTree.tokensAll (clauseTrees .superinterfaces "extends"
      d.superclasses ++ bodyTrees .interfaceType us) ++ rest) :=
    avoids_clauses .superinterfaces d.superclasses [] (by decide) .interfaceType us
  have hgeneric := hsuper.skip (refuses_typeParameters hsign)
  have hname := ((reads_name d.name).mono (Nat.zero_le 3)).seq hgeneric (by decide)
  rw [headTrees_append, Declaration.componentTrees, hcategory, hfits.1]
  exact (reads_token_seq (accepts_text "interface" space .word) hname (by decide)).node
    .interfaceType

theorem reads_annotationType (h : d.HasWritableHead Opening.Reads) (hcategory : d.category = .annotationType)
    (hbody : Reads 0 (bodyOf .annotationMember) (bodyTrees .annotationType us) rest) :
    Reads 0 annotationTypeForm [.node .annotationType (d.headTrees ++ bodyTrees .annotationType us)]
      rest := by
  have hfits := h.fits
  rw [Declaration.FitsCategory, hcategory] at hfits
  have hname := (reads_name d.name).seq hbody (Nat.zero_le _)
  rw [headTrees_append, Declaration.componentTrees, hcategory, hfits.1, hfits.2.1]
  exact (reads_token_seq (accepts_text "@interface" space .symbol) hname (Nat.zero_le _)).node
    .annotationType

theorem reads_record (h : d.HasWritableHead Opening.Reads) (hcategory : d.category = .recordType)
    (hbody : Reads 0 (bodyOf .classMember) (bodyTrees .recordType us) rest) :
    Reads 0 recordForm [.node .recordType (d.headTrees ++ bodyTrees .recordType us)] rest := by
  have hfits := h.fits
  rw [Declaration.FitsCategory, hcategory] at hfits
  have hinterfaces := reads_interfaces h
    ((Reads.rule (r := .classBody) hbody).mono (e := 3) (by decide))
  have hcomponents := ((reads_parameters h.components).mono (by decide)).seq hinterfaces
    (by decide)
  have hgeneric := hcomponents.skip (refuses_typeParameters ⟨signToken "(", _, rfl, by decide⟩)
  have hname := ((reads_name d.name).mono (Nat.zero_le 3)).seq hgeneric (by decide)
  rw [headTrees_append, Declaration.componentTrees, hcategory, hfits]
  exact (reads_token_seq (accepts_text "record" space .word) hname (by decide)).node .recordType

theorem reads_enum (h : d.HasWritableHead Opening.Reads) (hcategory : d.category = .enumType)
    (hbody : Reads 0 (inBraces (all [.node .constants (commaSeparated enumConstant),
        maybe (text ","), maybe (.node .body (.seq (text ";") (.many (.rule .classMember))))]))
      (bodyTrees .enumType us) rest) :
    Reads 0 enumForm [.node .enumType (d.headTrees ++ bodyTrees .enumType us)] rest := by
  have hfits := h.fits
  rw [Declaration.FitsCategory, hcategory] at hfits
  have hinterfaces := reads_interfaces h (hbody.mono (Nat.zero_le 3))
  have hname := ((reads_name d.name).mono (Nat.zero_le 3)).seq hinterfaces (by decide)
  rw [headTrees_append, Declaration.componentTrees, hcategory, hfits.1]
  exact (reads_token_seq (accepts_text "enum" space .word) hname (by decide)).node .enumType

/-- A type whose members are read one by one. -/
theorem reads_form (h : d.HasWritableHead Opening.Reads) (hne : ∀ u ∈ us, u.tokens ≠ [])
    (hus : ∀ u ∈ us, ∀ rest, Reads 4 (.rule d.category.memberRule) [u] rest) :
    Reads 0 d.category.form [.node d.category.label (d.headTrees ++ bodyTrees d.category us)]
      rest := by
  cases hcategory : d.category with
  | other name => exact absurd hcategory (h.category_ne name)
  | classType =>
      exact reads_class h hcategory (reads_bodyOf .classType hne (hcategory ▸ hus))
  | interfaceType =>
      exact reads_interface h hcategory (reads_bodyOf .interfaceType hne (hcategory ▸ hus))
  | annotationType =>
      exact reads_annotationType h hcategory (reads_bodyOf .annotationType hne (hcategory ▸ hus))
  | recordType =>
      exact reads_record h hcategory (reads_bodyOf .recordType hne (hcategory ▸ hus))
  | enumType =>
      have hmembers : ∀ u ∈ us, ∀ rest, Reads 4 (.rule .classMember) [u] rest := by
        rw [hcategory] at hus
        exact hus
      exact reads_enum h hcategory (reads_enumBody hne hmembers)

end

/-! ### Any depth -/

/-- A type is one of the forms of members, if the container has a place for it. -/
theorem exists_memberForms_eq_form {category container : Category}
    (hcategory : ∀ name, category ≠ .other name)
    (hfits : container = .annotationType → category ≠ .recordType) :
    ∃ forms, container.memberForms = category.formsBefore ++ category.form :: forms := by
  cases category with
  | other name => exact absurd rfl (hcategory name)
  | recordType =>
      cases container with
      | annotationType => exact absurd rfl (hfits rfl)
      | _ => exact ⟨_, rfl⟩
  | _ => cases container <;> exact ⟨_, rfl⟩

section

variable {d : Declaration}

/-- What a type begins with behind its modifiers. -/
theorem avoids_declaration {l : List String} (h : d.HasWritableHead Opening.Reads)
    (hl : ∀ s ∈ typeKeywords, s ∉ l) :
    Avoids l ((ParseTree.node d.category.label d.parts).tokens ++ rest) := by
  rw [Declaration.parts_eq]
  exact avoids_keyword h.category_ne hl _

theorem endsModifiers_declaration (h : d.HasWritableHead Opening.Reads) :
    EndsModifiers ((ParseTree.node d.category.label d.parts).tokens ++ rest) := by
  rw [Declaration.parts_eq]
  exact endsModifiers_keyword h.category_ne _

/-- A type as one of several forms. -/
theorem reads_typeForm {forms after : List Form}
    (heq : forms = d.category.formsBefore ++ d.category.form :: after)
    (h : Reads 0 d.category.form [.node d.category.label d.parts] rest) :
    Reads 0 (any forms) [.node d.category.label d.parts] rest := by
  have hbefore : ∀ p ∈ d.category.formsBefore, Refuses Rule.form 0 p
      ((ParseTree.node d.category.label d.parts).tokens ++ rest) := by
    rw [Declaration.parts_eq]
    exact refuses_formsBefore _
  rw [heq]
  exact .of_takes (h.takes.any hbefore)

end

theorem isModifierTree_modifiers {ms : List Modifier} (h : AreWritable ms) :
    ∀ u ∈ ms.map modifierLeaf, IsModifierTree u :=
  List.forall_mem_map.mpr fun _ hm => .word fun he => h.nonSealed_notMem (he ▸ hm)

theorem Declaration.HasWritableHead.isModifierTree {names : Opening → String → Prop}
    {d : Declaration} (h : d.HasWritableHead names) :
    ∀ u ∈ d.annotations.map annotationTree ++ d.modifiers.map modifierLeaf, IsModifierTree u :=
  List.forall_mem_append.mpr ⟨List.forall_mem_map.mpr fun a _ => .annotated a,
    isModifierTree_modifiers h.modifiers⟩

theorem tokens_modified_ne_nil {t : SyntaxTree} (h : t.tokens ≠ []) (ms : List SyntaxTree) :
    (modified ms t).tokens ≠ [] := by
  rw [tokens_modified, ParseTree.tokensAll_append, tokensAll_singleton]
  exact List.append_ne_nil_of_right_ne_nil _ h

/-- A member has a name, or ends in a sign. -/
theorem tokens_member_ne_nil (m : Member) : m.tree.tokens ≠ [] := by
  cases m with
  | type d =>
      rw [Member.tree, Declaration.tree_eq]
      refine tokens_modified_ne_nil ?_ _
      simp [ParseTree.tokens, ParseTree.tokensAll_append, ParseTree.tokensAll, Declaration.parts_eq,
        nameTree]
  | _ =>
      refine tokens_modified_ne_nil ?_ _
      simp [ParseTree.tokens, ParseTree.tokensAll_append, ParseTree.tokensAll, Field.parts,
        Constructor.parts, Method.parts, Element.parts, nameTree, signLeaf]

end

mutual
/-- **A member that can be written is read as its tree**, behind whatever members there are. -/
theorem reads_member {category : Category} : {m : Member} → m.IsWritable Opening.Reads category →
    category.Admits m → ∀ rest, Reads 4 (.rule category.memberRule) [m.tree] rest
  | .field _, .field h, _, rest =>
      reads_declaredMember category (isModifierTree_modifiers h.modifiers)
        ((beginsMember_field h).endsModifiers category.reservesModifiers) (reads_memberField h)
  | .constructor _, .constructor h, hadmits, rest =>
      reads_declaredMember category (isModifierTree_modifiers h.modifiers)
        (endsModifiers_constructor h) (reads_memberConstructor h hadmits.1 hadmits.2)
  | .method _, .method h, hadmits, rest =>
      reads_declaredMember category (isModifierTree_modifiers h.modifiers)
        ((beginsMember_method h).endsModifiers (by decide)) (reads_memberMethod h hadmits)
  | .element _, .element h, hadmits, rest => by
      obtain rfl : category = .annotationType := hadmits
      exact reads_declaredMember .annotationType (isModifierTree_modifiers h.modifiers)
        ((beginsMember_element h).endsModifiers (by decide)) (reads_memberElement h)
  | .type _, .type h, hadmits, rest => by
      obtain ⟨forms, heq⟩ := exists_memberForms_eq_form h.head.category_ne hadmits
      have hform := reads_typeForm heq (reads_declaration h rest)
      rw [Member.tree, Declaration.tree_eq]
      exact reads_declaredMember category h.head.isModifierTree (endsModifiers_declaration h.head)
        (hform.mono (Nat.zero_le 3))

/-- **A type that can be written is read as its tree** behind its modifiers. -/
theorem reads_declaration : {d : Declaration} → d.IsWritable Opening.Reads →
    ∀ rest, Reads 0 d.category.form [.node d.category.label d.parts] rest
  | _, .mk head admits members, _ =>
      -- what is behind a member does not count, so each is read in front of the next one
      reads_form head (List.forall_mem_map.mpr fun m _ => tokens_member_ne_nil m)
        (List.forall_mem_map.mpr fun m hm => reads_member (members m hm) (admits m hm))
end

end JavaOutline
