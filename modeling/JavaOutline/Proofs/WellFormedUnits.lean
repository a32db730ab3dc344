import JavaOutline.Proofs.Characters
import JavaOutline.Proofs.NodeShapes
import JavaOutline.Structure.Unit

/-!
# JavaOutline.Proofs.WellFormedUnits

What holds of every file that can be read, at every depth of its declarations.

Types are well formed as `TypeRef.IsWellFormed` says, and so are the members and
declarations that hold them; `CompilationUnit.IsWellFormed` is what this comes to for a
file, and `isWellFormed_unitOf` shows it for the trees of one. All of it rests on the
shapes of nodes (`JavaOutline.Proofs.NodeShapes`) and not on the order in which a parser
tries things.
-/

namespace JavaOutline

open Source Grammar Structure

/-! ## Well-formed types -/

/-- Is the text free of white space? -/
def IsCompact (s : String) : Prop := ∀ c ∈ s.toList, isWhiteSpace c = false

theorem isCompact_compact (s : String) : IsCompact (compact s) := by
  intro c hc
  simp only [compact, String.toList_ofList, List.mem_filter, Bool.not_eq_true'] at hc
  exact hc.2

namespace TypeRef

mutual
/-- A type as it may stand anywhere: names are free of white space, arguments belong to a
name, and the dimensions of an array are in one node. -/
inductive IsWellFormed : TypeRef → Prop
  | raw {name : String} (h : IsCompact name) : IsWellFormed (.raw name)
  | generic {name : String} {args : List TypeRef} (h : IsCompact name)
      (hargs : ∀ a ∈ args, IsWellFormedArgument a) : IsWellFormed (.generic (.raw name) args)
  | array {t : TypeRef} {n : Nat} (h : IsWellFormed t) (hflat : ∀ u m, t ≠ .array u m)
      (hn : 1 ≤ n) : IsWellFormed (.array t n)

/-- A type as it may stand among type arguments: a wildcard without a bound counts as
bounded from above. -/
inductive IsWellFormedArgument : TypeRef → Prop
  | type {t : TypeRef} (h : IsWellFormed t) : IsWellFormedArgument t
  | unbounded : IsWellFormedArgument (.wildcard none true)
  | bounded {t : TypeRef} (h : IsWellFormed t) (isUpper : Bool) :
      IsWellFormedArgument (.wildcard (some t) isUpper)
end

theorem isWellFormed_default : IsWellFormed default := .raw (by simp [IsCompact])

/-- Dimensions keep a type well formed. -/
theorem IsWellFormed.arrayOf {t : TypeRef} (h : t.IsWellFormed) (n : Nat) :
    (t.arrayOf n).IsWellFormed := by
  by_cases hn : n = 0
  · rw [hn, arrayOf_zero]
    exact h
  · cases h with
    | raw hname =>
        rw [TypeRef.arrayOf, if_neg hn]
        · exact .array (.raw hname) (by simp) (by omega)
        · simp
    | generic hname hargs =>
        rw [TypeRef.arrayOf, if_neg hn]
        · exact .array (.generic hname hargs) (by simp) (by omega)
        · simp
    | array helement hflat _ =>
        rw [TypeRef.arrayOf, if_neg hn]
        exact .array helement hflat (by omega)

end TypeRef

open TypeRef

/-! ## The types that trees spell -/

/-- A comment names a well-formed type. -/
theorem isWellFormed_commentType (comment : String) : (commentType comment).IsWellFormed :=
  .raw (isCompact_compact comment)

theorem isWellFormed_compactText (ts : List SyntaxTree) :
    IsWellFormed (.raw (ParseTree.compactText ts)) :=
  .raw (isCompact_compact _)

/-- The entries of a list of types are the comments and the types among its trees. -/
theorem mem_typesIn {a : TypeRef} {ts : List SyntaxTree} :
    a ∈ typesIn ts
      ↔ ∃ t ∈ ts, a ∈ t.comments.map commentType ∨ isType t = true ∧ a = typeOf t := by
  induction ts with
  | nil => simp [typesIn]
  | cons t ts ih =>
      rw [typesIn, List.append_assoc, List.mem_append, List.mem_append, ih]
      cases htype : isType t <;> simp [htype, or_assoc]

theorem forall_mem_typesIn {P : TypeRef → Prop} {ts : List SyntaxTree}
    (hcomment : ∀ comment, P (commentType comment)) (h : ∀ t ∈ ts, P (typeOf t)) :
    ∀ a ∈ typesIn ts, P a := by
  intro a ha
  obtain ⟨t, ht, ha | ⟨-, rfl⟩⟩ := mem_typesIn.mp ha
  · obtain ⟨comment, -, rfl⟩ := List.mem_map.mp ha
    exact hcomment comment
  · exact h t ht

/-- The last type is one of the types, if there are any. -/
theorem lastType_eq (ts : List SyntaxTree) :
    lastType ts = default ∨ ∃ t ∈ ts, lastType ts = typeOf t := by
  induction ts with
  | nil => exact .inl rfl
  | cons t ts ih =>
      cases ts with
      | nil => exact .inr ⟨t, by simp, rfl⟩
      | cons u us =>
          rcases ih with h | ⟨v, hv, h⟩
          · exact .inl h
          · exact .inr ⟨v, List.mem_cons_of_mem t hv, h⟩

/-- The arguments of a named type are those in one of its parts. -/
theorem exists_of_finalArguments? {ts : List SyntaxTree} {args : List TypeRef}
    (h : finalArguments? ts = some args) :
    ∃ t ∈ ts, t.label? = some .typeArguments ∧ args = typesIn t.children.tail := by
  induction ts with
  | nil => contradiction
  | cons t ts ih =>
      unfold finalArguments? at h
      split at h
      · contradiction
      · next first us heq =>
        rw [heq]
        exact ⟨.node .typeArguments (first :: us), by simp, rfl, (Option.some.inj h).symm⟩
      · next heq =>
        rw [List.cons.injEq] at heq
        obtain ⟨u, hu, hlabel⟩ := ih (heq.2 ▸ h)
        exact ⟨u, List.mem_cons_of_mem t hu, hlabel⟩

/-! ## Well-formed types from trees -/

/-- A node other than a wildcard spells a well-formed type if its children do and if what
is inside them spells arguments. -/
theorem isWellFormed_typeOf_node {label : Label} {ts : List SyntaxTree}
    (hlabel : label ≠ .wildcard)
    (hts : label ≠ .typeArguments → ∀ t ∈ ts, (typeOf t).IsWellFormed)
    (hinside : ∀ t ∈ ts, ∀ u ∈ t.children, (typeOf u).IsWellFormedArgument) :
    (typeOf (.node label ts)).IsWellFormed := by
  cases label with
  | type =>
      cases ts with
      | nil => exact isWellFormed_compactText [.node .type []]
      | cons element brackets =>
          have helement := hts (by simp) element (by simp)
          rw [typeOf]
          exact helement.arrayOf (bracketCount brackets)
  | annotated =>
      rw [typeOf]
      rcases lastType_eq ts with heq | ⟨t, ht, heq⟩
      · exact heq ▸ isWellFormed_default
      · exact heq ▸ hts (by simp) t ht
  | wildcard => contradiction
  | named =>
      rw [typeOf]
      split
      · next args heq =>
        obtain ⟨t, ht, -, rfl⟩ := exists_of_finalArguments? heq
        refine .generic (isCompact_compact _) (forall_mem_typesIn ?_ ?_)
        · exact fun comment => .type (isWellFormed_commentType comment)
        · exact fun u hu => hinside t ht u (List.mem_of_mem_tail hu)
      · exact isWellFormed_compactText ts
  | _ => exact isWellFormed_compactText [.node _ ts]

/-- A wildcard spells a well-formed argument if its bound is well formed, and if there is
one wherever the word `super` is. -/
theorem isWellFormedArgument_wildcard {ts : List SyntaxTree}
    (hts : ∀ t ∈ ts, (typeOf t).IsWellFormed)
    (hbound : ts.any (ParseTree.isText "super") = true → ∃ t ∈ ts.tail, isType t = true) :
    (typeOf (.node .wildcard ts)).IsWellFormedArgument := by
  cases ts with
  | nil => exact .type (isWellFormed_compactText [.node .wildcard []])
  | cons first ts =>
      rw [typeOf]
      cases hlast : (typesIn ts).getLast? with
      | none =>
          have hempty : typesIn ts = [] := List.getLast?_eq_none_iff.mp hlast
          have hupper : (first :: ts).any (ParseTree.isText "super") = false := by
            refine Bool.eq_false_iff.mpr fun hsuper => ?_
            obtain ⟨t, ht, htype⟩ := hbound hsuper
            have hmem : typeOf t ∈ typesIn ts := mem_typesIn.mpr ⟨t, ht, .inr ⟨htype, rfl⟩⟩
            simp [hempty] at hmem
          rw [hupper]
          exact .unbounded
      | some t =>
          have ht := forall_mem_typesIn isWellFormed_commentType
            (fun u hu => hts u (List.mem_cons_of_mem first hu)) t (List.mem_of_getLast? hlast)
          exact .bounded ht _

/-- What a tree spells is well formed as an argument, and as a type if the tree is no
wildcard. -/
def SpellsWell (t : SyntaxTree) : Prop :=
  (typeOf t).IsWellFormedArgument ∧ (t.label? ≠ some .wildcard → (typeOf t).IsWellFormed)

/-- **What the trees of a file spell is well formed.** The induction is on the nodes; what
is inside type arguments is two levels below the type they belong to, so the children are
carried along. -/
theorem spellsWell_of_allNodes {t : SyntaxTree} (h : t.AllNodes IsShaped) :
    SpellsWell t ∧ ∀ u ∈ t.children, SpellsWell u := by
  induction h with
  | leaf token =>
      have hleaf := isWellFormed_compactText [.leaf token]
      exact ⟨⟨.type hleaf, fun _ => hleaf⟩, by simp [ParseTree.children]⟩
  | @node label ts hshape _ ih =>
      refine ⟨?_, fun u hu => (ih u hu).1⟩
      have hts : label ≠ .typeArguments → ∀ t ∈ ts, (typeOf t).IsWellFormed := fun hlabel t ht =>
        (ih t ht).1.2 (hshape.not_wildcard hlabel t ht)
      by_cases hlabel : label = .wildcard
      · subst hlabel
        have hargument := isWellFormedArgument_wildcard (hts nofun) (hshape.exists_bound rfl)
        exact ⟨hargument, fun h => absurd rfl h⟩
      · have htype := isWellFormed_typeOf_node hlabel hts fun t ht u hu => ((ih t ht).2 u hu).1
        exact ⟨.type htype, fun _ => htype⟩

/-- The children of a node other than type arguments spell well-formed types. -/
theorem isWellFormed_of_mem_children {label : Label} {ts : List SyntaxTree}
    (h : (ParseTree.node label ts).AllNodes IsShaped) (hlabel : label ≠ .typeArguments) :
    ∀ t ∈ ts, (typeOf t).IsWellFormed := by
  intro t ht
  cases h with
  | node hshape hts =>
      exact (spellsWell_of_allNodes (hts t ht)).1.2 (hshape.not_wildcard hlabel t ht)

/-! ## Well-formed declarations -/

/-- A well-formed field statement. -/
structure Field.IsWellFormed (f : Field) : Prop where
  modifiers : f.modifiers.Nodup
  type : f.type.IsWellFormed
  declarators : f.declarators ≠ []

/-- A well-formed constructor. -/
structure Constructor.IsWellFormed (c : Constructor) : Prop where
  modifiers : c.modifiers.Nodup
  parameters : ∀ p ∈ c.parameters, p.type.IsWellFormed
  throws : ∀ t ∈ c.throws, t.IsWellFormed

/-- A well-formed method. -/
structure Method.IsWellFormed (m : Method) : Prop where
  modifiers : m.modifiers.Nodup
  returnType : m.returnType.IsWellFormed
  parameters : ∀ p ∈ m.parameters, p.type.IsWellFormed
  throws : ∀ t ∈ m.throws, t.IsWellFormed

/-- A well-formed element of an annotation type. -/
structure Element.IsWellFormed (e : Element) : Prop where
  modifiers : e.modifiers.Nodup
  returnType : e.returnType.IsWellFormed

/-- A declaration that is well formed apart from its members. -/
structure Declaration.HasWellFormedHead (d : Declaration) : Prop where
  category : ∀ name, d.category ≠ .other name
  modifiers : d.modifiers.Nodup
  superclasses : ∀ t ∈ d.superclasses, t.IsWellFormed
  interfaces : ∀ t ∈ d.interfaces, t.IsWellFormed
  components : ∀ p ∈ d.components, p.type.IsWellFormed
  isRecord : d.components ≠ [] → d.category = .recordType

mutual
/-- A well-formed member. -/
inductive Member.IsWellFormed : Member → Prop
  | field {f : Field} (h : f.IsWellFormed) : Member.IsWellFormed (.field f)
  | constructor {c : Constructor} (h : c.IsWellFormed) : Member.IsWellFormed (.constructor c)
  | method {m : Method} (h : m.IsWellFormed) : Member.IsWellFormed (.method m)
  | element {e : Element} (h : e.IsWellFormed) : Member.IsWellFormed (.element e)
  | type {d : Declaration} (h : Declaration.IsWellFormed d) : Member.IsWellFormed (.type d)

/-- A declaration that is well formed, together with its members at any depth. -/
inductive Declaration.IsWellFormed : Declaration → Prop
  | mk {d : Declaration} (h : d.HasWellFormedHead)
      (hmembers : ∀ m ∈ d.members, Member.IsWellFormed m) : Declaration.IsWellFormed d
end

/-- A file all of whose declarations are well formed. -/
def CompilationUnit.IsWellFormed (u : CompilationUnit) : Prop := ∀ d ∈ u.types, d.IsWellFormed

/-! ## Parts of declarations -/

/-- What is inside a node is inside one of the nodes with its label. -/
theorem exists_of_mem_inside {label : Label} {ts : List SyntaxTree} {u : SyntaxTree}
    (h : u ∈ ParseTree.inside label ts) : ∃ us, ParseTree.node label us ∈ ts ∧ u ∈ us := by
  cases hus : ParseTree.inside? label ts with
  | none => simp [ParseTree.inside, hus] at h
  | some us =>
      rw [ParseTree.inside, hus, Option.getD_some] at h
      obtain ⟨t, ht, heq⟩ := List.exists_of_findSome?_eq_some hus
      cases t with
      | leaf => contradiction
      | node l vs =>
          obtain ⟨hl, rfl⟩ : l = label ∧ vs = us := by simpa using heq
          exact ⟨vs, hl ▸ ht, h⟩

/-- What is inside a node of some shaped trees spells well-formed types. -/
theorem isWellFormed_of_mem_inside {label : Label} {ts : List SyntaxTree}
    (h : ∀ t ∈ ts, t.AllNodes IsShaped) (hlabel : label ≠ .typeArguments) :
    ∀ u ∈ ParseTree.inside label ts, (typeOf u).IsWellFormed := by
  intro u hu
  obtain ⟨us, hus, hmem⟩ := exists_of_mem_inside hu
  exact isWellFormed_of_mem_children (h _ hus) hlabel u hmem

section

variable {ts modifiers : List SyntaxTree} (h : ∀ t ∈ ts, t.AllNodes IsShaped)

include h

theorem isWellFormed_typeIn : (typeIn ts).IsWellFormed := by
  refine isWellFormed_typeOf_node nofun (fun _ => isWellFormed_of_mem_inside h nofun) ?_
  intro t ht u hu
  obtain ⟨us, hus, hmem⟩ := exists_of_mem_inside ht
  exact ((spellsWell_of_allNodes ((h _ hus).children t hmem)).2 u hu).1

theorem isWellFormed_of_mem_clauseTypes {label : Label} (hlabel : label ≠ .typeArguments) :
    ∀ t ∈ clauseTypes (ParseTree.inside label ts), t.IsWellFormed :=
  forall_mem_typesIn isWellFormed_commentType fun u hu =>
    isWellFormed_of_mem_inside h hlabel u (List.mem_of_mem_tail hu)

end

/-- The type of a parameter of variable arity is that of one of its parts, or of a
comment. -/
theorem isWellFormed_spreadType {ts : List SyntaxTree} (h : ∀ t ∈ ts, (typeOf t).IsWellFormed) :
    (spreadType ts).IsWellFormed := by
  unfold spreadType
  split
  · next us t rest =>
    cases t.comments with
    | nil => exact h t (by simp)
    | cons comment comments => exact isWellFormed_commentType comment
  · exact h _ (by simp)
  · exact isWellFormed_default

theorem isWellFormed_of_parameter? {t : SyntaxTree} {p : Parameter} (h : t.AllNodes IsShaped)
    (hp : parameter? t = some p) : p.type.IsWellFormed := by
  unfold parameter? at hp
  split at hp
  · next ts =>
    rw [← Option.some.inj hp]
    exact (isWellFormed_typeIn h.children).arrayOf _
  · next ts =>
    rw [← Option.some.inj hp]
    exact isWellFormed_spreadType (isWellFormed_of_mem_children h (by decide))
  · contradiction

theorem isWellFormed_of_mem_parametersIn {ts : List SyntaxTree}
    (h : ∀ t ∈ ts, t.AllNodes IsShaped) : ∀ p ∈ parametersIn ts, p.type.IsWellFormed := by
  intro p hp
  obtain ⟨t, ht, heq⟩ := List.mem_filterMap.mp hp
  obtain ⟨us, hus, hmem⟩ := exists_of_mem_inside ht
  exact isWellFormed_of_parameter? ((h _ hus).children t hmem) heq

/-- Erasing duplicates leaves none. -/
theorem nodup_eraseDups {α : Type} [BEq α] [LawfulBEq α] : (l : List α) → l.eraseDups.Nodup
  | [] => by simp
  | a :: l => by
      rw [List.eraseDups_cons, List.nodup_cons]
      exact ⟨by simp, nodup_eraseDups _⟩
termination_by l => l.length
decreasing_by
  rw [List.length_cons]
  exact Nat.lt_succ_of_le (List.length_filter_le _ _)

theorem nodup_modifiersIn (ts : List SyntaxTree) : (modifiersIn ts).Nodup := nodup_eraseDups _

/-! ## Declarations from trees -/

variable (modifiers : List SyntaxTree)

section

variable {ts : List SyntaxTree}

theorem isWellFormed_fieldOf (h : (ParseTree.node .field ts).AllNodes IsShaped) :
    (fieldOf modifiers ts).IsWellFormed where
  modifiers := nodup_modifiersIn modifiers
  type := isWellFormed_typeIn h.children
  declarators := by
    cases h with
    | node hshape _ =>
        obtain ⟨us, hus⟩ := hshape.exists_variable rfl
        exact List.ne_nil_of_mem (List.mem_filterMap.mpr ⟨_, hus, rfl⟩)

variable (h : ∀ t ∈ ts, t.AllNodes IsShaped)

include h

theorem isWellFormed_constructorOf : (constructorOf modifiers ts).IsWellFormed where
  modifiers := nodup_modifiersIn modifiers
  parameters := isWellFormed_of_mem_parametersIn h
  throws := isWellFormed_of_mem_clauseTypes h nofun

theorem isWellFormed_methodOf : (methodOf modifiers ts).IsWellFormed where
  modifiers := nodup_modifiersIn modifiers
  returnType := (isWellFormed_typeIn h).arrayOf _
  parameters := isWellFormed_of_mem_parametersIn h
  throws := isWellFormed_of_mem_clauseTypes h nofun

theorem isWellFormed_elementOf : (elementOf modifiers ts).IsWellFormed where
  modifiers := nodup_modifiersIn modifiers
  returnType := (isWellFormed_typeIn h).arrayOf _

/-- A type is well formed apart from its members; its category is that of its node. -/
theorem hasWellFormedHead_declarationOf {category : Category} (members : List Member)
    (hcategory : ∀ name, category ≠ .other name) :
    (declarationOf category modifiers ts members).HasWellFormedHead where
  category := hcategory
  modifiers := nodup_modifiersIn modifiers
  superclasses := List.forall_mem_append.mpr
    ⟨isWellFormed_of_mem_clauseTypes h nofun, isWellFormed_of_mem_clauseTypes h nofun⟩
  interfaces := isWellFormed_of_mem_clauseTypes h nofun
  components := by
    rw [declarationOf]
    split
    · exact isWellFormed_of_mem_parametersIn h
    · simp
  isRecord hne := Decidable.byContradiction fun hcategory => hne (if_neg hcategory)

end

theorem category?_ne_other {label : Label} {category : Category}
    (h : category? label = some category) : ∀ name, category ≠ .other name := by
  rintro name rfl
  cases label <;> simp [category?] at h

/-- A member of a body is declared two levels below the body. -/
theorem exists_of_mem_bodyMembers {ts : List SyntaxTree} {m : Member} (h : m ∈ bodyMembers ts) :
    ∃ us, ParseTree.node .body us ∈ ts ∧ ∃ d ∈ us, member? d = some m := by
  induction ts with
  | nil => simp [bodyMembers] at h
  | cons t ts ih =>
      unfold bodyMembers at h
      split at h
      · contradiction
      · next us _ heq =>
        rw [members_eq_filterMap] at h
        rw [List.cons.injEq] at heq
        exact ⟨us, by simp [heq.1], List.mem_filterMap.mp h⟩
      · next heq =>
        rw [List.cons.injEq] at heq
        obtain ⟨us, hus, hd⟩ := ih (heq.2 ▸ h)
        exact ⟨us, List.mem_cons_of_mem t hus, hd⟩

theorem exists_of_member? {d : SyntaxTree} {m : Member} (h : member? d = some m) :
    ∃ t ∈ d.children, ∃ modifiers, declared? modifiers t = some m := by
  unfold member? at h
  split at h
  · next t => exact ⟨t, by simp [ParseTree.children], [], h⟩
  · next modifiers t => exact ⟨t, by simp [ParseTree.children], modifiers, h⟩
  · contradiction

/-- What a tree declares is well formed if the members in its body are. -/
theorem isWellFormed_of_bodyMembers {t : SyntaxTree} {m : Member} (h : t.AllNodes IsShaped)
    (hm : declared? modifiers t = some m)
    (hmembers : ∀ m' ∈ bodyMembers t.children, m'.IsWellFormed) : m.IsWellFormed := by
  unfold declared? at hm
  split at hm
  · contradiction
  · rw [← Option.some.inj hm]
    exact .field (isWellFormed_fieldOf modifiers h)
  · rw [← Option.some.inj hm]
    exact .constructor (isWellFormed_constructorOf modifiers h.children)
  · rw [← Option.some.inj hm]
    exact .method (isWellFormed_methodOf modifiers h.children)
  · rw [← Option.some.inj hm]
    exact .element (isWellFormed_elementOf modifiers h.children)
  · next ts _ _ _ _ =>
    split at hm
    · contradiction
    · next category hcategory =>
      have hhead := hasWellFormedHead_declarationOf modifiers h.children (bodyMembers ts)
        (category?_ne_other hcategory)
      rw [← Option.some.inj hm]
      exact .type (.mk hhead hmembers)

theorem sizeOf_lt_of_mem_children {t u : SyntaxTree} (h : u ∈ t.children) :
    sizeOf u < sizeOf t := by
  cases t with
  | leaf => simp [ParseTree.children] at h
  | node label ts =>
      have hmem : u ∈ ts := h
      have hlt := List.sizeOf_lt_of_mem hmem
      rw [ParseTree.node.sizeOf_spec]
      omega

/-- **What a tree declares is well formed**, by induction on the size of the tree: what
the body holds is declared by smaller trees. -/
theorem isWellFormed_of_declared? {t : SyntaxTree} {m : Member} (h : t.AllNodes IsShaped)
    (hm : declared? modifiers t = some m) : m.IsWellFormed := by
  induction hsize : sizeOf t using Nat.strongRecOn generalizing t m modifiers with
  | ind n ih =>
      refine isWellFormed_of_bodyMembers modifiers h hm fun m' hm' => ?_
      obtain ⟨us, hus, d, hd, hmember⟩ := exists_of_mem_bodyMembers hm'
      obtain ⟨u, hu, modifiers', hdeclared⟩ := exists_of_member? hmember
      have hbody := sizeOf_lt_of_mem_children hus
      have hd' := sizeOf_lt_of_mem_children (t := .node .body us) hd
      have hu' := sizeOf_lt_of_mem_children hu
      exact ih (sizeOf u) (by omega) modifiers'
        (((h.children _ hus).children d hd).children u hu) hdeclared rfl

/-- A file is well formed if its trees are shaped. -/
theorem isWellFormed_unitOf {ts : List SyntaxTree} (h : ∀ t ∈ ts, t.AllNodes IsShaped) :
    (unitOf ts).IsWellFormed := by
  intro d hd
  obtain ⟨m, hm, htype⟩ := List.mem_filterMap.mp hd
  rw [members_eq_filterMap] at hm
  obtain ⟨t, ht, hmember⟩ := List.mem_filterMap.mp hm
  obtain ⟨u, hu, modifiers, hdeclared⟩ := exists_of_member? hmember
  have hwell := isWellFormed_of_declared? modifiers ((h t ht).children u hu) hdeclared
  cases hwell with
  | type hd' => exact Option.some.inj htype ▸ hd'
  | _ => contradiction

/-- **Every file that can be read is well formed**, at every depth: no modifier is there
twice, every type has one of the five categories, components are those of records, field
statements have variables, and all types are well formed. -/
theorem CompilationUnit.parse_isWellFormed {source : String} {u : CompilationUnit}
    (h : parse source = .ok u) : u.IsWellFormed := by
  unfold parse at h
  dsimp only at h
  split at h
  · next ts hts => exact Except.ok.inj h ▸ isWellFormed_unitOf (allNodes_of_unitTrees? hts)
  · contradiction

/-- A record with a modifier written twice, a wildcard, a comment in a list of types and
brackets in two places. -/
def sampleSource : String :=
  "record R(int x) \x7b final final List</* of */ ?>[] a, b[]; \x7d"

theorem parse_sampleSource_isWellFormed : ∃ u, CompilationUnit.parse sampleSource = .ok u
    ∧ u.types.flatMap (fun d => d.fields.map (·.modifiers)) = [[.final]] ∧ u.IsWellFormed := by
  have hfields : ∃ u, CompilationUnit.parse sampleSource = .ok u
      ∧ u.types.flatMap (fun d => d.fields.map (·.modifiers)) = [[.final]] :=
    CompilationUnit.exists_parse_of_check (by decide +kernel)
  obtain ⟨u, hu, hfields⟩ := hfields
  exact ⟨u, hu, hfields, CompilationUnit.parse_isWellFormed hu⟩

end JavaOutline
