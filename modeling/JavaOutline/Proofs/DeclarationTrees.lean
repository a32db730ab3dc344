import JavaOutline.Proofs.SpelledTypes
import JavaOutline.Structure.Unit

/-!
# JavaOutline.Proofs.DeclarationTrees

The trees that spell declarations, and what they read like.

`Declaration.tree` is the tree that a parser is meant to find for `Declaration.toSource`.
`AreWritten` ties trees to the text they make up; since every text here begins with a
blank or a sign, written trees may stand behind each other in any order, and
`areWritten_tree` follows the text part by part.
-/

namespace JavaOutline

open Source Grammar Structure

/-! ## Trees and texts -/

theorem tokensAll_singleton (t : SyntaxTree) : ParseTree.tokensAll [t] = t.tokens := by
  rw [ParseTree.tokensAll, ParseTree.tokensAll, List.append_nil]

/-- The trees make up the text, and no name in front of it goes on into it. -/
structure AreWritten (ts : List SyntaxTree) (s : String) : Prop where
  spells : Spells ((ParseTree.tokensAll ts).flatMap Token.lexemes) s
  stops : Stops isNamePart s.toList
  placed : ∀ t ∈ ParseTree.tokensAll ts, t.IsPlaced

section

variable {ts us : List SyntaxTree} {s r : String}

theorem areWritten_nil : AreWritten [] "" :=
  ⟨spells_nil, stops_nil _, by simp [ParseTree.tokensAll]⟩

theorem AreWritten.append (hs : AreWritten ts s) (hr : AreWritten us r) :
    AreWritten (ts ++ us) (s ++ r) where
  spells := by
    rw [ParseTree.tokensAll_append, List.flatMap_append]
    exact hs.spells.append hr.spells hr.stops
  stops := by
    rw [String.toList_append]
    exact stops_append hs.stops hr.stops
  placed := by
    rw [ParseTree.tokensAll_append]
    exact List.forall_mem_append.mpr ⟨hs.placed, hr.placed⟩

/-- Only the tokens of the trees count. -/
theorem AreWritten.of_tokens (h : AreWritten ts s)
    (heq : ParseTree.tokensAll us = ParseTree.tokensAll ts) : AreWritten us s where
  spells := heq ▸ h.spells
  stops := h.stops
  placed := heq ▸ h.placed

theorem AreWritten.node (h : AreWritten ts s) (label : Label) : AreWritten [.node label ts] s :=
  h.of_tokens (by rw [tokensAll_singleton, ParseTree.tokens])

theorem areWritten_map {α : Type} {tree : α → SyntaxTree} {text : α → String} {xs : List α}
    (h : ∀ x ∈ xs, AreWritten [tree x] (text x)) :
    AreWritten (xs.map tree) (String.join (xs.map text)) := by
  induction xs with
  | nil => exact areWritten_nil
  | cons x xs ih =>
      rw [List.forall_mem_cons] at h
      rw [List.map_cons, List.map_cons, String.join_cons, ← List.singleton_append]
      exact h.1.append (ih h.2)

end

/-- A symbol behind a blank. -/
def spacedSign (s : String) : Token := ⟨space, .symbol, s⟩

/-- A word behind a blank. -/
theorem areWritten_word {w : String} (hw : isWord w = true) :
    AreWritten [.leaf (wordToken space w)] (spaced w) where
  spells := by
    have hword := spells_nil.spaced_word hw (by simp)
    rw [String.append_empty] at hword
    exact hword
  stops := by simp [spaced]; decide
  placed := by simpa [ParseTree.tokensAll, ParseTree.tokens] using isPlaced_word (.inr rfl) w

/-- A sign that ends anywhere. -/
theorem areWritten_sign {c : Char} (hc : c ∈ closedSymbols) :
    AreWritten [signLeaf (String.singleton c)] (String.singleton c) where
  spells := by
    have hsign := spells_nil.closed_cons hc
    rw [String.append_empty] at hsign
    exact hsign
  stops := by
    have hall : closedSymbols.all (fun c => !isNamePart c) = true := by decide
    simpa using List.all_eq_true.mp hall c hc
  placed := by
    simpa [ParseTree.tokensAll, ParseTree.tokens, signLeaf] using isPlaced_sign _

/-- Such a sign behind a blank. -/
theorem areWritten_spacedSign {c : Char} (hc : c ∈ closedSymbols) :
    AreWritten [.leaf (spacedSign (String.singleton c))] (spaced (String.singleton c)) where
  spells := by
    have hsign := spells_nil.spaced_closed hc
    rw [String.append_empty] at hsign
    exact hsign
  stops := by simp [spaced]; decide
  placed := by
    have hplaced : (spacedSign (String.singleton c)).IsPlaced := ⟨.inr rfl, rfl⟩
    simpa [ParseTree.tokensAll, ParseTree.tokens] using hplaced

/-- Three dots. -/
theorem areWritten_dots : AreWritten [signLeaf "..."] "..." where
  spells := by
    have hdots := spells_nil.cons (l := ⟨.symbol, "..."⟩) fun _ _ => startsAt_dots
    rw [String.append_empty] at hdots
    exact hdots
  stops := by simp; decide
  placed := by simpa [ParseTree.tokensAll, ParseTree.tokens, signLeaf] using isPlaced_sign "..."

/-- A type behind a blank. -/
theorem areWritten_type {names : String → Prop} {t : TypeRef} (h : t.IsSpelled names) :
    AreWritten [typeTree space t] (typeText t) := by
  obtain ⟨w, more, hw, -, -⟩ := h.plain.isWrittenAsType
  have hspells := hw.spells_space_append spells_nil (by simp)
  constructor
  · rw [tokensAll_singleton]
    simpa [typeText, spaced] using hspells
  · simp [typeText, spaced]; decide
  · rw [tokensAll_singleton]
    exact hw.placed_tree (.inr rfl)

/-- Brackets. -/
theorem areWritten_brackets (n : Nat) :
    AreWritten [bracketsTree n] (String.join (List.replicate n "[]")) := by
  have htokens : ParseTree.tokensAll ((bracketTokens n).map (.leaf : Token → SyntaxTree))
      = bracketTokens n := ParseTree.tokensAll_map_leaf _
  refine AreWritten.node ⟨?_, (spells_brackets n).2, ?_⟩ .dimensions
  · rw [htokens]
    exact (spells_brackets n).1
  · rw [htokens]
    exact placed_brackets n

/-- Trees with commas between them. -/
theorem areWritten_withCommas {α : Type} {tree : α → SyntaxTree} {text : α → String} {xs : List α}
    (h : ∀ x ∈ xs, AreWritten [tree x] (text x)) :
    AreWritten (withCommas (xs.map tree)) (commaText (xs.map text)) := by
  have hafter : ∀ ys : List α, (∀ y ∈ ys, AreWritten [tree y] (text y)) →
      AreWritten (afterCommas (ys.map tree)) (String.join ((ys.map text).map ("," ++ ·))) := by
    intro ys hys
    induction ys with
    | nil => exact areWritten_nil
    | cons y ys ih =>
        rw [List.forall_mem_cons] at hys
        rw [List.map_cons, List.map_cons, List.map_cons, String.join_cons]
        exact ((areWritten_sign (c := ',') (by decide)).append hys.1).append (ih hys.2)
  cases xs with
  | nil => exact areWritten_nil
  | cons x xs =>
      rw [List.forall_mem_cons] at h
      rw [List.map_cons, List.map_cons, commaText, intercalate_eq_append_join]
      exact h.1.append (hafter xs h.2)

/-! ## Trees of declarations -/

/-- The name that something declares. -/
def nameTree (w : String) : SyntaxTree := .node .identifier [.leaf (wordToken space w)]

/-- A variable with neither brackets nor a value. -/
def variableTree (w : String) : SyntaxTree := .node .variable [nameTree w]

/-- A modifier that is one word. -/
def modifierLeaf (m : Modifier) : SyntaxTree := .leaf (wordToken space m.keyword)

/-- An annotation without arguments. -/
def annotationTree (name : String) : SyntaxTree :=
  .node .annotationUse [.leaf (spacedSign "@"), .node .name (nameTrees [] name)]

/-- Something declared behind modifiers. -/
def modified (modifiers : List SyntaxTree) (t : SyntaxTree) : SyntaxTree :=
  match modifiers with
  | [] => .node .declaration [t]
  | ms => .node .declaration [.node .modifiers ms, t]

/-- The brackets after a name, if there are any. -/
def dimensionTrees (n : Nat) : List SyntaxTree := if n = 0 then [] else [bracketsTree n]

/-- A list of types behind a keyword, if there are any. -/
def clauseTrees (label : Label) (keyword : String) : List TypeRef → List SyntaxTree
  | [] => []
  | ts => [.node label (.leaf (wordToken space keyword) :: withCommas (ts.map (typeTree space)))]

/-- A parameter of fixed or of variable arity. -/
def Parameter.tree (p : Parameter) : SyntaxTree :=
  if p.isVarargs then
    .node .spread [typeTree space p.type, signLeaf "...", variableTree p.name]
  else .node .parameter [typeTree space p.type, nameTree p.name]

/-- Parameters in parentheses. -/
def parametersNode (ps : List Parameter) : SyntaxTree :=
  .node .parameters (signLeaf "(" :: (withCommas (ps.map Parameter.tree) ++ [signLeaf ")"]))

/-- A variable with the brackets after its name. -/
def Variable.tree (v : Variable) : SyntaxTree :=
  .node .variable (nameTree v.name :: dimensionTrees v.dimensions)

/-- The parts of a field statement. -/
def Field.parts (f : Field) : List SyntaxTree :=
  typeTree space f.type :: (withCommas (f.declarators.map Variable.tree) ++ [signLeaf ";"])

/-- The body of a method. -/
def emptyBlockTree : SyntaxTree :=
  .node .block [.leaf (spacedSign "\x7b"), signLeaf "\x7d"]

/-- The parts of a constructor. -/
def Constructor.parts (c : Constructor) : List SyntaxTree :=
  nameTree c.name :: parametersNode c.parameters
    :: (clauseTrees .throws "throws" c.throws ++ [emptyBlockTree])

/-- The parts of a method. -/
def Method.parts (m : Method) : List SyntaxTree :=
  typeTree space m.returnType :: nameTree m.name :: parametersNode m.parameters
    :: (clauseTrees .throws "throws" m.throws ++ [emptyBlockTree])

/-- A default value, if there is one. -/
def defaultTrees (hasDefault : Bool) : List SyntaxTree :=
  if hasDefault then
    [.node .defaultValue [.leaf (wordToken space "default"), .leaf ⟨space, .literal, "0"⟩]]
  else []

/-- The parts of an element of an annotation type. -/
def Element.parts (e : Element) : List SyntaxTree :=
  typeTree space e.returnType :: nameTree e.name :: signLeaf "(" :: signLeaf ")"
    :: (defaultTrees e.hasDefault ++ [signLeaf ";"])

/-- The label of a type of a category. -/
def Category.label : Category → Label
  | .classType => .classType
  | .interfaceType => .interfaceType
  | .enumType => .enumType
  | .recordType => .recordType
  | .annotationType => .annotationType
  | .other _ => .statement

/-- The label of the types that a type of a category extends. -/
def Category.superLabel : Category → Label
  | .classType => .superclass
  | _ => .superinterfaces

/-- The keyword of a category, which is a sign for annotation types. -/
def Category.keywordToken : Category → Token
  | .annotationType => spacedSign "@interface"
  | category => wordToken space category.keyword

/-- The components of a type, if it is a record. -/
def Declaration.componentTrees (d : Declaration) : List SyntaxTree :=
  if d.category = .recordType then [parametersNode d.components] else []

/-- A type between its modifiers and its body. -/
def Declaration.headTrees (d : Declaration) : List SyntaxTree :=
  .leaf d.category.keywordToken :: nameTree d.name :: (d.componentTrees
    ++ (clauseTrees d.category.superLabel "extends" d.superclasses
      ++ clauseTrees .interfaces "implements" d.interfaces))

/-- The brace in front of a body. -/
def openBrace : SyntaxTree := .leaf (spacedSign "\x7b")

/-- The brace behind a body. -/
def closeBrace : SyntaxTree := .leaf (spacedSign "\x7d")

/-- The members in braces. The body of an enumeration is inside the braces, behind the
constants. -/
def bodyTrees (category : Category) (members : List SyntaxTree) : List SyntaxTree :=
  if category = .enumType then
    [openBrace, .node .constants [], .node .body (signLeaf ";" :: members), closeBrace]
  else [.node .body (openBrace :: (members ++ [closeBrace]))]

mutual
/-- A member. -/
def Member.tree : Member → SyntaxTree
  | .field f => modified (f.modifiers.map modifierLeaf) (.node .field f.parts)
  | .constructor c => modified (c.modifiers.map modifierLeaf) (.node .constructor c.parts)
  | .method m => modified (m.modifiers.map modifierLeaf) (.node .method m.parts)
  | .element e => modified (e.modifiers.map modifierLeaf) (.node .element e.parts)
  | .type d => Declaration.tree d

/-- A type. -/
def Declaration.tree : Declaration → SyntaxTree
  | ⟨name, category, modifiers, annotations, superclasses, interfaces, components, members⟩ =>
    modified (annotations.map annotationTree ++ modifiers.map modifierLeaf)
      (.node category.label (Declaration.headTrees ⟨name, category, modifiers, annotations,
        superclasses, interfaces, components, members⟩ ++ bodyTrees category (memberTrees members)))

/-- The trees of members. -/
def memberTrees : List Member → List SyntaxTree
  | [] => []
  | m :: ms => Member.tree m :: memberTrees ms
end

theorem memberTrees_eq_map (ms : List Member) : memberTrees ms = ms.map Member.tree := by
  induction ms with
  | nil => rfl
  | cons m ms ih => simp [memberTrees, ih]

/-- The parts of a type behind its modifiers. -/
def Declaration.parts (d : Declaration) : List SyntaxTree :=
  d.headTrees ++ bodyTrees d.category (d.members.map Member.tree)

theorem headTrees_append (d : Declaration) (us : List SyntaxTree) :
    d.headTrees ++ us = .leaf d.category.keywordToken :: nameTree d.name :: (d.componentTrees
      ++ (clauseTrees d.category.superLabel "extends" d.superclasses
        ++ (clauseTrees .interfaces "implements" d.interfaces ++ us))) := by
  simp only [Declaration.headTrees, List.append_assoc, List.cons_append]

theorem Declaration.parts_eq (d : Declaration) : d.parts
    = .leaf d.category.keywordToken :: nameTree d.name :: (d.componentTrees
      ++ (clauseTrees d.category.superLabel "extends" d.superclasses
        ++ (clauseTrees .interfaces "implements" d.interfaces
          ++ bodyTrees d.category (d.members.map Member.tree)))) :=
  headTrees_append d _

theorem Declaration.tree_eq (d : Declaration) :
    d.tree = modified (d.annotations.map annotationTree ++ d.modifiers.map modifierLeaf)
      (.node d.category.label d.parts) := by
  cases d
  rw [tree, memberTrees_eq_map]
  rfl

/-! ## What they read like -/

theorem isWord_keyword {m : Modifier} (h : m ≠ .nonSealed) : isWord m.keyword = true := by
  cases m with
  | nonSealed => contradiction
  | _ => decide

theorem AreWritten.modified {ms : List SyntaxTree} {t : SyntaxTree} {s r : String}
    (hs : AreWritten ms s) (hr : AreWritten [t] r) : AreWritten [modified ms t] (s ++ r) := by
  cases ms with
  | nil => exact (hs.append hr).node .declaration
  | cons m ms => exact ((hs.node .modifiers).append hr).node .declaration

theorem areWritten_modifiers {ms : List Modifier} (h : AreWritable ms) :
    AreWritten (ms.map modifierLeaf) (modifiersText ms) :=
  areWritten_map fun _ hm =>
    areWritten_word (isWord_keyword fun he => h.nonSealed_notMem (he ▸ hm))

theorem areWritten_annotationTree {name : String}
    (h : IsQualified name ∧ Opening.annotationName.Reads name) :
    AreWritten [annotationTree name] (spaced "@" ++ name) := by
  obtain ⟨w, ws, hs, -⟩ := exists_segments name
  have hsign := (h.1.isDotted.spells hs).annotation_cons h.2
  have hspells := hsign.blank_cons ⟨'@', name.toList, by rw [String.toList_append]; rfl, by decide⟩
  have htokens : ParseTree.tokensAll [annotationTree name]
      = spacedSign "@" :: wordToken [] w :: dottedTokens ws := by
    simp [annotationTree, ParseTree.tokensAll, ParseTree.tokens, nameTrees,
      ParseTree.tokensAll_map_leaf, hs, nameTokens]
  constructor
  · rw [htokens, spaced, String.append_assoc]
    exact hspells
  · simp [spaced]; decide
  · rw [htokens, List.forall_mem_cons, List.forall_mem_cons]
    exact ⟨⟨.inr rfl, rfl⟩, isPlaced_word (.inl rfl) w, placed_dottedTokens ws⟩

theorem areWritten_annotations {names : List String}
    (h : ∀ name ∈ names, IsQualified name ∧ Opening.annotationName.Reads name) :
    AreWritten (names.map annotationTree) (annotationsText names) :=
  areWritten_map fun name hname => areWritten_annotationTree (h name hname)

section

variable {names : Opening → String → Prop} {w : String}

theorem areWritten_name (h : isWord w = true) : AreWritten [nameTree w] (spaced w) :=
  (areWritten_word h).node .identifier

theorem areWritten_variable {v : Variable} (h : isName v.name = true) :
    AreWritten [v.tree] v.toSource := by
  have hname := areWritten_name (isWord_of_isName h)
  have hdimensions : AreWritten (dimensionTrees v.dimensions)
      (String.join (List.replicate v.dimensions "[]")) := by
    rw [dimensionTrees]
    split
    · next hzero =>
      rw [hzero]
      exact areWritten_nil
    · exact areWritten_brackets v.dimensions
  exact (hname.append hdimensions).node .variable

theorem areWritten_parameter {p : Parameter} (h : p.IsWritable names) :
    AreWritten [p.tree] p.toSource := by
  have htype := areWritten_type h.type
  have hname := areWritten_name (isWord_of_isName h.name)
  rw [Parameter.tree, Parameter.toSource]
  split
  · exact (htype.append (areWritten_dots.append (hname.node .variable))).node .spread
  · exact (htype.append (areWritten_nil.append hname)).node .parameter

theorem areWritten_parameters {ps : List Parameter} (h : ∀ p ∈ ps, p.IsWritable names) :
    AreWritten [parametersNode ps] (parametersText ps) := by
  have hopen := areWritten_sign (c := '(') (by decide)
  have hlist := areWritten_withCommas fun p hp => areWritten_parameter (h p hp)
  have hclose := areWritten_sign (c := ')') (by decide)
  exact (hopen.append (hlist.append hclose)).node .parameters

theorem isWord_throws : isWord "throws" = true := by decide

theorem isWord_extends : isWord "extends" = true := by decide

theorem isWord_implements : isWord "implements" = true := by decide

theorem areWritten_clause (label : Label) {keyword : String} (hkeyword : isWord keyword = true)
    {place : Place} {ts : List TypeRef} (h : ∀ t ∈ ts, t.IsSpelled (names (.type place))) :
    AreWritten (clauseTrees label keyword ts) (clauseText keyword ts) := by
  cases ts with
  | nil => exact areWritten_nil
  | cons t ts =>
      have hlist := areWritten_withCommas fun t ht => areWritten_type (h t ht)
      exact ((areWritten_word hkeyword).append hlist).node label

theorem areWritten_block : AreWritten [emptyBlockTree] emptyBlock := by
  have hopen := areWritten_spacedSign (c := '\x7b') (by decide)
  have hclose := areWritten_sign (c := '\x7d') (by decide)
  exact (hopen.append hclose).node .block

/-- The digit of a default value ends at the semicolon. -/
theorem areWritten_zero :
    AreWritten [.leaf ⟨space, .literal, "0"⟩, signLeaf ";"] (spaced "0" ++ ";") where
  spells := by
    have hsemicolon := spells_nil.closed_cons (c := ';') (by decide)
    have hzero := hsemicolon.cons (l := ⟨.literal, "0"⟩) fun rest _ =>
      ⟨'0', [], rfl, rfl⟩
    have hblank := hzero.cons (l := ⟨.blank, " "⟩) fun _ _ => startsAt_blank (by simp; decide)
    exact hblank
  stops := by simp [spaced]; decide
  placed := by
    simp only [ParseTree.tokensAll, ParseTree.tokens, signLeaf, List.singleton_append,
      List.forall_mem_cons]
    exact ⟨⟨.inr rfl, rfl⟩, isPlaced_sign ";", by simp⟩

theorem areWritten_default (hasDefault : Bool) :
    AreWritten (defaultTrees hasDefault ++ [signLeaf ";"])
      (if hasDefault then String.join [spaced "default", spaced "0", ";"] else ";") := by
  cases hasDefault with
  | false => exact areWritten_sign (c := ';') (by decide)
  | true =>
      have hword := areWritten_word (w := "default") (by decide)
      simp only [if_true, String.join_cons, String.join_nil, String.append_empty]
      exact (hword.append areWritten_zero).of_tokens rfl

/-! ### Members -/

theorem areWritten_field {category : Category} {f : Field} (h : f.IsWritable names category) :
    AreWritten [modified (f.modifiers.map modifierLeaf) (.node .field f.parts)] f.toSource := by
  have hvariables := areWritten_withCommas fun v hv => areWritten_variable (h.names v hv)
  have hsemicolon := areWritten_sign (c := ';') (by decide)
  have hparts := (areWritten_type h.type).append (hvariables.append hsemicolon)
  simp only [Field.toSource, String.join_cons, String.join_nil, String.append_empty]
  exact (areWritten_modifiers h.modifiers).modified (hparts.node .field)

theorem areWritten_constructor {c : Constructor} (h : c.IsWritable names) :
    AreWritten [modified (c.modifiers.map modifierLeaf) (.node .constructor c.parts)]
      c.toSource := by
  have hname := areWritten_name (isWord_of_isName h.name)
  have hparameters := areWritten_parameters h.parameters
  have hthrows := areWritten_clause .throws isWord_throws h.throws
  have hparts := hname.append (hparameters.append (hthrows.append areWritten_block))
  simp only [Constructor.toSource, String.join_cons, String.join_nil, String.append_empty]
  exact (areWritten_modifiers h.modifiers).modified (hparts.node .constructor)

theorem areWritten_method {m : Method} (h : m.IsWritable names) :
    AreWritten [modified (m.modifiers.map modifierLeaf) (.node .method m.parts)] m.toSource := by
  have htype := areWritten_type h.returnType
  have hname := areWritten_name (isWord_of_isName h.name)
  have hparameters := areWritten_parameters h.parameters
  have hthrows := areWritten_clause .throws isWord_throws h.throws
  have hparts := htype.append (hname.append (hparameters.append (hthrows.append areWritten_block)))
  simp only [Method.toSource, String.join_cons, String.join_nil, String.append_empty]
  exact (areWritten_modifiers h.modifiers).modified (hparts.node .method)

theorem areWritten_element {e : Element} (h : e.IsWritable names) :
    AreWritten [modified (e.modifiers.map modifierLeaf) (.node .element e.parts)] e.toSource := by
  have htype := areWritten_type h.returnType
  have hname := areWritten_name (isWord_of_isName h.name)
  have hopen := areWritten_sign (c := '(') (by decide)
  have hclose := areWritten_sign (c := ')') (by decide)
  have hparts := htype.append (hname.append (hopen.append (hclose.append
    (areWritten_default e.hasDefault))))
  simp only [Element.toSource, String.join_cons, String.join_nil, String.append_empty]
  exact (areWritten_modifiers h.modifiers).modified (hparts.node .element)

/-! ### Types -/

/-- The keyword of an annotation type is a sign. -/
theorem areWritten_annotationType :
    AreWritten [.leaf (spacedSign "@interface")] (spaced "@interface") where
  spells := by
    have hsign := spells_nil.cons (l := ⟨.symbol, "@interface"⟩) fun _ _ => startsAt_annotationTypeSign
    exact hsign.blank_cons ⟨'@', "interface".toList, by decide, by decide⟩
  stops := by simp [spaced]; decide
  placed := by
    simp only [ParseTree.tokensAll, ParseTree.tokens, List.singleton_append, List.forall_mem_cons]
    exact ⟨⟨.inr rfl, rfl⟩, by simp⟩

theorem areWritten_keyword {category : Category} (h : ∀ name, category ≠ .other name) :
    AreWritten [.leaf category.keywordToken] (spaced category.keyword) := by
  cases category with
  | annotationType => exact areWritten_annotationType
  | other name => exact absurd rfl (h name)
  | _ => exact areWritten_word (by decide)

theorem areWritten_head {d : Declaration} (h : d.HasWritableHead names) :
    AreWritten d.headTrees d.headText := by
  have hcomponents : AreWritten d.componentTrees
      (if d.category = .recordType then parametersText d.components else "") := by
    rw [Declaration.componentTrees]
    split
    · exact areWritten_parameters h.components
    · exact areWritten_nil
  have hextends := areWritten_clause d.category.superLabel isWord_extends h.superclasses
  have himplements := areWritten_clause .interfaces isWord_implements h.interfaces
  have hname := areWritten_name (isWord_of_isName h.name)
  simp only [Declaration.headText, String.join_cons, String.join_nil, String.append_empty]
  exact (areWritten_keyword h.category_ne).append (hname.append (hcomponents.append
    (hextends.append himplements)))

theorem areWritten_body (category : Category) {ms : List SyntaxTree} {s : String}
    (h : AreWritten ms s) : AreWritten (bodyTrees category ms) (bodyText category s) := by
  have hopen := areWritten_spacedSign (c := '\x7b') (by decide)
  have hclose := areWritten_spacedSign (c := '\x7d') (by decide)
  simp only [bodyText, String.join_cons, String.join_nil, String.append_empty]
  rw [bodyTrees]
  split
  · have hsemicolon := areWritten_sign (c := ';') (by decide)
    have hmembers := (hsemicolon.append h).node .body
    have hall := hopen.append (hmembers.append hclose)
    rw [String.append_assoc] at hall
    exact hall.of_tokens rfl
  · exact (hopen.append (areWritten_nil.append (h.append hclose))).node .body

mutual
/-- **A member that can be written reads like its text.** -/
theorem areWritten_member {category : Category} : {m : Member} →
    m.IsWritable Opening.Reads category → AreWritten [m.tree] m.toSource
  | .field _, .field h => areWritten_field h
  | .constructor _, .constructor h => areWritten_constructor h
  | .method _, .method h => areWritten_method h
  | .element _, .element h => areWritten_element h
  | .type _, .type h => areWritten_tree h

/-- **A declaration that can be written reads like its text.** -/
theorem areWritten_tree : {d : Declaration} → d.IsWritable Opening.Reads →
    AreWritten [d.tree] d.toSource
  | d, .mk head _ members => by
      have hmembers : AreWritten (d.members.map Member.tree) (membersText d.members) := by
        rw [membersText_eq]
        exact areWritten_map fun m hm => areWritten_member (members m hm)
      have hparts := (areWritten_head head).append (areWritten_body d.category hmembers)
      have hmodifiers := (areWritten_annotations head.annotations).append
        (areWritten_modifiers head.modifiers)
      have hall := hmodifiers.modified (hparts.node d.category.label)
      rw [String.append_assoc] at hall
      rw [Declaration.tree_eq, Declaration.toSource_eq]
      simp only [String.join_cons, String.join_nil, String.append_empty]
      exact hall
end

/-! ### Files -/

/-- The package of a file. -/
def packageTree (name : String) : SyntaxTree :=
  .node .package [.leaf (wordToken space "package"), .node .name (nameTrees space name),
    signLeaf ";"]

/-- The import of something. -/
def importTree (name : String) : SyntaxTree :=
  .node .importing [.leaf (wordToken space "import"), .node .name (nameTrees space name),
    signLeaf ";"]

/-- The import of everything in something. -/
def importAllTree (name : String) : SyntaxTree :=
  .node .importing [.leaf (wordToken space "import"), .node .name (nameTrees space name),
    signLeaf ".", signLeaf "*", signLeaf ";"]

/-- A name behind a blank. -/
theorem areWritten_nameTrees {name : String} (h : IsQualified name) :
    AreWritten (nameTrees space name) (spaced name) := by
  obtain ⟨w, ws, hs, -⟩ := exists_segments name
  have hopens : Opens name := h.isDotted.opens
  have hspells := (h.isDotted.spells hs).blank_cons hopens
  have htokens : ParseTree.tokensAll (nameTrees space name)
      = wordToken space w :: dottedTokens ws := by
    rw [nameTrees, ParseTree.tokensAll_map_leaf, hs, nameTokens]
  constructor
  · rw [htokens]
    exact hspells
  · simp [spaced]; decide
  · rw [htokens, List.forall_mem_cons]
    exact ⟨isPlaced_word (.inr rfl) w, placed_dottedTokens ws⟩

/-- A dot, an asterisk and a semicolon are three signs. -/
theorem areWritten_asterisk : AreWritten [signLeaf ".", signLeaf "*", signLeaf ";"] ".*;" where
  spells := by
    have hsemicolon := spells_nil.closed_cons (c := ';') (by decide)
    have hasterisk := hsemicolon.cons (l := ⟨.symbol, "*"⟩) fun _ _ => ⟨'*', [], rfl, rfl⟩
    have hdot := hasterisk.dot_cons ⟨'*', [';'], rfl, by decide⟩
    exact hdot
  stops := by simp; decide
  placed := by
    simp only [ParseTree.tokensAll, ParseTree.tokens, signLeaf, List.singleton_append,
      List.forall_mem_cons]
    exact ⟨isPlaced_sign ".", isPlaced_sign "*", isPlaced_sign ";", by simp⟩

theorem areWritten_package {name : String} (h : IsQualified name) :
    AreWritten [packageTree name] (packageText (some name)) := by
  have hword := areWritten_word (w := "package") (by decide)
  have hsemicolon := areWritten_sign (c := ';') (by decide)
  have hall := hword.append (((areWritten_nameTrees h).node .name).append hsemicolon)
  simp only [packageText, String.join_cons, String.join_nil, String.append_empty]
  exact hall.node .package

theorem areWritten_import {name : String} (h : IsQualified name) :
    AreWritten [importTree name] (importText name) := by
  have hword := areWritten_word (w := "import") (by decide)
  have hsemicolon := areWritten_sign (c := ';') (by decide)
  have hall := hword.append (((areWritten_nameTrees h).node .name).append hsemicolon)
  simp only [importText, String.join_cons, String.join_nil, String.append_empty]
  exact hall.node .importing

theorem areWritten_importAll {name : String} (h : IsQualified name) :
    AreWritten [importAllTree name] (importText (name ++ ".*")) := by
  have hword := areWritten_word (w := "import") (by decide)
  have hall := hword.append (((areWritten_nameTrees h).node .name).append areWritten_asterisk)
  have htext : importText (name ++ ".*") = spaced "import" ++ (spaced name ++ ".*;") := by
    have hend : ".*;" = ".*" ++ ";" := rfl
    simp only [importText, spaced, hend, String.join_cons, String.join_nil, String.append_empty,
      String.append_assoc]
  rw [htext]
  exact hall.node .importing

end

end JavaOutline
