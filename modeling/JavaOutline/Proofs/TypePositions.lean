import JavaOutline.Proofs.AkinTokens
import JavaOutline.Proofs.FileTokens
import JavaOutline.Proofs.Layout
import JavaOutline.Proofs.ReadingBack

/-!
# JavaOutline.Proofs.TypePositions

A canonical type is read back from its text wherever a class has a type: as the type
of a field, as the type a method returns, and as the type of a parameter of fixed or
of variable arity.

`classText` puts one text in all of these places and `classOf` is the class with one
type in all of them; `parse_classText` says that reading the first gives the second. The
class can be written, so it is read back from a text of its own; `classText` has the same
tokens, but for blanks in front of some of them, which is all that is left to say.
-/

namespace JavaOutline

open Source Grammar Structure

/-! ## Blanks in front of tokens -/

namespace Source

/-- A token without the blank in front of it. -/
def Token.unspaced (t : Token) : Token := if t.lead = space then bareToken t else t

theorem Token.isUnread_unspaced : IsUnread unspaced where
  text t := by rw [unspaced]; split <;> rfl
  comments t := by
    rw [unspaced]
    split
    · next h =>
      rw [Token.comments, Token.comments, h]
      rfl
    · rfl
  brackets t := by
    rw [unspaced]
    split
    · next h =>
      rw [Token.leadText, Token.leadText, h]
      rfl
    · rfl

theorem Token.IsSpaced.unspaced_eq {t : Token} (h : t.IsSpaced) : t.unspaced = bareToken t := by
  rcases h with h | h
  · have hspace : t.lead ≠ space := by rw [h]; decide
    rw [unspaced, if_neg hspace, bareToken, ← h]
  · rw [unspaced, if_pos h]

end Source

mutual
/-- Changes that agree on the tokens of a tree change it to the same one. -/
theorem map_congr_tokens {f g : Token → Token} :
    (t : SyntaxTree) → (∀ u ∈ t.tokens, f u = g u) → t.map f = t.map g
  | .leaf t, h => congrArg ParseTree.leaf (h t (by simp [ParseTree.tokens]))
  | .node label ts, h => congrArg (ParseTree.node label) (mapAll_congr_tokens ts h)

theorem mapAll_congr_tokens {f g : Token → Token} : (ts : List SyntaxTree) →
    (∀ u ∈ ParseTree.tokensAll ts, f u = g u) → ParseTree.mapAll f ts = ParseTree.mapAll g ts
  | [], _ => rfl
  | t :: ts, h => by
      rw [ParseTree.tokensAll, List.forall_mem_append] at h
      rw [ParseTree.mapAll, ParseTree.mapAll, map_congr_tokens t h.1, mapAll_congr_tokens ts h.2]
end

/-- A node in front of a token. -/
theorem exists_of_mapAll_eq {f : Token → Token} {ts us : List SyntaxTree} {label : Label}
    {t : Token} (h : ParseTree.mapAll f ts = [.node label us, .leaf t]) :
    ∃ us' t', ts = [.node label us', .leaf t'] := by
  match ts, h with
  | [.node label us', .leaf t'], h =>
      obtain ⟨rfl, -⟩ := ParseTree.node.inj (List.cons.inj h).1
      exact ⟨us', t', rfl⟩

/-- Files with the same tokens but for single blanks in front of them declare the same types. -/
theorem exists_unitTrees?_of_akin {source : String} {tokens : List Token} {ts : List SyntaxTree}
    (h : unitTrees? tokens = some ts) (htokens : ParseTree.tokensAll ts = tokens)
    (hakin : Akin joints none tokens (Token.ofSource source)) (hspaced : ∀ t ∈ tokens, t.IsSpaced)
    (hspaced' : ∀ t ∈ Token.ofSource source, t.IsSpaced) :
    ∃ ts', unitTrees? (Token.ofSource source) = some ts'
      ∧ ParseTree.mapAll bareToken ts' = ParseTree.mapAll bareToken ts
      ∧ (unitOf ts').types = (unitOf ts).types := by
  have hshape := map_unitTrees?_of_akin hakin
  cases hts' : unitTrees? (Token.ofSource source) with
  | none => simp [h, hts'] at hshape
  | some ts' =>
      rw [h, hts', Option.map_some, Option.map_some, Option.some.injEq] at hshape
      refine ⟨ts', rfl, hshape.symm, ?_⟩
      have hbare : ∀ {us : List SyntaxTree}, (∀ t ∈ ParseTree.tokensAll us, t.IsSpaced) →
          ParseTree.mapAll Token.unspaced us = ParseTree.mapAll bareToken us :=
        fun hus => mapAll_congr_tokens _ fun t ht => (hus t ht).unspaced_eq
      have hsame : ParseTree.mapAll Token.unspaced ts = ParseTree.mapAll Token.unspaced ts' := by
        rw [hbare (htokens ▸ hspaced), hbare (tokensAll_of_unitTrees? hts' ▸ hspaced'), hshape]
      have hts := (allSaySame_mapAll Token.isUnread_unspaced ts (allNodes_hasOneToken h)).members_eq
      have hus := (allSaySame_mapAll Token.isUnread_unspaced ts'
        (allNodes_hasOneToken hts')).members_eq
      simp only [unitOf, hts, hus, hsame]

/-! ## The class -/

/-- The class with one type in all places. -/
def classOf (t : TypeRef) : Declaration where
  name := "T"
  category := .classType
  modifiers := []
  annotations := []
  superclasses := []
  interfaces := []
  components := []
  members := [
    .field ⟨[], t, [⟨"f", 0⟩]⟩,
    .method ⟨"m", [], t, [⟨"p", t, false⟩, ⟨"q", t, true⟩], []⟩]

section

variable {t : TypeRef}

/-- The class can be written. -/
theorem isWritable_classOf (h : t.IsCanonical) :
    CompilationUnit.IsWritable Opening.Reads ⟨none, [], [classOf t]⟩ where
  package := by simp
  imports := by simp
  types := by
    have hnames : ∀ w ∈ ["T", "f", "m", "p", "q"], isName w = true := by decide
    simp only [List.forall_mem_cons] at hnames
    obtain ⟨hT, hf, hm, hp, hq, -⟩ := hnames
    have hfield : (Member.field ⟨[], t, [⟨"f", 0⟩]⟩).IsWritable Opening.Reads .classType :=
      .field ⟨areWritable_nil, .canonical h, by simp, by simpa using hf⟩
    have hfixed : Parameter.IsWritable Opening.Reads ⟨"p", t, false⟩ := ⟨hp, .canonical h⟩
    have hspread : Parameter.IsWritable Opening.Reads ⟨"q", t, true⟩ := ⟨hq, .canonical h⟩
    have hmethod : (Member.method ⟨"m", [], t, [⟨"p", t, false⟩, ⟨"q", t, true⟩],
        []⟩).IsWritable Opening.Reads .classType :=
      .method ⟨hm, areWritable_nil, .canonical h, by simpa using ⟨hfixed, hspread⟩, by simp⟩
    refine List.forall_mem_singleton.mpr (.mk ?_ (by simp [classOf, Category.Admits])
      (by simpa [classOf] using ⟨hfield, hmethod⟩))
    exact {
      name := hT
      modifiers := areWritable_nil
      annotations := by simp [classOf]
      superclasses := by simp [classOf]
      interfaces := by simp [classOf]
      components := by simp [classOf]
      fits := by simp [classOf, Declaration.FitsCategory] }

end

/-! ## The text of the class -/

/-- A text in all places of a class that have a type. -/
def classText (R : String) : String :=
  "class T \x7b " ++ R ++ " f; " ++ R ++ " m(" ++ R ++ " p, " ++ R ++ "... q) \x7b \x7d \x7d"

/-- The text of the class, lexeme by lexeme. -/
theorem classText_eq (R : String) :
    classText R = "class" ++ (" " ++ ("T" ++ (" " ++ ("\x7b" ++ (" " ++ (R ++ (" " ++ ("f" ++ (";"
      ++ (" " ++ (R ++ (" " ++ ("m" ++ ("(" ++ (R ++ (" " ++ ("p" ++ ("," ++ (" " ++ (R ++ ("..."
      ++ (" " ++ ("q" ++ (")" ++ (" " ++ ("\x7b" ++ (" " ++ ("\x7d" ++ (" " ++ ("\x7d"
      ++ "")))))))))))))))))))))))))))))) := by
  have hclass : "class T \x7b " = "class" ++ " " ++ "T" ++ " " ++ "\x7b" ++ " " := rfl
  have hfield : " f; " = " " ++ "f" ++ ";" ++ " " := rfl
  have hmethod : " m(" = " " ++ "m" ++ "(" := rfl
  have hfixed : " p, " = " " ++ "p" ++ "," ++ " " := rfl
  have hspread : "... q) \x7b \x7d \x7d" = "..." ++ " " ++ "q" ++ ")" ++ " " ++ "\x7b" ++ " "
      ++ "\x7d" ++ " " ++ "\x7d" ++ "" := rfl
  unfold classText
  simp only [hclass, hfield, hmethod, hfixed, hspread, String.append_assoc]

section

variable {t : TypeRef}

/-- The end of the class behind its last type. `inner` stands in front of the brace that ends
the block. -/
def endTokens (inner : List Lexeme) : List Token :=
  [signToken "...", wordToken space "q", signToken ")", spacedSign "\x7b",
    ⟨inner, .symbol, "\x7d"⟩, spacedSign "\x7d"]

/-- What is behind the parenthesis. `lead` stands in front of the type there. -/
def parameterTokens (lead inner : List Lexeme) (t : TypeRef) : List Token :=
  (typeTree lead t).tokens ++ wordToken space "p" :: signToken ","
    :: ((typeTree space t).tokens ++ endTokens inner)

/-- The tokens of the class, in front of which `lead` stands too. -/
def classTokens (lead inner : List Lexeme) (t : TypeRef) : List Token :=
  wordToken lead "class" :: wordToken space "T" :: spacedSign "\x7b" :: ((typeTree space t).tokens
    ++ wordToken space "f" :: signToken ";" :: ((typeTree space t).tokens
    ++ wordToken space "m" :: signToken "(" :: parameterTokens lead inner t))

theorem tokens_fieldMember (t : TypeRef) : (Member.field ⟨[], t, [⟨"f", 0⟩]⟩).tree.tokens
    = (typeTree space t).tokens ++ [wordToken space "f", signToken ";"] := by
  rw [Member.tree, tokens_modified, List.map_nil, List.nil_append, tokensAll_singleton]
  rfl

theorem tokens_methodMember (t : TypeRef) :
    (Member.method ⟨"m", [], t, [⟨"p", t, false⟩, ⟨"q", t, true⟩], []⟩).tree.tokens
        ++ [spacedSign "\x7d"]
      = (typeTree space t).tokens ++ wordToken space "m" :: signToken "("
        :: parameterTokens space [] t := by
  have hparameters : (parametersNode [⟨"p", t, false⟩, ⟨"q", t, true⟩]).tokens
      = signToken "(" :: (((typeTree space t).tokens ++ [wordToken space "p"]) ++ (signToken ","
        :: (((typeTree space t).tokens ++ [signToken "...", wordToken space "q"])
          ++ [signToken ")"]))) := rfl
  have hmethod : (Member.method ⟨"m", [], t, [⟨"p", t, false⟩, ⟨"q", t, true⟩], []⟩).tree.tokens
      = (typeTree space t).tokens ++ (wordToken space "m" ::
        ((parametersNode [⟨"p", t, false⟩, ⟨"q", t, true⟩]).tokens
          ++ [spacedSign "\x7b", signToken "\x7d"])) := by
    rw [Member.tree, tokens_modified, List.map_nil, List.nil_append, tokensAll_singleton]
    rfl
  rw [hmethod, hparameters, parameterTokens]
  simp only [List.append_assoc, List.cons_append, List.nil_append]
  rfl

/-- The tree of the class has a blank in front, one in front of each type, and none in the
block. -/
theorem tokens_classOf (t : TypeRef) : (classOf t).tree.tokens = classTokens space [] t := by
  have hclass : (classOf t).tree.tokens = wordToken space "class" :: wordToken space "T"
      :: (spacedSign "\x7b" :: ((Member.field ⟨[], t, [⟨"f", 0⟩]⟩).tree.tokens
        ++ ((Member.method ⟨"m", [], t, [⟨"p", t, false⟩, ⟨"q", t, true⟩], []⟩).tree.tokens
        ++ [spacedSign "\x7d"])) ++ []) := by
    rw [Declaration.tree_eq, tokens_modified, ParseTree.tokensAll_append, tokensAll_singleton]
    rfl
  rw [hclass, tokens_methodMember, tokens_fieldMember, classTokens]
  simp only [List.append_nil, List.append_assoc, List.cons_append, List.nil_append]

theorem placed_classTokens {lead inner : List Lexeme} (h : t.IsCanonical)
    (hlead : lead = [] ∨ lead = space) (hinner : inner = [] ∨ inner = space) :
    ∀ u ∈ classTokens lead inner t, u.IsPlaced := by
  obtain ⟨w, more, hw, -, -⟩ := isWritten_of_isCanonical .plain h
  have hspaced : ∀ u ∈ (typeTree space t).tokens, u.IsPlaced := hw.placed_tree (.inr rfl)
  have hfirst : ∀ u ∈ (typeTree lead t).tokens, u.IsPlaced := hw.placed_tree hlead
  have hword : ∀ w, (wordToken space w).IsPlaced := isPlaced_word (.inr rfl)
  have hsign : ∀ s, (spacedSign s).IsPlaced := fun s => ⟨.inr rfl, rfl⟩
  have hblock : Token.IsPlaced ⟨inner, .symbol, "\x7d"⟩ := ⟨hinner, rfl⟩
  simp only [classTokens, parameterTokens, endTokens, List.forall_mem_append, List.forall_mem_cons]
  simpa [hword, hsign, hblock, isPlaced_sign, isPlaced_word hlead] using ⟨hspaced, hfirst, hspaced⟩

theorem spaced_classTokens {lead inner : List Lexeme} (h : t.IsCanonical)
    (hlead : lead = [] ∨ lead = space) (hinner : inner = [] ∨ inner = space) :
    ∀ u ∈ classTokens lead inner t ++ [Token.finish []], u.IsSpaced := by
  rw [List.forall_mem_append]
  exact ⟨fun u hu => (placed_classTokens h hlead hinner u hu).1,
    List.forall_mem_singleton.mpr (.inl rfl)⟩

/-- What stands in front of the class, of a type behind a parenthesis or of the end of a block
joins nothing. -/
theorem akin_classTokens (h : t.IsCanonical) :
    Akin joints none (classTokens space [] t ++ [Token.finish []])
      (classTokens [] space t ++ [Token.finish []]) := by
  obtain ⟨w, more, hw, -, -⟩ := isWritten_of_isCanonical .plain h
  have hparen : ∀ s ∈ some "(", (s, w) ∉ joints := by simp [joints]
  have hbrace : ∀ s ∈ some "\x7b", (s, "\x7d") ∉ joints := by decide
  have hend : ∀ before, Akin joints before (endTokens [] ++ [Token.finish []])
      (endTokens space ++ [Token.finish []]) := fun _ =>
    .cons _ (.cons _ (.cons _ (.cons _ (.lead hbrace (.refl _)))))
  have hparameters : Akin joints (some "(") (parameterTokens space [] t ++ [Token.finish []])
      (parameterTokens [] space t ++ [Token.finish []]) := by
    simp only [parameterTokens, hw.tokens, List.append_assoc, List.cons_append]
    exact .lead hparen (.append more fun _ => .cons _ (.cons _ (.cons _ (.append more hend))))
  simp only [classTokens, List.append_assoc, List.cons_append]
  exact .lead (by simp) (.cons _ (.cons _ (.append _ fun _ => .cons _ (.cons _
    (.append _ fun _ => .cons _ (.cons _ hparameters))))))

theorem spells_classTokens (h : t.IsCanonical) :
    Spells ((classTokens [] space t).flatMap Token.lexemes) (classText t.render) := by
  obtain ⟨w, more, hw, -, -⟩ := isWritten_of_isCanonical .plain h
  -- from the last lexeme to the first
  have hend := spells_nil.spaced_closed (c := '\x7d') (by decide)
  have hclose := hend.spaced_closed (c := '\x7d') (by decide)
  have hblock := hclose.spaced_closed (c := '\x7b') (by decide)
  have hparen := hblock.closed_cons (c := ')') (by decide)
  have hq := hparen.spaced_word (w := "q") (by decide) (by simp; decide)
  have hdots := hq.cons fun _ _ => startsAt_dots
  have hspread := hw.spells_space_append hdots (by simp; decide)
  have hcomma := hspread.closed_cons (c := ',') (by decide)
  have hp := hcomma.spaced_word (w := "p") (by decide) (by simp; decide)
  have hfixed := hw.spells_append hp (by simp; decide)
  have hopen := hfixed.closed_cons (c := '(') (by decide)
  have hm := hopen.spaced_word (w := "m") (by decide) (by simp; decide)
  have hmethod := hw.spells_space_append hm (by simp; decide)
  have hsemicolon := hmethod.closed_cons (c := ';') (by decide)
  have hf := hsemicolon.spaced_word (w := "f") (by decide) (by simp; decide)
  have hfield := hw.spells_space_append hf (by simp; decide)
  have hbody := hfield.spaced_closed (c := '\x7b') (by decide)
  have hname := hbody.spaced_word (w := "T") (by decide) (by simp; decide)
  have hclass := hname.word_cons (w := "class") (by decide) (by simp; decide)
  rw [classText_eq]
  refine Eq.subst (motive := fun ls => Spells ls _) (Eq.symm ?_) hclass
  simp only [classTokens, parameterTokens, endTokens, List.flatMap_append, List.flatMap_cons,
    List.flatMap_nil, List.append_nil]
  rfl

theorem ofSource_classText (h : t.IsCanonical) :
    Token.ofSource (classText t.render) = classTokens [] space t ++ [Token.finish []] := by
  have hspells := spells_classTokens h
  have hmark : (classText t.render).toList.head? ≠ some '\ufeff' := by
    have hword : "class".toList = ['c', 'l', 'a', 's', 's'] := rfl
    rw [classText_eq, String.toList_append, hword]
    simp
  exact Token.ofSource_eq hspells.text.symm hmark (hspells.separated [] (stops_nil _))
    (placed_classTokens h (.inl rfl) (.inr rfl))

end

/-! ## Reading undoes rendering -/

section

variable {t : TypeRef}

/-- The class is read from its own tokens. -/
theorem unitTrees?_classTokens (h : t.IsCanonical) :
    unitTrees? (classTokens space [] t ++ [Token.finish []])
      = some [(classOf t).tree, .leaf (Token.finish [])] := by
  have hwritable := (isWritable_classOf h).types (classOf t) (by simp)
  rw [← tokens_classOf, ← tokensAll_singleton]
  exact unitTrees?_eq (List.forall_mem_singleton.mpr (tokens_tree_ne_nil _))
    (List.forall_mem_singleton.mpr fun _ => reads_tree hwritable)

/-- So it is read from its text, as trees of the same shape that declare the same. -/
theorem exists_unitTrees?_classText (h : t.IsCanonical) : ∃ us u,
    unitTrees? (Token.ofSource (classText t.render)) = some [.node .declaration us, .leaf u]
      ∧ (unitOf [.node .declaration us, .leaf u]).types = [classOf t] := by
  have htokens : ParseTree.tokensAll [(classOf t).tree, .leaf (Token.finish [])]
      = classTokens space [] t ++ [Token.finish []] := by
    rw [← tokens_classOf]
    rfl
  have hmeaning : unitOf [(classOf t).tree, .leaf (Token.finish [])] = ⟨none, [], [classOf t]⟩ :=
    unitOf_trees (isWritable_classOf h) (List.forall_mem_nil _) rfl
  have hakin := akin_classTokens h
  have hspaced := spaced_classTokens h (.inl rfl) (.inr rfl)
  rw [← ofSource_classText h] at hakin hspaced
  obtain ⟨ts, hts, hshape, htypes⟩ := exists_unitTrees?_of_akin (unitTrees?_classTokens h) htokens
    hakin (spaced_classTokens h (.inr rfl) (.inl rfl)) hspaced
  have hnode : (classOf t).tree = .node .declaration [.node .classType (classOf t).parts] :=
    Declaration.tree_eq _
  rw [hnode] at hshape
  obtain ⟨us, u, rfl⟩ := exists_of_mapAll_eq hshape
  exact ⟨us, u, hts, htypes.trans (congrArg CompilationUnit.types hmeaning)⟩

end

/-- **Reading undoes rendering, wherever a type stands**: a class with the canonical
text of a type in every place is accepted, and has the type itself in every place. -/
theorem parse_classText {t : TypeRef} (h : t.IsCanonical) :
    CompilationUnit.parse (classText t.render) = .ok ⟨none, [], [classOf t]⟩ := by
  obtain ⟨us, u, htrees, htypes⟩ := exists_unitTrees?_classText h
  have hunit : unitOf [.node .declaration us, .leaf u] = ⟨none, [], [classOf t]⟩ :=
    congrArg (CompilationUnit.mk none []) htypes
  rw [CompilationUnit.parse, htrees]
  exact congrArg Except.ok hunit

/-- Dimensions over arguments in arguments, a wildcard of either sort among them. -/
def sampleType : TypeRef :=
  .array (.applied "Map" [.raw "K", .applied "a.List" [.wildcard none true,
    .applied "X" [.wildcard (some (.array (.raw "int") 1)) false]]]) 2

theorem isCanonical_sampleType : sampleType.IsCanonical := by
  have hint : (TypeRef.array (.raw "int") 1).IsCanonical :=
    .array (.primitive (by decide)) (by decide)
  have hbounded : (TypeRef.applied "X"
      [.wildcard (some (.array (.raw "int") 1)) false]).IsArgument :=
    .type (.element (.generic (by decide) (by simpa using .bounded hint false)))
  have hlist : (TypeRef.applied "a.List" [.wildcard none true,
      .applied "X" [.wildcard (some (.array (.raw "int") 1)) false]]).IsArgument :=
    .type (.element (.generic (by decide) (by simpa using ⟨.unbounded, hbounded⟩)))
  have hname : (TypeRef.raw "K").IsArgument := .type (.element (.named (by decide)))
  exact .array (.generic (by decide) (by simpa using ⟨hname, hlist⟩)) (by decide)

theorem parse_classText_sampleType :
    sampleType.IsCanonical
      ∧ CompilationUnit.parse (classText "Map<K,a.List<?,X<? super int[]>>>[][]")
        = .ok ⟨none, [], [classOf sampleType]⟩ := by
  have hrender : sampleType.render = "Map<K,a.List<?,X<? super int[]>>>[][]" := rfl
  rw [← hrender]
  exact ⟨isCanonical_sampleType, parse_classText isCanonical_sampleType⟩

end JavaOutline
