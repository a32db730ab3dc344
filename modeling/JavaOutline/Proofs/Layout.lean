import JavaOutline.Document
import JavaOutline.Proofs.BlankRuns
import JavaOutline.Proofs.MappedTokens
import JavaOutline.Proofs.NodeShapes
import JavaOutline.Proofs.TreeMeaning
import JavaOutline.Proofs.WellFormedUnits
import JavaOutline.Structure.Unit

/-!
# JavaOutline.Proofs.Layout

Layout does not count: with other runs of blanks between its tokens a file without
comments declares the same types.

Three steps lead there. The tokens of the two texts are the same up to the size of the
blanks in front of them (`Relaid.map_tidy_ofSource`), grammar does not see that
(`Pattern.parse_map`), and what trees declare does not depend on it
(`saysSame_map`): names, types and annotations are read from the tokens and the comments, and
of what stands in front of tokens only opening brackets count, which no run of blanks has.
-/

namespace JavaOutline

open Source Grammar

/-! ## Changes of what stands in front of tokens -/

namespace Source

/-- A change of tokens that keeps all that declarations are read from. -/
structure Token.IsUnread (f : Token → Token) : Prop where
  text : ∀ t, (f t).text = t.text
  comments : ∀ t, (f t).comments = t.comments
  brackets : ∀ t, (f t).leadText.toList.count '[' = t.leadText.toList.count '['

theorem Lexeme.kind_tidy (l : Lexeme) : l.tidy.kind = l.kind := by
  rw [tidy]
  split
  · next h => exact h.1.symm
  · rfl

theorem Lexeme.text_tidy {l : Lexeme} (h : l.kind = .comment) : l.tidy.text = l.text := by
  simp [tidy, h]

theorem Lexeme.count_tidy (l : Lexeme) : l.tidy.text.toList.count '[' = l.text.toList.count '[' := by
  rw [tidy]
  split
  · next h =>
    have hnone : '[' ∉ l.text.toList := fun hmem =>
      absurd (List.all_eq_true.mp h.2 '[' hmem) (by decide)
    rw [List.count_eq_zero.mpr hnone]
    decide
  · rfl

/-- How often a character stands in texts that are joined. -/
theorem count_join_congr {c : Char} {g h : α → String} {xs : List α}
    (hxs : ∀ x, (g x).toList.count c = (h x).toList.count c) :
    (String.join (xs.map g)).toList.count c = (String.join (xs.map h)).toList.count c := by
  induction xs with
  | nil => rfl
  | cons x xs ih =>
      simp only [List.map_cons, String.join_cons, String.toList_append, List.count_append, hxs, ih]

/-- Putting runs of blanks in order keeps it all. -/
theorem Token.isUnread_tidy : IsUnread tidy where
  text _ := rfl
  comments t := by
    simp only [comments, tidy, List.filterMap_map]
    refine List.filterMap_congr fun l _ => ?_
    by_cases h : l.kind = .comment
    · simp [Lexeme.kind_tidy, h, Lexeme.text_tidy h]
    · simp [Lexeme.kind_tidy, h]
  brackets t := by
    simp only [leadText, tidy, List.map_map]
    exact count_join_congr Lexeme.count_tidy

theorem Token.isUnseen_tidy : Pattern.IsUnseen tidy :=
  Pattern.isUnseen_of_lead (fun _ => rfl) (fun _ => rfl) fun t => by simp [isJoined, tidy]

end Source

/-! ## Texts of trees -/

namespace Grammar.ParseTree

variable {Label : Type} {f : Token → Token} (hf : Token.IsUnread f)

include hf

theorem spell_map {between : Token → String} (hbetween : ∀ t, between (f t) = between t)
    (ts : List Token) : spell between (ts.map f) = spell between ts := by
  cases ts with
  | nil => rfl
  | cons t ts => simp [spell, hf.text, hbetween, Function.comp_def]

@[simp] theorem isText_map (s : String) (t : ParseTree Label) : isText s (t.map f) = isText s t := by
  cases t <;> simp [isText, map, hf.text]

@[simp] theorem comments_map (t : ParseTree Label) : comments (t.map f) = comments t := by
  simp only [comments, tokens_map]
  cases t.tokens <;> simp [hf.comments]

@[simp] theorem compactText_mapAll (ts : List (ParseTree Label)) :
    compactText (mapAll f ts) = compactText ts := by
  simp only [compactText, tokensAll_mapAll]
  rw [spell_map hf fun t => by rw [hf.comments]]

/-- The number of opening brackets in a text. -/
theorem count_sourceText_mapAll (ts : List (ParseTree Label)) :
    (sourceText (mapAll f ts)).toList.count '[' = (sourceText ts).toList.count '[' := by
  simp only [sourceText, tokensAll_mapAll]
  cases tokensAll ts with
  | nil => rfl
  | cons t us =>
      simp only [List.map_cons, spell, hf.text, String.toList_append, List.count_append,
        List.map_map]
      refine congrArg _ (count_join_congr fun u => ?_)
      simp only [Function.comp_apply, String.toList_append, List.count_append, hf.text, hf.brackets]

omit hf in
theorem inside?_mapAll [BEq Label] (label : Label) (ts : List (ParseTree Label)) :
    inside? label (mapAll f ts) = (inside? label ts).map (mapAll f) := by
  induction ts with
  | nil => rfl
  | cons t ts ih =>
      simp only [inside?] at ih ⊢
      rw [mapAll, List.findSome?_cons, List.findSome?_cons, ih]
      cases t with
      | leaf => rfl
      | node l us =>
          simp only [map]
          split <;> simp_all

omit hf in
theorem inside_mapAll [BEq Label] (label : Label) (ts : List (ParseTree Label)) :
    inside label (mapAll f ts) = mapAll f (inside label ts) := by
  rw [inside, inside, inside?_mapAll]
  cases inside? label ts <;> rfl

end Grammar.ParseTree

namespace Structure

open ParseTree

variable {f : Token → Token}

/-! ## Types -/

theorem bracketCount_mapAll (hf : Token.IsUnread f) (ts : List SyntaxTree) :
    bracketCount (mapAll f ts) = bracketCount ts :=
  count_sourceText_mapAll hf ts

theorem isType_map (t : SyntaxTree) : isType (t.map f) = isType t := by
  cases t with
  | leaf => rfl
  | node label ts => cases label <;> rfl

mutual
/-- A tree spells the same type. -/
theorem typeOf_map (hf : Token.IsUnread f) : (t : SyntaxTree) → typeOf (t.map f) = typeOf t
  | .leaf t => congrArg TypeRef.raw (compactText_mapAll hf [.leaf t])
  | .node label ts => by
      have hplain := congrArg TypeRef.raw (compactText_mapAll hf [.node label ts])
      cases label
      case type =>
        cases ts with
        | nil => exact hplain
        | cons element brackets =>
            rw [ParseTree.map, mapAll, typeOf, typeOf, typeOf_map hf element, bracketCount_mapAll hf]
      case annotated => rw [ParseTree.map, typeOf, typeOf, lastType_mapAll hf ts]
      case wildcard =>
        cases ts with
        | nil => exact hplain
        | cons first ts =>
            rw [ParseTree.map, mapAll, typeOf, typeOf, typesIn_mapAll hf ts]
            simp only [List.any_cons, mapAll_eq_map, List.any_map, Function.comp_def,
              isText_map hf]
      case named =>
        have hdrop : (mapAll f ts).dropLast = mapAll f ts.dropLast := by
          rw [mapAll_eq_map, mapAll_eq_map, List.map_dropLast]
        rw [ParseTree.map, typeOf, typeOf, finalArguments?_mapAll hf ts]
        cases finalArguments? ts <;> simp only [hdrop, compactText_mapAll hf]
      all_goals exact hplain

theorem lastType_mapAll (hf : Token.IsUnread f) : (ts : List SyntaxTree) → lastType (mapAll f ts) = lastType ts
  | [] => rfl
  | [t] => typeOf_map hf t
  | _ :: t :: ts => lastType_mapAll hf (t :: ts)

theorem finalArguments?_mapAll (hf : Token.IsUnread f) : (ts : List SyntaxTree) →
    finalArguments? (mapAll f ts) = finalArguments? ts
  | [] => rfl
  | [.leaf _] => rfl
  | [.node label ts] => by
      cases label
      case typeArguments =>
        cases ts with
        | nil => rfl
        | cons first ts => exact congrArg some (typesIn_mapAll hf ts)
      all_goals rfl
  | t :: u :: ts => by
      have hskip : ∀ v w (ws : List SyntaxTree),
          finalArguments? (v :: w :: ws) = finalArguments? (w :: ws) := by
        intro v w ws
        simp [finalArguments?]
      rw [mapAll, mapAll, hskip, hskip, ← mapAll, finalArguments?_mapAll hf (u :: ts)]

theorem typesIn_mapAll (hf : Token.IsUnread f) : (ts : List SyntaxTree) → typesIn (mapAll f ts) = typesIn ts
  | [] => rfl
  | t :: ts => by
      rw [mapAll, typesIn, typesIn, comments_map hf, isType_map, typeOf_map hf t, typesIn_mapAll hf ts]
end

section

variable (hf : Token.IsUnread f)

include hf

theorem clauseTypes_mapAll (ts : List SyntaxTree) : clauseTypes (mapAll f ts) = clauseTypes ts := by
  cases ts with
  | nil => rfl
  | cons t ts => exact typesIn_mapAll hf ts

/-! ## Declarations -/

/-- An identifier is one token. -/
def HasOneToken (label : Label) (ts : List SyntaxTree) : Prop :=
  label = .identifier → ∃ t, ts = [.leaf t]

theorem nameIn_mapAll {ts : List SyntaxTree} (hts : ∀ t ∈ ts, t.AllNodes HasOneToken) :
    nameIn (mapAll f ts) = nameIn ts := by
  rw [nameIn, nameIn, inside_mapAll, inside]
  cases hus : inside? .identifier ts with
  | none => rfl
  | some us =>
      cases hts _ (mem_of_inside? hus) with
      | node hone =>
          obtain ⟨t, rfl⟩ := hone rfl
          simp [mapAll, ParseTree.map, sourceText, tokensAll, tokens, spell, hf.text]

theorem typeIn_mapAll (ts : List SyntaxTree) : typeIn (mapAll f ts) = typeIn ts := by
  rw [typeIn, typeIn, inside_mapAll]
  exact typeOf_map hf (.node .type (inside .type ts))

theorem dimensionsIn_mapAll (ts : List SyntaxTree) :
    dimensionsIn (mapAll f ts) = dimensionsIn ts := by
  rw [dimensionsIn, dimensionsIn, inside_mapAll, bracketCount_mapAll hf]

theorem spreadType_mapAll (ts : List SyntaxTree) :
    spreadType (mapAll f ts) = spreadType ts := by
  match ts with
  | [] => rfl
  | [.leaf t] => exact typeOf_map hf (.leaf t)
  | .leaf t :: _ :: _ => exact typeOf_map hf (.leaf t)
  | [.node label us] => cases label <;> exact typeOf_map hf (.node _ us)
  | .node label us :: t :: ts =>
      cases label
      case modifiers =>
        simp only [mapAll, ParseTree.map, spreadType, comments_map hf, typeOf_map hf]
      all_goals exact typeOf_map hf (.node _ us)

theorem parameter?_map {t : SyntaxTree} (ht : t.AllNodes HasOneToken) :
    parameter? (t.map f) = parameter? t := by
  cases ht with
  | leaf => rfl
  | @node label ts _ hts =>
      cases label
      case parameter =>
        simp only [ParseTree.map, parameter?, nameIn_mapAll hf hts, typeIn_mapAll hf,
          dimensionsIn_mapAll hf]
      case spread =>
        have hvariable : ∀ u ∈ inside .variable ts, u.AllNodes HasOneToken := by
          intro u hu
          obtain ⟨us, hus, hmem⟩ := exists_of_mem_inside hu
          exact (hts _ hus).children u hmem
        simp only [ParseTree.map, parameter?, inside_mapAll, nameIn_mapAll hf hvariable,
          spreadType_mapAll hf]
      all_goals rfl

/-- A node that is read as a whole says the same. -/
theorem sameContent_mapAll {label : Label} {ts : List SyntaxTree}
    (ht : (ParseTree.node label ts).AllNodes HasOneToken) :
    SameContent label ts (mapAll f ts) := by
  cases label
  case identifier =>
    cases ht with
    | node hone =>
        obtain ⟨t, rfl⟩ := hone rfl
        simp [SameContent, mapAll, ParseTree.map, sourceText, tokensAll, tokens, spell, hf.text]
  case type => exact (typeOf_map hf (.node .type ts)).symm
  case dimensions => exact (bracketCount_mapAll hf ts).symm
  case superclass | superinterfaces | interfaces | throws => exact (clauseTypes_mapAll hf ts).symm
  case parameters =>
    rw [SameContent, mapAll_eq_map, List.filterMap_map]
    exact List.filterMap_congr fun t hmem => (parameter?_map hf (ht.children t hmem)).symm
  case annotationUse => simp only [SameContent, inside_mapAll, compactText_mapAll hf]
  all_goals trivial

end

mutual
/-- **What trees say does not depend on what stands in front of their tokens.** -/
theorem saysSame_map (hf : Token.IsUnread f) :
    (t : SyntaxTree) → t.AllNodes HasOneToken → SaysSame t (t.map f)
  | .leaf t, _ => .leaf (hf.text t).symm
  | .node label ts, ht => by
      cases hread : isRead label with
      | true => exact .read hread (allSaySame_mapAll hf ts ht.children)
      | false => exact .content hread (sameContent_mapAll hf ht)

theorem allSaySame_mapAll (hf : Token.IsUnread f) : (ts : List SyntaxTree) →
    (∀ t ∈ ts, t.AllNodes HasOneToken) → AllSaySame ts (mapAll f ts)
  | [], _ => .nil
  | t :: ts, hts => by
      rw [List.forall_mem_cons] at hts
      exact .cons (saysSame_map hf t hts.1) (allSaySame_mapAll hf ts hts.2)
end

/-! ## Source files -/

/-- Is the pattern that of a token? -/
def isToken : Form → Bool
  | .token _ => true
  | _ => false

/-- The body of an identifier is a token. -/
def IsTokenBody (label : Label) (p : Form) : Prop := label = .identifier → isToken p = true

instance (label : Label) (p : Form) : Decidable (IsTokenBody label p) :=
  inferInstanceAs (Decidable (_ → _))

theorem allNodes_isTokenBody : ∀ r ∈ Rule.all, r.form.AllNodes IsTokenBody := by decide +kernel

/-- **Identifiers in source files are single tokens.** -/
theorem allNodes_hasOneToken {tokens : List Token} {ts : List SyntaxTree}
    (h : unitTrees? tokens = some ts) : ∀ t ∈ ts, t.AllNodes HasOneToken := by
  refine allNodes_of_bodies allNodes_isTokenBody (fun label p us hbody hforms hlabel => ?_) h
  have htoken : isToken p = true := hbody hlabel
  cases p with
  | token terminal =>
      obtain ⟨t, -, rfl⟩ := Pattern.forms_token.mp hforms
      exact ⟨t, rfl⟩
  | _ => contradiction

/-- Trees of tokens that are the same but for their layout declare the same types. -/
theorem types_unitOf_eq {tokens tokens' : List Token} {ts ts' : List SyntaxTree}
    (h : unitTrees? tokens = some ts) (h' : unitTrees? tokens' = some ts')
    (hsame : mapAll Token.tidy ts = mapAll Token.tidy ts') :
    (unitOf ts).types = (unitOf ts').types := by
  have hts := (allSaySame_mapAll Token.isUnread_tidy ts (allNodes_hasOneToken h)).members_eq
  have hts' := (allSaySame_mapAll Token.isUnread_tidy ts' (allNodes_hasOneToken h')).members_eq
  simp only [unitOf, hts, hts', hsame]

/-- The trees of a file do not depend on the layout of its tokens. -/
theorem map_unitTrees?_eq {tokens tokens' : List Token}
    (h : tokens.map Token.tidy = tokens'.map Token.tidy) :
    (unitTrees? tokens).map (mapAll Token.tidy) = (unitTrees? tokens').map (mapAll Token.tidy) := by
  have hmap : ∀ tokens, unitTrees? (tokens.map Token.tidy)
      = (unitTrees? tokens).map (mapAll Token.tidy) := by
    intro tokens
    rw [unitTrees?, unitTrees?, Pattern.parse_map Token.isUnseen_tidy, Pattern.mapMatch,
      Option.map_map, Option.map_map]
    rfl
  rw [← hmap, h, hmap]

end Structure

open Structure

/-- **Layout does not count**: with other runs of blanks in place of some between its tokens, a
file without comments is read if and only if it was read before, and then it declares the
same types and has the same document. -/
theorem layout_does_not_count {source source' : String} {ms : List Lexeme}
    (h : Relaid (lexemesOfSource source) ms) (htext : source'.toList = charsOf ms)
    (hcomments : ∀ l ∈ lexemesOfSource source, l.kind ≠ .comment) :
    ((∃ u, CompilationUnit.parse source = .ok u) ↔ ∃ u, CompilationUnit.parse source' = .ok u)
      ∧ ∀ u u', CompilationUnit.parse source = .ok u → CompilationUnit.parse source' = .ok u' →
        u.types = u'.types ∧ ∀ strict, u.render ⟨strict, .root⟩ = u'.render ⟨strict, .root⟩ := by
  have htrees := map_unitTrees?_eq (h.map_tidy_ofSource htext hcomments)
  constructor
  · have hread : ∀ s, (∃ u, CompilationUnit.parse s = .ok u)
        ↔ ((unitTrees? (Token.ofSource s)).map (ParseTree.mapAll Token.tidy)).isSome = true := by
      intro s
      rw [Option.isSome_map, Option.isSome_iff_exists]
      simp only [CompilationUnit.parse_eq_ok_iff]
      exact ⟨fun ⟨_, ts, hts, _⟩ => ⟨ts, hts⟩, fun ⟨ts, hts⟩ => ⟨_, ts, hts, rfl⟩⟩
    rw [hread, hread, htrees]
  · intro u u' hu hu'
    obtain ⟨ts, hts, rfl⟩ := CompilationUnit.parse_eq_ok_iff.mp hu
    obtain ⟨ts', hts', rfl⟩ := CompilationUnit.parse_eq_ok_iff.mp hu'
    rw [hts, hts'] at htrees
    have htypes := types_unitOf_eq hts hts' (Option.some.inj htrees)
    refine ⟨htypes, fun strict => ?_⟩
    simp only [CompilationUnit.render, CompilationUnit.document, CompilationUnit.rootDocument,
      htypes]

/-- The lexemes of a class with tabs and line breaks inside the type of its field. -/
def sampleLayout : List Lexeme :=
  [⟨.word, "class"⟩, ⟨.blank, " "⟩, ⟨.word, "A"⟩, ⟨.blank, "\t"⟩, ⟨.symbol, "\x7b"⟩,
    ⟨.blank, "\n"⟩, ⟨.word, "List"⟩, ⟨.symbol, "<"⟩, ⟨.blank, "\t"⟩, ⟨.symbol, "?"⟩,
    ⟨.blank, " "⟩, ⟨.symbol, ">"⟩, ⟨.symbol, "["⟩, ⟨.blank, "\r\n"⟩, ⟨.symbol, "]"⟩,
    ⟨.word, "x"⟩, ⟨.symbol, ";"⟩, ⟨.blank, " "⟩, ⟨.symbol, "\x7d"⟩]

/-- The class on one line and in that layout. -/
theorem layout_does_not_count_sampleLines :
    ∃ u u', CompilationUnit.parse "class A \x7b List< ? >[ ]x; \x7d" = .ok u
      ∧ CompilationUnit.parse "class A\t\x7b\nList<\t? >[\r\n]x; \x7d" = .ok u'
      ∧ u.types.flatMap (fun d => d.fields.map (·.type.render)) = ["List<?>[]"]
      ∧ u.types = u'.types := by
  have hlexemes : lexemesOfSource "class A \x7b List< ? >[ ]x; \x7d"
      = [⟨.word, "class"⟩, ⟨.blank, " "⟩, ⟨.word, "A"⟩, ⟨.blank, " "⟩, ⟨.symbol, "\x7b"⟩,
        ⟨.blank, " "⟩, ⟨.word, "List"⟩, ⟨.symbol, "<"⟩, ⟨.blank, " "⟩, ⟨.symbol, "?"⟩,
        ⟨.blank, " "⟩, ⟨.symbol, ">"⟩, ⟨.symbol, "["⟩, ⟨.blank, " "⟩, ⟨.symbol, "]"⟩,
        ⟨.word, "x"⟩, ⟨.symbol, ";"⟩, ⟨.blank, " "⟩, ⟨.symbol, "\x7d"⟩] := by
    decide +kernel
  have hrun : ∀ s ∈ [" ", "\t", "\n", "\r\n"], Lexeme.IsRun ⟨.blank, s⟩ := by
    have hblanks : [" ", "\t", "\n", "\r\n"].all
        (fun s => !s.toList.isEmpty && s.toList.all isBlank) = true := by decide
    intro s hs
    have hs' := List.all_eq_true.mp hblanks s hs
    rw [Bool.and_eq_true, List.all_eq_true] at hs'
    exact ⟨rfl, by simpa using hs'.1, hs'.2⟩
  simp only [List.forall_mem_cons] at hrun
  obtain ⟨hspace, htab, hline, hreturn, -⟩ := hrun
  have hrelaid : Relaid (lexemesOfSource "class A \x7b List< ? >[ ]x; \x7d") sampleLayout := by
    rw [hlexemes]
    exact .keep nofun <| .keep nofun <| .keep nofun <| .run hspace htab <| .keep nofun <|
      .run hspace hline <| .keep nofun <| .keep nofun <| .run hspace htab <| .keep nofun <|
      .keep nofun <| .keep nofun <| .keep nofun <| .run hspace hreturn <| .keep nofun <|
      .keep nofun <| .keep nofun <| .keep nofun <| .keep nofun .nil
  have hread : ∃ u, CompilationUnit.parse "class A \x7b List< ? >[ ]x; \x7d" = .ok u
      ∧ u.types.flatMap (fun d => d.fields.map (·.type.render)) = ["List<?>[]"] :=
    CompilationUnit.exists_parse_of_check (by decide +kernel)
  have htext : "class A\t\x7b\nList<\t? >[\r\n]x; \x7d".toList = charsOf sampleLayout := by
    decide
  obtain ⟨haccepts, htypes⟩ := layout_does_not_count hrelaid htext (by rw [hlexemes]; decide)
  obtain ⟨u, hu, hfields⟩ := hread
  obtain ⟨u', hu'⟩ := haccepts.mp ⟨u, hu⟩
  exact ⟨u, u', hu, hu', hfields, (htypes u u' hu hu').1⟩

end JavaOutline
