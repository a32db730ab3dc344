import JavaOutline.Proofs.CanonicalTypes

/-!
# JavaOutline.Proofs.TypeTrees

What the tree of a canonical type reads like and what it means.

* `isWritten_of_isCanonical`: the lexemes of the tree spell the canonical text of the
  type, and are cut apart again wherever no name goes on behind them;
* `typeOf_typeTree`: the tree spells the type itself.

Both go by induction on how the type is built, one lemma for each way of building.
-/

namespace JavaOutline

open Source Grammar Structure

/-! ## Text -/

/-- How a type is written: `l`, with anything in front of it, and the tokens
`more`. -/
structure IsWritten (t : TypeRef) (l : Lexeme) (more : List Token) : Prop where
  tokens : ∀ lead, (typeTree lead t).tokens = ⟨lead, l.kind, l.text⟩ :: more
  spells : Spells (l :: more.flatMap Token.lexemes) t.render
  opens : Opens t.render
  isTrivia_eq : l.isTrivia = false
  placed : ∀ t ∈ more, t.IsPlaced

/-- Can the tokens stand behind the first word of a type? -/
def GoesOn (ts : List Token) : Prop := ∀ u ∈ ts.head?, u.text ∈ [".", "<", "["]

/-- Is a type written as a word that begins types in the place, and what goes on with it? -/
def IsWrittenAsType (place : Place) (t : TypeRef) : Prop :=
  ∃ w more, IsWritten t ⟨.word, w⟩ more ∧ BeginsType place w ∧ GoesOn more

theorem isPlaced_word {lead : List Lexeme} (hlead : lead = [] ∨ lead = space) (w : String) :
    (wordToken lead w).IsPlaced := ⟨hlead, rfl⟩

theorem isPlaced_sign (s : String) : (signToken s).IsPlaced := ⟨.inl rfl, rfl⟩

theorem GoesOn.append {ts us : List Token} (hts : GoesOn ts) (hus : GoesOn us) :
    GoesOn (ts ++ us) := by
  cases ts with
  | nil => exact hus
  | cons t ts => exact hts

section

variable {t bound : TypeRef} {args : List TypeRef} {name : String} {l : Lexeme} {more : List Token}

/-- The lexemes of a type with nothing in front of it. -/
theorem IsWritten.lexemes_eq (h : IsWritten t l more) :
    (typeTree [] t).tokens.flatMap Token.lexemes = l :: more.flatMap Token.lexemes := by
  rw [h.tokens, List.flatMap_cons]
  rfl

theorem IsWritten.placed_tree (h : IsWritten t l more) {lead : List Lexeme}
    (hlead : lead = [] ∨ lead = space) : ∀ u ∈ (typeTree lead t).tokens, u.IsPlaced := by
  rw [h.tokens, List.forall_mem_cons]
  exact ⟨⟨hlead, h.isTrivia_eq⟩, h.placed⟩

/-- A type in front of a text that does not go on with it. -/
theorem IsWritten.spells_append {ls : List Lexeme} {s : String} (h : IsWritten t l more)
    (hs : Spells ls s) (hstop : Stops isNamePart s.toList) :
    Spells ((typeTree [] t).tokens.flatMap Token.lexemes ++ ls) (t.render ++ s) := by
  rw [h.lexemes_eq]
  exact h.spells.append hs hstop

theorem IsWritten.spells_space_append {ls : List Lexeme} {s : String} (h : IsWritten t l more)
    (hs : Spells ls s) (hstop : Stops isNamePart s.toList) :
    Spells ((typeTree space t).tokens.flatMap Token.lexemes ++ ls) (" " ++ (t.render ++ s)) := by
  have hspace : (typeTree space t).tokens.flatMap Token.lexemes
      = ⟨.blank, " "⟩ :: (typeTree [] t).tokens.flatMap Token.lexemes := by
    rw [h.tokens, h.tokens]
    rfl
  rw [hspace, List.cons_append]
  exact (h.spells_append hs hstop).blank_cons (h.opens.append s)

/-! ### Names -/

/-- A dotted name is spelled by its segments. -/
theorem IsDotted.spells (h : IsDotted name) {w : String} {ws : List String}
    (hs : segments name = w :: ws) :
    Spells (⟨.word, w⟩ :: (dottedTokens ws).flatMap Token.lexemes) name := by
  have hlexemes : (dottedTokens ws).flatMap Token.lexemes
      = ws.flatMap fun v => ⟨.symbol, String.singleton '.'⟩ :: [⟨.word, v⟩] := by
    rw [dottedTokens, List.flatMap_assoc]
    rfl
  have hword : ∀ v ∈ w :: ws, Spells [⟨.word, v⟩] v := by
    intro v hv
    have hspells := spells_nil.word_cons (h v (hs ▸ hv)) (stops_nil _)
    rwa [String.append_empty] at hspells
  have hdot : ∀ v ∈ ws,
      Spells (⟨.symbol, String.singleton '.'⟩ :: [⟨.word, v⟩]) (String.singleton '.' ++ v) := by
    intro v hv
    have hv' : v ∈ w :: ws := List.mem_cons_of_mem w hv
    exact (hword v hv').dot_cons (opens_of_isWord (h v (hs ▸ hv')))
  have hname : (String.singleton '.').intercalate (w :: ws) = name := by
    rw [← hs]
    exact intercalate_segments name
  have hall := spells_intercalate (by decide) (hword w (by simp)) hdot
  rw [List.map_id', hname] at hall
  rwa [hlexemes]

theorem IsDotted.opens (h : IsDotted name) : Opens name := by
  obtain ⟨w, ws, hs, htext⟩ := exists_segments name
  rw [htext]
  exact (opens_of_isWord (h w (by simp [hs]))).append _

theorem placed_dottedTokens (ws : List String) : ∀ t ∈ dottedTokens ws, t.IsPlaced := by
  intro t ht
  obtain ⟨v, -, ht⟩ := List.mem_flatMap.mp ht
  simp only [List.mem_cons, List.not_mem_nil, or_false] at ht
  rcases ht with rfl | rfl
  · exact isPlaced_sign "."
  · exact isPlaced_word (.inl rfl) v

theorem goesOn_dottedTokens (ws : List String) : GoesOn (dottedTokens ws) := by
  cases ws with
  | nil => simp [GoesOn, dottedTokens]
  | cons w ws => simp [GoesOn, dottedTokens, signToken]

/-- A name is written as its segments. -/
theorem isWritten_raw (h : IsDotted name) {w : String} {ws : List String}
    (hs : segments name = w :: ws) : IsWritten (.raw name) ⟨.word, w⟩ (dottedTokens ws) where
  tokens lead := by
    rw [typeTree, ParseTree.tokens, ParseTree.tokensAll, ParseTree.tokens, nameTrees,
      ParseTree.tokensAll_map_leaf, hs, nameTokens, ParseTree.tokensAll, List.append_nil, wordToken]
  spells := by
    rw [TypeRef.render]
    exact h.spells hs
  opens := by
    rw [TypeRef.render]
    exact h.opens
  isTrivia_eq := rfl
  placed := placed_dottedTokens ws

theorem isWrittenAsType_raw {place : Place} (h : IsDotted name)
    (hbegins : ∀ w ws, segments name = w :: ws → BeginsType place w) :
    IsWrittenAsType place (.raw name) := by
  obtain ⟨w, ws, hs, -⟩ := exists_segments name
  exact ⟨w, _, isWritten_raw h hs, hbegins w ws hs, goesOn_dottedTokens ws⟩

/-! ### Wildcards -/

theorem opens_question : Opens "?" := ⟨'?', [], rfl, by decide⟩

/-- A wildcard without a bound is a question mark. -/
theorem isWritten_wildcard : IsWritten (.wildcard none true) ⟨.symbol, "?"⟩ [] where
  tokens lead := by simp [typeTree, ParseTree.tokens, ParseTree.tokensAll]
  spells := by
    have hsign := spells_nil.closed_cons (c := '?') (by decide)
    rw [TypeRef.render]
    exact hsign
  opens := by
    rw [TypeRef.render]
    exact opens_question
  isTrivia_eq := rfl
  placed := by simp

theorem render_bounded (bound : TypeRef) (isUpper : Bool) :
    (TypeRef.wildcard (some bound) isUpper).render
      = "?" ++ (" " ++ (boundWord isUpper ++ (" " ++ bound.render))) := by
  have hblanks : (if isUpper then " extends " else " super ")
      = " " ++ boundWord isUpper ++ " " := by
    cases isUpper <;> rfl
  rw [TypeRef.render, hblanks]
  simp only [String.append_assoc]

/-- A bound stands behind the question mark, a word, and blanks. -/
theorem IsWritten.wildcard (h : IsWritten bound l more) (isUpper : Bool) :
    IsWritten (.wildcard (some bound) isUpper) ⟨.symbol, "?"⟩
      (wordToken space (boundWord isUpper) :: ⟨space, l.kind, l.text⟩ :: more) where
  tokens lead := by
    rw [typeTree, ParseTree.tokens, ParseTree.tokensAll, ParseTree.tokensAll, ParseTree.tokensAll,
      ParseTree.tokensAll, h.tokens]
    simp [ParseTree.tokens]
  spells := by
    have hword : isWord (boundWord isUpper) = true := by cases isUpper <;> decide
    have hbound := h.spells.blank_cons h.opens
    have hupto := hbound.word_cons hword (by simp; decide)
    have hblank := hupto.blank_cons ((opens_of_isWord hword).append _)
    rw [render_bounded]
    exact hblank.closed_cons (c := '?') (by decide)
  opens := by
    rw [render_bounded]
    exact opens_question.append _
  isTrivia_eq := rfl
  placed := by
    simp only [List.forall_mem_cons]
    exact ⟨isPlaced_word (.inr rfl) _, ⟨.inr rfl, h.isTrivia_eq⟩, h.placed⟩

/-! ### Arguments -/

theorem tokensAll_withCommas (ts : List SyntaxTree) :
    ParseTree.tokensAll (withCommas ts) = match ts with
      | [] => []
      | t :: ts => t.tokens ++ ts.flatMap fun u => signToken "," :: u.tokens := by
  cases ts with
  | nil => rfl
  | cons t ts =>
      simp only [withCommas, afterCommas, ParseTree.tokensAll_eq_flatMap, List.flatMap_cons,
        List.flatMap_assoc, List.flatMap_nil, List.append_nil]
      rfl

/-- The tokens of type arguments. -/
def argumentTokens (args : List TypeRef) : List Token :=
  signToken "<" :: (ParseTree.tokensAll (withCommas (argumentTrees args)) ++ [signToken ">"])

theorem tokens_argumentsTree (args : List TypeRef) :
    (argumentsTree (argumentTrees args)).tokens = argumentTokens args := by
  simp [argumentsTree, argumentTokens, ParseTree.tokens, ParseTree.tokensAll,
    ParseTree.tokensAll_append, signLeaf]

/-- Arguments are written one after another. -/
theorem spells_arguments (h : ∀ a ∈ args, ∃ l more, IsWritten a l more) :
    Spells ((ParseTree.tokensAll (withCommas (argumentTrees args))).flatMap Token.lexemes)
      (",".intercalate (args.map TypeRef.render)) := by
  have hspells : ∀ a ∈ args,
      Spells ((typeTree [] a).tokens.flatMap Token.lexemes) a.render := by
    intro a ha
    obtain ⟨l, more, hw⟩ := h a ha
    rw [hw.lexemes_eq]
    exact hw.spells
  rw [argumentTrees_eq_map, tokensAll_withCommas]
  cases args with
  | nil => exact spells_nil
  | cons a as =>
      rw [List.forall_mem_cons] at hspells
      have hcomma : ∀ b ∈ as,
          Spells (⟨.symbol, String.singleton ','⟩ :: (typeTree [] b).tokens.flatMap Token.lexemes)
            (String.singleton ',' ++ b.render) :=
        fun b hb => (hspells.2 b hb).closed_cons (by decide)
      have hall := spells_intercalate (by decide) hspells.1 hcomma
      simp only [List.map_cons, List.flatMap_append, List.flatMap_map, List.flatMap_assoc,
        List.flatMap_cons]
      exact hall

/-- What follows the opening bracket stays apart from it. -/
theorem opens_arguments (h : ∀ a ∈ args, ∃ l more, IsWritten a l more) :
    Opens (",".intercalate (args.map TypeRef.render) ++ ">") := by
  cases args with
  | nil => exact ⟨'>', [], rfl, by decide⟩
  | cons a as =>
      obtain ⟨l, more, hw⟩ := h a (by simp)
      rw [List.map_cons, intercalate_eq_append_join, String.append_assoc]
      exact hw.opens.append _

theorem placed_arguments (h : ∀ a ∈ args, ∃ l more, IsWritten a l more) :
    ∀ t ∈ argumentTokens args, t.IsPlaced := by
  have htrees : ∀ a ∈ args, ∀ u ∈ (typeTree [] a).tokens, u.IsPlaced := by
    intro a ha
    obtain ⟨l, more, hw⟩ := h a ha
    exact hw.placed_tree (.inl rfl)
  have hlist : ∀ t ∈ ParseTree.tokensAll (withCommas (argumentTrees args)), t.IsPlaced := by
    rw [argumentTrees_eq_map, tokensAll_withCommas]
    cases args with
    | nil => simp
    | cons a as =>
        rw [List.forall_mem_cons] at htrees
        simp only [List.map_cons, List.forall_mem_append, List.flatMap_map,
          List.forall_mem_flatMap, List.forall_mem_cons]
        exact ⟨htrees.1, fun b hb => ⟨isPlaced_sign ",", htrees.2 b hb⟩⟩
  simp only [argumentTokens, List.forall_mem_cons, List.forall_mem_append]
  exact ⟨isPlaced_sign "<", hlist, isPlaced_sign ">", by simp⟩

/-- Arguments are written behind the name they are applied to. -/
theorem isWritten_generic (hname : IsDotted name) {w : String} {ws : List String}
    (hs : segments name = w :: ws) (h : ∀ a ∈ args, ∃ l more, IsWritten a l more) :
    IsWritten (.generic (.raw name) args) ⟨.word, w⟩ (dottedTokens ws ++ argumentTokens args) where
  tokens lead := by
    simp [typeTree, ParseTree.tokens, ParseTree.tokensAll, ParseTree.tokensAll_append, nameTrees,
      ParseTree.tokensAll_map_leaf, TypeRef.render, hs, nameTokens, wordToken, tokens_argumentsTree]
  spells := by
    have hclose := spells_nil.closed_cons (c := '>') (by decide)
    have hinner := (spells_arguments h).append hclose (by simp; decide)
    have hargs := hinner.less_cons (opens_arguments h)
    have hall := (hname.spells hs).append hargs (by simp; decide)
    have hrender : (TypeRef.generic (.raw name) args).render
        = name ++ ("<" ++ (",".intercalate (args.map TypeRef.render) ++ ">")) := by
      simp only [TypeRef.render, TypeRef.renderAll_eq_map, String.append_assoc]
    rw [hrender, argumentTokens, List.flatMap_append, List.flatMap_cons, List.flatMap_append]
    exact hall
  opens := by
    rw [TypeRef.render, TypeRef.render, String.append_assoc, String.append_assoc]
    exact hname.opens.append _
  isTrivia_eq := rfl
  placed := List.forall_mem_append.mpr ⟨placed_dottedTokens ws, placed_arguments h⟩

/-! ### Arrays -/

theorem spells_brackets (n : Nat) :
    Spells ((bracketTokens n).flatMap Token.lexemes) (String.join (List.replicate n "[]"))
      ∧ Stops isNamePart (String.join (List.replicate n "[]")).toList := by
  induction n with
  | zero => exact ⟨spells_nil, stops_nil _⟩
  | succ n ih =>
      have hclose := ih.1.closed_cons (c := ']') (by decide)
      have hopen := hclose.closed_cons (c := '[') (by decide)
      have htext : ∀ s, "[]" ++ s = "[" ++ ("]" ++ s) := fun s => by
        rw [← String.append_assoc]
        rfl
      rw [List.replicate_succ, String.join_cons, htext]
      exact ⟨hopen, by simp; decide⟩

theorem placed_brackets (n : Nat) : ∀ t ∈ bracketTokens n, t.IsPlaced := by
  induction n with
  | zero => simp [bracketTokens]
  | succ n ih =>
      simp only [bracketTokens, List.forall_mem_cons]
      exact ⟨isPlaced_sign "[", isPlaced_sign "]", ih⟩

theorem goesOn_brackets (n : Nat) : GoesOn (bracketTokens n) := by
  cases n with
  | zero => simp [GoesOn, bracketTokens]
  | succ n => simp [GoesOn, bracketTokens, signToken]

/-- The tree of an element holds one tree, which brackets come to stand behind. -/
theorem exists_typeTree_eq (h : t.IsElement) :
    ∃ u : List Lexeme → SyntaxTree, ∀ lead, typeTree lead t = .node .type [u lead] := by
  cases h with
  | primitive | named => exact ⟨_, fun lead => by rw [typeTree]⟩
  | generic => exact ⟨_, fun lead => by rw [typeTree]⟩

/-- Brackets are written behind their element. -/
theorem IsWritten.array (h : IsWritten t l more) (ht : t.IsElement) (n : Nat) :
    IsWritten (.array t n) l (more ++ bracketTokens n) where
  tokens lead := by
    obtain ⟨u, hu⟩ := exists_typeTree_eq ht
    have htokens := h.tokens lead
    rw [hu, ParseTree.tokens] at htokens
    rw [typeTree, hu, ParseTree.children, ParseTree.tokens, ParseTree.tokensAll_append, htokens,
      bracketsTree]
    simp [ParseTree.tokensAll, ParseTree.tokens, ParseTree.tokensAll_map_leaf]
  spells := by
    obtain ⟨hspells, hstop⟩ := spells_brackets n
    rw [TypeRef.render, List.flatMap_append, ← List.cons_append]
    exact h.spells.append hspells hstop
  opens := by
    rw [TypeRef.render]
    exact h.opens.append _
  isTrivia_eq := h.isTrivia_eq
  placed := List.forall_mem_append.mpr ⟨h.placed, placed_brackets n⟩

end

/-! ### All types -/

mutual

theorem isWritten_of_isElement (place : Place) :
    {t : TypeRef} → t.IsElement → IsWrittenAsType place t
  | _, .primitive h =>
      isWrittenAsType_raw (isDotted_of_primitive h) fun _ _ => beginsType_of_primitive h
  | _, .named h =>
      isWrittenAsType_raw (isDotted_of_isTypeName h) fun _ _ => beginsType_of_isTypeName h
  | .generic (.raw name) args, .generic h hargs => by
      have hwritten : ∀ a ∈ args, ∃ l more, IsWritten a l more :=
        fun a ha => isWritten_of_isArgument (hargs a ha)
      have hless : GoesOn (argumentTokens args) := by simp [GoesOn, argumentTokens, signToken]
      obtain ⟨w, ws, hs, -⟩ := exists_segments name
      exact ⟨w, _, isWritten_generic (isDotted_of_isTypeName h) hs hwritten,
        beginsType_of_isTypeName h hs, (goesOn_dottedTokens ws).append hless⟩

/-- **A canonical type is written as its canonical text.** -/
theorem isWritten_of_isCanonical (place : Place) :
    {t : TypeRef} → t.IsCanonical → IsWrittenAsType place t
  | _, .element h => isWritten_of_isElement place h
  | .array _ n, .array h _ => by
      obtain ⟨w, more, hwritten, hbegins, hmore⟩ := isWritten_of_isElement place h
      exact ⟨w, _, hwritten.array h n, hbegins, hmore.append (goesOn_brackets n)⟩

theorem isWritten_of_isArgument : {t : TypeRef} → t.IsArgument → ∃ l more, IsWritten t l more
  | _, .type h => by
      obtain ⟨w, more, hwritten, -⟩ := isWritten_of_isCanonical .plain h
      exact ⟨_, more, hwritten⟩
  | _, .unbounded => ⟨_, _, isWritten_wildcard⟩
  | _, .bounded h isUpper => by
      obtain ⟨w, more, hwritten, -⟩ := isWritten_of_isCanonical .plain h
      exact ⟨_, _, hwritten.wildcard isUpper⟩

end

/-! ## Meaning -/

/-- A name is what its tokens spell, if nothing counts between tokens that touch. -/
theorem spell_nameTokens {between : Token → String} (h : ∀ t : Token, t.lead = [] → between t = "")
    (lead : List Lexeme) (name : String) :
    ParseTree.spell between (nameTokens lead (segments name)) = name := by
  obtain ⟨w, ws, hs, htext⟩ := exists_segments name
  have hjoin : ∀ ws, String.join ((dottedTokens ws).map fun t => between t ++ t.text)
      = String.join (ws.map ("." ++ ·)) := by
    intro ws
    induction ws with
    | nil => rfl
    | cons v ws ih =>
        rw [dottedTokens] at ih
        have hsign : between (signToken ".") = "" := h _ rfl
        have hword : between (wordToken [] v) = "" := h _ rfl
        simp only [dottedTokens, List.flatMap_cons, List.cons_append, List.nil_append,
          List.map_cons, String.join_cons, ih, hsign, hword]
        simp [signToken, wordToken, String.append_assoc]
  rw [hs, nameTokens, ParseTree.spell, hjoin, wordToken, ← htext]

/-- The text of a name's trees is the name. -/
theorem IsDotted.compactText_nameTrees {name : String} (h : IsDotted name) (lead : List Lexeme) :
    ParseTree.compactText (nameTrees lead name) = name := by
  have hcomments : ∀ t : Token, t.lead = [] → String.join t.comments = "" := fun t ht => by
    rw [Token.comments, ht]
    rfl
  rw [ParseTree.compactText, nameTrees, ParseTree.tokensAll_map_leaf, spell_nameTokens hcomments,
    h.compact_eq]

/-- It is the same with what stands between the tokens. -/
theorem sourceText_nameTrees (lead : List Lexeme) (name : String) :
    ParseTree.sourceText (nameTrees lead name) = name := by
  have hlead : ∀ t : Token, t.lead = [] → t.leadText = "" := fun t ht => by
    rw [Token.leadText, ht]
    rfl
  rw [ParseTree.sourceText, nameTrees, ParseTree.tokensAll_map_leaf, spell_nameTokens hlead]

theorem finalArguments?_map_leaf (ts : List Token) (us : List SyntaxTree) :
    finalArguments? (ts.map .leaf ++ us) = finalArguments? us := by
  induction ts with
  | nil => rfl
  | cons t ts ih =>
      rw [List.map_cons, List.cons_append, finalArguments?, ih]
      simp

theorem typesIn_append (ts us : List SyntaxTree) :
    typesIn (ts ++ us) = typesIn ts ++ typesIn us := by
  induction ts with
  | nil => rfl
  | cons t ts ih => simp only [List.cons_append, typesIn, ih, List.append_assoc]

theorem isType_typeTree (lead : List Lexeme) (t : TypeRef) : isType (typeTree lead t) = true := by
  unfold typeTree
  split <;> rfl

theorem isText_typeTree (s : String) (lead : List Lexeme) (t : TypeRef) :
    ParseTree.isText s (typeTree lead t) = false := by
  unfold typeTree
  split <;> rfl

/-- In a list a tree that spells a type, without comments in front, is that type. -/
theorem IsWritten.typesIn_eq {t : TypeRef} {l : Lexeme} {more : List Token}
    (h : IsWritten t l more) {lead : List Lexeme} (hlead : lead = [] ∨ lead = space)
    (hmeaning : typeOf (typeTree lead t) = t) : typesIn [typeTree lead t] = [t] := by
  have hcomments : (typeTree lead t).comments = [] := by
    rw [ParseTree.comments, h.tokens]
    rcases hlead with rfl | rfl <;> rfl
  rw [typesIn, hcomments, isType_typeTree, hmeaning]
  rfl

/-- Commas are no types. -/
theorem typesIn_withCommas {lead : List Lexeme} {ts : List TypeRef}
    (h : ∀ t ∈ ts, typesIn [typeTree lead t] = [t]) :
    typesIn (withCommas (ts.map (typeTree lead))) = ts := by
  have hafter : ∀ us : List TypeRef, (∀ u ∈ us, typesIn [typeTree lead u] = [u]) →
      typesIn (afterCommas (us.map (typeTree lead))) = us := by
    intro us
    induction us with
    | nil => exact fun _ => rfl
    | cons u us ih =>
        intro h
        rw [List.forall_mem_cons] at h
        rw [List.map_cons, afterCommas, List.flatMap_cons, typesIn_append, ← afterCommas, ih h.2,
          ← List.singleton_append, typesIn_append, h.1]
        rfl
  cases ts with
  | nil => rfl
  | cons t ts =>
      rw [List.forall_mem_cons] at h
      rw [List.map_cons, withCommas, ← List.singleton_append, typesIn_append, h.1, hafter ts h.2]
      rfl

/-- The brackets around arguments are no types either. -/
theorem typesIn_arguments {args : List TypeRef} (h : ∀ a ∈ args, typesIn [typeTree [] a] = [a]) :
    typesIn (withCommas (argumentTrees args) ++ [signLeaf ">"]) = args := by
  have hclose : typesIn [signLeaf ">"] = [] := rfl
  rw [argumentTrees_eq_map, typesIn_append, hclose, List.append_nil, typesIn_withCommas h]

theorem typeOf_type (t : SyntaxTree) : typeOf (.node .type [t]) = typeOf t := by
  rw [typeOf, bracketCount]
  exact TypeRef.arrayOf_zero _

theorem count_bracketTokens (n : Nat) :
    (String.join ((bracketTokens n).map fun t => t.leadText ++ t.text)).toList.count '[' = n := by
  induction n with
  | zero => rfl
  | succ n ih =>
      rw [bracketTokens, List.map_cons, List.map_cons, String.join_cons, String.join_cons]
      simp only [String.toList_append, List.count_append, ih]
      simp [signToken, Token.leadText]
      omega

/-- A pair of brackets is a dimension. -/
theorem bracketCount_bracketsTree (n : Nat) : bracketCount [bracketsTree n] = n := by
  have htokens : ParseTree.tokensAll [bracketsTree n] = bracketTokens n := by
    rw [bracketsTree, ParseTree.tokensAll, ParseTree.tokens, ParseTree.tokensAll_map_leaf]
    exact List.append_nil _
  rw [bracketCount, ParseTree.sourceText, htokens]
  cases n with
  | zero => rfl
  | succ n =>
      have hcount := count_bracketTokens (n + 1)
      rwa [bracketTokens, List.map_cons, String.join_cons] at hcount

theorem arrayOf_of_isElement {t : TypeRef} (h : t.IsElement) {n : Nat} (hn : 1 ≤ n) :
    t.arrayOf n = .array t n := by
  have hpos : n ≠ 0 := by omega
  cases h <;> simp [TypeRef.arrayOf, hpos]

/-- The tree of a name spells it. -/
theorem IsDotted.typeOf_typeTree {name : String} (h : IsDotted name) (lead : List Lexeme) :
    typeOf (typeTree lead (.raw name)) = .raw name := by
  have hargs : finalArguments? (nameTrees lead name) = none := by
    have hnone := finalArguments?_map_leaf (nameTokens lead (segments name)) []
    rwa [List.append_nil] at hnone
  rw [typeTree, typeOf_type, typeOf, hargs, h.compactText_nameTrees]

mutual

theorem typeOf_of_isElement : {t : TypeRef} → t.IsElement → ∀ lead, typeOf (typeTree lead t) = t
  | .raw _, .primitive h, lead => (isDotted_of_primitive h).typeOf_typeTree lead
  | .raw _, .named h, lead => (isDotted_of_isTypeName h).typeOf_typeTree lead
  | .generic (.raw name) args, .generic h hargs, lead => by
      have hname : IsDotted name := isDotted_of_isTypeName h
      have htypes : ∀ a ∈ args, typesIn [typeTree [] a] = [a] := by
        intro a ha
        obtain ⟨l, more, hwritten⟩ := isWritten_of_isArgument (hargs a ha)
        exact hwritten.typesIn_eq (.inl rfl) (typeOf_of_isArgument (hargs a ha) [])
      have hfinal : finalArguments? (nameTrees lead name ++ [argumentsTree (argumentTrees args)])
          = some args := by
        rw [nameTrees, finalArguments?_map_leaf, argumentsTree, finalArguments?,
          typesIn_arguments htypes]
      rw [typeTree, typeOf_type, TypeRef.render, typeOf, hfinal]
      simp only [List.dropLast_concat, hname.compactText_nameTrees]

/-- **The tree of a canonical type spells it.** -/
theorem typeOf_typeTree : {t : TypeRef} → t.IsCanonical → ∀ lead, typeOf (typeTree lead t) = t
  | _, .element h, lead => typeOf_of_isElement h lead
  | .array e n, .array h hn, lead => by
      have hmeaning : typeOf (typeTree lead e) = e := typeOf_of_isElement h lead
      obtain ⟨u, hu⟩ := exists_typeTree_eq h
      rw [hu, typeOf_type] at hmeaning
      rw [typeTree, hu, ParseTree.children, List.singleton_append, typeOf, hmeaning,
        bracketCount_bracketsTree, arrayOf_of_isElement h hn]

theorem typeOf_of_isArgument : {t : TypeRef} → t.IsArgument → ∀ lead, typeOf (typeTree lead t) = t
  | _, .type h, lead => typeOf_typeTree h lead
  | _, .unbounded, _ => rfl
  | .wildcard (some bound) isUpper, .bounded h _, lead => by
      obtain ⟨l, more, hwritten⟩ := isWritten_of_isArgument (.type h)
      have htypes : typesIn [.leaf (wordToken space (boundWord isUpper)), typeTree space bound]
          = [bound] := by
        rw [← List.singleton_append, typesIn_append,
          hwritten.typesIn_eq (.inr rfl) (typeOf_typeTree h space)]
        rfl
      have hword : List.any [.leaf ⟨lead, .symbol, "?"⟩,
          .leaf (wordToken space (boundWord isUpper)), typeTree space bound]
          (ParseTree.isText "super") = !isUpper := by
        simp only [List.any_cons, List.any_nil, isText_typeTree]
        cases isUpper <;> rfl
      rw [typeTree, typeOf, htypes, hword, Bool.not_not]
      rfl

end

end JavaOutline
