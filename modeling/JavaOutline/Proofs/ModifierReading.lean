import JavaOutline.Proofs.PartReading

/-!
# JavaOutline.Proofs.ModifierReading

How the grammar reads qualified names, annotations and modifiers.

Modifiers are read up to where no modifier begins (`EndsModifiers`), and what is declared
behind them is read next (`reads_modified`).
-/

namespace JavaOutline

open Source Grammar Pattern Structure

/-! ## Qualified names -/

section

variable {rest : List Token}

theorem reads_dottedTokens (hrest : Refuses Rule.form 0 (.seq (text ".") anyWord) rest)
    (ws : List String) :
    Reads 0 (.many (.seq (text ".") anyWord)) ((dottedTokens ws).map .leaf) rest := by
  rw [Reads, ParseTree.tokensAll_map_leaf]
  induction ws with
  | nil => exact hrest.many
  | cons w ws ih =>
      have hsegment : Takes Rule.form 0 (.seq (text ".") anyWord)
          (signToken "." :: wordToken [] w :: (dottedTokens ws ++ rest))
          [signLeaf ".", .leaf (wordToken [] w)] (dottedTokens ws ++ rest) :=
        takes_sign_seq (takes_token rfl) (Nat.zero_le _)
      exact hsegment.many (by simp only [List.length_cons]; omega) ih (Nat.zero_le _)

theorem nameTrees_eq {name w : String} {ws : List String} (hs : segments name = w :: ws)
    (lead : List Lexeme) :
    nameTrees lead name = .leaf (wordToken lead w) :: (dottedTokens ws).map .leaf := by
  rw [nameTrees, hs, nameTokens, List.map_cons]

/-- A qualified name, in front of what does not go on with it. -/
theorem reads_qualifiedName (lead : List Lexeme) (name : String)
    (hrest : Refuses Rule.form 0 (.seq (text ".") anyWord) rest) :
    Reads 0 qualifiedName [.node .name (nameTrees lead name)] rest := by
  obtain ⟨w, ws, hs, -⟩ := exists_segments name
  rw [nameTrees_eq hs]
  exact (reads_token_seq rfl (reads_dottedTokens hrest ws) (Nat.zero_le _)).node .name

/-! ## Modifiers -/

/-- A modifier of one word, or an annotation without arguments. -/
inductive IsModifierTree : SyntaxTree → Prop
  | annotated (name : String) : IsModifierTree (annotationTree name)
  | word {m : Modifier} (h : m ≠ .nonSealed) : IsModifierTree (modifierLeaf m)

/-- No modifier begins here, and nothing that could belong to one or stand for a
declaration. -/
structure EndsModifiers (input : List Token) : Prop where
  refuses : Refuses Rule.form 1 modifier input
  avoids : Avoids [".", "(", ";", "\x7b", "static"] input

/-- An annotation, in front of neither arguments nor more of its name. -/
theorem reads_annotationTree (name : String) (hrest : Avoids [".", "("] rest) :
    Reads 1 (.rule .annotationUse) [annotationTree name] rest := by
  have hname := reads_qualifiedName [] name ((hrest.refuses_text (by simp)).seq (q := anyWord))
  have harguments : Reads 0 (maybe annotationArguments) [] rest :=
    reads_none (hrest.refuses_text (by simp)).seq.node
  have hnamed := hname.seq harguments (Nat.zero_le _)
  exact ((reads_token_seq (accepts_text "@" space .symbol) hnamed (Nat.zero_le _)).node
    .annotationUse).rule

section

variable {u : SyntaxTree} {us : List SyntaxTree}

theorem IsModifierTree.reads (h : IsModifierTree u) (hrest : Avoids [".", "("] rest) :
    Reads 1 modifier [u] rest := by
  cases h with
  | annotated name =>
      have hword : Refuses Rule.form 0 (.token (.oneOf modifierWords))
          (ParseTree.tokensAll [annotationTree name] ++ rest) := refuses_token (by decide)
      exact Takes.choice_right (hword.mono (Nat.zero_le 1))
        (Takes.choice_left (reads_annotationTree name hrest))
  | @word m h =>
      have haccepts : (Terminal.oneOf modifierWords).accepts (wordToken space m.keyword)
          = true := by
        cases m with
        | nonSealed => contradiction
        | _ => decide
      exact (Takes.choice_left (reads_token haccepts)).mono (Nat.zero_le 1)

/-- What a modifier begins with. -/
theorem IsModifierTree.avoids {l : List String} (h : IsModifierTree u) (hsign : "@" ∉ l)
    (hwords : ∀ m : Modifier, m.keyword ∉ l) : Avoids l (u.tokens ++ rest) := by
  cases h with
  | annotated name => exact ⟨spacedSign "@", _, rfl, hsign⟩
  | word h => exact ⟨wordToken space _, _, rfl, hwords _⟩

theorem avoids_modifiers {l : List String} (hus : ∀ u ∈ us, IsModifierTree u) (hsign : "@" ∉ l)
    (hwords : ∀ m : Modifier, m.keyword ∉ l) (hrest : Avoids l rest) :
    Avoids l (ParseTree.tokensAll us ++ rest) := by
  cases us with
  | nil => exact hrest
  | cons u us =>
      rw [ParseTree.tokensAll, List.append_assoc]
      exact (hus u (by simp)).avoids hsign hwords

theorem notMem_keyword {l : List String} (h : ∀ m ∈ Modifier.all, m.keyword ∉ l) (m : Modifier) :
    m.keyword ∉ l := h m m.mem_all

/-- Modifiers are read one after another. -/
theorem reads_modifiers (hus : ∀ u ∈ us, IsModifierTree u) (hrest : EndsModifiers rest) :
    Reads 1 (.many modifier) us rest ∧ Avoids [".", "("] (ParseTree.tokensAll us ++ rest) := by
  have hne : ∀ u ∈ us, u.tokens ≠ [] := by
    intro u hu
    have hany : Avoids [] (u.tokens ++ []) := (hus u hu).avoids (by simp) (by simp)
    obtain ⟨x, ys, heq, -⟩ := hany
    intro hnil
    simp [hnil] at heq
  refine reads_many (by decide) hne ?_ (hrest.avoids.mono (by simp +contextual)) hrest.refuses
  intro u hu rest hrest
  exact ⟨(hus u hu).reads hrest, (hus u hu).avoids (by decide) (notMem_keyword (by decide))⟩

theorem tokens_modified (ms : List SyntaxTree) (t : SyntaxTree) :
    (modified ms t).tokens = ParseTree.tokensAll (ms ++ [t]) := by
  cases ms with
  | nil => rfl
  | cons m ms => simp [modified, ParseTree.tokens, ParseTree.tokensAll, ParseTree.tokensAll_append]

/-- What is declared is read behind its modifiers. -/
theorem reads_modified {d : Nat} {forms : List Form} {t : SyntaxTree}
    (hus : ∀ u ∈ us, IsModifierTree u) (ht : EndsModifiers (t.tokens ++ rest))
    (h : Reads d (any forms) [t] rest) (hpos : 1 ≤ d) (hd : d ≤ depthLimit) :
    Reads d (declared forms) [modified us t] rest := by
  rw [← tokensAll_singleton t] at ht
  cases us with
  | nil => exact (h.skip (ht.refuses.seq.node.mono hpos)).node .declaration
  | cons u us =>
      rw [List.forall_mem_cons] at hus
      obtain ⟨hmany, hnext⟩ := reads_modifiers hus.2 ht
      have hmodifiers : Reads 1 (.node .modifiers (oneOrMore modifier)) [.node .modifiers (u :: us)]
          (ParseTree.tokensAll [t] ++ rest) :=
        ((hus.1.reads hnext).seq hmany (by decide)).node .modifiers
      have hmaybe : Reads d modifiers [.node .modifiers (u :: us)]
          (ParseTree.tokensAll [t] ++ rest) := Takes.maybe (hmodifiers.mono hpos)
      exact (hmaybe.seq h hd).node .declaration

/-- A declaration is no semicolon and no block. -/
theorem refuses_blocks {t : SyntaxTree} (hus : ∀ u ∈ us, IsModifierTree u)
    (ht : EndsModifiers (t.tokens ++ rest)) :
    ∀ p ∈ [text ";", .rule .block, .seq (text "static") (.rule .block)],
      Refuses Rule.form 0 p ((modified us t).tokens ++ rest) := by
  rw [← tokensAll_singleton t] at ht
  have hsign : Avoids [";", "\x7b"] (ParseTree.tokensAll us ++ (ParseTree.tokensAll [t] ++ rest)) :=
    avoids_modifiers hus (by decide) (notMem_keyword (by decide))
      (ht.avoids.mono (by simp +contextual))
  have hblock : ∀ {input : List Token}, Avoids [";", "\x7b"] input →
      Refuses Rule.form 0 (.rule .block) input :=
    fun h => Refuses.rule (h.refuses_text (by simp)).seq.node
  have hstatic : Refuses Rule.form 0 (.seq (text "static") (.rule .block))
      (ParseTree.tokensAll us ++ (ParseTree.tokensAll [t] ++ rest)) := by
    -- `static` may be the first modifier, but then no block is behind it
    cases us with
    | nil => exact (ht.avoids.refuses_text (by simp)).seq
    | cons u us =>
        rw [List.forall_mem_cons] at hus
        have hnext : Avoids [";", "\x7b"]
            (ParseTree.tokensAll us ++ (ParseTree.tokensAll [t] ++ rest)) :=
          avoids_modifiers hus.2 (by decide) (notMem_keyword (by decide))
            (ht.avoids.mono (by simp +contextual))
        cases hus.1 with
        | annotated name => exact (refuses_text (by decide)).seq
        | word h => exact (hblock hnext).behind_token (Nat.zero_le _)
  rw [tokens_modified, ParseTree.tokensAll_append, List.append_assoc]
  simpa using ⟨hsign.refuses_text (by simp), hblock hsign, hstatic⟩

end

end

end JavaOutline
