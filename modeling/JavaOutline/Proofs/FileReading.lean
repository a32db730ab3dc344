import JavaOutline.Proofs.DeclarationReading

/-!
# JavaOutline.Proofs.FileReading

How the grammar reads a file: a package, imports and types, in any number and any order.

At the top level the grammar has a place for every statement. Packages and modules may have
annotations in front like types, so that it takes the word behind the annotations to tell
them apart.
-/

namespace JavaOutline

open Source Grammar Pattern Structure

section

variable {rest : List Token}

/-! ## Packages and imports -/

theorem Reads.topLevel {t : SyntaxTree} (h : Reads 3 (.rule .statement) [t] rest) :
    Reads 4 (.rule .topLevel) [t] rest := .of_takes h.takes.choice_left.rule

/-- A name ends at a semicolon. -/
theorem reads_nameSemicolon (name : String) :
    Reads 0 (.seq qualifiedName (text ";")) [.node .name (nameTrees space name), signLeaf ";"]
      rest := by
  have hend : Refuses Rule.form 0 (.seq (text ".") anyWord)
      (ParseTree.tokensAll [signLeaf ";"] ++ rest) := (refuses_text (by decide)).seq
  exact (reads_qualifiedName space name hend).seq (reads_sign ";") (Nat.zero_le _)

theorem reads_package (name : String) : Reads 4 (.rule .topLevel) [packageTree name] rest := by
  have hform : Reads 0 (.seq (text "package") (.seq qualifiedName (text ";")))
      [.leaf (wordToken space "package"), .node .name (nameTrees space name), signLeaf ";"] rest :=
    reads_token_seq (accepts_text "package" space .word) (reads_nameSemicolon name) (Nat.zero_le _)
  have hskip : Reads 0 (.seq annotations (.seq (text "package") (.seq qualifiedName (text ";"))))
      [.leaf (wordToken space "package"), .node .name (nameTrees space name), signLeaf ";"] rest :=
    (skips_annotations (by decide)).nothing_seq hform
  have hpackage : Reads 0 packageForm [packageTree name] rest := hskip.node .package
  have hbefore : ∀ p ∈ [text ";", .rule .block],
      Refuses Rule.form 2 p ((packageTree name).tokens ++ rest) := by
    intro p hp
    refine (refuses_of_text 1 ?_).mono (Nat.zero_le 2)
    revert p
    decide +kernel
  exact Reads.topLevel (.of_takes ((hpackage.mono (Nat.zero_le 2)).takes.any hbefore).rule)

/-- The import of a name, or of everything in it. -/
inductive IsImportTree : SyntaxTree → Prop
  | single {name : String} (h : IsQualified name) : IsImportTree (importTree name)
  | everything {name : String} (h : IsQualified name) : IsImportTree (importAllTree name)

/-- What is imported stands behind `import`, and not behind `static`. -/
theorem reads_importForm {name : String} {us : List SyntaxTree} (h : IsQualified name)
    (hus : Reads 0 (all [qualifiedName, maybe (.seq (text ".") (text "*")), text ";"])
      (.node .name (nameTrees space name) :: us) rest) :
    Reads 4 (.rule .topLevel) [.node .importing (.leaf (wordToken space "import")
      :: .node .name (nameTrees space name) :: us)] rest := by
  have hstatic : Avoids ["static"]
      (ParseTree.tokensAll (.node .name (nameTrees space name) :: us) ++ rest) := by
    obtain ⟨w, ws, hs, -⟩ := exists_segments name
    rw [nameTrees_eq hs]
    exact ⟨wordToken space w, _, rfl, notMem_of_isName (h w (by simp [hs])) (by decide)⟩
  have hnamed := hus.skip (p := text "static") (hstatic.refuses_text (by simp))
  have himport := (reads_token_seq (accepts_text "import" space .word) hnamed
    (Nat.zero_le _)).node .importing
  have hbefore : ∀ p ∈ [text ";", .rule .block, packageForm], Refuses Rule.form 2 p
      ((ParseTree.node .importing (.leaf (wordToken space "import")
        :: .node .name (nameTrees space name) :: us)).tokens ++ rest) := by
    intro p hp
    refine (refuses_of_text 1 ?_).mono (Nat.zero_le 2)
    revert p
    decide +kernel
  exact Reads.topLevel (.of_takes ((himport.mono (Nat.zero_le 2)).takes.any hbefore).rule)

theorem reads_import {t : SyntaxTree} (h : IsImportTree t) :
    Reads 4 (.rule .topLevel) [t] rest := by
  cases h with
  | @single name h =>
      have hdot : Refuses Rule.form 0 (text ".") (ParseTree.tokensAll [signLeaf ";"] ++ rest) :=
        refuses_text (by decide)
      have hsemicolon : Reads 0 (text ";") [signLeaf ";"] rest := reads_sign ";"
      have hend := hsemicolon.skip (hdot.seq (q := text "*"))
      exact reads_importForm h ((reads_qualifiedName space name hdot.seq).seq hend (Nat.zero_le _))
  | @everything name h =>
      have hasterisk : Reads 0 (.seq (text ".") (text "*")) [signLeaf ".", signLeaf "*"]
          (ParseTree.tokensAll [signLeaf ";"] ++ rest) :=
        reads_token_seq (accepts_text "." [] .symbol) (reads_sign "*") (Nat.zero_le _)
      have hall : Reads 0 (maybe (.seq (text ".") (text "*"))) [signLeaf ".", signLeaf "*"]
          (ParseTree.tokensAll [signLeaf ";"] ++ rest) := Takes.maybe hasterisk
      have hend := hall.seq (reads_sign ";") (Nat.zero_le _)
      have hword : Refuses Rule.form 0 (.seq (text ".") anyWord)
          (ParseTree.tokensAll ([signLeaf ".", signLeaf "*"] ++ [signLeaf ";"]) ++ rest) :=
        Refuses.behind_token (e := 0) (refuses_token (by decide)) (Nat.zero_le _)
      exact reads_importForm h ((reads_qualifiedName space name hword).seq hend (Nat.zero_le _))

/-! ## Types -/

section

variable {names : List String} {ms : List Modifier} {t : SyntaxTree}

/-- Annotations are read up to the other modifiers. -/
theorem reads_annotations (hstop : Refuses Rule.form 1 (.rule .annotationUse) rest) (hrest : Avoids [".", "("] rest) :
    Reads 1 annotations (names.map annotationTree) rest := by
  refine (reads_many (by decide) ?_ ?_ hrest hstop).1
  · exact List.forall_mem_map.mpr fun name _ => by simp [annotationTree, ParseTree.tokens,
      ParseTree.tokensAll]
  · refine List.forall_mem_map.mpr fun name _ rest hrest => ?_
    exact ⟨reads_annotationTree name hrest, spacedSign "@", _, rfl, by decide⟩

/-- No annotation stands behind other modifiers. -/
theorem refuses_annotationUse_modifiers (ht : EndsModifiers (t.tokens ++ rest)) :
    Refuses Rule.form 1 (.rule .annotationUse)
      (ParseTree.tokensAll (ms.map modifierLeaf) ++ (t.tokens ++ rest)) := by
  cases ms with
  | nil => exact ht.refuses.of_choice.2.of_choice.1
  | cons m ms =>
      have hkeyword : m.keyword ∉ ["@"] := notMem_keyword (by decide) m
      have hsign : (wordToken space m.keyword).text ≠ "@" := fun he =>
        hkeyword (List.mem_singleton.mpr he)
      exact (refuses_annotationUse hsign).mono (Nat.zero_le 1)

end

section

variable {d : Declaration}

/-- What a type begins with. -/
theorem avoids_tree {l : List String} (h : d.HasWritableHead Opening.Reads)
    (hsign : "@" ∉ l) (hl : ∀ s ∈ typeKeywords, s ∉ l)
    (hwords : ∀ m : Modifier, m.keyword ∉ l) : Avoids l (d.tree.tokens ++ rest) := by
  rw [Declaration.tree_eq, tokens_modified, ParseTree.tokensAll_append, List.append_assoc,
    tokensAll_singleton]
  exact avoids_modifiers h.isModifierTree hsign hwords (avoids_declaration h hl)

/-- Behind its annotations a type begins with none of some words. -/
theorem exists_takes_annotations {l : List String} (h : d.HasWritableHead Opening.Reads)
    (hsign : "@" ∉ l) (hl : ∀ s ∈ typeKeywords, s ∉ l)
    (hwords : ∀ m : Modifier, m.keyword ∉ l) :
    ∃ input, Avoids l input ∧ Takes Rule.form 1 annotations (d.tree.tokens ++ rest)
      (d.annotations.map annotationTree) input := by
  have hnext : ∀ l : List String, "@" ∉ l → (∀ s ∈ typeKeywords, s ∉ l) →
      (∀ m : Modifier, m.keyword ∉ l) → Avoids l
        (ParseTree.tokensAll (d.modifiers.map modifierLeaf)
          ++ ((ParseTree.node d.category.label d.parts).tokens ++ rest)) :=
    fun l hsign hl hwords => avoids_modifiers (isModifierTree_modifiers h.modifiers) hsign
      hwords (avoids_declaration h hl)
  refine ⟨_, hnext l hsign hl hwords, ?_⟩
  rw [Declaration.tree_eq, tokens_modified, ParseTree.tokensAll_append, ParseTree.tokensAll_append,
    tokensAll_singleton, List.append_assoc, List.append_assoc]
  exact reads_annotations (refuses_annotationUse_modifiers (endsModifiers_declaration h))
    (hnext _ (by decide) (by decide) (notMem_keyword (by decide)))

/-- The word behind the annotations is none of a package or a module. -/
theorem refuses_packageForms (h : d.HasWritableHead Opening.Reads) :
    ∀ p ∈ [packageForm, importForm, moduleForm], Refuses Rule.form 1 p (d.tree.tokens ++ rest) := by
  have hfirst : Avoids ["import"] (d.tree.tokens ++ rest) :=
    avoids_tree h (by decide) (by decide) (notMem_keyword (by decide))
  have himport : Refuses Rule.form 1 importForm (d.tree.tokens ++ rest) :=
    (hfirst.refuses_text (by simp)).seq.node.mono (Nat.zero_le 1)
  obtain ⟨input, hnext, hannotations⟩ : ∃ input, Avoids ["package", "open", "module"] input
      ∧ Takes Rule.form 1 annotations (d.tree.tokens ++ rest) (d.annotations.map annotationTree)
        input := exists_takes_annotations h (by decide) (by decide) (notMem_keyword (by decide))
  have hword : ∀ s ∈ ["package", "open", "module"], Refuses Rule.form 1 (text s) input :=
    fun s hs => (hnext.refuses_text hs).mono (Nat.zero_le 1)
  have hpackage : Refuses Rule.form 1 packageForm (d.tree.tokens ++ rest) :=
    (hannotations.followed_refuses (hword "package" (by simp)).seq (by decide)).node
  have hopen : Takes Rule.form 1 (maybe (text "open")) input [] input :=
    (hword "open" (by simp)).maybe
  have hmodule : Refuses Rule.form 1 moduleForm (d.tree.tokens ++ rest) :=
    hannotations.followed_refuses (hopen.nothing_seq_refuses (hword "module" (by simp)).seq)
      (by decide)
  simpa using ⟨hpackage, himport, hmodule⟩

theorem exists_typeForms_eq {category : Category} (h : ∀ name, category ≠ .other name) :
    ∃ forms, typeForms = category.formsBefore ++ category.form :: forms := by
  cases category with
  | other name => exact absurd rfl (h name)
  | _ => exact ⟨_, rfl⟩

/-- **A type that can be written is read as its tree** at the top level. -/
theorem reads_tree (h : d.IsWritable Opening.Reads) : Reads 4 (.rule .topLevel) [d.tree] rest := by
  have ht : EndsModifiers ((ParseTree.node d.category.label d.parts).tokens ++ rest) :=
    endsModifiers_declaration h.head
  obtain ⟨forms, heq⟩ := exists_typeForms_eq h.head.category_ne
  have hform := (reads_typeForm heq (reads_declaration h rest)).mono (Nat.zero_le 1)
  have hdeclared : Reads 1 (declared typeForms) [d.tree] rest := by
    rw [Declaration.tree_eq]
    exact reads_modified h.head.isModifierTree ht hform (by decide) (by decide)
  have htype : Reads 2 (.rule .typeDeclaration) [d.tree] rest :=
    Reads.rule (r := .typeDeclaration) hdeclared
  have hblocks := refuses_blocks h.head.isModifierTree ht
  rw [← Declaration.tree_eq] at hblocks
  have hpackages : ∀ p ∈ [packageForm, importForm, moduleForm],
      Refuses Rule.form 1 p (d.tree.tokens ++ rest) := refuses_packageForms h.head
  have hbefore : ∀ p ∈ [text ";", .rule .block] ++ [packageForm, importForm, moduleForm],
      Refuses Rule.form 2 p (d.tree.tokens ++ rest) := by
    rw [List.forall_mem_append]
    refine ⟨fun p hp => (hblocks p ?_).mono (Nat.zero_le 2),
      fun p hp => (hpackages p hp).mono (by decide)⟩
    exact List.mem_append_left [_] hp
  exact Reads.topLevel (.of_takes (htype.takes.any hbefore).rule)

end

end

/-! ## Files -/

set_option maxRecDepth 4000 in
/-- **A file is read as the trees at its top level**, one after another. -/
theorem unitTrees?_eq {us : List SyntaxTree} (hne : ∀ u ∈ us, u.tokens ≠ [])
    (hus : ∀ u ∈ us, ∀ rest, Reads 4 (.rule .topLevel) [u] rest) :
    unitTrees? (ParseTree.tokensAll us ++ [Token.finish []])
      = some (us ++ [.leaf (Token.finish [])]) := by
  have hend : Refuses Rule.form 0 (.rule .topLevel) [Token.finish []] :=
    refuses_of_text 6 (by decide)
  have hmany := (reads_many (C := fun _ => True) (by decide) hne
    (fun u hu rest _ => ⟨hus u hu rest, trivial⟩) trivial (hend.mono (Nat.zero_le 4))).1
  have hfinish : Takes Rule.form 4 (.token .finish) [Token.finish []] [.leaf (Token.finish [])]
      [] := (takes_token rfl).mono (Nat.zero_le 4)
  have hunit := Takes.followed hmany hfinish (by decide) depthLimit (by decide)
  rw [unitTrees?, unitForm, hunit]
  rfl

end JavaOutline
