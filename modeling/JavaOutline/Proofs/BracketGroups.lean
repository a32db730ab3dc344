import JavaOutline.Proofs.Comments
import JavaOutline.Proofs.DeclaringNodes
import JavaOutline.Proofs.FileTokens

/-!
# JavaOutline.Proofs.BracketGroups

The dimensions that groups of brackets add.

A group is one or more pairs of brackets behind a type, a name or a list of parameters, with
annotations in front of each pair. Its dimensions are counted in its text, so an opening bracket
in one of its annotations, or in a comment between its tokens, counts like that of a pair
(`bracketCount_eq`, and `bracket_in_comment_counts` for a group of one pair with two
dimensions). Variables, types, parameters, methods and annotation elements have the dimensions
of the groups they are written with, and no others: those on a type and those behind the name or
the parameters add up (`dimensions_count_brackets`).
-/

namespace JavaOutline

open Source Grammar Structure Pattern

/-! ## What stands in front of tokens -/

namespace Source

/-- What is in front of a token are blanks and comments. -/
theorem Token.mem_lead_of_mem_collect {lead ls : List Lexeme} {t : Token}
    (ht : t ∈ collect lead ls) {l : Lexeme} (hl : l ∈ t.lead) :
    l ∈ lead ∨ l ∈ ls ∧ l.isTrivia = true := by
  induction ls generalizing lead with
  | nil =>
      obtain rfl := List.mem_singleton.mp ht
      exact .inl hl
  | cons m ls ih =>
      rw [collect] at ht
      split at ht
      · next hm =>
        rcases ih ht with hmem | ⟨hmem, htrivia⟩
        · rcases List.mem_append.mp hmem with hmem | hmem
          · exact .inl hmem
          · rw [List.mem_singleton.mp hmem]
            exact .inr ⟨List.mem_cons_self .., hm⟩
        · exact .inr ⟨List.mem_cons_of_mem m hmem, htrivia⟩
      · rcases List.mem_cons.mp ht with rfl | ht
        · exact .inl hl
        · rcases ih ht with hmem | ⟨hmem, htrivia⟩
          · contradiction
          · exact .inr ⟨List.mem_cons_of_mem m hmem, htrivia⟩

/-- No bracket stands in front of a token, unless it is in a comment. -/
def Token.HasPlainLead (t : Token) : Prop :=
  ∀ l ∈ t.lead, l.kind ≠ .comment → '[' ∉ l.text.toList

theorem hasPlainLead_of_mem_ofSource {source : String} {t : Token}
    (ht : t ∈ Token.ofSource source) : t.HasPlainLead := by
  intro l hl hkind
  rcases Token.mem_lead_of_mem_collect ht hl with hmem | ⟨hmem, htrivia⟩
  · contradiction
  rcases eq_mark_or_exists_startsAt hmem with rfl | ⟨before, behind, -, hstarts, -⟩
  · decide
  · have hblank : l.kind = .blank := by simpa [Lexeme.isTrivia, hkind] using htrivia
    intro hbracket
    exact absurd ((hstarts.isRun hblank).1.blanks _ hbracket) (by decide)

/-! ## Counting brackets -/

/-- How many opening brackets a text holds. -/
def openBrackets (s : String) : Nat := s.toList.count '['

theorem openBrackets_append (s s' : String) :
    openBrackets (s ++ s') = openBrackets s + openBrackets s' := by
  rw [openBrackets, String.toList_append, List.count_append]
  rfl

/-- Of what stands in front of a token only comments hold brackets. -/
theorem Token.HasPlainLead.openBrackets_leadText {t : Token} (h : t.HasPlainLead) :
    openBrackets t.leadText = openBrackets (String.join t.comments) := by
  rw [leadText, comments]
  rw [HasPlainLead] at h
  generalize t.lead = ls at h ⊢
  induction ls with
  | nil => rfl
  | cons l ls ih =>
      obtain ⟨hl, hls⟩ := List.forall_mem_cons.mp h
      rw [List.map_cons, String.join_cons, openBrackets_append, ih hls]
      by_cases hkind : l.kind = .comment
      · simp [hkind, openBrackets_append]
      · have hnone : openBrackets l.text = 0 := List.count_eq_zero.mpr (hl hkind)
        simp [hkind, hnone]

/-- The opening brackets in the text of some tokens, with what stands in front of each. -/
theorem openBrackets_join_leadText {ts : List Token} (h : ∀ t ∈ ts, t.HasPlainLead) :
    openBrackets (String.join (ts.map fun t => t.leadText ++ t.text))
      = openBrackets (String.join (ts.map Token.text))
        + openBrackets (String.join (ts.flatMap Token.comments)) := by
  induction ts with
  | nil => rfl
  | cons t ts ih =>
      obtain ⟨ht, hts⟩ := List.forall_mem_cons.mp h
      rw [List.map_cons, String.join_cons, openBrackets_append, openBrackets_append,
        ht.openBrackets_leadText, ih hts, List.map_cons, String.join_cons, openBrackets_append,
        List.flatMap_cons, String.join_append, openBrackets_append]
      omega

end Source

namespace Grammar.ParseTree

/-- The opening brackets in the text of some trees are those of the tokens and those of the
comments between them. -/
theorem openBrackets_sourceText {Label : Type} {ts : List (ParseTree Label)}
    (h : ∀ t ∈ tokensAll ts, t.HasPlainLead) :
    openBrackets (sourceText ts) = openBrackets (String.join ((tokensAll ts).map Token.text))
      + openBrackets (String.join ((tokensAll ts).tail.flatMap Token.comments)) := by
  rw [sourceText]
  cases htokens : tokensAll ts with
  | nil => rfl
  | cons first rest =>
      rw [htokens, List.forall_mem_cons] at h
      rw [spell, openBrackets_append, openBrackets_join_leadText h.2, List.map_cons,
        String.join_cons, openBrackets_append, List.tail_cons, Nat.add_assoc]

end Grammar.ParseTree

/-! ## Groups of brackets -/

namespace Structure

/-- Some pairs of brackets in a row, each with any number of annotations in front. -/
inductive HasPairs : Nat → List SyntaxTree → Prop
  | none : HasPairs 0 []
  | pair {n : Nat} {annotations group : List SyntaxTree} {left right : Token}
      (hannotations : ∀ t ∈ annotations, t.label? = some .annotationUse)
      (hleft : left.text = "[") (hright : right.text = "]") (h : HasPairs n group) :
      HasPairs (n + 1) (annotations ++ .leaf left :: .leaf right :: group)

/-- How many pairs of brackets a group has. -/
def pairCount (group : List SyntaxTree) : Nat := group.countP (ParseTree.isText "[")

/-- The annotations in a group. -/
def annotationsAmong (group : List SyntaxTree) : List SyntaxTree :=
  group.filter fun t => t.label? == some .annotationUse

/-- The comments between the tokens of a group. -/
def commentsAmong (group : List SyntaxTree) : List String :=
  (ParseTree.tokensAll group).tail.flatMap Token.comments

/-- How many opening brackets of a group open no pair of it: those in its annotations and those
in its comments. -/
def strayBrackets (group : List SyntaxTree) : Nat :=
  openBrackets (String.join ((ParseTree.tokensAll (annotationsAmong group)).map Token.text))
    + openBrackets (String.join (commentsAmong group))

/-- The brackets that open a pair are those of the pairs. -/
theorem HasPairs.pairCount_eq {n : Nat} {group : List SyntaxTree} (h : HasPairs n group) :
    pairCount group = n := by
  induction h with
  | none => rfl
  | @pair n annotations group left right hannotations hleft hright _ ih =>
      have hnone : annotations.countP (ParseTree.isText "[") = 0 :=
        List.countP_eq_zero.mpr fun t ht => by simp [isText_of_label? (hannotations t ht)]
      rw [pairCount] at ih ⊢
      simp [List.countP_append, hnone, ih, ParseTree.isText, hleft, hright]

/-- The opening brackets of a group are those of its pairs and those of its annotations. -/
theorem HasPairs.openBrackets_tokens {n : Nat} {group : List SyntaxTree} (h : HasPairs n group) :
    openBrackets (String.join ((ParseTree.tokensAll group).map Token.text))
      = n + openBrackets
        (String.join ((ParseTree.tokensAll (annotationsAmong group)).map Token.text)) := by
  induction h with
  | none => rfl
  | @pair n annotations group left right hannotations hleft hright _ ih =>
      have hsplit : annotationsAmong (annotations ++ .leaf left :: .leaf right :: group)
          = annotations ++ annotationsAmong group := by
        rw [annotationsAmong, List.filter_append,
          List.filter_eq_self.mpr fun t ht => by rw [hannotations t ht]; rfl]
        rfl
      have hopen : openBrackets left.text = 1 := by rw [hleft]; decide
      have hclose : openBrackets right.text = 0 := by rw [hright]; decide
      have hpair : openBrackets (String.join ((ParseTree.tokensAll
          (.leaf left :: .leaf right :: group)).map Token.text))
            = 1 + openBrackets (String.join ((ParseTree.tokensAll group).map Token.text)) := by
        simp only [ParseTree.tokensAll, ParseTree.tokens, List.singleton_append, List.map_cons,
          String.join_cons, openBrackets_append, hopen, hclose, Nat.zero_add]
      rw [hsplit, ParseTree.tokensAll_append, ParseTree.tokensAll_append, List.map_append,
        List.map_append, String.join_append, String.join_append, openBrackets_append,
        openBrackets_append, hpair, ih]
      omega

/-- **What a group of brackets is counted as**: its pairs, and whatever opening brackets there
are in its annotations and comments. -/
theorem HasPairs.bracketCount_eq {n : Nat} {group : List SyntaxTree} (h : HasPairs n group)
    (hplain : ∀ t ∈ ParseTree.tokensAll group, t.HasPlainLead) :
    bracketCount group = n + strayBrackets group := by
  have htext : bracketCount group = openBrackets (ParseTree.sourceText group) := rfl
  rw [htext, ParseTree.openBrackets_sourceText hplain, h.openBrackets_tokens, strayBrackets,
    commentsAmong, Nat.add_assoc]

end Structure

/-! ## Shapes of nodes -/

namespace Grammar

/-- A pair of brackets with annotations in front. -/
def bracketPair : Form := all [annotations, text "[", text "]"]

/-- A type without dimensions, and those it has. -/
def typeBody (place : Place) : Form := .seq (simpleType place) (maybe (.rule .dimensions))

/-- What a parameter of variable arity is written with. -/
def spreadBody (place : Place) : Form :=
  all [modifiers, .rule (.type place), text "...", .rule .variable]

/-- A body that nodes with brackets have. -/
def IsBracketBody (label : Label) (p : Form) : Prop :=
  (label = .dimensions → p = oneOrMore bracketPair)
    ∧ (label = .type → ∃ place ∈ Place.all, p = typeBody place)
    ∧ (label = .spread → ∃ place ∈ Place.all, p = spreadBody place)

instance (label : Label) (p : Form) : Decidable (IsBracketBody label p) :=
  inferInstanceAs (Decidable (_ ∧ _ ∧ _))

theorem allNodes_isBracketBody : ∀ r ∈ Rule.all, r.form.AllNodes IsBracketBody := by
  decide +kernel

/-- What stands in front of the parts of a declaration: modifiers, if there are any. -/
def IsFront (ts : List SyntaxTree) : Prop := ts = [] ∨ ∃ us, ts = [.node .modifiers us]

/-- Where brackets stand among the children of a node with a label. -/
structure IsBracketed (label : Label) (ts : List SyntaxTree) : Prop where
  /-- There is a pair at least. -/
  exists_pairs : label = .dimensions → ∃ n, HasPairs (n + 1) ts
  /-- Behind the name of a type there is a group of brackets, if anything. -/
  type_eq : label = .type → ∃ us brackets, ts = .node .named us :: brackets
    ∧ (brackets = [] ∨ ∃ group, brackets = [.node .dimensions group])
  /-- The type of a parameter of variable arity is its first part behind the modifiers. -/
  spread_eq : label = .spread → ∃ front us rest, IsFront front
    ∧ ts = front ++ .node .type us :: rest

/-- One more pair in front of some. -/
theorem hasPairs_append_of_forms {n : Nat} {ts us : List SyntaxTree}
    (hts : Forms Rule.form bracketPair ts) (hus : HasPairs n us) : HasPairs (n + 1) (ts ++ us) := by
  simp only [bracketPair, all, text, forms_seq, forms_token, Terminal.accepts] at hts
  obtain ⟨as, _, has, ⟨_, _, ⟨left, hleft, rfl⟩, ⟨right, hright, rfl⟩, rfl⟩, rfl⟩ := hts
  rw [List.append_assoc]
  exact .pair (label?_of_forms_annotations has) (by simpa using hleft) (by simpa using hright) hus

theorem exists_hasPairs_of_forms_many {ts : List SyntaxTree}
    (h : Forms Rule.form (.many bracketPair) ts) : ∃ n, HasPairs n ts := by
  generalize hq : Pattern.many bracketPair = q at h
  induction h with
  | stop => exact ⟨0, .none⟩
  | more hpair _ _ ih =>
      obtain rfl := Pattern.many.inj hq
      obtain ⟨n, hn⟩ := ih rfl
      exact ⟨n + 1, hasPairs_append_of_forms hpair hn⟩
  | _ => contradiction

theorem exists_hasPairs_of_forms {ts : List SyntaxTree}
    (h : Forms Rule.form (oneOrMore bracketPair) ts) : ∃ n, HasPairs (n + 1) ts := by
  obtain ⟨us, vs, hus, hvs, rfl⟩ := forms_seq.mp h
  obtain ⟨n, hn⟩ := exists_hasPairs_of_forms_many hvs
  exact ⟨n, hasPairs_append_of_forms hus hn⟩

theorem eq_of_forms_typeBody {place : Place} {ts : List SyntaxTree}
    (h : Forms Rule.form (typeBody place) ts) : ∃ us brackets, ts = .node .named us :: brackets
      ∧ (brackets = [] ∨ ∃ group, brackets = [.node .dimensions group]) := by
  simp only [typeBody, simpleType, maybe, forms_seq, forms_node, forms_choice, forms_nothing,
    forms_rule, Rule.form, dimensionsForm] at h
  obtain ⟨_, brackets, ⟨us, -, rfl⟩, hbrackets, rfl⟩ := h
  refine ⟨us, brackets, rfl, ?_⟩
  rcases hbrackets with ⟨group, -, rfl⟩ | rfl
  · exact .inr ⟨group, rfl⟩
  · exact .inl rfl

theorem eq_of_forms_spreadBody {place : Place} {ts : List SyntaxTree}
    (h : Forms Rule.form (spreadBody place) ts) : ∃ front us rest, IsFront front
      ∧ ts = front ++ .node .type us :: rest := by
  simp only [spreadBody, all, modifiers, maybe, forms_seq, forms_choice, forms_nothing,
    forms_node, forms_rule, Rule.form, typeForm] at h
  obtain ⟨front, _, hfront, ⟨_, rest, ⟨us, -, rfl⟩, -, rfl⟩, rfl⟩ := h
  refine ⟨front, us, rest, ?_, rfl⟩
  rcases hfront with ⟨ms, -, rfl⟩ | rfl
  · exact .inr ⟨ms, rfl⟩
  · exact .inl rfl

theorem isBracketed_of_forms {label : Label} {p : Form} {ts : List SyntaxTree}
    (hp : IsBracketBody label p) (h : Forms Rule.form p ts) : IsBracketed label ts where
  exists_pairs hlabel := exists_hasPairs_of_forms (hp.1 hlabel ▸ h)
  type_eq hlabel := by
    obtain ⟨place, -, rfl⟩ := hp.2.1 hlabel
    exact eq_of_forms_typeBody h
  spread_eq hlabel := by
    obtain ⟨place, -, rfl⟩ := hp.2.2 hlabel
    exact eq_of_forms_spreadBody h

end Grammar

namespace Grammar.ParseTree

variable {Label : Type} {P Q : Label → List (ParseTree Label) → Prop} {t : ParseTree Label}

/-- What holds of every node and of every token of a tree holds of every node and of the tokens
in it. -/
theorem AllNodes.and_tokens {K : Token → Prop} (h : t.AllNodes P) (hK : ∀ k ∈ t.tokens, K k) :
    t.AllNodes fun label ts => P label ts ∧ ∀ k ∈ tokensAll ts, K k := by
  induction h with
  | leaf k => exact .leaf k
  | @node label ts h _ ih =>
      refine .node ⟨h, hK⟩ fun u hu => ih u hu fun k hk => hK k ?_
      rw [tokens, tokensAll_eq_flatMap]
      exact List.mem_flatMap.mpr ⟨u, hu, hk⟩

/-- What follows for a node from what holds of it and of all nodes below it holds of every
node. -/
theorem AllNodes.imp (hPQ : ∀ {label ts}, (ParseTree.node label ts).AllNodes P → Q label ts)
    (h : t.AllNodes P) : t.AllNodes Q := by
  induction h with
  | leaf k => exact .leaf k
  | node h hts ih => exact .node (hPQ (.node h hts)) ih

end Grammar.ParseTree

/-! ## Types with dimensions -/

namespace TypeRef

/-- The type is one that is no array, with a number of dimensions added. -/
def HasDimensions (t : TypeRef) (n : Nat) : Prop :=
  ∃ element : TypeRef, (∀ u m, element ≠ .array u m) ∧ t = element.arrayOf n

/-- Dimensions add up. -/
theorem HasDimensions.arrayOf {t : TypeRef} {m : Nat} (h : t.HasDimensions m) (n : Nat) :
    (t.arrayOf n).HasDimensions (m + n) := by
  obtain ⟨element, hflat, rfl⟩ := h
  exact ⟨element, hflat, element.arrayOf_arrayOf m n⟩

end TypeRef

/-! ## Declarations -/

namespace Structure

/-- The dimensions that a group of brackets adds: one for each pair, and one for each opening
bracket in its annotations and comments. -/
def groupDimensions (group : List SyntaxTree) : Nat := pairCount group + strayBrackets group

/-- The dimensions that the group among the parts of a type or a declaration adds; there may be
no group. -/
def dimensionsBehind (ts : List SyntaxTree) : Nat :=
  groupDimensions (ParseTree.inside .dimensions ts)

/-- The dimensions that the group on the type of a declaration adds. -/
def dimensionsOnType (ts : List SyntaxTree) : Nat := dimensionsBehind (ParseTree.inside .type ts)

/-- The node and all nodes below it have their brackets in place, and no brackets but those in
comments stand in front of tokens. -/
def IsPlainlyBracketed (t : SyntaxTree) : Prop :=
  t.AllNodes fun label ts =>
    IsBracketed label ts ∧ ∀ k ∈ ParseTree.tokensAll ts, k.HasPlainLead

theorem IsPlainlyBracketed.inside {label l : Label} {ts us : List SyntaxTree}
    (h : IsPlainlyBracketed (.node label ts)) (hus : ParseTree.inside? l ts = some us) :
    IsPlainlyBracketed (.node l us) :=
  h.children _ (mem_of_inside? hus)

section

variable {label : Label} {ts : List SyntaxTree}

theorem dimensionsIn_eq (h : IsPlainlyBracketed (.node label ts)) :
    dimensionsIn ts = dimensionsBehind ts := by
  rw [dimensionsIn, dimensionsBehind, groupDimensions, ParseTree.inside]
  cases hgroup : ParseTree.inside? .dimensions ts with
  | none => exact HasPairs.none.bracketCount_eq (List.forall_mem_nil _)
  | some group =>
      cases h.inside hgroup with
      | node hnode _ =>
        obtain ⟨n, hpairs⟩ := hnode.1.exists_pairs rfl
        rw [Option.getD_some, hpairs.bracketCount_eq hnode.2, hpairs.pairCount_eq]

theorem typeOf_named_ne_array (ts : List SyntaxTree) (u : TypeRef) (n : Nat) :
    typeOf (.node .named ts) ≠ .array u n := by
  rw [typeOf]
  split <;> simp

/-- A type has the dimensions of the group behind its name. -/
theorem hasDimensions_typeOf (h : IsPlainlyBracketed (.node .type ts)) :
    (typeOf (.node .type ts)).HasDimensions (dimensionsBehind ts) := by
  rw [← dimensionsIn_eq h]
  cases h with
  | node hnode _ =>
    obtain ⟨us, brackets, rfl, hbrackets⟩ := hnode.1.type_eq rfl
    refine ⟨_, typeOf_named_ne_array us, ?_⟩
    rw [typeOf]
    rcases hbrackets with rfl | ⟨group, rfl⟩
    · rfl
    · have htokens : ParseTree.tokensAll [.node .dimensions group]
          = ParseTree.tokensAll group := List.append_nil _
      rw [bracketCount, ParseTree.sourceText, htokens]
      rfl

theorem hasDimensions_typeIn (h : IsPlainlyBracketed (.node label ts)) :
    (typeIn ts).HasDimensions (dimensionsOnType ts) := by
  rw [typeIn, dimensionsOnType, ParseTree.inside]
  cases htype : ParseTree.inside? .type ts with
  | none => exact ⟨.raw (ParseTree.compactText [.node .type []]), by simp, rfl⟩
  | some us => exact hasDimensions_typeOf (h.inside htype)

/-- The type of a method, an element or a parameter has the dimensions of both groups. -/
theorem hasDimensions_arrayOf (h : IsPlainlyBracketed (.node label ts)) :
    ((typeIn ts).arrayOf (dimensionsIn ts)).HasDimensions
      (dimensionsOnType ts + dimensionsBehind ts) := by
  rw [dimensionsIn_eq h]
  exact (hasDimensions_typeIn h).arrayOf _

/-- The type of a parameter of variable arity is its type, or a comment in front of that. -/
theorem spreadType_eq (h : IsBracketed .spread ts) : spreadType ts = typeIn ts
    ∨ ∃ us, .node .type us ∈ ts ∧ ∃ comment ∈ (ParseTree.node Label.type us).comments,
      spreadType ts = commentType comment := by
  obtain ⟨front, us, rest, hfront, rfl⟩ := h.spread_eq rfl
  rcases hfront with rfl | ⟨ms, rfl⟩
  · exact .inl rfl
  · rw [List.singleton_append, spreadType]
    cases hcomments : (ParseTree.node Label.type us).comments with
    | nil => exact .inl rfl
    | cons comment comments =>
        refine .inr ⟨us, by simp, comment, ?_, rfl⟩
        rw [hcomments]
        exact List.mem_cons_self ..

end

/-- What the brackets in a node with a label add. -/
structure CountsBrackets (label : Label) (ts : List SyntaxTree) : Prop where
  /-- A group has a pair at least, and nothing but pairs. -/
  groups : label = .dimensions → 0 < pairCount ts ∧ HasPairs (pairCount ts) ts
  /-- A variable has the dimensions of the group behind its name. -/
  declarators : label = .variable → variableOf? (.node label ts)
    = some { name := nameIn ts, dimensions := dimensionsBehind ts }
  /-- A type has the dimensions of the group behind it. -/
  types : label = .type → (typeOf (.node label ts)).HasDimensions (dimensionsBehind ts)
  /-- The type of a field statement has its own dimensions; those of a variable are added. -/
  fields : label = .field → ∀ modifiers, ∃ f,
    declared? modifiers (.node label ts) = some (.field f)
    ∧ f.type.HasDimensions (dimensionsOnType ts)
    ∧ f.declarators = ts.filterMap variableOf?
    ∧ ∀ v ∈ f.declarators,
      (f.type.arrayOf v.dimensions).HasDimensions (dimensionsOnType ts + v.dimensions)
  /-- A parameter has the dimensions of its type and those behind its name. -/
  parameters : label = .parameter → ∃ p, parameter? (.node label ts) = some p
    ∧ p.name = nameIn ts ∧ p.type.HasDimensions (dimensionsOnType ts + dimensionsBehind ts)
  /-- A parameter of variable arity has those of its type only, and none if a comment stands for
  the type. -/
  spreads : label = .spread → ∃ p, parameter? (.node label ts) = some p
    ∧ p.name = nameIn (ParseTree.inside .variable ts)
    ∧ (p.type.HasDimensions (dimensionsOnType ts)
      ∨ ∃ us, .node .type us ∈ ts ∧ ∃ comment ∈ (ParseTree.node Label.type us).comments,
        p.type = commentType comment)
  /-- A method has the dimensions of its type and those behind its parameters. -/
  methods : label = .method → ∀ modifiers, ∃ m,
    declared? modifiers (.node label ts) = some (.method m) ∧ m.name = nameIn ts
      ∧ m.returnType.HasDimensions (dimensionsOnType ts + dimensionsBehind ts)
  /-- So has an element of an annotation type. -/
  elements : label = .element → ∀ modifiers, ∃ e,
    declared? modifiers (.node label ts) = some (.element e) ∧ e.name = nameIn ts
      ∧ e.returnType.HasDimensions (dimensionsOnType ts + dimensionsBehind ts)

theorem countsBrackets_of_isPlainlyBracketed {label : Label} {ts : List SyntaxTree}
    (h : IsPlainlyBracketed (.node label ts)) : CountsBrackets label ts where
  groups hlabel := by
    cases h with
    | node hnode _ =>
      obtain ⟨n, hpairs⟩ := hnode.1.exists_pairs hlabel
      rw [hpairs.pairCount_eq]
      exact ⟨Nat.succ_pos n, hpairs⟩
  declarators hlabel := by
    subst hlabel
    rw [variableOf?, dimensionsIn_eq h]
  types hlabel := by
    subst hlabel
    exact hasDimensions_typeOf h
  fields hlabel modifiers := by
    subst hlabel
    exact ⟨fieldOf modifiers ts, by rw [declared?], hasDimensions_typeIn h, rfl,
      fun v _ => (hasDimensions_typeIn h).arrayOf v.dimensions⟩
  parameters hlabel := by
    subst hlabel
    exact ⟨_, rfl, rfl, hasDimensions_arrayOf h⟩
  spreads hlabel := by
    subst hlabel
    refine ⟨_, rfl, rfl, ?_⟩
    have htype := hasDimensions_typeIn h
    cases h with
    | node hnode _ =>
      rcases spreadType_eq hnode.1 with heq | hcomment
      · exact .inl (heq ▸ htype)
      · exact .inr hcomment
  methods hlabel modifiers := by
    subst hlabel
    exact ⟨methodOf modifiers ts, by rw [declared?], rfl, hasDimensions_arrayOf h⟩
  elements hlabel modifiers := by
    subst hlabel
    exact ⟨elementOf modifiers ts, by rw [declared?], rfl, hasDimensions_arrayOf h⟩

end Structure

/-! ## Source files -/

/-- **Dimensions are pairs of brackets, and opening brackets in annotations and comments**: a
file that is read is what its trees say, and in every node of them, at any depth, variables,
types, parameters, methods and elements have the dimensions of the groups they are written with;
a group on the type and one behind it add up. -/
theorem dimensions_count_brackets {source : String} {u : CompilationUnit}
    (h : CompilationUnit.parse source = .ok u) :
    ∃ ts, unitTrees? (Token.ofSource source) = some ts ∧ u = unitOf ts
      ∧ ∀ t ∈ ts, t.AllNodes CountsBrackets := by
  obtain ⟨ts, hts, rfl⟩ := CompilationUnit.parse_eq_ok_iff.mp h
  refine ⟨ts, hts, rfl, fun t ht => ?_⟩
  have hshape := allNodes_of_bodies allNodes_isBracketBody
    (fun _ _ _ hbody hforms => isBracketed_of_forms hbody hforms) hts t ht
  have hplain : ∀ k ∈ t.tokens, k.HasPlainLead := by
    intro k hk
    have htokens := tokensAll_of_unitTrees? hts
    rw [ParseTree.tokensAll_eq_flatMap] at htokens
    exact hasPlainLead_of_mem_ofSource (htokens ▸ List.mem_flatMap.mpr ⟨t, ht, hk⟩)
  exact (hshape.and_tokens hplain).imp countsBrackets_of_isPlainlyBracketed

/-- A class with brackets on types, behind names and behind a list of parameters, some of them
in an annotation and in comments. -/
def sampleBrackets : String :=
  "class T \x7b int @B(\x22[\x22) [] f[/* ] */], g; int[/*[*/] m(int[] a[])[] \x7b\x7d \x7d"

theorem dimensions_count_brackets_sampleBrackets : ∃ u,
    CompilationUnit.parse sampleBrackets = .ok u
    ∧ u.types.flatMap (fun d => d.fields.map (·.type.render) ++ d.methods.map (·.returnType.render))
      = ["int[][]", "int[][][]"]
    ∧ ∃ ts, unitTrees? (Token.ofSource sampleBrackets) = some ts ∧ u = unitOf ts
      ∧ ∀ t ∈ ts, t.AllNodes CountsBrackets := by
  have hcheck : ∃ u, CompilationUnit.parse sampleBrackets = .ok u
      ∧ u.types.flatMap (fun d =>
          d.fields.map (·.type.render) ++ d.methods.map (·.returnType.render))
        = ["int[][]", "int[][][]"] :=
    CompilationUnit.exists_parse_of_check (by decide +kernel)
  obtain ⟨u, hu, htypes⟩ := hcheck
  exact ⟨u, hu, htypes, dimensions_count_brackets hu⟩

/-- **Brackets in comments count**: a type with one pair of brackets has two dimensions. -/
theorem bracket_in_comment_counts :
    (Token.ofSource "class T \x7b int[/*[*/] f; \x7d").countP (·.text == "[") = 1
      ∧ fieldTypes "class T \x7b int[/*[*/] f; \x7d" = some ["int[][]"] := by
  decide +kernel

end JavaOutline
