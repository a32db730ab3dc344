import JavaOutline.Proofs.Matching

/-!
# JavaOutline.Proofs.Derivations

What a match says about its trees, whatever the input was.

A pattern `Forms` trees if they are built the way the pattern is: `forms_of_parse` says
that the trees of every match are. Which alternatives were tried before, and what was
ahead, is forgotten, so facts about trees follow from the pattern alone, by induction on
how they are formed.

Three such facts hold of whole grammars. If no rule can have a node with a certain label at
its root, the roots of what a pattern forms are seen in the pattern itself
(`Forms.label?_ne`). What holds of every body that a node has in the rules holds, for
the children formed by it, of every node at any depth of a tree (`Forms.allNodes`). And a
path of labels that leads down from the roots can be followed in the pattern, through its
rules (`Forms.mayHavePath`).
-/

namespace JavaOutline.Grammar

open Source

variable {Rule Label : Type}

namespace Pattern

/-! ## Formed trees -/

/-- The trees are built the way the pattern is. -/
inductive Forms (grammar : Rule → Pattern Rule Label) :
    Pattern Rule Label → List (ParseTree Label) → Prop
  | nothing : Forms grammar .nothing []
  | token {terminal : Terminal} {t : Token} (h : terminal.accepts t = true) :
      Forms grammar (.token terminal) [.leaf t]
  | ahead (terminal : Terminal) : Forms grammar (.ahead terminal) []
  | «unless» (terminal : Terminal) : Forms grammar (.unless terminal) []
  | rule {r : Rule} {ts : List (ParseTree Label)} (h : Forms grammar (grammar r) ts) :
      Forms grammar (.rule r) ts
  | node {label : Label} {p : Pattern Rule Label} {ts : List (ParseTree Label)}
      (h : Forms grammar p ts) : Forms grammar (.node label p) [.node label ts]
  | seq {p q : Pattern Rule Label} {ts us : List (ParseTree Label)} (hp : Forms grammar p ts)
      (hq : Forms grammar q us) : Forms grammar (.seq p q) (ts ++ us)
  | left {p q : Pattern Rule Label} {ts : List (ParseTree Label)} (h : Forms grammar p ts) :
      Forms grammar (.choice p q) ts
  | right {p q : Pattern Rule Label} {ts : List (ParseTree Label)} (h : Forms grammar q ts) :
      Forms grammar (.choice p q) ts
  | stop (p : Pattern Rule Label) : Forms grammar (.many p) []
  | more {p : Pattern Rule Label} {ts us : List (ParseTree Label)} (hp : Forms grammar p ts)
      (hmany : Forms grammar (.many p) us) : Forms grammar (.many p) (ts ++ us)

variable {grammar : Rule → Pattern Rule Label}

/-! ## Taking formed trees apart -/

section

variable {p q : Pattern Rule Label} {ts : List (ParseTree Label)}

theorem forms_nothing : Forms grammar .nothing ts ↔ ts = [] :=
  ⟨fun | .nothing => rfl, fun h => h ▸ .nothing⟩

theorem forms_token {terminal : Terminal} :
    Forms grammar (.token terminal) ts ↔ ∃ t, terminal.accepts t = true ∧ ts = [.leaf t] := by
  constructor
  · rintro ⟨⟩
    exact ⟨_, ‹_›, rfl⟩
  · rintro ⟨t, h, rfl⟩
    exact .token h

theorem forms_rule {r : Rule} : Forms grammar (.rule r) ts ↔ Forms grammar (grammar r) ts :=
  ⟨fun | .rule h => h, .rule⟩

theorem forms_node {label : Label} :
    Forms grammar (.node label p) ts ↔ ∃ us, Forms grammar p us ∧ ts = [.node label us] := by
  constructor
  · rintro ⟨⟩
    exact ⟨_, ‹_›, rfl⟩
  · rintro ⟨us, h, rfl⟩
    exact .node h

theorem forms_seq : Forms grammar (.seq p q) ts
    ↔ ∃ us vs, Forms grammar p us ∧ Forms grammar q vs ∧ ts = us ++ vs := by
  constructor
  · intro h
    cases h with
    | seq hp hq => exact ⟨_, _, hp, hq, rfl⟩
  · rintro ⟨us, vs, hp, hq, rfl⟩
    exact .seq hp hq

theorem forms_choice :
    Forms grammar (.choice p q) ts ↔ Forms grammar p ts ∨ Forms grammar q ts := by
  constructor
  · intro h
    cases h with
    | left h => exact .inl h
    | right h => exact .inr h
  · rintro (h | h)
    · exact .left h
    · exact .right h

/-- What holds of the trees of one match holds of those of a repetition. -/
theorem forall_of_forms_many {P : ParseTree Label → Prop}
    (hp : ∀ us, Forms grammar p us → ∀ t ∈ us, P t) (h : Forms grammar (.many p) ts) :
    ∀ t ∈ ts, P t := by
  generalize hq : Pattern.many p = q at h
  induction h with
  | stop => simp
  | more hus _ _ ih =>
      obtain rfl := Pattern.many.inj hq
      exact List.forall_mem_append.mpr ⟨hp _ hus, ih rfl⟩
  | _ => contradiction

end

/-! ## Matches form trees -/

/-- **A match forms its trees the way the pattern says.** -/
theorem forms_of_parse {depth : Nat} {p : Pattern Rule Label} {input rest : List Token}
    {ts : List (ParseTree Label)} (h : parse grammar depth p input = some (ts, rest)) :
    Forms grammar p ts := by
  induction depth, p, input using parse_induction grammar generalizing ts rest with
  | nothing =>
      obtain ⟨rfl, -⟩ := eq_of_nothing h
      exact .nothing
  | token =>
      obtain ⟨t, -, haccepts, rfl⟩ := eq_of_token h
      exact .token haccepts
  | ahead depth terminal =>
      obtain ⟨rfl, -⟩ := eq_of_ahead h
      exact .ahead terminal
  | «unless» depth terminal =>
      obtain ⟨rfl, -⟩ := eq_of_unless h
      exact .unless terminal
  | stuck => simp at h
  | rule depth r input ih => exact .rule (ih h)
  | node depth label p input ih =>
      obtain ⟨us, hbody, rfl⟩ := exists_of_node h
      exact .node (ih hbody)
  | seq depth p q input ih₁ ih₂ ihlater =>
      obtain ⟨us, mid, vs, hfirst, rfl, ⟨hlen, hsecond⟩ | ⟨-, hsecond⟩⟩ := exists_of_seq h
      · exact .seq (ih₁ hfirst) (ihlater mid hlen hsecond)
      · exact .seq (ih₁ hfirst) (ih₂ hsecond)
  | choice depth p q input ih₁ ih₂ =>
      cases or_of_choice h with
      | inl hfirst => exact .left (ih₁ hfirst)
      | inr hsecond => exact .right (ih₂ hsecond)
  | many depth p input ih ihlater =>
      rcases or_of_many h with ⟨rfl, -⟩ | ⟨us, mid, hbody, ⟨hlen, vs, hmany, rfl⟩ | ⟨-, rfl, -⟩⟩
      · exact .stop p
      · exact .more (ih hbody) (ihlater mid hlen hmany)
      · rw [← List.append_nil ts]
        exact .more (ih hbody) (.stop p)

/-! ## Roots -/

/-- May a node with the label be at the root of what the pattern forms, rules apart? -/
def hasRoot [BEq Label] (label : Label) : Pattern Rule Label → Bool
  | .node l _ => l == label
  | .seq p q | .choice p q => hasRoot label p || hasRoot label q
  | .many p => hasRoot label p
  | .nothing | .token _ | .ahead _ | .unless _ | .rule _ => false

/-- If no rule has such a node at its root, a pattern that does not show it has none. -/
theorem Forms.label?_ne [BEq Label] [LawfulBEq Label] {label : Label}
    (hrules : ∀ r, (grammar r).hasRoot label = false) {p : Pattern Rule Label}
    {ts : List (ParseTree Label)} (h : Forms grammar p ts) (hp : p.hasRoot label = false) :
    ∀ t ∈ ts, t.label? ≠ some label := by
  induction h with
  | nothing | ahead | «unless» | stop => simp
  | token => simp [ParseTree.label?]
  | rule _ ih => exact ih (hrules _)
  | node _ _ =>
      rw [hasRoot, beq_eq_false_iff_ne] at hp
      simpa [ParseTree.label?] using hp
  | seq _ _ ih₁ ih₂ =>
      rw [hasRoot, Bool.or_eq_false_iff] at hp
      exact List.forall_mem_append.mpr ⟨ih₁ hp.1, ih₂ hp.2⟩
  | left _ ih =>
      rw [hasRoot, Bool.or_eq_false_iff] at hp
      exact ih hp.1
  | right _ ih =>
      rw [hasRoot, Bool.or_eq_false_iff] at hp
      exact ih hp.2
  | more _ _ ih₁ ih₂ => exact List.forall_mem_append.mpr ⟨ih₁ hp, ih₂ hp⟩

/-! ## Nodes at any depth -/

/-- Does something hold of every node in the pattern, rules apart? -/
def AllNodes (P : Label → Pattern Rule Label → Prop) : Pattern Rule Label → Prop
  | .node label p => P label p ∧ AllNodes P p
  | .seq p q | .choice p q => AllNodes P p ∧ AllNodes P q
  | .many p => AllNodes P p
  | .nothing | .token _ | .ahead _ | .unless _ | .rule _ => True

/-- It can be read off the pattern. -/
instance decidableAllNodes {P : Label → Pattern Rule Label → Prop} [∀ l p, Decidable (P l p)] :
    (p : Pattern Rule Label) → Decidable (p.AllNodes P)
  | .node label p =>
    have := decidableAllNodes (P := P) p
    inferInstanceAs (Decidable (P label p ∧ p.AllNodes P))
  | .seq p q | .choice p q =>
    have := decidableAllNodes (P := P) p
    have := decidableAllNodes (P := P) q
    inferInstanceAs (Decidable (p.AllNodes P ∧ q.AllNodes P))
  | .many p => decidableAllNodes (P := P) p
  | .nothing | .token _ | .ahead _ | .unless _ | .rule _ => .isTrue trivial

end Pattern

/-- Something holds of every node in the tree and of its children. -/
inductive ParseTree.AllNodes (P : Label → List (ParseTree Label) → Prop) : ParseTree Label → Prop
  | leaf (t : Token) : AllNodes P (.leaf t)
  | node {label : Label} {ts : List (ParseTree Label)} (h : P label ts)
      (hts : ∀ t ∈ ts, AllNodes P t) : AllNodes P (.node label ts)

/-- The children of such a tree are such trees. -/
theorem ParseTree.AllNodes.children {P : Label → List (ParseTree Label) → Prop}
    {t : ParseTree Label} (h : t.AllNodes P) : ∀ u ∈ t.children, u.AllNodes P := by
  cases h with
  | leaf => simp [ParseTree.children]
  | node _ hts => exact hts

namespace Pattern

/-- **What holds of the bodies of nodes holds of nodes**: if every node in the rules has a
body with `P`, and trees that such a body forms have `Q`, then the children of every node
of a tree have `Q`. -/
theorem Forms.allNodes {grammar : Rule → Pattern Rule Label}
    {P : Label → Pattern Rule Label → Prop} {Q : Label → List (ParseTree Label) → Prop}
    (hrules : ∀ r, (grammar r).AllNodes P)
    (hbodies : ∀ label p ts, P label p → Forms grammar p ts → Q label ts)
    {p : Pattern Rule Label} {ts : List (ParseTree Label)} (h : Forms grammar p ts)
    (hp : p.AllNodes P) : ∀ t ∈ ts, t.AllNodes Q := by
  induction h with
  | nothing | ahead | «unless» | stop => simp
  | token => simpa using .leaf _
  | rule _ ih => exact ih (hrules _)
  | node hbody ih =>
      rw [List.forall_mem_singleton]
      exact .node (hbodies _ _ _ hp.1 hbody) (ih hp.2)
  | seq _ _ ih₁ ih₂ => exact List.forall_mem_append.mpr ⟨ih₁ hp.1, ih₂ hp.2⟩
  | left _ ih => exact ih hp.1
  | right _ ih => exact ih hp.2
  | more _ _ ih₁ ih₂ => exact List.forall_mem_append.mpr ⟨ih₁ hp, ih₂ hp⟩

end Pattern

/-! ## Paths -/

/-- There is a node at the end of a path of labels: from one of the trees to one of its
children, and so on. -/
def ParseTree.HasPath : List Label → List (ParseTree Label) → Prop
  | [], _ => True
  | label :: path, ts => ∃ us, ParseTree.node label us ∈ ts ∧ HasPath path us

namespace Pattern

variable [BEq Label]

/-- May a node with the label, and with a body that passes the test, be at the root of what
the pattern forms? A second test says so of rules. -/
def mayHaveRoot (ofRule : Rule → Bool) (label : Label)
    (test : Pattern Rule Label → Bool) : Pattern Rule Label → Bool
  | .node l p => l == label && test p
  | .seq p q | .choice p q => mayHaveRoot ofRule label test p || mayHaveRoot ofRule label test q
  | .many p => mayHaveRoot ofRule label test p
  | .rule r => ofRule r
  | .nothing | .token _ | .ahead _ | .unless _ => false

/-- May a rule have such a root? Rules are looked up to a depth; below it they may. -/
def ruleMayHaveRoot (grammar : Rule → Pattern Rule Label) (label : Label)
    (test : Pattern Rule Label → Bool) : Nat → Rule → Bool
  | 0, _ => true
  | depth + 1, r => mayHaveRoot (ruleMayHaveRoot grammar label test depth) label test (grammar r)

/-- May what the pattern forms have a node at the end of the path? -/
def mayHavePath (grammar : Rule → Pattern Rule Label) (depth : Nat) :
    List Label → Pattern Rule Label → Bool
  | [], _ => true
  | label :: path, p =>
    let test := mayHavePath grammar depth path
    mayHaveRoot (ruleMayHaveRoot grammar label test depth) label test p

/-- A root whose body passes the test is seen in the pattern. -/
theorem Forms.mayHaveRoot [LawfulBEq Label] {label : Label}
    {test : Pattern Rule Label → Bool} {us : List (ParseTree Label)}
    (htest : ∀ p, Forms grammar p us → test p = true) {p : Pattern Rule Label}
    {ts : List (ParseTree Label)} (h : Forms grammar p ts) (hmem : ParseTree.node label us ∈ ts)
    (depth : Nat) : p.mayHaveRoot (ruleMayHaveRoot grammar label test depth) label test = true := by
  induction h generalizing depth with
  | nothing | ahead | «unless» | stop | token => simp at hmem
  | rule _ ih =>
      cases depth with
      | zero => rfl
      | succ depth => exact ih hmem depth
  | node hbody _ =>
      obtain ⟨rfl, rfl⟩ : label = _ ∧ us = _ := by simpa using hmem
      simp [Pattern.mayHaveRoot, htest _ hbody]
  | seq _ _ ih₁ ih₂ =>
      rw [Pattern.mayHaveRoot, Bool.or_eq_true]
      exact (List.mem_append.mp hmem).imp (ih₁ · depth) (ih₂ · depth)
  | left _ ih =>
      rw [Pattern.mayHaveRoot, Bool.or_eq_true]
      exact .inl (ih hmem depth)
  | right _ ih =>
      rw [Pattern.mayHaveRoot, Bool.or_eq_true]
      exact .inr (ih hmem depth)
  | more _ _ ih₁ ih₂ =>
      cases List.mem_append.mp hmem with
      | inl hmem => exact ih₁ hmem depth
      | inr hmem => exact ih₂ hmem depth

/-- **Paths are seen in patterns**: there is no path in formed trees that the pattern does not
show. -/
theorem Forms.mayHavePath [LawfulBEq Label] {path : List Label}
    {p : Pattern Rule Label} {ts : List (ParseTree Label)} (h : Forms grammar p ts)
    (hpath : ParseTree.HasPath path ts) (depth : Nat) :
    p.mayHavePath grammar depth path = true := by
  induction path generalizing p ts with
  | nil => rfl
  | cons label path ih =>
      obtain ⟨us, hus, hrest⟩ := hpath
      exact h.mayHaveRoot (fun q hq => ih hq hrest) hus depth

end Pattern

end JavaOutline.Grammar
