import JavaOutline.Proofs.MemberReading

/-!
# JavaOutline.Proofs.PartReading

How the grammar reads the parts of declarations as their trees.

`Reads` says that a pattern takes the tokens of some trees in front of others and forms
these trees. Its rules put trees together the way patterns are put together, so tokens
never have to be spelled out. What a part needs to know of the tokens behind it is
`Avoids`: that the next one has none of some texts.
-/

namespace JavaOutline

open Source Grammar Pattern Structure

/-! ## Reading trees -/

/-- The pattern takes the tokens of the trees in front of `rest`, and forms the trees. -/
def Reads (d : Nat) (p : Form) (ts : List SyntaxTree) (rest : List Token) : Prop :=
  Takes Rule.form d p (ParseTree.tokensAll ts ++ rest) ts rest

section

variable {d e : Nat} {p q : Form} {ts us : List SyntaxTree} {rest : List Token}

theorem Reads.of_takes {t : SyntaxTree} (h : Takes Rule.form d p (t.tokens ++ rest) [t] rest) :
    Reads d p [t] rest := by
  rw [Reads, tokensAll_singleton]
  exact h

theorem Reads.takes {t : SyntaxTree} (h : Reads d p [t] rest) :
    Takes Rule.form d p (t.tokens ++ rest) [t] rest := by
  rw [Reads, tokensAll_singleton] at h
  exact h

theorem Reads.mono (h : Reads d p ts rest) (hde : d ≤ e) : Reads e p ts rest :=
  Takes.mono h hde

/-- One pattern after another. -/
theorem Reads.seq (hp : Reads d p ts (ParseTree.tokensAll us ++ rest)) (hq : Reads d q us rest)
    (hd : d ≤ depthLimit) : Reads d (.seq p q) (ts ++ us) rest := by
  rw [Reads, ParseTree.tokensAll_append, List.append_assoc]
  exact Takes.followed hp hq hd

/-- After one token the depth starts anew. -/
theorem reads_token_seq {terminal : Terminal} {t : Token} (h : terminal.accepts t = true)
    (hq : Reads e q us rest) (he : e ≤ depthLimit) :
    Reads 0 (.seq (.token terminal) q) (.leaf t :: us) rest :=
  takes_token_seq h hq he

theorem reads_token {terminal : Terminal} {t : Token} (h : terminal.accepts t = true) :
    Reads 0 (.token terminal) [.leaf t] rest :=
  takes_token h

theorem Reads.node (h : Reads d p ts rest) (label : Label) :
    Reads d (.node label p) [.node label ts] rest :=
  .of_takes (by rw [ParseTree.tokens]; exact Takes.node h)

theorem Reads.rule {r : Rule} (h : Reads d r.form ts rest) : Reads (d + 1) (.rule r) ts rest :=
  Takes.rule h

/-- Nothing is read where a pattern has no match. -/
theorem reads_none (h : Refuses Rule.form d p rest) : Reads d (maybe p) [] rest := h.maybe

/-- A pattern that need not match is passed over. -/
theorem Reads.skip (hq : Reads d q us rest)
    (h : Refuses Rule.form d p (ParseTree.tokensAll us ++ rest)) :
    Reads d (.seq (maybe p) q) us rest :=
  h.maybe.nothing_seq hq

/-- Trees one after another, each of them read in front of what keeps to `C`. -/
theorem reads_many {C : List Token → Prop} (hd : d ≤ depthLimit) (hne : ∀ u ∈ us, u.tokens ≠ [])
    (hus : ∀ u ∈ us, ∀ rest, C rest → Reads d p [u] rest ∧ C (u.tokens ++ rest)) (hC : C rest)
    (hstop : Refuses Rule.form d p rest) :
    Reads d (.many p) us rest ∧ C (ParseTree.tokensAll us ++ rest) := by
  induction us with
  | nil => exact ⟨hstop.many, hC⟩
  | cons u us ih =>
      rw [List.forall_mem_cons] at hne hus
      obtain ⟨hmany, hCmany⟩ := ih hne.2 hus.2
      obtain ⟨hu, hCu⟩ := hus.1 _ hCmany
      -- a repetition ends where its body takes nothing
      have hlen : (ParseTree.tokensAll us ++ rest).length
          < (u.tokens ++ (ParseTree.tokensAll us ++ rest)).length := by
        have hpos := List.length_pos_iff.mpr hne.1
        simp only [List.length_append]
        omega
      rw [Reads, ParseTree.tokensAll, List.append_assoc]
      exact ⟨Takes.many hu.takes hlen hmany hd, hCu⟩

end

/-! ## The next token -/

/-- The text of the next token is none of some texts. -/
def Avoids (texts : List String) (input : List Token) : Prop :=
  ∃ x rest, input = x :: rest ∧ x.text ∉ texts

/-- Words behind a type, and signs, that would make it go on. -/
def typeEnds : List String := [".", "<", "[", "@", "extends", "super"]

section

variable {l : List String} {rest : List Token}

theorem Avoids.mono {l' : List String} (h : Avoids l rest) (hl : ∀ s ∈ l', s ∈ l) :
    Avoids l' rest := by
  obtain ⟨x, ys, rfl, hx⟩ := h
  exact ⟨x, ys, rfl, fun hmem => hx (hl _ hmem)⟩

theorem Avoids.refuses_text (h : Avoids l rest) {s : String} (hs : s ∈ l) :
    Refuses Rule.form 0 (text s) rest := by
  obtain ⟨x, ys, rfl, hx⟩ := h
  exact Pattern.refuses_text fun he => hx (he ▸ hs)

theorem Avoids.refuses_dimensions (h : Avoids l rest) (hat : "@" ∈ l) (hbracket : "[" ∈ l) :
    Refuses Rule.form 0 (.rule .dimensions) rest := by
  obtain ⟨x, ys, rfl, hx⟩ := h
  exact JavaOutline.refuses_dimensions (fun he => hx (he ▸ hat)) fun he => hx (he ▸ hbracket)

/-- A name that is no keyword comes next. -/
theorem avoids_nameTree {w : String} (hw : isName w = true) (hl : ∀ s ∈ l, isName s = false)
    (ts : List SyntaxTree) (rest : List Token) :
    Avoids l (ParseTree.tokensAll (nameTree w :: ts) ++ rest) :=
  ⟨wordToken space w, _, rfl, notMem_of_isName hw hl⟩

theorem avoids_leaf {t : Token} (ht : t.text ∉ l) (ts : List SyntaxTree) (rest : List Token) :
    Avoids l (ParseTree.tokensAll (.leaf t :: ts) ++ rest) :=
  ⟨t, _, rfl, ht⟩

theorem avoids_sign {s : String} (hs : s ∉ l) (ts : List SyntaxTree) (rest : List Token) :
    Avoids l (ParseTree.tokensAll (signLeaf s :: ts) ++ rest) := avoids_leaf hs ts rest

end

/-! ## Types and names -/

section

variable {t : TypeRef} {rest : List Token}

theorem reads_type {place : Place} (h : t.IsSpelled (Opening.Reads (.type place)))
    (hrest : Avoids typeEnds rest) : Reads 2 (.rule (.type place)) [typeTree space t] rest := by
  obtain ⟨x, ys, rfl, hx⟩ := hrest
  exact .of_takes (h.takes space hx)

theorem reads_anyType (h : t.IsSpelled (Opening.Reads (.type .plain)))
    (hrest : Avoids typeEnds rest) : Reads 3 (.rule (.anyType .plain)) [typeTree space t] rest := by
  have htype := (reads_type h hrest).takes
  obtain ⟨x, ys, rfl, hx⟩ := hrest
  exact .of_takes (takes_whole htype h.isWrittenAsType).2

theorem reads_name (w : String) : Reads 0 identifier [nameTree w] rest :=
  (reads_token rfl).node .identifier

theorem reads_memberName {w : String} (hw : isName w = true) :
    Reads 0 memberName [nameTree w] rest := takes_memberName hw

/-- Trees with commas between them; each ends in front of a comma. -/
theorem reads_withCommas {d : Nat} {p : Form} {l : List String} {u : SyntaxTree}
    {us : List SyntaxTree} (hd : d ≤ depthLimit) (hcomma : "," ∉ l)
    (hus : ∀ u' ∈ u :: us, ∀ rest, Avoids l rest → Reads d p [u'] rest)
    (hrest : Avoids ("," :: l) rest) :
    Reads d (separated "," p) (withCommas (u :: us)) rest := by
  obtain ⟨x, ys, rfl, hx⟩ := hrest
  rw [List.mem_cons, not_or] at hx
  have htakes : ∀ u' ∈ u :: us, ∀ (y : Token) (zs : List Token), y.text ∉ l →
      Takes Rule.form d p (u'.tokens ++ y :: zs) [u'] (y :: zs) :=
    fun u' hu' y zs hy => (hus u' hu' (y :: zs) ⟨y, zs, rfl, hy⟩).takes
  exact takes_separated hd hcomma hx.2 hx.1 htakes

/-- Brackets after a name, if there are any. -/
theorem reads_dimensions (n : Nat) (hrest : Avoids ["[", "@"] rest) :
    Reads 1 (maybe (.rule .dimensions)) (dimensionTrees n) rest := by
  rw [dimensionTrees]
  split
  · exact reads_none ((hrest.refuses_dimensions (by simp) (by simp)).mono (Nat.zero_le 1))
  · next hn =>
    obtain ⟨x, ys, rfl, hx⟩ := hrest
    have hbracket : x.text ≠ "[" := fun he => hx (by simp [he])
    have hat : x.text ≠ "@" := fun he => hx (by simp [he])
    have htokens : (bracketsTree n).tokens = bracketTokens n := by
      rw [bracketsTree, ParseTree.tokens, ParseTree.tokensAll_map_leaf]
    refine .of_takes ?_
    rw [htokens]
    exact (takes_dimensions hat hbracket (by omega)).maybe

theorem reads_variable (v : Variable) (hrest : Avoids ["[", "@", "="] rest) :
    Reads 2 (.rule .variable) [v.tree] rest := by
  have hvalue : Reads 1 (maybe (.seq (text "=") (.node .value (any [.rule .arrayInitializer,
      .rule (.expression true)])))) [] rest :=
    reads_none ((hrest.refuses_text (by simp)).seq.mono (Nat.zero_le 1))
  have hdimensions := reads_dimensions v.dimensions (hrest.mono (by simp))
  have hparts := (hdimensions.seq hvalue (by decide))
  rw [List.append_nil] at hparts
  exact ((((reads_name v.name).mono (Nat.zero_le 1)).seq hparts (by decide)).node .variable).rule

/-- A list of types behind a keyword, or nothing. -/
theorem reads_clause (label : Label) {keyword : String} {ts : List TypeRef}
    (h : ∀ t ∈ ts, t.IsSpelled (Opening.Reads (.type .plain)))
    (hrest : Avoids (keyword :: "," :: typeEnds) rest) :
    Reads 3 (maybe (.node label (typeList keyword))) (clauseTrees label keyword ts) rest := by
  cases ts with
  | nil =>
      have hkeyword : Refuses Rule.form 0 (typeList keyword) rest :=
        (hrest.refuses_text (by simp)).seq
      exact reads_none (hkeyword.node.mono (Nat.zero_le 3))
  | cons t ts =>
      have hlist : Reads 3 (separated "," (.rule (.anyType .plain)))
          (withCommas (typeTree space t :: ts.map (typeTree space))) rest := by
        refine reads_withCommas (l := typeEnds) (by decide) (by decide) ?_
          (hrest.mono (by simp +contextual))
        rw [← List.map_cons]
        exact List.forall_mem_map.mpr fun u hu rest hrest => reads_anyType (h u hu) hrest
      have hclause := reads_token_seq (accepts_text keyword space .word) hlist (by decide)
      exact ((hclause.node label).mono (Nat.zero_le 3)).maybe

/-- What is behind a clause is what comes next if the clause is empty. -/
theorem avoids_clause {l : List String} (label : Label) {keyword : String} (ts : List TypeRef)
    (hkeyword : keyword ∉ l) (hrest : Avoids l rest) :
    Avoids l (ParseTree.tokensAll (clauseTrees label keyword ts) ++ rest) := by
  cases ts with
  | nil => exact hrest
  | cons => exact ⟨wordToken space keyword, _, rfl, hkeyword⟩

end

/-! ## Parameters -/

section

variable {t : TypeRef} {w : String} {us : List SyntaxTree} {rest : List Token}

/-- A type begins a member, if what is behind it is neither parameters nor a body. -/
theorem beginsMember_type {place : Place} (h : t.IsSpelled (Opening.Reads (.type place)))
    (hus : Avoids ["-", "(", "\x7b"] (ParseTree.tokensAll us ++ rest)) :
    BeginsMember place (ParseTree.tokensAll (typeTree space t :: us) ++ rest) := by
  obtain ⟨x, ys, heq, hx⟩ := hus
  rw [ParseTree.tokensAll, List.append_assoc, heq]
  exact beginsMember_typeTree h space hx ys

theorem notMem_typeEnds (h : isName w = true) : w ∉ typeEnds := notMem_of_isName h (by decide)

/-- A parameter of variable arity has dots behind its type. -/
theorem reads_spread (ht : t.IsSpelled (Opening.Reads (.type .parameter))) (hrest : Avoids ["[", "@", "="] rest) :
    Reads 2 (spread .parameter) [.node .spread [typeTree space t, signLeaf "...", variableTree w]]
      rest := by
  have hbegins := beginsMember_type ht (avoids_sign (s := "...") (by decide)
    [variableTree w] rest)
  have hvariable : Reads 2 (.rule .variable) [variableTree w] rest := reads_variable ⟨w, 0⟩ hrest
  have hdots : Reads 2 (.seq (text "...") (.rule .variable)) [signLeaf "...", variableTree w]
      rest :=
    (reads_token_seq (accepts_text "..." [] .symbol) hvariable (by decide)).mono (by decide)
  have htype := reads_type ht (avoids_sign (s := "...") (by decide)
    [variableTree w] rest)
  have hmodifiers := (hbegins.skips_modifiers (by decide)).mono (Nat.zero_le 2)
  exact Reads.node (hmodifiers.nothing_seq (htype.seq hdots (by decide))) .spread

/-- A parameter of fixed arity has its name there. -/
theorem refuses_spread (ht : t.IsSpelled (Opening.Reads (.type .parameter))) (hw : isName w = true) :
    Refuses Rule.form 2 (spread .parameter)
      (ParseTree.tokensAll [typeTree space t, nameTree w] ++ rest) := by
  have hbegins := beginsMember_type ht (avoids_nameTree hw (by decide) [] rest)
  have htype := reads_type ht (avoids_nameTree hw (by decide) [] rest)
  have hdots : Refuses Rule.form 0 (text "...") (ParseTree.tokensAll [nameTree w] ++ rest) :=
    (avoids_nameTree (l := ["..."]) hw (by decide) [] rest).refuses_text (by simp)
  have hmodifiers := (hbegins.skips_modifiers (by decide)).mono (Nat.zero_le 2)
  refine (hmodifiers.nothing_seq_refuses ?_).node
  rw [ParseTree.tokensAll, List.append_assoc]
  exact htype.takes.followed_refuses (hdots.seq.mono (Nat.zero_le 2)) (by decide)

theorem reads_fixed (ht : t.IsSpelled (Opening.Reads (.type .parameter))) (hw : isName w = true) (hrest : Avoids ["[", "@"] rest) :
    Reads 2 (parameterForm .parameter) [.node .parameter [typeTree space t, nameTree w]] rest := by
  have hbegins := beginsMember_type ht (avoids_nameTree hw (by decide) [] rest)
  have htype := reads_type ht (avoids_nameTree hw (by decide) [] rest)
  have hdimensions : Reads 2 (maybe (.rule .dimensions)) [] rest :=
    reads_none ((hrest.refuses_dimensions (by simp) (by simp)).mono (Nat.zero_le 2))
  have hname := ((reads_name w).mono (Nat.zero_le 2)).seq hdimensions (by decide)
  have hmodifiers := (hbegins.skips_modifiers (by decide)).mono (Nat.zero_le 2)
  exact Reads.node (hmodifiers.nothing_seq (htype.seq hname (by decide))) .parameter

/-- A parameter, in front of a comma or of the closing parenthesis. -/
theorem reads_parameter {p : Parameter} (h : p.IsWritable Opening.Reads)
    (hrest : Avoids ["[", "@", "=", "."] rest) :
    Reads 2 (any [spread .parameter, parameterForm .parameter]) [p.tree] rest := by
  rw [Parameter.tree]
  split
  · exact Takes.choice_left (reads_spread h.type (hrest.mono (by simp +contextual)))
  · have hfixed := reads_fixed h.type h.name (hrest.mono (by simp +contextual))
    exact .of_takes (Takes.choice_right (refuses_spread h.type h.name) hfixed.takes)

/-- A parameter does not begin a receiver. -/
theorem refuses_receiver_parameter {p : Parameter} (h : p.IsWritable Opening.Reads)
    (hrest : Avoids ["."] rest) :
    Refuses Rule.form 2 (receiver .parameter) (p.tree.tokens ++ rest) := by
  rw [Parameter.tree]
  split
  · have hword : Refuses Rule.form 0 (.seq anyWord (text "."))
        (signToken "..." :: wordToken space p.name :: rest) := (refuses_token rfl).seq
    have hrefuses := refuses_receiver h.type space (by decide) (by decide) (by decide) hword
    simpa [ParseTree.tokens, ParseTree.tokensAll, signLeaf, variableTree, nameTree] using hrefuses
  · have hword : Refuses Rule.form 0 (.seq anyWord (text "."))
        (wordToken space p.name :: rest) := (hrest.refuses_text (by simp)).behind_token (by decide)
    have hsigns : p.name ∉ ["-", "(", "\x7b"] := notMem_of_isName h.name (by decide)
    have hthis : p.name ∉ ["this"] := notMem_of_isName h.name (by decide)
    have hrefuses := refuses_receiver h.type space (notMem_typeEnds h.name) hsigns
      (fun he => hthis (List.mem_singleton.mpr he)) hword
    simpa [ParseTree.tokens, ParseTree.tokensAll, nameTree] using hrefuses

/-- Behind a tree in a list there is a comma, or what follows the list. -/
theorem avoids_afterCommas {l : List String} (hcomma : "," ∉ l) (ts : List SyntaxTree)
    (hrest : Avoids l rest) : Avoids l (ParseTree.tokensAll (afterCommas ts) ++ rest) := by
  cases ts with
  | nil => exact hrest
  | cons => exact ⟨signToken ",", _, rfl, hcomma⟩

/-- What ends parameters. -/
theorem avoids_close {l : List String} (hl : ")" ∉ l) :
    Avoids l (ParseTree.tokensAll [signLeaf ")"] ++ rest) := avoids_sign hl [] rest

theorem reads_parameterList {ps : List Parameter}
    (h : ∀ p ∈ ps, p.IsWritable Opening.Reads) :
    Reads 2 (commaSeparated (any [spread .parameter, parameterForm .parameter]))
      (withCommas (ps.map Parameter.tree)) (ParseTree.tokensAll [signLeaf ")"] ++ rest) := by
  cases ps with
  | nil =>
      have hnone : Refuses Rule.form 0 (any [spread .parameter, parameterForm .parameter])
          (signToken ")" :: rest) := refuses_of_text 2 (by decide)
      exact reads_none (hnone.seq.mono (Nat.zero_le 2))
  | cons p ps =>
      have hps : ∀ u ∈ p.tree :: ps.map Parameter.tree, ∀ rest,
          Avoids ["[", "@", "=", "."] rest →
          Reads 2 (any [spread .parameter, parameterForm .parameter]) [u] rest := by
        rw [← List.map_cons]
        exact List.forall_mem_map.mpr fun q hq rest hrest => reads_parameter (h q hq) hrest
      exact (reads_withCommas (by decide) (by decide) hps (avoids_close (by decide))).maybe

/-- None of the parameters is a receiver. -/
theorem refuses_receiver_parameters {ps : List Parameter}
    (h : ∀ p ∈ ps, p.IsWritable Opening.Reads) :
    Refuses Rule.form 2 (receiver .parameter)
      (ParseTree.tokensAll (withCommas (ps.map Parameter.tree) ++ [signLeaf ")"]) ++ rest) := by
  cases ps with
  | nil =>
      have hreceiver : Refuses Rule.form 0 (receiver .parameter) (signToken ")" :: rest) :=
        refuses_of_text 2 (by decide)
      exact hreceiver.mono (Nat.zero_le 2)
  | cons p ps =>
      have hnext : Avoids ["."] (ParseTree.tokensAll (afterCommas (ps.map Parameter.tree))
          ++ (ParseTree.tokensAll [signLeaf ")"] ++ rest)) :=
        avoids_afterCommas (by decide) (ps.map Parameter.tree) (avoids_close (by decide))
      have hreceiver := refuses_receiver_parameter (h p (by simp)) hnext
      rw [List.map_cons, withCommas, ParseTree.tokensAll_append, ParseTree.tokensAll,
        List.append_assoc, List.append_assoc]
      exact hreceiver

/-- Parameters in parentheses. -/
theorem reads_parameters {ps : List Parameter}
    (h : ∀ p ∈ ps, p.IsWritable Opening.Reads) :
    Reads 1 (.rule (.parameters .parameter)) [parametersNode ps] rest := by
  have hclose : Reads 2 (text ")") [signLeaf ")"] rest :=
    (reads_token (accepts_text ")" [] .symbol)).mono (Nat.zero_le 2)
  have hreceiver : Refuses Rule.form 2 (receiver .parameter)
      (ParseTree.tokensAll (withCommas (ps.map Parameter.tree) ++ [signLeaf ")"]) ++ rest) :=
    refuses_receiver_parameters h
  have hlast := (reads_parameterList h).seq hclose (by decide)
  have hinside : Reads 2 (any [.seq (receiver .parameter) (text ")"),
      all [maybe (.seq (receiver .parameter) (text ",")),
        commaSeparated (any [spread .parameter, parameterForm .parameter]), text ")"]])
      (withCommas (ps.map Parameter.tree) ++ [signLeaf ")"]) rest :=
    Takes.choice_right hreceiver.seq (hlast.skip hreceiver.seq)
  have hall := reads_token_seq (accepts_text "(" [] .symbol) hinside (by decide)
  exact (hall.node .parameters).rule

end

/-! ## Members behind their modifiers -/

section

variable {rest : List Token}

theorem reads_sign (s : String) : Reads 0 (text s) [signLeaf s] rest :=
  reads_token (accepts_text s [] .symbol)

/-- Neither a statement nor the call of a constructor begins with a closing brace. -/
theorem refuses_statement : Refuses Rule.form 0 (.rule .statement) (signToken "\x7d" :: rest) :=
  refuses_of_text 5 (by decide +kernel)

/-- The empty body of a method. -/
theorem reads_block : Reads 1 (.rule .block) [emptyBlockTree] rest := by
  have hinside : Reads 0 (.seq (.many (.rule .statement)) (text "\x7d")) [signLeaf "\x7d"] rest :=
    refuses_statement.many.nothing_seq (reads_sign "\x7d")
  exact Reads.rule (r := .block) ((reads_token_seq (accepts_text "\x7b" space .symbol) hinside
    (Nat.zero_le _)).node .block)

/-- The empty body of a constructor, which calls no other one. -/
theorem reads_constructorBody : Reads 0 constructorBody [emptyBlockTree] rest := by
  have hcall : Refuses Rule.form 0 constructorCall (signToken "\x7d" :: rest) :=
    refuses_of_text 5 (by decide +kernel)
  have hinside : Reads 0 (.seq (.seq (maybe constructorCall) (.many (.rule .statement)))
      (text "\x7d")) [signLeaf "\x7d"] rest :=
    (hcall.maybe.nothing_seq refuses_statement.many).nothing_seq (reads_sign "\x7d")
  exact (reads_token_seq (accepts_text "\x7b" space .symbol) hinside (Nat.zero_le _)).node .block

/-- A field statement. -/
theorem reads_field {category : Category} {f : Field} (h : f.IsWritable Opening.Reads category) :
    Reads 2 (fieldForm category.place) [.node .field f.parts] rest := by
  cases hvs : f.declarators with
  | nil => exact absurd hvs h.declarators
  | cons v vs =>
      have hname : isName v.name = true := h.names v (by simp [hvs])
      have hnext : Avoids typeEnds (ParseTree.tokensAll (withCommas (v.tree :: vs.map Variable.tree)
          ++ [signLeaf ";"]) ++ rest) := ⟨wordToken space v.name, _, rfl, notMem_typeEnds hname⟩
      have hvariables : ∀ u ∈ v.tree :: vs.map Variable.tree, ∀ rest,
          Avoids ["[", "@", "="] rest → Reads 2 (.rule .variable) [u] rest := by
        rw [← List.map_cons]
        exact List.forall_mem_map.mpr fun w _ rest hrest => reads_variable w hrest
      have hlist := reads_withCommas (by decide) (by decide) hvariables
        (avoids_sign (s := ";") (by decide) [] rest)
      have hend : Reads 2 (text ";") [signLeaf ";"] rest := (reads_sign ";").mono (Nat.zero_le 2)
      have hparts := (reads_type h.type hnext).seq (hlist.seq hend (by decide)) (by decide)
      rw [Field.parts, hvs, List.map_cons]
      exact hparts.node .field

theorem reads_throws {ts : List TypeRef}
    (h : ∀ t ∈ ts, t.IsSpelled (Opening.Reads (.type .plain))) :
    Reads 3 (maybe throwsForm) (clauseTrees .throws "throws" ts)
      (ParseTree.tokensAll [emptyBlockTree] ++ rest) :=
  reads_clause .throws h ⟨spacedSign "\x7b", _, rfl, by decide⟩

/-- Nothing but a body or exceptions is behind the parameters. -/
theorem avoids_throws {l : List String} (hl : "throws" ∉ l ∧ "\x7b" ∉ l) (ts : List TypeRef) :
    Avoids l (ParseTree.tokensAll (clauseTrees .throws "throws" ts ++ [emptyBlockTree])
      ++ rest) := by
  rw [ParseTree.tokensAll_append, List.append_assoc]
  exact avoids_clause .throws ts hl.1 ⟨spacedSign "\x7b", _, rfl, hl.2⟩

/-- A method without type parameters. -/
theorem reads_method {m : Method} (h : m.IsWritable Opening.Reads) :
    Reads 3 (methodForm .member) [.node .method m.parts] rest := by
  have hblock : Reads 3 (any [.rule .block, text ";"]) [emptyBlockTree] rest :=
    (reads_block.mono (by decide)).choice_left
  have hthrows := (reads_throws h.throws).seq hblock (by decide)
  have hnext : Avoids ["@", "["]
      (ParseTree.tokensAll (clauseTrees .throws "throws" m.throws ++ [emptyBlockTree]) ++ rest) :=
    avoids_throws (by decide) m.throws
  have hdimensions := hthrows.skip ((hnext.refuses_dimensions (by simp) (by simp)).mono (by decide))
  have hparameters := ((reads_parameters h.parameters).mono (by decide)).seq hdimensions (by decide)
  have hhead : ∀ rest, Reads 3 (methodHead .member) [typeTree space m.returnType, nameTree m.name]
      rest := by
    intro rest
    have htake : Takes Rule.form 2 (methodHead .member) _ _ rest :=
      takes_methodHead h.returnType h.name
    rw [Reads]
    simpa [ParseTree.tokensAll, nameTree, ParseTree.tokens] using htake.mono (by decide)
  exact ((hhead _).seq hparameters (by decide)).node .method

/-- A constructor without type parameters. -/
theorem reads_constructor {c : Constructor} (h : c.IsWritable Opening.Reads) :
    Reads 3 constructorForm [.node .constructor c.parts] rest := by
  have hword : (Terminal.word Place.member.reserved).accepts (wordToken space c.name) = true := by
    have hreads : c.name ∉ Place.member.reserved := h.reads
    simpa [Terminal.accepts, wordToken] using hreads
  have hbody : Reads 3 constructorBody [emptyBlockTree] rest :=
    reads_constructorBody.mono (Nat.zero_le 3)
  have hthrows := (reads_throws h.throws).seq hbody (by decide)
  have hparameters := ((reads_parameters h.parameters).mono (by decide)).seq hthrows (by decide)
  have hname := (((reads_token hword).node .identifier).mono (Nat.zero_le 3)).seq hparameters
    (by decide)
  have hnext : Avoids ["<"] (ParseTree.tokensAll c.parts ++ rest) :=
    avoids_nameTree h.name (by decide) _ rest
  have hgeneric : Refuses Rule.form 0 (.rule .typeParameters)
      (ParseTree.tokensAll c.parts ++ rest) :=
    Refuses.rule (hnext.refuses_text (by simp)).seq.node
  exact (hname.skip (hgeneric.mono (Nat.zero_le 3))).node .constructor

/-- The number that stands for a default value. -/
def zeroToken : Token := ⟨space, .literal, "0"⟩

set_option maxRecDepth 4000 in
/-- A number is an operand, and a semicolon behind it ends the operand. -/
theorem takes_zeroOperand : Takes Rule.form 1 (.rule (.operand true))
    (zeroToken :: signToken ";" :: rest) [.leaf zeroToken] (signToken ";" :: rest) := by
  have hsuffix : ∀ p ∈ [.seq closedSuffix (.rule (.suffixes true false)),
      .seq openSuffix (.rule (.suffixes true true))],
      Refuses Rule.form 0 p (signToken ";" :: rest) := by
    intro p hp
    refine refuses_of_text 2 ?_
    revert p
    decide +kernel
  have hsuffixes : Takes Rule.form 1 (.rule (.suffixes true false)) (signToken ";" :: rest) []
      (signToken ";" :: rest) := (takes_nothing.any hsuffix).rule
  have hstart : Takes Rule.form 0 closedStart (zeroToken :: signToken ";" :: rest)
      [.leaf zeroToken] (signToken ";" :: rest) := (takes_token rfl).choice_left
  have htype : Refuses Rule.form 0 (.seq typeQualified (.rule (.suffixes true false)))
      (zeroToken :: signToken ";" :: rest) := refuses_of_text 2 (by decide +kernel)
  exact (Takes.choice_right htype (hstart.seq (by simp) hsuffixes (by decide)).choice_left).rule

set_option maxRecDepth 4000 in
/-- A number is all of a default value. -/
theorem reads_zero : Reads 4 (.rule .elementValue) [.leaf zeroToken]
    (ParseTree.tokensAll [signLeaf ";"] ++ rest) := by
  have hbefore : ∀ p ∈ [.seq (.token (.oneOf ["+", "-", "!", "~", "++", "--"]))
      (.rule (.term true)), lambda, cast true, .rule .switch],
      Refuses Rule.form 1 p (zeroToken :: signToken ";" :: rest) := by
    intro p hp
    refine (refuses_of_text 2 ?_).mono (Nat.zero_le 1)
    revert p
    decide +kernel
  have hterm : Takes Rule.form 2 (.rule (.term true)) (zeroToken :: signToken ";" :: rest)
      [.leaf zeroToken] (signToken ";" :: rest) := (takes_zeroOperand.any hbefore).rule
  have hinfix : Takes Rule.form 2 (.many (.rule (.infixPart true))) (signToken ";" :: rest) []
      (signToken ";" :: rest) :=
    (Refuses.many (refuses_of_text 3 (by decide +kernel))).mono (Nat.zero_le 2)
  have hexpression : Takes Rule.form 3 (.rule (.expression true))
      (zeroToken :: signToken ";" :: rest) [.leaf zeroToken] (signToken ";" :: rest) :=
    Takes.rule (hterm.followed hinfix (by decide))
  have hvalue : ∀ p ∈ [.rule .annotationUse, inBraces (.seq (commaSeparated (.rule .elementValue))
      (maybe (text ",")))], Refuses Rule.form 3 p (zeroToken :: signToken ";" :: rest) := by
    intro p hp
    refine (refuses_of_text 1 ?_).mono (Nat.zero_le 3)
    revert p
    decide +kernel
  exact (hexpression.any hvalue).rule

/-- The default value of an element, if it has one, and the semicolon behind it. -/
theorem reads_default (hasDefault : Bool) :
    Reads 2 (.seq (maybe (.node .defaultValue (.seq (text "default") (.rule .elementValue))))
      (text ";")) (defaultTrees hasDefault ++ [signLeaf ";"]) rest := by
  have hsemicolon : Reads 2 (text ";") [signLeaf ";"] rest := (reads_sign ";").mono (by decide)
  cases hasDefault with
  | false =>
      have hnone : Refuses Rule.form 0 (.node .defaultValue (.seq (text "default")
          (.rule .elementValue))) (signToken ";" :: rest) := (refuses_text (by decide)).seq.node
      exact hsemicolon.skip (hnone.mono (Nat.zero_le 2))
  | true =>
      have hzero : Reads 4 (.rule .elementValue) [.leaf zeroToken]
          (ParseTree.tokensAll [signLeaf ";"] ++ rest) := reads_zero
      have hvalue := (reads_token_seq (accepts_text "default" space .word) hzero
        (by decide)).node .defaultValue
      have hsome : Reads 2 (maybe (.node .defaultValue (.seq (text "default")
          (.rule .elementValue)))) (defaultTrees true)
          (ParseTree.tokensAll [signLeaf ";"] ++ rest) :=
        Takes.maybe (hvalue.mono (Nat.zero_le 2))
      exact hsome.seq hsemicolon (by decide)

theorem avoids_default {l : List String} (hl : "default" ∉ l ∧ ";" ∉ l) (hasDefault : Bool) :
    Avoids l (ParseTree.tokensAll (defaultTrees hasDefault ++ [signLeaf ";"]) ++ rest) := by
  cases hasDefault with
  | false => exact avoids_sign hl.2 [] rest
  | true => exact ⟨wordToken space "default", _, rfl, hl.1⟩

/-- An element of an annotation type. -/
theorem reads_element {e : Element} (h : e.IsWritable Opening.Reads) :
    Reads 2 elementForm [.node .element e.parts] rest := by
  have hnext : Avoids ["@", "["]
      (ParseTree.tokensAll (defaultTrees e.hasDefault ++ [signLeaf ";"]) ++ rest) :=
    avoids_default (by decide) e.hasDefault
  have hdimensions := (reads_default e.hasDefault).skip
    ((hnext.refuses_dimensions (by simp) (by simp)).mono (Nat.zero_le 2))
  have hclose := ((reads_sign ")").mono (Nat.zero_le 2)).seq hdimensions (by decide)
  have hopen := ((reads_sign "(").mono (Nat.zero_le 2)).seq hclose (by decide)
  have hname := ((reads_memberName h.name).mono (Nat.zero_le 2)).seq hopen (by decide)
  have htype := (reads_type h.returnType
    (avoids_nameTree h.name (by decide) _ rest)).seq hname (by decide)
  exact htype.node .element

end

end JavaOutline
