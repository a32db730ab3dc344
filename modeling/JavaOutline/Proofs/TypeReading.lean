import JavaOutline.Grammar.Declarations
import JavaOutline.Proofs.Matching
import JavaOutline.Proofs.TypeTrees

/-!
# JavaOutline.Proofs.TypeReading

The grammar reads a canonical type as its tree, wherever a type may begin and
whatever ends it there (`takes_typeTree`).
-/

namespace JavaOutline

open Source Grammar Pattern Structure

/-! ## What does not begin here -/

section

variable {x : Token} {rest : List Token}

theorem refuses_annotationUse (h : x.text ≠ "@") :
    Refuses Rule.form 0 (.rule .annotationUse) (x :: rest) :=
  Refuses.rule (refuses_text h).seq.node

theorem skips_annotations (h : x.text ≠ "@") :
    Takes Rule.form 0 annotations (x :: rest) [] (x :: rest) :=
  (refuses_annotationUse h).many

theorem refuses_typeArguments (h : x.text ≠ "<") :
    Refuses Rule.form 0 (.rule .typeArguments) (x :: rest) :=
  Refuses.rule (refuses_text h).seq.node

theorem refuses_brackets (hat : x.text ≠ "@") (h : x.text ≠ "[") :
    Refuses Rule.form 0 (all [annotations, text "[", text "]"]) (x :: rest) :=
  (skips_annotations hat).nothing_seq_refuses (refuses_text h).seq

theorem refuses_dimensions (hat : x.text ≠ "@") (h : x.text ≠ "[") :
    Refuses Rule.form 0 (.rule .dimensions) (x :: rest) :=
  Refuses.rule (refuses_brackets hat h).seq.node

end

/-! ## Dimensions -/

section

variable {x : Token} {rest : List Token}

theorem takes_sign_seq {s : String} {q : Form} {d : Nat} {input : List Token}
    {us : List SyntaxTree} (hq : Takes Rule.form d q input us rest) (hd : d ≤ depthLimit) :
    Takes Rule.form 0 (.seq (text s) q) (signToken s :: input) (.leaf (signToken s) :: us) rest :=
  takes_token_seq (accepts_text s [] .symbol) hq hd

theorem takes_sign {s : String} :
    Takes Rule.form 0 (text s) (signToken s :: rest) [.leaf (signToken s)] rest :=
  takes_token (accepts_text s [] .symbol)

theorem takes_pair : Takes Rule.form 0 (all [annotations, text "[", text "]"])
    (signToken "[" :: signToken "]" :: rest) [.leaf (signToken "["), .leaf (signToken "]")] rest :=
  (skips_annotations (by decide)).nothing_seq (takes_sign_seq takes_sign (by decide))

theorem takes_pairs (hat : x.text ≠ "@") (h : x.text ≠ "[") (n : Nat) :
    Takes Rule.form 0 (.many (all [annotations, text "[", text "]"])) (bracketTokens n ++ x :: rest)
      ((bracketTokens n).map .leaf) (x :: rest) := by
  induction n with
  | zero => exact (refuses_brackets hat h).many
  | succ n ih => exact takes_pair.many (by simp only [List.length_cons]; omega) ih (by decide)

theorem takes_dimensions (hat : x.text ≠ "@") (h : x.text ≠ "[") {n : Nat} (hn : 1 ≤ n) :
    Takes Rule.form 1 (.rule .dimensions) (bracketTokens n ++ x :: rest) [bracketsTree n]
      (x :: rest) := by
  obtain ⟨n, rfl⟩ : ∃ m, n = m + 1 := ⟨n - 1, by omega⟩
  have hmany : Takes Rule.form 0 (.many (all [annotations, text "[", text "]"]))
      (bracketTokens n ++ x :: rest) ((bracketTokens n).map .leaf) (x :: rest) :=
    takes_pairs hat h n
  have hall := takes_pair.seq (by simp only [List.length_cons]; omega) hmany (by decide)
  exact hall.node.rule

end

/-! ## Names -/

/-- A segment of a name behind the first one. -/
def segment : Form := all [text ".", annotations, anyWord, maybe (.rule .typeArguments)]

section

variable {x : Token} {rest : List Token} {tail : List SyntaxTree}

theorem text_ne_of_isWord {w s : String} (hw : isWord w = true) (hs : isWord s = false) :
    w ≠ s := by
  rintro rfl
  rw [hw] at hs
  contradiction

/-- The segments of a name, with `tail` behind the last of them. The type arguments
that may follow any segment belong to the pattern in front of it. -/
theorem takes_segments (hx : x.text ≠ ".")
    (htail : Takes Rule.form 1 (maybe (.rule .typeArguments))
      (ParseTree.tokensAll tail ++ x :: rest) tail (x :: rest))
    {ws : List String} (hws : ∀ w ∈ ws, isWord w = true) :
    ∃ us mid vs,
      Takes Rule.form 1 (maybe (.rule .typeArguments))
        (dottedTokens ws ++ (ParseTree.tokensAll tail ++ x :: rest)) us mid
      ∧ Takes Rule.form 0 (.many segment) mid vs (x :: rest)
      ∧ us ++ vs = (dottedTokens ws).map .leaf ++ tail := by
  induction ws with
  | nil =>
      have hend : Refuses Rule.form 0 segment (x :: rest) := (refuses_text hx).seq
      exact ⟨tail, x :: rest, [], htail, hend.many, by simp [dottedTokens]⟩
  | cons w ws ih =>
      rw [List.forall_mem_cons] at hws
      obtain ⟨us, mid, vs, hus, hvs, heq⟩ := ih hws.2
      have hat : (wordToken [] w).text ≠ "@" := text_ne_of_isWord hws.1 (by decide)
      have hword : Takes Rule.form 0 (.seq anyWord (maybe (.rule .typeArguments)))
          (wordToken [] w :: (dottedTokens ws ++ (ParseTree.tokensAll tail ++ x :: rest)))
          (.leaf (wordToken [] w) :: us) mid := takes_token_seq rfl hus (by decide)
      have hsegment : Takes Rule.form 0 segment
          (signToken "." :: wordToken [] w
            :: (dottedTokens ws ++ (ParseTree.tokensAll tail ++ x :: rest)))
          (.leaf (signToken ".") :: .leaf (wordToken [] w) :: us) mid :=
        takes_sign_seq ((skips_annotations hat).nothing_seq hword) (by decide)
      have hlen := hus.length_le
      have hmany := hsegment.many (by simp only [List.length_cons]; omega) hvs (by decide)
      have hdot : (signToken ".").text ≠ "<" := by decide
      refine ⟨[], _, _, ((refuses_typeArguments hdot).maybe).mono (Nat.zero_le 1), hmany, ?_⟩
      simp only [dottedTokens, List.flatMap_cons, List.cons_append, List.nil_append, List.map_cons,
        List.cons.injEq, true_and]
      exact heq

/-- A name, with `tail` behind it. -/
theorem takes_namedType (place : Place) (lead : List Lexeme) (hx : x.text ≠ ".")
    (htail : Takes Rule.form 1 (maybe (.rule .typeArguments))
      (ParseTree.tokensAll tail ++ x :: rest) tail (x :: rest))
    {name : String} (hname : IsDotted name)
    (hfirst : ∀ w ws, segments name = w :: ws → w ∉ place.reserved) :
    Takes Rule.form 0 (namedType place)
      (ParseTree.tokensAll (nameTrees lead name ++ tail) ++ x :: rest)
      (nameTrees lead name ++ tail) (x :: rest) := by
  obtain ⟨w, ws, hs, -⟩ := exists_segments name
  have hwords : ∀ v ∈ ws, isWord v = true := fun v hv => hname v (by simp [hs, hv])
  obtain ⟨us, mid, vs, hus, hvs, heq⟩ := takes_segments hx htail hwords
  have haccepts : (Terminal.word place.reserved).accepts (wordToken lead w) = true := by
    simp [Terminal.accepts, wordToken, hfirst w ws hs]
  have hmore := hus.followed (hvs.mono (Nat.zero_le 1)) (by decide)
  have hall := takes_token_seq haccepts hmore (by decide)
  rw [heq] at hall
  rw [nameTrees, hs, ParseTree.tokensAll_append, ParseTree.tokensAll_map_leaf, nameTokens,
    List.map_cons, List.cons_append, List.cons_append, List.append_assoc]
  exact hall

end

/-! ## Lists with commas -/

section

variable {d : Nat} {p : Form} {ends : Token → Prop} {x : Token} {rest : List Token}
  {us : List SyntaxTree}

theorem tokensAll_afterCommas_cons (u : SyntaxTree) (us : List SyntaxTree) :
    ParseTree.tokensAll (afterCommas (u :: us))
      = signToken "," :: (u.tokens ++ ParseTree.tokensAll (afterCommas us)) := by
  simp [afterCommas, ParseTree.tokensAll, signLeaf, ParseTree.tokens]

/-- The token behind a tree in a list: a comma, or what follows the list. -/
theorem exists_tokensAll_afterCommas_eq (hcomma : ends (signToken ",")) (hx : ends x)
    (us : List SyntaxTree) (rest : List Token) :
    ∃ y ys, ParseTree.tokensAll (afterCommas us) ++ x :: rest = y :: ys ∧ ends y := by
  cases us with
  | nil => exact ⟨x, rest, rfl, hx⟩
  | cons u us =>
      rw [tokensAll_afterCommas_cons, List.cons_append]
      exact ⟨_, _, rfl, hcomma⟩

/-- A list goes on with a comma and a tree, if the pattern takes each tree in front
of a comma and in front of what follows the list. -/
theorem takes_afterCommas (hd : d ≤ depthLimit) (hcomma : ends (signToken ",")) (hx : ends x)
    (hne : x.text ≠ ",")
    (hus : ∀ u ∈ us, ∀ y ys, ends y → Takes Rule.form d p (u.tokens ++ y :: ys) [u] (y :: ys)) :
    Takes Rule.form 0 (.many (.seq (text ",") p))
      (ParseTree.tokensAll (afterCommas us) ++ x :: rest) (afterCommas us) (x :: rest) := by
  induction us with
  | nil => exact ((refuses_text hne).seq).many
  | cons u us ih =>
      rw [List.forall_mem_cons] at hus
      have hmore := ih hus.2
      obtain ⟨y, ys, heq, hy⟩ := exists_tokensAll_afterCommas_eq hcomma hx us rest
      rw [heq] at hmore
      have hone := takes_sign_seq (s := ",") (hus.1 y ys hy) hd
      have hlen : (y :: ys).length < (signToken "," :: (u.tokens ++ y :: ys)).length := by
        simp only [List.length_cons, List.length_append]
        omega
      rw [tokensAll_afterCommas_cons, List.cons_append, List.append_assoc, heq]
      exact hone.many hlen hmore (by decide)

/-- Trees with commas between them, at least one. -/
theorem takes_separated {u : SyntaxTree} (hd : d ≤ depthLimit) (hcomma : ends (signToken ","))
    (hx : ends x) (hne : x.text ≠ ",")
    (hus : ∀ u' ∈ u :: us, ∀ y ys, ends y →
      Takes Rule.form d p (u'.tokens ++ y :: ys) [u'] (y :: ys)) :
    Takes Rule.form d (separated "," p) (ParseTree.tokensAll (withCommas (u :: us)) ++ x :: rest)
      (withCommas (u :: us)) (x :: rest) := by
  rw [List.forall_mem_cons] at hus
  obtain ⟨y, ys, heq, hy⟩ := exists_tokensAll_afterCommas_eq hcomma hx us rest
  have hmore : Takes Rule.form 0 (.many (.seq (text ",") p)) (y :: ys) (afterCommas us)
      (x :: rest) := by
    rw [← heq]
    exact takes_afterCommas hd hcomma hx hne hus.2
  rw [withCommas, ParseTree.tokensAll, List.append_assoc, heq]
  exact (hus.1 y ys hy).followed (hmore.mono (Nat.zero_le d)) hd

end

/-! ## Types -/

/-- Can the token stand behind a type? -/
def EndsType (x : Token) : Prop := x.text ∉ [".", "<", "[", "@", "extends", "super"]

instance : DecidablePred EndsType := fun x =>
  inferInstanceAs (Decidable (x.text ∉ [".", "<", "[", "@", "extends", "super"]))

/-- A type argument. -/
def argument : Form := any [wildcard, .rule (.anyType .plain)]

theorem endsType_comma : EndsType (signToken ",") := by decide

theorem endsType_greater : EndsType (signToken ">") := by decide

section

variable {place : Place} {lead : List Lexeme} {x : Token} {rest : List Token}

theorem refuses_wildcard (hat : x.text ≠ "@") (h : x.text ≠ "?") :
    Refuses Rule.form 0 wildcard (x :: rest) :=
  ((skips_annotations hat).nothing_seq_refuses (refuses_text h).seq).node

/-- Without annotations in front, a type is read as it is. -/
theorem refuses_annotated (hat : x.text ≠ "@") :
    Refuses Rule.form 0 (.node .annotated (.seq (oneOrMore (.rule .annotationUse))
      (.rule (.type .plain)))) (x :: rest) :=
  (refuses_annotationUse hat).seq.seq.node

/-- Of the symbols only the question mark and the sign of an annotation begin a type
argument. -/
theorem refuses_argument {s : String} (hs : s ∉ primitiveTypes) (hsign : s ∉ ["@", "?"]) :
    Refuses Rule.form 0 argument (signToken s :: rest) := by
  simp only [List.mem_cons, List.not_mem_nil, or_false, not_or] at hsign
  have hprimitive : (Terminal.oneOf primitiveTypes).accepts (signToken s) = false := by
    simpa [Terminal.accepts, signToken] using hs
  have htype : Refuses Rule.form 0 (.rule (.type .plain)) (signToken s :: rest) :=
    Refuses.rule ((refuses_token hprimitive).choice (refuses_token rfl).seq).node.seq.node
  have hany : Refuses Rule.form 0 (.rule (.anyType .plain)) (signToken s :: rest) :=
    Refuses.rule ((refuses_annotated hsign.1).choice htype)
  exact (refuses_wildcard hsign.1 hsign.2).choice hany

/-- A primitive type is one word. -/
theorem takes_primitive {name : String} (h : name ∈ primitiveTypes) :
    Takes Rule.form 0 (simpleType place)
      (ParseTree.tokensAll (nameTrees lead name) ++ x :: rest)
      [.node .named (nameTrees lead name)] (x :: rest) := by
  have hself : ∀ name ∈ primitiveTypes, segments name = [name] := by decide
  have haccepts : (Terminal.oneOf primitiveTypes).accepts (wordToken lead name) = true := by
    simpa [Terminal.accepts, wordToken] using h
  have htake : Takes Rule.form 0 (.token (.oneOf primitiveTypes)) (wordToken lead name :: x :: rest)
      [.leaf (wordToken lead name)] (x :: rest) := takes_token haccepts
  rw [nameTrees, hself name h, ParseTree.tokensAll_map_leaf]
  exact htake.choice_left.node

/-- The names of primitive types name no other type anywhere. -/
theorem mem_reserved_of_primitive (place : Place) : ∀ w ∈ primitiveTypes, w ∈ place.reserved := by
  cases place <;> decide

/-- A name that is reserved for nothing else, with `tail` behind it. -/
theorem takes_reference (place : Place) (lead : List Lexeme) {name : String} (h : IsDotted name)
    (hfirst : ∀ w ws, segments name = w :: ws → w ∉ place.reserved) (hdot : x.text ≠ ".")
    {tail : List SyntaxTree}
    (htail : Takes Rule.form 1 (maybe (.rule .typeArguments))
      (ParseTree.tokensAll tail ++ x :: rest) tail (x :: rest)) :
    Takes Rule.form 0 (simpleType place)
      (ParseTree.tokensAll (nameTrees lead name ++ tail) ++ x :: rest)
      [.node .named (nameTrees lead name ++ tail)] (x :: rest) := by
  obtain ⟨w, ws, hs, -⟩ := exists_segments name
  have htokens : ParseTree.tokensAll (nameTrees lead name ++ tail)
      = wordToken lead w :: (dottedTokens ws ++ ParseTree.tokensAll tail) := by
    rw [nameTrees, hs, ParseTree.tokensAll_append, ParseTree.tokensAll_map_leaf, nameTokens,
      List.cons_append]
  have hno : (Terminal.oneOf primitiveTypes).accepts (wordToken lead w) = false := by
    have hmem : w ∉ primitiveTypes := fun hw =>
      hfirst w ws hs (mem_reserved_of_primitive place w hw)
    simpa [Terminal.accepts, wordToken] using hmem
  have hname := takes_namedType place lead hdot htail h hfirst
  rw [htokens, List.cons_append] at hname ⊢
  exact (Takes.choice_right (refuses_token hno) hname).node

/-- Type arguments, if each of them is taken. -/
theorem takes_typeArguments {args : List TypeRef}
    (h : ∀ a ∈ args, ∀ y ys, EndsType y →
      Takes Rule.form 3 argument ((typeTree [] a).tokens ++ y :: ys) [typeTree [] a] (y :: ys)) :
    Takes Rule.form 1 (.rule .typeArguments) (argumentTokens args ++ x :: rest)
      [argumentsTree (argumentTrees args)] (x :: rest) := by
  have hlist : Takes Rule.form 3 (commaSeparated argument)
      (ParseTree.tokensAll (withCommas (argumentTrees args)) ++ signToken ">" :: x :: rest)
      (withCommas (argumentTrees args)) (signToken ">" :: x :: rest) := by
    rw [argumentTrees_eq_map]
    cases args with
    | nil => exact ((refuses_argument (by decide) (by decide)).seq.maybe).mono (Nat.zero_le 3)
    | cons a as =>
        refine (takes_separated (by decide) endsType_comma endsType_greater (by decide) ?_).maybe
        rw [← List.map_cons]
        exact List.forall_mem_map.mpr h
  have hend : Takes Rule.form 3 (text ">") (signToken ">" :: x :: rest) [signLeaf ">"]
      (x :: rest) := takes_sign.mono (Nat.zero_le 3)
  rw [argumentTokens, argumentsTree, List.cons_append, List.append_assoc]
  exact (takes_sign_seq (hlist.followed hend (by decide)) (by decide)).node.rule

end

section

variable {x : Token}

theorem EndsType.ne_of_mem (hx : EndsType x) {s : String}
    (hs : s ∈ [".", "<", "[", "@", "extends", "super"]) : x.text ≠ s := by
  rintro rfl
  exact hx hs

end

/-- The bound of a wildcard. -/
def bound : Form := maybe (.seq (.token (.oneOf ["extends", "super"])) (.rule (.anyType .plain)))

/-- A question mark and the bound behind it are an argument. -/
theorem takes_question (lead : List Lexeme) {d : Nat} {input ys : List Token} {ts : List SyntaxTree}
    (h : Takes Rule.form d bound input ts ys) (hd : d ≤ depthLimit) :
    Takes Rule.form 0 argument (⟨lead, .symbol, "?"⟩ :: input)
      [.node .wildcard (.leaf ⟨lead, .symbol, "?"⟩ :: ts)] ys := by
  have hat : "?" ≠ "@" := by decide
  have hquestion := takes_token_seq (accepts_text "?" lead .symbol) h hd
  exact ((skips_annotations hat).nothing_seq hquestion).node.choice_left

/-- A type argument that is a type is no wildcard, and has no annotations in front. -/
theorem takes_whole {t : TypeRef} {lead : List Lexeme} {x : Token} {rest : List Token}
    (htype : Takes Rule.form 2 (.rule (.type .plain)) ((typeTree lead t).tokens ++ x :: rest)
      [typeTree lead t] (x :: rest)) (h : IsWrittenAsType .plain t) :
    Refuses Rule.form 0 wildcard ((typeTree lead t).tokens ++ x :: rest)
      ∧ Takes Rule.form 3 (.rule (.anyType .plain)) ((typeTree lead t).tokens ++ x :: rest)
        [typeTree lead t] (x :: rest) := by
  obtain ⟨w, more, hwritten, hbegins, -⟩ := h
  have hword : isWord w = true := isWord_of_beginsType hbegins
  have hat : w ≠ "@" := text_ne_of_isWord hword (by decide)
  have hquestion : w ≠ "?" := text_ne_of_isWord hword (by decide)
  have htokens : (typeTree lead t).tokens ++ x :: rest
      = ⟨lead, .word, w⟩ :: (more ++ x :: rest) := by
    rw [hwritten.tokens, List.cons_append]
  rw [htokens] at htype ⊢
  exact ⟨refuses_wildcard hat hquestion,
    (Takes.choice_right ((refuses_annotated hat).mono (Nat.zero_le 2)) htype).rule⟩

/-- A type without dimensions, in front of no brackets. -/
theorem takes_plainType {place : Place} {u : SyntaxTree} {x : Token} {rest : List Token}
    (hx : EndsType x)
    (h : Takes Rule.form 0 (simpleType place) (u.tokens ++ x :: rest) [u] (x :: rest)) :
    Takes Rule.form 2 (.rule (.type place)) ((ParseTree.node .type [u]).tokens ++ x :: rest)
      [.node .type [u]] (x :: rest) := by
  have hnone : Takes Rule.form 1 (maybe (.rule .dimensions)) (x :: rest) [] (x :: rest) :=
    (refuses_dimensions (hx.ne_of_mem (by simp)) (hx.ne_of_mem (by simp))).maybe.mono
      (Nat.zero_le 1)
  rw [ParseTree.tokens, ParseTree.tokensAll, ParseTree.tokensAll, List.append_nil]
  exact ((h.mono (Nat.zero_le 1)).followed hnone (by decide)).node.rule

mutual

theorem takes_element (place : Place) (lead : List Lexeme) {x : Token} (rest : List Token)
    (hdot : x.text ≠ ".") (hless : x.text ≠ "<") :
    {t : TypeRef} → t.IsElement → {u : SyntaxTree} → typeTree lead t = .node .type [u] →
      Takes Rule.form 0 (simpleType place) (u.tokens ++ x :: rest) [u] (x :: rest)
  | .raw name, .primitive h, u, hu => by
      simp only [typeTree, ParseTree.node.injEq, List.cons.injEq, true_and, and_true] at hu
      rw [← hu, ParseTree.tokens]
      exact takes_primitive h
  | .raw name, .named h, u, hu => by
      have hnone : Takes Rule.form 1 (maybe (.rule .typeArguments))
          (ParseTree.tokensAll ([] : List SyntaxTree) ++ x :: rest) [] (x :: rest) :=
        (refuses_typeArguments hless).maybe.mono (Nat.zero_le 1)
      have hname := takes_reference place lead (isDotted_of_isTypeName h)
        (fun _ _ => notMem_reserved_of_isTypeName place h) hdot hnone
      simp only [typeTree, ParseTree.node.injEq, List.cons.injEq, true_and, and_true] at hu
      rw [List.append_nil] at hname
      rw [← hu, ParseTree.tokens]
      exact hname
  | .generic (.raw name) args, .generic h hargs, u, hu => by
      have hargs' : ∀ a ∈ args, ∀ y ys, EndsType y →
          Takes Rule.form 3 argument ((typeTree [] a).tokens ++ y :: ys) [typeTree [] a]
            (y :: ys) := fun a ha y ys hy => takes_argument [] ys hy (hargs a ha)
      have htail : ParseTree.tokensAll [argumentsTree (argumentTrees args)]
          = argumentTokens args := by
        rw [ParseTree.tokensAll, tokens_argumentsTree]
        exact List.append_nil _
      have hsome : Takes Rule.form 1 (maybe (.rule .typeArguments))
          (ParseTree.tokensAll [argumentsTree (argumentTrees args)] ++ x :: rest)
          [argumentsTree (argumentTrees args)] (x :: rest) := by
        rw [htail]
        exact (takes_typeArguments hargs').maybe
      simp only [typeTree, TypeRef.render, ParseTree.node.injEq, List.cons.injEq, true_and,
        and_true] at hu
      rw [← hu, ParseTree.tokens]
      exact takes_reference place lead (isDotted_of_isTypeName h)
        (fun _ _ => notMem_reserved_of_isTypeName place h) hdot hsome

/-- **The grammar reads a canonical type as its tree.** -/
theorem takes_typeTree (place : Place) (lead : List Lexeme) {x : Token} (rest : List Token)
    (hx : EndsType x) : {t : TypeRef} → t.IsCanonical →
      Takes Rule.form 2 (.rule (.type place)) ((typeTree lead t).tokens ++ x :: rest)
        [typeTree lead t] (x :: rest)
  | t, .element h => by
      obtain ⟨u, hu⟩ := exists_typeTree_eq h
      rw [hu]
      exact takes_plainType hx (takes_element place lead rest (hx.ne_of_mem (by simp))
        (hx.ne_of_mem (by simp)) h (hu lead))
  | .array e n, .array h hn => by
      obtain ⟨u, hu⟩ := exists_typeTree_eq h
      obtain ⟨n, rfl⟩ : ∃ m, n = m + 1 := ⟨n - 1, by omega⟩
      have helement : Takes Rule.form 1 (simpleType place)
          ((u lead).tokens ++ (bracketTokens (n + 1) ++ x :: rest)) [u lead]
          (bracketTokens (n + 1) ++ x :: rest) :=
        (takes_element place lead _ (by decide) (by decide) h (hu lead)).mono (Nat.zero_le 1)
      have hsome : Takes Rule.form 1 (maybe (.rule .dimensions))
          (bracketTokens (n + 1) ++ x :: rest) [bracketsTree (n + 1)] (x :: rest) :=
        (takes_dimensions (hx.ne_of_mem (by simp)) (hx.ne_of_mem (by simp)) hn).maybe
      have htokens : (typeTree lead (.array e (n + 1))).tokens
          = (u lead).tokens ++ bracketTokens (n + 1) := by
        simp [typeTree, hu, ParseTree.children, ParseTree.tokens, ParseTree.tokensAll, bracketsTree,
          ParseTree.tokensAll_map_leaf]
      rw [htokens, List.append_assoc, typeTree, hu]
      exact (helement.followed hsome (by decide)).node.rule

theorem takes_argument (lead : List Lexeme) {x : Token} (rest : List Token) (hx : EndsType x) :
    {t : TypeRef} → t.IsArgument →
      Takes Rule.form 3 argument ((typeTree lead t).tokens ++ x :: rest) [typeTree lead t]
        (x :: rest)
  | _, .type h => by
      obtain ⟨hwildcard, hany⟩ := takes_whole (takes_typeTree .plain lead rest hx h)
        (isWritten_of_isCanonical .plain h)
      exact Takes.choice_right (hwildcard.mono (Nat.zero_le 3)) hany
  | _, .unbounded => by
      have hupper : x.text ≠ "extends" := hx.ne_of_mem (by simp)
      have hlower : x.text ≠ "super" := hx.ne_of_mem (by simp)
      have hword : (Terminal.oneOf ["extends", "super"]).accepts x = false := by
        simp [Terminal.accepts, hupper, hlower]
      have hnone : Takes Rule.form 0 bound (x :: rest) [] (x :: rest) :=
        (refuses_token hword).seq.maybe
      rw [typeTree]
      exact (takes_question lead hnone (by decide)).mono (Nat.zero_le 3)
  | .wildcard (some b) isUpper, .bounded h _ => by
      obtain ⟨-, hany⟩ := takes_whole (takes_typeTree .plain space rest hx h)
        (isWritten_of_isCanonical .plain h)
      have hword : (Terminal.oneOf ["extends", "super"]).accepts
          (wordToken space (boundWord isUpper)) = true := by
        cases isUpper <;> rfl
      have hsome : Takes Rule.form 0 bound
          (wordToken space (boundWord isUpper) :: ((typeTree space b).tokens ++ x :: rest))
          [.leaf (wordToken space (boundWord isUpper)), typeTree space b] (x :: rest) :=
        (takes_token_seq hword hany (by decide)).maybe
      have htake := (takes_question lead hsome (by decide)).mono (Nat.zero_le 3)
      simpa [typeTree, ParseTree.tokens, ParseTree.tokensAll] using htake

end

end JavaOutline
