import JavaOutline.Proofs.AkinTokens
import JavaOutline.Proofs.TreeMeaning

/-!
# JavaOutline.Proofs.Comments

Where comments may stand without a trace.

Comments are part of what stands in front of a token (its lead). Adding some between tokens
leaves tokens that are akin, so the file is read again, to trees of the same shape.
What is read off the trees may see a comment only inside of the nodes whose text or whose
children are taken as a whole: names, types, dimensions, clauses, and parameters of variable
arity (`readsComments`). `quiet` takes away all leads but those inside such a node, that in
front of its first token apart; a tree says the same afterwards (`saysSame_quiet`). So the
types are the same as long as the tokens that are left (`heardTokens?`) are
(`exists_parse_of_akin`). Inside of a type a comment may be taken for a part of it
(`comment_among_arguments_counts`).
-/

namespace JavaOutline.Structure

open Grammar Source ParseTree

/-! ## Trees without the comments that nobody reads -/

mutual
/-- A tree with nothing in front of its first token, if it begins with a token. -/
def bareFirst : SyntaxTree → SyntaxTree
  | .leaf t => .leaf (bareToken t)
  | .node label ts => .node label (bareFirstAll ts)

/-- Trees with nothing in front of the first token, if they begin with one. -/
def bareFirstAll : List SyntaxTree → List SyntaxTree
  | [] => []
  | t :: ts => bareFirst t :: ts
end

/-- Do comments inside a node of the label count only inside of its children? -/
def isReadByParts (label : Label) : Bool :=
  isRead label || label == .annotationUse || label == .parameters || label == .parameter

/-- Do comments between the tokens of a node of the label count? -/
def readsComments : Label → Bool
  | .identifier | .name | .type | .dimensions | .spread | .superclass | .superinterfaces
  | .interfaces | .throws => true
  | _ => false

mutual
/-- A tree without the leads of tokens that nothing is read from. -/
def quiet : SyntaxTree → SyntaxTree
  | .leaf t => .leaf (bareToken t)
  | .node label ts =>
    if isReadByParts label then .node label (quietAll ts)
    else if readsComments label then .node label (bareFirstAll ts)
    else .node label (mapAll bareToken ts)

/-- Trees without the leads of tokens that nothing is read from. -/
def quietAll : List SyntaxTree → List SyntaxTree
  | [] => []
  | t :: ts => quiet t :: quietAll ts
end

/-! ## The first token -/

/-- The second tokens are the first ones, but for what stands in front of them. -/
def SameButFirst (us vs : List Token) : Prop :=
  vs = us ∨ ∃ a ws, us = a :: ws ∧ vs = bareToken a :: ws

theorem SameButFirst.append {us vs : List Token} (h : SameButFirst us vs) (ws : List Token) :
    SameButFirst (us ++ ws) (vs ++ ws) := by
  rcases h with rfl | ⟨a, xs, rfl, rfl⟩
  · exact .inl rfl
  · exact .inr ⟨a, xs ++ ws, rfl, rfl⟩

theorem SameButFirst.spell_eq {us vs : List Token} (h : SameButFirst us vs)
    (between : Token → String) : spell between vs = spell between us := by
  rcases h with rfl | ⟨a, ws, rfl, rfl⟩ <;> rfl

mutual
theorem sameButFirst_bareFirst : (t : SyntaxTree) → SameButFirst t.tokens (bareFirst t).tokens
  | .leaf t => .inr ⟨t, [], rfl, rfl⟩
  | .node _ ts => sameButFirst_bareFirstAll ts

theorem sameButFirst_bareFirstAll : (ts : List SyntaxTree) →
    SameButFirst (tokensAll ts) (tokensAll (bareFirstAll ts))
  | [] => .inl rfl
  | t :: ts => (sameButFirst_bareFirst t).append (tokensAll ts)
end

theorem sourceText_bareFirstAll (ts : List SyntaxTree) :
    sourceText (bareFirstAll ts) = sourceText ts :=
  (sameButFirst_bareFirstAll ts).spell_eq Token.leadText

theorem compactText_bareFirstAll (ts : List SyntaxTree) :
    compactText (bareFirstAll ts) = compactText ts :=
  congrArg compact ((sameButFirst_bareFirstAll ts).spell_eq _)

theorem bracketCount_bareFirstAll (ts : List SyntaxTree) :
    bracketCount (bareFirstAll ts) = bracketCount ts := by
  rw [bracketCount, bracketCount, sourceText_bareFirstAll]

theorem dropLast_bareFirstAll (ts : List SyntaxTree) :
    (bareFirstAll ts).dropLast = bareFirstAll ts.dropLast := by
  match ts with
  | [] | [_] | _ :: _ :: _ => rfl

/-- Type arguments do not begin with their first token. -/
theorem finalArguments?_bareFirstAll (ts : List SyntaxTree) :
    finalArguments? (bareFirstAll ts) = finalArguments? ts := by
  match ts with
  | [] | [.leaf _] => rfl
  | [.node label us] =>
      cases label
      case typeArguments => cases us <;> rfl
      all_goals rfl
  | _ :: _ :: _ => simp [bareFirstAll, finalArguments?]

theorem isText_bareFirst (s : String) (t : SyntaxTree) : isText s (bareFirst t) = isText s t := by
  cases t <;> rfl

mutual
/-- What stands in front of a type is no part of it. -/
theorem typeOf_bareFirst : (t : SyntaxTree) → typeOf (bareFirst t) = typeOf t
  | .leaf t => rfl
  | .node label ts => by
      have hplain : TypeRef.raw (compactText [bareFirst (.node label ts)])
          = .raw (compactText [.node label ts]) :=
        congrArg TypeRef.raw (compactText_bareFirstAll [.node label ts])
      cases label
      case type =>
        cases ts with
        | nil => exact hplain
        | cons element brackets =>
            exact congrArg (TypeRef.arrayOf · (bracketCount brackets)) (typeOf_bareFirst element)
      case annotated => exact lastType_bareFirstAll ts
      case wildcard =>
        cases ts with
        | nil => exact hplain
        | cons first ts =>
            rw [bareFirst, bareFirstAll, typeOf, typeOf, List.any_cons, List.any_cons,
              isText_bareFirst]
      case named =>
        rw [bareFirst, typeOf, typeOf, finalArguments?_bareFirstAll, dropLast_bareFirstAll,
          compactText_bareFirstAll, compactText_bareFirstAll]
      all_goals exact hplain

theorem lastType_bareFirstAll : (ts : List SyntaxTree) → lastType (bareFirstAll ts) = lastType ts
  | [] => rfl
  | [t] => typeOf_bareFirst t
  | _ :: _ :: _ => rfl
end

/-! ## Parameters and clauses -/

theorem clauseTypes_bareFirstAll (ts : List SyntaxTree) :
    clauseTypes (bareFirstAll ts) = clauseTypes ts := by
  cases ts <;> rfl

/-- What is inside a node is there with or without what stands in front of the first token. -/
theorem inside_bareFirstAll (label : Label) (ts : List SyntaxTree) :
    inside label (bareFirstAll ts) = inside label ts
      ∨ inside label (bareFirstAll ts) = bareFirstAll (inside label ts) := by
  match ts with
  | [] | .leaf _ :: _ => exact .inl rfl
  | .node l us :: ts =>
      by_cases hl : l = label
      · right
        simp [inside, inside?, bareFirstAll, bareFirst, hl]
      · left
        simp [inside, inside?, bareFirstAll, bareFirst, hl]

theorem nameIn_bareFirstAll (ts : List SyntaxTree) : nameIn (bareFirstAll ts) = nameIn ts := by
  rcases inside_bareFirstAll .identifier ts with h | h
  · rw [nameIn, h, nameIn]
  · rw [nameIn, h, sourceText_bareFirstAll, nameIn]

/-- A comment in front of a parameter of variable arity is no part of it. -/
theorem spreadType_bareFirstAll (ts : List SyntaxTree) :
    spreadType (bareFirstAll ts) = spreadType ts := by
  match ts with
  | [] => rfl
  | [.leaf t] | .leaf t :: _ :: _ => exact typeOf_bareFirst (.leaf t)
  | [.node label us] => cases label <;> exact typeOf_bareFirst (.node _ us)
  | .node label us :: t :: _ =>
      cases label
      case modifiers => rfl
      all_goals exact typeOf_bareFirst (.node _ us)

theorem spread_bareFirstAll (ts : List SyntaxTree) :
    parameter? (.node .spread (bareFirstAll ts)) = parameter? (.node .spread ts) := by
  have hname : nameIn (inside .variable (bareFirstAll ts)) = nameIn (inside .variable ts) := by
    rcases inside_bareFirstAll .variable ts with h | h
    · rw [h]
    · rw [h, nameIn_bareFirstAll]
  rw [parameter?, parameter?, hname, spreadType_bareFirstAll]

/-! ## What quiet trees say -/

theorem quiet_parts {label : Label} (h : isReadByParts label = true) (ts : List SyntaxTree) :
    quiet (.node label ts) = .node label (quietAll ts) := by
  rw [quiet, if_pos h]

theorem quiet_reads {label : Label} (hparts : isReadByParts label = false)
    (h : readsComments label = true) (ts : List SyntaxTree) :
    quiet (.node label ts) = .node label (bareFirstAll ts) := by
  rw [quiet, if_neg (by simp [hparts]), if_pos h]

theorem quiet_plain {label : Label} (hparts : isReadByParts label = false)
    (h : readsComments label = false) (ts : List SyntaxTree) :
    quiet (.node label ts) = .node label (mapAll bareToken ts) := by
  rw [quiet, if_neg (by simp [hparts]), if_neg (by simp [h])]

/-- A node stays a node of its label. -/
theorem exists_quiet_eq (label : Label) (ts : List SyntaxTree) :
    ∃ us, quiet (.node label ts) = .node label us := by
  rw [quiet]
  split
  · exact ⟨_, rfl⟩
  · split <;> exact ⟨_, rfl⟩

theorem inside?_name_quietAll (ts : List SyntaxTree) :
    inside? .name (quietAll ts) = (inside? .name ts).map bareFirstAll := by
  induction ts with
  | nil => rfl
  | cons t ts ih =>
      simp only [inside?] at ih ⊢
      rw [quietAll, List.findSome?_cons, List.findSome?_cons, ih]
      cases t with
      | leaf => rfl
      | node label us =>
          by_cases hname : label = .name
          · rw [hname, quiet_reads rfl rfl]
            rfl
          · obtain ⟨vs, hvs⟩ := exists_quiet_eq label us
            simp [hvs, hname]

/-- The name of an annotation. -/
theorem compactText_name_quietAll (ts : List SyntaxTree) :
    compactText (inside .name (quietAll ts)) = compactText (inside .name ts) := by
  rw [inside, inside, inside?_name_quietAll]
  cases inside? .name ts with
  | none => rfl
  | some us => exact compactText_bareFirstAll us

/-- A node that is read as a whole says the same without what stands in front of it. -/
theorem sameContent_bareFirstAll (label : Label) (hlabel : readsComments label = true)
    (ts : List SyntaxTree) : SameContent label ts (bareFirstAll ts) := by
  cases label
  case identifier => exact (sourceText_bareFirstAll ts).symm
  case type => exact (typeOf_bareFirst (.node .type ts)).symm
  case dimensions => exact (bracketCount_bareFirstAll ts).symm
  case superclass | superinterfaces | interfaces | throws =>
    exact (clauseTypes_bareFirstAll ts).symm
  case name | spread => trivial
  all_goals contradiction

mutual
/-- **A tree says the same without the comments that nobody reads.** -/
theorem saysSame_quiet : (t : SyntaxTree) → SaysSame t (quiet t)
  | .leaf t => .leaf rfl
  | .node label ts => by
      have hall := allSaySame_quietAll ts
      have hparameters := filterMap_parameter?_quietAll ts
      cases hparts : isReadByParts label with
      | true =>
          rw [quiet_parts hparts]
          cases hread : isRead label with
          | true => exact .read hread hall
          | false =>
              refine .content hread ?_
              cases label
              case annotationUse => exact (compactText_name_quietAll ts).symm
              case parameters => exact hparameters.symm
              case parameter => trivial
              all_goals contradiction
      | false =>
          have hread : isRead label = false := by
            simp only [isReadByParts, Bool.or_eq_false_iff] at hparts
            exact hparts.1.1.1
          cases hreads : readsComments label with
          | true =>
              rw [quiet_reads hparts hreads]
              exact .content hread (sameContent_bareFirstAll label hreads ts)
          | false =>
              rw [quiet_plain hparts hreads]
              refine .content hread ?_
              cases label <;> trivial

theorem allSaySame_quietAll : (ts : List SyntaxTree) → AllSaySame ts (quietAll ts)
  | [] => .nil
  | t :: ts => .cons (saysSame_quiet t) (allSaySame_quietAll ts)

theorem parameter?_quiet : (t : SyntaxTree) → parameter? (quiet t) = parameter? t
  | .leaf t => rfl
  | .node label ts => by
      have hall := allSaySame_quietAll ts
      cases label
      case parameter =>
        rw [quiet_parts rfl, parameter?, parameter?, hall.nameIn_eq, hall.typeIn_eq,
          hall.dimensionsIn_eq]
      case spread => rw [quiet_reads rfl rfl, spread_bareFirstAll]
      all_goals rfl

theorem filterMap_parameter?_quietAll : (ts : List SyntaxTree) →
    (quietAll ts).filterMap parameter? = ts.filterMap parameter?
  | [] => rfl
  | t :: ts => by
      rw [quietAll, List.filterMap_cons, List.filterMap_cons, parameter?_quiet t,
        filterMap_parameter?_quietAll ts]
end

/-- What a file declares can be read off its trees without the comments that nobody reads. -/
theorem types_unitOf_quietAll (ts : List SyntaxTree) :
    (unitOf (quietAll ts)).types = (unitOf ts).types := by
  rw [unitOf, unitOf, (allSaySame_quietAll ts).members_eq]

/-! ## The tokens of quiet trees -/

mutual
theorem map_bareFirst : (t : SyntaxTree) → (bareFirst t).map bareToken = t.map bareToken
  | .leaf _ => rfl
  | .node label ts => congrArg (ParseTree.node label) (mapAll_bareFirstAll ts)

theorem mapAll_bareFirstAll : (ts : List SyntaxTree) →
    mapAll bareToken (bareFirstAll ts) = mapAll bareToken ts
  | [] => rfl
  | t :: ts => congrArg (· :: mapAll bareToken ts) (map_bareFirst t)
end

mutual
theorem map_bareToken_idem : (t : SyntaxTree) →
    (t.map bareToken).map bareToken = t.map bareToken
  | .leaf _ => rfl
  | .node label ts => congrArg (ParseTree.node label) (mapAll_bareToken_idem ts)

theorem mapAll_bareToken_idem : (ts : List SyntaxTree) →
    mapAll bareToken (mapAll bareToken ts) = mapAll bareToken ts
  | [] => rfl
  | t :: ts => by
      rw [mapAll, mapAll, map_bareToken_idem t, mapAll_bareToken_idem ts]
end

mutual
/-- A tree keeps its shape. -/
theorem map_quiet : (t : SyntaxTree) → (quiet t).map bareToken = t.map bareToken
  | .leaf _ => rfl
  | .node label ts => by
      rw [quiet]
      split
      · exact congrArg (ParseTree.node label) (mapAll_quietAll ts)
      · split
        · exact congrArg (ParseTree.node label) (mapAll_bareFirstAll ts)
        · exact congrArg (ParseTree.node label) (mapAll_bareToken_idem ts)

theorem mapAll_quietAll : (ts : List SyntaxTree) →
    mapAll bareToken (quietAll ts) = mapAll bareToken ts
  | [] => rfl
  | t :: ts => by rw [quietAll, mapAll, mapAll, map_quiet t, mapAll_quietAll ts]
end

mutual
/-- A tree is determined by its shape and its tokens. -/
theorem eq_of_map_bareToken_eq : (t u : SyntaxTree) → t.map bareToken = u.map bareToken →
    t.tokens = u.tokens → t = u
  | .leaf _, .leaf _, _, htokens => by rw [List.singleton_inj.mp htokens]
  | .node label ts, .node label' us, hshape, htokens => by
      obtain ⟨rfl, hchildren⟩ := ParseTree.node.inj hshape
      rw [eq_of_mapAll_bareToken_eq ts us hchildren htokens]
  | .leaf _, .node _ _, hshape, _ => by contradiction
  | .node _ _, .leaf _, hshape, _ => by contradiction

theorem eq_of_mapAll_bareToken_eq : (ts us : List SyntaxTree) →
    mapAll bareToken ts = mapAll bareToken us → tokensAll ts = tokensAll us → ts = us
  | [], [], _, _ => rfl
  | t :: ts, u :: us, hshape, htokens => by
      obtain ⟨hhead, htail⟩ := List.cons.inj hshape
      have hlength : t.tokens.length = u.tokens.length := by
        have htokens := congrArg (List.length ∘ ParseTree.tokens) hhead
        simpa using htokens
      obtain ⟨hfirst, hrest⟩ := List.append_inj htokens hlength
      rw [eq_of_map_bareToken_eq t u hhead hfirst, eq_of_mapAll_bareToken_eq ts us htail hrest]
  | [], _ :: _, hshape, _ => by contradiction
  | _ :: _, [], hshape, _ => by contradiction
end

end JavaOutline.Structure

namespace JavaOutline

open Grammar Source Structure ParseTree

/-- The tokens of a text, each with what stands in front of it where that is read. -/
def heardTokens? (source : String) : Option (List Token) :=
  (unitTrees? (Token.ofSource source)).map fun ts => tokensAll (quietAll ts)

/-- **Comments may be added**: a text with the same tokens up to blanks and comments in front of
them is read if the first one is, and it declares the same types if these are the same in both
where they are read. -/
theorem exists_parse_of_akin {source source' : String} {u : CompilationUnit}
    (h : CompilationUnit.parse source = .ok u)
    (hcomments : Akin joints none (Token.ofSource source) (Token.ofSource source')) :
    ∃ u', CompilationUnit.parse source' = .ok u'
      ∧ (heardTokens? source' = heardTokens? source → u'.types = u.types) := by
  obtain ⟨ts, hts, rfl⟩ := CompilationUnit.parse_eq_ok_iff.mp h
  have hshape := map_unitTrees?_of_akin hcomments
  cases hts' : unitTrees? (Token.ofSource source') with
  | none => simp [hts, hts'] at hshape
  | some ts' =>
      refine ⟨unitOf ts', CompilationUnit.parse_eq_ok_iff.mpr ⟨ts', hts', rfl⟩, fun hheard => ?_⟩
      rw [hts, hts', Option.map_some, Option.map_some, Option.some.injEq] at hshape
      rw [heardTokens?, heardTokens?, hts, hts', Option.map_some, Option.map_some,
        Option.some.injEq] at hheard
      have hquiet : quietAll ts' = quietAll ts :=
        eq_of_mapAll_bareToken_eq _ _ (by rw [mapAll_quietAll, mapAll_quietAll, hshape]) hheard
      rw [← types_unitOf_quietAll ts', hquiet, types_unitOf_quietAll]

/-- A class without comments. -/
def plainSource : String := "class T \x7b int x ; A[] f ( int a ) \x7b\x7d \x7d"

/-- The class with comments in front of its parts and in its body. -/
def commentedSource : String :=
  "/* T */ class T \x7b /** x */ int /* x */ x ; A[] // f\n f ( int /* a */ a ) "
    ++ "\x7b /* f */ \x7d \x7d"

theorem exists_parse_of_akin_commentedSource :
    ∃ u u', CompilationUnit.parse plainSource = .ok u
      ∧ CompilationUnit.parse commentedSource = .ok u' ∧ u'.types = u.types := by
  have haccepts : ∃ u, CompilationUnit.parse plainSource = .ok u ∧ u.package = none :=
    CompilationUnit.exists_parse_of_check (by decide +kernel)
  have hcomments : Akin joints none (Token.ofSource plainSource)
      (Token.ofSource commentedSource) := by decide +kernel
  have hheard : heardTokens? commentedSource = heardTokens? plainSource := by decide +kernel
  obtain ⟨u, hu, -⟩ := haccepts
  obtain ⟨u', hu', htypes⟩ := @exists_parse_of_akin plainSource commentedSource u hu hcomments
  exact ⟨u, u', hu, hu', htypes hheard⟩

/-- The types of the fields that a file declares. -/
def fieldTypes (source : String) : Option (List String) :=
  (CompilationUnit.parse source).toOption.map fun u =>
    u.types.flatMap fun d => d.fields.map (·.type.render)

/-- **Some comments count**: one among type arguments is read as a further argument. -/
theorem comment_among_arguments_counts :
    ∃ u u', Akin joints none (Token.ofSource "class T \x7b List<String> f; \x7d")
        (Token.ofSource "class T \x7b List< /* k */ String> f; \x7d")
      ∧ CompilationUnit.parse "class T \x7b List<String> f; \x7d" = .ok u
      ∧ CompilationUnit.parse "class T \x7b List< /* k */ String> f; \x7d" = .ok u'
      ∧ u'.types ≠ u.types := by
  have hplain : ∃ u, CompilationUnit.parse "class T \x7b List<String> f; \x7d" = .ok u
      ∧ u.types.flatMap (fun d => d.fields.map (·.type.render)) = ["List<String>"] :=
    CompilationUnit.exists_parse_of_check (by decide +kernel)
  have hcomment : ∃ u, CompilationUnit.parse "class T \x7b List< /* k */ String> f; \x7d" = .ok u
      ∧ u.types.flatMap (fun d => d.fields.map (·.type.render)) = ["List</*k*/,String>"] :=
    CompilationUnit.exists_parse_of_check (by decide +kernel)
  obtain ⟨u, hu, htypes⟩ := hplain
  obtain ⟨u', hu', htypes'⟩ := hcomment
  refine ⟨u, u', by decide +kernel, hu, hu', fun heq => ?_⟩
  rw [heq, htypes] at htypes'
  contradiction

end JavaOutline
