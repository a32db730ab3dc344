import JavaOutline.Proofs.NodeShapes
import JavaOutline.Proofs.PairedMatching
import JavaOutline.Proofs.TreeMeaning

/-!
# JavaOutline.Proofs.FirstToken

What stands in front of the first token of a text does not count.

Only an operator or a word that is put together from several tokens asks whether something
stands in front of a token, and never of its first one (`seesLead_form`). So with another
first token of the same kind and text everything matches as before, and the trees differ in
that token alone (`rel_parse_first`).
-/

namespace JavaOutline.Grammar

open Source

/-! ## Another first token -/

section

variable {Label : Type}

/-- The second trees are the first ones with `b` for their first token `a`. -/
inductive ParseTree.Replaces (a b : Token) :
    List (ParseTree Label) → List (ParseTree Label) → Prop
  | leaf (ts : List (ParseTree Label)) : Replaces a b (.leaf a :: ts) (.leaf b :: ts)
  | node (label : Label) {us us' : List (ParseTree Label)} (h : Replaces a b us us')
      (ts : List (ParseTree Label)) : Replaces a b (.node label us :: ts) (.node label us' :: ts)
  | skip {t : ParseTree Label} (ht : t.tokens = []) {ts ts' : List (ParseTree Label)}
      (h : Replaces a b ts ts') : Replaces a b (t :: ts) (t :: ts')

namespace ParseTree.Replaces

variable {a b : Token} {ts ts' us us' : List (ParseTree Label)}

theorem append_right (h : Replaces a b ts ts') (us : List (ParseTree Label)) :
    Replaces a b (ts ++ us) (ts' ++ us) := by
  induction h with
  | leaf ts => exact .leaf (ts ++ us)
  | node label h ts => exact .node label h (ts ++ us)
  | skip ht _ ih => exact .skip ht ih

theorem append_left (hts : tokensAll ts = []) (h : Replaces a b us us') :
    Replaces a b (ts ++ us) (ts ++ us') := by
  induction ts with
  | nil => exact h
  | cons t ts ih =>
      rw [tokensAll, List.append_eq_nil_iff] at hts
      exact .skip hts.1 (ih hts.2)

end ParseTree.Replaces

namespace Pattern

variable {Rule : Type}

open ParseTree (Replaces tokensAll)

/-! ## Matching another first token -/

/-- May the pattern match without taking a token, as far as can be seen without its rules? -/
def maySkip (p : Pattern Rule Label) : Bool :=
  (startWith (fun _ => ⟨true, true⟩) (fun _ => true) p).skips

/-- Does the class ask whether something stands in front of a token? -/
def isJoining : Terminal → Bool
  | .joined _ => true
  | _ => false

/-- May the pattern ask whether something stands in front of its first token, rules apart? -/
def seesLead : Pattern Rule Label → Bool
  | .token terminal | .ahead terminal | .unless terminal => isJoining terminal
  | .nothing | .rule _ => false
  | .node _ p | .many p => seesLead p
  | .seq p q => seesLead p || p.maySkip && seesLead q
  | .choice p q => seesLead p || seesLead q

/-- What a match gives with `b` for the first token `a`: nothing is taken, or the trees differ
in that token alone. -/
inductive Retouched (a b : Token) (us : List Token) :
    List (ParseTree Label) × List Token → List (ParseTree Label) × List Token → Prop
  | skips {ts : List (ParseTree Label)} (hts : tokensAll ts = []) :
      Retouched a b us (ts, a :: us) (ts, b :: us)
  | takes {ts ts' : List (ParseTree Label)} {rest : List Token} (hrest : rest.length ≤ us.length)
      (h : Replaces a b ts ts') : Retouched a b us (ts, rest) (ts', rest)

variable {a b : Token} {us : List Token}

theorem accepts_eq (hkind : a.kind = b.kind) (htext : a.text = b.text) {terminal : Terminal}
    (h : isJoining terminal = false) :
    terminal.accepts a = terminal.accepts b := by
  cases terminal with
  | joined => contradiction
  | _ => simp only [Terminal.accepts, hkind, htext]

section

variable {grammar : Rule → Pattern Rule Label} {ts ts' vs vs' : List (ParseTree Label)}
  {rest rest' : List Token}

theorem Retouched.length_lt_iff (h : Retouched a b us (ts, rest) (ts', rest')) :
    rest.length < (a :: us).length ↔ rest'.length < (b :: us).length := by
  cases h with
  | skips => simp
  | takes => rfl

theorem Retouched.node {label : Label} (h : Retouched a b us (ts, rest) (ts', rest')) :
    Retouched a b us ([.node label ts], rest) ([.node label ts'], rest') := by
  cases h with
  | skips hts => exact .skips (by simpa [tokensAll, ParseTree.tokens] using hts)
  | takes hrest h => exact .takes hrest (.node label h [])

/-- Where the first token is left the trees are the same. -/
theorem Retouched.eq_of_skips (h : Retouched a b us (ts, a :: us) (ts', b :: us)) :
    tokensAll ts = [] ∧ ts' = ts := by
  generalize hrest : a :: us = rest at h
  cases h with
  | skips hts => exact ⟨hts, rfl⟩
  | takes hlen => exact absurd hlen (by simp)

/-- Behind trees that took nothing. -/
theorem Retouched.behind (hts : tokensAll ts = [])
    (h : Retouched a b us (vs, rest) (vs', rest')) :
    Behind (Retouched a b us) ts ts (vs, rest) (vs', rest') := by
  cases h with
  | skips hvs => exact .skips (by rw [ParseTree.tokensAll_append, hts, hvs, List.append_nil])
  | takes hrest h => exact .takes hrest (h.append_left hts)

/-- A pattern that has matched without taking a token may do so. -/
theorem maySkip_of_parse {depth : Nat} {p : Pattern Rule Label}
    (h : parse grammar depth p (a :: us) = some (ts, a :: us)) : p.maySkip = true := by
  have hcovers : (start grammar (fun _ => true) 0 p).Covers (a :: us)
      (parse grammar depth p (a :: us)) := covers_parse (fun _ _ => rfl)
  simpa [maySkip, start] using hcovers ts (a :: us) h

/-- Where the first token is taken, what comes behind is the same. -/
theorem Retouched.rel_later (h : Retouched a b us (ts, rest) (ts', rest'))
    (hlen : rest.length < (a :: us).length) (q : Pattern Rule Label) :
    Option.Rel (Behind (Retouched a b us) ts ts') (parse grammar depthLimit q rest)
      (parse grammar depthLimit q rest') := by
  cases h with
  | skips => exact absurd hlen (Nat.lt_irrefl _)
  | takes hrest h =>
      refine rel_self (fun vs more hq => ?_)
      exact .takes (Nat.le_trans (length_le_of_parse hq) hrest) (h.append_right vs)

end

/-- **Matching does not see what stands in front of the first token.** -/
theorem rel_parse_first (hkind : a.kind = b.kind) (htext : a.text = b.text)
    {grammar : Rule → Pattern Rule Label} (hrules : ∀ r, (grammar r).seesLead = false)
    (depth : Nat) {p : Pattern Rule Label} (hp : p.seesLead = false) :
    Option.Rel (Retouched a b us) (parse grammar depth p (a :: us))
      (parse grammar depth p (b :: us)) := by
  generalize hwhole : a :: us = whole
  induction depth, p, whole using parse_induction grammar with
  | nothing => exact rel_nothing (hwhole ▸ .skips rfl)
  | token =>
      subst hwhole
      exact rel_token (accepts_eq hkind htext hp) (fun _ => .takes (Nat.le_refl _) (.leaf []))
  | ahead =>
      subst hwhole
      exact rel_ahead (accepts_eq hkind htext hp) (.skips rfl)
  | «unless» =>
      subst hwhole
      exact rel_unless (accepts_eq hkind htext hp) (.skips rfl)
  | stuck => exact .none
  | rule depth r whole ih => exact ih (hrules r) hwhole
  | node depth label p whole ih => exact rel_node (ih hp hwhole) (fun _ _ _ _ h => h.node)
  | seq depth p q whole ih₁ ih₂ =>
      subst hwhole
      simp only [seesLead, Bool.or_eq_false_iff, Bool.and_eq_false_iff] at hp
      refine rel_seq (ih₁ hp.1 rfl) (fun _ _ _ _ h => h.length_lt_iff)
        (fun _ _ _ _ h hlen => h.rel_later hlen q) ?_
      intro ts ts' hx h
      -- nothing was taken, so the first part may be skipped and the second one sees the token
      have hsecond := ih₂ (hp.2.resolve_left (by simp [maySkip_of_parse hx])) rfl
      obtain ⟨hts, rfl⟩ := h.eq_of_skips
      exact rel_mono hsecond (fun _ _ _ _ h => h.behind hts)
  | choice depth p q whole ih₁ ih₂ =>
      simp only [seesLead, Bool.or_eq_false_iff] at hp
      exact rel_choice (ih₁ hp.1 hwhole) (ih₂ hp.2 hwhole)
  | many depth p whole ih =>
      subst hwhole
      exact rel_many (ih hp rfl) (fun _ _ _ _ h => h.length_lt_iff) (.skips rfl)
        (fun _ _ _ _ h hlen => h.rel_later hlen (.many p)) (fun _ _ h => h)

end Pattern

end

/-! ## The grammar -/

open Structure Pattern ParseTree

theorem seesLead_form : ∀ r ∈ Rule.all, r.form.seesLead = false := by decide +kernel

/-- A root whose label stands for one body only in the pattern is formed by that body. -/
theorem forms_of_root {p body : Form} {label : Label} {ts us : List SyntaxTree}
    (h : Forms Rule.form p ts) (hmem : .node label us ∈ ts) (depth : Nat)
    (hbody : p.mayHaveRoot (ruleMayHaveRoot Rule.form label (fun q => q != body) depth) label
      (fun q => q != body) = false) : Forms Rule.form body us := by
  refine Classical.byContradiction fun hnot => ?_
  have hroot := h.mayHaveRoot
    (fun q hq => bne_iff_ne.mpr fun heq : q = body => hnot (heq ▸ hq)) hmem depth
  rw [hbody] at hroot
  contradiction

/-- What a package declaration is written with. -/
def packageBody : Form := all [annotations, text "package", qualifiedName, text ";"]

/-- What an import is written with. -/
def importBody : Form :=
  all [text "import", maybe (text "static"), qualifiedName, maybe (.seq (text ".") (text "*")),
    text ";"]

theorem forms_packageBody {ts us : List SyntaxTree} (h : Forms Rule.form (.rule .topLevel) ts)
    (hmem : .node .package us ∈ ts) : Forms Rule.form packageBody us :=
  forms_of_root h hmem 5 (by decide +kernel)

theorem forms_importBody {ts us : List SyntaxTree} (h : Forms Rule.form (.rule .topLevel) ts)
    (hmem : .node .importing us ∈ ts) : Forms Rule.form importBody us :=
  forms_of_root h hmem 5 (by decide +kernel)

theorem forms_typeBody {ts us : List SyntaxTree} (h : Forms Rule.form (.rule .topLevel) ts)
    (hmem : .node .declaration us ∈ ts) :
    Forms Rule.form (.seq modifiers (any typeForms)) us :=
  forms_of_root h hmem 5 (by decide +kernel)

/-! ## Reading another first token -/

section

variable {a b : Token} {ts ts' us : List SyntaxTree}

/-- A token is the first one. -/
theorem eq_of_replaces_leaf {t : Token} (h : Replaces a b (.leaf t :: us) ts') :
    t = a ∧ ts' = .leaf b :: us := by
  cases h with
  | leaf => exact ⟨rfl, rfl⟩
  | skip ht => simp [tokens] at ht

/-- The token at the beginning of a node is the first one. -/
theorem eq_of_replaces_node {label : Label} {t : Token}
    (h : Replaces a b (.node label (.leaf t :: us) :: ts) ts') :
    t = a ∧ ts' = .node label (.leaf b :: us) :: ts := by
  cases h with
  | node _ h =>
      obtain ⟨rfl, rfl⟩ := eq_of_replaces_leaf h
      exact ⟨rfl, rfl⟩
  | skip ht => simp [tokens, tokensAll] at ht

theorem exists_of_forms_text {s : String} (h : Forms Rule.form (text s) ts) :
    ∃ t, ts = [.leaf t] := by
  obtain ⟨t, -, rfl⟩ := forms_token.mp h
  exact ⟨t, rfl⟩

/-- A node whose body begins with a token. -/
theorem exists_of_forms_node {label : Label} {s : String} {p : Form}
    (h : Forms Rule.form (.node label (.seq (text s) p)) ts) :
    ∃ t us, ts = [.node label (.leaf t :: us)] := by
  obtain ⟨us, hus, rfl⟩ := forms_node.mp h
  obtain ⟨vs, ws, hvs, -, rfl⟩ := forms_seq.mp hus
  obtain ⟨t, rfl⟩ := exists_of_forms_text hvs
  exact ⟨t, ws, rfl⟩

theorem exists_of_forms_annotation (h : Forms Rule.form (.rule .annotationUse) ts) :
    ∃ t us, ts = [.node .annotationUse (.leaf t :: us)] :=
  exists_of_forms_node (forms_rule.mp h)

theorem exists_of_forms_annotations (h : Forms Rule.form annotations ts) :
    ts = [] ∨ ∃ t us vs, ts = .node .annotationUse (.leaf t :: us) :: vs := by
  cases h with
  | stop => exact .inl rfl
  | more hfirst _ =>
      obtain ⟨t, us, rfl⟩ := exists_of_forms_annotation hfirst
      exact .inr ⟨t, us, _, rfl⟩

/-- A type begins with its keyword. -/
theorem exists_of_forms_types (h : Forms Rule.form (any typeForms) ts) :
    ∃ label t us, isRead label = true ∧ ts = [.node label (.leaf t :: us)] := by
  simp only [typeForms, plainTypes, List.cons_append, List.nil_append, any, forms_choice] at h
  rcases h with h | h | h | h | h
  · obtain ⟨t, us, rfl⟩ := exists_of_forms_node h
    exact ⟨_, t, us, rfl, rfl⟩
  · obtain ⟨t, us, rfl⟩ := exists_of_forms_node h
    exact ⟨_, t, us, rfl, rfl⟩
  · obtain ⟨t, us, rfl⟩ := exists_of_forms_node h
    exact ⟨_, t, us, rfl, rfl⟩
  · obtain ⟨t, us, rfl⟩ := exists_of_forms_node h
    exact ⟨_, t, us, rfl, rfl⟩
  · obtain ⟨t, us, rfl⟩ := exists_of_forms_node h
    exact ⟨_, t, us, rfl, rfl⟩

/-- Modifiers begin with a token, or with one in a node that is not read child by child. -/
theorem exists_of_forms_modifiers (h : Forms Rule.form modifiers ts) :
    ts = [] ∨ (∃ t us, ts = [.node .modifiers (.leaf t :: us)])
      ∨ ∃ label t us vs, (label = .annotationUse ∨ label = .nonSealed)
        ∧ ts = [.node .modifiers (.node label (.leaf t :: us) :: vs)] := by
  rcases forms_choice.mp h with h | h
  · obtain ⟨us, hus, rfl⟩ := forms_node.mp h
    obtain ⟨vs, ws, hvs, -, rfl⟩ := forms_seq.mp hus
    simp only [modifier, any, forms_choice] at hvs
    rcases hvs with hvs | hvs | hvs
    · obtain ⟨t, -, rfl⟩ := forms_token.mp hvs
      exact .inr (.inl ⟨t, ws, rfl⟩)
    · obtain ⟨t, us, rfl⟩ := exists_of_forms_annotation hvs
      exact .inr (.inr ⟨_, t, us, ws, .inl rfl, rfl⟩)
    · obtain ⟨t, us, rfl⟩ := exists_of_forms_node hvs
      exact .inr (.inr ⟨_, t, us, ws, .inr rfl, rfl⟩)
  · exact .inl (forms_nothing.mp h)

variable (htext : a.text = b.text)

include htext

/-- A declaration of a type says the same. -/
theorem allSaySame_of_replaces (h : Replaces a b ts ts')
    (hforms : Forms Rule.form (.seq modifiers (any typeForms)) ts) : AllSaySame ts ts' := by
  obtain ⟨ms, ds, hms, hds, rfl⟩ := forms_seq.mp hforms
  obtain ⟨label, t, us, hread, rfl⟩ := exists_of_forms_types hds
  rcases exists_of_forms_modifiers hms with rfl | ⟨m, ns, rfl⟩ | ⟨l, m, ns, vs, hl, rfl⟩
  · obtain ⟨rfl, rfl⟩ := eq_of_replaces_node h
    exact .cons (.read hread (.cons (.leaf htext) (allSaySame_refl us))) .nil
  · obtain ⟨rfl, rfl⟩ := eq_of_replaces_node h
    exact .cons (.read rfl (.cons (.leaf htext) (allSaySame_refl ns))) (allSaySame_refl _)
  · cases h with
    | node _ h =>
        obtain ⟨rfl, rfl⟩ := eq_of_replaces_node h
        refine .cons (.read rfl (.cons ?_ (allSaySame_refl vs))) (allSaySame_refl _)
        rcases hl with rfl | rfl
        · exact .content rfl rfl
        · exact .content rfl trivial
    | skip ht => simp [tokens, tokensAll] at ht

omit htext in
theorem package?_replaces (h : Replaces a b ts ts') (hforms : Forms Rule.form packageBody ts) :
    package? (.node .package ts) = package? (.node .package ts') := by
  obtain ⟨as, rest, has, hrest, rfl⟩ := forms_seq.mp hforms
  obtain ⟨ks, more, hks, -, rfl⟩ := forms_seq.mp hrest
  obtain ⟨k, rfl⟩ := exists_of_forms_text hks
  rcases exists_of_forms_annotations has with rfl | ⟨t, us, vs, rfl⟩
  · obtain ⟨rfl, rfl⟩ := eq_of_replaces_leaf h
    rfl
  · obtain ⟨rfl, rfl⟩ := eq_of_replaces_node h
    rfl

theorem import?_replaces (h : Replaces a b ts ts')
    (hforms : Forms Rule.form importBody ts) : import? (.node .importing ts)
      = (import? (.node .importing ts')) := by
  obtain ⟨ks, rest, hks, -, rfl⟩ := forms_seq.mp hforms
  obtain ⟨k, rfl⟩ := exists_of_forms_text hks
  obtain ⟨rfl, rfl⟩ := eq_of_replaces_leaf h
  simp only [import?, List.cons_append, List.nil_append, List.any_cons, isText, htext]
  rfl

/-- What is read of a tree at the top level. -/
def topLevelReading (t : SyntaxTree) : Option String × Option String × Option Member :=
  (package? t, import? t, member? t)

theorem topLevelReading_node {label : Label} (h : Replaces a b ts ts') {vs : List SyntaxTree}
    (hforms : Forms Rule.form (.rule .topLevel) vs) (hmem : .node label ts ∈ vs) :
    topLevelReading (.node label ts) = topLevelReading (.node label ts') := by
  cases label
  case package =>
    simp only [topLevelReading, package?_replaces h (forms_packageBody hforms hmem), import?, member?]
  case importing =>
    simp only [topLevelReading, import?_replaces htext h (forms_importBody hforms hmem), package?,
      member?]
  case declaration =>
    have hsame := allSaySame_of_replaces htext h (forms_typeBody hforms hmem)
    have hmember : member? (.node .declaration ts) = member? (.node .declaration ts') :=
      (SaysSame.read rfl hsame).member?_eq
    simp only [topLevelReading, hmember, package?, import?]
  all_goals rfl

theorem map_topLevelReading (h : Replaces a b ts ts')
    (hforms : ∀ t ∈ ts, ∃ vs, Forms Rule.form (.rule .topLevel) vs ∧ t ∈ vs) :
    ts.map topLevelReading = ts'.map topLevelReading := by
  induction h with
  | leaf => rfl
  | node label h ts _ =>
      obtain ⟨vs, hvs, hmem⟩ := hforms _ (List.mem_cons_self ..)
      rw [List.map_cons, List.map_cons, topLevelReading_node htext h hvs hmem]
  | skip _ _ ih =>
      rw [List.forall_mem_cons] at hforms
      rw [List.map_cons, List.map_cons, ih hforms.2]

/-- **What a file declares does not depend on what stands in front of its first token.** -/
theorem unitOf_replaces (h : Replaces a b ts ts')
    (hforms : Forms Rule.form (.many (.rule .topLevel)) ts) : unitOf ts = unitOf ts' := by
  have hmap := map_topLevelReading htext h
    (forall_of_forms_many (fun vs hvs t ht => ⟨vs, hvs, ht⟩) hforms)
  have hread : ∀ ts, unitOf ts = ⟨((ts.map topLevelReading).filterMap (·.1)).getLast?,
      (ts.map topLevelReading).filterMap (·.2.1),
      ((ts.map topLevelReading).filterMap (·.2.2)).filterMap Member.type?⟩ := by
    intro ts
    simp only [unitOf, members_eq_filterMap, List.filterMap_map]
    rfl
  rw [hread, hread, hmap]

end

end JavaOutline.Grammar
