import JavaOutline.Grammar.Declarations
import JavaOutline.Proofs.Derivations
import JavaOutline.Structure.Declaration

/-!
# JavaOutline.Proofs.NodeShapes

What the nodes in the trees of a source file look like, at any depth.

Three facts are all that the meaning of trees rests on: wildcards stand nowhere but among
type arguments, a wildcard with the word `super` has a bound, and a field statement has a
variable. The bodies of the nodes in the grammar are searched for them (`allNodes_form`),
which settles them for every tree (`allNodes_of_unitTrees?`).
-/

namespace JavaOutline.Grammar

open Source Structure Pattern

deriving instance DecidableEq for Pattern

/-! ## Facts about all rules -/

/-- All places where a type may begin. -/
def Place.all : List Place :=
  [.plain, .member, .annotationMember, .parameter, .statement, .expression]

/-- All rules of the grammar. -/
def Rule.all : List Rule :=
  [.unit, .topLevel, .typeDeclaration, .classBody, .classMember, .interfaceMember,
    .annotationMember, .annotationUse, .elementValue, .typeArguments, .dimensions,
    .typeParameters, .variable, .arrayInitializer, .block, .statement, .switch, .creation,
    .recordPattern]
  ++ Place.all.flatMap (fun place => [.type place, .anyType place, .parameters place])
  ++ [true, false].flatMap fun arrows =>
    [.expression arrows, .infixPart arrows, .term arrows, .operand arrows,
      .suffixes arrows true, .suffixes arrows false]

theorem Rule.mem_all (r : Rule) : r ∈ Rule.all := by
  cases r with
  | type place | anyType place | parameters place => cases place <;> decide
  | expression arrows | infixPart arrows | term arrows | operand arrows => cases arrows <;> decide
  | suffixes arrows assignable => cases arrows <;> cases assignable <;> decide
  | _ => decide

/-- What holds of the bodies of nodes in all rules holds of every node in the trees of a
source file. -/
theorem allNodes_of_bodies {P : Label → Form → Prop} {Q : Label → List SyntaxTree → Prop}
    (hrules : ∀ r ∈ Rule.all, r.form.AllNodes P)
    (hbodies : ∀ label p ts, P label p → Forms Rule.form p ts → Q label ts) {tokens : List Token}
    {ts : List SyntaxTree} (h : unitTrees? tokens = some ts) : ∀ t ∈ ts, t.AllNodes Q := by
  obtain ⟨⟨_, rest⟩, hparse, rfl⟩ := Option.map_eq_some_iff.mp h
  have hforms := forms_of_parse hparse
  exact hforms.allNodes (fun r => hrules r r.mem_all) hbodies (hrules .unit (Rule.mem_all _))

/-! ## Bodies of nodes -/

/-- What a wildcard is written with. -/
def wildcardBody : Form :=
  all [annotations, text "?",
    maybe (.seq (.token (.oneOf ["extends", "super"])) (.rule (.anyType .plain)))]

/-- What a field statement is written with. -/
def fieldBody (place : Place) : Form := all [.rule (.type place), variableList, text ";"]

/-- A body that nodes with a label have. -/
def IsBody (label : Label) (p : Form) : Prop :=
  (label ≠ .typeArguments → p.hasRoot .wildcard = false)
    ∧ (label = .wildcard → p = wildcardBody)
    ∧ (label = .field → p = fieldBody .member ∨ p = fieldBody .annotationMember)

instance (label : Label) (p : Form) : Decidable (IsBody label p) :=
  inferInstanceAs (Decidable (_ ∧ _ ∧ _))

/-- No rule has a wildcard outside of other nodes. -/
theorem hasRoot_form (r : Rule) : r.form.hasRoot .wildcard = false := by
  have hall : ∀ r ∈ Rule.all, r.form.hasRoot .wildcard = false := by decide
  exact hall r r.mem_all

/-- The nodes in all rules have such bodies. -/
theorem allNodes_form : ∀ r ∈ Rule.all, r.form.AllNodes IsBody := by decide +kernel

/-! ## Shapes of nodes -/

/-- What the children of a node with a label are like. -/
structure IsShaped (label : Label) (ts : List SyntaxTree) : Prop where
  /-- Wildcards stand among type arguments only. -/
  not_wildcard : label ≠ .typeArguments → ∀ t ∈ ts, t.label? ≠ some .wildcard
  /-- A wildcard with the word `super` has a bound. -/
  exists_bound : label = .wildcard → ts.any (ParseTree.isText "super") = true →
    ∃ t ∈ ts.tail, isType t = true
  /-- A field statement has a variable. -/
  exists_variable : label = .field → ∃ us, ParseTree.node .variable us ∈ ts

/-- A type is one node. -/
theorem eq_of_forms_anyType {place : Place} {ts : List SyntaxTree}
    (h : Forms Rule.form (.rule (.anyType place)) ts) : ∃ t, isType t = true ∧ ts = [t] := by
  rw [forms_rule] at h
  simp only [Rule.form, anyTypeForm, any, forms_choice, forms_node] at h
  rcases h with ⟨us, -, rfl⟩ | h
  · exact ⟨_, rfl, rfl⟩
  · rw [forms_rule] at h
    simp only [Rule.form, typeForm, forms_node] at h
    obtain ⟨us, -, rfl⟩ := h
    exact ⟨_, rfl, rfl⟩

/-- Each annotation is one node. -/
theorem label?_of_forms_annotations {ts : List SyntaxTree}
    (h : Forms Rule.form annotations ts) : ∀ t ∈ ts, t.label? = some .annotationUse := by
  refine forall_of_forms_many (fun us hus => ?_) h
  rw [forms_rule] at hus
  simp only [Rule.form, annotationForm, forms_node] at hus
  obtain ⟨vs, -, rfl⟩ := hus
  exact List.forall_mem_singleton.mpr rfl

/-- A node is no token. -/
theorem isText_of_label? {s : String} {label : Label} {t : SyntaxTree}
    (h : t.label? = some label) : ParseTree.isText s t = false := by
  cases t with
  | leaf => contradiction
  | node => rfl

theorem exists_bound_of_forms {ts : List SyntaxTree} (h : Forms Rule.form wildcardBody ts)
    (hsuper : ts.any (ParseTree.isText "super") = true) : ∃ t ∈ ts.tail, isType t = true := by
  simp only [wildcardBody, text, all, maybe, forms_seq, forms_choice, forms_nothing,
    forms_token] at h
  obtain ⟨as, _, has, ⟨_, bs, ⟨q, hq, rfl⟩, hbs, rfl⟩, rfl⟩ := h
  rcases hbs with ⟨_, us, ⟨w, -, rfl⟩, hus, rfl⟩ | rfl
  · obtain ⟨t, ht, rfl⟩ := eq_of_forms_anyType hus
    refine ⟨t, ?_, ht⟩
    cases as <;> simp
  · -- Without a bound there is the question mark only, behind annotations.
    have hmark : q.text = "?" := by simpa [Terminal.accepts] using hq
    have hnone : as.any (ParseTree.isText "super") = false :=
      List.any_eq_false.mpr fun t ht => by
        simp [isText_of_label? (label?_of_forms_annotations has t ht)]
    simp [hnone, ParseTree.isText, hmark] at hsuper

theorem exists_variable_of_forms {place : Place} {ts : List SyntaxTree}
    (h : Forms Rule.form (fieldBody place) ts) : ∃ us, ParseTree.node .variable us ∈ ts := by
  simp only [fieldBody, all, variableList, separated, forms_seq] at h
  obtain ⟨as, _, -, ⟨_, bs, ⟨us, cs, hus, -, rfl⟩, -, rfl⟩, rfl⟩ := h
  rw [forms_rule] at hus
  simp only [Rule.form, variableForm, forms_node] at hus
  obtain ⟨vs, -, rfl⟩ := hus
  exact ⟨vs, by simp⟩

/-- What such a body forms is of the shape. -/
theorem isShaped_of_forms {label : Label} {p : Form} {ts : List SyntaxTree} (hp : IsBody label p)
    (h : Forms Rule.form p ts) : IsShaped label ts where
  not_wildcard hlabel := h.label?_ne hasRoot_form (hp.1 hlabel)
  exists_bound hlabel hsuper := exists_bound_of_forms (hp.2.1 hlabel ▸ h) hsuper
  exists_variable hlabel := by
    rcases hp.2.2 hlabel with rfl | rfl
    · exact exists_variable_of_forms h
    · exact exists_variable_of_forms h

/-! ## Source files -/

/-- **All nodes of the trees of a source file have their shapes.** -/
theorem allNodes_of_unitTrees? {tokens : List Token} {ts : List SyntaxTree}
    (h : unitTrees? tokens = some ts) : ∀ t ∈ ts, t.AllNodes IsShaped :=
  allNodes_of_bodies allNodes_form (fun _ _ _ hbody hforms => isShaped_of_forms hbody hforms) h

end JavaOutline.Grammar
