import JavaOutline.Outline.Build
import Mathlib.Logic.Relation

/-!
# JavaOutline.Proofs.MemberOrder

An outline lists the members of a declaration sort by sort, so it does not show how members of
different sorts are interleaved.

`Declaration.Swaps` exchanges two neighbouring members of different sorts, in a declaration or in
one nested in it at any depth. One swap leaves the members of each sort in their order
(`filterMap_eq_of_swaps`) and so does not change the outline (`Outline.ofDeclaration_eq_of_swaps`,
by induction on the depth); no more do any number of them (`interleaving_does_not_count`).
-/

namespace JavaOutline

/-! ## Swaps of members -/

/-- The sorts of members. -/
inductive MemberSort where
  | field | constructor | method | element | type
  deriving Repr, DecidableEq

namespace Member

/-- The sort of a member. -/
def sort : Member → MemberSort
  | .field _ => .field
  | .constructor _ => .constructor
  | .method _ => .method
  | .element _ => .element
  | .type _ => .type

/-- Two neighbours of different sorts change places. -/
inductive Swaps : List Member → List Member → Prop
  | swap {a b : Member} (before after : List Member) (h : a.sort ≠ b.sort) :
      Swaps (before ++ a :: b :: after) (before ++ b :: a :: after)

/-- **A swap keeps the members of each sort in their order**: what is read off members of one
sort only is the same before and after. -/
theorem filterMap_eq_of_swaps {read : Member → Option α} {s : MemberSort}
    (hread : ∀ m, m.sort ≠ s → read m = none) {ms ms' : List Member} (h : Swaps ms ms') :
    ms'.filterMap read = ms.filterMap read := by
  cases h with
  | @swap a b before after hsort =>
      have hpair : a.sort ≠ s ∨ b.sort ≠ s := by
        by_cases ha : a.sort = s
        · exact .inr fun hb => hsort (ha.trans hb.symm)
        · exact .inl ha
      rw [List.filterMap_append, List.filterMap_append]
      congr 1
      cases hpair with
      | inl ha => simp [List.filterMap_cons, hread a ha]
      | inr hb => simp [List.filterMap_cons, hread b hb]

/-- What is not read off nested types does not show a change of one. -/
theorem filterMap_eq_of_nested {read : Member → Option α} (hread : ∀ d, read (.type d) = none)
    (d d' : Declaration) (before after : List Member) :
    (before ++ .type d' :: after).filterMap read = (before ++ .type d :: after).filterMap read := by
  simp [hread]

end Member

/-! ## Swaps at any depth -/

/-- Two neighbouring members of different sorts change places, in the declaration or in one
nested in it at any depth. -/
inductive Declaration.Swaps : Declaration → Declaration → Prop
  | here {d : Declaration} {members : List Member} (h : Member.Swaps d.members members) :
      Swaps d { d with members := members }
  | nested {d inner inner' : Declaration} (before after : List Member)
      (hmembers : d.members = before ++ .type inner :: after) (h : Swaps inner inner') :
      Swaps d { d with members := before ++ .type inner' :: after }

namespace Outline

/-- The outline of a declaration depends on its members sort by sort, and on field statements and
nested types only through their fields and outlines. -/
theorem ofDeclaration_eq_of_members {d : Declaration} {members : List Member}
    (hfields : (members.filterMap Member.field?).flatMap (FieldOutline.ofField d.kind)
      = d.fields.flatMap (FieldOutline.ofField d.kind))
    (hconstructors : members.filterMap Member.constructor? = d.constructors)
    (hmethods : members.filterMap Member.method? = d.methods)
    (helements : members.filterMap Member.element? = d.elements)
    (hnested : (members.filterMap Member.type?).map (ofDeclaration · (some d.kind))
      = d.nested.map (ofDeclaration · (some d.kind))) (enclosing : Option Kind) :
    ofDeclaration { d with members := members } enclosing = ofDeclaration d enclosing := by
  have habstract : Declaration.hasAbstractMethod { d with members := members }
      = d.hasAbstractMethod := congrArg (List.any · _) hmethods
  have hfieldOutlines : Declaration.fieldOutlines { d with members := members }
      = d.fieldOutlines := by
    rw [Declaration.fieldOutlines, Declaration.fieldOutlines, ← hfields]
    rfl
  have hentries : Declaration.methodEntries { d with members := members } = d.methodEntries := by
    rw [Declaration.methodEntries, Declaration.methodEntries, ← helements, ← hmethods]
    rfl
  rw [ofDeclaration_eq, ofDeclaration_eq d, habstract, hfieldOutlines, hentries, ← hconstructors,
    ← hnested]
  rfl

/-- **A swap does not change the outline**, by induction on the depth at which it happens. -/
theorem ofDeclaration_eq_of_swaps {d d' : Declaration} (h : d.Swaps d')
    (enclosing : Option Kind) : ofDeclaration d' enclosing = ofDeclaration d enclosing := by
  induction h generalizing enclosing with
  | @here d members h =>
      refine ofDeclaration_eq_of_members
        (congrArg (List.flatMap _) (Member.filterMap_eq_of_swaps (s := .field) ?_ h))
        (Member.filterMap_eq_of_swaps (s := .constructor) ?_ h)
        (Member.filterMap_eq_of_swaps (s := .method) ?_ h)
        (Member.filterMap_eq_of_swaps (s := .element) ?_ h)
        (congrArg _ (Member.filterMap_eq_of_swaps (s := .type) ?_ h)) enclosing
      all_goals
        rintro (_ | _ | _ | _ | _) hsort <;> first | rfl | exact absurd rfl hsort
  | @nested d inner inner' before after hmembers _ ih =>
      have hkept : ∀ {α} {read : Member → Option α}, (∀ d, read (.type d) = none) →
          (before ++ .type inner' :: after).filterMap read = d.members.filterMap read :=
        fun hread => hmembers ▸ Member.filterMap_eq_of_nested hread inner inner' before after
      refine ofDeclaration_eq_of_members (congrArg (List.flatMap _) (hkept fun _ => rfl))
        (hkept fun _ => rfl) (hkept fun _ => rfl) (hkept fun _ => rfl) ?_ enclosing
      simp [Declaration.nested, hmembers, Member.type?, ih]

end Outline

/-- **Interleaving does not count**: declarations that arise from each other by swaps of
neighbouring members of different sorts, in any number and at any depth, have the same outline,
whatever they stand in. -/
theorem interleaving_does_not_count {d d' : Declaration}
    (h : Relation.ReflTransGen Declaration.Swaps d d') (enclosing : Option Kind) :
    Outline.ofDeclaration d' enclosing = Outline.ofDeclaration d enclosing := by
  induction h with
  | refl => rfl
  | tail _ hswap ih => rw [Outline.ofDeclaration_eq_of_swaps hswap, ih]

/-- A swap in a nested type and one in the type around it, which stands in an interface. -/
theorem interleaving_does_not_count_nested :
    let field : Member := .field ⟨[.static], .raw "int", [⟨"count", 1⟩]⟩
    let method : Member := .method ⟨"run", [.abstract], .raw "void", [], [.raw "E"]⟩
    let type (name : String) (members : List Member) : Declaration :=
      ⟨name, .classType, [], [], [], [], [], members⟩
    let outer := type "Outer" [method, .type (type "Inner" [field, method]), field]
    let outer' := type "Outer" [.type (type "Inner" [method, field]), method, field]
    Relation.ReflTransGen Declaration.Swaps outer outer'
      ∧ Outline.ofDeclaration outer' (some .interfaceType)
          = Outline.ofDeclaration outer (some .interfaceType) := by
  intro field method type outer outer'
  have hinner : (type "Inner" [field, method]).Swaps (type "Inner" [method, field]) :=
    .here (.swap [] [] (by decide))
  have hfirst : outer.Swaps
      (type "Outer" [method, .type (type "Inner" [method, field]), field]) :=
    .nested [method] [field] rfl hinner
  have hsecond : Declaration.Swaps
      (type "Outer" [method, .type (type "Inner" [method, field]), field]) outer' :=
    .here (.swap [] [field] (by decide))
  have hswaps : Relation.ReflTransGen Declaration.Swaps outer outer' :=
    .tail (.single hfirst) hsecond
  exact ⟨hswaps, interleaving_does_not_count hswaps _⟩

end JavaOutline
