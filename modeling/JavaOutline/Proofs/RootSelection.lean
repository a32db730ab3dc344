import JavaOutline.Outline.Root

/-!
# JavaOutline.Proofs.RootSelection

Which type stands for a file.

Looking for a position by the length of the list comes to the rule that takes the first item
that passes a test, or else the last one (`root?_eq_firstOrLast?`). The rule is about outlines
and their flags; it comes to the same as a rule about declarations and the keyword written on
them, because a type is public only where it says so. `rootOf?_eq` is that fact: `IsChosen` says
which position the rule picks, and the root is the outline of the declaration there. So behind
the first public type nothing counts, and in front of it nothing that is not public
(`root_is_first_public_or_last`).
-/

namespace JavaOutline

/-! ## First or last -/

/-- The first item that passes the test, or else the last item. -/
def firstOrLast? (test : α → Bool) (items : List α) : Option α :=
  (items.find? test).or items.getLast?

/-- The position of the first item with the property, or the last position if no item has
it. -/
inductive IsChosen (p : α → Prop) (items : List α) (i : Nat) : Prop
  | first {a : α} (ha : items[i]? = some a) (hp : p a)
      (hbefore : ∀ j < i, ∀ b, items[j]? = some b → ¬ p b)
  | last (hnone : ∀ a ∈ items, ¬ p a) (hi : i + 1 = items.length)

section

variable {test : α → Bool} {items : List α}

/-- The first item that passes a test, or else the last one, is the item at the chosen
position. -/
theorem firstOrLast?_eq {i : Nat} (h : IsChosen (test · = true) items i) :
    firstOrLast? test items = items[i]? := by
  cases h with
  | @first a ha hp hbefore =>
      obtain ⟨hi, hget⟩ := List.getElem?_eq_some_iff.mp ha
      have hfind : items.find? test = some a := by
        refine List.find?_eq_some_iff_getElem.mpr ⟨hp, i, hi, hget, fun j hj => ?_⟩
        simpa using hbefore j hj _ (List.getElem?_eq_getElem (by omega))
      rw [firstOrLast?, hfind, ha, Option.some_or]
  | last hnone hi =>
      have hfind : items.find? test = none := List.find?_eq_none.mpr hnone
      rw [firstOrLast?, hfind, Option.none_or, List.getLast?_eq_getElem?, ← hi, Nat.add_sub_cancel]

/-- In a list with items some position is chosen. -/
theorem exists_isChosen (h : items ≠ []) : ∃ i, IsChosen (test · = true) items i := by
  cases hfind : items.find? test with
  | none =>
      have hlength := List.length_pos_iff.mpr h
      exact ⟨items.length - 1, .last (List.find?_eq_none.mp hfind) (by omega)⟩
  | some a =>
      obtain ⟨ha, i, hi, hget, hbefore⟩ := List.find?_eq_some_iff_getElem.mp hfind
      refine ⟨i, .first (List.getElem?_eq_some_iff.mpr ⟨hi, hget⟩) ha fun j hj b hb => ?_⟩
      obtain ⟨hj', rfl⟩ := List.getElem?_eq_some_iff.mp hb
      simpa using hbefore j hj

/-- There is an item at the chosen position. -/
theorem IsChosen.exists_getElem?_eq {p : α → Prop} {i : Nat} (h : IsChosen p items i) :
    ∃ a, items[i]? = some a := by
  cases h with
  | first ha => exact ⟨_, ha⟩
  | last _ hi => exact ⟨_, List.getElem?_eq_getElem (by omega)⟩

/-- Nothing is chosen only where there is nothing. -/
theorem firstOrLast?_eq_none_iff : firstOrLast? test items = none ↔ items = [] := by
  rw [firstOrLast?, Option.or_eq_none_iff, List.getLast?_eq_none_iff]
  constructor
  · exact fun h => h.2
  · rintro rfl
    exact ⟨rfl, rfl⟩

/-- What is chosen stands at the chosen position. -/
theorem firstOrLast?_eq_some_iff {a : α} :
    firstOrLast? test items = some a
      ↔ ∃ i, IsChosen (test · = true) items i ∧ items[i]? = some a := by
  constructor
  · intro h
    have hne : items ≠ [] := by
      intro hnil
      rw [firstOrLast?_eq_none_iff.mpr hnil] at h
      contradiction
    have hchosen : ∃ i, IsChosen (test · = true) items i := exists_isChosen hne
    obtain ⟨i, hi⟩ := hchosen
    exact ⟨i, hi, by rw [← firstOrLast?_eq hi, h]⟩
  · rintro ⟨i, hi, ha⟩
    rw [firstOrLast?_eq hi, ha]

/-- Choosing commutes with a change of the items. -/
theorem firstOrLast?_map {test : β → Bool} (f : α → β) (items : List α) :
    firstOrLast? test (items.map f) = (firstOrLast? (test ∘ f) items).map f := by
  simp [firstOrLast?, List.find?_map, List.getLast?_map, Option.map_or]

end

/-- What is taken out is the item at the position. -/
theorem map_fst_swapRemove? (items : List α) (i : Nat) :
    (swapRemove? items i).map Prod.fst = items[i]? := by
  cases hitem : items[i]? with
  | none => simp [swapRemove?, hitem]
  | some a =>
      have hne : items ≠ [] := by
        rintro rfl
        simp at hitem
      simp [swapRemove?, hitem, List.getLast?_eq_some_getLast hne]

/-- The item at the position that is found is the item that is found. -/
theorem find?_eq_getElem?_findIdx? (test : α → Bool) (items : List α) :
    items.find? test = (items.findIdx? test).bind (items[·]?) := by
  induction items with
  | nil => rfl
  | cons a items ih =>
      rw [List.find?_cons, List.findIdx?_cons]
      cases test a with
      | true => rfl
      | false =>
          simp only [ih]
          cases items.findIdx? test <;> rfl

/-- **The root of a list is its first public outline, or else the last one.** -/
theorem Outline.root?_eq_firstOrLast? (outlines : List Outline) :
    Outline.root? outlines = firstOrLast? (·.flags.isPublic) outlines := by
  have htaken : Outline.root? outlines = (rootIndex? outlines).bind (outlines[·]?) := by
    simp only [root?, ← map_fst_swapRemove?, Option.map_eq_bind]
    rfl
  rw [htaken, firstOrLast?, find?_eq_getElem?_findIdx?, rootIndex?]
  split
  · next hlength => simp [List.length_eq_zero_iff.mp hlength]
  · next hlength =>
      obtain ⟨o, rfl⟩ := List.length_eq_one_iff.mp hlength
      cases hpublic : o.flags.isPublic <;> simp [List.findIdx?_cons, hpublic]
  · next =>
      cases hfound : outlines.findIdx? (·.flags.isPublic) with
      | none => simp [List.getLast?_eq_getElem?]
      | some i =>
          have hi : i < outlines.length := (List.findIdx?_eq_some_iff_findIdx_eq.mp hfound).1
          simp [List.getElem?_eq_getElem hi]

/-! ## The root of a file -/

/-- A declaration on which `public` is written. -/
def Declaration.IsPublic (d : Declaration) : Prop := .publicAccess ∈ d.modifiers

/-- The flag of an outline says what is written on the declaration. -/
theorem isPublic_ofDeclaration (d : Declaration) (enclosing : Option Kind) :
    (Outline.ofDeclaration d enclosing).flags.isPublic = true ↔ d.IsPublic := by
  rw [Outline.ofDeclaration_eq]
  simp [TypeFlags.ofModifiers, Declaration.IsPublic]

/-- **The root of a file is chosen by what is written**: it is the outline of the first
public declaration, or of the last one if none is public. -/
theorem rootOf?_eq {declarations : List Declaration} {i : Nat}
    (h : IsChosen Declaration.IsPublic declarations i) :
    Outline.rootOf? declarations = (declarations[i]?).map (Outline.ofDeclaration · none) := by
  have hpublic : Declaration.IsPublic
      = fun d => (Outline.ofDeclaration d none).flags.isPublic = true :=
    funext fun d => propext (isPublic_ofDeclaration d none).symm
  rw [hpublic] at h
  rw [Outline.rootOf?, Outline.root?_eq_firstOrLast?, firstOrLast?_map]
  exact congrArg (Option.map _) (firstOrLast?_eq h)

/-- A file with types has a root. -/
theorem exists_isChosen_isPublic {declarations : List Declaration} (h : declarations ≠ []) :
    ∃ i, IsChosen Declaration.IsPublic declarations i := by
  have hpublic : Declaration.IsPublic = fun d => (d.modifiers.contains .publicAccess) = true :=
    funext fun d => by simp [Declaration.IsPublic]
  rw [hpublic]
  exact exists_isChosen h

/-- A single declaration is the root, whatever is written on it. -/
theorem rootOf?_singleton (d : Declaration) :
    Outline.rootOf? [d] = some (Outline.ofDeclaration d none) := by
  simp only [Outline.rootOf?, Outline.root?_eq_firstOrLast?, firstOrLast?, List.map_cons,
    List.map_nil, List.find?_singleton, List.getLast?_singleton]
  split <;> rfl

/-! ## What the choice depends on -/

section

variable {declarations : List Declaration}

/-- A file without types has no root, and no other file is without one. -/
theorem rootOf?_eq_none_iff : Outline.rootOf? declarations = none ↔ declarations = [] := by
  rw [Outline.rootOf?, Outline.root?_eq_firstOrLast?, firstOrLast?_eq_none_iff,
    List.map_eq_nil_iff]

/-- The root is the outline of the declaration at the chosen position. -/
theorem rootOf?_eq_some_iff {o : Outline} :
    Outline.rootOf? declarations = some o
      ↔ ∃ i d, IsChosen Declaration.IsPublic declarations i ∧ declarations[i]? = some d
          ∧ o = Outline.ofDeclaration d none := by
  constructor
  · intro h
    have hne : declarations ≠ [] := by
      intro hnil
      rw [rootOf?_eq_none_iff.mpr hnil] at h
      contradiction
    obtain ⟨i, hi⟩ := exists_isChosen_isPublic hne
    obtain ⟨d, hd⟩ := hi.exists_getElem?_eq
    rw [rootOf?_eq hi, hd, Option.map_some, Option.some.injEq] at h
    exact ⟨i, d, hi, hd, h.symm⟩
  · rintro ⟨i, d, hi, hd, rfl⟩
    rw [rootOf?_eq hi, hd, Option.map_some]

/-- Where something is public, only the first public declaration counts. -/
theorem rootOf?_of_first_public {before after : List Declaration} {d : Declaration}
    (hd : d.IsPublic) (hbefore : ∀ x ∈ before, ¬ x.IsPublic) :
    Outline.rootOf? (before ++ d :: after) = some (Outline.ofDeclaration d none) := by
  have hget : (before ++ d :: after)[before.length]? = some d := by simp
  refine rootOf?_eq_some_iff.mpr
    ⟨before.length, d, .first hget hd fun j hj x hx => ?_, hget, rfl⟩
  rw [List.getElem?_append_left hj] at hx
  exact hbefore x (List.mem_of_getElem? hx)

end

/-- **The root is the first public type, or else the last one.** A list of declarations, or of
outlines, without items has no root. Of any other list it is the outline at the position of the
first item that is public, by what is written on the declaration or by the flag of the outline,
or at the last position if none is public. Types put behind the first public one, whatever they
are, and types that are not public put in front of it do not change it. -/
theorem root_is_first_public_or_last :
    (∀ declarations : List Declaration,
        (Outline.rootOf? declarations = none ↔ declarations = [])
          ∧ ∀ o, Outline.rootOf? declarations = some o
              ↔ ∃ i d, IsChosen Declaration.IsPublic declarations i ∧ declarations[i]? = some d
                  ∧ o = Outline.ofDeclaration d none)
      ∧ (∀ outlines : List Outline,
          (Outline.root? outlines = none ↔ outlines = [])
            ∧ ∀ o, Outline.root? outlines = some o
                ↔ ∃ i, IsChosen (·.flags.isPublic = true) outlines i ∧ outlines[i]? = some o)
      ∧ ∀ (d : Declaration) (before after before' after' : List Declaration), d.IsPublic →
          before.Sublist before' → after.Sublist after' → (∀ x ∈ before', ¬ x.IsPublic) →
          Outline.rootOf? (before' ++ d :: after') = Outline.rootOf? (before ++ d :: after) := by
  refine ⟨fun _ => ⟨rootOf?_eq_none_iff, fun _ => rootOf?_eq_some_iff⟩,
    fun outlines => ?_, ?_⟩
  · rw [Outline.root?_eq_firstOrLast?]
    exact ⟨firstOrLast?_eq_none_iff, fun _ => firstOrLast?_eq_some_iff⟩
  intro d before after before' after' hd hbefore _ hhidden
  rw [rootOf?_of_first_public hd hhidden,
    rootOf?_of_first_public hd fun x hx => hhidden x (hbefore.subset hx)]

/-- Three more types around a public one, one of them public as well. -/
theorem root_is_first_public_or_last_around :
    let type (name : String) (modifiers : List Modifier) : Declaration :=
      ⟨name, .classType, modifiers, [], [], [], [], []⟩
    let main := type "Main" [.final, .publicAccess]
    let helpers := [type "Helper" [.abstract], type "Early" []]
    let others := [type "Other" [.publicAccess], type "Late" []]
    main.IsPublic ∧ (∀ x ∈ helpers, ¬ x.IsPublic)
      ∧ Outline.rootOf? (helpers ++ main :: others)
          = Outline.rootOf? ([type "Helper" [.abstract]] ++ main :: []) := by
  intro type main helpers others
  have hmain : main.IsPublic := by simp [Declaration.IsPublic, main, type]
  have hhelpers : ∀ x ∈ helpers, ¬ x.IsPublic := by simp [Declaration.IsPublic, helpers, type]
  exact ⟨hmain, hhelpers, root_is_first_public_or_last.2.2 main _ _ helpers others hmain
    (by simp [helpers]) (List.nil_sublist _) hhelpers⟩

end JavaOutline
