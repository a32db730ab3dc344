import JavaOutline.Outline.Build

/-!
# JavaOutline.Proofs.Navigation

Finding one's way in an outline as in the declaration it describes.

A path leads from a type to one nested in it, step by step, each step by position or by name.
One step in an outline arrives at the outline of where the same step in the declaration arrives
(`Outline.step?_ofDeclaration`), so whole paths do, and the outline at the end of a path is that
of the declaration there, in the type it directly stands in. What the outline as a whole stands
in shows in one flag only. There the methods and elements with a name are found that the
declaration has first (`outlines_commute_with_navigation`).
-/

namespace JavaOutline

/-! ## Paths -/

/-- A step from a type to one directly nested in it. -/
inductive Step where
  /-- To the nested type at a position. -/
  | position (i : Nat)
  /-- To the first nested type with a name. -/
  | name (name : String)
  deriving Repr, DecidableEq

/-- The nested declaration a step leads to. -/
def Declaration.step? (d : Declaration) : Step → Option Declaration
  | .position i => d.nested[i]?
  | .name name => d.nested.find? (·.name == name)

/-- The nested outline a step leads to. -/
def Outline.step? (o : Outline) : Step → Option Outline
  | .position i => o.inners[i]?
  | .name name => o.inner? name

/-- The declaration at the end of a path. -/
def Declaration.follow? (d : Declaration) : List Step → Option Declaration
  | [] => some d
  | step :: path => (d.step? step).bind (·.follow? path)

/-- The outline at the end of a path. -/
def Outline.follow? (o : Outline) : List Step → Option Outline
  | [] => some o
  | step :: path => (o.step? step).bind (·.follow? path)

namespace Outline

/-- An outline with the flag for static types set. -/
def withStatic (o : Outline) (isStatic : Bool) : Outline :=
  { o with flags := { o.flags with isStatic := isStatic } }

/-! ## Steps -/

/-- **A step in an outline leads to the outline of where the step in the declaration leads.** -/
theorem step?_ofDeclaration (d : Declaration) (enclosing : Option Kind) (step : Step) :
    (ofDeclaration d enclosing).step? step
      = (d.step? step).map (ofDeclaration · (some d.kind)) := by
  cases step with
  | position i => rw [step?, inners_ofDeclaration, List.getElem?_map, Declaration.step?]
  | name name =>
      rw [step?, inner?, inners_ofDeclaration, List.find?_map, Declaration.step?]
      simp only [Function.comp_def, name_ofDeclaration]

/-- The outline at the end of a path is that of the declaration there, by induction on the
path. -/
theorem follow?_concat (d : Declaration) (enclosing : Option Kind) (path : List Step)
    (step : Step) : (ofDeclaration d enclosing).follow? (path ++ [step])
      = (d.follow? path).bind fun parent =>
          (parent.step? step).map (ofDeclaration · (some parent.kind)) := by
  induction path generalizing d enclosing with
  | nil =>
      rw [List.nil_append, follow?, step?_ofDeclaration, Declaration.follow?, Option.bind_some]
      exact Option.bind_fun_some _
  | cons first path ih =>
      rw [List.cons_append, follow?, step?_ofDeclaration, Declaration.follow?, Option.bind_map,
        Option.bind_assoc]
      exact congrArg _ (funext fun d' => ih d' (some d.kind))

/-- What is read off an outline at the end of a path can be read off the declaration there. -/
theorem map_follow?_ofDeclaration {read : Outline → α} {readDeclaration : Declaration → α}
    (hread : ∀ d enclosing, read (ofDeclaration d enclosing) = readDeclaration d)
    (d : Declaration) (enclosing : Option Kind) (path : List Step) :
    ((ofDeclaration d enclosing).follow? path).map read = (d.follow? path).map readDeclaration := by
  induction path generalizing d enclosing with
  | nil => rw [follow?, Declaration.follow?, Option.map_some, Option.map_some, hread]
  | cons step path ih =>
      rw [follow?, step?_ofDeclaration, Declaration.follow?, Option.bind_map, Option.map_bind,
        Option.map_bind]
      exact congrArg _ (funext fun d' => ih d' (some d.kind))

/-! ## Methods and elements by name -/

/-- The first item with a name, as something that is made of it. -/
theorem findSome?_eq_map_find? {nameOf : α → String} {make : α → β} (name : String)
    (items : List α) :
    items.findSome? (fun a => if nameOf a = name then some (make a) else none)
      = (items.find? (nameOf · == name)).map make := by
  induction items with
  | nil => rfl
  | cons a items ih =>
      rw [List.findSome?_cons, List.find?_cons, ih]
      by_cases hname : nameOf a = name
      · rw [if_pos hname, beq_iff_eq.mpr hname, Option.map_some]
      · rw [if_neg hname, beq_eq_false_iff_ne.mpr hname]

/-- The first method with a name, if the type lists methods. -/
theorem method?_ofDeclaration (d : Declaration) (enclosing : Option Kind) (name : String) :
    (ofDeclaration d enclosing).method? name
      = if d.kind = .annotationType then none
        else (d.methods.find? (·.name == name)).map (.ofMethod d.kind) := by
  rw [method?, ofDeclaration_eq, Declaration.methodEntries]
  split
  · rw [List.findSome?_map, List.findSome?_eq_none_iff]
    exact fun _ _ => rfl
  · rw [List.findSome?_map]
    exact findSome?_eq_map_find? name d.methods

/-- The first element with a name, if the type lists elements. -/
theorem element?_ofDeclaration (d : Declaration) (enclosing : Option Kind) (name : String) :
    (ofDeclaration d enclosing).element? name
      = if d.kind = .annotationType then (d.elements.find? (·.name == name)).map .ofElement
        else none := by
  rw [element?, ofDeclaration_eq, Declaration.methodEntries]
  split
  · rw [List.findSome?_map]
    exact findSome?_eq_map_find? name d.elements
  · rw [List.findSome?_map, List.findSome?_eq_none_iff]
    exact fun _ _ => rfl

/-- What a type stands in shows in the flag for static types only. -/
theorem withStatic_ofDeclaration (d : Declaration) (enclosing enclosing' : Option Kind)
    (isStatic : Bool) : (ofDeclaration d enclosing).withStatic isStatic
      = (ofDeclaration d enclosing').withStatic isStatic := by
  rw [ofDeclaration_eq, ofDeclaration_eq d enclosing']
  rfl

end Outline

/-- **Outlines commute with navigation**: a path leads somewhere in an outline exactly if it does
in the declaration. Behind its last step there is the outline of the declaration there, in a type
of the kind that the step comes from; what the whole stands in shows in the first flag for static
types only. At the end of any path the first method of a name is found outside of annotation
types, and the first element of a name in them. -/
theorem outlines_commute_with_navigation (d : Declaration) (enclosing : Option Kind) :
    (∀ path, ((Outline.ofDeclaration d enclosing).follow? path).isSome = (d.follow? path).isSome)
      ∧ (∀ path step, (Outline.ofDeclaration d enclosing).follow? (path ++ [step])
          = (d.follow? path).bind fun parent =>
              (parent.step? step).map (Outline.ofDeclaration · (some parent.kind)))
      ∧ (∀ enclosing' isStatic, (Outline.ofDeclaration d enclosing).withStatic isStatic
          = (Outline.ofDeclaration d enclosing').withStatic isStatic)
      ∧ (∀ path name, ((Outline.ofDeclaration d enclosing).follow? path).map (·.method? name)
          = (d.follow? path).map fun n =>
              if n.kind = .annotationType then none
              else (n.methods.find? (·.name == name)).map (.ofMethod n.kind))
      ∧ ∀ path name, ((Outline.ofDeclaration d enclosing).follow? path).map (·.element? name)
          = (d.follow? path).map fun n =>
              if n.kind = .annotationType then (n.elements.find? (·.name == name)).map .ofElement
              else none := by
  refine ⟨fun path => ?_, Outline.follow?_concat d enclosing,
    Outline.withStatic_ofDeclaration d enclosing, fun path name => ?_, fun path name => ?_⟩
  · have hunit : ((Outline.ofDeclaration d enclosing).follow? path).map (fun _ => ())
        = (d.follow? path).map fun _ => () :=
      Outline.map_follow?_ofDeclaration (fun _ _ => rfl) d enclosing path
    simpa only [Option.isSome_map] using congrArg Option.isSome hunit
  · exact Outline.map_follow?_ofDeclaration
      (fun n outer => Outline.method?_ofDeclaration n outer name) d enclosing path
  · exact Outline.map_follow?_ofDeclaration
      (fun n outer => Outline.element?_ofDeclaration n outer name) d enclosing path

end JavaOutline
