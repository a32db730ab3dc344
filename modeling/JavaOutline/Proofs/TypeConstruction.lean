import JavaOutline.Declaration.TypeRef

/-!
# JavaOutline.Proofs.TypeConstruction

Building a type step by step, and its text with it.

Each `Construction` makes a type out of a type. On texts it puts something in front of the text
or behind it, or drops the text (`Construction.onText`), and need not know what type the text is
of. The two keep pace from any type on, however many steps there are (`map_render_scanl`): more
brackets on an array change the node that is there instead of wrapping it, and the text cannot
tell. No step makes an array of arrays or of no dimensions where there was none (`IsFlat`).
-/

namespace JavaOutline

/-! ## Steps -/

/-- A step that makes a type out of a type. -/
inductive Construction where
  /-- The array type with so many more dimensions. -/
  | brackets (n : Nat)
  /-- The named type applied to the type as its only argument. -/
  | argumentOf (base : String)
  /-- The wildcard that the type bounds from above. -/
  | upperBound
  /-- The wildcard that the type bounds from below. -/
  | lowerBound
  /-- The wildcard without a bound. -/
  | unbounded (isUpper : Bool)
  /-- The type without a name. -/
  | reset
  deriving Repr, DecidableEq

/-- The type after a step. -/
def TypeRef.construct (t : TypeRef) : Construction → TypeRef
  | .brackets n => t.arrayOf n
  | .argumentOf base => .applied base [t]
  | .upperBound => .wildcard (some t) true
  | .lowerBound => .wildcard (some t) false
  | .unbounded isUpper => .wildcard none isUpper
  | .reset => default

/-- What a step does to a text, whatever type the text is of. -/
def Construction.onText (text : String) : Construction → String
  | .brackets n => text ++ String.join (List.replicate n "[]")
  | .argumentOf base => base ++ "<" ++ text ++ ">"
  | .upperBound => "? extends " ++ text
  | .lowerBound => "? super " ++ text
  | .unbounded _ => "?"
  | .reset => ""

namespace TypeRef

/-! ## Texts -/

/-- More dimensions show as more brackets, also where they go into a node that is there. -/
theorem render_arrayOf (t : TypeRef) (n : Nat) :
    (t.arrayOf n).render = t.render ++ String.join (List.replicate n "[]") := by
  obtain ⟨element, dimensions, rfl⟩ | hflat := t.eq_array_or_ne
  · rw [arrayOf_array, render, render, ← List.replicate_append_replicate, String.join_append,
      String.append_assoc]
  · by_cases hn : n = 0
    · rw [hn, arrayOf_zero, List.replicate_zero, String.join_nil, String.append_empty]
    · rw [arrayOf_of_ne_array hflat hn, render]

/-- **A step on a type is the step on its text.** -/
theorem render_construct (t : TypeRef) (c : Construction) :
    (t.construct c).render = c.onText t.render := by
  cases c with
  | brackets n => exact t.render_arrayOf n
  | argumentOf base => simp [construct, applied, render, renderAll, Construction.onText]
  | upperBound => simp [construct, render, Construction.onText]
  | lowerBound => simp [construct, render, Construction.onText]
  | unbounded isUpper => rw [construct, render, Construction.onText]
  | reset => rfl

/-- So are any number of steps, by induction on them. -/
theorem map_render_scanl (t : TypeRef) (steps : List Construction) :
    (steps.scanl construct t).map render = steps.scanl Construction.onText t.render := by
  induction steps generalizing t with
  | nil => rfl
  | cons c steps ih => rw [List.scanl_cons, List.map_cons, ih, render_construct, List.scanl_cons]

/-! ## Flat types -/

/-- No array in the type, at any depth, is one of arrays or has no dimensions. -/
inductive IsFlat : TypeRef → Prop
  | raw (name : String) : IsFlat (.raw name)
  | generic {base : TypeRef} {args : List TypeRef} (h : IsFlat base)
      (hargs : ∀ a ∈ args, IsFlat a) : IsFlat (.generic base args)
  | array {t : TypeRef} {n : Nat} (h : IsFlat t) (hflat : ∀ u m, t ≠ .array u m) (hn : 1 ≤ n) :
      IsFlat (.array t n)
  | unbounded (isUpper : Bool) : IsFlat (.wildcard none isUpper)
  | bounded {t : TypeRef} (h : IsFlat t) (isUpper : Bool) : IsFlat (.wildcard (some t) isUpper)

/-- More dimensions go into the array that is there, or make one of a type that is none. -/
theorem IsFlat.arrayOf {t : TypeRef} (h : t.IsFlat) (n : Nat) : (t.arrayOf n).IsFlat := by
  obtain ⟨element, dimensions, rfl⟩ | hflat := t.eq_array_or_ne
  · rw [arrayOf_array]
    cases h with
    | array helement hflat hdimensions => exact .array helement hflat (by omega)
  · by_cases hn : n = 0
    · rw [hn, arrayOf_zero]
      exact h
    · rw [arrayOf_of_ne_array hflat hn]
      exact .array h hflat (by omega)

/-- **A step keeps a type flat.** -/
theorem IsFlat.construct {t : TypeRef} (h : t.IsFlat) (c : Construction) :
    (t.construct c).IsFlat := by
  cases c with
  | brackets n => exact h.arrayOf n
  | argumentOf base => exact .generic (.raw base) (List.forall_mem_singleton.mpr h)
  | upperBound => exact .bounded h true
  | lowerBound => exact .bounded h false
  | unbounded isUpper => exact .unbounded isUpper
  | reset => exact .raw ""

/-- So do any number of steps, by induction on them. -/
theorem IsFlat.scanl {t : TypeRef} (h : t.IsFlat) (steps : List Construction) :
    ∀ u ∈ steps.scanl TypeRef.construct t, u.IsFlat := by
  induction steps generalizing t with
  | nil => exact List.forall_mem_singleton.mpr h
  | cons c steps ih =>
      rw [List.scanl_cons, List.forall_mem_cons]
      exact ⟨h, ih (h.construct c)⟩

end TypeRef

/-- **Rendering keeps pace with construction.** After each of any number of steps from any type,
the text of the type is what the same steps make of the text of the first one. If all arrays in
the first type have dimensions and elements that are no arrays, so have those in every type on
the way. -/
theorem rendering_simulates_construction (t : TypeRef) (steps : List Construction) :
    (steps.scanl TypeRef.construct t).map TypeRef.render
        = steps.scanl Construction.onText t.render
      ∧ (t.IsFlat → ∀ u ∈ steps.scanl TypeRef.construct t, u.IsFlat) :=
  ⟨t.map_render_scanl steps, fun h => h.scanl steps⟩

/-- An array that gets more dimensions twice and is then wrapped and dropped. -/
theorem rendering_simulates_construction_wrapped :
    let t : TypeRef := .array (.raw "int") 1
    let steps : List Construction :=
      [.brackets 0, .brackets 2, .argumentOf "List", .lowerBound, .unbounded true, .reset]
    t.IsFlat
      ∧ (steps.scanl TypeRef.construct t).map TypeRef.render
        = ["int[]", "int[]", "int[][][]", "List<int[][][]>", "? super List<int[][][]>", "?", ""]
      ∧ ∀ u ∈ steps.scanl TypeRef.construct t, u.IsFlat := by
  intro t steps
  have ht : t.IsFlat := .array (.raw "int") nofun (Nat.le_refl 1)
  obtain ⟨htexts, hflat⟩ := rendering_simulates_construction t steps
  have hsteps : steps.scanl Construction.onText t.render
      = ["int[]", "int[]", "int[][][]", "List<int[][][]>", "? super List<int[][][]>", "?", ""] := by
    decide +kernel
  exact ⟨ht, htexts.trans hsteps, hflat ht⟩

/-- Arrays of arrays are written like arrays, and stay what they are. -/
example : ((TypeRef.array (.array (.raw "int") 0) 1).construct (.brackets 1)).render
    = "int[][]" := by
  decide +kernel

end JavaOutline
