/-!
# JavaOutline.Declaration.TypeRef

Type references as they are written: nothing is resolved, a name keeps the
qualification its author gave it.

`arrayOf` adds array dimensions and keeps an array type in one node; `render`
is the canonical text of a type.
-/

namespace JavaOutline

/-- A reference to a type. -/
inductive TypeRef where
  /-- A primitive or named type: `int`, `String`, `java.util.List`. -/
  | raw (name : String)
  /-- A type applied to arguments: `List<String>`. -/
  | generic (base : TypeRef) (args : List TypeRef)
  /-- An array type: `String[][]` has two dimensions. -/
  | array (element : TypeRef) (dimensions : Nat)
  /-- A wildcard argument, bounded from above (`? extends T`) or from below
  (`? super T`). -/
  | wildcard (bound : Option TypeRef) (isUpper : Bool)
  deriving Repr, BEq

namespace TypeRef

/-- The type without a name, which stands where nothing was written. -/
instance : Inhabited TypeRef := ⟨.raw ""⟩

/-- The named type `base` applied to arguments. -/
def applied (base : String) (args : List TypeRef) : TypeRef := .generic (.raw base) args

/-- The array type with `n` more dimensions: none leaves the type as it is, and
an array type stays one node. -/
def arrayOf (t : TypeRef) (n : Nat) : TypeRef :=
  if n = 0 then t
  else match t with
    | .array element dimensions => .array element (dimensions + n)
    | t => .array t n

@[simp] theorem arrayOf_zero (t : TypeRef) : t.arrayOf 0 = t := by simp [arrayOf]

theorem eq_array_or_ne (t : TypeRef) : (∃ u m, t = .array u m) ∨ ∀ u m, t ≠ .array u m := by
  cases t with
  | array u m => exact .inl ⟨u, m, rfl⟩
  | _ => exact .inr nofun

/-- An array with more dimensions. -/
theorem arrayOf_array (element : TypeRef) (m n : Nat) :
    (array element m).arrayOf n = .array element (m + n) := by
  by_cases hn : n = 0
  · rw [hn, arrayOf_zero, Nat.add_zero]
  · rw [arrayOf, if_neg hn]

/-- An array of elements that are no arrays themselves. -/
theorem arrayOf_of_ne_array {t : TypeRef} (h : ∀ u m, t ≠ .array u m) {n : Nat} (hn : n ≠ 0) :
    t.arrayOf n = .array t n := by
  rw [arrayOf, if_neg hn]
  exact h

/-- Dimensions that are added one after another add up. -/
theorem arrayOf_arrayOf (t : TypeRef) (m n : Nat) :
    (t.arrayOf m).arrayOf n = t.arrayOf (m + n) := by
  by_cases hm : m = 0
  · rw [hm, arrayOf_zero, Nat.zero_add]
  · by_cases hn : n = 0
    · rw [hn, arrayOf_zero, Nat.add_zero]
    · cases t <;> simp [arrayOf, hm, hn, Nat.add_assoc]

/-! ## Canonical text -/

mutual
/-- The text of a type: arguments joined by a bare comma, brackets after the
arguments. -/
def render : TypeRef → String
  | .raw name => name
  | .generic base args => base.render ++ "<" ++ ",".intercalate (renderAll args) ++ ">"
  | .array element dimensions =>
    element.render ++ String.join (List.replicate dimensions "[]")
  | .wildcard none _ => "?"
  | .wildcard (some bound) isUpper =>
    "?" ++ (if isUpper then " extends " else " super ") ++ bound.render

/-- The texts of a list of types. -/
def renderAll : List TypeRef → List String
  | [] => []
  | t :: ts => t.render :: renderAll ts
end

theorem renderAll_eq_map (ts : List TypeRef) : renderAll ts = ts.map render := by
  induction ts with
  | nil => rfl
  | cons t ts ih => simp [renderAll, ih]

end TypeRef

end JavaOutline
