import JavaOutline.Declaration.TypeRef

/-!
# JavaOutline.Proofs.AddedDimensions

Adding dimensions to types.

A type that gets dimensions becomes an array of the elements it had, with the new dimensions
added to those it had (`arrayOf_of_pos`); a type that is no array counts as one of itself with no
dimensions. So the array tells which elements and dimensions the type had, and no more. These
tell the type but for one thing: an array node without dimensions cannot be told from the type
it is put around, if that is no array (`element_dimensions_eq_iff`).
-/

namespace JavaOutline

namespace TypeRef

/-! ## Elements and dimensions -/

/-- What an array is an array of. Any other type is taken as an array of itself. -/
def element : TypeRef → TypeRef
  | .array t _ => t
  | t => t

/-- The dimensions of an array. Any other type has none. -/
def dimensions : TypeRef → Nat
  | .array _ n => n
  | _ => 0

theorem element_of_ne_array {t : TypeRef} (h : ∀ u m, t ≠ .array u m) : t.element = t := by
  cases t with
  | array u m => exact absurd rfl (h u m)
  | _ => rfl

theorem dimensions_of_ne_array {t : TypeRef} (h : ∀ u m, t ≠ .array u m) : t.dimensions = 0 := by
  cases t with
  | array u m => exact absurd rfl (h u m)
  | _ => rfl

/-- Dimensions are added to those that are there, over the same elements. -/
theorem arrayOf_of_pos (t : TypeRef) {n : Nat} (hn : 1 ≤ n) :
    t.arrayOf n = .array t.element (t.dimensions + n) := by
  obtain ⟨u, m, rfl⟩ | ht := t.eq_array_or_ne
  · rw [arrayOf_array, element, dimensions]
  · rw [arrayOf_of_ne_array ht (by omega), element_of_ne_array ht, dimensions_of_ne_array ht,
      Nat.zero_add]

/-! ## What added dimensions hide -/

/-- The first type is an array node without dimensions around the second, which is no array. -/
def IsEmptyArrayOf (t u : TypeRef) : Prop :=
  t = .array u 0 ∧ ∀ v m, u ≠ .array v m

theorem IsEmptyArrayOf.element_eq {t u : TypeRef} (h : t.IsEmptyArrayOf u) :
    t.element = u.element := by
  rw [h.1, element, element_of_ne_array h.2]

theorem IsEmptyArrayOf.dimensions_eq {t u : TypeRef} (h : t.IsEmptyArrayOf u) :
    t.dimensions = u.dimensions := by
  rw [h.1, dimensions, dimensions_of_ne_array h.2]

/-- An array with the elements and dimensions of a type that is no array. -/
theorem isEmptyArrayOf_of_eq {t u : TypeRef} {m : Nat} (hu : ∀ v n, u ≠ .array v n)
    (helement : t = u.element) (hdimensions : m = u.dimensions) :
    (array t m).IsEmptyArrayOf u := by
  rw [helement, hdimensions, element_of_ne_array hu, dimensions_of_ne_array hu]
  exact ⟨rfl, hu⟩

/-- **Elements and dimensions tell a type**, but for an array node without dimensions. -/
theorem element_dimensions_eq_iff {t u : TypeRef} :
    t.element = u.element ∧ t.dimensions = u.dimensions
      ↔ t = u ∨ t.IsEmptyArrayOf u ∨ u.IsEmptyArrayOf t := by
  constructor
  · rintro ⟨helement, hdimensions⟩
    obtain ⟨v, m, rfl⟩ | ht := t.eq_array_or_ne
    · obtain ⟨w, n, rfl⟩ | hu := u.eq_array_or_ne
      · obtain rfl : v = w := helement
        obtain rfl : m = n := hdimensions
        exact .inl rfl
      · exact .inr (.inl (isEmptyArrayOf_of_eq hu helement hdimensions))
    · obtain ⟨w, n, rfl⟩ | hu := u.eq_array_or_ne
      · exact .inr (.inr (isEmptyArrayOf_of_eq ht helement.symm hdimensions.symm))
      · rw [element_of_ne_array ht, element_of_ne_array hu] at helement
        exact .inl helement
  · rintro (rfl | h | h)
    · exact ⟨rfl, rfl⟩
    · exact ⟨h.element_eq, h.dimensions_eq⟩
    · exact ⟨h.element_eq.symm, h.dimensions_eq.symm⟩

/-- Added dimensions leave the elements and the dimensions of a type to be seen, and nothing
else of it. -/
theorem arrayOf_eq_arrayOf_iff {t u : TypeRef} {n : Nat} (hn : 1 ≤ n) :
    t.arrayOf n = u.arrayOf n ↔ t.element = u.element ∧ t.dimensions = u.dimensions := by
  rw [arrayOf_of_pos t hn, arrayOf_of_pos u hn, array.injEq, Nat.add_right_cancel_iff]

end TypeRef

/-- **Adding dimensions is an action of addition**: dimensions that are added one after another
add up, and none added change nothing, whatever the type. The action cancels up to empty arrays:
added dimensions make the same of two types exactly if these are the same, or if one is an array
node without dimensions around the other and the other is no array. -/
theorem dimensions_act_by_addition :
    (∀ (t : TypeRef) (a b : Nat), (t.arrayOf a).arrayOf b = t.arrayOf (a + b))
    ∧ (∀ t : TypeRef, t.arrayOf 0 = t)
    ∧ ∀ (t u : TypeRef) (n : Nat), 1 ≤ n →
        (t.arrayOf n = u.arrayOf n ↔ t = u ∨ t.IsEmptyArrayOf u ∨ u.IsEmptyArrayOf t) := by
  refine ⟨TypeRef.arrayOf_arrayOf, TypeRef.arrayOf_zero, fun t u n hn => ?_⟩
  rw [TypeRef.arrayOf_eq_arrayOf_iff hn, TypeRef.element_dimensions_eq_iff]

/-- An array node without dimensions is lost around a name, and is not around another one. -/
theorem dimensions_act_by_addition_emptyArrays :
    let name : TypeRef := .raw "int"
    let empty : TypeRef := .array name 0
    let double : TypeRef := .array empty 0
    1 ≤ 2 ∧ (double.arrayOf 1).arrayOf 2 = double.arrayOf 3
      ∧ empty.arrayOf 2 = name.arrayOf 2
      ∧ double.arrayOf 2 ≠ empty.arrayOf 2 := by
  intro name empty double
  obtain ⟨hadd, -, hcancel⟩ := dimensions_act_by_addition
  have hempty : empty.IsEmptyArrayOf name := ⟨rfl, nofun⟩
  refine ⟨by decide, hadd double 1 2, (hcancel empty name 2 (by decide)).mpr (.inr (.inl hempty)),
    fun h => ?_⟩
  obtain hsame | hdouble | hname := (hcancel double empty 2 (by decide)).mp h
  · simp [double, empty, name] at hsame
  · exact hdouble.2 name 0 rfl
  · exact absurd hname.1 (by simp [double, empty, name])

end JavaOutline
