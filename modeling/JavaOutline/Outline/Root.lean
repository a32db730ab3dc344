import JavaOutline.Outline.Build

/-!
# JavaOutline.Outline.Root

The type that stands for a whole file: the first public one, or the last one
when none is public.
-/

namespace JavaOutline

/-- Takes out the item at a position, which the last item fills. -/
def swapRemove? (items : List α) (i : Nat) : Option (α × List α) := do
  let removed ← items[i]?
  let last ← items.getLast?
  return (removed, (items.set i last).dropLast)

/-- The position of the outline that stands for a list of outlines. -/
def Outline.rootIndex? (outlines : List Outline) : Option Nat :=
  match outlines.length with
  | 0 => none
  | 1 => some 0
  | n =>
    match outlines.findIdx? (·.flags.isPublic) with
    | some i => some i
    | none => some (n - 1)

/-- The outline that stands for a list of outlines. -/
def Outline.root? (outlines : List Outline) : Option Outline := do
  let (root, _) ← swapRemove? outlines (← rootIndex? outlines)
  return root

/-- The outline that stands for a list of top-level declarations. -/
def Outline.rootOf? (declarations : List Declaration) : Option Outline :=
  Outline.root? (declarations.map (Outline.ofDeclaration · none))

end JavaOutline
