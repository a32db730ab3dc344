import JavaOutline.Json.Basic

/-!
# JavaOutline.Json.Prune

Strict documents leave out what says nothing: an entry of an object whose
value is `false`, `[]` or `{}` once its own contents have been pruned. Items
of arrays are pruned but never left out, and neither is the document itself.
-/

namespace JavaOutline.Json

/-- Values that an object need not mention. -/
def isNoise : Json → Bool
  | .bool b => !b
  | .array items => items.isEmpty
  | .object entries => entries.isEmpty
  | .null | .number _ | .string _ => false

mutual
/-- A document without noise: contents first, then the entries themselves. -/
def pruned : Json → Json
  | .array items => .array (prunedItems items)
  | .object entries => .object (prunedEntries entries)
  | j => j

/-- The items of an array, each pruned; none is dropped. -/
def prunedItems : List Json → List Json
  | [] => []
  | j :: js => pruned j :: prunedItems js

/-- The entries of an object whose pruned value is not noise. -/
def prunedEntries : List (String × Json) → List (String × Json)
  | [] => []
  | (key, j) :: entries =>
    let value := pruned j
    if isNoise value then prunedEntries entries
    else (key, value) :: prunedEntries entries
end

/-- Prunes a document if asked to. -/
def prune (j : Json) (enabled : Bool) : Json :=
  if enabled then pruned j else j

end JavaOutline.Json
