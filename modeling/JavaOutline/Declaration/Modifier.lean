/-!
# JavaOutline.Declaration.Modifier

The modifier keywords of a declaration and their spelling.
-/

namespace JavaOutline

/-- A modifier keyword. -/
inductive Modifier where
  | publicAccess | protectedAccess | privateAccess | abstract | static | final | transient
  | volatile | synchronized | native | default | strictfp | sealed | nonSealed
  deriving Repr, DecidableEq, Inhabited

namespace Modifier

/-- All modifiers. -/
def all : List Modifier :=
  [.publicAccess, .protectedAccess, .privateAccess, .abstract, .static, .final, .transient,
    .volatile, .synchronized, .native, .default, .strictfp, .sealed, .nonSealed]

theorem mem_all (m : Modifier) : m ∈ all := by cases m <;> decide

/-- The keyword of a modifier. -/
def keyword : Modifier → String
  | .publicAccess => "public"
  | .protectedAccess => "protected"
  | .privateAccess => "private"
  | .abstract => "abstract"
  | .static => "static"
  | .final => "final"
  | .transient => "transient"
  | .volatile => "volatile"
  | .synchronized => "synchronized"
  | .native => "native"
  | .default => "default"
  | .strictfp => "strictfp"
  | .sealed => "sealed"
  | .nonSealed => "non-sealed"

/-- The modifier with the given keyword. -/
def ofKeyword? (word : String) : Option Modifier :=
  all.find? (·.keyword == word)

theorem ofKeyword?_keyword (m : Modifier) : ofKeyword? m.keyword = some m := by
  cases m <;> decide

end Modifier

end JavaOutline
