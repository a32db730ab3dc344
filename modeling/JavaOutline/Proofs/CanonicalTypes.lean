import JavaOutline.Proofs.Characters
import JavaOutline.Proofs.Lexing
import JavaOutline.Structure.TypeRef

/-!
# JavaOutline.Proofs.CanonicalTypes

The types that source text can spell, and the trees that spell them.

A type is canonical if it is built the way the grammar builds types: a name, a
name with arguments, or an array of one of these. Its tree, `typeTree`, is the one
a parser is meant to find for its canonical text; what the tree reads like and what
it means is in `JavaOutline.Proofs.TypeTrees`, and that a parser finds it in
`JavaOutline.Proofs.TypeReading`.
-/

namespace JavaOutline

open Source Grammar Structure

/-! ## Names of types -/

/-- The words that are keywords or literals everywhere in the language. -/
def keywords : List String :=
  ["abstract", "assert", "boolean", "break", "byte", "case", "catch", "char", "class", "const",
    "continue", "default", "do", "double", "else", "enum", "extends", "final", "finally", "float",
    "for", "goto", "if", "implements", "import", "instanceof", "int", "interface", "long",
    "native", "new", "package", "private", "protected", "public", "return", "short", "static",
    "strictfp", "super", "switch", "synchronized", "this", "throw", "throws", "transient", "try",
    "void", "volatile", "while", "true", "false", "null"]

/-- The words that are keywords somewhere in the language. -/
def contextualKeywords : List String :=
  ["exports", "module", "open", "opens", "permits", "provides", "record", "requires", "sealed",
    "to", "transitive", "uses", "var", "when", "with", "yield"]

/-- Is the text an identifier and no keyword of either sort? -/
def isIdentifier (s : String) : Bool :=
  isWord s && !keywords.contains s && !contextualKeywords.contains s

/-- The texts between the dots of a name. -/
def segments (name : String) : List String := (name.toList.splitOn '.').map String.ofList

/-- Does the name consist of identifiers with dots between them? -/
def isTypeName (name : String) : Bool := (segments name).all isIdentifier

theorem intercalate_segments (name : String) : ".".intercalate (segments name) = name := by
  have hmap : (segments name).map String.toList = name.toList.splitOn '.' := by
    simp [segments, Function.comp_def]
  rw [← String.toList_inj, String.toList_intercalate, hmap]
  exact List.intercalate_splitOn '.'

/-- A name has segments, and is what they spell. -/
theorem exists_segments (name : String) :
    ∃ w ws, segments name = w :: ws ∧ name = w ++ String.join (ws.map ("." ++ ·)) := by
  cases hs : segments name with
  | nil => simp [segments] at hs
  | cons w ws =>
      refine ⟨w, ws, rfl, ?_⟩
      rw [← intercalate_eq_append_join, ← hs, intercalate_segments]

/-- Is the text made of words with dots between them? -/
def IsDotted (name : String) : Prop := ∀ w ∈ segments name, isWord w = true

theorem isDotted_of_primitive : ∀ {name : String}, name ∈ primitiveTypes → IsDotted name := by
  simp only [IsDotted]
  decide

theorem isDotted_of_isTypeName {name : String} (h : isTypeName name = true) : IsDotted name := by
  intro w hw
  have hid : isIdentifier w = true := List.all_eq_true.mp h w hw
  simp only [isIdentifier, Bool.and_eq_true] at hid
  exact hid.1.1

/-- No white space is in such a text. -/
theorem IsDotted.compact_eq {name : String} (h : IsDotted name) : compact name = name := by
  obtain ⟨w, ws, hs, htext⟩ := exists_segments name
  have hwords : ∀ v ∈ w :: ws, ∀ c ∈ v.toList, isWhiteSpace c = false := fun v hv c hc =>
    isWhiteSpace_of_isNamePart (isNamePart_of_isWord (h v (hs ▸ hv)) c hc)
  rw [List.forall_mem_cons] at hwords
  refine compact_eq_self fun c hc => ?_
  rw [htext, String.toList_append, String.toList_join, List.mem_append, List.mem_flatMap] at hc
  rcases hc with hc | ⟨s, hs, hc⟩
  · exact hwords.1 c hc
  · obtain ⟨v, hv, rfl⟩ := List.mem_map.mp hs
    rw [String.toList_append, List.mem_append] at hc
    rcases hc with hc | hc
    · obtain rfl : c = '.' := by simpa using hc
      decide
    · exact hwords.2 v hv c hc

/-- Identifiers are reserved in no place. -/
theorem notMem_reserved_of_isIdentifier (place : Place) {w : String} (h : isIdentifier w = true) :
    w ∉ place.reserved := by
  have hreserved : ∀ w ∈ place.reserved, isIdentifier w = false := by
    cases place <;> decide
  intro hw
  rw [hreserved w hw] at h
  contradiction

/-- Is the word the first one of a type in the place? -/
def BeginsType (place : Place) (w : String) : Prop :=
  w ∈ primitiveTypes ∨ (isWord w = true ∧ w ∉ keywords ∧ w ∉ place.reserved)

instance (place : Place) : DecidablePred (BeginsType place) := fun w =>
  inferInstanceAs (Decidable (w ∈ primitiveTypes ∨ (isWord w = true ∧ w ∉ keywords
    ∧ w ∉ place.reserved)))

section

variable {place : Place} {name w : String} {ws : List String}

theorem isWord_of_beginsType (h : BeginsType place w) : isWord w = true := by
  have hprimitive : ∀ w ∈ primitiveTypes, isWord w = true := by decide
  cases h with
  | inl h => exact hprimitive w h
  | inr h => exact h.1

theorem beginsType_of_isIdentifier (h : isIdentifier w = true) : BeginsType place w := by
  have hreserved : w ∉ place.reserved := notMem_reserved_of_isIdentifier place h
  simp only [isIdentifier, Bool.and_eq_true, Bool.not_eq_true', List.contains_eq_mem,
    decide_eq_false_iff_not] at h
  exact .inr ⟨h.1.1, h.1.2, hreserved⟩

theorem beginsType_of_primitive (h : name ∈ primitiveTypes) (hs : segments name = w :: ws) :
    BeginsType place w := by
  have hself : ∀ name ∈ primitiveTypes, segments name = [name] := by decide
  rw [hself name h, List.cons.injEq] at hs
  rw [← hs.1]
  exact .inl h

theorem isIdentifier_of_isTypeName (h : isTypeName name = true) (hs : segments name = w :: ws) :
    isIdentifier w = true := by
  rw [isTypeName, hs, List.all_cons, Bool.and_eq_true] at h
  exact h.1

theorem notMem_reserved_of_isTypeName (place : Place) (h : isTypeName name = true)
    (hs : segments name = w :: ws) : w ∉ place.reserved :=
  notMem_reserved_of_isIdentifier place (isIdentifier_of_isTypeName h hs)

theorem beginsType_of_isTypeName (h : isTypeName name = true) (hs : segments name = w :: ws) :
    BeginsType place w :=
  beginsType_of_isIdentifier (isIdentifier_of_isTypeName h hs)

end

/-! ## Canonical types -/

namespace TypeRef

mutual
/-- A canonical type without dimensions. -/
inductive IsElement : TypeRef → Prop
  | primitive {name : String} (h : name ∈ primitiveTypes) : IsElement (.raw name)
  | named {name : String} (h : isTypeName name = true) : IsElement (.raw name)
  | generic {name : String} {args : List TypeRef} (h : isTypeName name = true)
      (hargs : ∀ a ∈ args, IsArgument a) : IsElement (.generic (.raw name) args)

/-- A canonical type. -/
inductive IsCanonical : TypeRef → Prop
  | element {t : TypeRef} (h : IsElement t) : IsCanonical t
  | array {t : TypeRef} {n : Nat} (h : IsElement t) (hn : 1 ≤ n) : IsCanonical (.array t n)

/-- A canonical type, or a wildcard that a canonical type bounds if anything does. -/
inductive IsArgument : TypeRef → Prop
  | type {t : TypeRef} (h : IsCanonical t) : IsArgument t
  | unbounded : IsArgument (.wildcard none true)
  | bounded {t : TypeRef} (h : IsCanonical t) (isUpper : Bool) :
      IsArgument (.wildcard (some t) isUpper)
end

end TypeRef

/-! ## Their trees -/

/-- A word. -/
def wordToken (lead : List Lexeme) (w : String) : Token := ⟨lead, .word, w⟩

/-- A symbol with nothing in front of it. -/
def signToken (s : String) : Token := ⟨[], .symbol, s⟩

/-- A symbol as a tree. -/
def signLeaf (s : String) : SyntaxTree := .leaf (signToken s)

/-- The segments of a name behind the first one. -/
def dottedTokens (ws : List String) : List Token :=
  ws.flatMap fun v => [signToken ".", wordToken [] v]

/-- The tokens of a name; `lead` stands in front of it. -/
def nameTokens (lead : List Lexeme) : List String → List Token
  | [] => []
  | w :: ws => wordToken lead w :: dottedTokens ws

/-- A name as trees. -/
def nameTrees (lead : List Lexeme) (name : String) : List SyntaxTree :=
  (nameTokens lead (segments name)).map .leaf

/-- Trees with a comma in front of each. -/
def afterCommas (ts : List SyntaxTree) : List SyntaxTree := ts.flatMap fun t => [signLeaf ",", t]

/-- Trees with commas between them. -/
def withCommas : List SyntaxTree → List SyntaxTree
  | [] => []
  | t :: ts => t :: afterCommas ts

/-- Type arguments. -/
def argumentsTree (args : List SyntaxTree) : SyntaxTree :=
  .node .typeArguments (signLeaf "<" :: (withCommas args ++ [signLeaf ">"]))

/-- So many pairs of brackets. -/
def bracketTokens : Nat → List Token
  | 0 => []
  | n + 1 => signToken "[" :: signToken "]" :: bracketTokens n

/-- Brackets as a tree. -/
def bracketsTree (n : Nat) : SyntaxTree := .node .dimensions ((bracketTokens n).map .leaf)

/-- The word between a wildcard and its bound. -/
def boundWord (isUpper : Bool) : String := if isUpper then "extends" else "super"

mutual
/-- The tree of a type; `lead` stands in front of it. -/
def typeTree (lead : List Lexeme) : TypeRef → SyntaxTree
  | .raw name => .node .type [.node .named (nameTrees lead name)]
  | .generic base args =>
    .node .type [.node .named (nameTrees lead base.render ++ [argumentsTree (argumentTrees args)])]
  | .array element n => .node .type ((typeTree lead element).children ++ [bracketsTree n])
  | .wildcard none _ => .node .wildcard [.leaf ⟨lead, .symbol, "?"⟩]
  | .wildcard (some bound) isUpper =>
    .node .wildcard [.leaf ⟨lead, .symbol, "?"⟩, .leaf (wordToken space (boundWord isUpper)),
      typeTree space bound]

/-- The trees of a list of type arguments. -/
def argumentTrees : List TypeRef → List SyntaxTree
  | [] => []
  | t :: ts => typeTree [] t :: argumentTrees ts
end

theorem argumentTrees_eq_map (ts : List TypeRef) : argumentTrees ts = ts.map (typeTree []) := by
  induction ts with
  | nil => rfl
  | cons t ts ih => simp [argumentTrees, ih]

end JavaOutline
