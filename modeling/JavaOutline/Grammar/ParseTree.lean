import JavaOutline.Source.Token

/-!
# JavaOutline.Grammar.ParseTree

Syntax trees: labelled nodes over the tokens of a source file. The tokens keep
what stands in front of them, so a tree knows the exact text it was read from.

A comment belongs to the innermost node that has tokens on both sides of it:
it is a child of that node, in front of the child whose first token it leads.
-/

namespace JavaOutline.Grammar

open Source

/-- A syntax tree. -/
inductive ParseTree (Label : Type) where
  | leaf (token : Token)
  | node (label : Label) (children : List (ParseTree Label))
  deriving Inhabited

namespace ParseTree

variable {Label : Type}

mutual
/-- Are two trees the same? -/
def decEq [DecidableEq Label] : (t u : ParseTree Label) → Decidable (t = u)
  | .leaf t, .leaf u => decidable_of_iff (t = u) (by simp)
  | .node l ts, .node m us =>
    have := decEqAll ts us
    decidable_of_iff (l = m ∧ ts = us) (by simp)
  | .leaf _, .node _ _ | .node _ _, .leaf _ => .isFalse (by simp)

/-- Are two lists of trees the same? -/
def decEqAll [DecidableEq Label] : (ts us : List (ParseTree Label)) → Decidable (ts = us)
  | [], [] => .isTrue rfl
  | t :: ts, u :: us =>
    have := decEq t u
    have := decEqAll ts us
    decidable_of_iff (t = u ∧ ts = us) (by simp)
  | [], _ :: _ | _ :: _, [] => .isFalse (by simp)
end

instance [DecidableEq Label] : DecidableEq (ParseTree Label) := decEq

mutual
/-- The tokens of a tree. -/
def tokens : ParseTree Label → List Token
  | .leaf t => [t]
  | .node _ children => tokensAll children

/-- The tokens of a list of trees. -/
def tokensAll : List (ParseTree Label) → List Token
  | [] => []
  | t :: ts => tokens t ++ tokensAll ts
end

theorem tokensAll_eq_flatMap (ts : List (ParseTree Label)) : tokensAll ts = ts.flatMap tokens := by
  induction ts with
  | nil => rfl
  | cons t ts ih => simp [tokensAll, ih]

theorem tokensAll_append (ts us : List (ParseTree Label)) :
    tokensAll (ts ++ us) = tokensAll ts ++ tokensAll us := by
  simp only [tokensAll_eq_flatMap, List.flatMap_append]

/-- Tokens may stand for themselves. -/
theorem tokensAll_map_leaf (ts : List Token) :
    tokensAll (ts.map (leaf : Token → ParseTree Label)) = ts := by
  induction ts with
  | nil => rfl
  | cons t ts ih => simp [tokensAll, tokens, ih]

/-- The children of a node; a leaf has none. -/
def children : ParseTree Label → List (ParseTree Label)
  | .leaf _ => []
  | .node _ ts => ts

/-- The label of a node. -/
def label? : ParseTree Label → Option Label
  | .leaf _ => none
  | .node label _ => some label

/-- The children of the first node with the given label in a list of trees, if
there is one. -/
def inside? [BEq Label] (label : Label) (ts : List (ParseTree Label)) :
    Option (List (ParseTree Label)) :=
  ts.findSome? fun
    | .leaf _ => none
    | .node l us => if l == label then some us else none

/-- The children of the first node with the given label in a list of trees. -/
def inside [BEq Label] (label : Label) (ts : List (ParseTree Label)) : List (ParseTree Label) :=
  (inside? label ts).getD []

/-- Is the tree the token with the given text? -/
def isText (s : String) : ParseTree Label → Bool
  | .leaf t => t.text == s
  | .node _ _ => false

/-- The comments that stand in front of a tree. -/
def comments (t : ParseTree Label) : List String :=
  match t.tokens with
  | [] => []
  | first :: _ => first.comments

/-! ## Text -/

/-- The text of a list of tokens, from the first to the last; `between` gives
the text between two tokens, as far as it counts. -/
def spell (between : Token → String) : List Token → String
  | [] => ""
  | first :: rest => first.text ++ String.join (rest.map fun t => between t ++ t.text)

/-- The source text of a list of trees, unchanged. -/
def sourceText (ts : List (ParseTree Label)) : String :=
  spell Token.leadText (tokensAll ts)

/-- The source text of a list of trees without white space; comments stay. -/
def compactText (ts : List (ParseTree Label)) : String :=
  compact (spell (fun t => String.join t.comments) (tokensAll ts))

end ParseTree

end JavaOutline.Grammar
