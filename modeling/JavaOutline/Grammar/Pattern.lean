import JavaOutline.Grammar.ParseTree

/-!
# JavaOutline.Grammar.Pattern

Parsing expressions: grammars as values, and what it means to match one.

A pattern is tried at the start of a list of tokens and either refuses it or
takes some tokens off its front and gives the trees they form. Alternatives are
tried in order and the first one that matches counts; a repetition takes as
much as it can.

`Pattern.parse` is total for every grammar: rules may refer to rules without
taking a token only to a fixed depth, which left recursion would exceed. It
recurses on the number of tokens left, on that depth and on the pattern, in this
order; the equations `parse_seq`, `parse_choice`, `parse_many` and their like say
what it does to each pattern, and only they need to be known of it.
-/

namespace JavaOutline.Grammar

open Source

/-! ## Tokens -/

/-- A class of tokens. -/
inductive Terminal where
  /-- One of some texts. -/
  | oneOf (texts : List String)
  /-- A text with nothing in front of it. -/
  | joined (text : String)
  /-- Any word but some. -/
  | word (except : List String)
  /-- A number or a character. -/
  | literal
  /-- A string or a text block. -/
  | string
  /-- The end of the file. -/
  | finish
  deriving Repr, DecidableEq, Inhabited

/-- Is the token in the class? -/
def Terminal.accepts : Terminal → Token → Bool
  | .oneOf texts, t => texts.contains t.text
  | .joined text, t => t.isJoined && t.text == text
  | .word except, t => t.kind == .word && !except.contains t.text
  | .literal, t => t.kind == .literal
  | .string, t => t.kind == .string
  | .finish, t => t.text == ""

/-! ## Patterns -/

/-- A parsing expression over rules and labels. -/
inductive Pattern (Rule Label : Type) where
  /-- Matches anything and takes nothing. -/
  | nothing
  /-- One token of a class. -/
  | token (terminal : Terminal)
  /-- Takes nothing; the next token must be in the class. -/
  | ahead (terminal : Terminal)
  /-- Takes nothing; the next token must not be in the class. -/
  | unless (terminal : Terminal)
  /-- The pattern of a rule. -/
  | rule (rule : Rule)
  /-- A pattern whose trees become the children of one node. -/
  | node (label : Label) (body : Pattern Rule Label)
  | seq (first second : Pattern Rule Label)
  | choice (first second : Pattern Rule Label)
  /-- As many matches as there are. -/
  | many (body : Pattern Rule Label)
  deriving Inhabited

namespace Pattern

variable {Rule Label : Type}

/-! ## Derived forms -/

/-- Several patterns in a row. -/
def all : List (Pattern Rule Label) → Pattern Rule Label
  | [] => .nothing
  | [p] => p
  | p :: ps => .seq p (all ps)

/-- The first of several patterns that matches; a list of none only stands for
nothing at all. -/
def any : List (Pattern Rule Label) → Pattern Rule Label
  | [] => .nothing
  | [p] => p
  | p :: ps => .choice p (any ps)

/-- A pattern, or nothing. -/
def maybe (p : Pattern Rule Label) : Pattern Rule Label := .choice p .nothing

/-- At least one match. -/
def oneOrMore (p : Pattern Rule Label) : Pattern Rule Label := .seq p (.many p)

/-- One token with the given text. -/
def text (s : String) : Pattern Rule Label := .token (.oneOf [s])

/-- At least one match, with a separator between matches. -/
def separated (separator : String) (p : Pattern Rule Label) : Pattern Rule Label :=
  .seq p (.many (.seq (text separator) p))

/-- Any number of matches with commas between them. -/
def commaSeparated (p : Pattern Rule Label) : Pattern Rule Label := maybe (separated "," p)

/-! ## Matching -/

/-- What matching a pattern gives: the trees it forms and the tokens it
leaves. -/
abbrev Match (Label : Type) := Option (List (ParseTree Label) × List Token)

/-- A way to match the patterns that stand for something. -/
abbrev Matcher (α Label : Type) := α → List Token → Match Label

/-- How deep rules may refer to rules before a token is taken. -/
def depthLimit : Nat := 40

/-- Matches a pattern at the start of `input`. `rule` matches a rule in the same
place; `later` matches a pattern where fewer tokens are left. -/
def matchWith (rule : Matcher Rule Label) (later : Matcher (Pattern Rule Label) Label)
    (p : Pattern Rule Label) (input : List Token) : Match Label :=
  match p with
  | .nothing => some ([], input)
  | .token terminal =>
    match input with
    | [] => none
    | t :: rest => if terminal.accepts t then some ([.leaf t], rest) else none
  | .ahead terminal =>
    match input with
    | [] => none
    | t :: _ => if terminal.accepts t then some ([], input) else none
  | .unless terminal =>
    match input with
    | [] => some ([], input)
    | t :: _ => if terminal.accepts t then none else some ([], input)
  | .rule r => rule r input
  | .node label body =>
    match matchWith rule later body input with
    | none => none
    | some (children, rest) => some ([.node label children], rest)
  | .seq first second =>
    match matchWith rule later first input with
    | none => none
    | some (ts, rest) =>
      if rest.length < input.length then
        match later second rest with
        | none => none
        | some (us, rest) => some (ts ++ us, rest)
      else
        match matchWith rule later second input with
        | none => none
        | some (us, rest) => some (ts ++ us, rest)
  | .choice first second =>
    match matchWith rule later first input with
    | none => matchWith rule later second input
    | found => found
  | .many body =>
    match matchWith rule later body input with
    | none => some ([], input)
    | some (ts, rest) =>
      if rest.length < input.length then
        match later (.many body) rest with
        | none => none
        | some (us, rest) => some (ts ++ us, rest)
      else some (ts, input)

/-- Matches a pattern whose rules may refer to rules to the given depth. -/
def matchToDepth (grammar : Rule → Pattern Rule Label)
    (later : Matcher (Pattern Rule Label) Label) : Nat → Matcher (Pattern Rule Label) Label
  | 0 => matchWith (fun _ _ => none) later
  | depth + 1 => matchWith (fun r => matchToDepth grammar later depth (grammar r)) later

/-- Matches a pattern where fewer than `n` tokens are left. -/
def matchBelow (grammar : Rule → Pattern Rule Label) : Nat → Matcher (Pattern Rule Label) Label
  | 0 => fun _ _ => none
  | n + 1 => matchToDepth grammar (matchBelow grammar n) depthLimit

/-- Matches a pattern at the start of `input`: the trees it forms and the
tokens it leaves. -/
def parse (grammar : Rule → Pattern Rule Label) (depth : Nat) (p : Pattern Rule Label)
    (input : List Token) : Match Label :=
  matchToDepth grammar (matchBelow grammar input.length) depth p input

/-! ## Equations of matching -/

section

variable {rule rule' : Matcher Rule Label} {later later' : Matcher (Pattern Rule Label) Label}

/-- Matching depends on how rules are matched here, and on how patterns are
matched where fewer tokens are left. -/
theorem matchWith_congr {input : List Token} (hr : ∀ r, rule r input = rule' r input)
    (hl : ∀ q rest, rest.length < input.length → later q rest = later' q rest)
    (p : Pattern Rule Label) : matchWith rule later p input = matchWith rule' later' p input := by
  induction p with
  | nothing | token | ahead | «unless» => rfl
  | rule r => exact hr r
  | node label body ih => simp [matchWith, ih]
  | seq first second ih₁ ih₂ =>
    simp only [matchWith, ih₁, ih₂]
    split
    · rfl
    · split
      · rename_i h; rw [hl _ _ h]
      · rfl
  | choice first second ih₁ ih₂ => simp [matchWith, ih₁, ih₂]
  | many body ih =>
    simp only [matchWith, ih]
    split
    · rfl
    · split
      · rename_i h; rw [hl _ _ h]
      · rfl

variable (grammar : Rule → Pattern Rule Label)

theorem matchToDepth_congr {input : List Token}
    (hl : ∀ q rest, rest.length < input.length → later q rest = later' q rest)
    (depth : Nat) (p : Pattern Rule Label) :
    matchToDepth grammar later depth p input = matchToDepth grammar later' depth p input := by
  induction depth generalizing p with
  | zero => exact matchWith_congr (fun _ => rfl) hl p
  | succ depth ih => exact matchWith_congr (fun r => ih (grammar r)) hl p

/-- Any bound above the number of tokens gives the same match. -/
theorem matchBelow_eq_parse {n : Nat} {input : List Token} (h : input.length < n)
    (p : Pattern Rule Label) : matchBelow grammar n p input = parse grammar depthLimit p input := by
  induction n using Nat.strongRecOn generalizing p input with
  | ind n ih =>
    cases n with
    | zero => omega
    | succ n =>
      refine matchToDepth_congr grammar (fun q rest hq => ?_) depthLimit p
      rw [ih n (by omega) (by omega), ih input.length h hq]

/-- What `parse` does where fewer tokens are left. -/
theorem matchBelow_length {input rest : List Token} (h : rest.length < input.length)
    (p : Pattern Rule Label) :
    matchBelow grammar input.length p rest = parse grammar depthLimit p rest :=
  matchBelow_eq_parse grammar h p

variable (depth : Nat) (input : List Token)

@[simp] theorem parse_nothing : parse grammar depth .nothing input = some ([], input) := by
  cases depth <;> rfl

@[simp] theorem parse_token (terminal : Terminal) :
    parse grammar depth (.token terminal) input = match input with
      | [] => none
      | t :: rest => if terminal.accepts t then some ([.leaf t], rest) else none := by
  cases depth <;> rfl

@[simp] theorem parse_ahead (terminal : Terminal) :
    parse grammar depth (.ahead terminal) input = match input with
      | [] => none
      | t :: _ => if terminal.accepts t then some ([], input) else none := by
  cases depth <;> rfl

@[simp] theorem parse_unless (terminal : Terminal) :
    parse grammar depth (.unless terminal) input = match input with
      | [] => some ([], input)
      | t :: _ => if terminal.accepts t then none else some ([], input) := by
  cases depth <;> rfl

@[simp] theorem parse_rule_zero (r : Rule) : parse grammar 0 (.rule r) input = none := rfl

@[simp] theorem parse_rule_succ (r : Rule) :
    parse grammar (depth + 1) (.rule r) input = parse grammar depth (grammar r) input := rfl

theorem parse_node (label : Label) (body : Pattern Rule Label) :
    parse grammar depth (.node label body) input = match parse grammar depth body input with
      | none => none
      | some (children, rest) => some ([.node label children], rest) := by
  cases depth <;> rfl

theorem parse_seq (first second : Pattern Rule Label) :
    parse grammar depth (.seq first second) input = match parse grammar depth first input with
      | none => none
      | some (ts, rest) =>
        if rest.length < input.length then
          match parse grammar depthLimit second rest with
          | none => none
          | some (us, rest) => some (ts ++ us, rest)
        else match parse grammar depth second input with
          | none => none
          | some (us, rest) => some (ts ++ us, rest) := by
  cases depth <;>
  · simp only [parse, matchToDepth, matchWith]
    split
    · rfl
    · split
      · rename_i h; rw [matchBelow_length grammar h]; rfl
      · rfl

theorem parse_choice (first second : Pattern Rule Label) :
    parse grammar depth (.choice first second) input = match parse grammar depth first input with
      | none => parse grammar depth second input
      | found => found := by
  cases depth <;> rfl

theorem parse_many (body : Pattern Rule Label) :
    parse grammar depth (.many body) input = match parse grammar depth body input with
      | none => some ([], input)
      | some (ts, rest) =>
        if rest.length < input.length then
          match parse grammar depthLimit (.many body) rest with
          | none => none
          | some (us, rest) => some (ts ++ us, rest)
        else some (ts, input) := by
  cases depth <;>
  · simp only [parse, matchToDepth, matchWith]
    split
    · rfl
    · split
      · rename_i h; rw [matchBelow_length grammar h]; rfl
      · rfl

end

/-! ## How far matching looks -/

/-- How many tokens are left at the furthest token that matching a pattern
looks at. -/
def reach (grammar : Rule → Pattern Rule Label) (depth : Nat) (p : Pattern Rule Label)
    (input : List Token) : Nat :=
  match p with
  | .nothing | .token _ | .ahead _ | .unless _ => input.length
  | .rule r =>
    match depth with
    | 0 => input.length
    | depth + 1 => reach grammar depth (grammar r) input
  | .node _ body => reach grammar depth body input
  | .seq first second =>
    let near := reach grammar depth first input
    match parse grammar depth first input with
    | none => near
    | some (_, rest) =>
      if rest.length < input.length then min near (reach grammar depthLimit second rest)
      else min near (reach grammar depth second input)
  | .choice first second =>
    let near := reach grammar depth first input
    match parse grammar depth first input with
    | none => min near (reach grammar depth second input)
    | some _ => near
  | .many body =>
    let near := reach grammar depth body input
    match parse grammar depth body input with
    | none => near
    | some (_, rest) =>
      if rest.length < input.length then min near (reach grammar depthLimit (.many body) rest)
      else near
termination_by (input.length, depth, sizeOf p)
decreasing_by all_goals simp_wf; grind

end Pattern

end JavaOutline.Grammar
