import JavaOutline.Proofs.MappedTokens
import JavaOutline.Proofs.NodeShapes

/-!
# JavaOutline.Proofs.AkinTokens

Matching tokens that differ in what stands in front of them.

A pattern sees what stands in front of a token only where an operator or a word is put
together from several tokens, so only of a token behind a certain other one. Tokens that
agree but for what stands in front of them, and agree in that too where such a pair may be
asked to be joined (`Akin`), are matched by the same patterns and form trees of the same
shape (`rel_parse_akin`).
-/

namespace JavaOutline.Grammar

open Source

/-! ## Tokens that are akin -/

/-- A token with nothing in front of it. -/
def bareToken (t : Token) : Token := { t with lead := [] }

/-- The tokens agree in kind and text, and in whether they are joined where one of the pairs
`joints` meets. `before` is the text of the token in front of the first one. -/
def Akin (joints : List (String × String)) : Option String → List Token → List Token → Prop
  | _, [], [] => True
  | before, a :: us, b :: vs =>
    a.kind = b.kind ∧ a.text = b.text
      ∧ (∀ s ∈ before, (s, a.text) ∈ joints → a.isJoined = b.isJoined)
      ∧ Akin joints (some a.text) us vs
  | _, _, _ => False

instance decidableAkin (joints : List (String × String)) : (before : Option String) →
    (us vs : List Token) → Decidable (Akin joints before us vs)
  | _, [], [] => .isTrue trivial
  | _, a :: us, _ :: vs =>
    have := decidableAkin joints (some a.text) us vs
    inferInstanceAs (Decidable (_ ∧ _ ∧ _ ∧ _))
  | _, [], _ :: _ | _, _ :: _, [] => .isFalse id

section

variable {joints : List (String × String)} {before before' : Option String}
  {us vs rest rest' : List Token}

theorem Akin.length_eq (h : Akin joints before us vs) : us.length = vs.length := by
  induction us generalizing before vs with
  | nil => cases vs <;> simp_all [Akin]
  | cons a us ih =>
      cases vs with
      | nil => simp [Akin] at h
      | cons b vs => simpa using ih h.2.2.2

theorem Akin.nil_or_cons (h : Akin joints before us vs) :
    (us = [] ∧ vs = []) ∨ ∃ a us' b vs', us = a :: us' ∧ vs = b :: vs' := by
  cases us with
  | nil => cases vs <;> simp_all [Akin]
  | cons a us => cases vs <;> simp_all [Akin]

/-- With less known of what stands in front of them, tokens are akin all the more. -/
theorem Akin.mono (h : Akin joints before us vs) (hle : ∀ s ∈ before', s ∈ before) :
    Akin joints before' us vs := by
  cases us with
  | nil => cases vs <;> trivial
  | cons a us =>
      cases vs with
      | nil => exact h.elim
      | cons b vs => exact ⟨h.1, h.2.1, fun s hs => h.2.2.1 s (hle s hs), h.2.2.2⟩

/-- So they are where nothing is known of it. -/
theorem Akin.forget (h : Akin joints before us vs) : Akin joints none us vs := h.mono (by simp)

/-- Behind the same token. -/
theorem Akin.cons (t : Token) (h : Akin joints (some t.text) us vs) :
    Akin joints before (t :: us) (t :: vs) := ⟨rfl, rfl, fun _ _ _ => rfl, h⟩

/-- Behind the same tokens. -/
theorem Akin.append (ts : List Token) (h : ∀ before, Akin joints before us vs) :
    Akin joints before (ts ++ us) (ts ++ vs) := by
  induction ts generalizing before with
  | nil => exact h before
  | cons t ts ih => exact .cons t ih

theorem Akin.refl (ts : List Token) : Akin joints before ts ts := by
  induction ts generalizing before with
  | nil => trivial
  | cons t ts ih => exact .cons t ih

/-- Anything may stand in front of a token that is not joined to the one before it. -/
theorem Akin.lead {lead lead' : List Lexeme} {kind : LexemeKind} {text : String}
    (hjoint : ∀ s ∈ before, (s, text) ∉ joints) (h : Akin joints (some text) us vs) :
    Akin joints before (⟨lead, kind, text⟩ :: us) (⟨lead', kind, text⟩ :: vs) :=
  ⟨rfl, rfl, fun s hs hmem => absurd hmem (hjoint s hs), h⟩

end

namespace Pattern

variable {Rule Label : Type}

/-! ## Patterns that ask for joints -/

/-- Does the class ask whether something stands in front of a token only where a joint is? -/
def asksAt (joints : List (String × String)) (before : Option String) : Terminal → Bool
  | .joined s => before.any fun b => joints.contains (b, s)
  | _ => true

/-- The text of the token in front of what follows a match, if the pattern says so. -/
def lastText? (before : Option String) : Pattern Rule Label → Option String
  | .nothing | .ahead _ | .unless _ => before
  | .token (.oneOf [s]) | .token (.joined s) => some s
  | _ => none

/-- Does the pattern ask whether something stands in front of a token only at joints, rules
apart? -/
def asksAtJoints (joints : List (String × String)) (before : Option String) :
    Pattern Rule Label → Bool
  | .nothing | .rule _ => true
  | .token terminal | .ahead terminal | .unless terminal => asksAt joints before terminal
  | .node _ p => asksAtJoints joints before p
  | .seq p q => asksAtJoints joints before p && asksAtJoints joints (p.lastText? before) q
  | .choice p q => asksAtJoints joints before p && asksAtJoints joints before q
  | .many p => asksAtJoints joints none p

variable {joints : List (String × String)} {before : Option String} {a b : Token}
  {us vs input input' : List Token}

/-- A class that asks for joints only does not tell the first tokens apart. -/
theorem accepts_eq_of_asksAt {terminal : Terminal} (h : asksAt joints before terminal = true)
    (hakin : Akin joints before (a :: us) (b :: vs)) :
    terminal.accepts a = terminal.accepts b := by
  obtain ⟨hkind, htext, hjoined, -⟩ := hakin
  cases terminal with
  | joined s =>
      cases before with
      | none => contradiction
      | some c =>
          have hmem : (c, s) ∈ joints := by simpa [asksAt] using h
          rw [Terminal.accepts, Terminal.accepts, ← htext]
          by_cases hs : a.text = s
          · rw [hjoined c rfl (hs ▸ hmem)]
          · rw [beq_eq_false_iff_ne.mpr hs, Bool.and_false, Bool.and_false]
  | _ => simp only [Terminal.accepts, hkind, htext]

/-! ## Matching tokens that are akin -/

/-- The results have trees of the same shape, and the tokens they leave are akin behind a token
of the text `last`. -/
def IsAkin (joints : List (String × String)) (last : Option String)
    (found found' : List (ParseTree Label) × List Token) : Prop :=
  ParseTree.mapAll bareToken found.1 = ParseTree.mapAll bareToken found'.1
    ∧ Akin joints last found.2 found'.2

section

variable {last : Option String} {ts ts' us us' : List (ParseTree Label)}
  {mid mid' rest rest' : List Token}

/-- What is left is akin all the more if nothing is said of the token in front of it. -/
theorem IsAkin.forget (h : IsAkin joints last (ts, rest) (ts', rest')) :
    IsAkin joints none (ts, rest) (ts', rest') :=
  ⟨h.1, h.2.forget⟩

theorem IsAkin.length_lt_iff (hinput : Akin joints before input input')
    (h : IsAkin joints last (ts, rest) (ts', rest')) :
    rest.length < input.length ↔ rest'.length < input'.length := by
  rw [hinput.length_eq, h.2.length_eq]

theorem IsAkin.node {label : Label} (h : IsAkin joints last (ts, rest) (ts', rest')) :
    IsAkin joints none ([.node label ts], rest) ([.node label ts'], rest') :=
  ⟨by simp only [ParseTree.mapAll, ParseTree.map, h.1], h.2.forget⟩

/-- Behind trees of the same shape. -/
theorem IsAkin.behind (h : IsAkin joints before (ts, mid) (ts', mid'))
    (hmore : IsAkin joints last (us, rest) (us', rest')) :
    Behind (IsAkin joints none) ts ts' (us, rest) (us', rest') :=
  ⟨by rw [ParseTree.mapAll_append, ParseTree.mapAll_append, h.1, hmore.1], hmore.2.forget⟩

/-- An accepted token has the text that its pattern says, if it says one. -/
theorem mem_text_of_accepts {terminal : Terminal} (h : terminal.accepts a = true) :
    ∀ s ∈ (Pattern.token terminal : Pattern Rule Label).lastText? before, s ∈ some a.text := by
  intro s hs
  -- only the classes with a single text say which one it is
  unfold lastText? at hs
  split at hs
  case h_4 | h_5 => simp_all [Terminal.accepts]
  all_goals simp_all

/-- The first tokens of tokens that are akin. -/
theorem IsAkin.leaf {terminal : Terminal} (h : Akin joints before (a :: rest) (b :: rest'))
    (haccepts : terminal.accepts a = true) :
    IsAkin joints ((Pattern.token terminal : Pattern Rule Label).lastText? before)
      ([.leaf a], rest) ([(.leaf b : ParseTree Label)], rest') := by
  refine ⟨?_, h.2.2.2.mono (mem_text_of_accepts haccepts)⟩
  simp only [ParseTree.mapAll, ParseTree.map, bareToken, h.1, h.2.1]

end

variable {grammar : Rule → Pattern Rule Label}

/-- **Matching overlooks what stands in front of tokens**, but for joints: on tokens that are
akin a pattern forms trees of the same shape and leaves tokens that are akin. -/
theorem rel_parse_akin (hgrammar : ∀ r, (grammar r).asksAtJoints joints none = true) (depth : Nat)
    {p : Pattern Rule Label} (hp : p.asksAtJoints joints before = true)
    (h : Akin joints before input input') :
    Option.Rel (IsAkin joints (p.lastText? before)) (parse grammar depth p input)
      (parse grammar depth p input') := by
  induction depth, p, input using parse_induction grammar generalizing before input' with
  | nothing => exact rel_nothing ⟨rfl, h⟩
  | token depth terminal input =>
      rcases h.nil_or_cons with ⟨rfl, rfl⟩ | ⟨a, us, b, vs, rfl, rfl⟩
      · simp
      · exact rel_token (accepts_eq_of_asksAt hp h) (IsAkin.leaf h)
  | ahead depth terminal input =>
      rcases h.nil_or_cons with ⟨rfl, rfl⟩ | ⟨a, us, b, vs, rfl, rfl⟩
      · simp
      · exact rel_ahead (accepts_eq_of_asksAt hp h) ⟨rfl, h⟩
  | «unless» depth terminal input =>
      rcases h.nil_or_cons with ⟨rfl, rfl⟩ | ⟨a, us, b, vs, rfl, rfl⟩
      · rw [parse_unless]
        exact .some ⟨rfl, h⟩
      · exact rel_unless (accepts_eq_of_asksAt hp h) ⟨rfl, h⟩
  | stuck => exact .none
  | rule depth r input ih =>
      exact rel_mono (ih (hgrammar r) h.forget) (fun _ _ _ _ h => h.forget)
  | node depth label p input ih => exact rel_node (ih hp h) (fun _ _ _ _ h => h.node)
  | seq depth p q input ih₁ ih₂ ihlater =>
      obtain ⟨hfirst, hsecond⟩ := Bool.and_eq_true_iff.mp hp
      refine rel_seq (ih₁ hfirst h) (fun _ _ _ _ => IsAkin.length_lt_iff h) ?_ ?_
      · intro ts rest ts' rest' hfound hlen
        exact rel_mono (ihlater rest hlen hsecond hfound.2) (fun _ _ _ _ => hfound.behind)
      · intro ts ts' _ hfound
        exact rel_mono (ih₂ hsecond hfound.2) (fun _ _ _ _ => hfound.behind)
  | choice depth p q input ih₁ ih₂ =>
      obtain ⟨hfirst, hsecond⟩ := Bool.and_eq_true_iff.mp hp
      exact rel_choice (rel_mono (ih₁ hfirst h) (fun _ _ _ _ h => h.forget))
        (rel_mono (ih₂ hsecond h) (fun _ _ _ _ h => h.forget))
  | many depth p input ih ihlater =>
      have hmany : (Pattern.many p).asksAtJoints joints none = true := hp
      refine rel_many (ih hp h.forget) (fun _ _ _ _ => IsAkin.length_lt_iff h) ⟨rfl, h.forget⟩ ?_
        (fun _ _ h => h.forget)
      intro ts rest ts' rest' hfound hlen
      exact rel_mono (ihlater rest hlen hmany hfound.2.forget) (fun _ _ _ _ => hfound.behind)

end Pattern

/-! ## The grammar -/

/-- The pairs of texts that are one sign or one word if they are joined. -/
def joints : List (String × String) :=
  [("non", "-"), ("-", "sealed"), (">", ">"), (">", "=")]

theorem asksAtJoints_form : ∀ r ∈ Rule.all, r.form.asksAtJoints joints none = true := by
  decide +kernel

open ParseTree Pattern in
/-- Source files whose tokens are akin have trees of the same shape, if they have any. -/
theorem map_unitTrees?_of_akin {tokens tokens' : List Token}
    (h : Akin joints none tokens tokens') :
    (unitTrees? tokens).map (mapAll bareToken) = (unitTrees? tokens').map (mapAll bareToken) := by
  have hrel : Option.Rel (IsAkin joints none) (parse Rule.form depthLimit unitForm tokens)
      (parse Rule.form depthLimit unitForm tokens') :=
    rel_parse_akin (fun r => asksAtJoints_form r r.mem_all) depthLimit
      (asksAtJoints_form .unit (Rule.mem_all _)) h
  rw [unitTrees?, unitTrees?, Option.map_map, Option.map_map]
  rcases cases_of_rel hrel with ⟨hx, hy⟩ | ⟨ts, rest, ts', rest', hx, hy, hshape, -⟩
  · rw [hx, hy]
  · rw [hx, hy]
    exact congrArg some hshape

end JavaOutline.Grammar
