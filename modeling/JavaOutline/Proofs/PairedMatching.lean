import JavaOutline.Proofs.Matching

/-!
# JavaOutline.Proofs.PairedMatching

Matching one pattern on two inputs, side by side.

Two matches keep together (`Option.Rel Q`) if both fail, or both succeed and `Q` relates what
they give. There is a rule for each way of building patterns, so by `parse_induction` two
matches keep together on all inputs that are related, as long as no terminal tells the next
tokens apart and both take tokens or neither does.
-/

namespace JavaOutline.Grammar.Pattern

open Source

variable {Rule Label : Type} {grammar : Rule → Pattern Rule Label} {depth : Nat}
  {Q Q' : List (ParseTree Label) × List Token → List (ParseTree Label) × List Token → Prop}

theorem rel_mono {x y : Match Label} (h : Option.Rel Q x y)
    (hQ : ∀ ts rest ts' rest', Q (ts, rest) (ts', rest') → Q' (ts, rest) (ts', rest')) :
    Option.Rel Q' x y := by
  cases h with
  | none => exact .none
  | some h => exact .some (hQ _ _ _ _ h)

theorem cases_of_rel {x y : Match Label} (h : Option.Rel Q x y) :
    (x = none ∧ y = none) ∨ ∃ ts rest ts' rest', x = some (ts, rest) ∧ y = some (ts', rest')
      ∧ Q (ts, rest) (ts', rest') := by
  cases h with
  | none => exact .inl ⟨rfl, rfl⟩
  | some h => exact .inr ⟨_, _, _, _, rfl, rfl, h⟩

/-- A match keeps together with itself. -/
theorem rel_self {x : Match Label} (hQ : ∀ ts rest, x = some (ts, rest) → Q (ts, rest) (ts, rest)) :
    Option.Rel Q x x := by
  cases x with
  | none => exact .none
  | some found => exact .some (hQ found.1 found.2 rfl)

/-- What is asked of two results that come behind the trees `ts` and `ts'`. -/
def Behind (Q : List (ParseTree Label) × List Token → List (ParseTree Label) × List Token → Prop)
    (ts ts' : List (ParseTree Label)) (found found' : List (ParseTree Label) × List Token) : Prop :=
  Q (ts ++ found.1, found.2) (ts' ++ found'.1, found'.2)

/-! ## The next tokens -/

section

variable {terminal : Terminal} {a b : Token} {us vs : List Token}
  (haccepts : terminal.accepts a = terminal.accepts b)

include haccepts

theorem rel_token (hQ : terminal.accepts a = true → Q ([.leaf a], us) ([.leaf b], vs)) :
    Option.Rel Q (parse grammar depth (.token terminal) (a :: us))
      (parse grammar depth (.token terminal) (b :: vs)) := by
  simp only [parse_token, ← haccepts]
  split
  · next h => exact .some (hQ h)
  · exact .none

theorem rel_ahead (hQ : Q ([], a :: us) ([], b :: vs)) :
    Option.Rel Q (parse grammar depth (.ahead terminal) (a :: us))
      (parse grammar depth (.ahead terminal) (b :: vs)) := by
  simp only [parse_ahead, ← haccepts]
  split
  · exact .some hQ
  · exact .none

theorem rel_unless (hQ : Q ([], a :: us) ([], b :: vs)) :
    Option.Rel Q (parse grammar depth (.unless terminal) (a :: us))
      (parse grammar depth (.unless terminal) (b :: vs)) := by
  simp only [parse_unless, ← haccepts]
  split
  · exact .none
  · exact .some hQ

end

/-! ## Patterns of patterns -/

section

variable {p q : Pattern Rule Label} {input input' : List Token}

theorem rel_nothing (hQ : Q ([], input) ([], input')) :
    Option.Rel Q (parse grammar depth .nothing input) (parse grammar depth .nothing input') := by
  rw [parse_nothing, parse_nothing]
  exact .some hQ

theorem rel_node {label : Label}
    (h : Option.Rel Q (parse grammar depth p input) (parse grammar depth p input'))
    (hQ : ∀ ts rest ts' rest', Q (ts, rest) (ts', rest') →
      Q' ([.node label ts], rest) ([.node label ts'], rest')) :
    Option.Rel Q' (parse grammar depth (.node label p) input)
      (parse grammar depth (.node label p) input') := by
  rw [parse_node, parse_node]
  rcases cases_of_rel h with ⟨hx, hy⟩ | ⟨ts, rest, ts', rest', hx, hy, h⟩
  · rw [hx, hy]
    exact .none
  · rw [hx, hy]
    exact .some (hQ ts rest ts' rest' h)

theorem rel_choice (hp : Option.Rel Q (parse grammar depth p input) (parse grammar depth p input'))
    (hq : Option.Rel Q (parse grammar depth q input) (parse grammar depth q input')) :
    Option.Rel Q (parse grammar depth (.choice p q) input)
      (parse grammar depth (.choice p q) input') := by
  rw [parse_choice, parse_choice]
  rcases cases_of_rel hp with ⟨hx, hy⟩ | ⟨ts, rest, ts', rest', hx, hy, hfound⟩
  · rw [hx, hy]
    exact hq
  · rw [hx, hy]
    exact .some hfound

/-- Trees in front of both matches. -/
theorem rel_prepend {x y : Match Label} {ts ts' : List (ParseTree Label)} :
    Option.Rel (Behind Q ts ts') x y → Option.Rel Q
      (match x with
        | none => none
        | some (us, rest) => some (ts ++ us, rest))
      (match y with
        | none => none
        | some (us, rest) => some (ts' ++ us, rest)) := by
  intro h
  cases h with
  | none => exact .none
  | some h => exact .some h

section

variable (hp : Option.Rel Q (parse grammar depth p input) (parse grammar depth p input'))
  (hprogress : ∀ ts rest ts' rest', Q (ts, rest) (ts', rest') →
    (rest.length < input.length ↔ rest'.length < input'.length))

include hp hprogress

/-- The second part goes on behind what the first one takes, or in the same place if that is
nothing. -/
theorem rel_seq
    (hlater : ∀ ts rest ts' rest', Q (ts, rest) (ts', rest') → rest.length < input.length →
      Option.Rel (Behind Q' ts ts') (parse grammar depthLimit q rest)
        (parse grammar depthLimit q rest'))
    (hhere : ∀ ts ts', parse grammar depth p input = some (ts, input) →
      Q (ts, input) (ts', input') →
      Option.Rel (Behind Q' ts ts') (parse grammar depth q input) (parse grammar depth q input')) :
    Option.Rel Q' (parse grammar depth (.seq p q) input)
      (parse grammar depth (.seq p q) input') := by
  rw [parse_seq, parse_seq]
  rcases cases_of_rel hp with ⟨hx, hy⟩ | ⟨ts, rest, ts', rest', hx, hy, hfound⟩
  · rw [hx, hy]
    exact .none
  · simp only [hx, hy]
    by_cases hlen : rest.length < input.length
    · rw [if_pos hlen, if_pos ((hprogress _ _ _ _ hfound).mp hlen)]
      exact rel_prepend (hlater ts rest ts' rest' hfound hlen)
    · have hlen' : ¬ rest'.length < input'.length := mt (hprogress _ _ _ _ hfound).mpr hlen
      obtain rfl := eq_of_parse_of_length hx hlen
      obtain rfl := eq_of_parse_of_length hy hlen'
      rw [if_neg hlen, if_neg hlen']
      exact rel_prepend (hhere ts ts' hx hfound)

/-- A repetition goes on behind what its body takes, and ends where that is nothing. -/
theorem rel_many (hstop : Q' ([], input) ([], input'))
    (hlater : ∀ ts rest ts' rest', Q (ts, rest) (ts', rest') → rest.length < input.length →
      Option.Rel (Behind Q' ts ts') (parse grammar depthLimit (.many p) rest)
        (parse grammar depthLimit (.many p) rest'))
    (hhere : ∀ ts ts', Q (ts, input) (ts', input') → Q' (ts, input) (ts', input')) :
    Option.Rel Q' (parse grammar depth (.many p) input)
      (parse grammar depth (.many p) input') := by
  rw [parse_many, parse_many]
  rcases cases_of_rel hp with ⟨hx, hy⟩ | ⟨ts, rest, ts', rest', hx, hy, hfound⟩
  · rw [hx, hy]
    exact .some hstop
  · simp only [hx, hy]
    by_cases hlen : rest.length < input.length
    · rw [if_pos hlen, if_pos ((hprogress _ _ _ _ hfound).mp hlen)]
      exact rel_prepend (hlater ts rest ts' rest' hfound hlen)
    · have hlen' : ¬ rest'.length < input'.length := mt (hprogress _ _ _ _ hfound).mpr hlen
      obtain rfl := eq_of_parse_of_length hx hlen
      obtain rfl := eq_of_parse_of_length hy hlen'
      rw [if_neg hlen, if_neg hlen']
      exact .some (hhere ts ts' hfound)

end

end

end JavaOutline.Grammar.Pattern
