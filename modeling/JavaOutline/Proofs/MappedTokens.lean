import JavaOutline.Proofs.PairedMatching

/-!
# JavaOutline.Proofs.MappedTokens

Matching sees of a token only what terminals see.

A change of tokens that no terminal notices (`IsUnseen`) changes nothing about a match
but the tokens: the same patterns match, and the trees are the same with the changed
tokens at their leaves (`parse_map`).
-/

namespace JavaOutline.Grammar

open Source

/-! ## Trees with changed tokens -/

namespace ParseTree

variable {Label : Type}

mutual
/-- A tree with every token changed. -/
def map (f : Token → Token) : ParseTree Label → ParseTree Label
  | .leaf t => .leaf (f t)
  | .node label children => .node label (mapAll f children)

/-- Trees with every token changed. -/
def mapAll (f : Token → Token) : List (ParseTree Label) → List (ParseTree Label)
  | [] => []
  | t :: ts => map f t :: mapAll f ts
end

theorem mapAll_eq_map (f : Token → Token) (ts : List (ParseTree Label)) :
    mapAll f ts = ts.map (map f) := by
  induction ts with
  | nil => rfl
  | cons t ts ih => rw [mapAll, ih, List.map_cons]

@[simp] theorem mapAll_append (f : Token → Token) (ts us : List (ParseTree Label)) :
    mapAll f (ts ++ us) = mapAll f ts ++ mapAll f us := by
  simp only [mapAll_eq_map, List.map_append]

mutual
@[simp] theorem tokens_map (f : Token → Token) :
    (t : ParseTree Label) → (t.map f).tokens = t.tokens.map f
  | .leaf _ => rfl
  | .node _ children => tokensAll_mapAll f children

@[simp] theorem tokensAll_mapAll (f : Token → Token) :
    (ts : List (ParseTree Label)) → tokensAll (mapAll f ts) = (tokensAll ts).map f
  | [] => rfl
  | t :: ts => by
      rw [mapAll, tokensAll, tokensAll, tokens_map, tokensAll_mapAll, List.map_append]
end

end ParseTree

namespace Pattern

variable {Rule Label : Type} {f : Token → Token}

/-- No terminal tells a token from what becomes of it. -/
def IsUnseen (f : Token → Token) : Prop :=
  ∀ (terminal : Terminal) (t : Token), terminal.accepts (f t) = terminal.accepts t

/-- A change that keeps the kind, the text, and whether something stands in front. -/
theorem isUnseen_of_lead (hkind : ∀ t, (f t).kind = t.kind) (htext : ∀ t, (f t).text = t.text)
    (hjoined : ∀ t, (f t).isJoined = t.isJoined) : IsUnseen f := by
  intro terminal t
  cases terminal <;> simp only [Terminal.accepts, hkind, htext, hjoined]

/-! ## Matching -/

/-- The result of a match with every token changed. -/
def mapMatch (f : Token → Token) (found : Match Label) : Match Label :=
  found.map fun (ts, rest) => (ParseTree.mapAll f ts, rest.map f)

/-- The results are the same but for the change. -/
def IsMapped (f : Token → Token) (found found' : List (ParseTree Label) × List Token) : Prop :=
  found' = (ParseTree.mapAll f found.1, found.2.map f)

theorem eq_mapMatch_of_rel {x y : Match Label} (h : Option.Rel (IsMapped f) x y) :
    y = mapMatch f x := by
  cases h with
  | none => rfl
  | some h => exact congrArg some h

theorem IsMapped.length_lt_iff {ts ts' : List (ParseTree Label)} {rest rest' input : List Token}
    (h : IsMapped f (ts, rest) (ts', rest')) :
    rest.length < input.length ↔ rest'.length < (input.map f).length := by
  obtain ⟨rfl, rfl⟩ := Prod.mk.inj h
  rw [List.length_map, List.length_map]

/-- Behind trees that are the same but for the change. -/
theorem IsMapped.behind {ts ts' us us' : List (ParseTree Label)} {mid mid' rest rest' : List Token}
    (h : IsMapped f (ts, mid) (ts', mid')) (hmore : IsMapped f (us, rest) (us', rest')) :
    Behind (IsMapped f) ts ts' (us, rest) (us', rest') := by
  obtain ⟨rfl, rfl⟩ := Prod.mk.inj h
  obtain ⟨rfl, rfl⟩ := Prod.mk.inj hmore
  exact Prod.ext (ParseTree.mapAll_append f ts us).symm rfl

variable {grammar : Rule → Pattern Rule Label}

theorem rel_parse_map (hf : IsUnseen f) (depth : Nat) (p : Pattern Rule Label)
    (input : List Token) :
    Option.Rel (IsMapped f) (parse grammar depth p input)
      (parse grammar depth p (input.map f)) := by
  induction depth, p, input using parse_induction grammar with
  | nothing => exact rel_nothing rfl
  | token depth terminal input =>
      cases input with
      | nil => simp
      | cons t input => exact rel_token (hf terminal t).symm (fun _ => rfl)
  | ahead depth terminal input =>
      cases input with
      | nil => simp
      | cons t input => exact rel_ahead (hf terminal t).symm rfl
  | «unless» depth terminal input =>
      cases input with
      | nil =>
          rw [List.map_nil, parse_unless]
          exact .some rfl
      | cons t input => exact rel_unless (hf terminal t).symm rfl
  | stuck => exact .none
  | rule depth r input ih => exact ih
  | node depth label p input ih =>
      refine rel_node ih (fun ts rest ts' rest' h => ?_)
      obtain ⟨rfl, rfl⟩ := Prod.mk.inj h
      rfl
  | seq depth p q input ih₁ ih₂ ihlater =>
      refine rel_seq ih₁ (fun _ _ _ _ h => h.length_lt_iff) ?_ ?_
      · intro ts rest ts' rest' h hlen
        obtain rfl : rest' = rest.map f := congrArg Prod.snd h
        exact rel_mono (ihlater rest hlen) (fun _ _ _ _ => h.behind)
      · exact fun ts ts' _ h => rel_mono ih₂ (fun _ _ _ _ => h.behind)
  | choice depth p q input ih₁ ih₂ => exact rel_choice ih₁ ih₂
  | many depth p input ih ihlater =>
      refine rel_many ih (fun _ _ _ _ h => h.length_lt_iff) rfl ?_ (fun _ _ h => h)
      intro ts rest ts' rest' h hlen
      obtain rfl : rest' = rest.map f := congrArg Prod.snd h
      exact rel_mono (ihlater rest hlen) (fun _ _ _ _ => h.behind)

/-- **Matching sees only what terminals see**: on changed tokens the same patterns match, with
the same trees of changed tokens. -/
theorem parse_map (hf : IsUnseen f) (depth : Nat) (p : Pattern Rule Label)
    (input : List Token) :
    parse grammar depth p (input.map f) = mapMatch f (parse grammar depth p input) :=
  eq_mapMatch_of_rel (rel_parse_map hf depth p input)

end Pattern

end JavaOutline.Grammar
