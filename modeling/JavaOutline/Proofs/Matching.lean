import JavaOutline.Grammar.Pattern

/-!
# JavaOutline.Proofs.Matching

How matching a pattern is argued about.

* `parse_induction` is induction along matching, so that no proof has to go through the depth of
  rules and the number of tokens left by itself.
* A match gives trees of exactly the tokens it takes (`tokens_of_parse`).
* `Takes` and `Refuses` say what a pattern does with an input at every depth from
  some depth on. One rule for each way of building patterns lets a match be put
  together without a word about depth limits: taking a token resets the depth, so
  only rules that refer to rules in front of the first token count.
* `start` looks at the next token alone. A pattern that can neither take it nor
  match without taking anything refuses the input (`refuses_of_start`); for a
  given token and pattern that is a computation.
-/

namespace JavaOutline.Grammar.Pattern

open Source

variable {Rule Label : Type} {grammar : Rule → Pattern Rule Label}

/-! ## Induction along matching -/

/-- **Induction along matching**, as matching goes: the parts of a pattern are matched in the
same place, the pattern of a rule with less depth, and what comes behind other tokens with
fewer of them and all depth. -/
theorem parse_induction (grammar : Rule → Pattern Rule Label)
    {motive : Nat → Pattern Rule Label → List Token → Prop}
    (nothing : ∀ depth input, motive depth .nothing input)
    (token : ∀ depth terminal input, motive depth (.token terminal) input)
    (ahead : ∀ depth terminal input, motive depth (.ahead terminal) input)
    («unless» : ∀ depth terminal input, motive depth (.unless terminal) input)
    (stuck : ∀ r input, motive 0 (.rule r) input)
    (rule : ∀ depth r input, motive depth (grammar r) input → motive (depth + 1) (.rule r) input)
    (node : ∀ depth label p input, motive depth p input → motive depth (.node label p) input)
    (seq : ∀ depth p q input, motive depth p input → motive depth q input →
      (∀ rest : List Token, rest.length < input.length → motive depthLimit q rest) →
      motive depth (.seq p q) input)
    (choice : ∀ depth p q input, motive depth p input → motive depth q input →
      motive depth (.choice p q) input)
    (many : ∀ depth p input, motive depth p input →
      (∀ rest : List Token, rest.length < input.length → motive depthLimit (.many p) rest) →
      motive depth (.many p) input)
    (depth : Nat) (p : Pattern Rule Label) (input : List Token) : motive depth p input := by
  have hparts : ∀ (depth : Nat) (input : List Token), (∀ r, motive depth (.rule r) input) →
      (∀ (p : Pattern Rule Label) (rest : List Token), rest.length < input.length →
        motive depthLimit p rest) → ∀ p, motive depth p input := by
    intro depth input hrule hlater p
    induction p with
    | nothing => exact nothing depth input
    | token terminal => exact token depth terminal input
    | ahead terminal => exact ahead depth terminal input
    | «unless» terminal => exact «unless» depth terminal input
    | rule r => exact hrule r
    | node label p ih => exact node depth label p input ih
    | seq p q ih₁ ih₂ => exact seq depth p q input ih₁ ih₂ (hlater q)
    | choice p q ih₁ ih₂ => exact choice depth p q input ih₁ ih₂
    | many p ih => exact many depth p input ih (hlater (.many p))
  induction hn : input.length using Nat.strongRecOn generalizing depth p input with
  | ind n ih =>
      subst hn
      have hlater : ∀ (q : Pattern Rule Label) (rest : List Token),
          rest.length < input.length → motive depthLimit q rest :=
        fun q rest hlen => ih rest.length hlen depthLimit q rest rfl
      induction depth generalizing p with
      | zero => exact hparts 0 input (fun r => stuck r input) hlater p
      | succ depth ihdepth =>
          exact hparts _ input (fun r => rule depth r input (ihdepth (grammar r))) hlater p

/-! ## What a match can be -/

section

variable {depth : Nat} {p q : Pattern Rule Label} {input rest : List Token}
  {ts : List (ParseTree Label)}

theorem eq_of_nothing (h : parse grammar depth .nothing input = some (ts, rest)) :
    ts = [] ∧ rest = input := by
  simp only [parse_nothing, Option.some.injEq, Prod.mk.injEq] at h
  exact ⟨h.1.symm, h.2.symm⟩

theorem eq_of_token {terminal : Terminal}
    (h : parse grammar depth (.token terminal) input = some (ts, rest)) :
    ∃ t, input = t :: rest ∧ terminal.accepts t = true ∧ ts = [.leaf t] := by
  cases input with
  | nil => simp at h
  | cons t input =>
      simp only [parse_token, Option.ite_none_right_eq_some, Option.some.injEq,
        Prod.mk.injEq] at h
      obtain ⟨haccepts, rfl, rfl⟩ := h
      exact ⟨t, rfl, haccepts, rfl⟩

theorem eq_of_ahead {terminal : Terminal}
    (h : parse grammar depth (.ahead terminal) input = some (ts, rest)) :
    ts = [] ∧ rest = input ∧ ∃ t more, input = t :: more ∧ terminal.accepts t = true := by
  cases input with
  | nil => simp at h
  | cons t input =>
      simp only [parse_ahead, Option.ite_none_right_eq_some, Option.some.injEq,
        Prod.mk.injEq] at h
      obtain ⟨haccepts, rfl, rfl⟩ := h
      exact ⟨rfl, rfl, t, input, rfl, haccepts⟩

theorem eq_of_unless {terminal : Terminal}
    (h : parse grammar depth (.unless terminal) input = some (ts, rest)) :
    ts = [] ∧ rest = input := by
  cases input with
  | nil =>
      simp only [parse_unless, Option.some.injEq, Prod.mk.injEq] at h
      exact ⟨h.1.symm, h.2.symm⟩
  | cons t input =>
      simp only [parse_unless, Option.ite_none_left_eq_some, Option.some.injEq,
        Prod.mk.injEq] at h
      exact ⟨h.2.1.symm, h.2.2.symm⟩

theorem exists_of_node {label : Label}
    (h : parse grammar depth (.node label p) input = some (ts, rest)) :
    ∃ us, parse grammar depth p input = some (us, rest) ∧ ts = [.node label us] := by
  rw [parse_node] at h
  split at h
  · contradiction
  · next us rest' hbody =>
    simp only [Option.some.injEq, Prod.mk.injEq] at h
    obtain ⟨rfl, rfl⟩ := h
    exact ⟨us, hbody, rfl⟩

/-- The second part of a sequence is matched behind the first if that took
something, and in the same place if not. -/
theorem exists_of_seq (h : parse grammar depth (.seq p q) input = some (ts, rest)) :
    ∃ us mid vs, parse grammar depth p input = some (us, mid) ∧ ts = us ++ vs ∧
      (mid.length < input.length ∧ parse grammar depthLimit q mid = some (vs, rest) ∨
        ¬ mid.length < input.length ∧ parse grammar depth q input = some (vs, rest)) := by
  rw [parse_seq] at h
  split at h
  · contradiction
  · next us mid hfirst =>
    split at h
    · next hlen =>
      split at h
      · contradiction
      · next vs rest' hsecond =>
        simp only [Option.some.injEq, Prod.mk.injEq] at h
        obtain ⟨rfl, rfl⟩ := h
        exact ⟨us, mid, vs, hfirst, rfl, .inl ⟨hlen, hsecond⟩⟩
    · next hlen =>
      split at h
      · contradiction
      · next vs rest' hsecond =>
        simp only [Option.some.injEq, Prod.mk.injEq] at h
        obtain ⟨rfl, rfl⟩ := h
        exact ⟨us, mid, vs, hfirst, rfl, .inr ⟨hlen, hsecond⟩⟩

theorem or_of_choice {found : List (ParseTree Label) × List Token}
    (h : parse grammar depth (.choice p q) input = some found) :
    parse grammar depth p input = some found ∨ parse grammar depth q input = some found := by
  rw [parse_choice] at h
  split at h
  · exact .inr h
  · exact .inl h

/-- A repetition ends where its body fails or takes nothing, and goes on behind
anything that it takes. -/
theorem or_of_many (h : parse grammar depth (.many p) input = some (ts, rest)) :
    (ts = [] ∧ rest = input) ∨ ∃ us mid, parse grammar depth p input = some (us, mid) ∧
      ((mid.length < input.length ∧
          ∃ vs, parse grammar depthLimit (.many p) mid = some (vs, rest) ∧ ts = us ++ vs) ∨
        (¬ mid.length < input.length ∧ ts = us ∧ rest = input)) := by
  rw [parse_many] at h
  split at h
  · simp only [Option.some.injEq, Prod.mk.injEq] at h
    exact .inl ⟨h.1.symm, h.2.symm⟩
  · next us mid hbody =>
    refine .inr ⟨us, mid, hbody, ?_⟩
    split at h
    · next hlen =>
      split at h
      · contradiction
      · next vs rest' hmany =>
        simp only [Option.some.injEq, Prod.mk.injEq] at h
        obtain ⟨rfl, rfl⟩ := h
        exact .inl ⟨hlen, vs, hmany, rfl⟩
    · next hlen =>
      simp only [Option.some.injEq, Prod.mk.injEq] at h
      exact .inr ⟨hlen, h.1.symm, h.2.symm⟩

/-! ## The tokens of a match -/

/-- A match that leaves the whole input has taken no tokens. -/
theorem tokensAll_eq_nil (h : ParseTree.tokensAll ts ++ rest = input)
    (hlen : ¬ rest.length < input.length) : ParseTree.tokensAll ts = [] := by
  have hl := congrArg List.length h
  rw [List.length_append] at hl
  exact List.length_eq_zero_iff.mp (by omega)

/-- **A match gives the tokens it takes**: the tokens of its trees, followed by
those it leaves, are the input. -/
theorem tokens_of_parse (h : parse grammar depth p input = some (ts, rest)) :
    ParseTree.tokensAll ts ++ rest = input := by
  induction depth, p, input using parse_induction grammar generalizing ts rest with
  | nothing =>
      obtain ⟨rfl, rfl⟩ := eq_of_nothing h
      rfl
  | token =>
      obtain ⟨t, rfl, -, rfl⟩ := eq_of_token h
      rfl
  | ahead =>
      obtain ⟨rfl, rfl, -⟩ := eq_of_ahead h
      rfl
  | «unless» =>
      obtain ⟨rfl, rfl⟩ := eq_of_unless h
      rfl
  | stuck => simp at h
  | rule depth r input ih => exact ih h
  | node depth label p input ih =>
      obtain ⟨us, hbody, rfl⟩ := exists_of_node h
      simpa [ParseTree.tokensAll, ParseTree.tokens] using ih hbody
  | seq depth p q input ih₁ ih₂ ihlater =>
      obtain ⟨us, mid, vs, hfirst, rfl, hsecond⟩ := exists_of_seq h
      have hus : ParseTree.tokensAll us ++ mid = input := ih₁ hfirst
      rw [ParseTree.tokensAll_append]
      rcases hsecond with ⟨hlen, hsecond⟩ | ⟨hlen, hsecond⟩
      · rw [List.append_assoc, ihlater mid hlen hsecond, hus]
      · rw [tokensAll_eq_nil hus hlen, List.nil_append]
        exact ih₂ hsecond
  | choice depth p q input ih₁ ih₂ =>
      cases or_of_choice h with
      | inl hfirst => exact ih₁ hfirst
      | inr hsecond => exact ih₂ hsecond
  | many depth p input ih ihlater =>
      rcases or_of_many h with ⟨rfl, rfl⟩ | ⟨us, mid, hbody, hmore⟩
      · rfl
      · have hus : ParseTree.tokensAll us ++ mid = input := ih hbody
        rcases hmore with ⟨hlen, vs, hmany, rfl⟩ | ⟨hlen, rfl, rfl⟩
        · rw [ParseTree.tokensAll_append, List.append_assoc, ihlater mid hlen hmany, hus]
        · rw [tokensAll_eq_nil hus hlen, List.nil_append]

/-- What a match leaves is no longer than the input. -/
theorem length_le_of_parse (h : parse grammar depth p input = some (ts, rest)) :
    rest.length ≤ input.length := by
  rw [← tokens_of_parse h, List.length_append]
  omega

/-- A match that takes nothing leaves the input. -/
theorem eq_of_parse_of_length (h : parse grammar depth p input = some (ts, rest))
    (hlen : ¬ rest.length < input.length) : rest = input := by
  rw [← tokens_of_parse h, tokensAll_eq_nil (tokens_of_parse h) hlen, List.nil_append]

/-- The second part of a sequence is matched behind the first, whether or not that took
something. -/
theorem exists_parse_of_seq (h : parse grammar depth (.seq p q) input = some (ts, rest)) :
    ∃ us mid vs e, parse grammar depth p input = some (us, mid)
      ∧ parse grammar e q mid = some (vs, rest) ∧ ts = us ++ vs := by
  obtain ⟨us, mid, vs, hfirst, rfl, ⟨-, hsecond⟩ | ⟨hlen, hsecond⟩⟩ := exists_of_seq h
  · exact ⟨us, mid, vs, depthLimit, hfirst, hsecond, rfl⟩
  · rw [← eq_of_parse_of_length hfirst hlen] at hsecond
    exact ⟨us, mid, vs, depth, hfirst, hsecond, rfl⟩

/-- The second part of a sequence is matched behind the first, if it comes to the same at the
depth in hand and at full depth. -/
theorem parse_seq_eq {us : List (ParseTree Label)} {mid : List Token} {found : Match Label}
    (hp : parse grammar depth p input = some (us, mid)) (hhere : parse grammar depth q mid = found)
    (hlater : parse grammar depthLimit q mid = found) :
    parse grammar depth (.seq p q) input = found.map fun (vs, rest) => (us ++ vs, rest) := by
  rw [parse_seq, hp]
  by_cases hlen : mid.length < input.length
  · simp only [if_pos hlen, hlater]
    cases found <;> rfl
  · rw [eq_of_parse_of_length hp hlen] at hhere
    simp only [if_neg hlen, hhere]
    cases found <;> rfl

end

/-! ## Taking and refusing -/

/-- From depth `d` on, the pattern takes the tokens in front of `rest` and forms
the trees `ts`. -/
def Takes (grammar : Rule → Pattern Rule Label) (d : Nat) (p : Pattern Rule Label)
    (input : List Token) (ts : List (ParseTree Label)) (rest : List Token) : Prop :=
  ∀ depth, d ≤ depth → parse grammar depth p input = some (ts, rest)

/-- From depth `d` on, the pattern does not match. -/
def Refuses (grammar : Rule → Pattern Rule Label) (d : Nat) (p : Pattern Rule Label)
    (input : List Token) : Prop :=
  ∀ depth, d ≤ depth → parse grammar depth p input = none

section

variable {d e : Nat} {p q : Pattern Rule Label} {input mid rest : List Token}
  {ts us : List (ParseTree Label)}

theorem Takes.mono (h : Takes grammar d p input ts rest) (hde : d ≤ e) :
    Takes grammar e p input ts rest :=
  fun depth hd => h depth (Nat.le_trans hde hd)

theorem Refuses.mono (h : Refuses grammar d p input) (hde : d ≤ e) : Refuses grammar e p input :=
  fun depth hd => h depth (Nat.le_trans hde hd)

/-! ### Single tokens -/

theorem takes_token {terminal : Terminal} {t : Token} (h : terminal.accepts t = true) :
    Takes grammar 0 (.token terminal) (t :: rest) [.leaf t] rest := by
  intro depth _
  simp [h]

theorem refuses_token {terminal : Terminal} {t : Token} (h : terminal.accepts t = false) :
    Refuses grammar 0 (.token terminal) (t :: rest) := by
  intro depth _
  simp [h]

theorem takes_or_refuses_token (terminal : Terminal) (t : Token) (rest : List Token) :
    Takes grammar 0 (.token terminal) (t :: rest) [.leaf t] rest
      ∨ Refuses grammar 0 (.token terminal) (t :: rest) := by
  cases h : terminal.accepts t with
  | true => exact .inl (takes_token h)
  | false => exact .inr (refuses_token h)

theorem accepts_text (s : String) (lead : List Lexeme) (kind : LexemeKind) :
    (Terminal.oneOf [s]).accepts ⟨lead, kind, s⟩ = true := by
  simp [Terminal.accepts]

theorem refuses_text {s : String} {t : Token} (h : t.text ≠ s) :
    Refuses grammar 0 (text s) (t :: rest) := by
  refine refuses_token ?_
  simpa [Terminal.accepts] using h

/-! ### Nodes and rules -/

theorem Takes.node {label : Label} (h : Takes grammar d p input ts rest) :
    Takes grammar d (.node label p) input [.node label ts] rest := by
  intro depth hd
  rw [parse_node, h depth hd]

theorem Refuses.node {label : Label} (h : Refuses grammar d p input) :
    Refuses grammar d (.node label p) input := by
  intro depth hd
  rw [parse_node, h depth hd]

/-- A rule costs one level of depth. -/
theorem Takes.rule {r : Rule} (h : Takes grammar d (grammar r) input ts rest) :
    Takes grammar (d + 1) (.rule r) input ts rest := by
  intro depth hd
  obtain ⟨k, rfl⟩ : ∃ k, depth = k + 1 := ⟨depth - 1, by omega⟩
  rw [parse_rule_succ, h k (by omega)]

theorem Refuses.rule {r : Rule} (h : Refuses grammar (d - 1) (grammar r) input) :
    Refuses grammar d (.rule r) input := by
  intro depth hd
  cases depth with
  | zero => rw [parse_rule_zero]
  | succ depth => rw [parse_rule_succ, h depth (by omega)]

/-! ### Sequences -/

/-- After something was taken the depth starts anew. -/
theorem Takes.seq (hp : Takes grammar d p input ts mid) (hlen : mid.length < input.length)
    (hq : Takes grammar e q mid us rest) (he : e ≤ depthLimit) :
    Takes grammar d (.seq p q) input (ts ++ us) rest := by
  intro depth hd
  rw [parse_seq, hp depth hd]
  simp only [if_pos hlen, hq depthLimit he]

/-- What is left is no longer than the input. -/
theorem Takes.length_le (h : Takes grammar d p input ts rest) : rest.length ≤ input.length :=
  length_le_of_parse (h d (Nat.le_refl d))

/-- Whether or not anything was taken, the next pattern may go on at the same
depth. -/
theorem Takes.followed (hp : Takes grammar d p input ts mid) (hq : Takes grammar d q mid us rest)
    (hd : d ≤ depthLimit) : Takes grammar d (.seq p q) input (ts ++ us) rest :=
  fun depth hdepth => parse_seq_eq (hp depth hdepth) (hq depth hdepth) (hq depthLimit hd)

/-- A pattern that takes nothing leaves the input to the next one. -/
theorem Takes.nothing_seq (hp : Takes grammar d p input [] input)
    (hq : Takes grammar d q input us rest) : Takes grammar d (.seq p q) input us rest := by
  intro depth hd
  rw [parse_seq, hp depth hd]
  simp only [Nat.lt_irrefl, if_false, hq depth hd, List.nil_append]

/-- One token, then the rest. -/
theorem takes_token_seq {terminal : Terminal} {t : Token} (h : terminal.accepts t = true)
    (hq : Takes grammar e q mid us rest) (he : e ≤ depthLimit) :
    Takes grammar 0 (.seq (.token terminal) q) (t :: mid) (.leaf t :: us) rest :=
  (takes_token h).seq (by simp) hq he

theorem Refuses.seq (h : Refuses grammar d p input) : Refuses grammar d (.seq p q) input := by
  intro depth hd
  rw [parse_seq, h depth hd]

theorem Takes.seq_refuses (hp : Takes grammar d p input ts mid) (hlen : mid.length < input.length)
    (hq : Refuses grammar e q mid) (he : e ≤ depthLimit) : Refuses grammar d (.seq p q) input := by
  intro depth hd
  rw [parse_seq, hp depth hd]
  simp only [if_pos hlen, hq depthLimit he]

/-- Whether or not anything was taken, the next pattern may refuse at the same
depth. -/
theorem Takes.followed_refuses (hp : Takes grammar d p input ts mid) (hq : Refuses grammar d q mid)
    (hd : d ≤ depthLimit) : Refuses grammar d (.seq p q) input :=
  fun depth hdepth => parse_seq_eq (hp depth hdepth) (hq depth hdepth) (hq depthLimit hd)

theorem Takes.nothing_seq_refuses (hp : Takes grammar d p input [] input)
    (hq : Refuses grammar d q input) : Refuses grammar d (.seq p q) input := by
  intro depth hd
  rw [parse_seq, hp depth hd]
  simp only [Nat.lt_irrefl, if_false, hq depth hd]

/-- A pattern fails behind a token, whether or not the token was taken. -/
theorem Refuses.behind_token {terminal : Terminal} {t : Token} (hq : Refuses grammar e q input)
    (he : e ≤ depthLimit) : Refuses grammar 0 (.seq (.token terminal) q) (t :: input) := by
  cases takes_or_refuses_token terminal t input with
  | inl h => exact h.seq_refuses (by simp) hq he
  | inr h => exact h.seq

/-! ### Choices -/

theorem Takes.choice_left (h : Takes grammar d p input ts rest) :
    Takes grammar d (.choice p q) input ts rest := by
  intro depth hd
  rw [parse_choice, h depth hd]

theorem Takes.choice_right (hp : Refuses grammar d p input) (hq : Takes grammar d q input ts rest) :
    Takes grammar d (.choice p q) input ts rest := by
  intro depth hd
  rw [parse_choice, hp depth hd, hq depth hd]

theorem Refuses.choice (hp : Refuses grammar d p input) (hq : Refuses grammar d q input) :
    Refuses grammar d (.choice p q) input := by
  intro depth hd
  rw [parse_choice, hp depth hd, hq depth hd]

/-- A choice fails only if both alternatives do. -/
theorem Refuses.of_choice (h : Refuses grammar d (.choice p q) input) :
    Refuses grammar d p input ∧ Refuses grammar d q input := by
  have hleft : Refuses grammar d p input := by
    intro depth hd
    have hnone := h depth hd
    rw [parse_choice] at hnone
    split at hnone
    · assumption
    · contradiction
  refine ⟨hleft, ?_⟩
  intro depth hd
  have hnone := h depth hd
  rw [parse_choice, hleft depth hd] at hnone
  exact hnone

/-- The first alternative that does not refuse is taken. -/
theorem Takes.any {ps qs : List (Pattern Rule Label)} (hps : ∀ r ∈ ps, Refuses grammar d r input)
    (hp : Takes grammar d p input ts rest) :
    Takes grammar d (any (ps ++ p :: qs)) input ts rest := by
  induction ps with
  | nil =>
      cases qs with
      | nil => exact hp
      | cons q qs => exact hp.choice_left
  | cons r ps ih =>
      rw [List.forall_mem_cons] at hps
      have hmore := Takes.choice_right hps.1 (ih hps.2)
      cases ps with
      | nil => exact hmore
      | cons r' ps => exact hmore

theorem takes_nothing : Takes grammar 0 .nothing input [] input := by
  intro depth _
  rw [parse_nothing]

theorem Takes.maybe (h : Takes grammar d p input ts rest) :
    Takes grammar d (maybe p) input ts rest := h.choice_left

theorem Refuses.maybe (h : Refuses grammar d p input) :
    Takes grammar d (maybe p) input [] input :=
  Takes.choice_right h (takes_nothing.mono (Nat.zero_le d))

/-! ### Repetitions -/

theorem Refuses.many (h : Refuses grammar d p input) :
    Takes grammar d (.many p) input [] input := by
  intro depth hd
  rw [parse_many, h depth hd]

theorem Takes.many (hp : Takes grammar d p input ts mid) (hlen : mid.length < input.length)
    (hm : Takes grammar e (.many p) mid us rest) (he : e ≤ depthLimit) :
    Takes grammar d (.many p) input (ts ++ us) rest := by
  intro depth hd
  rw [parse_many, hp depth hd]
  simp only [if_pos hlen, hm depthLimit he]

end

/-! ## The next token -/

/-- What a pattern may do with an input whose first token is of some class: take
it, or match without taking anything. -/
structure Start where
  takes : Bool
  skips : Bool
  deriving DecidableEq

/-- What a pattern may do, given what rules may do and which terminals may accept
the token. -/
def startWith (rule : Rule → Start) (may : Terminal → Bool) : Pattern Rule Label → Start
  | .nothing => ⟨false, true⟩
  | .token terminal => ⟨may terminal, false⟩
  | .ahead terminal => ⟨false, may terminal⟩
  | .unless _ => ⟨false, true⟩
  | .rule r => rule r
  | .node _ body => startWith rule may body
  | .seq first second =>
    let s := startWith rule may first
    if s.skips then
      let u := startWith rule may second
      ⟨s.takes || u.takes, u.skips⟩
    else s
  | .choice first second =>
    let s := startWith rule may first
    let u := startWith rule may second
    ⟨s.takes || u.takes, s.skips || u.skips⟩
  | .many body => ⟨(startWith rule may body).takes, true⟩

/-- What a pattern may do, looking through `n` levels of rules; below them
anything may happen. -/
def start (grammar : Rule → Pattern Rule Label) (may : Terminal → Bool) :
    Nat → Pattern Rule Label → Start
  | 0 => startWith (fun _ => ⟨true, true⟩) may
  | n + 1 => startWith (fun r => start grammar may n (grammar r)) may

/-- Does a result keep within what may happen? -/
def Start.Covers (s : Start) (input : List Token) (found : Match Label) : Prop :=
  ∀ ts rest, found = some (ts, rest) →
    if rest.length < input.length then s.takes = true else s.skips = true

/-- A bound may be made wider. -/
theorem Start.Covers.mono {s u : Start} {input : List Token} {found : Match Label}
    (h : s.Covers input found) (ht : s.takes = true → u.takes = true)
    (hs : s.skips = true → u.skips = true) : u.Covers input found := by
  intro ts rest hfound
  have hbound := h ts rest hfound
  by_cases hlen : rest.length < input.length
  · rw [if_pos hlen] at hbound ⊢
    exact ht hbound
  · rw [if_neg hlen] at hbound ⊢
    exact hs hbound

section

variable {may : Terminal → Bool} {n depth : Nat} {p q : Pattern Rule Label} {t : Token}
  {input : List Token}

theorem start_node {label : Label} :
    start grammar may n (.node label p) = start grammar may n p := by
  cases n <;> rfl

theorem start_seq :
    start grammar may n (.seq p q) =
      if (start grammar may n p).skips then
        ⟨(start grammar may n p).takes || (start grammar may n q).takes,
          (start grammar may n q).skips⟩
      else start grammar may n p := by
  cases n <;> rfl

theorem start_choice :
    start grammar may n (.choice p q) =
      ⟨(start grammar may n p).takes || (start grammar may n q).takes,
        (start grammar may n p).skips || (start grammar may n q).skips⟩ := by
  cases n <;> rfl

theorem start_many :
    start grammar may n (.many p) = ⟨(start grammar may n p).takes, true⟩ := by
  cases n <;> rfl

/-- The bound on a sequence holds if those on its parts do. -/
theorem covers_seq (hp : (start grammar may n p).Covers input (parse grammar depth p input))
    (hq : (start grammar may n q).Covers input (parse grammar depth q input)) :
    (start grammar may n (.seq p q)).Covers input (parse grammar depth (.seq p q) input) := by
  intro ts rest h
  obtain ⟨us, mid, vs, hfirst, -, hsecond⟩ := exists_of_seq h
  have hbound := hp _ _ hfirst
  rcases hsecond with ⟨hlen, hsecond⟩ | ⟨hlen, hsecond⟩
  · -- the first part takes the token, so the whole does
    rw [if_pos hlen] at hbound
    have hle : rest.length ≤ mid.length := length_le_of_parse hsecond
    rw [if_pos (by omega), start_seq]
    split <;> simp [hbound]
  · -- the first part takes nothing, so the second is bound by the whole
    rw [if_neg hlen] at hbound
    refine hq.mono ?_ ?_ _ _ hsecond
    · intro htakes
      simp [start_seq, hbound, htakes]
    · intro hskips
      simp [start_seq, hbound, hskips]

/-- The bound on a choice holds if those on its alternatives do. -/
theorem covers_choice (hp : (start grammar may n p).Covers input (parse grammar depth p input))
    (hq : (start grammar may n q).Covers input (parse grammar depth q input)) :
    (start grammar may n (.choice p q)).Covers input
      (parse grammar depth (.choice p q) input) := by
  intro ts rest h
  cases or_of_choice h with
  | inl hfirst =>
      refine hp.mono ?_ ?_ _ _ hfirst
      · intro htakes
        simp [start_choice, htakes]
      · intro hskips
        simp [start_choice, hskips]
  | inr hsecond =>
      refine hq.mono ?_ ?_ _ _ hsecond
      · intro htakes
        simp [start_choice, htakes]
      · intro hskips
        simp [start_choice, hskips]

/-- A match keeps within what the pattern may do with the next token. -/
theorem covers_parse (hmay : ∀ terminal, terminal.accepts t = true → may terminal = true) :
    (start grammar may n p).Covers (t :: input) (parse grammar depth p (t :: input)) := by
  generalize hwhole : t :: input = whole
  induction depth, p, whole using parse_induction grammar generalizing n with
  | nothing =>
      intro ts rest h
      obtain ⟨-, rfl⟩ := eq_of_nothing h
      cases n <;> simp [start, startWith]
  | token depth terminal =>
      intro ts rest h
      subst hwhole
      obtain ⟨t', heq, haccepts, -⟩ := eq_of_token h
      obtain ⟨rfl, rfl⟩ := List.cons.inj heq
      cases n <;> simpa [start, startWith] using hmay terminal haccepts
  | ahead depth terminal =>
      intro ts rest h
      subst hwhole
      obtain ⟨-, rfl, t', more, heq, haccepts⟩ := eq_of_ahead h
      obtain ⟨rfl, rfl⟩ := List.cons.inj heq
      cases n <;> simpa [start, startWith] using hmay terminal haccepts
  | «unless» =>
      intro ts rest h
      obtain ⟨-, rfl⟩ := eq_of_unless h
      cases n <;> simp [start, startWith]
  | stuck =>
      intro ts rest h
      simp at h
  | rule depth r whole ih =>
      cases n with
      | zero =>
          -- below the last level looked through, any result is within the bound
          intro ts rest _
          simp [start, startWith]
      | succ n => exact ih hwhole
  | node depth label p whole ih =>
      intro ts rest h
      obtain ⟨us, hbody, -⟩ := exists_of_node h
      rw [start_node]
      exact ih hwhole _ _ hbody
  | seq depth p q whole ih₁ ih₂ => exact covers_seq (ih₁ hwhole) (ih₂ hwhole)
  | choice depth p q whole ih₁ ih₂ => exact covers_choice (ih₁ hwhole) (ih₂ hwhole)
  | many depth p whole ih =>
      intro ts rest h
      rw [start_many]
      rcases or_of_many h with ⟨-, rfl⟩ | ⟨us, mid, hbody, ⟨hlen, vs, hmany, -⟩ | ⟨-, -, rfl⟩⟩
      · simp
      · have hcov : (start grammar may n p).Covers whole (parse grammar depth p whole) := ih hwhole
        have hbound := hcov _ _ hbody
        rw [if_pos hlen] at hbound
        have hle : rest.length ≤ mid.length := length_le_of_parse hmany
        rw [if_pos (by omega)]
        exact hbound
      · simp

end

/-- **The next token decides**: a pattern that can neither take it nor match
without taking anything refuses every input that begins with it. -/
theorem refuses_of_start {may : Terminal → Bool} {t : Token} (n : Nat) {p : Pattern Rule Label}
    {input : List Token} (hmay : ∀ terminal, terminal.accepts t = true → may terminal = true)
    (h : start grammar may n p = ⟨false, false⟩) : Refuses grammar 0 p (t :: input) := by
  intro depth _
  have hcov : (start grammar may n p).Covers (t :: input) (parse grammar depth p (t :: input)) :=
    covers_parse hmay
  rw [h] at hcov
  cases hp : parse grammar depth p (t :: input) with
  | none => rfl
  | some found =>
      obtain ⟨ts, rest⟩ := found
      have hc := hcov ts rest hp
      split at hc <;> contradiction

/-- Which terminals may accept a token, as far as its kind and its text decide. -/
def mayAccept (kind : LexemeKind) (text : String) : Terminal → Bool
  | .oneOf texts => texts.contains text
  | .joined s => s == text
  | .word except => kind == .word && !except.contains text
  | .literal => kind == .literal
  | .string => kind == .string
  | .finish => text == ""

theorem mayAccept_of_accepts {t : Token} {terminal : Terminal} (h : terminal.accepts t = true) :
    mayAccept t.kind t.text terminal = true := by
  cases terminal with
  | joined s =>
      simp only [Terminal.accepts, Bool.and_eq_true, beq_iff_eq] at h
      simp [mayAccept, h.2]
  | _ => exact h

/-- A pattern that a token of the given kind and text cannot begin. -/
theorem refuses_of_text {lead : List Lexeme} {kind : LexemeKind} {text : String} (n : Nat)
    {p : Pattern Rule Label} {input : List Token}
    (h : start grammar (mayAccept kind text) n p = ⟨false, false⟩) :
    Refuses grammar 0 p (⟨lead, kind, text⟩ :: input) :=
  refuses_of_start n (fun _ => mayAccept_of_accepts) h

end JavaOutline.Grammar.Pattern
