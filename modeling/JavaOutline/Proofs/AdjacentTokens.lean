import Mathlib.Data.List.Chain
import JavaOutline.Proofs.NodeShapes

/-!
# JavaOutline.Proofs.AdjacentTokens

Which tokens never stand side by side in a source file.

`Edges` says with which tokens a pattern may begin and end, and `apart` reads off a pattern
that no token of one class is followed by one of another: where two parts of a sequence meet,
the first may not end with the one or the second not begin with the other. Nothing is lost
by looking at rules one by one (`Forms.isChain`).

So a slash that opens a comment which is not closed is always an error: an asterisk follows
it, and no operand begins with that (`isChain_unitTrees?`).
-/

namespace JavaOutline.Grammar

open Source

namespace Pattern

variable {Rule Label : Type}

/-! ## Edges of patterns -/

/-- What a pattern may be at its edges: without tokens, with a token of one class at its
beginning, or with a token of another class at its end. -/
structure Edges where
  empty : Bool
  begins : Bool
  ends : Bool
  deriving DecidableEq

/-- The edges of a pattern, given those of rules; `first` and `last` say which terminals may
accept a token of the class that it may begin or end with. -/
def edges (first last : Terminal → Bool) (rule : Rule → Edges) : Pattern Rule Label → Edges
  | .nothing | .ahead _ | .unless _ => ⟨true, false, false⟩
  | .token terminal => ⟨false, first terminal, last terminal⟩
  | .rule r => rule r
  | .node _ p => edges first last rule p
  | .seq p q =>
    let e := edges first last rule p
    let f := edges first last rule q
    ⟨e.empty && f.empty, e.begins || e.empty && f.begins, f.ends || f.empty && e.ends⟩
  | .choice p q =>
    let e := edges first last rule p
    let f := edges first last rule q
    ⟨e.empty || f.empty, e.begins || f.begins, e.ends || f.ends⟩
  | .many p =>
    let e := edges first last rule p
    ⟨true, e.begins, e.ends⟩

/-- Is there no place in the pattern where a token of the last class may meet one of the first
class behind it? -/
def apart (first last : Terminal → Bool) (rule : Rule → Edges) : Pattern Rule Label → Bool
  | .nothing | .ahead _ | .unless _ | .token _ | .rule _ => true
  | .node _ p => apart first last rule p
  | .seq p q =>
    apart first last rule p && apart first last rule q
      && !((edges first last rule p).ends && (edges first last rule q).begins)
  | .choice p q => apart first last rule p && apart first last rule q
  | .many p =>
    apart first last rule p
      && !((edges first last rule p).ends && (edges first last rule p).begins)

/-- Do the edges of a pattern cover some tokens? -/
structure Edges.Cover (e : Edges) (F L : Token → Prop) (ts : List Token) : Prop where
  empty : ts = [] → e.empty = true
  begins : ∀ t ∈ ts.head?, F t → e.begins = true
  ends : ∀ t ∈ ts.getLast?, L t → e.ends = true

variable {F L : Token → Prop} {e f : Edges}

theorem Edges.Cover.append {ts us : List Token} (hts : e.Cover F L ts) (hus : f.Cover F L us) :
    Edges.Cover ⟨e.empty && f.empty, e.begins || e.empty && f.begins, f.ends || f.empty && e.ends⟩
      F L (ts ++ us) where
  empty h := by
    rw [List.append_eq_nil_iff] at h
    simp [hts.empty h.1, hus.empty h.2]
  begins t ht hF := by
    cases ts with
    | nil => simp [hts.empty rfl, hus.begins t ht hF]
    | cons u ts => simp [hts.begins t ht hF]
  ends t ht hL := by
    cases us with
    | nil =>
        rw [List.append_nil] at ht
        simp [hus.empty rfl, hts.ends t ht hL]
    | cons u us =>
        rw [List.getLast?_append_of_ne_nil _ (by simp)] at ht
        simp [hus.ends t ht hL]

theorem Edges.Cover.mono {ts : List Token} (h : e.Cover F L ts)
    (hempty : e.empty = true → f.empty = true) (hbegins : e.begins = true → f.begins = true)
    (hends : e.ends = true → f.ends = true) : f.Cover F L ts where
  empty hts := hempty (h.empty hts)
  begins t ht hF := hbegins (h.begins t ht hF)
  ends t ht hL := hends (h.ends t ht hL)

/-! ## Formed trees -/

section

variable {grammar : Rule → Pattern Rule Label} {first last : Terminal → Bool}
  {rules : Rule → Edges}
  (hfirst : ∀ terminal t, terminal.accepts t = true → F t → first terminal = true)
  (hlast : ∀ terminal t, terminal.accepts t = true → L t → last terminal = true)
  (hrules : ∀ r, edges first last rules (grammar r) = rules r)

include hfirst hlast hrules

theorem Forms.cover {p : Pattern Rule Label} {ts : List (ParseTree Label)}
    (h : Forms grammar p ts) : (edges first last rules p).Cover F L (ParseTree.tokensAll ts) := by
  induction h with
  | nothing | ahead | «unless» | stop =>
      exact ⟨fun _ => rfl, by simp [ParseTree.tokensAll], by simp [ParseTree.tokensAll]⟩
  | @token terminal t haccepts =>
      refine ⟨by simp [ParseTree.tokensAll, ParseTree.tokens], fun u hu hF => ?_, fun u hu hL => ?_⟩
      · obtain rfl : t = u := by simpa [ParseTree.tokensAll, ParseTree.tokens] using hu
        exact hfirst terminal t haccepts hF
      · obtain rfl : t = u := by simpa [ParseTree.tokensAll, ParseTree.tokens] using hu
        exact hlast terminal t haccepts hL
  | @rule r _ _ ih =>
      rw [hrules] at ih
      exact ih
  | node _ ih =>
      simp only [ParseTree.tokensAll, ParseTree.tokens, List.append_nil]
      exact ih
  | seq _ _ ih₁ ih₂ =>
      rw [ParseTree.tokensAll_append]
      exact ih₁.append ih₂
  | left _ ih => exact ih.mono (by simp_all [edges]) (by simp_all [edges]) (by simp_all [edges])
  | right _ ih => exact ih.mono (by simp_all [edges]) (by simp_all [edges]) (by simp_all [edges])
  | more _ _ ih₁ ih₂ =>
      rw [ParseTree.tokensAll_append]
      refine (ih₁.append ih₂).mono (fun _ => rfl) ?_ ?_
      · simp only [edges, Bool.or_eq_true, Bool.and_eq_true]
        exact fun h => h.elim id And.right
      · simp only [edges, Bool.or_eq_true, Bool.and_eq_true]
        exact fun h => h.elim id And.right

variable (hapart : ∀ r, apart first last rules (grammar r) = true)

include hapart

/-- **Tokens that are kept apart in all rules never stand side by side.** -/
theorem Forms.isChain {p : Pattern Rule Label} {ts : List (ParseTree Label)}
    (h : Forms grammar p ts) (hp : apart first last rules p = true) :
    (ParseTree.tokensAll ts).IsChain fun t u => ¬ (L t ∧ F u) := by
  have hmeet : ∀ {p q : Pattern Rule Label} {ts us : List (ParseTree Label)},
      Forms grammar p ts → Forms grammar q us →
      ((edges first last rules p).ends && (edges first last rules q).begins) = false →
      ∀ t ∈ (ParseTree.tokensAll ts).getLast?, ∀ u ∈ (ParseTree.tokensAll us).head?,
        ¬ (L t ∧ F u) := by
    intro p q ts us hts hus hends t ht u hu ⟨hL, hF⟩
    rw [(hts.cover hfirst hlast hrules).ends t ht hL,
      (hus.cover hfirst hlast hrules).begins u hu hF] at hends
    contradiction
  induction h with
  | nothing | ahead | «unless» | stop => exact .nil
  | token => exact .singleton _
  | rule _ ih => exact ih (hapart _)
  | node _ ih => simpa [ParseTree.tokensAll, ParseTree.tokens] using ih hp
  | seq hts hus ih₁ ih₂ =>
      simp only [apart, Bool.and_eq_true, Bool.not_eq_true'] at hp
      rw [ParseTree.tokensAll_append]
      exact (ih₁ hp.1.1).append (ih₂ hp.1.2) (hmeet hts hus hp.2)
  | left _ ih =>
      simp only [apart, Bool.and_eq_true] at hp
      exact ih hp.1
  | right _ ih =>
      simp only [apart, Bool.and_eq_true] at hp
      exact ih hp.2
  | more hts hus ih₁ ih₂ =>
      have hbody := hp
      simp only [apart, Bool.and_eq_true, Bool.not_eq_true'] at hbody
      rw [ParseTree.tokensAll_append]
      exact (ih₁ hbody.1).append (ih₂ hp) (hmeet hts hus hbody.2)

end

/-! ## Single tokens -/

/-- Does every terminal in the pattern pass the test, rules apart? -/
def allTerminals (test : Terminal → Bool) : Pattern Rule Label → Bool
  | .token terminal => test terminal
  | .nothing | .ahead _ | .unless _ | .rule _ => true
  | .node _ p | .many p => allTerminals test p
  | .seq p q | .choice p q => allTerminals test p && allTerminals test q

/-- What holds of the tokens that terminals accept holds of all tokens of formed trees. -/
theorem Forms.forall_tokens {grammar : Rule → Pattern Rule Label} {test : Terminal → Bool}
    {P : Token → Prop}
    (htest : ∀ terminal t, test terminal = true → terminal.accepts t = true → P t)
    (hrules : ∀ r, (grammar r).allTerminals test = true) {p : Pattern Rule Label}
    {ts : List (ParseTree Label)} (h : Forms grammar p ts) (hp : p.allTerminals test = true) :
    ∀ t ∈ ParseTree.tokensAll ts, P t := by
  induction h with
  | nothing | ahead | «unless» | stop => simp [ParseTree.tokensAll]
  | token haccepts =>
      simpa [ParseTree.tokensAll, ParseTree.tokens] using htest _ _ hp haccepts
  | rule _ ih => exact ih (hrules _)
  | node _ ih =>
      simp only [ParseTree.tokensAll, ParseTree.tokens, List.append_nil]
      exact ih hp
  | seq _ _ ih₁ ih₂ =>
      simp only [allTerminals, Bool.and_eq_true] at hp
      rw [ParseTree.tokensAll_append]
      exact List.forall_mem_append.mpr ⟨ih₁ hp.1, ih₂ hp.2⟩
  | left _ ih =>
      simp only [allTerminals, Bool.and_eq_true] at hp
      exact ih hp.1
  | right _ ih =>
      simp only [allTerminals, Bool.and_eq_true] at hp
      exact ih hp.2
  | more _ _ ih₁ ih₂ =>
      rw [ParseTree.tokensAll_append]
      exact List.forall_mem_append.mpr ⟨ih₁ hp, ih₂ hp⟩

end Pattern

/-! ## Signs that open nothing -/

open Structure Pattern

/-- Is the token a slash that opens a comment which is not closed? -/
def IsOpenSlash (t : Token) : Prop := t.kind = .stray ∧ t.text = "/"

/-- Does the token begin with an asterisk? -/
def IsStarred (t : Token) : Prop := t.kind = .symbol ∧ (t.text = "*" ∨ t.text = "*=")

/-- The edges of the rules of the grammar: nothing ends with a slash, and nothing begins with an
asterisk but what follows an operand. -/
def slashEdges : Rule → Edges
  | .infixPart _ => ⟨false, true, false⟩
  | .suffixes _ assignable => ⟨true, assignable, false⟩
  | _ => ⟨false, false, false⟩

/-- Which terminals may accept an asterisk. -/
def mayBeStarred (terminal : Terminal) : Bool :=
  mayAccept .symbol "*" terminal || mayAccept .symbol "*=" terminal

theorem edges_form : ∀ r ∈ Rule.all,
    edges mayBeStarred (mayAccept .stray "/") slashEdges r.form = slashEdges r := by
  decide +kernel

theorem apart_form : ∀ r ∈ Rule.all,
    apart mayBeStarred (mayAccept .stray "/") slashEdges r.form = true := by
  decide +kernel

/-- **No asterisk follows a slash that opens nothing.** -/
theorem isChain_unitTrees? {tokens : List Token} {ts : List SyntaxTree}
    (h : unitTrees? tokens = some ts) :
    (ParseTree.tokensAll ts).IsChain fun t u => ¬ (IsOpenSlash t ∧ IsStarred u) := by
  obtain ⟨⟨_, rest⟩, hparse, rfl⟩ := Option.map_eq_some_iff.mp h
  have hforms : Forms Rule.form Rule.unit.form _ := forms_of_parse hparse
  refine hforms.isChain ?_ ?_ (fun r => edges_form r r.mem_all)
    (fun r => apart_form r r.mem_all) (apart_form .unit (Rule.mem_all _))
  · rintro terminal ⟨_, kind, text⟩ haccepts ⟨rfl, htext⟩
    have hmay := mayAccept_of_accepts haccepts
    rcases htext with rfl | rfl <;> simp_all [mayBeStarred]
  · rintro terminal ⟨_, kind, text⟩ haccepts ⟨rfl, rfl⟩
    exact mayAccept_of_accepts haccepts

/-- Is the token a quote or an apostrophe that opens a literal which is not closed? -/
def IsOpenQuote (t : Token) : Prop := t.kind = .stray ∧ (t.text = "\"" ∨ t.text = "\x27")

/-- Which terminals accept no such token. -/
def refusesQuotes (terminal : Terminal) : Bool :=
  !mayAccept .stray "\"" terminal && !mayAccept .stray "\x27" terminal

theorem allTerminals_form : ∀ r ∈ Rule.all, r.form.allTerminals refusesQuotes = true := by
  decide +kernel

/-- **Quotes that open nothing are not accepted.** -/
theorem not_isOpenQuote_unitTrees? {tokens : List Token} {ts : List SyntaxTree}
    (h : unitTrees? tokens = some ts) : ∀ t ∈ ParseTree.tokensAll ts, ¬ IsOpenQuote t := by
  obtain ⟨⟨_, rest⟩, hparse, rfl⟩ := Option.map_eq_some_iff.mp h
  have hforms : Forms Rule.form Rule.unit.form _ := forms_of_parse hparse
  refine hforms.forall_tokens ?_ (fun r => allTerminals_form r r.mem_all)
    (allTerminals_form .unit (Rule.mem_all _))
  rintro terminal ⟨_, kind, text⟩ htest haccepts ⟨rfl, htext⟩
  have hmay := mayAccept_of_accepts haccepts
  rcases htext with rfl | rfl <;> simp_all [refusesQuotes]

end JavaOutline.Grammar
