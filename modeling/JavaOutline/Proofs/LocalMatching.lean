import JavaOutline.Proofs.Derivations
import JavaOutline.Proofs.PairedMatching

/-!
# JavaOutline.Proofs.LocalMatching

Matches that do not depend on what follows.

A scan goes over tokens from state to state by their texts alone, and somewhere it is done.
`after` computes from a pattern to which state it brings the scan, whatever tokens it takes,
and has no answer if the pattern may look at a token where the scan is done. So the end of a
scan is as far as such a pattern can look: on two inputs that agree up to there it does the
same (`rel_parse_alike`), and a match that takes all of that part is a match whatever follows
(`parse_append_congr`).
-/

namespace JavaOutline.Grammar

open Source

/-! ## Scans -/

/-- A way to go over texts from state to state. -/
structure Scan (σ : Type) where
  next : σ → String → σ
  /-- The state in which the scan has come to its end. -/
  done : σ

namespace Scan

variable {σ : Type} [DecidableEq σ] (scan : Scan σ)

/-- The state behind some tokens, unless the scan is done before their end. -/
def behind? (s : σ) : List Token → Option σ
  | [] => some s
  | t :: ts => if s = scan.done then none else behind? (scan.next s t.text) ts

/-- Words and literals do not change the state. -/
def Passes (t : Token) : Prop :=
  t.kind = .word ∨ t.kind = .literal ∨ t.kind = .string → ∀ s, scan.next s t.text = s

variable {scan}

theorem behind?_cons {s : σ} (h : s ≠ scan.done) (t : Token) (ts : List Token) :
    scan.behind? s (t :: ts) = scan.behind? (scan.next s t.text) ts := if_neg h

theorem behind?_append (s : σ) (ts us : List Token) :
    scan.behind? s (ts ++ us) = (scan.behind? s ts).bind (scan.behind? · us) := by
  induction ts generalizing s with
  | nil => rfl
  | cons t ts ih =>
      rw [List.cons_append, behind?, behind?]
      split
      · rfl
      · exact ih _

/-- A scan that is not done yet has a token in front of it. -/
theorem exists_of_behind? {s : σ} {w : List Token} (hs : s ≠ scan.done)
    (h : scan.behind? s w = some scan.done) :
    ∃ t v, w = t :: v ∧ scan.behind? (scan.next s t.text) v = some scan.done := by
  cases w with
  | nil => exact absurd (Option.some.inj h) hs
  | cons t v => exact ⟨t, v, rfl, by rwa [behind?_cons hs] at h⟩

end Scan

namespace Pattern

variable {Rule Label σ : Type} [DecidableEq σ] {scan : Scan σ}

/-! ## States behind patterns -/

/-- The state behind any of some texts, if it is the same for all of them. -/
def commonNext (scan : Scan σ) (s : σ) : List String → Option σ
  | [] => none
  | x :: xs => if xs.all (fun y => scan.next s y = scan.next s x) then some (scan.next s x) else none

/-- The state behind a token of a class. -/
def afterToken (scan : Scan σ) (s : σ) : Terminal → Option σ
  | .oneOf texts => commonNext scan s texts
  | .joined text => some (scan.next s text)
  | .word _ | .literal | .string => some s
  | .finish => none

/-- The state behind what a pattern takes, given the states behind rules. Where the scan is
done a pattern may not look at any token. -/
def after (scan : Scan σ) (rule : Rule → σ → Option σ) : Pattern Rule Label → σ → Option σ
  | .nothing, s => some s
  | .token terminal, s => if s = scan.done then none else afterToken scan s terminal
  | .ahead _, s | .unless _, s => if s = scan.done then none else some s
  | .rule r, s => rule r s
  | .node _ p, s => after scan rule p s
  | .seq p q, s => (after scan rule p s).bind (after scan rule q)
  | .choice p q, s => if after scan rule p s = after scan rule q s then after scan rule p s else none
  | .many p, s => if after scan rule p s = some s then some s else none

theorem next_eq_of_commonNext {s s' : σ} {texts : List String}
    (h : commonNext scan s texts = some s') {x : String} (hx : x ∈ texts) :
    scan.next s x = s' := by
  cases texts with
  | nil => simp at hx
  | cons y ys =>
      simp only [commonNext, Option.ite_none_right_eq_some, List.all_eq_true, decide_eq_true_eq,
        Option.some.injEq] at h
      obtain ⟨hall, rfl⟩ := h
      rcases List.mem_cons.mp hx with rfl | hx
      · rfl
      · exact hall x hx

/-- An accepted token brings the scan where its class says. -/
theorem next_eq_of_accepts {s s' : σ} {terminal : Terminal} {t : Token}
    (h : afterToken scan s terminal = some s') (ht : scan.Passes t)
    (haccepts : terminal.accepts t = true) : scan.next s t.text = s' := by
  cases terminal with
  | oneOf texts =>
      exact next_eq_of_commonNext h (by simpa [Terminal.accepts] using haccepts)
  | joined text =>
      simp only [Terminal.accepts, Bool.and_eq_true, beq_iff_eq] at haccepts
      rw [haccepts.2]
      exact Option.some.inj h
  | word except =>
      simp only [Terminal.accepts, Bool.and_eq_true, beq_iff_eq] at haccepts
      rw [ht (.inl haccepts.1) s]
      exact Option.some.inj h
  | literal =>
      simp only [Terminal.accepts, beq_iff_eq] at haccepts
      rw [ht (.inr (.inl haccepts)) s]
      exact Option.some.inj h
  | string =>
      simp only [Terminal.accepts, beq_iff_eq] at haccepts
      rw [ht (.inr (.inr haccepts)) s]
      exact Option.some.inj h
  | finish => contradiction

/-! ## Alike matches -/

/-- What matches give on two inputs that agree in their first part `w` and go on with `r` and
with `r'`: the same trees, and both leave the same tokens of `w`, of which the scan is done at
the end. -/
inductive Alike (scan : Scan σ) (s : σ) (w r r' : List Token) :
    List (ParseTree Label) × List Token → List (ParseTree Label) × List Token → Prop
  | intro (ts : List (ParseTree Label)) {v : List Token} (hv : v <:+ w)
      (hs : scan.behind? s v = some scan.done) : Alike scan s w r r' (ts, v ++ r) (ts, v ++ r')

omit [DecidableEq σ] in
theorem passes_of_suffix {v w : List Token} (hw : ∀ t ∈ w, scan.Passes t) (hv : v <:+ w) :
    ∀ t ∈ v, scan.Passes t := fun t ht => hw t (hv.subset ht)

section

variable {s : σ} {v w r r' rest rest' : List Token} {ts ts' us us' : List (ParseTree Label)}

theorem Alike.length_lt_iff (h : Alike scan s w r r' (ts, rest) (ts', rest')) :
    rest.length < (w ++ r).length ↔ rest'.length < (w ++ r').length := by
  cases h with
  | intro => simp

theorem Alike.node {label : Label} (h : Alike scan s w r r' (ts, rest) (ts', rest')) :
    Alike scan s w r r' ([.node label ts], rest) ([.node label ts'], rest') := by
  cases h with
  | intro _ hv hs => exact .intro [.node label ts] hv hs

/-- Trees in front do not matter. -/
theorem Alike.behind (hv : v <:+ w) (h : Alike scan s v r r' (us, rest) (us', rest'))
    (ts : List (ParseTree Label)) :
    Behind (Alike scan s w r r') ts ts (us, rest) (us', rest') := by
  cases h with
  | intro _ hu hs => exact .intro (ts ++ us) (hu.trans hv) hs

/-- Where all tokens are left the trees are the same. -/
theorem Alike.eq_of_left (h : Alike scan s w r r' (ts, w ++ r) (ts', w ++ r')) :
    ts' = ts ∧ scan.behind? s w = some scan.done := by
  generalize hfound : (ts, w ++ r) = found, hfound' : (ts', w ++ r') = found' at h
  cases h with
  | intro _ _ hs =>
      obtain ⟨rfl, hrest⟩ := Prod.mk.inj hfound
      obtain rfl := List.append_cancel_right hrest
      exact ⟨congrArg Prod.fst hfound', hs⟩

/-- Where all of `w` is taken what follows is left. -/
theorem Alike.eq_of_taken (h : Alike scan s w r r' (ts, r) (ts', rest')) :
    ts' = ts ∧ rest' = r' := by
  generalize hfound : (ts, r) = found at h
  cases h with
  | intro _ _ _ =>
      obtain ⟨rfl, hrest⟩ := Prod.mk.inj hfound
      obtain rfl := List.self_eq_append_left.mp hrest
      exact ⟨rfl, rfl⟩

end

variable {grammar : Rule → Pattern Rule Label} {states : Rule → σ → Option σ}
  (hstates : ∀ r s s', states r s = some s' → after scan states (grammar r) s = some s')

include hstates

/-- **Matching looks no further than to the end of the scan.** -/
theorem rel_parse_alike {p : Pattern Rule Label} {s s' : σ} {w : List Token}
    (hp : after scan states p s = some s') (hw : scan.behind? s w = some scan.done)
    (hpasses : ∀ t ∈ w, scan.Passes t) (depth : Nat) (r r' : List Token) :
    Option.Rel (Alike scan s' w r r') (parse grammar depth p (w ++ r))
      (parse grammar depth p (w ++ r')) := by
  generalize hinput : w ++ r = input
  induction depth, p, input using parse_induction grammar generalizing s s' w with
  | nothing =>
      subst hinput
      obtain rfl := Option.some.inj hp
      exact rel_nothing (.intro [] (List.suffix_refl w) hw)
  | token depth terminal =>
      subst hinput
      simp only [after, Option.ite_none_left_eq_some] at hp
      obtain ⟨t, v, rfl, hv⟩ := Scan.exists_of_behind? hp.1 hw
      refine rel_token rfl (fun haccepts => ?_)
      rw [next_eq_of_accepts hp.2 (hpasses t (by simp)) haccepts] at hv
      exact .intro [.leaf t] (List.suffix_cons t v) hv
  | ahead depth terminal =>
      subst hinput
      simp only [after, Option.ite_none_left_eq_some, Option.some.injEq] at hp
      obtain ⟨hs, rfl⟩ := hp
      obtain ⟨t, v, rfl, -⟩ := Scan.exists_of_behind? hs hw
      exact rel_ahead rfl (.intro [] (List.suffix_refl _) hw)
  | «unless» depth terminal =>
      subst hinput
      simp only [after, Option.ite_none_left_eq_some, Option.some.injEq] at hp
      obtain ⟨hs, rfl⟩ := hp
      obtain ⟨t, v, rfl, -⟩ := Scan.exists_of_behind? hs hw
      exact rel_unless rfl (.intro [] (List.suffix_refl _) hw)
  | stuck => exact .none
  | rule depth r input ih => exact ih (hstates _ _ _ hp) hw hpasses hinput
  | node depth label p input ih =>
      exact rel_node (ih hp hw hpasses hinput) (fun _ _ _ _ h => h.node)
  | seq depth p q input ih₁ ih₂ ihlater =>
      subst hinput
      obtain ⟨mid, hfirst, hsecond⟩ := Option.bind_eq_some_iff.mp hp
      refine rel_seq (ih₁ hfirst hw hpasses rfl) (fun _ _ _ _ h => h.length_lt_iff) ?_ ?_
      · rintro ts - - - ⟨-, hv, hs⟩ hlen
        exact rel_mono (ihlater _ hlen hsecond hs (passes_of_suffix hpasses hv) rfl)
          (fun _ _ _ _ h => h.behind hv ts)
      · intro ts ts' _ h
        obtain ⟨rfl, hs⟩ := h.eq_of_left
        exact rel_mono (ih₂ hsecond hs hpasses rfl)
          (fun _ _ _ _ h => h.behind (List.suffix_refl w) ts')
  | choice depth p q input ih₁ ih₂ =>
      simp only [after, Option.ite_none_right_eq_some] at hp
      exact rel_choice (ih₁ hp.2 hw hpasses hinput) (ih₂ (hp.1 ▸ hp.2) hw hpasses hinput)
  | many depth p input ih ihlater =>
      subst hinput
      have hmany := hp
      simp only [after, Option.ite_none_right_eq_some, Option.some.injEq] at hp
      obtain ⟨hbody, rfl⟩ := hp
      refine rel_many (ih hbody hw hpasses rfl) (fun _ _ _ _ h => h.length_lt_iff)
        (.intro [] (List.suffix_refl w) hw) ?_ (fun _ _ h => h)
      rintro ts - - - ⟨-, hv, hs⟩ hlen
      exact rel_mono (ihlater _ hlen hmany hs (passes_of_suffix hpasses hv) rfl)
        (fun _ _ _ _ h => h.behind hv ts)

/-! ## Scans over formed trees -/

/-- The tokens that a pattern takes bring the scan where the pattern says. -/
theorem Forms.behind?_eq {p : Pattern Rule Label} {ts : List (ParseTree Label)}
    (h : Forms grammar p ts) {s s' : σ} (hp : after scan states p s = some s')
    (hpasses : ∀ t ∈ ParseTree.tokensAll ts, scan.Passes t) :
    scan.behind? s (ParseTree.tokensAll ts) = some s' := by
  induction h generalizing s s' with
  | nothing => exact hp
  | @token terminal t haccepts =>
      simp only [after, Option.ite_none_left_eq_some] at hp
      have hnext := next_eq_of_accepts hp.2 (hpasses t (by simp [ParseTree.tokensAll, ParseTree.tokens]))
        haccepts
      simp only [ParseTree.tokensAll, ParseTree.tokens, List.append_nil,
        Scan.behind?_cons hp.1, hnext]
      rfl
  | ahead | «unless» =>
      simp only [after, Option.ite_none_left_eq_some] at hp
      exact hp.2
  | rule _ ih => exact ih (hstates _ _ _ hp) hpasses
  | node _ ih =>
      simp only [ParseTree.tokensAll, ParseTree.tokens, List.append_nil] at hpasses ⊢
      exact ih hp hpasses
  | seq _ _ ih₁ ih₂ =>
      obtain ⟨mid, hfirst, hsecond⟩ := Option.bind_eq_some_iff.mp hp
      rw [ParseTree.tokensAll_append, List.forall_mem_append] at hpasses
      rw [ParseTree.tokensAll_append, Scan.behind?_append, ih₁ hfirst hpasses.1]
      exact ih₂ hsecond hpasses.2
  | left _ ih =>
      simp only [after, Option.ite_none_right_eq_some] at hp
      exact ih hp.2 hpasses
  | right _ ih =>
      simp only [after, Option.ite_none_right_eq_some] at hp
      exact ih (hp.1 ▸ hp.2) hpasses
  | stop =>
      simp only [after, Option.ite_none_right_eq_some] at hp
      exact hp.2
  | more _ _ ih₁ ih₂ =>
      have hbody := hp
      simp only [after, Option.ite_none_right_eq_some] at hbody
      rw [ParseTree.tokensAll_append, List.forall_mem_append] at hpasses
      rw [ParseTree.tokensAll_append, Scan.behind?_append, ih₁ hbody.1 hpasses.1]
      exact ih₂ hp hpasses.2

/-- **What ends a scan matches whatever follows**: a match that ends where the scan is done
stays a match in front of any other tokens. -/
theorem parse_append_congr {p : Pattern Rule Label} {s : σ} {ts : List (ParseTree Label)}
    {depth : Nat} {r : List Token} (hp : after scan states p s = some scan.done)
    (h : parse grammar depth p (ParseTree.tokensAll ts ++ r) = some (ts, r))
    (hpasses : ∀ t ∈ ParseTree.tokensAll ts, scan.Passes t) (r' : List Token) :
    parse grammar depth p (ParseTree.tokensAll ts ++ r') = some (ts, r') := by
  have hw := (forms_of_parse h).behind?_eq hstates hp hpasses
  have hrel := rel_parse_alike hstates hp hw hpasses depth r r'
  rw [h] at hrel
  rcases cases_of_rel hrel with ⟨hx, -⟩ | ⟨us, rest, us', rest', hx, hy, hlike⟩
  · contradiction
  · obtain ⟨rfl, rfl⟩ := Prod.mk.inj (Option.some.inj hx)
    obtain ⟨rfl, rfl⟩ := hlike.eq_of_taken
    exact hy

end Pattern

end JavaOutline.Grammar
