import JavaOutline.Proofs.HiddenCode

/-!
# JavaOutline.Proofs.CodeContents

Source files that differ only in their code. That trees agree outside of code that is replaced
by other code is shown in `ReplacedCode`.
-/

namespace JavaOutline

open Grammar Source Structure

/-- **Code does not leak into the structure of a file**: a file is read as what it declares
outside of its code, so files whose trees agree there are read alike. -/
theorem parse_eq_of_hollowAll {s s' : String} {ts ts' : List SyntaxTree}
    (h : unitTrees? (Token.ofSource s) = some ts) (h' : unitTrees? (Token.ofSource s') = some ts')
    (hcode : hollowAll ts = hollowAll ts') :
    CompilationUnit.parse s = .ok (unitOf (hollowAll ts))
      ∧ CompilationUnit.parse s' = CompilationUnit.parse s := by
  have hs := CompilationUnit.parse_eq_ok_iff.mpr ⟨ts, h, rfl⟩
  have hs' := CompilationUnit.parse_eq_ok_iff.mpr ⟨ts', h', rfl⟩
  rw [hs, hs', unitOf_hollowAll, ← unitOf_hollowAll ts, ← unitOf_hollowAll ts', hcode]
  exact ⟨rfl, rfl⟩

/-- A class with code in a field and in a constructor. -/
def sampleCode : String := "class A \x7b int x = f(1); A() \x7b class B \x7b\x7d \x7d \x7d"

/-- The class with other code in these places. -/
def otherCode : String := "class A \x7b int x = 2; A() \x7b new C() \x7b int y; \x7d; \x7d \x7d"

/-- The trees of the two classes agree outside of the code, so they are read alike. -/
theorem parse_eq_of_hollowAll_sample : ∃ ts ts',
    unitTrees? (Token.ofSource sampleCode) = some ts
      ∧ unitTrees? (Token.ofSource otherCode) = some ts' ∧ ts ≠ ts' ∧ hollowAll ts = hollowAll ts'
      ∧ CompilationUnit.parse sampleCode = .ok (unitOf (hollowAll ts))
      ∧ CompilationUnit.parse otherCode = CompilationUnit.parse sampleCode := by
  have hcheck : (unitTrees? (Token.ofSource sampleCode)).any (fun ts =>
      (unitTrees? (Token.ofSource otherCode)).any fun ts' =>
        decide (ts ≠ ts' ∧ hollowAll ts = hollowAll ts')) = true := by
    decide +kernel
  obtain ⟨ts, hts, hcheck⟩ := (Option.any_eq_true ..).mp hcheck
  obtain ⟨ts', hts', hcheck⟩ := (Option.any_eq_true ..).mp hcheck
  obtain ⟨hne, hcode⟩ := of_decide_eq_true hcheck
  obtain ⟨hparse, hsame⟩ := parse_eq_of_hollowAll hts hts' hcode
  exact ⟨ts, ts', hts, hts', hne, hcode, hparse, hsame⟩

end JavaOutline
