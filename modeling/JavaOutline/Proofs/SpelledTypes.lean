import JavaOutline.Proofs.SourceText
import JavaOutline.Proofs.TypeReading

/-!
# JavaOutline.Proofs.SpelledTypes

The types of a file that can be written: canonical ones, and names.

A name is a type even if it is a keyword of the grammar, as long as that keyword has no use
where the name stands. So `typeTree` is written, means what it should and is read for names
as it is for canonical types, in the places where `Opening.Reads` lets the name be.
-/

namespace JavaOutline

open Source Grammar Pattern Structure

/-! ## Names -/

/-- A name without dots is its only segment. -/
theorem segments_eq_singleton {w : String} (h : isWord w = true) : segments w = [w] := by
  have hdot : ∀ c ∈ w.toList, (c == '.') = false := by
    have hpart : isNamePart '.' = false := by decide
    intro c hc
    rw [beq_eq_false_iff_ne]
    rintro rfl
    rw [isNamePart_of_isWord h '.' hc] at hpart
    contradiction
  rw [segments, List.splitOn, List.splitOnP_eq_singleton hdot, List.map_singleton,
    String.ofList_toList]

theorem isDotted_of_isWord {w : String} (h : isWord w = true) : IsDotted w := by
  intro v hv
  rw [segments_eq_singleton h, List.mem_singleton] at hv
  exact hv ▸ h

/-- A name that is read as a type begins one. -/
theorem beginsType_of_reads {place : Place} {w : String} (h : isName w = true)
    (hreads : Opening.Reads (.type place) w) : BeginsType place w :=
  .inr ⟨isWord_of_isName h, notMem_keywords_of_isName h, hreads⟩

/-! ## Types -/

namespace TypeRef.IsSpelled

variable {names : String → Prop} {place : Place} {t : TypeRef} {x : Token} {rest : List Token}

/-- Where only a type can stand every name is one. -/
theorem plain (h : t.IsSpelled names) : t.IsSpelled (Opening.Reads (.type .plain)) := by
  cases h with
  | canonical h => exact .canonical h
  | name h =>
      have hprimitive : ∀ w ∈ primitiveTypes, w ∈ keywords := by decide
      exact .name h fun hw => notMem_keywords_of_isName h (hprimitive _ hw)

theorem isWrittenAsType (h : t.IsSpelled (Opening.Reads (.type place))) :
    IsWrittenAsType place t := by
  cases h with
  | canonical h => exact isWritten_of_isCanonical place h
  | @name w h hreads =>
      have hword : isWord w = true := isWord_of_isName h
      refine isWrittenAsType_raw (isDotted_of_isWord hword) fun v vs hs => ?_
      rw [segments_eq_singleton hword, List.cons.injEq] at hs
      exact hs.1 ▸ beginsType_of_reads h hreads

/-- The tree of a type spells it. -/
theorem typeOf_typeTree (h : t.IsSpelled names) (lead : List Lexeme) :
    typeOf (typeTree lead t) = t := by
  cases h with
  | canonical h => exact JavaOutline.typeOf_typeTree h lead
  | name h => exact (isDotted_of_isWord (isWord_of_isName h)).typeOf_typeTree lead

theorem exists_node (h : t.IsSpelled names) (lead : List Lexeme) :
    ∃ ts, typeTree lead t = .node .type ts := by
  cases h with
  | canonical h =>
      cases h with
      | element h =>
          obtain ⟨u, hu⟩ := exists_typeTree_eq h
          exact ⟨_, hu lead⟩
      | array h hn => exact ⟨_, by rw [typeTree]⟩
  | name h => exact ⟨_, by rw [typeTree]⟩

/-- **The grammar reads a type as its tree**, in the places where it is spelled by what is read
there. -/
theorem takes (h : t.IsSpelled (Opening.Reads (.type place))) (lead : List Lexeme)
    (hx : EndsType x) :
    Takes Rule.form 2 (.rule (.type place)) ((typeTree lead t).tokens ++ x :: rest)
      [typeTree lead t] (x :: rest) := by
  cases h with
  | canonical h => exact takes_typeTree place lead rest hx h
  | @name w h hreads =>
      have hword : isWord w = true := isWord_of_isName h
      have hfirst : ∀ v vs, segments w = v :: vs → v ∉ place.reserved := by
        intro v vs hs
        rw [segments_eq_singleton hword, List.cons.injEq] at hs
        exact hs.1 ▸ hreads
      have hnone : Takes Rule.form 1 (maybe (.rule .typeArguments))
          (ParseTree.tokensAll ([] : List SyntaxTree) ++ x :: rest) [] (x :: rest) :=
        (refuses_typeArguments (hx.ne_of_mem (by simp))).maybe.mono (Nat.zero_le 1)
      have hname := takes_reference place lead (isDotted_of_isWord hword) hfirst
        (hx.ne_of_mem (by simp)) hnone
      rw [List.append_nil] at hname
      rw [typeTree]
      exact takes_plainType hx (by rw [ParseTree.tokens]; exact hname)

end TypeRef.IsSpelled

end JavaOutline
