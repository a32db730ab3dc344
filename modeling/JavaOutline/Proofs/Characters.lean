import JavaOutline.Source.Character

/-!
# JavaOutline.Proofs.Characters

The classes of characters are apart where lexical structure needs them to be: no
white space, blanks included, is part of a name. So a text without white space is
its own compact form, and names are such texts.
-/

namespace JavaOutline.Source

/-! ## White space by code points -/

/-- The code points of white space. -/
def whiteSpaceCodes : List Nat :=
  [0x9, 0xa, 0xb, 0xc, 0xd, 0x20, 0x85, 0xa0, 0x1680, 0x2000, 0x2001, 0x2002, 0x2003, 0x2004,
    0x2005, 0x2006, 0x2007, 0x2008, 0x2009, 0x200a, 0x2028, 0x2029, 0x202f, 0x205f, 0x3000]

theorem toNat_mem_whiteSpaceCodes {c : Char} (h : isWhiteSpace c = true) :
    c.toNat ∈ whiteSpaceCodes := by
  have hle : ∀ a b : Char, a ≤ b ↔ a.toNat ≤ b.toNat := fun _ _ => Iff.rfl
  simp only [isWhiteSpace, isBlank, Bool.or_eq_true, Bool.and_eq_true, decide_eq_true_eq, hle,
    ← Char.toNat_inj, Char.reduceToNat] at h
  simp only [whiteSpaceCodes, List.mem_cons, List.not_mem_nil, or_false]
  omega

/-! ## Names -/

/-- White space is part of no name. -/
theorem isNamePart_of_isWhiteSpace {c : Char} (h : isWhiteSpace c = true) :
    isNamePart c = false := by
  have hcodes : ∀ n ∈ whiteSpaceCodes, isNamePart (Char.ofNat n) = false := by decide +kernel
  have hc := hcodes c.toNat (toNat_mem_whiteSpaceCodes h)
  rwa [Char.ofNat_toNat] at hc

theorem isWhiteSpace_of_isNamePart {c : Char} (h : isNamePart c = true) :
    isWhiteSpace c = false := by
  cases hc : isWhiteSpace c with
  | false => rfl
  | true => rw [isNamePart_of_isWhiteSpace hc] at h; contradiction

theorem isNamePart_of_isNameStart {c : Char} (h : isNameStart c = true) : isNamePart c = true := by
  simp [isNamePart, h]

/-- No name begins with a blank. -/
theorem isBlank_of_isNameStart {c : Char} (h : isNameStart c = true) : isBlank c = false := by
  cases hc : isBlank c with
  | false => rfl
  | true =>
      have hpart := isNamePart_of_isWhiteSpace (isWhiteSpace_of_isBlank hc)
      rw [isNamePart_of_isNameStart h] at hpart
      contradiction

/-- No name begins with a digit. -/
theorem isDecimal_of_isNameStart {c : Char} (h : isNameStart c = true) : isDecimal c = false := by
  cases hc : isDecimal c with
  | false => rfl
  | true =>
      have hdigits : ∀ n ∈ List.range 58, 48 ≤ n → isNameStart (Char.ofNat n) = false := by decide
      simp only [isDecimal, Bool.and_eq_true, decide_eq_true_eq] at hc
      have hlo : 48 ≤ c.toNat := hc.1
      have hhi : c.toNat ≤ 57 := hc.2
      have hno := hdigits c.toNat (List.mem_range.mpr (by omega)) hlo
      rw [Char.ofNat_toNat, h] at hno
      contradiction

/-! ## Compact text -/

/-- A text without white space is its own compact form. -/
theorem compact_eq_self {s : String} (h : ∀ c ∈ s.toList, isWhiteSpace c = false) :
    compact s = s := by
  have hfilter : s.toList.filter (fun c => !isWhiteSpace c) = s.toList := by
    rw [List.filter_eq_self]
    intro c hc
    rw [h c hc]
    rfl
  rw [compact, hfilter, String.ofList_toList]

end JavaOutline.Source
