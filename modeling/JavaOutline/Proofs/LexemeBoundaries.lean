import Mathlib.Data.List.Find
import JavaOutline.Proofs.Lexing

/-!
# JavaOutline.Proofs.LexemeBoundaries

How far cutting off a lexeme looks.

Numbers and symbols end at a blank whatever stands behind it (`endsAtBlank_numberLength?`,
`symbolLength?_congr`), and a closed comment, string or character is closed in front of any
text. So only what stands right behind a lexeme counts, up to the first blank
(`Lexeme.StartsAt.of_untilBlank`), and cutting a text into lexemes separates them
(`separated_lexemes`).
-/

namespace JavaOutline.Source

/-! ## Up to a blank -/

/-- The blanks. -/
def blanks : List Char := [' ', '\t', '\n', '\x0b', '\x0c', '\r']

theorem mem_blanks {c : Char} (h : isBlank c = true) : c ∈ blanks := by
  have hle : ∀ a b : Char, a ≤ b ↔ a.toNat ≤ b.toNat := fun _ _ => Iff.rfl
  simp only [isBlank, Bool.or_eq_true, Bool.and_eq_true, decide_eq_true_eq, hle,
    ← Char.toNat_inj, Char.reduceToNat] at h
  simp only [blanks, List.mem_cons, List.not_mem_nil, or_false, ← Char.toNat_inj, Char.reduceToNat]
  omega

/-- A class that holds none of the blanks. -/
theorem eq_false_of_isBlank {p : Char → Bool} (hp : blanks.all (fun c => !p c) = true) {c : Char}
    (h : isBlank c = true) : p c = false := by
  simpa using List.all_eq_true.mp hp c (mem_blanks h)

/-- A text up to its first blank. -/
def untilBlank (cs : List Char) : List Char := cs.takeWhile (!isBlank ·)

@[simp] theorem untilBlank_nil : untilBlank [] = [] := rfl

theorem untilBlank_cons (c : Char) (cs : List Char) :
    untilBlank (c :: cs) = if isBlank c then [] else c :: untilBlank cs := by
  cases h : isBlank c <;> simp [untilBlank, h]

@[simp] theorem untilBlank_blank {c : Char} (h : isBlank c = true) (cs : List Char) :
    untilBlank (c :: cs) = [] := by rw [untilBlank_cons, if_pos h]

@[simp] theorem untilBlank_of_not {c : Char} (h : isBlank c = false) (cs : List Char) :
    untilBlank (c :: cs) = c :: untilBlank cs := by simp [untilBlank_cons, h]

/-- What stands in front of a text is kept apart from it. -/
theorem untilBlank_append_congr {ds es : List Char} (h : untilBlank ds = untilBlank es)
    (cs : List Char) : untilBlank (cs ++ ds) = untilBlank (cs ++ es) := by
  induction cs with
  | nil => exact h
  | cons c cs ih => rw [List.cons_append, List.cons_append, untilBlank_cons, untilBlank_cons, ih]

theorem untilBlank_drop {cs : List Char} {n : Nat} (h : n ≤ (untilBlank cs).length) :
    untilBlank (cs.drop n) = (untilBlank cs).drop n := by
  induction cs generalizing n with
  | nil => simp
  | cons c cs ih =>
      cases n with
      | zero => rfl
      | succ n =>
          rw [untilBlank_cons] at h ⊢
          split at h
          · simp at h
          · next hc => rw [if_neg hc, List.drop_succ_cons, List.drop_succ_cons, ih (by simpa using h)]

/-- A text does not begin with a class that holds no blanks if another one does not that is the
same up to the first blank. -/
theorem Stops.of_untilBlank {p : Char → Bool} {cs ds : List Char}
    (hp : ∀ c, isBlank c = true → p c = false) (h : untilBlank cs = untilBlank ds)
    (hcs : Stops p cs) : Stops p ds := by
  cases ds with
  | nil => exact stops_nil p
  | cons d ds =>
      rw [stops_cons]
      cases hd : isBlank d with
      | true => exact hp d hd
      | false =>
          rw [untilBlank_of_not hd] at h
          refine hcs d ?_
          cases cs with
          | nil => simp at h
          | cons c cs =>
              rw [untilBlank_cons] at h
              split at h <;> simp_all

/-! ## Numbers -/

namespace Matcher

/-- The matcher looks no further than the first blank. -/
structure EndsAtBlank (m : Matcher) : Prop where
  eq_untilBlank : ∀ cs, m cs = m (untilBlank cs)
  le_length : ∀ cs n, m cs = some n → n ≤ (untilBlank cs).length

theorem EndsAtBlank.congr {m : Matcher} (hm : m.EndsAtBlank) {cs ds : List Char}
    (h : untilBlank cs = untilBlank ds) : m cs = m ds := by
  rw [hm.eq_untilBlank cs, h, ← hm.eq_untilBlank]

theorem endsAtBlank_nothing : EndsAtBlank (fun _ => some 0) where
  eq_untilBlank _ := rfl
  le_length cs n h := by
    obtain rfl := Option.some.inj h
    exact Nat.zero_le _

theorem EndsAtBlank.andThen {first second : Matcher} (hfirst : first.EndsAtBlank)
    (hsecond : second.EndsAtBlank) : (andThen first second).EndsAtBlank where
  eq_untilBlank cs := by
    simp only [Matcher.andThen, ← hfirst.eq_untilBlank cs]
    cases hn : first cs with
    | none => rfl
    | some n =>
        have hle := hfirst.le_length cs n hn
        simp only [Option.bind_eq_bind, Option.bind_some]
        rw [hsecond.eq_untilBlank (cs.drop n), untilBlank_drop hle]
  le_length cs n h := by
    simp only [Matcher.andThen, Option.bind_eq_bind, Option.bind_eq_some_iff, Option.pure_def,
      Option.some.injEq] at h
    obtain ⟨k, hk, m, hm, rfl⟩ := h
    have hle := hfirst.le_length cs k hk
    have hrest := hsecond.le_length _ m hm
    rw [untilBlank_drop hle, List.length_drop] at hrest
    omega

theorem EndsAtBlank.optional {m : Matcher} (hm : m.EndsAtBlank) : (optional m).EndsAtBlank where
  eq_untilBlank cs := by simp only [Matcher.optional, ← hm.eq_untilBlank cs]
  le_length cs n h := by
    obtain rfl := Option.some.inj h
    cases hn : m cs with
    | none => exact Nat.zero_le _
    | some n => exact hm.le_length cs n hn

theorem endsAtBlank_oneOf {chars : List Char} (h : chars.all (fun c => !isBlank c) = true) :
    (oneOf chars).EndsAtBlank where
  eq_untilBlank cs := by
    cases cs with
    | nil => rfl
    | cons c cs =>
        rw [untilBlank_cons]
        split
        · next hc =>
          have hnot : c ∉ chars := fun hmem => by
            have hc' := List.all_eq_true.mp h c hmem
            simp [hc] at hc'
          simp [oneOf, hnot]
        · rfl
  le_length cs n hn := by
    cases cs with
    | nil => contradiction
    | cons c cs =>
        simp only [oneOf, List.contains_iff_mem, Option.ite_none_right_eq_some] at hn
        obtain ⟨hmem, hn⟩ := hn
        have hc : isBlank c = false := by simpa using List.all_eq_true.mp h c hmem
        rw [untilBlank_of_not hc, ← Option.some.inj hn]
        simp

theorem endsAtBlank_inOrder {parts : List Matcher} (h : ∀ m ∈ parts, m.EndsAtBlank) :
    (inOrder parts).EndsAtBlank := by
  have hfold : EndsAtBlank (parts.foldr Matcher.andThen fun _ => some 0) := by
    induction parts with
    | nil => exact endsAtBlank_nothing
    | cons m parts ih =>
        rw [List.forall_mem_cons] at h
        exact h.1.andThen (ih h.2)
  exact hfold

theorem endsAtBlank_longest {forms : List Matcher} (h : ∀ m ∈ forms, m.EndsAtBlank) :
    (longest forms).EndsAtBlank where
  eq_untilBlank cs := by
    have hforms : forms.filterMap (· cs) = forms.filterMap (· (untilBlank cs)) := by
      induction forms with
      | nil => rfl
      | cons m forms ih =>
          rw [List.forall_mem_cons] at h
          rw [List.filterMap_cons, List.filterMap_cons, ← h.1.eq_untilBlank cs, ih h.2]
    rw [longest, longest, hforms]
  le_length cs n hn := by
    obtain ⟨m, hm, heq⟩ := List.mem_filterMap.mp (List.max?_mem hn)
    exact (h m hm).le_length cs n heq

end Matcher

open Matcher

/-- A class of characters without blanks and underscores. -/
structure IsDigitClass (digit : Char → Bool) : Prop where
  not_blank : ∀ c, digit c = true → isBlank c = false
  not_underscore : digit '_' = false

/-- A class of digits holds none of the blanks. -/
theorem isDigitClass {digit : Char → Bool} (hblanks : blanks.all (fun c => !digit c) = true)
    (hunderscore : digit '_' = false) : IsDigitClass digit where
  not_blank c hc := by
    cases hb : isBlank c with
    | false => rfl
    | true => rw [eq_false_of_isBlank hblanks hb] at hc; contradiction
  not_underscore := hunderscore

section

variable {digit : Char → Bool} (h : IsDigitClass digit)

include h

theorem groupTail_le (cs : List Char) : groupTail digit cs ≤ (untilBlank cs).length := by
  fun_induction groupTail digit cs with
  | case1 c cs hc ih =>
      rw [untilBlank_of_not (by decide), untilBlank_of_not (h.not_blank c hc)]
      simpa using ih
  | case3 c cs _ hc ih =>
      rw [untilBlank_of_not (h.not_blank c hc)]
      simpa using ih
  | case2 | case4 | case5 => exact Nat.zero_le _

theorem groupTail_untilBlank (cs : List Char) :
    groupTail digit cs = groupTail digit (untilBlank cs) := by
  fun_induction groupTail digit cs with
  | case1 c cs hc ih =>
      rw [untilBlank_of_not (by decide), untilBlank_of_not (h.not_blank c hc), groupTail, if_pos hc,
        ← ih]
  | case2 c cs hc =>
      rw [untilBlank_of_not (by decide), untilBlank_cons]
      split <;> simp [groupTail, hc, h.not_underscore]
  | case3 c cs hsep hc ih =>
      have hunder : c ≠ '_' := by
        rintro rfl
        simp [h.not_underscore] at hc
      rw [untilBlank_of_not (h.not_blank c hc), groupTail.eq_2, if_pos hc, ← ih]
      exact fun _ _ hc' => absurd hc' hunder
  | case4 c cs hsep hc =>
      rw [untilBlank_cons]
      split
      · rfl
      · by_cases hunder : c = '_'
        · have hnil : cs = [] := by
            cases cs with
            | nil => rfl
            | cons d ds => exact (hsep d ds hunder rfl).elim
          simp [hnil, groupTail, hc]
        · rw [groupTail.eq_2, if_neg hc]
          exact fun _ _ hc' => absurd hc' hunder
  | case5 => rfl

theorem endsAtBlank_groups : (groups digit).EndsAtBlank where
  eq_untilBlank cs := by
    cases cs with
    | nil => rfl
    | cons c cs =>
        cases hc : digit c with
        | true =>
            rw [untilBlank_of_not (h.not_blank c hc), groups, groups, if_pos hc, if_pos hc,
              groupTail_untilBlank h]
        | false =>
            rw [untilBlank_cons]
            split <;> simp [groups, hc]
  le_length cs n hn := by
    cases cs with
    | nil => contradiction
    | cons c cs =>
        simp only [groups, Option.ite_none_right_eq_some, Option.some.injEq] at hn
        obtain ⟨hc, rfl⟩ := hn
        rw [untilBlank_of_not (h.not_blank c hc)]
        simpa using groupTail_le h cs

end

theorem isDigitClass_isDecimal : IsDigitClass isDecimal := isDigitClass (by decide) (by decide)

theorem isBlank_of_isDecimal {c : Char} (h : isDecimal c = true) : isBlank c = false :=
  isDigitClass_isDecimal.not_blank c h

theorem looseTail_le (pending : Nat) (cs : List Char) :
    looseTail pending cs ≤ (untilBlank cs).length + pending := by
  fun_induction looseTail pending cs with
  | case1 pending c cs hc ih =>
      rw [untilBlank_of_not (isBlank_of_isDecimal hc), List.length_cons]
      omega
  | case2 pending cs _ ih =>
      rw [untilBlank_of_not (by decide), List.length_cons]
      omega
  | case3 | case4 => exact Nat.zero_le _

theorem looseTail_untilBlank (pending : Nat) (cs : List Char) :
    looseTail pending cs = looseTail pending (untilBlank cs) := by
  fun_induction looseTail pending cs with
  | case1 pending c cs hc ih =>
      rw [untilBlank_of_not (isBlank_of_isDecimal hc), looseTail, if_pos hc, ← ih]
  | case2 pending cs hc ih =>
      rw [untilBlank_of_not (by decide), looseTail, if_neg hc, if_pos rfl, ← ih]
  | case3 pending c cs hc hunder =>
      rw [untilBlank_cons]
      split
      · rfl
      · rw [looseTail, if_neg hc, if_neg hunder]
  | case4 => rfl

theorem decimalDigits_untilBlank (cs : List Char) :
    decimalDigits cs = decimalDigits (untilBlank cs) := by
  have hunder : isBlank '_' = false := by decide
  have hdec : isDecimal '_' = false := by decide
  rcases cs with _ | ⟨c, cs⟩
  · rfl
  cases hc : isDecimal c with
  | false =>
      rw [decimalDigits_eq_none cs hc, untilBlank_cons]
      split
      · rfl
      · rw [decimalDigits_eq_none _ hc]
  | true =>
      rw [untilBlank_of_not (isBlank_of_isDecimal hc)]
      by_cases hzero : c = '0'
      · rw [hzero]
        rfl
      rcases cs with _ | ⟨d, cs⟩
      · rfl
      by_cases hd : d = '_'
      · subst hd
        rw [untilBlank_of_not hunder]
        rcases cs with _ | ⟨e, cs⟩
        · rfl
        · rw [untilBlank_cons]
          cases he : isDecimal e <;>
            grind [decimalDigits, isBlank_of_isDecimal, looseTail_untilBlank]
      · have hone : ∀ ds : List Char, decimalDigits (c :: d :: ds)
            = if isDecimal d then some (looseTail 0 ds + 2) else some 1 := by
          intro ds
          rw [decimalDigits.eq_3 _ _ _ hzero (fun _ _ h _ => hd h)]
          simp [hc]
        cases hblank : isBlank d with
        | true =>
            have hdd : isDecimal d = false := eq_false_of_isBlank (by decide) hblank
            rw [hone, hdd, untilBlank_blank hblank]
            simp [decimalDigits, hc]
        | false => rw [hone, untilBlank_of_not hblank, hone, looseTail_untilBlank]

theorem endsAtBlank_decimalDigits : decimalDigits.EndsAtBlank where
  eq_untilBlank := decimalDigits_untilBlank
  le_length cs n hn := by
    have hunder : isBlank '_' = false := by decide
    have hzero : isBlank '0' = false := by decide
    fun_cases decimalDigits cs <;>
      grind [untilBlank_cons, decimalDigits, isBlank_of_isDecimal, looseTail_le]

/-- **A number ends at a blank.** -/
theorem endsAtBlank_numberLength? : numberLength?.EndsAtBlank := by
  have hdecimal : (groups isDecimal).EndsAtBlank := endsAtBlank_groups isDigitClass_isDecimal
  have hhexadecimal : (groups isHexadecimal).EndsAtBlank :=
    endsAtBlank_groups (isDigitClass (by decide) (by decide))
  have hoctal : (groups isOctal).EndsAtBlank :=
    endsAtBlank_groups (isDigitClass (by decide) (by decide))
  have hbinary : (groups isBinary).EndsAtBlank :=
    endsAtBlank_groups (isDigitClass (by decide) (by decide))
  have hsign : sign.EndsAtBlank := (endsAtBlank_oneOf (by decide)).optional
  have hlong : longMark.EndsAtBlank := (endsAtBlank_oneOf (by decide)).optional
  have hfloat : floatMark.EndsAtBlank := endsAtBlank_oneOf (by decide)
  have hzero : (oneOf ['0']).EndsAtBlank := endsAtBlank_oneOf (by decide)
  have hdot : (oneOf ['.']).EndsAtBlank := endsAtBlank_oneOf (by decide)
  have hmarks : ∀ marks ∈ [['x', 'X'], ['o', 'O'], ['b', 'B'], ['e', 'E'], ['e', 'E', 'p', 'P']],
      (oneOf marks).EndsAtBlank := by
    have hall : [['x', 'X'], ['o', 'O'], ['b', 'B'], ['e', 'E'], ['e', 'E', 'p', 'P']].all
        (fun marks => marks.all fun c => !isBlank c) = true := by decide
    exact fun marks hmem => endsAtBlank_oneOf (List.all_eq_true.mp hall marks hmem)
  simp only [List.forall_mem_cons] at hmarks
  have hexponent : decimalExponent.EndsAtBlank :=
    endsAtBlank_inOrder (by simp [hmarks, hsign, hdecimal])
  have hpower : (inOrder [oneOf ['e', 'E', 'p', 'P'], sign, decimalDigits,
      Matcher.optional floatMark]).EndsAtBlank :=
    endsAtBlank_inOrder (by simp [hmarks, hsign, endsAtBlank_decimalDigits, hfloat.optional])
  have hdigits : hexadecimalDigits.EndsAtBlank := by
    refine endsAtBlank_longest ?_
    simp [endsAtBlank_inOrder, hhexadecimal, hdot, EndsAtBlank.optional]
  refine endsAtBlank_longest ?_
  simp [numberForms, basedInteger, endsAtBlank_inOrder, EndsAtBlank.optional, hdecimal, hhexadecimal,
    hoctal, hbinary, hsign, hlong, hfloat, hzero, hdot, hmarks, hexponent, hdigits,
    hpower, endsAtBlank_decimalDigits]

/-! ## Symbols -/

theorem isPrefixOf_untilBlank {s : List Char} (hs : s.all (fun c => !isBlank c) = true)
    (cs : List Char) : s.isPrefixOf cs = s.isPrefixOf (untilBlank cs) := by
  induction s generalizing cs with
  | nil => simp
  | cons c s ih =>
      simp only [List.all_cons, Bool.and_eq_true, Bool.not_eq_true'] at hs
      cases cs with
      | nil => rfl
      | cons d cs =>
          cases hd : isBlank d with
          | true =>
              have hne : (c == d) = false := by
                rw [beq_eq_false_iff_ne]
                rintro rfl
                rw [hs.1] at hd
                contradiction
              simp [hd, List.isPrefixOf, hne]
          | false => simp [hd, List.isPrefixOf, ih hs.2 cs]

/-- **A symbol ends at a blank.** -/
theorem symbolLength?_congr {cs ds : List Char} (h : untilBlank cs = untilBlank ds) :
    symbolLength? cs = symbolLength? ds := by
  have hsymbols : symbols.all (fun s => s.toList.all fun c => !isBlank c) = true := by decide
  have hfind : symbols.find? (fun s => s.toList.isPrefixOf cs)
      = symbols.find? fun s => s.toList.isPrefixOf ds :=
    List.find?_congr fun s hs => by
      have hblanks := List.all_eq_true.mp hsymbols s hs
      rw [isPrefixOf_untilBlank hblanks cs, h, ← isPrefixOf_untilBlank hblanks]
  rw [symbolLength?, symbolLength?, hfind]

/-! ## Literals and comments -/

theorem two_le_blockCommentTail? {cs : List Char} {n : Nat} (h : blockCommentTail? cs = some n) :
    2 ≤ n := by
  fun_induction blockCommentTail? cs generalizing n with
  | case1 => simp_all
  | case2 c cs hclose ih =>
      obtain ⟨m, hm, rfl⟩ := Option.map_eq_some_iff.mp h
      have := ih hm
      omega
  | case3 => contradiction

theorem blockCommentTail?_cons {c : Char} {cs : List Char} (h : ∀ ds, c :: cs ≠ '*' :: '/' :: ds) :
    blockCommentTail? (c :: cs) = (blockCommentTail? cs).map (· + 1) := by
  rw [blockCommentTail?.eq_2 _ _ fun ds hc hcs => h ds (by rw [hc, hcs])]

/-- A closed comment is closed in front of any text. -/
theorem blockCommentTail?_append {cs rest : List Char} {n : Nat}
    (h : blockCommentTail? (cs ++ rest) = some n) (hn : n ≤ cs.length) (rest' : List Char) :
    blockCommentTail? (cs ++ rest') = some n := by
  have htwo : 2 ≤ cs.length := Nat.le_trans (two_le_blockCommentTail? h) hn
  match cs with
  | c :: d :: cs =>
      by_cases hclose : c = '*' ∧ d = '/'
      · obtain ⟨rfl, rfl⟩ := hclose
        exact h
      · have hopen : ∀ ds es : List Char, c :: d :: ds ≠ '*' :: '/' :: es := by
          intro ds es heq
          simp only [List.cons.injEq] at heq
          exact hclose ⟨heq.1, heq.2.1⟩
        simp only [List.cons_append, blockCommentTail?_cons (hopen _)] at h ⊢
        obtain ⟨m, hm, rfl⟩ := Option.map_eq_some_iff.mp h
        have ih : blockCommentTail? (d :: cs ++ rest') = some m :=
          blockCommentTail?_append hm (by simpa using hn) rest'
        rw [List.cons_append] at ih
        rw [ih, Option.map_some]

theorem one_le_characterTail? {cs : List Char} {n : Nat} (h : characterTail? cs = some n) :
    1 ≤ n := by
  fun_cases characterTail? cs <;> simp_all [characterTail?] <;> omega

theorem characterTail?_escape (c : Char) (cs : List Char) :
    characterTail? ('\\' :: c :: cs) = (characterTail? cs).map (· + 2) := rfl

theorem characterTail?_cons {c : Char} (cs : List Char) (hquote : c ≠ '\x27') (hline : c ≠ '\n')
    (hslash : c ≠ '\\') : characterTail? (c :: cs) = (characterTail? cs).map (· + 1) := by
  rw [characterTail?.eq_4 _ _ hquote hline (fun _ _ h _ => hslash h)]

/-- A closed character is closed in front of any text. -/
theorem characterTail?_append {cs rest : List Char} {n : Nat}
    (h : characterTail? (cs ++ rest) = some n) (hn : n ≤ cs.length) (rest' : List Char) :
    characterTail? (cs ++ rest') = some n := by
  match cs with
  | [] => exact absurd (one_le_characterTail? h) (by simp_all)
  | c :: cs =>
      by_cases hquote : c = '\x27'
      · rw [hquote] at h ⊢
        exact h
      by_cases hline : c = '\n'
      · rw [hline] at h
        contradiction
      by_cases hslash : c = '\\'
      · subst hslash
        match cs with
        | [] =>
            -- What is escaped stands behind the text already.
            cases rest with
            | nil => contradiction
            | cons d rest =>
                obtain ⟨m, -, rfl⟩ := Option.map_eq_some_iff.mp h
                simp at hn
        | d :: cs =>
            obtain ⟨m, hm, rfl⟩ := Option.map_eq_some_iff.mp h
            have ih := characterTail?_append hm (by simpa using hn) rest'
            simp only [List.cons_append, characterTail?_escape, ih, Option.map_some]
      · rw [List.cons_append, characterTail?_cons _ hquote hline hslash] at h ⊢
        obtain ⟨m, hm, rfl⟩ := Option.map_eq_some_iff.mp h
        rw [characterTail?_append hm (by simpa using hn) rest', Option.map_some]

theorem one_le_stringTail? {cs : List Char} {n : Nat} (h : stringTail? cs = some n) : 1 ≤ n := by
  fun_cases stringTail? cs <;> simp_all [stringTail?] <;> omega

theorem stringTail?_escape (c : Char) (cs : List Char) :
    stringTail? ('\\' :: c :: cs)
      = if isEscape c cs then (stringTail? cs).map (· + 2) else none := rfl

theorem stringTail?_cons {c : Char} (cs : List Char) (hquote : c ≠ '"') (hslash : c ≠ '\\') :
    stringTail? (c :: cs) = (stringTail? cs).map (· + 1) := by
  rw [stringTail?.eq_3 _ _ hquote (fun _ _ h _ => hslash h)]

/-- A closed string holds the quote that closes it. -/
theorem mem_of_stringTail? {cs rest : List Char} {n : Nat} (h : stringTail? (cs ++ rest) = some n)
    (hn : n ≤ cs.length) : '"' ∈ cs := by
  match cs with
  | [] => exact absurd (one_le_stringTail? h) (by simp_all)
  | c :: cs =>
      by_cases hquote : c = '"'
      · simp [hquote]
      refine List.mem_cons_of_mem _ ?_
      by_cases hslash : c = '\\'
      · subst hslash
        match cs with
        | [] =>
            cases rest with
            | nil => contradiction
            | cons d rest =>
                rw [List.cons_append, List.nil_append, stringTail?_escape,
                  Option.ite_none_right_eq_some] at h
                obtain ⟨m, -, rfl⟩ := Option.map_eq_some_iff.mp h.2
                simp at hn
        | d :: cs =>
            rw [List.cons_append, List.cons_append, stringTail?_escape,
              Option.ite_none_right_eq_some] at h
            obtain ⟨m, hm, rfl⟩ := Option.map_eq_some_iff.mp h.2
            exact List.mem_cons_of_mem _ (mem_of_stringTail? hm (by simpa using hn))
      · rw [List.cons_append, stringTail?_cons _ hquote hslash] at h
        obtain ⟨m, hm, rfl⟩ := Option.map_eq_some_iff.mp h
        exact mem_of_stringTail? hm (by simpa using hn)

/-- The end of a run is not changed by what follows a character outside of the class. -/
theorem runs_append {p : Char → Bool} {c : Char} (hc : p c = false) {cs : List Char} (h : c ∈ cs)
    (rest : List Char) : (cs ++ rest).takeWhile p = cs.takeWhile p
      ∧ ((cs ++ rest).dropWhile p).head? = (cs.dropWhile p).head? := by
  induction cs with
  | nil => simp at h
  | cons d cs ih =>
      cases hd : p d with
      | false => simp [hd]
      | true =>
          have hne : c ≠ d := by
            rintro rfl
            rw [hc] at hd
            contradiction
          simpa [hd] using ih ((List.mem_cons.mp h).resolve_left hne)

/-- Whether a backslash escapes does not depend on what stands behind a quote. -/
theorem isEscape_append {cs : List Char} (h : '"' ∈ cs) (c : Char) (rest : List Char) :
    isEscape c (cs ++ rest) = isEscape c cs := by
  have hquote : isHexadecimal '"' = false := by decide
  cases cs with
  | nil => simp at h
  | cons d cs =>
      have hruns := runs_append hquote h rest
      by_cases hd : d = '\x7b'
      · subst hd
        have hmore := runs_append hquote (List.mem_of_ne_of_mem (by decide) h) rest
        rw [List.cons_append] at hruns ⊢
        simp only [isEscape, hruns.1, hmore.1, hmore.2]
      · have hplain : ∀ ds, isEscape c (d :: ds) = if c = 'x' then
            decide (2 ≤ ((d :: ds).takeWhile isHexadecimal).length)
            else if c = 'u' then decide (4 ≤ ((d :: ds).takeWhile isHexadecimal).length)
            else true := by
          intro ds
          unfold isEscape
          split
          · rfl
          · split
            · split <;> simp_all
            · rfl
        rw [List.cons_append] at hruns ⊢
        rw [hplain, hplain, hruns.1]

/-- A closed string is closed in front of any text. -/
theorem stringTail?_append {cs rest : List Char} {n : Nat} (h : stringTail? (cs ++ rest) = some n)
    (hn : n ≤ cs.length) (rest' : List Char) : stringTail? (cs ++ rest') = some n := by
  have hmem := mem_of_stringTail? h hn
  match cs with
  | [] => simp at hmem
  | c :: cs =>
      by_cases hquote : c = '"'
      · rw [hquote] at h ⊢
        exact h
      have htail : '"' ∈ cs := List.mem_of_ne_of_mem (Ne.symm hquote) hmem
      by_cases hslash : c = '\\'
      · subst hslash
        match cs with
        | d :: cs =>
            rw [List.cons_append, List.cons_append, stringTail?_escape,
              Option.ite_none_right_eq_some] at h ⊢
            obtain ⟨hescape, hmore⟩ := h
            obtain ⟨m, hm, rfl⟩ := Option.map_eq_some_iff.mp hmore
            have hle : m ≤ cs.length := by simpa using hn
            have hin : '"' ∈ cs := mem_of_stringTail? hm hle
            rw [isEscape_append hin] at hescape ⊢
            exact ⟨hescape, by rw [stringTail?_append hm hle rest', Option.map_some]⟩
      · rw [List.cons_append, stringTail?_cons _ hquote hslash] at h ⊢
        obtain ⟨m, hm, rfl⟩ := Option.map_eq_some_iff.mp h
        rw [stringTail?_append hm (by simpa using hn) rest', Option.map_some]

theorem three_le_textBlockTail? {cs : List Char} {n : Nat} (h : textBlockTail? cs = some n) :
    3 ≤ n := by
  fun_induction textBlockTail? cs generalizing n with
  | case1 => simp_all
  | case2 _ cs ih | case3 _ cs _ _ ih =>
      obtain ⟨m, hm, rfl⟩ := Option.map_eq_some_iff.mp h
      have := ih hm
      omega
  | case4 => contradiction

theorem textBlockTail?_escape (c : Char) (cs : List Char) :
    textBlockTail? ('\\' :: c :: cs) = (textBlockTail? cs).map (· + 2) := rfl

theorem textBlockTail?_cons {c : Char} {cs : List Char} (hquotes : ∀ ds, c :: cs ≠ '"' :: '"' :: '"' :: ds)
    (hslash : c ≠ '\\') : textBlockTail? (c :: cs) = (textBlockTail? cs).map (· + 1) := by
  rw [textBlockTail?.eq_3 _ _ (fun ds hc hcs => hquotes ds (by rw [hc, hcs])) (fun _ _ h _ => hslash h)]

/-- A closed text block is closed in front of any text. -/
theorem textBlockTail?_append {cs rest : List Char} {n : Nat}
    (h : textBlockTail? (cs ++ rest) = some n) (hn : n ≤ cs.length) (rest' : List Char) :
    textBlockTail? (cs ++ rest') = some n := by
  have hthree : 3 ≤ cs.length := Nat.le_trans (three_le_textBlockTail? h) hn
  match cs with
  | c :: d :: e :: cs =>
      by_cases hquotes : c = '"' ∧ d = '"' ∧ e = '"'
      · obtain ⟨rfl, rfl, rfl⟩ := hquotes
        exact h
      by_cases hslash : c = '\\'
      · subst hslash
        simp only [List.cons_append, textBlockTail?_escape] at h ⊢
        obtain ⟨m, hm, rfl⟩ := Option.map_eq_some_iff.mp h
        have ih : textBlockTail? (e :: cs ++ rest') = some m :=
          textBlockTail?_append hm (by simpa using hn) rest'
        rw [List.cons_append] at ih
        rw [ih, Option.map_some]
      · have hopen : ∀ ds es : List Char, c :: d :: e :: ds ≠ '"' :: '"' :: '"' :: es := by
          intro ds es heq
          simp only [List.cons.injEq] at heq
          exact hquotes ⟨heq.1, heq.2.1, heq.2.2.1⟩
        simp only [List.cons_append, textBlockTail?_cons (hopen _) hslash] at h ⊢
        obtain ⟨m, hm, rfl⟩ := Option.map_eq_some_iff.mp h
        have ih : textBlockTail? (d :: e :: cs ++ rest') = some m :=
          textBlockTail?_append hm (by simpa using hn) rest'
        simp only [List.cons_append] at ih
        rw [ih, Option.map_some]

/-! ## Lexemes -/

/-- A lexeme that does not begin with a sign that may open a literal or a comment. -/
theorem lexemeAt_congr {c : Char} {cs ds : List Char} (h : untilBlank cs = untilBlank ds)
    (hblank : isBlank c = false) (hname : isNameStart c = false)
    (hopen : c ∉ ['/', '"', '\x27']) : lexemeAt c cs = lexemeAt c ds := by
  have hnumber : numberLength? (c :: cs) = numberLength? (c :: ds) :=
    endsAtBlank_numberLength?.congr (by simp [hblank, h])
  have hsymbol : symbolLength? (c :: cs) = symbolLength? (c :: ds) :=
    symbolLength?_congr (by simp [hblank, h])
  unfold lexemeAt
  simp only [hblank, hname, Bool.false_eq_true, if_false, hnumber]
  split
  · rfl
  · split <;> simp_all

section

variable (cs : List Char)

theorem numberLength?_open {c : Char} (hc : c ∈ ['/', '"', '\x27']) :
    isBlank c = false ∧ isNameStart c = false ∧ numberLength? (c :: cs) = none := by
  have hall : ['/', '"', '\x27'].all
      (fun c => !isBlank c && !isNameStart c && !isDecimal c && c != '.') = true := by decide
  have hclasses := List.all_eq_true.mp hall c hc
  simp only [Bool.and_eq_true, Bool.not_eq_true', bne_iff_ne] at hclasses
  obtain ⟨⟨⟨hblank, hname⟩, hdecimal⟩, hdot⟩ := hclasses
  exact ⟨hblank, hname, numberLength?_eq_none hdecimal fun h => absurd h hdot⟩

theorem lexemeAt_lineComment :
    lexemeAt '/' ('/' :: cs) = (.comment, (cs.takeWhile (· ≠ '\n')).length + 1) := by
  obtain ⟨hblank, hname, hnumber⟩ := numberLength?_open ('/' :: cs) (c := '/') (by decide)
  simp [lexemeAt, hblank, hname, hnumber]

theorem lexemeAt_blockComment :
    lexemeAt '/' ('*' :: cs) = orStray .comment ((blockCommentTail? cs).map (· + 1)) := by
  obtain ⟨hblank, hname, hnumber⟩ := numberLength?_open ('*' :: cs) (c := '/') (by decide)
  simp [lexemeAt, hblank, hname, hnumber]

theorem lexemeAt_slash (h : Stops (fun c => c == '/' || c == '*') cs) :
    lexemeAt '/' cs = orStray .symbol ((symbolLength? ('/' :: cs)).map (· - 1)) := by
  obtain ⟨hblank, hname, hnumber⟩ := numberLength?_open cs (c := '/') (by decide)
  simp only [lexemeAt, hblank, hname, hnumber, Bool.false_eq_true, if_false]
  split <;> simp_all

theorem lexemeAt_textBlock :
    lexemeAt '"' ('"' :: '"' :: cs) = orStray .string ((textBlockTail? cs).map (· + 2)) := by
  obtain ⟨hblank, hname, hnumber⟩ := numberLength?_open ('"' :: '"' :: cs) (c := '"') (by decide)
  simp [lexemeAt, hblank, hname, hnumber]

theorem lexemeAt_string (h : ∀ ds, cs ≠ '"' :: '"' :: ds) :
    lexemeAt '"' cs = orStray .string (stringTail? cs) := by
  obtain ⟨hblank, hname, hnumber⟩ := numberLength?_open cs (c := '"') (by decide)
  simp only [lexemeAt, hblank, hname, hnumber, Bool.false_eq_true, if_false]

theorem lexemeAt_apostrophes : lexemeAt '\x27' ('\x27' :: cs) = (.stray, 0) := by
  obtain ⟨hblank, hname, hnumber⟩ := numberLength?_open ('\x27' :: cs) (c := '\x27') (by decide)
  simp [lexemeAt, hblank, hname, hnumber]

theorem lexemeAt_character (h : Stops (· == '\x27') cs) :
    lexemeAt '\x27' cs = orStray .literal (characterTail? cs) := by
  obtain ⟨hblank, hname, hnumber⟩ := numberLength?_open cs (c := '\x27') (by decide)
  simp only [lexemeAt, hblank, hname, hnumber, Bool.false_eq_true, if_false]
  split <;> simp_all

end

/-- A run ends with the text if what follows is outside of the class. -/
theorem length_takeWhile_append {p : Char → Bool} {cs rest : List Char} :
    ((cs ++ rest).takeWhile p).length = cs.length ↔ (∀ c ∈ cs, p c = true) ∧ Stops p rest := by
  induction cs with
  | nil => cases rest <;> simp [List.takeWhile_cons]
  | cons c cs ih =>
      cases hc : p c with
      | false => simp [hc]
      | true => simpa [hc] using ih

theorem orStray_eq {kind kind' : LexemeKind} {further : Option Nat} {n : Nat}
    (h : orStray kind further = (kind', n)) :
    (further = some n ∧ kind' = kind) ∨ (further = none ∧ kind' = .stray ∧ n = 0) := by
  cases further with
  | some m =>
      obtain ⟨rfl, rfl⟩ := Prod.mk.inj h
      exact .inl ⟨rfl, rfl⟩
  | none =>
      obtain ⟨rfl, rfl⟩ := Prod.mk.inj h
      exact .inr ⟨rfl, rfl, rfl⟩

section

variable {cs rest rest' : List Char} {kind : LexemeKind}

/-- A comment or a symbol that begins with a slash. -/
theorem lexemeAt_slash_append (h : lexemeAt '/' (cs ++ rest) = (kind, cs.length))
    (hrest : untilBlank rest = untilBlank rest')
    (hcomment : kind = .comment → Stops (· ≠ '\n') rest → Stops (· ≠ '\n') rest')
    (hstray : kind = .stray → cs ≠ []) : lexemeAt '/' (cs ++ rest') = (kind, cs.length) := by
  by_cases hplain : Stops (fun c => c == '/' || c == '*') (cs ++ rest)
  · -- No comment begins here, nor does one in front of the other text.
    have hsame := untilBlank_append_congr hrest cs
    have hblanks : ∀ c, isBlank c = true → (c == '/' || c == '*') = false := fun c =>
      eq_false_of_isBlank (p := fun c => c == '/' || c == '*') (by decide)
    have hsymbol : symbolLength? ('/' :: (cs ++ rest)) = symbolLength? ('/' :: (cs ++ rest')) :=
      symbolLength?_congr (by simp [untilBlank_cons, hsame])
    rw [lexemeAt_slash _ (hplain.of_untilBlank hblanks hsame)]
    rwa [lexemeAt_slash _ hplain, hsymbol] at h
  · cases cs with
    | nil =>
        cases rest with
        | nil => simp at hplain
        | cons c rest =>
            have hc : c = '/' ∨ c = '*' := by
              simpa [-not_or, ← Decidable.or_iff_not_imp_left] using hplain
            rcases hc with rfl | rfl
            · rw [List.nil_append, lexemeAt_lineComment] at h
              simp at h
            · rw [List.nil_append, lexemeAt_blockComment] at h
              rcases orStray_eq h with ⟨hsome, -⟩ | ⟨-, hkind, -⟩
              · simp at hsome
              · exact absurd rfl (hstray hkind)
    | cons c cs =>
        have hc : c = '/' ∨ c = '*' := by
          simpa [-not_or, ← Decidable.or_iff_not_imp_left] using hplain
        rcases hc with rfl | rfl
        · rw [List.cons_append, lexemeAt_lineComment] at h ⊢
          obtain ⟨rfl, hlength⟩ := Prod.mk.inj h
          obtain ⟨hline, hstop⟩ := length_takeWhile_append.mp (Nat.add_right_cancel hlength)
          rw [length_takeWhile_append.mpr ⟨hline, hcomment rfl hstop⟩, List.length_cons]
        · rw [List.cons_append, lexemeAt_blockComment] at h ⊢
          rcases orStray_eq h with ⟨hsome, rfl⟩ | ⟨-, -, hlength⟩
          · obtain ⟨m, hm, hlength⟩ := Option.map_eq_some_iff.mp hsome
            rw [blockCommentTail?_append hm (by simp_all) rest', Option.map_some, hlength]
            rfl
          · simp at hlength

/-- A string or a text block. -/
theorem lexemeAt_quote_append (h : lexemeAt '"' (cs ++ rest) = (kind, cs.length))
    (hrest : untilBlank rest = untilBlank rest') (hstray : kind = .stray → cs ≠ []) :
    lexemeAt '"' (cs ++ rest') = (kind, cs.length) := by
  by_cases hblock : ∃ ds, cs ++ rest = '"' :: '"' :: ds
  · obtain ⟨ds, hds⟩ := hblock
    rw [hds, lexemeAt_textBlock] at h
    rcases orStray_eq h with ⟨hsome, rfl⟩ | ⟨-, hkind, hlength⟩
    · obtain ⟨m, hm, hlength⟩ := Option.map_eq_some_iff.mp hsome
      -- The closing quotes are part of the lexeme, so the opening ones are.
      match cs with
      | [] | [_] => simp at hlength
      | c :: d :: cs =>
          obtain ⟨rfl, rfl, rfl⟩ : c = '"' ∧ d = '"' ∧ cs ++ rest = ds := by simpa using hds
          simp only [List.cons_append, lexemeAt_textBlock]
          rw [textBlockTail?_append hm (by simp_all) rest', Option.map_some, hlength]
          rfl
    · exact absurd (List.length_eq_zero_iff.mp hlength) (hstray hkind)
  · rw [lexemeAt_string _ fun ds hds => hblock ⟨ds, hds⟩] at h
    rcases orStray_eq h with ⟨hsome, rfl⟩ | ⟨-, hkind, hlength⟩
    · rw [lexemeAt_string, stringTail?_append hsome (Nat.le_refl _) rest']
      · rfl
      · intro ds hds
        match cs with
        | [] => exact absurd (one_le_stringTail? hsome) (by simp)
        | [c] =>
            obtain ⟨rfl, rfl⟩ : c = '"' ∧ rest' = '"' :: ds := by simpa using hds
            have hstop : Stops (· == '"') rest := by
              cases rest with
              | nil => exact stops_nil _
              | cons d rest =>
                  refine stops_cons.mpr (beq_eq_false_iff_ne.mpr ?_)
                  rintro rfl
                  exact hblock ⟨rest, rfl⟩
            have hstop' := hstop.of_untilBlank
              (fun c => eq_false_of_isBlank (p := (· == '"')) (by decide)) hrest
            simp at hstop'
        | c :: d :: cs =>
            obtain ⟨rfl, rfl, -⟩ : c = '"' ∧ d = '"' ∧ cs ++ rest' = ds := by simpa using hds
            exact hblock ⟨_, rfl⟩
    · exact absurd (List.length_eq_zero_iff.mp hlength) (hstray hkind)

/-- A character. -/
theorem lexemeAt_apostrophe_append (h : lexemeAt '\x27' (cs ++ rest) = (kind, cs.length))
    (hstray : kind = .stray → cs ≠ []) : lexemeAt '\x27' (cs ++ rest') = (kind, cs.length) := by
  by_cases hplain : Stops (· == '\x27') (cs ++ rest)
  · rw [lexemeAt_character _ hplain] at h
    rcases orStray_eq h with ⟨hsome, rfl⟩ | ⟨-, hkind, hlength⟩
    · cases cs with
      | nil => exact absurd (one_le_characterTail? hsome) (by simp)
      | cons c cs =>
          rw [lexemeAt_character _ (by simpa using hplain),
            characterTail?_append hsome (Nat.le_refl _) rest']
          rfl
    · exact absurd (List.length_eq_zero_iff.mp hlength) (hstray hkind)
  · cases hcs : cs ++ rest with
    | nil => simp [hcs] at hplain
    | cons c ds =>
        obtain rfl : c = '\x27' := by simpa [hcs] using hplain
        rw [hcs, lexemeAt_apostrophes] at h
        obtain ⟨hkind, hlength⟩ := Prod.mk.inj h
        exact absurd (List.length_eq_zero_iff.mp hlength.symm) (hstray hkind.symm)

end

/-- **Only what stands right behind a lexeme counts, up to the first blank**: in front of any
other text that is the same up to there the lexeme is cut off again. A blank is not, a sign
that opens nothing might open something, and a comment needs its line to end. -/
theorem Lexeme.StartsAt.of_untilBlank {l : Lexeme} {rest rest' : List Char} (h : l.StartsAt rest)
    (hrest : untilBlank rest = untilBlank rest') (hblank : l.kind ≠ .blank)
    (hcomment : l.kind = .comment → Stops (· ≠ '\n') rest → Stops (· ≠ '\n') rest')
    (hstray : l.kind = .stray → l.text ∉ ["/", "\"", "\x27"]) : l.StartsAt rest' := by
  obtain ⟨kind, text⟩ := l
  obtain ⟨c, cs, htext, hcut⟩ := h
  simp only at htext hcut hblank hcomment hstray
  refine ⟨c, cs, htext, ?_⟩
  simp only
  have hsame := untilBlank_append_congr hrest cs
  by_cases hc : isBlank c = true
  · unfold lexemeAt at hcut
    rw [if_pos hc] at hcut
    exact absurd (Prod.mk.inj hcut).1.symm hblank
  by_cases hname : isNameStart c = true
  · unfold lexemeAt at hcut ⊢
    rw [if_neg hc, if_pos hname] at hcut ⊢
    obtain ⟨rfl, hlength⟩ := Prod.mk.inj hcut
    obtain ⟨hparts, hstop⟩ := length_takeWhile_append.mp hlength
    have hblanks : ∀ c, isBlank c = true → isNamePart c = false := fun c hc =>
      isNamePart_of_isWhiteSpace (isWhiteSpace_of_isBlank hc)
    rw [length_takeWhile_append.mpr ⟨hparts, hstop.of_untilBlank hblanks hrest⟩]
  by_cases hopen : c ∈ ['/', '"', '\x27']
  · have hstray' : kind = .stray → cs ≠ [] := by
      rintro hkind rfl
      refine hstray hkind ?_
      rw [← String.ofList_toList (s := text), htext]
      simp only [List.mem_cons, List.not_mem_nil, or_false] at hopen
      rcases hopen with rfl | rfl | rfl <;> decide
    simp only [List.mem_cons, List.not_mem_nil, or_false] at hopen
    rcases hopen with rfl | rfl | rfl
    · exact lexemeAt_slash_append hcut hrest hcomment hstray'
    · exact lexemeAt_quote_append hcut hrest hstray'
    · exact lexemeAt_apostrophe_append hcut hstray'
  · rw [← lexemeAt_congr hsame (by simpa using hc) (by simpa using hname) hopen, hcut]

/-! ## Cut texts -/

theorem blockCommentTail?_le {cs : List Char} {n : Nat} (h : blockCommentTail? cs = some n) :
    n ≤ cs.length := by
  fun_induction blockCommentTail? cs generalizing n with
  | case1 => simp_all; omega
  | case2 c cs _ ih =>
      obtain ⟨m, hm, rfl⟩ := Option.map_eq_some_iff.mp h
      simpa using ih hm
  | case3 => contradiction

theorem characterTail?_le {cs : List Char} {n : Nat} (h : characterTail? cs = some n) :
    n ≤ cs.length := by
  fun_induction characterTail? cs generalizing n with
  | case1 => simp_all
  | case3 _ cs ih | case4 _ cs _ _ _ ih =>
      obtain ⟨m, hm, rfl⟩ := Option.map_eq_some_iff.mp h
      simpa using ih hm
  | case2 | case5 => contradiction

theorem stringTail?_le {cs : List Char} {n : Nat} (h : stringTail? cs = some n) :
    n ≤ cs.length := by
  fun_induction stringTail? cs generalizing n with
  | case1 => simp_all
  | case2 _ cs _ ih | case4 _ cs _ _ ih =>
      obtain ⟨m, hm, rfl⟩ := Option.map_eq_some_iff.mp h
      simpa using ih hm
  | case3 | case5 => contradiction

theorem textBlockTail?_le {cs : List Char} {n : Nat} (h : textBlockTail? cs = some n) :
    n ≤ cs.length := by
  fun_induction textBlockTail? cs generalizing n with
  | case1 => simp_all; omega
  | case2 _ cs ih | case3 _ cs _ _ ih =>
      obtain ⟨m, hm, rfl⟩ := Option.map_eq_some_iff.mp h
      simpa using ih hm
  | case4 => contradiction

theorem symbolLength?_le {cs : List Char} {n : Nat} (h : symbolLength? cs = some n) :
    n ≤ cs.length := by
  obtain ⟨s, hs, rfl⟩ := Option.map_eq_some_iff.mp h
  have hprefix := List.find?_some hs
  rw [List.isPrefixOf_iff_prefix] at hprefix
  rw [← String.length_toList]
  exact hprefix.length_le

theorem numberLength?_le {cs : List Char} {n : Nat} (h : numberLength? cs = some n) :
    n ≤ cs.length :=
  Nat.le_trans (endsAtBlank_numberLength?.le_length cs n h) (List.takeWhile_prefix _).length_le

/-- A lexeme is part of the text. -/
theorem lexemeAt_le (c : Char) (cs : List Char) : (lexemeAt c cs).2 ≤ cs.length := by
  have hstray : ∀ {kind further}, (∀ n, further = some n → n ≤ cs.length) →
      (orStray kind further).2 ≤ cs.length := by
    intro kind further h
    cases further with
    | some n => exact h n rfl
    | none => exact Nat.zero_le _
  unfold lexemeAt
  split
  · exact (List.takeWhile_prefix _).length_le
  split
  · exact (List.takeWhile_prefix _).length_le
  split
  · next n hn =>
    have := numberLength?_le hn
    simp at this ⊢
    omega
  split
  · simpa using (List.takeWhile_prefix _).length_le
  · refine hstray fun n hn => ?_
    obtain ⟨m, hm, rfl⟩ := Option.map_eq_some_iff.mp hn
    simpa using blockCommentTail?_le hm
  · refine hstray fun n hn => ?_
    obtain ⟨m, hm, rfl⟩ := Option.map_eq_some_iff.mp hn
    simpa using textBlockTail?_le hm
  · exact hstray fun n hn => stringTail?_le hn
  · exact Nat.zero_le _
  · exact hstray fun n hn => characterTail?_le hn
  · refine hstray fun n hn => ?_
    obtain ⟨m, hm, rfl⟩ := Option.map_eq_some_iff.mp hn
    have := symbolLength?_le hm
    simp at this
    omega

/-- **Cutting a text separates its lexemes.** -/
theorem separated_lexemes (cs : List Char) : Separated (lexemes cs) [] := by
  fun_induction lexemes cs with
  | case1 => trivial
  | case2 c cs kind n h ih =>
      refine ⟨⟨c, cs.take n, by simp, ?_⟩, ih⟩
      have hle : n ≤ cs.length := by
        have := lexemeAt_le c cs
        rwa [h] at this
      have hchars : charsOf (lexemes (cs.drop n)) = cs.drop n := by
        rw [charsOf, List.flatMap_def, flatten_lexemes]
      simp only [hchars, List.append_nil, List.take_append_drop, h, List.length_take,
        Nat.min_eq_left hle]

end JavaOutline.Source
