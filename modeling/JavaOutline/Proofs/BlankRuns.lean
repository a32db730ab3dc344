import Mathlib.Data.List.DropRight
import JavaOutline.Proofs.LexemeBoundaries
import JavaOutline.Source.Token

/-!
# JavaOutline.Proofs.BlankRuns

Texts that differ in their runs of blanks have the same lexemes otherwise.

`squeeze` puts one space for each run. A sign that opens no comment, string or text block opens
none in another text that is the same when it is squeezed, so lexemes with other runs of blanks
in place of some are cut off again (`Relaid.separated`), and the tokens are the same but for
the runs in front of them (`Relaid.map_tidy_ofSource`).
-/

namespace JavaOutline.Source

/-! ## Squeezed texts -/

/-- A text with one space for each run of blanks. -/
def squeeze : List Char → List Char
  | [] => []
  | c :: cs => if isBlank c then ' ' :: (squeeze cs).dropWhile isBlank else c :: squeeze cs

theorem squeeze_blank {c : Char} (h : isBlank c = true) (cs : List Char) :
    squeeze (c :: cs) = ' ' :: (squeeze cs).dropWhile isBlank := by rw [squeeze, if_pos h]

theorem squeeze_cons {c : Char} (h : isBlank c = false) (cs : List Char) :
    squeeze (c :: cs) = c :: squeeze cs := by simp [squeeze, h]

theorem squeeze_append_congr {ds es : List Char} (h : squeeze ds = squeeze es) (cs : List Char) :
    squeeze (cs ++ ds) = squeeze (cs ++ es) := by
  induction cs with
  | nil => exact h
  | cons c cs ih => rw [List.cons_append, List.cons_append, squeeze, squeeze, ih]

/-- A run of blanks is as good as any other. -/
theorem squeeze_run {cs : List Char} (hne : cs ≠ []) (hcs : ∀ c ∈ cs, isBlank c = true)
    (ds : List Char) : squeeze (cs ++ ds) = ' ' :: (squeeze ds).dropWhile isBlank := by
  induction cs with
  | nil => contradiction
  | cons c cs ih =>
      rw [List.forall_mem_cons] at hcs
      rw [List.cons_append, squeeze_blank hcs.1]
      cases cs with
      | nil => rfl
      | cons d cs =>
          have hspace : isBlank ' ' = true := by decide
          rw [ih (by simp) hcs.2, List.dropWhile_cons, if_pos hspace, List.dropWhile_idempotent]

theorem untilBlank_squeeze (cs : List Char) : untilBlank (squeeze cs) = untilBlank cs := by
  induction cs with
  | nil => rfl
  | cons c cs ih =>
      cases hc : isBlank c with
      | true => rw [squeeze_blank hc, untilBlank_blank (by decide), untilBlank_blank hc]
      | false => rw [squeeze_cons hc, untilBlank_of_not hc, untilBlank_of_not hc, ih]

section

variable {P : List Char → Bool} (hblank : ∀ c cs, isBlank c = true → P (c :: cs) = P cs)

include hblank

theorem eq_dropWhile_isBlank (cs : List Char) : P (cs.dropWhile isBlank) = P cs := by
  induction cs with
  | nil => rfl
  | cons c cs ih =>
      cases hc : isBlank c with
      | true => rw [List.dropWhile_cons, if_pos hc, ih, hblank c cs hc]
      | false => rw [List.dropWhile_cons, if_neg (by simp [hc])]

/-- What sees no blanks does not see the squeezing of a text either, if it does not see it behind
any other character. -/
theorem eq_squeeze (hstep : ∀ c cs, isBlank c = false →
      (∀ ds : List Char, ds.length ≤ cs.length → P (squeeze ds) = P ds) →
      P (c :: squeeze cs) = P (c :: cs)) (cs : List Char) : P (squeeze cs) = P cs := by
  induction hn : cs.length using Nat.strongRecOn generalizing cs with
  | ind n ih =>
      cases cs with
      | nil => rfl
      | cons c cs =>
          have hshorter : ∀ ds : List Char, ds.length ≤ cs.length → P (squeeze ds) = P ds :=
            fun ds hds => ih ds.length (by rw [← hn, List.length_cons]; omega) ds rfl
          cases hc : isBlank c with
          | true =>
              rw [squeeze_blank hc, hblank _ _ (by decide), eq_dropWhile_isBlank hblank,
                hshorter cs (Nat.le_refl _), hblank c cs hc]
          | false => rw [squeeze_cons hc, hstep c cs hc hshorter]

/-- So it is behind a backslash, which may stand in front of any blank. -/
theorem eq_squeeze_escaped {E : Char → List Char → Bool}
    (hescape : ∀ d ds, P ('\\' :: d :: ds) = (E d ds && P ds))
    (hsame : ∀ d ds, E d (squeeze ds) = E d ds)
    (hblanks : ∀ d ds, isBlank d = true → E d ds = true) {cs : List Char}
    (ih : ∀ ds : List Char, ds.length ≤ cs.length → P (squeeze ds) = P ds) :
    P ('\\' :: squeeze cs) = P ('\\' :: cs) := by
  cases cs with
  | nil => rfl
  | cons d ds =>
      have hmore : P (squeeze ds) = P ds := ih ds (by simp)
      cases hd : isBlank d with
      | true =>
          rw [squeeze_blank hd, hescape, hescape, hblanks _ _ (by decide), hblanks _ _ hd,
            eq_dropWhile_isBlank hblank, hmore]
      | false => rw [squeeze_cons hd, hescape, hescape, hsame, hmore]

end

/-- A squeezed text begins with any character but a blank as the text does. -/
theorem exists_of_squeeze_eq_cons {c : Char} {cs ds : List Char} (hc : isBlank c = false)
    (h : squeeze cs = c :: ds) : ∃ es, cs = c :: es ∧ squeeze es = ds := by
  cases cs with
  | nil => contradiction
  | cons e es =>
      cases he : isBlank e with
      | true =>
          rw [squeeze_blank he] at h
          obtain ⟨rfl, -⟩ := List.cons.inj h
          contradiction
      | false =>
          rw [squeeze_cons he] at h
          obtain ⟨rfl, rfl⟩ := List.cons.inj h
          exact ⟨es, rfl, rfl⟩

/-! ## Signs that open nothing -/

/-- Squeezing does not open or close a comment. -/
theorem isSome_blockCommentTail?_squeeze (cs : List Char) :
    (blockCommentTail? (squeeze cs)).isSome = (blockCommentTail? cs).isSome := by
  refine eq_squeeze (P := fun cs => (blockCommentTail? cs).isSome) (fun c cs hc => ?_)
    (fun c cs hc ih => ?_) cs
  · rw [blockCommentTail?_cons, Option.isSome_map]
    rintro ds ⟨⟩
    contradiction
  · by_cases hclose : ∃ ds, c :: cs = '*' :: '/' :: ds
    · obtain ⟨ds, hds⟩ := hclose
      obtain ⟨rfl, rfl⟩ := List.cons.inj hds
      rw [squeeze_cons (by decide)]
      rfl
    · have hclose' : ∀ ds, c :: squeeze cs ≠ '*' :: '/' :: ds := by
        intro ds hds
        obtain ⟨rfl, hsqueeze⟩ := List.cons.inj hds
        obtain ⟨es, rfl, -⟩ := exists_of_squeeze_eq_cons (by decide) hsqueeze
        exact hclose ⟨es, rfl⟩
      rw [blockCommentTail?_cons hclose', blockCommentTail?_cons fun ds hds => hclose ⟨ds, hds⟩,
        Option.isSome_map, Option.isSome_map, ih cs (Nat.le_refl _)]

/-- Squeezing does not open or close a text block. -/
theorem isSome_textBlockTail?_squeeze (cs : List Char) :
    (textBlockTail? (squeeze cs)).isSome = (textBlockTail? cs).isSome := by
  have hblank : ∀ c cs, isBlank c = true →
      (textBlockTail? (c :: cs)).isSome = (textBlockTail? cs).isSome := by
    intro c cs hc
    rw [textBlockTail?_cons, Option.isSome_map]
    · rintro ds ⟨⟩
      contradiction
    · rintro rfl
      contradiction
  refine eq_squeeze (P := fun cs => (textBlockTail? cs).isSome) hblank (fun c cs hc ih => ?_) cs
  by_cases hclose : ∃ ds, c :: cs = '"' :: '"' :: '"' :: ds
  · obtain ⟨ds, hds⟩ := hclose
    obtain ⟨rfl, rfl⟩ := List.cons.inj hds
    rw [squeeze_cons (by decide), squeeze_cons (by decide)]
    rfl
  by_cases hslash : c = '\\'
  · subst hslash
    refine eq_squeeze_escaped (P := fun cs => (textBlockTail? cs).isSome)
      (E := fun _ _ => true) hblank (fun d ds => ?_) (fun _ _ => rfl) (fun _ _ _ => rfl) ih
    rw [textBlockTail?_escape, Option.isSome_map, Bool.true_and]
  · have hclose' : ∀ ds, c :: squeeze cs ≠ '"' :: '"' :: '"' :: ds := by
      intro ds hds
      obtain ⟨rfl, hsqueeze⟩ := List.cons.inj hds
      obtain ⟨es, rfl, hmore⟩ := exists_of_squeeze_eq_cons (by decide) hsqueeze
      obtain ⟨fs, rfl, -⟩ := exists_of_squeeze_eq_cons (by decide) hmore
      exact hclose ⟨fs, rfl⟩
    rw [textBlockTail?_cons hclose' hslash, textBlockTail?_cons (fun ds hds => hclose ⟨ds, hds⟩) hslash,
      Option.isSome_map, Option.isSome_map, ih cs (Nat.le_refl _)]

section

variable {p : Char → Bool} (hp : ∀ c, isBlank c = true → p c = false)

include hp

theorem takeWhile_squeeze (cs : List Char) : (squeeze cs).takeWhile p = cs.takeWhile p := by
  induction cs with
  | nil => rfl
  | cons c cs ih =>
      cases hc : isBlank c with
      | true => simp [squeeze_blank hc, hp c hc, hp ' ' (by decide)]
      | false => rw [squeeze_cons hc, List.takeWhile_cons, List.takeWhile_cons, ih]

theorem dropWhile_squeeze (cs : List Char) :
    (squeeze cs).dropWhile p = squeeze (cs.dropWhile p) := by
  induction cs with
  | nil => rfl
  | cons c cs ih =>
      cases hc : isBlank c with
      | true => simp [squeeze_blank hc, hp c hc, hp ' ' (by decide)]
      | false =>
          rw [squeeze_cons hc, List.dropWhile_cons, List.dropWhile_cons, ih]
          split
          · rfl
          · rw [squeeze_cons hc]

end

/-- Squeezing does not change what may be escaped. -/
theorem isEscape_squeeze (c : Char) (cs : List Char) :
    isEscape c (squeeze cs) = isEscape c cs := by
  have hblanks : ∀ c, isBlank c = true → isHexadecimal c = false := fun c =>
    eq_false_of_isBlank (by decide)
  have hbrace : ∀ ds, ((squeeze ds).head? == some '\x7d') = (ds.head? == some '\x7d') := by
    intro ds
    cases ds with
    | nil => rfl
    | cons d ds =>
        cases hd : isBlank d with
        | true =>
            have hne : (some d == some '\x7d') = false := by
              rw [beq_eq_false_iff_ne, ne_eq, Option.some.injEq]
              rintro rfl
              exact absurd hd (by decide)
            rw [squeeze_blank hd, List.head?_cons, List.head?_cons, hne]
            rfl
        | false => rw [squeeze_cons hd]; rfl
  unfold isEscape
  rw [takeWhile_squeeze hblanks]
  split
  · rfl
  split
  · split
    · next digits hdigits =>
      obtain ⟨es, rfl, rfl⟩ := exists_of_squeeze_eq_cons (by decide) hdigits
      simp only [takeWhile_squeeze hblanks, dropWhile_squeeze hblanks, hbrace]
    · next hplain =>
      split
      · next ds => exact absurd (squeeze_cons (by decide) ds) (hplain _)
      · rw [takeWhile_squeeze hblanks]
  · rfl

/-- Any blank may be escaped. -/
theorem isEscape_of_isBlank {c : Char} (h : isBlank c = true) (cs : List Char) :
    isEscape c cs = true := by
  have hx : c ≠ 'x' := by
    rintro rfl
    contradiction
  have hu : c ≠ 'u' := by
    rintro rfl
    contradiction
  simp [isEscape, hx, hu]

/-- Squeezing does not open or close a string. -/
theorem isSome_stringTail?_squeeze (cs : List Char) :
    (stringTail? (squeeze cs)).isSome = (stringTail? cs).isSome := by
  have hblank : ∀ c cs, isBlank c = true → (stringTail? (c :: cs)).isSome = (stringTail? cs).isSome := by
    intro c cs hc
    rw [stringTail?_cons, Option.isSome_map]
    · rintro rfl
      contradiction
    · rintro rfl
      contradiction
  refine eq_squeeze (P := fun cs => (stringTail? cs).isSome) hblank (fun c cs hc ih => ?_) cs
  by_cases hquote : c = '"'
  · rw [hquote]
    rfl
  by_cases hslash : c = '\\'
  · subst hslash
    refine eq_squeeze_escaped (P := fun cs => (stringTail? cs).isSome) (E := isEscape) hblank
      (fun d ds => ?_) isEscape_squeeze (fun _ _ hd => isEscape_of_isBlank hd _) ih
    rw [stringTail?_escape]
    split <;> simp_all
  · rw [stringTail?_cons _ hquote hslash, stringTail?_cons _ hquote hslash, Option.isSome_map,
      Option.isSome_map, ih cs (Nat.le_refl _)]

theorem orStray_eq_stray {kind : LexemeKind} {further : Option Nat} (hkind : kind ≠ .stray) :
    orStray kind further = (.stray, 0) ↔ further.isSome = false := by
  cases further <;> simp [orStray, hkind]

/-- A slash is a lexeme out of place only if it opens a comment that is not closed. -/
theorem lexemeAt_slash_eq_stray {cs : List Char} : lexemeAt '/' cs = (.stray, 0)
    ↔ ∃ ds, cs = '*' :: ds ∧ (blockCommentTail? ds).isSome = false := by
  by_cases hstar : ∃ ds, cs = '*' :: ds
  · obtain ⟨ds, rfl⟩ := hstar
    rw [lexemeAt_blockComment, orStray_eq_stray (by decide), Option.isSome_map]
    simp
  · have hnot : lexemeAt '/' cs ≠ (.stray, 0) := by
      by_cases hline : ∃ ds, cs = '/' :: ds
      · obtain ⟨ds, rfl⟩ := hline
        rw [lexemeAt_lineComment]
        simp
      · have hplain : Stops (fun c => c == '/' || c == '*') cs := by
          cases cs <;> simp_all
        have hsymbol : (symbolLength? ('/' :: cs)).isSome = true := by
          rw [symbolLength?, Option.isSome_map, List.find?_isSome]
          exact ⟨"/", by decide, by simp [List.isPrefixOf]⟩
        rw [lexemeAt_slash _ hplain, ne_eq, orStray_eq_stray (by decide), Option.isSome_map, hsymbol]
        simp
    constructor
    · exact fun h => absurd h hnot
    · rintro ⟨ds, hds, -⟩
      exact absurd ⟨ds, hds⟩ hstar

/-- A quote is a lexeme out of place only if it opens a string or a text block that is not
closed. -/
theorem lexemeAt_quote_eq_stray {cs : List Char} : lexemeAt '"' cs = (.stray, 0)
    ↔ (∃ ds, cs = '"' :: '"' :: ds ∧ (textBlockTail? ds).isSome = false)
      ∨ (∀ ds, cs ≠ '"' :: '"' :: ds) ∧ (stringTail? cs).isSome = false := by
  by_cases hblock : ∃ ds, cs = '"' :: '"' :: ds
  · obtain ⟨ds, rfl⟩ := hblock
    rw [lexemeAt_textBlock, orStray_eq_stray (by decide), Option.isSome_map]
    simp
  · have hplain : ∀ ds, cs ≠ '"' :: '"' :: ds := fun ds hds => hblock ⟨ds, hds⟩
    rw [lexemeAt_string _ hplain, orStray_eq_stray (by decide)]
    simp [hplain]

/-- Whether two quotes follow. -/
theorem squeeze_quotes {cs es : List Char} (h : squeeze cs = squeeze es) {ds : List Char}
    (hds : cs = '"' :: '"' :: ds) : ∃ fs, es = '"' :: '"' :: fs ∧ squeeze ds = squeeze fs := by
  rw [hds, squeeze_cons (by decide), squeeze_cons (by decide)] at h
  obtain ⟨gs, rfl, hgs⟩ := exists_of_squeeze_eq_cons (by decide) h.symm
  obtain ⟨fs, rfl, hfs⟩ := exists_of_squeeze_eq_cons (by decide) hgs
  exact ⟨fs, rfl, hfs.symm⟩

/-- A sign that opens no comment and no string opens none in front of another text that is the
same when it is squeezed. -/
theorem Lexeme.StartsAt.of_squeeze {l : Lexeme} {rest rest' : List Char} (h : l.StartsAt rest)
    (hrest : squeeze rest = squeeze rest') (hkind : l.kind = .stray)
    (htext : l.text = "/" ∨ l.text = "\"") : l.StartsAt rest' := by
  obtain ⟨kind, text⟩ := l
  obtain ⟨c, cs, hchars, hcut⟩ := h
  simp only at hkind htext hchars hcut
  subst hkind
  rcases htext with rfl | rfl
  · obtain ⟨rfl, rfl⟩ : '/' = c ∧ [] = cs := List.cons.inj hchars
    obtain ⟨ds, hds, hopen⟩ := lexemeAt_slash_eq_stray.mp hcut
    rw [List.nil_append] at hds
    subst hds
    rw [squeeze_cons (by decide)] at hrest
    obtain ⟨es, rfl, hes⟩ := exists_of_squeeze_eq_cons (by decide) hrest.symm
    refine ⟨'/', [], rfl, lexemeAt_slash_eq_stray.mpr ⟨es, rfl, ?_⟩⟩
    rw [← isSome_blockCommentTail?_squeeze, hes, isSome_blockCommentTail?_squeeze, hopen]
  · obtain ⟨rfl, rfl⟩ : '"' = c ∧ [] = cs := List.cons.inj hchars
    refine ⟨'"', [], rfl, lexemeAt_quote_eq_stray.mpr ?_⟩
    rw [List.nil_append] at hcut ⊢
    rcases lexemeAt_quote_eq_stray.mp hcut with ⟨ds, hds, hopen⟩ | ⟨hplain, hopen⟩
    · obtain ⟨es, hes, hsqueeze⟩ := squeeze_quotes hrest hds
      refine .inl ⟨es, hes, ?_⟩
      rw [← isSome_textBlockTail?_squeeze, ← hsqueeze, isSome_textBlockTail?_squeeze, hopen]
    · refine .inr ⟨fun es hes => ?_, ?_⟩
      · obtain ⟨ds, hds, -⟩ := squeeze_quotes hrest.symm hes
        exact hplain ds hds
      · rw [← isSome_stringTail?_squeeze, ← hrest, isSome_stringTail?_squeeze, hopen]

/-! ## Other runs of blanks -/

/-- A run of blanks that is not empty. -/
structure Lexeme.IsRun (l : Lexeme) : Prop where
  kind : l.kind = .blank
  ne_nil : l.text.toList ≠ []
  blanks : ∀ c ∈ l.text.toList, isBlank c = true

/-- The same lexemes, but for other runs of blanks in place of some. The runs stand outside of
literals in both texts: an apostrophe that opens no character in one of them must open none
in the other. -/
inductive Relaid : List Lexeme → List Lexeme → Prop
  | nil : Relaid [] []
  | run {l m : Lexeme} {ls ms : List Lexeme} (hl : l.IsRun) (hm : m.IsRun) (h : Relaid ls ms) :
      Relaid (l :: ls) (m :: ms)
  | keep {l : Lexeme} {ls ms : List Lexeme}
      (hopen : l = ⟨.stray, "\x27"⟩ → l.StartsAt (charsOf ms)) (h : Relaid ls ms) :
      Relaid (l :: ls) (l :: ms)

variable {ls ms : List Lexeme}

theorem Relaid.squeeze_eq (h : Relaid ls ms) : squeeze (charsOf ls) = squeeze (charsOf ms) := by
  induction h with
  | nil => rfl
  | run hl hm _ ih =>
      rw [charsOf_cons, charsOf_cons, squeeze_run hl.ne_nil hl.blanks,
        squeeze_run hm.ne_nil hm.blanks, ih]
  | keep _ _ ih => rw [charsOf_cons, charsOf_cons, squeeze_append_congr ih]

theorem Relaid.untilBlank_eq (h : Relaid ls ms) :
    untilBlank (charsOf ls) = untilBlank (charsOf ms) := by
  rw [← untilBlank_squeeze, h.squeeze_eq, untilBlank_squeeze]

theorem isBlank_of_lexemeAt {c : Char} {cs : List Char} {n : Nat}
    (h : lexemeAt c cs = (.blank, n)) : isBlank c = true := by
  have hnot : ∀ {kind further}, kind ≠ .blank → orStray kind further ≠ (.blank, n) := by
    intro kind further hkind horStray
    rcases orStray_eq horStray with ⟨-, hblank⟩ | ⟨-, hblank, -⟩
    · exact hkind hblank.symm
    · contradiction
  unfold lexemeAt at h
  split at h
  · assumption
  split at h
  · simp at h
  split at h
  · simp at h
  split at h
  · simp at h
  · exact absurd h (hnot (by decide))
  · exact absurd h (hnot (by decide))
  · exact absurd h (hnot (by decide))
  · simp at h
  · exact absurd h (hnot (by decide))
  · exact absurd h (hnot (by decide))

/-- A blank that is cut off is a run, and no other blank follows it. -/
theorem Lexeme.StartsAt.isRun {l : Lexeme} {rest : List Char} (h : l.StartsAt rest)
    (hkind : l.kind = .blank) : l.IsRun ∧ Stops isBlank rest := by
  obtain ⟨c, cs, htext, hcut⟩ := h
  rw [hkind] at hcut
  have hc := isBlank_of_lexemeAt hcut
  unfold lexemeAt at hcut
  rw [if_pos hc] at hcut
  obtain ⟨hcs, hstops⟩ := length_takeWhile_append.mp (Prod.mk.inj hcut).2
  exact ⟨⟨hkind, by simp [htext], by simpa [htext, hc] using hcs⟩, hstops⟩

/-- A run ends where no blank follows. -/
theorem Lexeme.IsRun.startsAt {l : Lexeme} {rest : List Char} (h : l.IsRun)
    (hrest : Stops Source.isBlank rest) : l.StartsAt rest := by
  cases htext : l.text.toList with
  | nil => exact absurd htext h.ne_nil
  | cons c cs =>
      have hblanks := h.blanks
      rw [htext, List.forall_mem_cons] at hblanks
      refine ⟨c, cs, htext, ?_⟩
      unfold lexemeAt
      rw [if_pos hblanks.1, length_takeWhile_append.mpr ⟨hblanks.2, hrest⟩, h.kind]

theorem Relaid.stops (h : Relaid ls ms) (hstops : Stops isBlank (charsOf ls)) :
    Stops isBlank (charsOf ms) := by
  have hsqueeze := h.squeeze_eq
  cases hms : charsOf ms with
  | nil => exact stops_nil _
  | cons d ds =>
      cases hd : isBlank d with
      | false => simp [hd]
      | true =>
          -- Then the text in front of the change begins with a blank too.
          rw [hms, squeeze_blank hd] at hsqueeze
          cases hls : charsOf ls with
          | nil => simp [hls, squeeze] at hsqueeze
          | cons c cs =>
              rw [hls, stops_cons] at hstops
              rw [hls, squeeze_cons hstops] at hsqueeze
              rw [(List.cons.inj hsqueeze).1] at hstops
              contradiction

/-- **With other runs of blanks the lexemes are cut off again.** -/
theorem Relaid.separated (h : Relaid ls ms) (hls : Separated ls [])
    (hcomments : ∀ l ∈ ls, l.kind ≠ .comment) : Separated ms [] := by
  induction h with
  | nil => trivial
  | @run l m ls ms hl hm h ih =>
      rw [List.forall_mem_cons] at hcomments
      rw [separated_cons, List.append_nil] at hls ⊢
      exact ⟨hm.startsAt (h.stops (hls.1.isRun hl.kind).2), ih hls.2 hcomments.2⟩
  | @keep l ls ms hopen h ih =>
      rw [List.forall_mem_cons] at hcomments
      rw [separated_cons, List.append_nil] at hls ⊢
      refine ⟨?_, ih hls.2 hcomments.2⟩
      by_cases hblank : l.kind = .blank
      · obtain ⟨hrun, hstops⟩ := hls.1.isRun hblank
        exact hrun.startsAt (h.stops hstops)
      · by_cases hsign : l.kind = .stray ∧ l.text ∈ ["/", "\"", "\x27"]
        · obtain ⟨hstray, htext⟩ := hsign
          simp only [List.mem_cons, List.not_mem_nil, or_false, ← or_assoc] at htext
          rcases htext with htext | htext
          · exact hls.1.of_squeeze h.squeeze_eq hstray htext
          · exact hopen (by rw [← hstray, ← htext])
        · exact hls.1.of_untilBlank h.untilBlank_eq hblank (fun hc => absurd hc hcomments.1)
            fun hstray htext => hsign ⟨hstray, htext⟩

/-- The lexemes of a source file in which runs of blanks are replaced. -/
theorem Relaid.lexemesOfSource_eq {source source' : String}
    (h : Relaid (lexemesOfSource source) ms) (htext : source'.toList = charsOf ms)
    (hcomments : ∀ l ∈ lexemesOfSource source, l.kind ≠ .comment) :
    lexemesOfSource source' = ms := by
  have hcut : ∀ {ls ms : List Lexeme}, Relaid ls ms → Separated ls [] →
      (∀ l ∈ ls, l.kind ≠ .comment) → lexemes (charsOf ms) = ms := by
    intro ls ms h hls hcomments
    simpa [lexemes] using lexemes_charsOf (h.separated hls hcomments)
  generalize hls : lexemesOfSource source = ls at h hcomments
  unfold lexemesOfSource at hls
  split at hls
  · next cs _ =>
    subst hls
    rw [List.forall_mem_cons] at hcomments
    cases h with
    | run hl =>
        have hmark := hl.blanks '\ufeff' (by decide)
        contradiction
    | @keep _ _ ms _ h =>
        rw [lexemesOfSource, htext]
        exact congrArg _ (hcut h (separated_lexemes cs) hcomments.2)
  · next hmark =>
    subst hls
    rw [lexemesOfSource, htext]
    split
    · next cs hcs =>
      -- The other text would begin with a byte order mark too.
      have hsqueeze := h.squeeze_eq
      rw [hcs, squeeze_cons (by decide), charsOf, List.flatMap_def, flatten_lexemes] at hsqueeze
      obtain ⟨ds, hds, -⟩ := exists_of_squeeze_eq_cons (by decide) hsqueeze
      exact absurd hds (hmark ds)
    · exact hcut h (separated_lexemes _) hcomments

/-! ## Tokens -/

/-- A run of blanks becomes one space. -/
def Lexeme.tidy (l : Lexeme) : Lexeme :=
  if l.kind = .blank ∧ l.text.toList.all isBlank = true then ⟨.blank, " "⟩ else l

theorem Lexeme.IsRun.tidy_eq {l : Lexeme} (h : l.IsRun) : l.tidy = ⟨.blank, " "⟩ :=
  if_pos ⟨h.kind, List.all_eq_true.mpr h.blanks⟩

/-- A token with one space for each run of blanks in front of it. -/
def Token.tidy (t : Token) : Token := { t with lead := t.lead.map Lexeme.tidy }

theorem Relaid.map_tidy_collect (h : Relaid ls ms) {lead lead' : List Lexeme}
    (hlead : lead.map Lexeme.tidy = lead'.map Lexeme.tidy) :
    (Token.collect lead ls).map Token.tidy = (Token.collect lead' ms).map Token.tidy := by
  induction h generalizing lead lead' with
  | nil => simp [Token.collect, Token.tidy, Token.finish, hlead]
  | run hl hm _ ih =>
      have htrivia : ∀ {l : Lexeme}, l.IsRun → l.isTrivia = true := by
        intro l hl
        simp [Lexeme.isTrivia, hl.kind]
      rw [Token.collect, Token.collect, if_pos (htrivia hl), if_pos (htrivia hm)]
      exact ih (by simp [hlead, hl.tidy_eq, hm.tidy_eq])
  | keep _ _ ih =>
      rw [Token.collect, Token.collect]
      split
      · exact ih (by simp [hlead])
      · rw [List.map_cons, List.map_cons, ih rfl]
        simp [Token.tidy, hlead]

/-- **With other runs of blanks the tokens are the same**, but for the runs in front of them. -/
theorem Relaid.map_tidy_ofSource {source source' : String}
    (h : Relaid (lexemesOfSource source) ms) (htext : source'.toList = charsOf ms)
    (hcomments : ∀ l ∈ lexemesOfSource source, l.kind ≠ .comment) :
    (Token.ofSource source).map Token.tidy = (Token.ofSource source').map Token.tidy := by
  rw [Token.ofSource, Token.ofSource, h.lexemesOfSource_eq htext hcomments]
  exact h.map_tidy_collect rfl

end JavaOutline.Source
