import JavaOutline.Proofs.FileTokens

/-!
# JavaOutline.Proofs.JoinedTexts

The tokens of two texts with a line break between them.

If nothing is left open in the first text, the line break ends its last lexeme, or is one
run of blanks with it. So the tokens of both texts are the tokens of the first without its
end and those of the second, but for what stands in front of the first of these
(`exists_ofSource_append`).
-/

namespace JavaOutline.Source

/-! ## Lexemes -/

theorem untilBlank_append_line (cs ds : List Char) :
    untilBlank (cs ++ '\n' :: ds) = untilBlank cs := by
  induction cs with
  | nil => exact List.takeWhile_cons_of_neg (by decide)
  | cons c cs ih =>
      rw [List.cons_append, untilBlank_cons, untilBlank_cons, ih]

/-- A lexeme that the end of the text may cut off is cut off by a line break. -/
theorem Lexeme.StartsAt.append_line {l : Lexeme} {rest : List Char} (h : l.StartsAt rest)
    (hblank : l.kind = .blank → rest ≠ [])
    (hstray : l.kind = .stray → l.text ∉ ["/", "\"", "\x27"]) (ds : List Char) :
    l.StartsAt (rest ++ '\n' :: ds) := by
  by_cases hkind : l.kind = .blank
  · obtain ⟨hrun, hstops⟩ := h.isRun hkind
    refine hrun.startsAt ?_
    cases rest with
    | nil => exact absurd rfl (hblank hkind)
    | cons c rest => exact hstops
  · refine h.of_untilBlank (untilBlank_append_line rest ds).symm hkind (fun _ hline => ?_) hstray
    cases rest with
    | nil => simp
    | cons c rest => exact hline

/-- The same for many lexemes, the last of which is no blank if nothing follows it. -/
theorem Separated.append_line {ls : List Lexeme} {rest : List Char} (h : Separated ls rest)
    (hblank : ∀ l ∈ ls.getLast?, l.kind = .blank → rest ≠ [])
    (hstray : ∀ l ∈ ls, l.kind = .stray → l.text ∉ ["/", "\"", "\x27"]) (ds : List Char) :
    Separated ls (rest ++ '\n' :: ds) := by
  induction ls with
  | nil => trivial
  | cons l ls ih =>
      rw [List.forall_mem_cons] at hstray
      rw [separated_cons] at h ⊢
      refine ⟨?_, ih h.2 (fun m hm => ?_) hstray.2⟩
      · rw [← List.append_assoc]
        refine h.1.append_line (fun hkind hnil => ?_) hstray.1 ds
        rw [List.append_eq_nil_iff] at hnil
        cases ls with
        | nil => exact hblank l rfl hkind hnil.2
        | cons m ls =>
            obtain ⟨c, cs, htext, -⟩ := h.2.1
            simp [htext] at hnil
      · cases ls with
        | nil => contradiction
        | cons m' ls => exact hblank m (by simpa using hm)

theorem stops_dropWhile (p : Char → Bool) (cs : List Char) : Stops p (cs.dropWhile p) := by
  intro c hc
  have hhead := List.head?_dropWhile_not p cs
  rw [hc] at hhead
  exact hhead

/-- A run of blanks is one lexeme. -/
theorem exists_lexemes_run {cs rest : List Char} (hne : cs ≠ [])
    (hcs : ∀ c ∈ cs, isBlank c = true) (hrest : Stops isBlank rest) :
    ∃ l : Lexeme, l.isTrivia = true ∧ lexemes (cs ++ rest) = l :: lexemes rest := by
  have hrun : Lexeme.IsRun ⟨.blank, String.ofList cs⟩ :=
    ⟨rfl, by simpa using hne, by simpa using hcs⟩
  exact ⟨_, rfl, by simpa using lexemes_of_startsAt (hrun.startsAt hrest)⟩

/-- The blanks at the beginning of a text are one lexeme, if there are any. -/
theorem exists_lexemes_eq (ds : List Char) : ∃ trivia : List Lexeme,
    (∀ l ∈ trivia, l.isTrivia = true)
      ∧ lexemes ds = trivia ++ lexemes (ds.dropWhile isBlank) := by
  have hds := List.takeWhile_append_dropWhile (p := isBlank) (l := ds)
  by_cases hnil : ds.takeWhile isBlank = []
  · rw [hnil, List.nil_append] at hds
    exact ⟨[], by simp, by rw [hds, List.nil_append]⟩
  · obtain ⟨l, hl, hlexemes⟩ := exists_lexemes_run hnil
      (fun c hc => List.mem_takeWhile_imp hc) (stops_dropWhile isBlank ds)
    rw [hds] at hlexemes
    exact ⟨[l], by simpa using hl, hlexemes⟩

/-- Further blanks in front of a text are one lexeme with those. -/
theorem exists_lexemes_run_append {cs : List Char} (hne : cs ≠ [])
    (hcs : ∀ c ∈ cs, isBlank c = true) (ds : List Char) :
    ∃ l : Lexeme, l.isTrivia = true
      ∧ lexemes (cs ++ ds) = l :: lexemes (ds.dropWhile isBlank) := by
  have hblanks : ∀ c ∈ cs ++ ds.takeWhile isBlank, isBlank c = true :=
    List.forall_mem_append.mpr ⟨hcs, fun c hc => List.mem_takeWhile_imp hc⟩
  have hrun := exists_lexemes_run (by simp [hne]) hblanks (stops_dropWhile isBlank ds)
  rwa [List.append_assoc, List.takeWhile_append_dropWhile] at hrun

/-- The blanks at the end of a text and the line break behind it are one lexeme. -/
theorem exists_lexemes_charsOf_line {front : List Lexeme} (run : List Char) {ds : List Char}
    (hfront : Separated front (run ++ '\n' :: ds)) (hrun : ∀ c ∈ run, isBlank c = true) :
    ∃ m : Lexeme, m.isTrivia = true ∧ lexemes (charsOf front ++ (run ++ '\n' :: ds))
      = front ++ [m] ++ lexemes (ds.dropWhile isBlank) := by
  obtain ⟨m, hm, hline⟩ := exists_lexemes_run_append
    (List.append_ne_nil_of_right_ne_nil run (List.cons_ne_nil '\n' []))
    (List.forall_mem_append.mpr ⟨hrun, List.forall_mem_singleton.mpr rfl⟩) ds
  rw [List.append_assoc, List.singleton_append] at hline
  refine ⟨m, hm, ?_⟩
  rw [lexemes_charsOf hfront, hline, List.append_assoc, List.singleton_append]

/-- **The lexemes of two texts with a line break between them**: only the blanks around it are
run together. -/
theorem exists_lexemes_append_line {cs : List Char}
    (hstray : ∀ l ∈ lexemes cs, l.kind = .stray → l.text ∉ ["/", "\"", "\x27"])
    (ds : List Char) : ∃ front ends line begins back : List Lexeme,
      (∀ l ∈ ends ++ line ++ begins, l.isTrivia = true) ∧ lexemes cs = front ++ ends
        ∧ lexemes ds = begins ++ back ∧ lexemes (cs ++ '\n' :: ds) = front ++ line ++ back := by
  obtain ⟨begins, hbegins, hds⟩ := exists_lexemes_eq ds
  have hchars : charsOf (lexemes cs) = cs := by rw [charsOf, List.flatMap_def, flatten_lexemes]
  have hsep := separated_lexemes cs
  generalize lexemes cs = ls at hstray hchars hsep
  subst hchars
  by_cases hlast : ∃ front l, ls = front ++ [l] ∧ l.kind = .blank
  · obtain ⟨front, l, rfl, hkind⟩ := hlast
    obtain ⟨hfront, hl, -⟩ := separated_append.mp hsep
    have hrun := (hl.isRun hkind).1
    rw [List.forall_mem_append] at hstray
    have hcut := hfront.append_line (fun _ _ _ => by simp [hrun.ne_nil]) hstray.1 ds
    obtain ⟨m, hm, hline⟩ := exists_lexemes_charsOf_line l.text.toList
      (by simpa using hcut) hrun.blanks
    refine ⟨front, [l], [m], begins, _, ?_, rfl, hds, ?_⟩
    · simp only [List.cons_append, List.nil_append, List.forall_mem_cons]
      exact ⟨by simp [Lexeme.isTrivia, hkind], hm, hbegins⟩
    · rw [← hline]
      simp only [charsOf_append, charsOf_cons, charsOf_nil, List.append_nil, List.append_assoc]
  · have hcut := hsep.append_line (fun l hl hkind => ?_) hstray ds
    · obtain ⟨m, hm, hline⟩ := exists_lexemes_charsOf_line [] hcut
        (List.forall_mem_nil _)
      refine ⟨ls, [], [m], begins, _, ?_, (List.append_nil ls).symm, hds, hline⟩
      simp only [List.cons_append, List.nil_append, List.forall_mem_cons]
      exact ⟨hm, hbegins⟩
    · obtain ⟨front, hfront⟩ := List.getLast?_eq_some_iff.mp hl
      exact absurd ⟨front, l, hfront, hkind⟩ hlast

/-! ## Tokens -/

/-- **The tokens of two texts with a line break between them**: those of the first without its
end and those of the second, up to what stands in front of the first of them. -/
theorem exists_ofSource_append {s₁ s₂ : String}
    (hstray : ∀ l ∈ lexemesOfSource s₁, l.kind = .stray → l.text ∉ ["/", "\"", "\x27"])
    (hmark : s₂.toList.head? ≠ some '\ufeff') :
    ∃ ts us kind text lead lead₁ lead₂, Token.ofSource s₁ = ts ++ [Token.finish lead]
      ∧ Token.ofSource s₂ = ⟨lead₂, kind, text⟩ :: us
      ∧ Token.ofSource (s₁ ++ "\n" ++ s₂) = ts ++ ⟨lead₁, kind, text⟩ :: us := by
  obtain ⟨mark, cs, hlexemes, hchars, hmark₁⟩ := exists_lexemesOfSource s₁
  obtain ⟨front, ends, line, begins, back, htrivia, hcs, hds, hjoined⟩ :=
    exists_lexemes_append_line
      (fun l (hl : l ∈ lexemes cs) => hstray l (by rw [hlexemes]; exact List.mem_append_right _ hl))
      s₂.toList
  rw [List.forall_mem_append, List.forall_mem_append] at htrivia
  obtain ⟨⟨hends, hline⟩, hbegins⟩ := htrivia
  have hlexemes₂ : lexemesOfSource s₂ = begins ++ back := by
    rw [← hds, lexemesOfSource]
    split
    · next hcs => simp [hcs] at hmark
    · rfl
  have hlexemes' : lexemesOfSource (s₁ ++ "\n" ++ s₂) = mark ++ front ++ line ++ back := by
    have hjoinedChars : (s₁ ++ "\n" ++ s₂).toList = charsOf mark ++ (cs ++ '\n' :: s₂.toList) := by
      simp [String.toList_append, hchars]
    rw [List.append_assoc, List.append_assoc, ← List.append_assoc front, ← hjoined, lexemesOfSource,
      hjoinedChars]
    rcases hmark₁ with ⟨rfl, hhead⟩ | rfl
    · split
      · next es hes =>
        rw [hchars] at hhead
        cases cs with
        | nil => exact absurd (List.cons.inj hes).1 (by decide)
        | cons c cs => exact absurd (congrArg some (List.cons.inj hes).1) hhead
      · rfl
    · rfl
  obtain ⟨ts, lead, hts⟩ := Token.exists_collect_append [] (mark ++ front)
  obtain ⟨trivia, kind, text, us, hback⟩ := Token.exists_collect_eq_cons back
  refine ⟨ts, us, kind, text, lead ++ ends, lead ++ line ++ trivia, begins ++ trivia, ?_, ?_, ?_⟩
  · have hend := Token.collect_trivia hends lead []
    rw [List.append_nil] at hend
    rw [Token.ofSource, hlexemes, hcs, ← List.append_assoc, hts, hend]
    rfl
  · rw [Token.ofSource, hlexemes₂, Token.collect_trivia hbegins, hback, List.nil_append]
  · rw [Token.ofSource, hlexemes', List.append_assoc, hts, Token.collect_trivia hline, hback]

end JavaOutline.Source
