import JavaOutline.Proofs.AdjacentTokens
import JavaOutline.Proofs.BlankRuns
import JavaOutline.Proofs.ItemBoundaries

/-!
# JavaOutline.Proofs.FileTokens

The tokens of files that are read.

Reading a file takes all its tokens, up to its end (`exists_of_unitTrees?`), and so each of
them is one that the grammar accepts. In particular no comment, string or character is left
open in the file (`not_isOpening`).
-/

namespace JavaOutline

open Grammar Source Structure Pattern

/-! ## Collecting -/

namespace Source.Token

/-- A token is the end of the file, or a lexeme and no blank or comment. -/
theorem mem_collect {lead ls : List Lexeme} {t : Token} (h : t ∈ collect lead ls) :
    t.kind = .blank ∧ t.text = ""
      ∨ ⟨t.kind, t.text⟩ ∈ ls ∧ Lexeme.isTrivia ⟨t.kind, t.text⟩ = false := by
  induction ls generalizing lead with
  | nil =>
      rw [collect, List.mem_singleton] at h
      exact .inl ⟨by rw [h]; rfl, by rw [h]; rfl⟩
  | cons l ls ih =>
      have hmore : ∀ {lead}, t ∈ collect lead ls → _ := fun h =>
        (ih h).imp_right (And.imp_left (List.mem_cons_of_mem l))
      rw [collect] at h
      split at h
      · exact hmore h
      · next hl =>
        rcases List.mem_cons.mp h with rfl | h
        · exact .inr ⟨List.mem_cons_self .., by simpa using hl⟩
        · exact hmore h

/-- Only the last token is the end of the file. -/
theorem eq_nil_of_collect {lead ls : List Lexeme} (hls : ∀ l ∈ ls, l.text ≠ "")
    {ts us : List Token} {t : Token} (h : collect lead ls = ts ++ t :: us) (ht : t.text = "") :
    us = [] := by
  induction ls generalizing lead ts with
  | nil =>
      have hlen := congrArg List.length h
      simp [collect] at hlen
      exact List.length_eq_zero_iff.mp (by omega)
  | cons l ls ih =>
      rw [List.forall_mem_cons] at hls
      rw [collect] at h
      split at h
      · exact ih hls.2 h
      · cases ts with
        | nil =>
            obtain ⟨rfl, -⟩ := List.cons.inj h
            exact absurd ht hls.1
        | cons t' ts => exact ih hls.2 (List.cons.inj h).2

/-- Lexemes become tokens, up to some that are in front of the next one. -/
theorem exists_collect_append (lead ls : List Lexeme) : ∃ ts lead', ∀ ms,
    collect lead (ls ++ ms) = ts ++ collect lead' ms := by
  induction ls generalizing lead with
  | nil => exact ⟨[], lead, fun _ => rfl⟩
  | cons l ls ih =>
      by_cases hl : l.isTrivia = true
      · obtain ⟨ts, lead', h⟩ := ih (lead ++ [l])
        exact ⟨ts, lead', fun ms => by rw [List.cons_append, collect, if_pos hl, h]⟩
      · obtain ⟨ts, lead', h⟩ := ih []
        exact ⟨_ :: ts, lead', fun ms => by
          rw [List.cons_append, collect, if_neg hl, h, List.cons_append]⟩

/-- What stands in front of some lexemes stands in front of the first token. -/
theorem exists_collect_eq_cons (ls : List Lexeme) : ∃ trivia kind text ts, ∀ lead,
    collect lead ls = ⟨lead ++ trivia, kind, text⟩ :: ts := by
  induction ls with
  | nil => exact ⟨[], .blank, "", [], fun lead => by rw [List.append_nil]; rfl⟩
  | cons l ls ih =>
      by_cases hl : l.isTrivia = true
      · obtain ⟨trivia, kind, text, ts, h⟩ := ih
        exact ⟨l :: trivia, kind, text, ts, fun lead => by
          rw [collect, if_pos hl, h, List.append_assoc, List.singleton_append]⟩
      · exact ⟨[], l.kind, l.text, collect [] ls, fun lead => by
          rw [collect, if_neg hl, List.append_nil]⟩

end Source.Token

/-! ## Lexemes -/

namespace Source

theorem Lexeme.StartsAt.text_ne {l : Lexeme} {rest : List Char} (h : l.StartsAt rest) :
    l.text ≠ "" := by
  obtain ⟨c, cs, htext, -⟩ := h
  intro hnil
  simp [hnil] at htext

/-- Does the text begin like a symbol, and not like a number? -/
def isSymbolic (s : String) : Bool := s.toList.head?.any fun c => isSymbolStart c && c != '.'

/-- What begins like a symbol is no word and no literal. -/
theorem Lexeme.StartsAt.kind_of_isSymbolic {l : Lexeme} {rest : List Char} (h : l.StartsAt rest)
    (hl : isSymbolic l.text = true) : l.kind = .symbol ∨ l.kind = .stray := by
  obtain ⟨c, cs, htext, hcut⟩ := h
  simp only [isSymbolic, htext, List.head?_cons, Option.any_some, Bool.and_eq_true,
    bne_iff_ne] at hl
  rw [lexemeAt_symbol hl.1 fun hdot => absurd hdot hl.2] at hcut
  rcases orStray_eq hcut with ⟨-, hkind⟩ | ⟨-, hkind, -⟩
  · exact .inl hkind
  · exact .inr hkind

/-- A word begins like a name. -/
theorem isNameStart_of_word {c : Char} {cs : List Char} {n : Nat}
    (h : lexemeAt c cs = (.word, n)) : isNameStart c = true := by
  have hstray {kind : LexemeKind} {further : Option Nat} (hkind : kind ≠ .word)
      (h : orStray kind further = (.word, n)) : isNameStart c = true := by
    rcases orStray_eq h with ⟨-, hword⟩ | ⟨-, hword, -⟩
    · exact absurd hword.symm hkind
    · contradiction
  unfold lexemeAt at h
  split at h
  · simp at h
  · split at h
    · next hname => exact hname
    · split at h
      · simp at h
      · split at h
        · simp at h
        · exact hstray (by decide) h
        · exact hstray (by decide) h
        · exact hstray (by decide) h
        · simp at h
        · exact hstray (by decide) h
        · exact hstray (by decide) h

/-- What begins with an asterisk. -/
theorem Lexeme.StartsAt.eq_of_star {l : Lexeme} {rest cs : List Char} (h : l.StartsAt rest)
    (hstar : l.text.toList = '*' :: cs) : l = ⟨.symbol, "*"⟩ ∨ l = ⟨.symbol, "*="⟩ := by
  obtain ⟨kind, text⟩ := l
  obtain ⟨c, ds, htext, hcut⟩ := h
  simp only at htext hstar hcut
  obtain ⟨rfl, rfl⟩ := List.cons.inj (hstar.symm.trans htext)
  have hback : text = String.ofList ('*' :: cs) := by rw [← hstar, String.ofList_toList]
  have hlength : symbolLength? ('*' :: (cs ++ rest))
      = some (if (cs ++ rest).head? = some '=' then 2 else 1) := by
    cases cs ++ rest with
    | nil => decide
    | cons c ds =>
        by_cases hc : c = '='
        · simp [symbolLength?, symbols, List.isPrefixOf, hc]
          rfl
        · have hc' : '=' ≠ c := fun h => hc h.symm
          simp [symbolLength?, symbols, List.isPrefixOf, hc, hc']
          rfl
  rw [lexemeAt_symbol (by decide) fun h => absurd h (by decide), hlength] at hcut
  obtain ⟨rfl, hn⟩ := Prod.mk.inj hcut
  rw [hback]
  cases cs with
  | nil => exact .inl rfl
  | cons c cs =>
      cases cs with
      | nil =>
          have hc : c = '=' := by
            refine Decidable.byContradiction fun hc => ?_
            simp [hc] at hn
          exact .inr (by rw [hc])
      | cons d cs =>
          simp at hn
          split at hn <;> omega

/-- The lexemes of a source file, and a byte order mark in front of them if there is one. -/
theorem exists_lexemesOfSource (source : String) : ∃ mark cs,
    lexemesOfSource source = mark ++ lexemes cs ∧ source.toList = charsOf mark ++ cs
      ∧ (mark = [] ∧ source.toList.head? ≠ some '\ufeff' ∨ mark = [⟨.blank, "\ufeff"⟩]) := by
  unfold lexemesOfSource
  split
  · next cs hcs => exact ⟨[⟨.blank, "\ufeff"⟩], cs, rfl, hcs, .inr rfl⟩
  · next hmark =>
    refine ⟨[], source.toList, rfl, rfl, .inl ⟨rfl, fun hhead => ?_⟩⟩
    obtain ⟨cs, hcs⟩ := List.head?_eq_some_iff.mp hhead
    exact hmark cs hcs

/-- A lexeme of a source file is a byte order mark, or what stands behind it cuts it off. -/
theorem eq_mark_or_exists_startsAt {source : String} {l : Lexeme}
    (h : l ∈ lexemesOfSource source) : l = ⟨.blank, "\ufeff"⟩ ∨ ∃ before behind,
      lexemesOfSource source = before ++ l :: behind ∧ l.StartsAt (charsOf behind)
        ∧ Separated behind [] := by
  obtain ⟨mark, cs, hlexemes, -, hmark⟩ := exists_lexemesOfSource source
  rw [hlexemes] at h ⊢
  rcases List.mem_append.mp h with h | h
  · rcases hmark with ⟨rfl, -⟩ | rfl
    · contradiction
    · exact .inl (List.mem_singleton.mp h)
  · obtain ⟨before, behind, hsplit⟩ := List.append_of_mem h
    have hsep := separated_lexemes cs
    rw [hsplit, separated_append, separated_cons, List.append_nil] at hsep
    exact .inr ⟨mark ++ before, behind, by rw [hsplit, List.append_assoc],
      by simpa using hsep.2⟩

theorem text_ne_of_mem_lexemesOfSource {source : String} {l : Lexeme}
    (h : l ∈ lexemesOfSource source) : l.text ≠ "" := by
  rcases eq_mark_or_exists_startsAt h with rfl | ⟨before, behind, -, hstarts, -⟩
  · decide
  · exact hstarts.text_ne

/-- A token that begins like a symbol is one, or out of place. -/
theorem kind_of_isSymbolic {source : String} {t : Token} (h : t ∈ Token.ofSource source)
    (ht : isSymbolic t.text = true) : t.kind = .symbol ∨ t.kind = .stray := by
  rcases Token.mem_collect h with ⟨-, htext⟩ | ⟨hmem, htrivia⟩
  · rw [htext] at ht
    exact absurd ht (by decide)
  · rcases eq_mark_or_exists_startsAt hmem with hmark | ⟨before, behind, -, hstarts, -⟩
    · rw [hmark] at htrivia
      contradiction
    · exact hstarts.kind_of_isSymbolic ht

/-- What is a word or a literal is none of some texts that begin like symbols. -/
theorem not_mem_of_isSymbolic {source : String} {t : Token} (h : t ∈ Token.ofSource source)
    (hkind : t.kind = .word ∨ t.kind = .literal ∨ t.kind = .string) {texts : List String}
    (htexts : texts.all isSymbolic = true) : t.text ∉ texts := by
  intro hmem
  rcases kind_of_isSymbolic h (List.all_eq_true.mp htexts _ hmem) with hk | hk
  · simp [hk] at hkind
  · simp [hk] at hkind

/-- A dot is no word. -/
theorem ne_dot_of_word {source : String} {t : Token} (h : t ∈ Token.ofSource source)
    (hkind : t.kind = .word) : t.text ≠ "." := by
  intro htext
  rcases Token.mem_collect h with ⟨-, hempty⟩ | ⟨hmem, htrivia⟩
  · simp [htext] at hempty
  · rcases eq_mark_or_exists_startsAt hmem with hmark | ⟨before, behind, -, ⟨c, cs, hc, hcut⟩, -⟩
    · rw [hmark] at htrivia
      contradiction
    · simp only [htext] at hc
      obtain ⟨rfl, rfl⟩ := List.cons.inj hc
      simp only [hkind] at hcut
      exact absurd (isNameStart_of_word hcut) (by decide)

/-- A slash is out of place only in front of an asterisk. -/
theorem exists_isStarred_of_slash {l : Lexeme} {behind : List Lexeme}
    (h : l.StartsAt (charsOf behind)) (hbehind : Separated behind []) (hkind : l.kind = .stray)
    (htext : l.text = "/") :
    ∃ m more, behind = m :: more ∧ m.isTrivia = false ∧ IsStarred ⟨[], m.kind, m.text⟩ := by
  obtain ⟨c, cs, hslash, hcut⟩ := h
  obtain ⟨rfl, rfl⟩ : c = '/' ∧ cs = [] := by simpa [htext] using hslash.symm
  rw [hkind, List.nil_append] at hcut
  obtain ⟨ds, hstar, -⟩ := lexemeAt_slash_eq_stray.mp hcut
  cases behind with
  | nil => simp at hstar
  | cons m more =>
      have hm := (separated_cons.mp hbehind).1
      obtain ⟨c, es, hc, -⟩ := id hm
      rw [charsOf_cons, hc] at hstar
      rw [(List.cons.inj hstar).1] at hc
      rcases hm.eq_of_star hc with rfl | rfl
      · exact ⟨_, more, rfl, rfl, rfl, .inl rfl⟩
      · exact ⟨_, more, rfl, rfl, rfl, .inr rfl⟩

end Source

/-! ## Stages -/

namespace Grammar

theorem next_stageScan {stops : List String} {s : String} (hstops : s ∉ stops)
    (hopenings : s ∉ openings) (hclosings : s ∉ closings) (stage : Stage) :
    (stageScan stops).next stage s = stage := by
  have hbrace : s ≠ "\x7b" := fun h => hopenings (h ▸ by decide)
  match stage with
  | .head 0 => simp [stageScan, hstops, hopenings, hbrace]
  | .head (n + 1) => simp [stageScan, hopenings, hclosings]
  | .body n => simp [stageScan, hopenings, hclosings]
  | .done => rfl

/-- **In the tokens of a source file only symbols end a part or open brackets.** -/
theorem passes_ofSource {stops : List String} (hstops : stops.all isSymbolic = true)
    {source : String} {t : Token} (h : t ∈ Token.ofSource source) :
    (stageScan stops).Passes t := by
  intro hkind
  exact next_stageScan (not_mem_of_isSymbolic h hkind hstops)
    (not_mem_of_isSymbolic h hkind (by decide)) (not_mem_of_isSymbolic h hkind (by decide))

end Grammar

/-! ## Whole files -/

namespace Structure

/-- **A file is read to its end**: its trees hold all its tokens, and the last one is its end. -/
theorem exists_of_unitTrees? {source : String} {ts : List SyntaxTree}
    (h : unitTrees? (Token.ofSource source) = some ts) :
    ∃ us t, ts = us ++ [.leaf t] ∧ t.text = ""
      ∧ ParseTree.tokensAll us ++ [t] = Token.ofSource source
      ∧ parse Rule.form depthLimit (.many (.rule .topLevel)) (Token.ofSource source)
        = some (us, [t]) := by
  obtain ⟨⟨ts', rest⟩, hparse, hts⟩ := Option.map_eq_some_iff.mp h
  obtain rfl : ts' = ts := hts
  obtain ⟨us, mid, vs, e, hmany, hfinish, rfl⟩ := exists_parse_of_seq hparse
  obtain ⟨t, rfl, haccepts, rfl⟩ := eq_of_token hfinish
  have htokens := tokens_of_parse hmany
  have htext : t.text = "" := by simpa [Terminal.accepts] using haccepts
  obtain rfl : rest = [] := Token.eq_nil_of_collect
    (fun l hl => text_ne_of_mem_lexemesOfSource hl) htokens.symm htext
  exact ⟨us, t, rfl, htext, htokens, hmany⟩

/-- The tokens of the trees are those of the file. -/
theorem tokensAll_of_unitTrees? {source : String} {ts : List SyntaxTree}
    (h : unitTrees? (Token.ofSource source) = some ts) :
    ParseTree.tokensAll ts = Token.ofSource source := by
  obtain ⟨us, t, rfl, -, htokens, -⟩ := exists_of_unitTrees? h
  rw [← htokens, ParseTree.tokensAll_append]
  rfl

/-- **Nothing is left open in a file that is read**: no comment, no string and no character. -/
theorem not_isOpening {source : String} {ts : List SyntaxTree}
    (h : unitTrees? (Token.ofSource source) = some ts) {l : Lexeme}
    (hl : l ∈ lexemesOfSource source) (hkind : l.kind = .stray) :
    l.text ∉ ["/", "\"", "\x27"] := by
  have htokens := tokensAll_of_unitTrees? h
  have hquotes := not_isOpenQuote_unitTrees? h
  have hchain := isChain_unitTrees? h
  rw [htokens] at hquotes hchain
  rcases eq_mark_or_exists_startsAt hl with rfl | ⟨before, behind, hsplit, hstarts, hbehind⟩
  · contradiction
  obtain ⟨us, lead, hcollect⟩ := Token.exists_collect_append [] before
  have hofSource : Token.ofSource source
      = us ++ ⟨lead, l.kind, l.text⟩ :: Token.collect [] behind := by
    rw [Token.ofSource, hsplit, hcollect, Token.collect, if_neg (by simp [Lexeme.isTrivia, hkind])]
  rw [hofSource] at hquotes hchain
  intro htext
  simp only [List.mem_cons, List.not_mem_nil, or_false] at htext
  rcases htext with htext | htext
  · -- An asterisk follows, for the slash would be a symbol without it.
    obtain ⟨m, more, rfl, htrivia, hstarred⟩ :=
      exists_isStarred_of_slash hstarts hbehind hkind htext
    rw [Token.collect, if_neg (by simp [htrivia])] at hchain
    have hpair := List.isChain_cons_cons.mp (List.IsChain.right_of_append hchain)
    exact hpair.1 ⟨⟨hkind, htext⟩, hstarred⟩
  · exact hquotes ⟨lead, l.kind, l.text⟩ (by simp) ⟨hkind, htext⟩

end Structure

end JavaOutline
