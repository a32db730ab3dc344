import JavaOutline.Proofs.Characters
import JavaOutline.Source.Token

/-!
# JavaOutline.Proofs.Lexing

Cutting text into lexemes undoes writing lexemes one after another, provided that
each of them ends where it was meant to end.

`Lexeme.StartsAt` says of one lexeme that it is cut off in front of a given text,
and `Separated` says it of a list, each lexeme in front of those behind it. A word
ends in front of any character that no name has; most symbols end anywhere; a dot
needs something other than a dot or a digit behind it, an angle bracket anything
but what would make it a longer symbol. `Spells` ties lexemes to the text they make
up, so that both are built together, and `Opens` names the texts that may stand
behind a blank, a dot or an angle bracket. `Token.ofSource_eq` is the result for
whole files.
-/

namespace JavaOutline.Source

/-! ## Runs of characters -/

/-- Does a text not begin with a character of the class? -/
def Stops (p : Char → Bool) (cs : List Char) : Prop := ∀ c, cs.head? = some c → p c = false

@[simp] theorem stops_nil (p : Char → Bool) : Stops p [] := by
  intro c h
  simp at h

@[simp] theorem stops_cons {p : Char → Bool} {c : Char} {cs : List Char} :
    Stops p (c :: cs) ↔ p c = false := by
  simp [Stops]

/-- What does not begin with a character of the class does not begin with one of a smaller
class. -/
theorem Stops.mono {p q : Char → Bool} {cs : List Char} (h : Stops p cs)
    (hpq : ∀ c, q c = true → p c = true) : Stops q cs := by
  intro c hc
  have hp := h c hc
  cases hq : q c with
  | false => rfl
  | true => rw [hpq c hq] at hp; contradiction

/-- The longest run of a class that stops where the class does. -/
theorem takeWhile_append_of_stops {p : Char → Bool} {cs rest : List Char}
    (hcs : ∀ c ∈ cs, p c = true) (hrest : Stops p rest) : (cs ++ rest).takeWhile p = cs := by
  rw [List.takeWhile_append_of_pos hcs]
  cases rest with
  | nil => simp
  | cons c rest =>
      rw [stops_cons] at hrest
      simp [hrest]

/-! ## Numbers -/

open Matcher

/-- A sequence fails if its first part does. -/
theorem inOrder_cons_eq_none {m : Matcher} {ms : List Matcher} {cs : List Char}
    (h : m cs = none) : inOrder (m :: ms) cs = none := by
  simp [inOrder, andThen, h]

theorem decimalDigits_eq_none {c : Char} (cs : List Char) (h : isDecimal c = false) :
    decimalDigits (c :: cs) = none := by
  have h0 : c ≠ '0' := by
    rintro rfl
    exact absurd h (by decide)
  unfold decimalDigits
  split <;> simp_all

/-- A number begins with a digit, or with a dot and a digit. -/
theorem numberLength?_eq_none {c : Char} {cs : List Char} (h : isDecimal c = false)
    (hdot : c = '.' → Stops isDecimal cs) : numberLength? (c :: cs) = none := by
  have h0 : c ≠ '0' := by
    rintro rfl
    exact absurd h (by decide)
  have hzero : oneOf ['0'] (c :: cs) = none := by simp [oneOf, h0]
  have hdigits : decimalDigits (c :: cs) = none := decimalDigits_eq_none cs h
  have hgroups : groups isDecimal (c :: cs) = none := by simp [groups, h]
  have hfraction : ∀ ms, inOrder (oneOf ['.'] :: groups isDecimal :: ms) (c :: cs) = none := by
    intro ms
    by_cases hc : c = '.'
    · have hstop : groups isDecimal cs = none := by
        cases cs with
        | nil => rfl
        | cons d ds =>
            have hd : isDecimal d = false := stops_cons.mp (hdot hc)
            simp [groups, hd]
      simp [inOrder, andThen, oneOf, hc, hstop]
    · exact inOrder_cons_eq_none (by simp [oneOf, hc])
  have hforms : ∀ m ∈ numberForms, m (c :: cs) = none := by
    simp only [numberForms, basedInteger, List.forall_mem_cons]
    exact ⟨inOrder_cons_eq_none hdigits, inOrder_cons_eq_none hzero, inOrder_cons_eq_none hzero,
      inOrder_cons_eq_none hzero, inOrder_cons_eq_none hzero, inOrder_cons_eq_none hgroups,
      hfraction _, inOrder_cons_eq_none hdigits, inOrder_cons_eq_none hdigits,
      inOrder_cons_eq_none hzero, by simp⟩
  have hnone : numberForms.filterMap (· (c :: cs)) = [] := List.filterMap_eq_nil_iff.mpr hforms
  rw [numberLength?, longest, hnone]
  rfl

/-! ## Symbols -/

/-- The first match in a list is `a` if nothing in front of `a` matches. -/
theorem find?_eq_some_of_takeWhile [BEq α] [LawfulBEq α] {p : α → Bool} {a : α} {xs : List α}
    (ha : a ∈ xs) (hp : p a = true) (hbefore : ∀ b ∈ xs.takeWhile (· != a), p b = false) :
    xs.find? p = some a := by
  induction xs with
  | nil => simp at ha
  | cons x xs ih =>
      by_cases hx : x = a
      · subst hx
        exact List.find?_cons_of_pos hp
      · have hne : (x != a) = true := by simpa using hx
        rw [List.takeWhile_cons, if_pos hne, List.forall_mem_cons] at hbefore
        rw [List.find?_cons_of_neg (by simp [hbefore.1])]
        exact ih ((List.mem_cons.mp ha).resolve_left (Ne.symm hx)) hbefore.2

/-- The symbol at the start of a text: one that begins the text and stands in
front of all others that do. -/
theorem symbolLength?_eq {s : String} {cs : List Char} (hs : s ∈ symbols)
    (hbegin : s.toList.isPrefixOf cs = true)
    (hbefore : ∀ s' ∈ symbols.takeWhile (· != s), s'.toList.isPrefixOf cs = false) :
    symbolLength? cs = some s.length := by
  have hfind : symbols.find? (fun s => s.toList.isPrefixOf cs) = some s :=
    find?_eq_some_of_takeWhile hs hbegin hbefore
  rw [symbolLength?, hfind, Option.map_some]

/-- A character that begins no lexeme but a symbol. -/
def isSymbolStart (c : Char) : Bool :=
  !isBlank c && !isNameStart c && !isDecimal c && c != '/' && c != '"' && c != '\x27'

/-- Behind such a character only the list of symbols counts. -/
theorem lexemeAt_symbol {c : Char} {cs : List Char} (hc : isSymbolStart c = true)
    (hdot : c = '.' → Stops isDecimal cs) :
    lexemeAt c cs = orStray .symbol ((symbolLength? (c :: cs)).map (· - 1)) := by
  simp only [isSymbolStart, Bool.and_eq_true, Bool.not_eq_true', bne_iff_ne] at hc
  obtain ⟨⟨⟨⟨⟨hblank, hname⟩, hdecimal⟩, hslash⟩, hquote⟩, hapostrophe⟩ := hc
  unfold lexemeAt
  rw [if_neg (by simp [hblank]), if_neg (by simp [hname]), numberLength?_eq_none hdecimal hdot]
  simp only
  split <;> simp_all

/-! ## One lexeme -/

/-- Is the lexeme cut off if `rest` follows it? -/
def Lexeme.StartsAt (l : Lexeme) (rest : List Char) : Prop :=
  ∃ c cs, l.text.toList = c :: cs ∧ lexemeAt c (cs ++ rest) = (l.kind, cs.length)

theorem lexemes_of_startsAt {l : Lexeme} {rest : List Char} (h : l.StartsAt rest) :
    lexemes (l.text.toList ++ rest) = l :: lexemes rest := by
  obtain ⟨kind, text⟩ := l
  obtain ⟨c, cs, htext, hcut⟩ := h
  simp only at htext hcut
  have hback : String.ofList (c :: cs) = text := by rw [← htext, String.ofList_toList]
  rw [htext, List.cons_append, lexemes, hcut]
  simp [hback]

/-- Is the text a name, keywords included? -/
def isWord (s : String) : Bool :=
  match s.toList with
  | [] => false
  | c :: cs => isNameStart c && cs.all isNamePart

theorem isNamePart_of_isWord {w : String} (h : isWord w = true) :
    ∀ c ∈ w.toList, isNamePart c = true := by
  unfold isWord at h
  split at h
  · contradiction
  · next c cs htext =>
    rw [Bool.and_eq_true, List.all_eq_true] at h
    rw [htext, List.forall_mem_cons]
    exact ⟨isNamePart_of_isNameStart h.1, h.2⟩

/-- A word ends where no name goes on. -/
theorem startsAt_word {s : String} {rest : List Char} (hs : isWord s = true)
    (hrest : Stops isNamePart rest) : Lexeme.StartsAt ⟨.word, s⟩ rest := by
  unfold isWord at hs
  split at hs
  · contradiction
  · next c cs htext =>
    rw [Bool.and_eq_true, List.all_eq_true] at hs
    refine ⟨c, cs, htext, ?_⟩
    unfold lexemeAt
    rw [if_neg (by simp [isBlank_of_isNameStart hs.1]), if_pos hs.1,
      takeWhile_append_of_stops hs.2 hrest]

/-- A blank ends where another character begins. -/
theorem startsAt_blank {rest : List Char} (hrest : Stops isBlank rest) :
    Lexeme.StartsAt ⟨.blank, " "⟩ rest := by
  refine ⟨' ', [], rfl, ?_⟩
  unfold lexemeAt
  rw [if_pos (by decide), takeWhile_append_of_stops (by simp) hrest]

/-- A symbol ends where no other one in front of it in the list begins. -/
theorem startsAt_symbol {s : String} {c : Char} {cs rest : List Char} (hs : s ∈ symbols)
    (htext : s.toList = c :: cs) (hc : isSymbolStart c = true)
    (hdot : c = '.' → Stops isDecimal (cs ++ rest))
    (hbefore : ∀ s' ∈ symbols.takeWhile (· != s),
      s'.toList.isPrefixOf (c :: (cs ++ rest)) = false) :
    Lexeme.StartsAt ⟨.symbol, s⟩ rest := by
  have hbegin : s.toList.isPrefixOf (c :: (cs ++ rest)) = true := by
    rw [htext, List.isPrefixOf_iff_prefix]
    exact List.prefix_append (c :: cs) rest
  have hlength : symbolLength? (c :: (cs ++ rest)) = some s.length :=
    symbolLength?_eq hs hbegin hbefore
  have hlen : s.length = cs.length + 1 := by
    rw [← String.length_toList, htext, List.length_cons]
  refine ⟨c, cs, htext, ?_⟩
  rw [lexemeAt_symbol hc hdot, hlength, hlen]
  rfl

/-- Does every symbol in front of `c` that begins with `c` go on with a character
of the class? -/
def goesOnWith (p : Char → Bool) (c : Char) (s : String) : Bool :=
  match s.toList with
  | [] => false
  | [d] => d != c
  | d :: e :: _ => d != c || p e

theorem isPrefixOf_of_goesOnWith {p : Char → Bool} {c : Char} {s : String} {rest : List Char}
    (h : goesOnWith p c s = true) (hrest : Stops p rest) :
    s.toList.isPrefixOf (c :: rest) = false := by
  unfold goesOnWith at h
  split at h
  · contradiction
  · next d htext =>
    have hne : d ≠ c := by simpa using h
    simp [htext, List.isPrefixOf, hne]
  · next d e es htext =>
    rw [Bool.or_eq_true, bne_iff_ne] at h
    rw [htext]
    cases rest with
    | nil => simp [List.isPrefixOf]
    | cons r rest =>
        have hr : p r = false := stops_cons.mp hrest
        cases h with
        | inl hne => simp [List.isPrefixOf, hne]
        | inr hp =>
            have hne : e ≠ r := by
              rintro rfl
              rw [hp] at hr
              contradiction
            simp [List.isPrefixOf, hne]

/-- A symbol of one character ends where none of the characters follows that would
make it another lexeme. -/
theorem startsAt_singleton {p : Char → Bool} {c : Char} {rest : List Char}
    (hc : isSymbolStart c = true) (hmem : String.singleton c ∈ symbols)
    (hbefore : ∀ s ∈ symbols.takeWhile (· != String.singleton c), goesOnWith p c s = true)
    (hdot : c = '.' → ∀ d, isDecimal d = true → p d = true) (hrest : Stops p rest) :
    Lexeme.StartsAt ⟨.symbol, String.singleton c⟩ rest := by
  have htext : (String.singleton c).toList = [c] := by simp
  refine startsAt_symbol hmem htext hc (fun h d hd => ?_) fun s hs => ?_
  · cases hdec : isDecimal d with
    | false => rfl
    | true =>
        have hp : p d = false := hrest d (by simpa using hd)
        rw [hdot h d hdec] at hp
        contradiction
  · exact isPrefixOf_of_goesOnWith (hbefore s hs) hrest

/-- Symbols of one character that no longer symbol begins with. -/
def closedSymbols : List Char := ['\x7b', '\x7d', '(', ')', '[', ']', ';', ',', '?', '~', '>']

/-- Does no symbol in front of `c` begin with it? -/
def isAlone (c : Char) : Bool :=
  isSymbolStart c && c != '.' && symbols.contains (String.singleton c)
    && (symbols.takeWhile (· != String.singleton c)).all (goesOnWith (fun _ => false) c)

/-- Such a symbol ends anywhere. -/
theorem startsAt_closed {c : Char} {rest : List Char} (hc : c ∈ closedSymbols) :
    Lexeme.StartsAt ⟨.symbol, String.singleton c⟩ rest := by
  have hall : closedSymbols.all isAlone = true := by decide
  have halone : isAlone c = true := List.all_eq_true.mp hall c hc
  simp only [isAlone, Bool.and_eq_true, bne_iff_ne, List.contains_iff_mem, List.all_eq_true]
    at halone
  obtain ⟨⟨⟨hstart, hdot⟩, hmem⟩, hbefore⟩ := halone
  exact startsAt_singleton hstart hmem hbefore (fun h => absurd h hdot) (fun _ _ => rfl)

/-- A dot ends where neither a dot nor a digit follows. -/
theorem startsAt_dot {rest : List Char} (hrest : Stops (fun c => c == '.' || isDecimal c) rest) :
    Lexeme.StartsAt ⟨.symbol, "."⟩ rest :=
  startsAt_singleton (c := '.') (by decide) (by decide) (by decide)
    (fun _ d hd => by simp [hd]) hrest

/-- An opening angle bracket ends where no longer symbol goes on. -/
theorem startsAt_less {rest : List Char} (hrest : Stops (fun c => c == '<' || c == '=') rest) :
    Lexeme.StartsAt ⟨.symbol, "<"⟩ rest :=
  startsAt_singleton (c := '<') (by decide) (by decide) (by decide)
    (fun h => absurd h (by decide)) hrest

/-- Three dots end anywhere. -/
theorem startsAt_dots {rest : List Char} : Lexeme.StartsAt ⟨.symbol, "..."⟩ rest := by
  have hbefore : ∀ s ∈ symbols.takeWhile (· != "..."),
      goesOnWith (fun _ => false) '.' s = true := by decide
  have htext : "...".toList = ['.', '.', '.'] := rfl
  refine startsAt_symbol (by decide) htext (by decide) ?_ fun s hs => ?_
  · intro _ d hd
    simp only [List.cons_append, List.head?_cons, Option.some.injEq] at hd
    subst hd
    decide
  · exact isPrefixOf_of_goesOnWith (hbefore s hs) (fun _ _ => rfl)

/-- The sign of an annotation type ends anywhere. -/
theorem startsAt_annotationTypeSign {rest : List Char} :
    Lexeme.StartsAt ⟨.symbol, "@interface"⟩ rest := by
  have htext : "@interface".toList = '@' :: "interface".toList := by decide
  refine startsAt_symbol (by decide) htext (by decide) (fun h => absurd h (by decide)) fun s hs => ?_
  have hfirst : symbols.takeWhile (· != "@interface") = [] := by decide
  rw [hfirst] at hs
  contradiction

/-- The sign of an annotation ends where it is not that of an annotation type. -/
theorem startsAt_annotationSign {rest : List Char} (hrest : ¬ "interface".toList <+: rest) :
    Lexeme.StartsAt ⟨.symbol, "@"⟩ rest := by
  have hlonger : ∀ s ∈ symbols.takeWhile (· != "@"),
      s = "@interface" ∨ goesOnWith (fun _ => false) '@' s = true := by decide
  have htext : "@interface".toList = '@' :: "interface".toList := by decide
  have hsign : "@".toList = '@' :: [] := rfl
  refine startsAt_symbol (by decide) hsign (by decide) (fun h => absurd h (by decide)) fun s hs => ?_
  rcases hlonger s hs with rfl | hgoes
  · rw [Bool.eq_false_iff, ne_eq, List.isPrefixOf_iff_prefix, htext, List.cons_prefix_cons]
    exact fun h => hrest h.2
  · exact isPrefixOf_of_goesOnWith hgoes fun _ _ => rfl

/-! ## Many lexemes -/

/-- The text of some lexemes. -/
def charsOf (ls : List Lexeme) : List Char := ls.flatMap fun l => l.text.toList

@[simp] theorem charsOf_nil : charsOf [] = [] := rfl

@[simp] theorem charsOf_cons (l : Lexeme) (ls : List Lexeme) :
    charsOf (l :: ls) = l.text.toList ++ charsOf ls := by simp [charsOf]

@[simp] theorem charsOf_append (ls ms : List Lexeme) :
    charsOf (ls ++ ms) = charsOf ls ++ charsOf ms := by simp [charsOf]

/-- Is each of some lexemes cut off by what follows it, the last one by `rest`? -/
def Separated : List Lexeme → List Char → Prop
  | [], _ => True
  | l :: ls, rest => l.StartsAt (charsOf ls ++ rest) ∧ Separated ls rest

@[simp] theorem separated_nil (rest : List Char) : Separated [] rest := trivial

theorem separated_cons {l : Lexeme} {ls : List Lexeme} {rest : List Char} :
    Separated (l :: ls) rest ↔ l.StartsAt (charsOf ls ++ rest) ∧ Separated ls rest := Iff.rfl

theorem separated_append {ls ms : List Lexeme} {rest : List Char} :
    Separated (ls ++ ms) rest ↔ Separated ls (charsOf ms ++ rest) ∧ Separated ms rest := by
  induction ls with
  | nil => simp
  | cons l ls ih => simp [separated_cons, ih, and_assoc]

/-- Cutting gives separated lexemes back. -/
theorem lexemes_charsOf {ls : List Lexeme} {rest : List Char} (h : Separated ls rest) :
    lexemes (charsOf ls ++ rest) = ls ++ lexemes rest := by
  induction ls with
  | nil => rfl
  | cons l ls ih =>
      obtain ⟨hl, hls⟩ := h
      rw [charsOf_cons, List.append_assoc, lexemes_of_startsAt hl, ih hls, List.cons_append]

/-! ## Beginnings -/

/-- A character that is taken along by a blank, an angle bracket or a dot in front
of it. -/
def clings (c : Char) : Bool := isBlank c || c == '<' || c == '=' || c == '.' || isDecimal c

theorem clings_of_isNameStart {c : Char} (h : isNameStart c = true) : clings c = false := by
  have hsigns : ∀ d ∈ ['<', '=', '.'], isNameStart d = false := by
    simp only [List.forall_mem_cons, List.not_mem_nil, false_imp_iff, implies_true, and_true]
    decide
  have hne : ∀ d ∈ ['<', '=', '.'], (c == d) = false := by
    intro d hd
    rw [beq_eq_false_iff_ne]
    rintro rfl
    rw [hsigns c hd] at h
    contradiction
  simp only [List.forall_mem_cons] at hne
  simp [clings, isBlank_of_isNameStart h, isDecimal_of_isNameStart h, hne]

/-- Does the text begin with a character that stays apart from what is in front? -/
def Opens (s : String) : Prop := ∃ c cs, s.toList = c :: cs ∧ clings c = false

theorem opens_of_isWord {w : String} (h : isWord w = true) : Opens w := by
  unfold isWord at h
  split at h
  · contradiction
  · next c cs htext =>
    rw [Bool.and_eq_true] at h
    exact ⟨c, cs, htext, clings_of_isNameStart h.1⟩

theorem Opens.append {s : String} (h : Opens s) (t : String) : Opens (s ++ t) := by
  obtain ⟨c, cs, hs, hc⟩ := h
  exact ⟨c, cs ++ t.toList, by rw [String.toList_append, hs, List.cons_append], hc⟩

theorem Opens.stops {s : String} (h : Opens s) {p : Char → Bool}
    (hp : ∀ c, clings c = false → p c = false) (rest : List Char) : Stops p (s.toList ++ rest) := by
  obtain ⟨c, cs, hs, hc⟩ := h
  rw [hs, List.cons_append, stops_cons]
  exact hp c hc

/-! ## Spelling -/

/-- The lexemes make up the text, and are cut apart again in front of anything
that does not go on with a name. -/
structure Spells (ls : List Lexeme) (s : String) : Prop where
  text : charsOf ls = s.toList
  separated : ∀ rest, Stops isNamePart rest → Separated ls rest

theorem spells_nil : Spells [] "" := ⟨rfl, fun _ _ => trivial⟩

theorem stops_append {p : Char → Bool} {cs ds : List Char} (hcs : Stops p cs) (hds : Stops p ds) :
    Stops p (cs ++ ds) := by
  cases cs with
  | nil => exact hds
  | cons c cs => exact stops_cons.mpr (stops_cons.mp hcs)

theorem Spells.append {ls ms : List Lexeme} {s t : String} (hs : Spells ls s) (ht : Spells ms t)
    (hstop : Stops isNamePart t.toList) : Spells (ls ++ ms) (s ++ t) := by
  refine ⟨by rw [charsOf_append, hs.text, ht.text, String.toList_append], fun rest hrest => ?_⟩
  rw [separated_append, ht.text]
  exact ⟨hs.separated _ (stops_append hstop hrest), ht.separated rest hrest⟩

/-- One lexeme in front of others. -/
theorem Spells.cons {l : Lexeme} {ls : List Lexeme} {s : String} (hs : Spells ls s)
    (hl : ∀ rest, Stops isNamePart rest → l.StartsAt (s.toList ++ rest)) :
    Spells (l :: ls) (l.text ++ s) := by
  refine ⟨by rw [charsOf_cons, hs.text, String.toList_append], fun rest hrest => ?_⟩
  rw [separated_cons, hs.text]
  exact ⟨hl rest hrest, hs.separated rest hrest⟩

/-- A blank in front of a text that stays apart from it. -/
theorem Spells.blank_cons {ls : List Lexeme} {s : String} (hs : Spells ls s) (hopens : Opens s) :
    Spells (⟨.blank, " "⟩ :: ls) (" " ++ s) := by
  refine hs.cons fun rest _ => startsAt_blank (hopens.stops (fun c hc => ?_) rest)
  simp only [clings, Bool.or_eq_false_iff] at hc
  simp [hc]

/-- An opening angle bracket in front of a text that stays apart from it. -/
theorem Spells.less_cons {ls : List Lexeme} {s : String} (hs : Spells ls s) (hopens : Opens s) :
    Spells (⟨.symbol, "<"⟩ :: ls) ("<" ++ s) := by
  refine hs.cons fun rest _ => startsAt_less (hopens.stops (fun c hc => ?_) rest)
  simp only [clings, Bool.or_eq_false_iff] at hc
  simp [hc]

/-- A dot in front of a text that stays apart from it. -/
theorem Spells.dot_cons {ls : List Lexeme} {s : String} (hs : Spells ls s) (hopens : Opens s) :
    Spells (⟨.symbol, "."⟩ :: ls) ("." ++ s) := by
  refine hs.cons fun rest _ => startsAt_dot (hopens.stops (fun c hc => ?_) rest)
  simp only [clings, Bool.or_eq_false_iff] at hc
  simp [hc]

theorem Spells.word_cons {w : String} {ls : List Lexeme} {s : String} (hs : Spells ls s)
    (hw : isWord w = true) (hstop : Stops isNamePart s.toList) :
    Spells (⟨.word, w⟩ :: ls) (w ++ s) :=
  hs.cons fun _ hrest => startsAt_word hw (stops_append hstop hrest)

theorem Spells.closed_cons {c : Char} {ls : List Lexeme} {s : String} (hs : Spells ls s)
    (hc : c ∈ closedSymbols) :
    Spells (⟨.symbol, String.singleton c⟩ :: ls) (String.singleton c ++ s) :=
  hs.cons fun _ _ => startsAt_closed hc

/-- What is part of names goes on in a text only if it does so up to the text's end. -/
theorem not_prefix_append {w cs rest : List Char} (hw : ∀ c ∈ w, isNamePart c = true)
    (h : ¬ w <+: cs) (hrest : Stops isNamePart rest) : ¬ w <+: cs ++ rest := by
  intro hp
  rcases List.prefix_or_prefix_of_prefix hp (List.prefix_append cs rest) with hcs | ⟨ds, rfl⟩
  · exact h hcs
  · have hds : ds <+: rest := (List.prefix_append_right_inj cs).mp hp
    cases ds with
    | nil => exact h (by simp)
    | cons d ds =>
        obtain ⟨es, rfl⟩ := hds
        have hd : isNamePart d = true := hw d (by simp)
        rw [List.cons_append, stops_cons, hd] at hrest
        contradiction

/-- The sign of an annotation in front of a name that does not make it another one. -/
theorem Spells.annotation_cons {ls : List Lexeme} {s : String} (hs : Spells ls s)
    (hname : ¬ "interface".toList <+: s.toList) : Spells (⟨.symbol, "@"⟩ :: ls) ("@" ++ s) :=
  have hword := isNamePart_of_isWord (w := "interface") (by decide)
  hs.cons fun _ hrest => startsAt_annotationSign (not_prefix_append hword hname hrest)

theorem opens_closed {c : Char} (hc : c ∈ closedSymbols) (s : String) :
    Opens (String.singleton c ++ s) := by
  have hall : closedSymbols.all (fun c => !clings c) = true := by decide
  have hclings : clings c = false := by simpa using List.all_eq_true.mp hall c hc
  exact Opens.append ⟨c, [], by simp, hclings⟩ s

/-- A blank and a symbol. -/
theorem Spells.spaced_closed {c : Char} {ls : List Lexeme} {s : String} (hs : Spells ls s)
    (hc : c ∈ closedSymbols) :
    Spells (⟨.blank, " "⟩ :: ⟨.symbol, String.singleton c⟩ :: ls)
      (" " ++ (String.singleton c ++ s)) :=
  (hs.closed_cons hc).blank_cons (opens_closed hc s)

/-- A blank and a word. -/
theorem Spells.spaced_word {w : String} {ls : List Lexeme} {s : String} (hs : Spells ls s)
    (hw : isWord w = true) (hstop : Stops isNamePart s.toList) :
    Spells (⟨.blank, " "⟩ :: ⟨.word, w⟩ :: ls) (" " ++ (w ++ s)) :=
  (hs.word_cons hw hstop).blank_cons ((opens_of_isWord hw).append s)

/-- A list of texts with a separator begins with the first of them. -/
theorem intercalate_eq_append_join (sep s : String) (ss : List String) :
    sep.intercalate (s :: ss) = s ++ String.join (ss.map (sep ++ ·)) := by
  induction ss generalizing s with
  | nil => simp
  | cons t ss ih =>
      rw [String.intercalate_cons_cons, ih, List.map_cons, String.join_cons, String.append_assoc,
        String.append_assoc]

/-- Texts with a symbol in front of each. -/
theorem spells_join {c : Char} (hc : isNamePart c = false) {L : α → List Lexeme} {S : α → String}
    {xs : List α}
    (hxs : ∀ x ∈ xs, Spells (⟨.symbol, String.singleton c⟩ :: L x) (String.singleton c ++ S x)) :
    Spells (xs.flatMap fun x => ⟨.symbol, String.singleton c⟩ :: L x)
        (String.join (xs.map fun x => String.singleton c ++ S x))
      ∧ Stops isNamePart (String.join (xs.map fun x => String.singleton c ++ S x)).toList := by
  induction xs with
  | nil => exact ⟨spells_nil, stops_nil _⟩
  | cons x xs ih =>
      rw [List.forall_mem_cons] at hxs
      obtain ⟨hspells, hstop⟩ := ih hxs.2
      rw [List.flatMap_cons, List.map_cons, String.join_cons]
      exact ⟨hxs.1.append hspells hstop, by simp [hc]⟩

/-- Texts with a symbol between them. -/
theorem spells_intercalate {c : Char} (hc : isNamePart c = false) {L : α → List Lexeme}
    {S : α → String} {x : α} {xs : List α} (hx : Spells (L x) (S x))
    (hxs : ∀ y ∈ xs, Spells (⟨.symbol, String.singleton c⟩ :: L y) (String.singleton c ++ S y)) :
    Spells (L x ++ xs.flatMap fun y => ⟨.symbol, String.singleton c⟩ :: L y)
      ((String.singleton c).intercalate ((x :: xs).map S)) := by
  obtain ⟨hspells, hstop⟩ := spells_join hc hxs
  rw [List.map_cons, intercalate_eq_append_join, List.map_map]
  exact hx.append hspells hstop

/-! ## Tokens -/

/-- One blank. -/
def space : List Lexeme := [⟨.blank, " "⟩]

namespace Token

/-- The lexemes of a token: those in front of it and its own. -/
def lexemes (t : Token) : List Lexeme := t.lead ++ [⟨t.kind, t.text⟩]

/-- Is at most one blank in front of the token? -/
def IsSpaced (t : Token) : Prop := t.lead = [] ∨ t.lead = space

/-- Is at most one blank in front of the token, and is it something else itself? -/
def IsPlaced (t : Token) : Prop := t.IsSpaced ∧ Lexeme.isTrivia ⟨t.kind, t.text⟩ = false

theorem IsSpaced.isTrivia {t : Token} (h : t.IsSpaced) : ∀ l ∈ t.lead, l.isTrivia = true := by
  rcases h with h | h <;> rw [h] <;> decide

/-- Blanks and comments gather in front of the next token. -/
theorem collect_trivia {trivia : List Lexeme} (h : ∀ l ∈ trivia, l.isTrivia = true)
    (lead ls : List Lexeme) : collect lead (trivia ++ ls) = collect (lead ++ trivia) ls := by
  induction trivia generalizing lead with
  | nil => simp
  | cons l trivia ih =>
      rw [List.forall_mem_cons] at h
      rw [List.cons_append, collect, if_pos h.1, ih h.2]
      simp

/-- Collecting gives tokens back from their lexemes. -/
theorem collect_flatMap_lexemes {ts : List Token} (h : ∀ t ∈ ts, t.IsPlaced)
    (ls : List Lexeme) : collect [] (ts.flatMap lexemes ++ ls) = ts ++ collect [] ls := by
  induction ts with
  | nil => rfl
  | cons t ts ih =>
      rw [List.forall_mem_cons] at h
      obtain ⟨⟨hlead, hkind⟩, hts⟩ := h
      have hlexemes : (t :: ts).flatMap lexemes ++ ls =
          t.lead ++ (⟨t.kind, t.text⟩ :: (ts.flatMap lexemes ++ ls)) := by
        simp [lexemes]
      rw [hlexemes, collect_trivia hlead.isTrivia, List.nil_append, collect, if_neg (by simp [hkind]),
        ih hts, List.cons_append]

/-- **Reading undoes writing, for tokens**: a text made of separated tokens has
those tokens, and the end of the file behind them. -/
theorem ofSource_eq {source : String} {ts : List Token}
    (htext : source.toList = charsOf (ts.flatMap lexemes))
    (hmark : source.toList.head? ≠ some '\ufeff')
    (hsep : Separated (ts.flatMap lexemes) []) (hplaced : ∀ t ∈ ts, t.IsPlaced) :
    ofSource source = ts ++ [finish []] := by
  have hlexemes : lexemesOfSource source = ts.flatMap lexemes := by
    have hcut := lexemes_charsOf hsep
    unfold lexemesOfSource
    split
    · next cs hcs => rw [hcs] at hmark; exact absurd rfl hmark
    · rw [htext, ← List.append_nil (charsOf _), hcut, Source.lexemes, List.append_nil]
  rw [ofSource, hlexemes, ← List.append_nil (ts.flatMap lexemes), collect_flatMap_lexemes hplaced]
  rfl

end Token

end JavaOutline.Source
