import JavaOutline.Document
import JavaOutline.Json.Reader

/-!
# JavaOutline.Proofs.UniqueText

The canonical text of a document can be the text of no other document.

Every text is *delimited*: where one begins, it can be told where it ends, whatever
follows (`IsDelimited`). For strings that is because reading undoes escaping
(`readString_flatMap_escapeChar`); for collections, because behind each part stands a
comma or a line break, never both in one place (`eq_of_bracket_eq`). The first
character tells the sort of a document (`head?_chars`), so two documents with one text
are of one sort, and equal part by part.

Numbers are left out: no document extracted from a file holds any
(`isNumberFree_document`).
-/

namespace JavaOutline

namespace Json

/-! ## Strings -/

/-- A digit has its value. -/
theorem hexValue?_hexDigit {n : Nat} (h : n < 16) : hexValue? (hexDigit n) = some n := by
  have hall : ∀ n ∈ List.range 16, hexValue? (hexDigit n) = some n := by decide
  exact hall n (List.mem_range.mpr h)

/-- The four digits of a control character. -/
theorem readHex4_control {n : Nat} (h : n < 32) (rest : List Char) :
    readHex4 ('0' :: '0' :: hexDigit (n / 16) :: hexDigit (n % 16) :: rest) = some (n, rest) := by
  have hzero : hexValue? '0' = some 0 := rfl
  have hhigh : hexValue? (hexDigit (n / 16)) = some (n / 16) := hexValue?_hexDigit (by omega)
  have hlow : hexValue? (hexDigit (n % 16)) = some (n % 16) := hexValue?_hexDigit (by omega)
  have hsum : (0 * 16 + 0) * 256 + n / 16 * 16 + n % 16 = n := by omega
  simp only [readHex4, hzero, hhigh, hlow, Option.bind_eq_bind, Option.bind_some, hsum]
  rfl

/-- The escape of a control character that has no name. -/
theorem readEscape_control {c : Char} (h : c.toNat < 32) (rest : List Char) :
    readEscape ('u' :: '0' :: '0' :: hexDigit (c.toNat / 16) :: hexDigit (c.toNat % 16) :: rest)
      = some (c, rest) := by
  have hhigh : ¬ (0xD800 ≤ c.toNat ∧ c.toNat < 0xDC00) := by omega
  have hlow : ¬ (0xDC00 ≤ c.toNat ∧ c.toNat < 0xE000) := by omega
  simp only [readEscape, readHex4_control h, Option.bind_eq_bind, Option.bind_some, if_neg hhigh,
    if_neg hlow, Char.ofNat_toNat]
  rfl

/-- A character is written as an escape that is read as the character, or as itself. -/
theorem escapeChar_cases (c : Char) :
    (∃ cs, escapeChar c = '\\' :: cs ∧ ∀ rest, readEscape (cs ++ rest) = some (c, rest))
      ∨ (escapeChar c = [c] ∧ c ≠ '"' ∧ c ≠ '\\' ∧ ¬ c.toNat < 32) := by
  unfold escapeChar
  iterate 7
    split
    · next hc => subst hc; exact .inl ⟨_, rfl, fun _ => rfl⟩
  split
  · next hcontrol => exact .inl ⟨_, rfl, readEscape_control hcontrol⟩
  · next hquote hbackslash _ _ _ _ _ hcontrol => exact .inr ⟨rfl, hquote, hbackslash, hcontrol⟩

/-- An escaped character is read as the character. -/
theorem readString_escapeChar (c : Char) (fuel : Nat) (rest : List Char) :
    readString (fuel + 1) (escapeChar c ++ rest)
      = (readString fuel rest).map fun found => (c :: found.1, found.2) := by
  rcases escapeChar_cases c with ⟨cs, hcs, hescape⟩ | ⟨hself, hquote, hbackslash, hcontrol⟩
  · rw [hcs, List.cons_append, readString, hescape]
    simp only [Option.bind_eq_bind, Option.bind_some]
    cases readString fuel rest <;> rfl
  · rw [hself, List.singleton_append, readString, if_neg hcontrol]
    · cases readString fuel rest <;> rfl
    · exact hquote
    · exact hbackslash

/-- Reading undoes escaping, up to the closing quote. -/
theorem readString_flatMap_escapeChar {s : List Char} {fuel : Nat} (h : s.length < fuel)
    (rest : List Char) :
    readString fuel (s.flatMap escapeChar ++ '"' :: rest) = some (s, rest) := by
  induction s generalizing fuel with
  | nil =>
      obtain ⟨fuel, rfl⟩ : ∃ n, fuel = n + 1 := ⟨fuel - 1, by omega⟩
      rfl
  | cons c s ih =>
      obtain ⟨fuel, rfl⟩ : ∃ n, fuel = n + 1 := ⟨fuel - 1, by omega⟩
      rw [List.length_cons] at h
      rw [List.flatMap_cons, List.append_assoc, readString_escapeChar, ih (by omega)]
      rfl

/-! ## Delimited texts -/

/-- Among the texts that `text` gives to things of a sort, can the end of the text of
`a` be told, whatever follows it, and `a` with it? -/
def IsDelimited (text : α → List Char) (sort : α → Prop) (a : α) : Prop :=
  ∀ b rest rest', sort b → text a ++ rest = text b ++ rest' → a = b ∧ rest = rest'

/-- A quoted string ends at its closing quote, whatever characters are in it. -/
theorem isDelimited_quote (s : String) :
    IsDelimited (fun s : String => quote s.toList) (fun _ => True) s := by
  intro t rest rest' _ h
  simp only [quote, List.cons_append, List.append_assoc, List.nil_append, List.cons.injEq,
    true_and] at h
  -- one amount of fuel is enough to read either string
  have hfuel : s.toList.length < s.toList.length + t.toList.length + 1 := by omega
  have hfuel' : t.toList.length < s.toList.length + t.toList.length + 1 := by omega
  have hs := readString_flatMap_escapeChar hfuel rest
  have ht := readString_flatMap_escapeChar hfuel' rest'
  rw [h, ht, Option.some.injEq, Prod.mk.injEq, String.toList_inj] at hs
  exact ⟨hs.1.symm, hs.2.symm⟩

/-! ## Collections -/

section

variable {text : α → List Char} {sort : α → Prop} {opening closing : Char} {depth : Nat}
  {xs ys : List α} {rest rest' : List Char}

/-- What stands behind the first part of a collection: each further part behind a comma
and a line break, and then the closing bracket. -/
def furtherParts (closing : Char) (depth : Nat) (parts : List (List Char)) : List Char :=
  parts.flatMap (fun part => ',' :: (newline (depth + 1) ++ part)) ++ (newline depth ++ [closing])

theorem furtherParts_cons (part : List Char) (parts : List (List Char)) :
    furtherParts closing depth (part :: parts)
      = ',' :: (newline (depth + 1) ++ (part ++ furtherParts closing depth parts)) := by
  simp [furtherParts]

theorem bracket_cons (part : List Char) (parts : List (List Char)) :
    bracket opening closing depth (part :: parts)
      = opening :: (newline (depth + 1) ++ (part ++ furtherParts closing depth parts)) := by
  have hfurther : ∀ first : List Char,
      ((first :: parts.map (newline (depth + 1) ++ ·)).intersperse [',']).flatten
        = first ++ parts.flatMap (fun part => ',' :: (newline (depth + 1) ++ part)) := by
    induction parts with
    | nil => simp
    | cons p ps ih =>
        intro first
        rw [List.map_cons, List.intersperse_cons_cons, List.flatten_cons, List.flatten_cons, ih,
          List.flatMap_cons]
        simp
  rw [bracket, List.map_cons, hfurther, furtherParts]
  · simp
  · simp

/-- Behind each part a comma or a line break tells whether another one follows. -/
theorem eq_of_furtherParts_eq (hxs : ∀ x ∈ xs, IsDelimited text sort x) (hys : ∀ y ∈ ys, sort y)
    (h : furtherParts closing depth (xs.map text) ++ rest
      = furtherParts closing depth (ys.map text) ++ rest') : xs = ys ∧ rest = rest' := by
  induction xs generalizing ys with
  | nil =>
      cases ys with
      | nil => simpa [furtherParts] using h
      | cons y ys => simp [furtherParts, newline] at h
  | cons x xs ih =>
      cases ys with
      | nil => simp [furtherParts, newline] at h
      | cons y ys =>
          rw [List.forall_mem_cons] at hxs hys
          simp only [furtherParts_cons, List.cons_append, List.append_assoc, List.cons.injEq,
            true_and, List.append_cancel_left_eq, List.map_cons] at h
          obtain ⟨rfl, hrest⟩ := hxs.1 y _ _ hys.1 h
          have hmore := ih hxs.2 hys.2 hrest
          exact ⟨congrArg _ hmore.1, hmore.2⟩

/-- **Collections are told apart by their parts.** -/
theorem eq_of_bracket_eq (hclosing : closing ≠ '\n') (hxs : ∀ x ∈ xs, IsDelimited text sort x)
    (hys : ∀ y ∈ ys, sort y)
    (h : bracket opening closing depth (xs.map text) ++ rest
      = bracket opening closing depth (ys.map text) ++ rest') : xs = ys ∧ rest = rest' := by
  cases xs with
  | nil =>
      cases ys with
      | nil => simpa [bracket] using h
      | cons y ys =>
          rw [List.map_cons, bracket_cons] at h
          simp [bracket, newline, hclosing] at h
  | cons x xs =>
      cases ys with
      | nil =>
          rw [List.map_cons, bracket_cons] at h
          simp [bracket, newline, hclosing.symm] at h
      | cons y ys =>
          rw [List.forall_mem_cons] at hxs hys
          simp only [List.map_cons, bracket_cons, List.cons_append, List.append_assoc,
            List.cons.injEq, true_and, List.append_cancel_left_eq] at h
          obtain ⟨rfl, hfurther⟩ := hxs.1 y _ _ hys.1 h
          have hmore := eq_of_furtherParts_eq hxs.2 hys.2 hfurther
          exact ⟨congrArg _ hmore.1, hmore.2⟩

end

/-! ## Documents without numbers -/

/-- There is no number in the document. -/
inductive IsNumberFree : Json → Prop
  | null : IsNumberFree .null
  | bool (b : Bool) : IsNumberFree (.bool b)
  | string (s : String) : IsNumberFree (.string s)
  | array {items : List Json} (h : ∀ j ∈ items, IsNumberFree j) : IsNumberFree (.array items)
  | object {entries : List (String × Json)} (h : ∀ e ∈ entries, IsNumberFree e.2) :
      IsNumberFree (.object entries)

/-- The character that the text of a document begins with, numbers apart. -/
def firstChar : Json → Char
  | .null => 'n'
  | .bool true => 't'
  | .bool false => 'f'
  | .number _ => '0'
  | .string _ => '"'
  | .array _ => '['
  | .object _ => '\x7b'

theorem head?_bracket (opening closing : Char) (depth : Nat) (parts : List (List Char)) :
    (bracket opening closing depth parts).head? = some opening := by
  cases parts <;> rfl

theorem IsNumberFree.head?_chars {j : Json} (h : j.IsNumberFree) (depth : Nat) :
    (chars depth j).head? = some j.firstChar := by
  cases h with
  | null => rfl
  | bool b => cases b <;> rfl
  | string s => rfl
  | array => rw [chars, head?_bracket]; rfl
  | object => rw [chars, head?_bracket]; rfl

/-- Texts that begin alike are texts of documents of one sort. -/
theorem firstChar_eq_of_chars_eq {j k : Json} (hj : j.IsNumberFree) (hk : k.IsNumberFree)
    {depth : Nat} {rest rest' : List Char} (h : chars depth j ++ rest = chars depth k ++ rest') :
    j.firstChar = k.firstChar := by
  have hhead := congrArg List.head? h
  rw [List.head?_append, List.head?_append, hj.head?_chars, hk.head?_chars] at hhead
  exact Option.some.inj hhead

theorem itemParts_eq_map (depth : Nat) (items : List Json) :
    itemParts depth items = items.map (chars depth) := by
  induction items with
  | nil => rfl
  | cons j js ih => rw [itemParts, ih, List.map_cons]

/-- The text of an entry. -/
def entryChars (depth : Nat) (e : String × Json) : List Char :=
  quote e.1.toList ++ ([':', ' '] ++ chars depth e.2)

theorem entryParts_eq_map (depth : Nat) (entries : List (String × Json)) :
    entryParts depth entries = entries.map (entryChars depth) := by
  induction entries with
  | nil => rfl
  | cons e es ih => rw [entryParts, ih, List.map_cons, entryChars, List.append_assoc]

/-- An entry is a quoted key and a document. -/
theorem isDelimited_entryChars {depth : Nat} {e : String × Json}
    (h : IsDelimited (chars depth) IsNumberFree e.2) :
    IsDelimited (entryChars depth) (fun e => e.2.IsNumberFree) e := by
  intro f rest rest' hf heq
  rw [entryChars, entryChars, List.append_assoc, List.append_assoc, List.append_assoc,
    List.append_assoc] at heq
  obtain ⟨hkey, hvalue⟩ := isDelimited_quote e.1 f.1 _ _ trivial heq
  obtain ⟨hdoc, hrest⟩ := h f.2 rest rest' hf (by simpa using hvalue)
  exact ⟨Prod.ext hkey hdoc, hrest⟩

/-- **Texts of documents are delimited**: whatever follows, a text is the text of one
document only. -/
theorem IsNumberFree.isDelimited {j : Json} (h : j.IsNumberFree) (depth : Nat) :
    IsDelimited (chars depth) IsNumberFree j := by
  induction h generalizing depth with
  | null =>
      intro k rest rest' hk heq
      have hfirst := firstChar_eq_of_chars_eq .null hk heq
      cases hk with
      | null => exact ⟨rfl, by simpa [chars] using heq⟩
      | bool b => cases b <;> simp [firstChar] at hfirst
      | _ => simp [firstChar] at hfirst
  | bool b =>
      intro k rest rest' hk heq
      have hfirst := firstChar_eq_of_chars_eq (.bool b) hk heq
      cases hk with
      | bool c => cases b <;> cases c <;> simp_all [firstChar, chars]
      | _ => cases b <;> simp [firstChar] at hfirst
  | string s =>
      intro k rest rest' hk heq
      have hfirst := firstChar_eq_of_chars_eq (.string s) hk heq
      cases hk with
      | string t =>
          rw [chars, chars] at heq
          obtain ⟨rfl, hrest⟩ := isDelimited_quote s t rest rest' trivial heq
          exact ⟨rfl, hrest⟩
      | bool b => cases b <;> simp [firstChar] at hfirst
      | _ => simp [firstChar] at hfirst
  | @array items _ ih =>
      intro k rest rest' hk heq
      have hfirst := firstChar_eq_of_chars_eq (.array ‹_›) hk heq
      cases hk with
      | @array items' hitems' =>
          rw [chars, chars, itemParts_eq_map, itemParts_eq_map] at heq
          obtain ⟨rfl, hrest⟩ :=
            eq_of_bracket_eq (by decide) (fun j hj => ih j hj (depth + 1)) hitems' heq
          exact ⟨rfl, hrest⟩
      | bool b => cases b <;> simp [firstChar] at hfirst
      | _ => simp [firstChar] at hfirst
  | @object entries _ ih =>
      intro k rest rest' hk heq
      have hfirst := firstChar_eq_of_chars_eq (.object ‹_›) hk heq
      cases hk with
      | @object entries' hentries' =>
          rw [chars, chars, entryParts_eq_map, entryParts_eq_map] at heq
          obtain ⟨rfl, hrest⟩ := eq_of_bracket_eq (by decide)
            (fun e he => isDelimited_entryChars (ih e he (depth + 1))) hentries' heq
          exact ⟨rfl, hrest⟩
      | bool b => cases b <;> simp [firstChar] at hfirst
      | _ => simp [firstChar] at hfirst

/-- Two documents without numbers have different texts unless they are the same. -/
theorem IsNumberFree.eq_of_pretty_eq {j k : Json} (hj : j.IsNumberFree) (hk : k.IsNumberFree)
    (h : j.pretty = k.pretty) : j = k := by
  have hchars : chars 0 j ++ [] = chars 0 k ++ [] := by
    rw [pretty, pretty, String.ofList_inj] at h
    rw [h]
  exact (hj.isDelimited 0 k [] [] hk hchars).1

/-! ## Documents of files -/

mutual
/-- Pruning brings in no numbers. -/
theorem IsNumberFree.pruned : {j : Json} → j.IsNumberFree → j.pruned.IsNumberFree
  | _, .null => .null
  | _, .bool b => .bool b
  | _, .string s => .string s
  | .array items, .array h => .array (isNumberFree_prunedItems items h)
  | .object entries, .object h => .object (isNumberFree_prunedEntries entries h)

theorem isNumberFree_prunedItems : (items : List Json) → (∀ j ∈ items, j.IsNumberFree) →
    ∀ j ∈ prunedItems items, j.IsNumberFree
  | [], _ => by simp [prunedItems]
  | j :: js, h => by
      rw [List.forall_mem_cons] at h
      rw [prunedItems, List.forall_mem_cons]
      exact ⟨h.1.pruned, isNumberFree_prunedItems js h.2⟩

theorem isNumberFree_prunedEntries : (entries : List (String × Json)) →
    (∀ e ∈ entries, e.2.IsNumberFree) → ∀ e ∈ prunedEntries entries, e.2.IsNumberFree
  | [], _ => by simp [prunedEntries]
  | (key, j) :: es, h => by
      rw [List.forall_mem_cons] at h
      rw [prunedEntries]
      split
      · exact isNumberFree_prunedEntries es h.2
      · rw [List.forall_mem_cons]
        exact ⟨h.1.pruned, isNumberFree_prunedEntries es h.2⟩
end

theorem IsNumberFree.prune {j : Json} (h : j.IsNumberFree) (enabled : Bool) :
    (j.prune enabled).IsNumberFree := by
  cases enabled with
  | false => exact h
  | true => exact h.pruned

theorem isNumberFree_ofTexts (ts : List String) : (ofTexts ts).IsNumberFree :=
  .array (List.forall_mem_map.mpr fun t _ => .string t)

end Json

open Json

theorem FieldOutline.isNumberFree_toJson (f : FieldOutline) : f.toJson.IsNumberFree := by
  refine .object ?_
  simp [FieldFlags.entries, IsNumberFree.bool, IsNumberFree.string]

theorem ConstructorOutline.isNumberFree_toJson (c : ConstructorOutline) :
    c.toJson.IsNumberFree := by
  refine .object ?_
  simp [ConstructorFlags.entries, IsNumberFree.bool, IsNumberFree.string, isNumberFree_ofTexts]

theorem MethodEntry.isNumberFree_toJson (m : MethodEntry) : m.toJson.IsNumberFree := by
  cases m with
  | method m =>
      refine .object ?_
      simp [MethodFlags.entries, IsNumberFree.bool, IsNumberFree.string, isNumberFree_ofTexts]
  | element e =>
      refine .object ?_
      simp [IsNumberFree.bool, IsNumberFree.string]

mutual
/-- There are no numbers in outlines. -/
theorem Outline.isNumberFree_toJson : (o : Outline) → o.toJson.IsNumberFree
  | ⟨_, _, _, _, _, _, fields, constructors, methods, inners⟩ => by
      have hfields : (Json.array (fields.map FieldOutline.toJson)).IsNumberFree :=
        .array (List.forall_mem_map.mpr fun f _ => f.isNumberFree_toJson)
      have hconstr : (Json.array (constructors.map ConstructorOutline.toJson)).IsNumberFree :=
        .array (List.forall_mem_map.mpr fun c _ => c.isNumberFree_toJson)
      have hmethods : (Json.array (methods.map MethodEntry.toJson)).IsNumberFree :=
        .array (List.forall_mem_map.mpr fun m _ => m.isNumberFree_toJson)
      have hinners : (Json.array (Outline.toJsonAll inners)).IsNumberFree :=
        .array (Outline.isNumberFree_toJsonAll inners)
      rw [Outline.toJson]
      refine .object ?_
      simp [TypeFlags.entries, Kind.toJson, IsNumberFree.bool, IsNumberFree.string,
        isNumberFree_ofTexts, hfields, hconstr, hmethods, hinners]

theorem Outline.isNumberFree_toJsonAll : (os : List Outline) →
    ∀ j ∈ Outline.toJsonAll os, j.IsNumberFree
  | [] => by simp [Outline.toJsonAll]
  | o :: os => by
      rw [Outline.toJsonAll, List.forall_mem_cons]
      exact ⟨Outline.isNumberFree_toJson o, Outline.isNumberFree_toJsonAll os⟩
end

namespace CompilationUnit

/-- There are no numbers in documents of files. -/
theorem isNumberFree_document (u : CompilationUnit) (options : ExtractOptions) :
    (u.document options).IsNumberFree := by
  cases hscope : options.scope with
  | root =>
      rw [document, hscope]
      simp only [rootDocument]
      split
      · exact .object (by simp)
      · next root _ => exact root.isNumberFree_toJson.prune options.strict
  | all =>
      have htypes : (Json.array (u.types.map fun d =>
          (Outline.ofDeclaration d none).toJson.prune options.strict)).IsNumberFree :=
        .array (List.forall_mem_map.mpr fun d _ =>
          (Outline.isNumberFree_toJson _).prune options.strict)
      rw [document, hscope]
      refine .object ?_
      rw [List.forall_mem_append, List.forall_mem_singleton]
      refine ⟨?_, htypes⟩
      cases u.package <;> simp [IsNumberFree.string]

/-- **The text determines the document**: whatever characters occur in names, types,
annotations and packages, two extractions give the same text only if they give the same
document, down to the order of keys. -/
theorem render_eq_iff_document_eq (u v : CompilationUnit) (options options' : ExtractOptions) :
    u.render options = v.render options' ↔ u.document options = v.document options' := by
  constructor
  · intro h
    exact (u.isNumberFree_document options).eq_of_pretty_eq (v.isNumberFree_document options') h
  · intro h
    rw [render, render, h]

end CompilationUnit

end JavaOutline
