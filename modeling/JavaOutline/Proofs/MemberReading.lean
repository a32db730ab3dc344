import JavaOutline.Proofs.DeclarationTrees

/-!
# JavaOutline.Proofs.MemberReading

How the grammar tells a member, or a parameter, that begins with a type from all others.

A type begins with a word that is reserved for nothing else in its place, so what has a
keyword, a sign or an annotation in front is refused at once. A constructor could still
begin with such a word, and a method could still be a field; what stands behind the type
decides.
-/

namespace JavaOutline

open Source Grammar Pattern Structure

/-! ## The first word -/

/-- Which terminals may accept the first word of a type? -/
def mayBegin (place : Place) : Terminal → Bool
  | .oneOf texts => texts.any fun s => decide (BeginsType place s)
  | .joined s => decide (BeginsType place s)
  | .word _ => true
  | _ => false

theorem mayBegin_of_accepts {place : Place} {lead : List Lexeme} {w : String}
    (hw : BeginsType place w) {terminal : Terminal}
    (h : terminal.accepts (wordToken lead w) = true) : mayBegin place terminal = true := by
  cases terminal with
  | oneOf texts =>
      have hmem : w ∈ texts := by simpa [Terminal.accepts, wordToken] using h
      simpa [mayBegin] using ⟨w, hmem, hw⟩
  | joined s =>
      simp only [Terminal.accepts, wordToken, Bool.and_eq_true, beq_iff_eq] at h
      simpa [mayBegin, ← h.2] using hw
  | word except => rfl
  | literal => exact h
  | string => exact h
  | finish =>
      have hempty : w = "" := by simpa [Terminal.accepts, wordToken] using h
      have hword : isWord w = true := isWord_of_beginsType hw
      rw [hempty] at hword
      exact absurd hword (by decide)

/-- Are the words of modifiers reserved in the place? -/
def Place.ReservesModifiers (place : Place) : Prop := ∀ m ∈ modifierWords, m ∈ place.reserved

instance : DecidablePred Place.ReservesModifiers := fun place =>
  inferInstanceAs (Decidable (∀ m ∈ modifierWords, m ∈ place.reserved))

/-! ## The start of a member -/

/-- Do the tokens begin with the first word of a type, and go on as no modifier and no
constructor does? -/
def BeginsMember (place : Place) (input : List Token) : Prop :=
  ∃ lead w u ys, input = wordToken lead w :: u :: ys ∧ BeginsType place w
    ∧ u.text ∉ ["-", "(", "\x7b"]

/-- A type begins a member, if what is behind it is neither parameters nor a body. -/
theorem beginsMember_typeTree {place : Place} {t : TypeRef}
    (h : t.IsSpelled (Opening.Reads (.type place))) (lead : List Lexeme) {x : Token}
    (hx : x.text ∉ ["-", "(", "\x7b"]) (rest : List Token) :
    BeginsMember place ((typeTree lead t).tokens ++ x :: rest) := by
  obtain ⟨w, more, hwritten, hbegins, hmore⟩ := h.isWrittenAsType
  rw [hwritten.tokens]
  cases more with
  | nil => exact ⟨lead, w, x, rest, rfl, hbegins, hx⟩
  | cons u more =>
      have hu : u.text ∈ [".", "<", "["] := hmore u rfl
      have hapart : ∀ s ∈ [".", "<", "["], s ∉ ["-", "(", "\x7b"] := by decide
      exact ⟨lead, w, u, more ++ x :: rest, rfl, hbegins, hapart u.text hu⟩

/-- A pattern fails behind a name, whether or not the name is a constructor's. -/
theorem refuses_behind_name {q : Form} {t : Token} {input : List Token}
    (hq : Refuses Rule.form 0 q input) :
    Refuses Rule.form 0 (.seq constructorName q) (t :: input) := by
  cases takes_or_refuses_token (.word Place.member.reserved) t input with
  | inl h => exact h.node.seq_refuses (by simp) hq (by decide)
  | inr h => exact h.node.seq

section

variable {place : Place} {input : List Token} {lead : List Lexeme} {w : String} {u : Token}

/-- A pattern that no first word of a type begins. -/
theorem refuses_of_beginsType (hw : BeginsType place w) (n : Nat) {p : Form}
    (hp : start Rule.form (mayBegin place) n p = ⟨false, false⟩) :
    Refuses Rule.form 0 p (wordToken lead w :: input) :=
  refuses_of_start n (fun _ => mayBegin_of_accepts hw) hp

/-- Where modifiers are reserved such a word is none: the word `non` alone is not one. -/
theorem refuses_modifier (hplace : Place.ReservesModifiers place) (hw : BeginsType place w)
    (hu : u.text ≠ "-") : Refuses Rule.form 0 modifier (wordToken lead w :: u :: input) := by
  have hmodifier : w ∉ modifierWords := by
    have hprimitive : ∀ w ∈ primitiveTypes, w ∉ modifierWords := by decide
    rcases hw with hw | ⟨-, -, hw⟩
    · exact hprimitive w hw
    · exact fun hmem => hw (hplace w hmem)
  have hword : (Terminal.oneOf modifierWords).accepts (wordToken lead w) = false := by
    simpa [Terminal.accepts, wordToken] using hmodifier
  have hsign : w ≠ "@" := text_ne_of_isWord (isWord_of_beginsType hw) (by decide)
  have hdash : (Terminal.joined "-").accepts u = false := by simp [Terminal.accepts, hu]
  have hnon : Refuses Rule.form 0
      (.seq (text "non") (.seq (.token (.joined "-")) (.token (.joined "sealed"))))
      (wordToken lead w :: u :: input) := (refuses_token hdash).seq.behind_token (by decide)
  exact (refuses_token hword).choice ((refuses_annotationUse hsign).choice hnon.node)

theorem BeginsMember.refuses (h : BeginsMember place input) (n : Nat) {p : Form}
    (hp : start Rule.form (mayBegin place) n p = ⟨false, false⟩) :
    Refuses Rule.form 0 p input := by
  obtain ⟨lead, w, u, ys, rfl, hw, -⟩ := h
  exact refuses_of_beginsType hw n hp

/-- A member of an annotation type that begins so declares no type. -/
theorem BeginsMember.refuses_plainTypes (h : BeginsMember .annotationMember input) :
    ∀ p ∈ plainTypes, Refuses Rule.form 0 p input := by
  intro p hp
  refine h.refuses 1 ?_
  revert p
  decide +kernel

/-- A member of another type that begins so declares no type, not even a record. -/
theorem BeginsMember.refuses_typeForms (h : BeginsMember .member input) :
    ∀ p ∈ typeForms, Refuses Rule.form 0 p input := by
  intro p hp
  refine h.refuses 1 ?_
  revert p
  decide +kernel

theorem BeginsMember.refuses_text (h : BeginsMember place input) {s : String}
    (hs : isWord s = false) : Refuses Rule.form 0 (text s) input := by
  obtain ⟨lead, w, u, ys, rfl, hw, -⟩ := h
  exact Pattern.refuses_text (text_ne_of_isWord (isWord_of_beginsType hw) hs)

theorem BeginsMember.refuses_typeParameters (h : BeginsMember place input) :
    Refuses Rule.form 0 (.rule .typeParameters) input :=
  Refuses.rule (h.refuses_text (by decide)).seq.node

theorem BeginsMember.refuses_annotationUse (h : BeginsMember place input) :
    Refuses Rule.form 0 (.rule .annotationUse) input :=
  Refuses.rule (h.refuses_text (by decide)).seq.node

/-- It has no modifiers. -/
theorem BeginsMember.skips_modifiers (h : BeginsMember place input)
    (hplace : Place.ReservesModifiers place) : Takes Rule.form 0 modifiers input [] input := by
  obtain ⟨lead, w, u, ys, rfl, hw, hu⟩ := h
  have hdash : u.text ≠ "-" := fun he => hu (by simp [he])
  exact (refuses_modifier hplace hw hdash).seq.node.maybe

/-- A constructor has its parameters, or its body, right behind its name. -/
theorem BeginsMember.refuses_constructors (h : BeginsMember place input) :
    ∀ p ∈ [constructorForm, compactConstructorForm], Refuses Rule.form 0 p input := by
  have hgeneric : Refuses Rule.form 0 (.rule .typeParameters) input := h.refuses_typeParameters
  obtain ⟨lead, w, u, ys, rfl, -, hu⟩ := h
  have hparen : u.text ≠ "(" := fun he => hu (by simp [he])
  have hbrace : u.text ≠ "\x7b" := fun he => hu (by simp [he])
  have hparameters : Refuses Rule.form 0 (.rule (.parameters .parameter)) (u :: ys) :=
    Refuses.rule (Pattern.refuses_text hparen).seq.node
  have hblock : Refuses Rule.form 0 (.rule .block) (u :: ys) :=
    Refuses.rule (Pattern.refuses_text hbrace).seq.node
  simp only [List.forall_mem_cons]
  refine ⟨Refuses.node (hgeneric.maybe.nothing_seq_refuses ?_), Refuses.node ?_, by simp⟩
  · exact refuses_behind_name hparameters.seq
  · exact refuses_behind_name hblock

end

/-! ## Behind the type -/

section

variable {t : TypeRef} {x : Token} {rest : List Token}

/-- A name of what is no variable. -/
theorem takes_memberName {w : String} (hw : isName w = true) :
    Takes Rule.form 0 memberName (wordToken space w :: rest) [nameTree w] rest := by
  have hunderscore : w ∉ ["_"] := notMem_of_isName hw (by decide)
  have haccepts : (Terminal.word ["_"]).accepts (wordToken space w) = true := by
    simpa [Terminal.accepts, wordToken] using hunderscore
  exact (takes_token haccepts).node

/-- A type and a name begin a method. -/
theorem takes_methodHead (h : t.IsSpelled (Opening.Reads (.type .member))) {w : String}
    (hw : isName w = true) :
    Takes Rule.form 2 (methodHead .member)
      ((typeTree space t).tokens ++ wordToken space w :: rest) [typeTree space t, nameTree w]
      rest := by
  have hends : EndsType (wordToken space w) := notMem_of_isName hw (by decide)
  have hgeneric : Refuses Rule.form 0 (.rule .typeParameters)
      ((typeTree space t).tokens ++ wordToken space w :: rest) :=
    (beginsMember_typeTree h space (notMem_of_isName hw (by decide)) _).refuses_typeParameters
  exact Takes.choice_right (hgeneric.seq.mono (Nat.zero_le 2))
    ((h.takes space hends).followed ((takes_memberName hw).mono (Nat.zero_le 2)) (by decide))

/-- A method has its parameters where a field has what follows its name. -/
theorem refuses_methodForm (h : t.IsSpelled (Opening.Reads (.type .member))) {w : String}
    (hw : isName w = true) (hx : x.text ≠ "(") :
    Refuses Rule.form 2 (methodForm .member)
      ((typeTree space t).tokens ++ wordToken space w :: x :: rest) := by
  have hparameters : Refuses Rule.form 0 (.rule (.parameters .parameter)) (x :: rest) :=
    Refuses.rule (refuses_text hx).seq.node
  exact ((takes_methodHead h hw).followed_refuses (hparameters.seq.mono (Nat.zero_le 2))
    (by decide)).node

/-- A receiver has `this` behind its type, or a name and a dot. -/
theorem refuses_receiver (h : t.IsSpelled (Opening.Reads (.type .parameter)))
    (lead : List Lexeme) (hx : EndsType x) (hmember : x.text ∉ ["-", "(", "\x7b"])
    (hthis : x.text ≠ "this")
    (houter : Refuses Rule.form 0 (.seq anyWord (text ".")) (x :: rest)) :
    Refuses Rule.form 2 (receiver .parameter) ((typeTree lead t).tokens ++ x :: rest) := by
  have hbegins : BeginsMember .parameter ((typeTree lead t).tokens ++ x :: rest) :=
    beginsMember_typeTree h lead hmember _
  have hannotated : Refuses Rule.form 0 (oneOrMore (.rule .annotationUse))
      ((typeTree lead t).tokens ++ x :: rest) := hbegins.refuses_annotationUse.seq
  have htype : Takes Rule.form 2 (.rule (.type .parameter)) ((typeTree lead t).tokens ++ x :: rest)
      [typeTree lead t] (x :: rest) := h.takes lead hx
  exact ((hannotated.seq.mono (Nat.zero_le 2)).choice (htype.followed_refuses
    ((houter.many.nothing_seq_refuses (refuses_text hthis)).mono (Nat.zero_le 2))
    (by decide))).node

end

end JavaOutline
