import JavaOutline.Outline.Build
import JavaOutline.Proofs.Lexing
import Mathlib.Data.List.Forall2

/-!
# JavaOutline.Proofs.UnambiguousTypes

The canonical text of a type can be the text of no other type, and the text of a parameter
tells its type and whether it has variable arity.

The names in question are *plain* (`IsPlainName`): they hold none of the signs that types are
written with. So a name goes on up to the next sign, and the sign tells what comes next: an
angle bracket begins arguments, a square bracket one more dimension, a comma or a closing
bracket ends the type. `EndsBefore` says that the end of a type can be told in this way from
what may stand behind it; it is shown for each way of building a type, in a section of its own,
and `IsPlainArgument.endsBefore` puts these facts together.

The restrictions matter. A wildcard bounded by an array has the text that an array of wildcards
would have, and a name that ends with a dot could end in the sign of variable arity.
-/

namespace JavaOutline

open Source

/-! ## Plain names -/

/-- The signs that types are written with besides names. -/
def typeSigns : List Char := ['<', '>', ',', '?', '[', ']']

/-- A name without signs, white space and a dot at its end. -/
structure IsPlainName (name : String) : Prop where
  ne_empty : name ≠ ""
  not_sign : ∀ c ∈ name.toList, c ∉ typeSigns
  not_white_space : ∀ c ∈ name.toList, isWhiteSpace c = false
  last_ne_dot : name.toList.getLast? ≠ some '.'

/-- Characters that would make a name longer. -/
def extendsName (c : Char) : Bool := c ∉ typeSigns

/-- Characters that would make a type without dimensions longer. -/
def extendsElement (c : Char) : Bool := extendsName c || c == '<'

/-- Characters that would make a type longer. -/
def extendsType (c : Char) : Bool := extendsElement c || c == '['

/-- In front of what does not make them longer, names are told apart. -/
theorem IsPlainName.eq_of_append_eq {name other : String} {rest rest' : List Char}
    (hname : IsPlainName name) (hother : IsPlainName other) (hrest : Stops extendsName rest)
    (hrest' : Stops extendsName rest') (h : name.toList ++ rest = other.toList ++ rest') :
    name = other ∧ rest = rest' := by
  have hrun : ∀ {n : String}, IsPlainName n → ∀ c ∈ n.toList, extendsName c = true :=
    fun hn c hc => by simpa [extendsName] using hn.not_sign c hc
  have hnames := congrArg (List.takeWhile extendsName) h
  rw [takeWhile_append_of_stops (hrun hname) hrest,
    takeWhile_append_of_stops (hrun hother) hrest', String.toList_inj] at hnames
  subst hnames
  exact ⟨rfl, List.append_cancel_left h⟩

/-- A plain name begins with a character that is no sign. -/
theorem IsPlainName.exists_toList_eq_cons {name : String} (h : IsPlainName name) :
    ∃ c cs, name.toList = c :: cs ∧ c ∉ typeSigns := by
  cases hchars : name.toList with
  | nil => exact absurd (String.toList_eq_nil_iff.mp hchars) h.ne_empty
  | cons c cs => exact ⟨c, cs, rfl, h.not_sign c (by rw [hchars]; exact List.mem_cons_self)⟩

namespace TypeRef

/-! ## Types of plain names -/

mutual
/-- A plain name, by itself or applied to arguments. -/
inductive IsPlainElement : TypeRef → Prop
  | named {name : String} (h : IsPlainName name) : IsPlainElement (.raw name)
  | applied {name : String} {args : List TypeRef} (h : IsPlainName name)
      (hargs : ∀ a ∈ args, IsPlainArgument a) : IsPlainElement (.generic (.raw name) args)

/-- Such a type, or an array of them. -/
inductive IsPlain : TypeRef → Prop
  | element {t : TypeRef} (h : IsPlainElement t) : IsPlain t
  | array {t : TypeRef} {n : Nat} (h : IsPlainElement t) (hn : 1 ≤ n) : IsPlain (.array t n)

/-- A type, or a wildcard that a type bounds if anything does. -/
inductive IsPlainArgument : TypeRef → Prop
  | type {t : TypeRef} (h : IsPlain t) : IsPlainArgument t
  | unbounded : IsPlainArgument (.wildcard none true)
  | bounded {t : TypeRef} (h : IsPlain t) (isUpper : Bool) :
      IsPlainArgument (.wildcard (some t) isUpper)
end

/-! ## Their texts -/

/-- The text of a type by characters. -/
def chars (t : TypeRef) : List Char := t.render.toList

/-- The arguments behind the first one, each behind a comma, and the closing bracket. -/
def furtherArguments (args : List TypeRef) : List Char :=
  args.flatMap (fun a => ',' :: a.chars) ++ ['>']

/-- What stands behind the opening bracket of a list of arguments. -/
def closedArguments : List TypeRef → List Char
  | [] => ['>']
  | a :: args => a.chars ++ furtherArguments args

/-- So many pairs of brackets. -/
def brackets : Nat → List Char
  | 0 => []
  | n + 1 => '[' :: ']' :: brackets n

@[simp] theorem chars_raw (name : String) : (raw name).chars = name.toList := by
  simp [chars, render]

@[simp] theorem chars_generic (base : TypeRef) (args : List TypeRef) :
    (generic base args).chars = base.chars ++ '<' :: closedArguments args := by
  cases args with
  | nil => simp [chars, render, renderAll, closedArguments]
  | cons a args =>
      simp [chars, render, renderAll_eq_map, closedArguments, furtherArguments,
        intercalate_eq_append_join, List.flatMap_map]

@[simp] theorem chars_array (element : TypeRef) (n : Nat) :
    (array element n).chars = element.chars ++ brackets n := by
  have hbrackets : (List.replicate n "[]").flatMap String.toList = brackets n := by
    induction n with
    | zero => rfl
    | succ n ih => rw [List.replicate_succ, List.flatMap_cons, ih]; rfl
  simp [chars, render, hbrackets]

@[simp] theorem chars_unbounded (isUpper : Bool) : (wildcard none isUpper).chars = ['?'] := by
  simp [chars, render]

@[simp] theorem chars_bounded (bound : TypeRef) (isUpper : Bool) :
    (wildcard (some bound) isUpper).chars
      = '?' :: ' ' :: ((if isUpper then "extends" else "super").toList ++ ' ' :: bound.chars) := by
  cases isUpper <;> simp [chars, render]

/-! ## Elements and dimensions -/

theorem IsPlainElement.array_eq_arrayOf {e : TypeRef} (h : IsPlainElement e) {n : Nat}
    (hn : 1 ≤ n) : array e n = e.arrayOf n := by
  have hne : n ≠ 0 := by omega
  cases h <;> simp [arrayOf, hne]

/-- Every type is one without dimensions and so many dimensions. -/
theorem IsPlain.exists_eq_arrayOf {t : TypeRef} (h : IsPlain t) :
    ∃ e n, IsPlainElement e ∧ t = e.arrayOf n := by
  cases h with
  | element he => exact ⟨t, 0, he, (arrayOf_zero t).symm⟩
  | array he hn => exact ⟨_, _, he, he.array_eq_arrayOf hn⟩

theorem IsPlainElement.chars_arrayOf {e : TypeRef} (h : IsPlainElement e) (n : Nat) :
    (e.arrayOf n).chars = e.chars ++ brackets n := by
  cases n with
  | zero => simp [brackets]
  | succ n => cases h <;> simp [arrayOf]

/-- A type begins with the name of its elements. -/
theorem IsPlain.exists_chars_eq_cons {t : TypeRef} (h : IsPlain t) :
    ∃ c cs, t.chars = c :: cs ∧ c ∉ typeSigns := by
  obtain ⟨e, n, he, rfl⟩ := h.exists_eq_arrayOf
  rw [he.chars_arrayOf]
  cases he with
  | named hname =>
      obtain ⟨c, cs, hcs, hc⟩ := hname.exists_toList_eq_cons
      exact ⟨c, _, by rw [chars_raw, hcs, List.cons_append], hc⟩
  | applied hname =>
      obtain ⟨c, cs, hcs, hc⟩ := hname.exists_toList_eq_cons
      exact ⟨c, _, by rw [chars_generic, chars_raw, hcs, List.cons_append, List.cons_append], hc⟩

/-! ## Where a type ends -/

/-- Among the texts of types of a sort, can the end of the text of `t` be told, and `t` with it,
if what stands behind does not make a type longer? -/
def EndsBefore (sort : TypeRef → Prop) (longer : Char → Bool) (t : TypeRef) : Prop :=
  ∀ u rest rest', sort u → Stops longer rest → Stops longer rest' →
    t.chars ++ rest = u.chars ++ rest' → t = u ∧ rest = rest'

/-! ## Arguments -/

/-- No argument begins with the bracket that closes the list. -/
theorem IsPlainArgument.exists_chars_eq_cons {a : TypeRef} (h : IsPlainArgument a) :
    ∃ c cs, a.chars = c :: cs ∧ c ≠ '>' := by
  cases h with
  | type ht =>
      obtain ⟨c, cs, hcs, hc⟩ := ht.exists_chars_eq_cons
      refine ⟨c, cs, hcs, ?_⟩
      rintro rfl
      exact hc (by decide)
  | unbounded => exact ⟨'?', [], chars_unbounded true, by decide⟩
  | bounded _ isUpper => exact ⟨'?', _, chars_bounded _ isUpper, by decide⟩

section

variable {args others : List TypeRef} {rest rest' : List Char}

/-- An argument is not made longer by what stands behind it. -/
theorem stops_furtherArguments (args : List TypeRef) (rest : List Char) :
    Stops extendsType (furtherArguments args ++ rest) := by
  cases args with
  | nil => simp [furtherArguments]; decide
  | cons a args => simp [furtherArguments]; decide

theorem furtherArguments_cons (a : TypeRef) (args : List TypeRef) :
    furtherArguments (a :: args) = ',' :: (a.chars ++ furtherArguments args) := by
  simp [furtherArguments]

/-- Behind each argument a comma or a closing bracket tells whether another one follows. -/
theorem eq_of_furtherArguments_eq
    (hargs : ∀ a ∈ args, EndsBefore IsPlainArgument extendsType a)
    (hothers : ∀ a ∈ others, IsPlainArgument a)
    (h : furtherArguments args ++ rest = furtherArguments others ++ rest') :
    args = others ∧ rest = rest' := by
  induction args generalizing others with
  | nil =>
      cases others with
      | nil => simpa [furtherArguments] using h
      | cons b others => simp [furtherArguments] at h
  | cons a args ih =>
      cases others with
      | nil => simp [furtherArguments] at h
      | cons b others =>
          rw [List.forall_mem_cons] at hargs hothers
          simp only [furtherArguments_cons, List.cons_append, List.append_assoc, List.cons.injEq,
            true_and] at h
          obtain ⟨rfl, hfurther⟩ := hargs.1 b _ _ hothers.1 (stops_furtherArguments _ _)
            (stops_furtherArguments _ _) h
          obtain ⟨rfl, hrest⟩ := ih hargs.2 hothers.2 hfurther
          exact ⟨rfl, hrest⟩

/-- **Lists of arguments are told apart by their arguments.** -/
theorem eq_of_closedArguments_eq
    (hargs : ∀ a ∈ args, EndsBefore IsPlainArgument extendsType a)
    (hargs' : ∀ a ∈ args, IsPlainArgument a) (hothers : ∀ a ∈ others, IsPlainArgument a)
    (h : closedArguments args ++ rest = closedArguments others ++ rest') :
    args = others ∧ rest = rest' := by
  cases args with
  | nil =>
      cases others with
      | nil => simpa [closedArguments] using h
      | cons b others =>
          obtain ⟨c, cs, hcs, hc⟩ := (hothers b List.mem_cons_self).exists_chars_eq_cons
          simp [closedArguments, hcs, hc.symm] at h
  | cons a args =>
      cases others with
      | nil =>
          obtain ⟨c, cs, hcs, hc⟩ := (hargs' a List.mem_cons_self).exists_chars_eq_cons
          simp [closedArguments, hcs, hc] at h
      | cons b others =>
          rw [List.forall_mem_cons] at hargs hothers
          simp only [closedArguments, List.append_assoc] at h
          obtain ⟨rfl, hfurther⟩ := hargs.1 b _ _ hothers.1 (stops_furtherArguments _ _)
            (stops_furtherArguments _ _) h
          obtain ⟨rfl, hrest⟩ := eq_of_furtherArguments_eq hargs.2 hothers.2 hfurther
          exact ⟨rfl, hrest⟩

end

/-! ## Types without dimensions -/

theorem endsBefore_named {name : String} (h : IsPlainName name) :
    EndsBefore IsPlainElement extendsElement (raw name) := by
  intro u rest rest' hu hrest hrest' heq
  have hstop : Stops extendsName rest := hrest.mono (by simp +contextual [extendsElement])
  cases hu with
  | named hother =>
      rw [chars_raw, chars_raw] at heq
      obtain ⟨rfl, hrests⟩ := h.eq_of_append_eq hother hstop
        (hrest'.mono (by simp +contextual [extendsElement])) heq
      exact ⟨rfl, hrests⟩
  | applied hother =>
      rw [chars_raw, chars_generic, chars_raw, List.append_assoc, List.cons_append] at heq
      obtain ⟨-, rfl⟩ := h.eq_of_append_eq hother hstop (stops_cons.mpr (by decide)) heq
      rw [stops_cons] at hrest
      exact absurd hrest (by decide)

theorem endsBefore_applied {name : String} {args : List TypeRef} (h : IsPlainName name)
    (hplain : ∀ a ∈ args, IsPlainArgument a)
    (hargs : ∀ a ∈ args, EndsBefore IsPlainArgument extendsType a) :
    EndsBefore IsPlainElement extendsElement (generic (raw name) args) := by
  intro u rest rest' hu hrest hrest' heq
  rw [chars_generic, chars_raw, List.append_assoc, List.cons_append] at heq
  have hangle : ∀ cs, Stops extendsName ('<' :: cs) := fun _ => stops_cons.mpr (by decide)
  cases hu with
  | named hother =>
      rw [chars_raw] at heq
      obtain ⟨-, rfl⟩ := h.eq_of_append_eq hother (hangle _)
        (hrest'.mono (by simp +contextual [extendsElement])) heq
      rw [stops_cons] at hrest'
      exact absurd hrest' (by decide)
  | applied hother hothers =>
      rw [chars_generic, chars_raw, List.append_assoc, List.cons_append] at heq
      obtain ⟨rfl, hinner⟩ := h.eq_of_append_eq hother (hangle _) (hangle _) heq
      obtain ⟨rfl, hrests⟩ := eq_of_closedArguments_eq hargs hplain hothers (List.cons.inj hinner).2
      exact ⟨rfl, hrests⟩

/-! ## Dimensions -/

theorem stops_brackets (n : Nat) {rest : List Char} (h : Stops extendsType rest) :
    Stops extendsElement (brackets n ++ rest) := by
  cases n with
  | zero => exact h.mono (by simp +contextual [extendsType])
  | succ n =>
      rw [brackets, List.cons_append, stops_cons]
      decide

/-- Brackets are counted up to what does not make the type longer. -/
theorem eq_of_brackets_eq {n m : Nat} {rest rest' : List Char} (hrest : Stops extendsType rest)
    (hrest' : Stops extendsType rest') (h : brackets n ++ rest = brackets m ++ rest') :
    n = m ∧ rest = rest' := by
  have hbracket : ∀ cs, ¬ Stops extendsType ('[' :: cs) := fun _ hstop => by
    rw [stops_cons] at hstop
    exact absurd hstop (by decide)
  induction n generalizing m with
  | zero =>
      cases m with
      | zero => exact ⟨rfl, h⟩
      | succ m =>
          rw [brackets, List.nil_append] at h
          exact absurd (h ▸ hrest) (hbracket _)
  | succ n ih =>
      cases m with
      | zero =>
          rw [brackets, brackets, List.nil_append] at h
          exact absurd (h ▸ hrest') (hbracket _)
      | succ m =>
          simp only [brackets, List.cons_append, List.cons.injEq, true_and] at h
          obtain ⟨rfl, hrests⟩ := ih h
          exact ⟨rfl, hrests⟩

theorem endsBefore_arrayOf {e : TypeRef} (he : IsPlainElement e)
    (h : EndsBefore IsPlainElement extendsElement e) (n : Nat) :
    EndsBefore IsPlain extendsType (e.arrayOf n) := by
  intro u rest rest' hu hrest hrest' heq
  obtain ⟨f, m, hf, rfl⟩ := hu.exists_eq_arrayOf
  rw [he.chars_arrayOf, hf.chars_arrayOf, List.append_assoc, List.append_assoc] at heq
  obtain ⟨rfl, hbrackets⟩ := h f _ _ hf (stops_brackets n hrest) (stops_brackets m hrest') heq
  obtain ⟨rfl, hrests⟩ := eq_of_brackets_eq hrest hrest' hbrackets
  exact ⟨rfl, hrests⟩

/-! ## Wildcards -/

/-- A question mark does not begin a type. -/
theorem IsPlain.chars_append_ne {t : TypeRef} (h : IsPlain t) (rest cs : List Char) :
    t.chars ++ rest ≠ '?' :: cs := by
  obtain ⟨c, ds, hds, hc⟩ := h.exists_chars_eq_cons
  rw [hds]
  rintro heq
  rw [List.cons_append, List.cons.injEq] at heq
  exact hc (heq.1 ▸ by decide)

theorem endsBefore_type {t : TypeRef} (ht : IsPlain t) (h : EndsBefore IsPlain extendsType t) :
    EndsBefore IsPlainArgument extendsType t := by
  intro u rest rest' hu hrest hrest' heq
  cases hu with
  | type hu => exact h u rest rest' hu hrest hrest' heq
  | unbounded =>
      rw [chars_unbounded] at heq
      exact absurd heq (ht.chars_append_ne _ _)
  | bounded _ isUpper =>
      rw [chars_bounded] at heq
      exact absurd heq (ht.chars_append_ne _ _)

/-- A blank would make the wildcard longer. -/
theorem not_stops_blank (cs : List Char) : ¬ Stops extendsType (' ' :: cs) := by
  rw [stops_cons]
  decide

theorem endsBefore_unbounded : EndsBefore IsPlainArgument extendsType (wildcard none true) := by
  intro u rest rest' hu hrest hrest' heq
  rw [chars_unbounded] at heq
  cases hu with
  | type hu => exact absurd heq.symm (hu.chars_append_ne _ _)
  | unbounded =>
      rw [chars_unbounded] at heq
      exact ⟨rfl, (List.cons.inj heq).2⟩
  | bounded _ isUpper =>
      rw [chars_bounded] at heq
      simp only [List.cons_append, List.nil_append, List.cons.injEq, true_and] at heq
      exact absurd (heq ▸ hrest) (not_stops_blank _)

theorem endsBefore_bounded {t : TypeRef} (h : EndsBefore IsPlain extendsType t) (isUpper : Bool) :
    EndsBefore IsPlainArgument extendsType (wildcard (some t) isUpper) := by
  intro u rest rest' hu hrest hrest' heq
  rw [chars_bounded] at heq
  cases hu with
  | type hu => exact absurd heq.symm (hu.chars_append_ne _ _)
  | unbounded =>
      rw [chars_unbounded] at heq
      simp only [List.cons_append, List.nil_append, List.cons.injEq, true_and] at heq
      exact absurd (heq ▸ hrest') (not_stops_blank _)
  | @bounded bound hbound isUpper' =>
      rw [chars_bounded] at heq
      simp only [List.cons_append, List.append_assoc, List.cons.injEq, true_and] at heq
      -- the words between question mark and bound differ in their first letters
      obtain rfl : isUpper = isUpper' := by
        cases isUpper <;> cases isUpper' <;> simp_all
      have hbounds := (List.cons.inj (List.append_cancel_left heq)).2
      obtain ⟨rfl, hrests⟩ := h bound rest rest' hbound hrest hrest' hbounds
      exact ⟨rfl, hrests⟩

/-! ## All types -/

mutual
theorem IsPlainElement.endsBefore : {t : TypeRef} → IsPlainElement t →
    EndsBefore IsPlainElement extendsElement t
  | _, .named h => endsBefore_named h
  | _, .applied h hargs => endsBefore_applied h hargs fun a ha => (hargs a ha).endsBefore

theorem IsPlain.endsBefore : {t : TypeRef} → IsPlain t → EndsBefore IsPlain extendsType t
  | t, .element h => by
      rw [← arrayOf_zero t]
      exact endsBefore_arrayOf h h.endsBefore 0
  | .array _ n, .array h hn => by
      rw [h.array_eq_arrayOf hn]
      exact endsBefore_arrayOf h h.endsBefore n

/-- **The end of every argument can be told**, by induction on how it is built. -/
theorem IsPlainArgument.endsBefore : {a : TypeRef} → IsPlainArgument a →
    EndsBefore IsPlainArgument extendsType a
  | _, .type h => endsBefore_type h h.endsBefore
  | _, .unbounded => endsBefore_unbounded
  | _, .bounded h isUpper => endsBefore_bounded h.endsBefore isUpper
end

/-- Types and wildcards have different texts unless they are the same. -/
theorem IsPlainArgument.eq_of_render_eq {t u : TypeRef} (ht : IsPlainArgument t)
    (hu : IsPlainArgument u) (h : t.render = u.render) : t = u := by
  have hchars : t.chars ++ [] = u.chars ++ [] := by rw [chars, chars, h]
  exact (ht.endsBefore u [] [] hu (stops_nil _) (stops_nil _) hchars).1

/-! ## Parameters -/

/-- No type ends with a dot. -/
theorem IsPlain.getLast?_chars_ne {t : TypeRef} (h : IsPlain t) : t.chars.getLast? ≠ some '.' := by
  obtain ⟨e, n, he, rfl⟩ := h.exists_eq_arrayOf
  rw [he.chars_arrayOf]
  cases n with
  | zero =>
      rw [brackets, List.append_nil]
      cases he with
      | named hname =>
          rw [chars_raw]
          exact hname.last_ne_dot
      | @applied name args =>
          have hlast : (closedArguments args).getLast? = some '>' := by
            cases args <;> simp [closedArguments, furtherArguments, List.getLast?_append]
          simp [List.getLast?_append, List.getLast?_cons, hlast]
  | succ n =>
      have hlast : ∀ m, (brackets (m + 1)).getLast? = some ']' := by
        intro m
        induction m with
        | zero => rfl
        | succ m ih => rw [brackets, List.getLast?_cons, List.getLast?_cons, ih]; rfl
      simp [List.getLast?_append, hlast]

end TypeRef

open TypeRef

/-- Two parameters of one type and one arity; their names may differ. -/
def Parameter.Alike (p q : Parameter) : Prop := p.type = q.type ∧ p.isVarargs = q.isVarargs

theorem Parameter.toList_render (p : Parameter) :
    p.render.toList = p.type.chars ++ if p.isVarargs then ['.', '.', '.'] else [] := by
  cases h : p.isVarargs <;> simp [Parameter.render, chars, h]

/-- Only the sign of variable arity ends with a dot. -/
theorem Parameter.isVarargs_iff {p : Parameter} (h : p.type.IsPlain) :
    p.isVarargs = true ↔ p.render.toList.getLast? = some '.' := by
  have hlast := h.getLast?_chars_ne
  cases hv : p.isVarargs <;> simp [p.toList_render, hv, List.getLast?_append, hlast]

/-- The text of a parameter tells its type and its arity. -/
theorem Parameter.alike_of_render_eq {p q : Parameter} (hp : p.type.IsPlain) (hq : q.type.IsPlain)
    (h : p.render = q.render) : p.Alike q := by
  have harity : p.isVarargs = q.isVarargs := by
    rw [Bool.eq_iff_iff, isVarargs_iff hp, isVarargs_iff hq, h]
  have hchars : p.type.chars = q.type.chars := by
    have htexts := congrArg String.toList h
    rw [p.toList_render, q.toList_render, harity] at htexts
    exact List.append_cancel_right htexts
  exact ⟨(IsPlainArgument.type hp).eq_of_render_eq (.type hq) (String.toList_inj.mp hchars), harity⟩

/-- The texts of parameters tell types and arities one by one. -/
theorem Parameter.forall₂_of_map_render_eq {ps qs : List Parameter}
    (hps : ∀ p ∈ ps, p.type.IsPlain) (hqs : ∀ q ∈ qs, q.type.IsPlain)
    (h : ps.map Parameter.render = qs.map Parameter.render) :
    List.Forall₂ Parameter.Alike ps qs := by
  induction ps generalizing qs with
  | nil =>
      cases qs with
      | nil => exact .nil
      | cons q qs => simp at h
  | cons p ps ih =>
      cases qs with
      | nil => simp at h
      | cons q qs =>
          rw [List.forall_mem_cons] at hps hqs
          rw [List.map_cons, List.map_cons, List.cons.injEq] at h
          exact .cons (alike_of_render_eq hps.1 hqs.1 h.1) (ih hps.2 hqs.2 h.2)

/-- **Rendering is unambiguous**: types and wildcards of plain names that have one text are the
same, and lists of parameters that have the same texts have the same types and the same arities,
one by one. -/
theorem rendered_types_unambiguous :
    (∀ t u : TypeRef, t.IsPlainArgument → u.IsPlainArgument → t.render = u.render → t = u)
      ∧ ∀ ps qs : List Parameter, (∀ p ∈ ps, p.type.IsPlain) → (∀ q ∈ qs, q.type.IsPlain) →
          ps.map Parameter.render = qs.map Parameter.render →
          List.Forall₂ Parameter.Alike ps qs :=
  ⟨fun _ _ ht hu h => ht.eq_of_render_eq hu h,
    fun _ _ hps hqs h => Parameter.forall₂_of_map_render_eq hps hqs h⟩

/-- An array of maps whose values are bounded from below by an array. -/
def sampleMaps : TypeRef :=
  .array (.generic (.raw "java.util.Map")
    [.wildcard none true, .wildcard (some (.array (.raw "int") 1)) false]) 2

theorem isPlain_sampleMaps : sampleMaps.IsPlain := by
  have hmap : IsPlainName "java.util.Map" :=
    ⟨by decide, by simp [typeSigns], by simp; decide, by decide⟩
  have hint : IsPlainName "int" := ⟨by decide, by simp [typeSigns], by simp; decide, by decide⟩
  refine .array (.applied hmap ?_) (by decide)
  simp only [List.forall_mem_cons, List.not_mem_nil, false_imp_iff, implies_true, and_true]
  exact ⟨.unbounded, .bounded (.array (.named hint) (by decide)) false⟩

/-- The same array, its dimensions added one by one. -/
theorem rendered_types_unambiguous_sampleMaps :
    let t := ((TypeRef.applied "java.util.Map" [.wildcard none true,
      .wildcard (some ((TypeRef.raw "int").arrayOf 1)) false]).arrayOf 1).arrayOf 1
    t.IsPlainArgument ∧ sampleMaps.IsPlainArgument ∧ t.render = sampleMaps.render
      ∧ t = sampleMaps
      ∧ List.Forall₂ Parameter.Alike [⟨"xs", sampleMaps, true⟩] [⟨"ys", t, true⟩] := by
  intro t
  have ht : t.IsPlain := isPlain_sampleMaps
  have hrender : t.render = sampleMaps.render := rfl
  refine ⟨.type ht, .type isPlain_sampleMaps, hrender,
    rendered_types_unambiguous.1 t sampleMaps (.type ht) (.type isPlain_sampleMaps) hrender,
    rendered_types_unambiguous.2 _ _ ?_ ?_ rfl⟩
  · simpa using isPlain_sampleMaps
  · simpa using ht

/-- A wildcard that is no argument makes texts ambiguous. -/
example : (TypeRef.wildcard (some ((TypeRef.raw "T").arrayOf 1)) true).render
    = ((TypeRef.wildcard (some (.raw "T")) true).arrayOf 1).render := by
  decide

end JavaOutline
