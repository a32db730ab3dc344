import Mathlib.Logic.Relation
import JavaOutline.Proofs.JoinedFiles
import JavaOutline.Proofs.PatternCourses

/-!
# JavaOutline.Proofs.ReplacedCode

Code in a file replaced by other code.

The tokens of one piece of code, behind its opener, are replaced by others that its form
matches as well. Matching goes in step on the two files: up to the opener because they are
the same, at the opener because only the form of the code can match it (`PatternCourses`),
and behind the code because the same tokens are left (`rel_parse_kept`). So the trees agree
outside of the code, and the files are read alike.
-/

namespace JavaOutline

namespace Grammar

open Source Structure Pattern

/-! ## Code in front -/

/-- The tokens that a form of code leaves, if it matches. -/
def leaves (p : Form) (input : List Token) : Option (List Token) :=
  (parse Rule.form depthLimit p input).map Prod.snd

/-- The same tokens are left, and they stand behind the openers in both files. -/
def SameRest (v v' : List Token) (found found' : List SyntaxTree × List Token) : Prop :=
  found.2 = found'.2 ∧ found.2.length ≤ v.length ∧ found.2.length ≤ v'.length

/-- The trees agree outside of code, and the same tokens are left. -/
def SameOutside (v v' : List Token) (found found' : List SyntaxTree × List Token) : Prop :=
  hollowAll found.1 = hollowAll found'.1 ∧ SameRest v v' found found'

section

variable {o : Token} {v v' : List Token}

/-- The same may follow. -/
theorem SameOutside.append {ts ts' : List SyntaxTree} {rest more : List Token}
    (h : SameOutside v v' (ts, rest) (ts', rest)) (vs : List SyntaxTree)
    (hle : more.length ≤ rest.length) : SameOutside v v' (ts ++ vs, more) (ts' ++ vs, more) := by
  obtain ⟨htrees, -, hlen, hlen'⟩ := h
  have htrees : hollowAll ts = hollowAll ts' := htrees
  refine ⟨?_, rfl, Nat.le_trans hle hlen, Nat.le_trans hle hlen'⟩
  rw [hollowAll_append, hollowAll_append, htrees]

theorem rel_of_leaves {p : Form} (h : leaves p v = leaves p v') :
    Option.Rel (SameRest v v') (parse Rule.form depthLimit p v)
      (parse Rule.form depthLimit p v') := by
  unfold leaves at h
  cases hx : parse Rule.form depthLimit p v with
  | none =>
      rw [hx, Option.map_none, eq_comm, Option.map_eq_none_iff] at h
      rw [h]
      exact .none
  | some found =>
      rw [hx, Option.map_some, eq_comm, Option.map_eq_some_iff] at h
      obtain ⟨found', hy, hrest⟩ := h
      rw [hy]
      exact .some ⟨hrest.symm, length_le_of_parse hx, hrest ▸ length_le_of_parse hy⟩

/-- Behind the opener all depth is there. -/
theorem rel_opened {Q : List SyntaxTree × List Token → List SyntaxTree × List Token → Prop}
    {s : String} (ho : o.text = s) {p : Form}
    (h : Option.Rel (Behind Q [.leaf o] [.leaf o]) (parse Rule.form depthLimit p v)
      (parse Rule.form depthLimit p v')) (depth : Nat) :
    Option.Rel Q (parse Rule.form depth (.seq (text s) p) (o :: v))
      (parse Rule.form depth (.seq (text s) p) (o :: v')) := by
  have haccepts : (Terminal.oneOf [s]).accepts o = true := by simp [Terminal.accepts, ho]
  simp only [parse_seq, text, parse_token, haccepts, if_true, List.length_cons,
    Nat.lt_succ_self]
  exact rel_prepend h

/-- A sequence where all depth is there. -/
theorem parse_seq_depthLimit (p q : Form) (input : List Token) :
    parse Rule.form depthLimit (.seq p q) input
      = (parse Rule.form depthLimit p input).bind fun found =>
          (parse Rule.form depthLimit q found.2).map fun found' =>
            (found.1 ++ found'.1, found'.2) := by
  rw [parse_seq]
  cases hp : parse Rule.form depthLimit p input with
  | none => rfl
  | some found =>
      obtain ⟨ts, rest⟩ := found
      simp only [Option.bind_some]
      split
      · cases parse Rule.form depthLimit q rest <;> rfl
      · next hlen =>
        obtain rfl := eq_of_parse_of_length hp hlen
        cases parse Rule.form depthLimit q rest <;> rfl

/-- What follows where the same tokens are left is the same. -/
theorem rel_seq_depthLimit {p q : Form}
    (h : Option.Rel (SameOutside v v') (parse Rule.form depthLimit p v)
      (parse Rule.form depthLimit p v')) :
    Option.Rel (SameOutside v v') (parse Rule.form depthLimit (.seq p q) v)
      (parse Rule.form depthLimit (.seq p q) v') := by
  rw [parse_seq_depthLimit, parse_seq_depthLimit]
  rcases cases_of_rel h with ⟨hx, hy⟩ | ⟨ts, rest, ts', rest', hx, hy, hsame⟩
  · rw [hx, hy]
    exact .none
  · obtain rfl : rest = rest' := hsame.2.1
    rw [hx, hy, Option.bind_some, Option.bind_some]
    cases hq : parse Rule.form depthLimit q rest with
    | none => exact .none
    | some found => exact .some (hsame.append found.1 (length_le_of_parse hq))

/-- Of a node that begins with the opener nothing else is left outside of code. -/
theorem rel_opened_node {label : Label} (hlabel : codeOpening? label = some 1) {s : String}
    (ho : o.text = s) {p : Form} (h : leaves p v = leaves p v') (depth : Nat) :
    Option.Rel (SameOutside v v') (parse Rule.form depth (.node label (.seq (text s) p)) (o :: v))
      (parse Rule.form depth (.node label (.seq (text s) p)) (o :: v')) := by
  have hopened : Option.Rel
      (fun found found' => found.1.take 1 = found'.1.take 1 ∧ SameRest v v' found found')
      (parse Rule.form depth (.seq (text s) p) (o :: v))
      (parse Rule.form depth (.seq (text s) p) (o :: v')) := by
    refine rel_opened ho (rel_mono (rel_of_leaves h) ?_) depth
    exact fun _ _ _ _ hsame => ⟨rfl, hsame⟩
  refine rel_node hopened fun ts rest ts' rest' hsame => ⟨?_, hsame.2⟩
  have htake : ts.take 1 = ts'.take 1 := hsame.1
  simp only [hollowAll, hollow_code hlabel, htake]

/-- **Code matches as other code does that leaves the same tokens**, and the trees agree outside
of it. -/
theorem rel_whole (kind : CodeKind) (ho : o.text = kind.opener) {p : Form}
    (h : leaves p v = leaves p v') (depth : Nat) :
    Option.Rel (SameOutside v v') (parse Rule.form depth (kind.whole p) (o :: v))
      (parse Rule.form depth (kind.whole p) (o :: v')) := by
  cases kind with
  | block | arguments | defaultValue => exact rel_opened_node rfl ho h depth
  | value =>
      refine rel_opened ho (rel_node (rel_of_leaves h) ?_) depth
      exact fun _ _ _ _ hsame => ⟨rfl, hsame⟩
  | constants =>
      have hconstants : Option.Rel (SameOutside v v')
          (parse Rule.form depthLimit (.node .constants p) v)
          (parse Rule.form depthLimit (.node .constants p) v') :=
        rel_node (rel_of_leaves h) fun _ _ _ _ hsame => ⟨rfl, hsame⟩
      refine rel_opened ho (rel_mono (rel_seq_depthLimit (rel_seq_depthLimit hconstants)) ?_) depth
      exact fun _ _ _ _ hsame => ⟨congrArg (hollow (.leaf o) :: ·) hsame.1, hsame.2⟩

end

/-! ## Matching in step -/

/-- What matches give on two files that are the same up to an opener at `site`, from `us` on:
the opener is still ahead, at a site that the course leads to, or it is past and the trees
agree outside of the code. -/
inductive Kept (site : Site) (o : Token) (v v' : List Token) (c : Course) (us : List Token) :
    List SyntaxTree × List Token → List SyntaxTree × List Token → Prop
  | ahead (ts : List SyntaxTree) {ws : List Token} {s : Site} (hws : ws <:+ us)
      (hs : s ∈ c.sites) (hsite : s.behind ws = site) :
      Kept site o v v' c us (ts, ws ++ o :: v) (ts, ws ++ o :: v')
  | past {found found' : List SyntaxTree × List Token} (hmeets : c.meets = true)
      (hsame : SameOutside v v' found found') : Kept site o v v' c us found found'

section

variable {site : Site} {o : Token} {v v' us ws rest rest' : List Token} {c d : Course}
  {ts ts' : List SyntaxTree}

theorem Kept.mono {found found' : List SyntaxTree × List Token}
    (h : Kept site o v v' c us found found') (hcd : c.Within d) :
    Kept site o v v' d us found found' := by
  cases h with
  | ahead ts hws hs hsite => exact .ahead ts hws (hcd.sites hs) hsite
  | past hmeets hsame => exact .past (hcd.meets hmeets) hsame

theorem Kept.length_lt_iff (h : Kept site o v v' c us (ts, rest) (ts', rest')) :
    rest.length < (us ++ o :: v).length ↔ rest'.length < (us ++ o :: v').length := by
  cases h with
  | ahead => simp
  | past hmeets hsame =>
      obtain ⟨-, hrest, hlen, hlen'⟩ := hsame
      obtain rfl : rest = rest' := hrest
      simp only [List.length_append, List.length_cons]
      simp only at hlen hlen'
      constructor <;> omega

/-- Code may stand in nodes that are around code. -/
theorem Kept.node {label : Label} (hlabel : c.meets = true → isAroundCode label = true)
    (h : Kept site o v v' c us (ts, rest) (ts', rest')) :
    Kept site o v v' c us ([.node label ts], rest) ([.node label ts'], rest') := by
  cases h with
  | ahead _ hws hs hsite => exact .ahead _ hws hs hsite
  | past hmeets hsame =>
      have haround := hlabel hmeets
      have htrees : hollowAll ts = hollowAll ts' := hsame.1
      have hcode : codeOpening? label = none := by
        cases label <;> simp_all [isAroundCode, isRead, codeOpening?]
      refine .past hmeets ⟨?_, hsame.2⟩
      simp only [hollowAll, hollow_around hcode haround, htrees]

/-- Behind the same trees. -/
theorem Kept.behind {found found' : List SyntaxTree × List Token} (ts : List SyntaxTree)
    (hws : ws <:+ us) (h : Kept site o v v' c ws found found') :
    Behind (Kept site o v v' c us) ts ts found found' := by
  cases h with
  | ahead us' hxs hs hsite => exact .ahead (ts ++ us') (hxs.trans hws) hs hsite
  | past hmeets hsame =>
      refine .past hmeets ⟨?_, hsame.2⟩
      rw [hollowAll_append, hollowAll_append, hsame.1]

/-- Where all tokens are left the opener is ahead. -/
theorem Kept.eq_of_left (h : Kept site o v v' c us (ts, us ++ o :: v) (ts', us ++ o :: v')) :
    ts' = ts ∧ ∃ s ∈ c.sites, s.behind us = site := by
  generalize hfound : (ts, us ++ o :: v) = found, hfound' : (ts', us ++ o :: v') = found' at h
  cases h with
  | ahead _ hws hs hsite =>
      obtain ⟨rfl, hrest⟩ := Prod.mk.inj hfound
      obtain rfl := List.append_cancel_right hrest
      exact ⟨congrArg Prod.fst hfound', _, hs, hsite⟩
  | past hmeets hsame =>
      have hlen := hsame.2.2.1
      rw [← hfound] at hlen
      simp only [List.length_append, List.length_cons] at hlen
      omega

/-- Behind the code the files are the same. -/
theorem Kept.rel_past {depth : Nat} {q : Form} (hmeets : c.meets = true)
    (hsame : SameOutside v v' (ts, rest) (ts', rest)) :
    Option.Rel (Behind (Kept site o v v' c us) ts ts') (parse Rule.form depth q rest)
      (parse Rule.form depth q rest) := by
  exact rel_self fun vs more hq => .past hmeets (hsame.append vs (length_le_of_parse hq))

end

/-! ## Where code begins -/

section

variable {kind : CodeKind} {site : Site} {o : Token} {v v' : List Token}

/-- Other code of a kind may stand behind an opener at a site: all forms of such code there
leave the same tokens. -/
structure Replaces (kind : CodeKind) (site : Site) (o : Token) (v v' : List Token) : Prop where
  opener : o.text = kind.opener
  isMarked : IsMarked o
  exists_code : ∃ p, (kind, p) ∈ site.codes
  leaves_eq : ∀ p, (kind, p) ∈ site.codes → leaves p v = leaves p v'

variable (h : Replaces kind site o v v') {p : Form} {barred : List CodeKind} {sites : List Site}

include h

theorem Replaces.mem_awaited (hsite : site ∈ sites) (hbarred : kind ∉ barred) :
    kind ∈ awaited barred sites := by
  obtain ⟨p, hp⟩ := h.exists_code
  refine List.mem_filter.mpr ⟨?_, by simpa using hbarred⟩
  exact List.mem_map.mpr ⟨(kind, p), List.mem_flatMap.mpr ⟨site, hsite, hp⟩, rfl⟩

/-- A class that accepts the opener may do so. -/
theorem Replaces.mayOpen {terminal : Terminal} (haccepts : terminal.accepts o = true) :
    kind.mayOpen terminal = true := by
  have hdefault (hnot : o.text ∉ signMarks.map Prod.fst) : kind = .defaultValue := by
    rw [h.opener] at hnot
    cases kind with
    | defaultValue => rfl
    | _ => exact absurd (by decide +kernel) hnot
  cases terminal with
  | oneOf texts => simpa [CodeKind.mayOpen, Terminal.accepts, h.opener] using haccepts
  | joined text =>
      simp only [Terminal.accepts, Bool.and_eq_true, beq_iff_eq] at haccepts
      rw [CodeKind.mayOpen, beq_iff_eq, ← haccepts.2, h.opener]
  | word except =>
      simp only [Terminal.accepts, Bool.and_eq_true, beq_iff_eq] at haccepts
      have hkind := hdefault (h.isMarked.1 (.inl haccepts.1))
      rw [CodeKind.mayOpen, ← h.opener, hkind]
      exact haccepts.2
  | literal | string =>
      simp only [Terminal.accepts, beq_iff_eq] at haccepts
      rw [CodeKind.mayOpen, hdefault (h.isMarked.1 (by simp [haccepts]))]
      rfl
  | finish =>
      simp only [Terminal.accepts, beq_iff_eq] at haccepts
      rw [h.opener] at haccepts
      cases kind <;> simp [CodeKind.opener] at haccepts

/-- A pattern that is the form of code where the opener is next matches alike. If it is not,
its first part may be any pattern that does not look into such code. -/
theorem Replaces.rel_or_not_mem (p : Form) (meets : Bool) (reached : List Site) {s : Site}
    {us : List Token} (hs : s ∈ sites) (hsite : s.behind us = site)
    (hbarred : us = [] → kind ∉ barred) (depth : Nat) :
    Option.Rel (Kept site o v v' ⟨!(codeKinds p barred sites).isEmpty || meets, reached⟩ us)
        (parse Rule.form depth p (us ++ o :: v)) (parse Rule.form depth p (us ++ o :: v'))
      ∨ (us = [] → kind ∉ codeKinds p barred sites ++ barred) := by
  by_cases hcode : us = [] ∧ kind ∈ codeKinds p barred sites
  · obtain ⟨rfl, hmem⟩ := hcode
    obtain rfl : s = site := hsite
    obtain ⟨q, hq⟩ := h.exists_code
    have hsome := List.all_eq_true.mp (List.mem_filter.mp hmem).2 s hs
    have hnot : s.codes.all (·.1 != kind) = false :=
      List.all_eq_false.mpr ⟨(kind, q), hq, by simp⟩
    rw [hnot, Bool.false_or, List.any_eq_true] at hsome
    obtain ⟨⟨kind', q'⟩, hcodes, heq⟩ := hsome
    simp only [Bool.and_eq_true, beq_iff_eq] at heq
    obtain ⟨rfl, rfl⟩ := heq
    refine .inl (rel_mono (rel_whole kind' h.opener (h.leaves_eq q' hcodes) depth) ?_)
    intro _ _ _ _ hsame
    refine .past ?_ hsame
    rw [List.isEmpty_eq_false_iff.mpr (List.ne_nil_of_mem hmem)]
    rfl
  · refine .inr fun hnil hmem => ?_
    exact (List.mem_append.mp hmem).elim (fun hkind => hcode ⟨hnil, hkind⟩) (hbarred hnil)

/-- **Matching goes in step** on files that differ in code: from the start of any pattern to the
opener, at the opener, and behind the code. -/
theorem Replaces.rel_parse_kept {c : Course}
    (hp : course Rule.course? p barred sites = some c) {s : Site} {us : List Token}
    (hs : s ∈ sites) (hsite : s.behind us = site) (hbarred : us = [] → kind ∉ barred)
    (hmarked : ∀ t ∈ us, IsMarked t) (depth : Nat) :
    Option.Rel (Kept site o v v' c us) (parse Rule.form depth p (us ++ o :: v))
      (parse Rule.form depth p (us ++ o :: v')) := by
  generalize hinput : us ++ o :: v = input
  induction depth, p, input using parse_induction Rule.form
    generalizing barred sites c s us with
  | nothing =>
      subst hinput
      obtain rfl := Option.some.inj hp
      exact rel_nothing (.ahead [] (List.suffix_refl us) hs hsite)
  | token depth terminal =>
      subst hinput
      obtain ⟨hopen, hp⟩ := Option.ite_none_left_eq_some.mp hp
      obtain ⟨marks, hmarks, rfl⟩ := Option.map_eq_some_iff.mp hp
      cases us with
      | nil =>
          obtain rfl : s = site := hsite
          refine rel_token rfl fun haccepts => absurd ?_ hopen
          exact List.any_eq_true.mpr ⟨kind, h.mem_awaited hs (hbarred rfl), h.mayOpen haccepts⟩
      | cons t us =>
          refine rel_token rfl fun haccepts => ?_
          have hmark := mem_marks? (hmarked t (by simp)) hmarks haccepts
          refine .ahead [.leaf t] (List.suffix_cons t us) (List.mem_eraseDups.mpr ?_) hsite
          exact List.mem_flatMap.mpr ⟨s, hs, List.mem_map_of_mem hmark⟩
  | ahead depth terminal =>
      subst hinput
      obtain rfl := Option.some.inj hp
      cases us with
      | nil => exact rel_ahead rfl (.ahead [] (List.suffix_refl []) hs hsite)
      | cons t us => exact rel_ahead rfl (.ahead [] (List.suffix_refl (t :: us)) hs hsite)
  | «unless» depth terminal =>
      subst hinput
      obtain rfl := Option.some.inj hp
      cases us with
      | nil => exact rel_unless rfl (.ahead [] (List.suffix_refl []) hs hsite)
      | cons t us => exact rel_unless rfl (.ahead [] (List.suffix_refl (t :: us)) hs hsite)
  | stuck => exact .none
  | rule depth r input ih =>
      obtain ⟨d, hd, hdc⟩ := within_of_together hp hs
      obtain ⟨e, he, hed⟩ := r.agrees s d hd
      exact rel_mono (ih he (List.mem_singleton_self s) hsite (by simp) hmarked hinput)
        fun _ _ _ _ hkept => hkept.mono (hed.trans hdc)
  | node depth label p input ih =>
      obtain ⟨d, hd, hp⟩ := Option.bind_eq_some_iff.mp hp
      obtain ⟨haround, hp⟩ := Option.ite_none_left_eq_some.mp hp
      obtain rfl := Option.some.inj hp
      subst hinput
      rcases h.rel_or_not_mem (.node label p) d.meets d.sites hs hsite hbarred depth
        with hrel | hbarred'
      · exact hrel
      · refine rel_node (ih hd hs hsite hbarred' hmarked rfl) fun _ _ _ _ hkept => ?_
        refine (hkept.node fun hmeets => ?_).mono ⟨fun hmeets => ?_, fun _ => id⟩
        · by_contra hlabel
          exact haround (by simp [hlabel, hmeets])
        · rw [hmeets, Bool.or_true]
  | seq depth p q input ih₁ ih₂ ihlater =>
      obtain ⟨d, hd, hp⟩ := Option.bind_eq_some_iff.mp hp
      obtain ⟨e, he, rfl⟩ := Option.map_eq_some_iff.mp hp
      subst hinput
      rcases h.rel_or_not_mem (.seq p q) (d.meets || e.meets) e.sites hs hsite hbarred depth
        with hrel | hbarred'
      · exact hrel
      · have hwithin : e.Within
            ⟨!(codeKinds (.seq p q) barred sites).isEmpty || (d.meets || e.meets), e.sites⟩ :=
          ⟨fun hmeets => by simp [hmeets], fun _ => id⟩
        refine rel_seq (ih₁ hd hs hsite hbarred' hmarked rfl)
          (fun _ _ _ _ hkept => hkept.length_lt_iff) ?_ ?_
        · intro ts rest ts' rest' hkept hlen
          cases hkept with
          | ahead _ hws hs' hsite' =>
              have hmarked' := fun t ht => hmarked t (hws.subset ht)
              refine rel_mono (ihlater _ hlen he hs' hsite' (by simp) hmarked' rfl) ?_
              exact fun _ _ _ _ hkept => (hkept.mono hwithin).behind ts hws
          | past hmeets hsame =>
              obtain rfl : rest = rest' := hsame.2.1
              exact Kept.rel_past (by simp [hmeets]) hsame
        · intro ts ts' _ hkept
          obtain ⟨rfl, s', hs', hsite'⟩ := hkept.eq_of_left
          refine rel_mono (ih₂ he hs' hsite' (by simp) hmarked rfl) ?_
          exact fun _ _ _ _ hkept => (hkept.mono hwithin).behind ts' (List.suffix_refl us)
  | choice depth p q input ih₁ ih₂ =>
      obtain ⟨d, hd, hp⟩ := Option.bind_eq_some_iff.mp hp
      obtain ⟨e, he, rfl⟩ := Option.map_eq_some_iff.mp hp
      refine rel_choice (rel_mono (ih₁ hd hs hsite hbarred hmarked hinput) ?_)
        (rel_mono (ih₂ he hs hsite hbarred hmarked hinput) ?_)
      · exact fun _ _ _ _ hkept => hkept.mono (Course.within_join_left d e)
      · exact fun _ _ _ _ hkept => hkept.mono (Course.within_join_right d e)
  | many depth p input ih ihlater =>
      obtain ⟨hsub, d, hd, hdc, hmany⟩ := within_of_repeated hp
      have hmany : course Rule.course? (.many p) [] c.sites = some ⟨d.meets, c.sites⟩ := hmany
      subst hinput
      refine rel_many (ih hd (hsub hs) hsite (by simp) hmarked rfl)
        (fun _ _ _ _ hkept => hkept.length_lt_iff) (.ahead [] (List.suffix_refl us) (hsub hs) hsite)
        ?_ (fun _ _ hkept => hkept.mono hdc)
      intro ts rest ts' rest' hkept hlen
      cases hkept with
      | ahead _ hws hs' hsite' =>
          have hmarked' := fun t ht => hmarked t (hws.subset ht)
          refine rel_mono (ihlater _ hlen hmany (hdc.sites hs') hsite' (by simp) hmarked' rfl) ?_
          exact fun _ _ _ _ hkept => (hkept.mono ⟨hdc.meets, fun _ => id⟩).behind ts hws
      | past hmeets hsame =>
          obtain rfl : rest = rest' := hsame.2.1
          exact Kept.rel_past (hdc.meets hmeets) hsame

end

/-! ## Files -/

section

variable {kind : CodeKind} {site : Site} {o : Token} {v v' : List Token}

/-- An item in which code is replaced is an item. -/
theorem Replaces.exists_topLevel (h : Replaces kind site o v v') {us rest : List Token}
    {ts : List SyntaxTree} (hsite : siteBehind us = site) (hmarked : ∀ t ∈ us, IsMarked t)
    (hparse : parse Rule.form depthLimit (.rule .topLevel) (us ++ o :: v) = some (ts, rest))
    (hitems : ∀ t ∈ ts, isItem t = true) :
    ∃ ts' rest', parse Rule.form depthLimit (.rule .topLevel) (us ++ o :: v') = some (ts', rest')
      ∧ Kept site o v v' ⟨true, [.outside false .item]⟩ us (ts, rest) (ts', rest') := by
  have hdepth : depthLimit = 38 + 2 := rfl
  rw [hdepth] at hparse ⊢
  have hrel := h.rel_parse_kept course_itemForms (List.mem_singleton_self _) hsite
    (fun _ => List.not_mem_nil) hmarked 38
  rw [parse_itemForms hparse hitems] at hrel
  obtain ⟨ps, heq⟩ := parse_topLevel 38 (us ++ o :: v')
  rcases cases_of_rel hrel with ⟨hx, -⟩ | ⟨vs, mid, ts', rest', hx, hy, hkept⟩
  · contradiction
  · obtain ⟨rfl, rfl⟩ := Prod.mk.inj (Option.some.inj hx)
    refine ⟨ts', rest', ?_, hkept⟩
    rw [heq, hy]
    rfl

/-- **In a file of items code may be replaced**: its items are read as before, and their trees
agree outside of the code. -/
theorem Replaces.exists_many_topLevel (h : Replaces kind site o v v') {us : List Token}
    {ts : List SyntaxTree} {t : Token} (ht : t.text = "") (hsite : siteBehind us = site)
    (hmarked : ∀ t ∈ us, IsMarked t)
    (hparse : parse Rule.form depthLimit (.many (.rule .topLevel)) (us ++ o :: v) = some (ts, [t]))
    (hitems : ∀ t ∈ ts, isItem t = true) :
    ∃ ts', parse Rule.form depthLimit (.many (.rule .topLevel)) (us ++ o :: v') = some (ts', [t])
      ∧ hollowAll ts = hollowAll ts' := by
  induction hn : us.length using Nat.strongRecOn generalizing us ts with
  | ind n ih =>
      subst hn
      -- The opener is not the end of the file.
      have hend : us ++ o :: v ≠ [t] := by
        intro heq
        have hmem : o ∈ [t] := heq ▸ by simp
        have hopener := h.opener
        rw [List.mem_singleton.mp hmem, ht] at hopener
        cases kind <;> simp [CodeKind.opener] at hopener
      rcases or_of_many hparse with
        ⟨-, hrest⟩ | ⟨ts₁, mid, hfirst, ⟨hlen, ts₂, hmore, rfl⟩ | ⟨-, -, hrest⟩⟩
      · exact absurd hrest.symm hend
      · rw [List.forall_mem_append] at hitems
        obtain ⟨ts₁', mid', hfirst', hkept⟩ :=
          h.exists_topLevel hsite hmarked hfirst hitems.1
        have hlen' := hkept.length_lt_iff.mp hlen
        rw [parse_many, hfirst']
        simp only [if_pos hlen']
        cases hkept with
        | ahead _ hws hs hsite' =>
            obtain rfl := List.mem_singleton.mp hs
            have hmarked' := fun t ht => hmarked t (hws.subset ht)
            obtain ⟨ts₂', hmore', htrees⟩ :=
              ih _ (by simpa using hlen) hsite' hmarked' hmore hitems.2 rfl
            rw [hmore']
            exact ⟨_, rfl, by rw [hollowAll_append, hollowAll_append, htrees]⟩
        | past _ hsame =>
            obtain rfl : mid = mid' := hsame.2.1
            rw [hmore]
            refine ⟨_, rfl, ?_⟩
            have htrees : hollowAll ts₁ = hollowAll ts₁' := hsame.1
            rw [hollowAll_append, hollowAll_append, htrees]
      · exact absurd hrest.symm hend

end

theorem isItem_hollow (t : SyntaxTree) : isItem (hollow t) = isItem t := by
  cases t with
  | leaf => rfl
  | node label ts =>
      obtain ⟨us, hus⟩ := exists_hollow_eq label ts
      rw [hus]
      rfl

/-- What agrees with items outside of code are items. -/
theorem isItem_of_hollowAll {ts ts' : List SyntaxTree} (h : hollowAll ts = hollowAll ts')
    (hitems : ∀ t ∈ ts, isItem t = true) : ∀ t ∈ ts', isItem t = true := by
  have hall : (ts.map hollow).all isItem = true := by
    simpa [isItem_hollow] using hitems
  rw [← hollowAll_eq_map, h, hollowAll_eq_map] at hall
  simpa [isItem_hollow] using hall

end Grammar

open Grammar Source Structure

/-- The second file is the first one with the tokens of one piece of code, behind its opener,
replaced by others of the same form: what forms of such code there are at that site leave the
same tokens in both files. -/
inductive ReplacesCode (s s' : String) : Prop
  | intro (kind : CodeKind) {us v v' : List Token} {o : Token}
      (hsource : Token.ofSource s = us ++ o :: v) (hsource' : Token.ofSource s' = us ++ o :: v')
      (hopener : o.text = kind.opener) (hcode : ∃ p, (kind, p) ∈ (siteBehind us).codes)
      (hleaves : ∀ p, (kind, p) ∈ (siteBehind us).codes → leaves p v = leaves p v')

/-- Do two files differ in code of the kind behind the token of the given index? -/
def isReplacedAt (kind : CodeKind) (n : Nat) (s s' : String) : Bool :=
  let ts := Token.ofSource s
  let ts' := Token.ofSource s'
  let codes := (siteBehind (ts.take n)).codes.filter (·.1 == kind)
  ts.take n == ts'.take n && ts[n]? == ts'[n]? && ts[n]?.any (·.text == kind.opener)
    && !codes.isEmpty
    && codes.all fun c => leaves c.2 (ts.drop (n + 1)) == leaves c.2 (ts'.drop (n + 1))

theorem ReplacesCode.of_isReplacedAt (kind : CodeKind) (n : Nat) {s s' : String}
    (h : isReplacedAt kind n s s' = true) : ReplacesCode s s' := by
  simp only [isReplacedAt, Bool.and_eq_true, beq_iff_eq, Bool.not_eq_true',
    List.isEmpty_eq_false_iff] at h
  obtain ⟨⟨⟨⟨hfront, ho⟩, hopener⟩, hcode⟩, hleaves⟩ := h
  obtain ⟨o, hsome, hopener⟩ := (Option.any_eq_true ..).mp hopener
  have hsplit {ts : List Token} (hts : ts[n]? = some o) :
      ts = ts.take n ++ o :: ts.drop (n + 1) := by
    obtain ⟨hlt, rfl⟩ := List.getElem?_eq_some_iff.mp hts
    rw [← List.drop_eq_getElem_cons hlt, List.take_append_drop]
  have hsplit' := hsplit (ho.symm.trans hsome)
  rw [← hfront] at hsplit'
  refine .intro kind (hsplit hsome) hsplit' (beq_iff_eq.mp hopener) ?_ ?_
  · obtain ⟨⟨kind', p⟩, hmem⟩ := List.exists_mem_of_ne_nil _ hcode
    obtain ⟨hp, hkind⟩ := List.mem_filter.mp hmem
    rw [show kind' = kind from beq_iff_eq.mp hkind] at hp
    exact ⟨p, hp⟩
  · intro p hp
    have hmem : (kind, p) ∈ (siteBehind _).codes.filter (·.1 == kind) :=
      List.mem_filter.mpr ⟨hp, beq_self_eq_true kind⟩
    exact beq_iff_eq.mp (List.all_eq_true.mp hleaves _ hmem)

/-- **Replaced code leaves the trees outside of it as they are**, in a file of items. -/
theorem ReplacesCode.exists_unitTrees? {s s' : String} (h : ReplacesCode s s')
    {ts : List SyntaxTree} (hts : unitTrees? (Token.ofSource s) = some ts)
    (hitems : ∀ t ∈ ts, isItem t = true) :
    ∃ ts', unitTrees? (Token.ofSource s') = some ts' ∧ hollowAll ts = hollowAll ts' := by
  obtain ⟨kind, hsource, hsource', hopener, hcode, hleaves⟩ := h
  have hmarked {t : Token} (ht : t ∈ Token.ofSource s) : IsMarked t := isMarked_ofSource ht
  rw [hsource] at hmarked
  obtain ⟨us', t, rfl, ht, -, hmany⟩ := exists_of_unitTrees? hts
  rw [hsource] at hmany
  have hreplaces : Replaces kind _ _ _ _ :=
    ⟨hopener, hmarked (by simp), hcode, hleaves⟩
  obtain ⟨vs, hvs, htrees⟩ := hreplaces.exists_many_topLevel ht rfl
    (fun t ht => hmarked (List.mem_append_left _ ht)) hmany
    (fun t ht => hitems t (List.mem_append_left _ ht))
  rw [hsource']
  exact ⟨_, unitTrees?_of_many hvs ht, by rw [hollowAll_append, hollowAll_append, htrees]⟩

/-- Replacing code any number of times leaves the trees outside of it as they are. -/
theorem exists_unitTrees?_of_replacesCode {s s' : String}
    (h : Relation.ReflTransGen ReplacesCode s s') {ts : List SyntaxTree}
    (hts : unitTrees? (Token.ofSource s) = some ts) (hitems : ∀ t ∈ ts, isItem t = true) :
    ∃ ts', unitTrees? (Token.ofSource s') = some ts' ∧ hollowAll ts = hollowAll ts' := by
  induction h with
  | refl => exact ⟨ts, hts, rfl⟩
  | tail _ hstep ih =>
      obtain ⟨us, hus, htrees⟩ := ih
      obtain ⟨ts', hts', hlast⟩ :=
        hstep.exists_unitTrees? hus (isItem_of_hollowAll htrees hitems)
      exact ⟨ts', hts', htrees.trans hlast⟩

/-- **Code may be replaced**: files of items that differ in any number of pieces of code are
read alike. -/
theorem parse_eq_of_replacesCode {s s' : String} (h : Relation.ReflTransGen ReplacesCode s s')
    (hitems : HasItemsOnly s) : CompilationUnit.parse s' = CompilationUnit.parse s := by
  obtain ⟨ts, hts, hall⟩ := hitems
  obtain ⟨ts', hts', htrees⟩ := exists_unitTrees?_of_replacesCode h hts hall
  rw [CompilationUnit.parse_eq_ok_iff.mpr ⟨ts, hts, rfl⟩, CompilationUnit.parse_eq_ok_iff]
  exact ⟨ts', hts', by rw [← unitOf_hollowAll, htrees, unitOf_hollowAll]⟩

/-- The body of a constructor, that declares a class, may create an instance of one instead. -/
example : CompilationUnit.parse "class A \x7b A() \x7b new C() \x7b int y; \x7d; \x7d \x7d"
    = CompilationUnit.parse "class A \x7b A() \x7b class B \x7b\x7d \x7d \x7d" :=
  parse_eq_of_replacesCode (.single (.of_isReplacedAt .block 6 (by decide +kernel)))
    (.of_check (by decide +kernel))

end JavaOutline
