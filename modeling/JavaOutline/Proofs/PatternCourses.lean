import JavaOutline.Proofs.HiddenCode
import JavaOutline.Proofs.CodeSites

/-!
# JavaOutline.Proofs.PatternCourses

To which sites patterns lead, and where they meet code.

`course` computes from a pattern which sites may be reached behind what it takes, whatever
tokens these are, and whether there may be code among them. It has no answer if the pattern
could look into code other than by the form of that code: if it has another use for the
opener where code may begin, or holds code in a node that is not around code. What rules do
is given by a table, `Rule.course?`, and their forms agree with it (`Rule.agrees`).
-/

namespace JavaOutline.Grammar

open Source Structure Pattern

/-! ## Marks of accepted tokens -/

/-- The marks that tokens of a class may have, if the end of a file is not among them. -/
def Terminal.marks? : Terminal → Option (List Mark)
  | .oneOf texts => some (texts.map Mark.of)
  | .joined text => some [Mark.of text]
  | .word except => some (.plain :: (wordMarks.filter (!except.contains ·.1)).map Prod.snd)
  | .literal | .string => some (.plain :: .dot :: wordMarks.map Prod.snd)
  | .finish => none

/-- An accepted token has one of the marks of its class. -/
theorem mem_marks? {terminal : Terminal} {t : Token} {marks : List Mark} (ht : IsMarked t)
    (h : terminal.marks? = some marks) (haccepts : terminal.accepts t = true) :
    Mark.of t.text ∈ marks := by
  cases terminal with
  | oneOf texts =>
      obtain rfl := Option.some.inj h
      exact List.mem_map_of_mem (by simpa [Terminal.accepts] using haccepts)
  | joined text =>
      obtain rfl := Option.some.inj h
      simp only [Terminal.accepts, Bool.and_eq_true, beq_iff_eq] at haccepts
      rw [haccepts.2]
      exact List.mem_singleton_self _
  | word except =>
      obtain rfl := Option.some.inj h
      simp only [Terminal.accepts, Bool.and_eq_true, beq_iff_eq] at haccepts
      obtain ⟨hkind, hexcept⟩ := haccepts
      rcases Mark.of_not_sign (ht.1 (.inl hkind)) with hplain | ⟨hdot, -⟩ | hword
      · rw [hplain]
        exact List.mem_cons_self
      · exact absurd hdot (ht.2 hkind)
      · have hmem : (t.text, Mark.of t.text) ∈ wordMarks.filter (!except.contains ·.1) :=
          List.mem_filter.mpr ⟨hword, hexcept⟩
        exact List.mem_cons_of_mem _ (List.mem_map_of_mem hmem)
  | literal | string =>
      obtain rfl := Option.some.inj h
      simp only [Terminal.accepts, beq_iff_eq] at haccepts
      rcases Mark.of_not_sign (ht.1 (by simp [haccepts])) with hplain | ⟨-, hdot⟩ | hword
      · simp [hplain]
      · simp [hdot]
      · exact List.mem_cons_of_mem _ (List.mem_cons_of_mem _ (List.mem_map_of_mem hword))
  | finish => contradiction

/-! ## Courses -/

/-- Where matching a pattern leads: to which sites, and whether code may stand in what is
taken. -/
structure Course where
  meets : Bool
  sites : List Site
  deriving DecidableEq

/-- Does another course lead to all these sites and meet code if this one does? -/
structure Course.Within (c d : Course) : Prop where
  meets : c.meets = true → d.meets = true
  sites : c.sites ⊆ d.sites

instance (c d : Course) : Decidable (c.Within d) :=
  decidable_of_iff ((c.meets = true → d.meets = true) ∧ c.sites ⊆ d.sites)
    ⟨fun h => ⟨h.1, h.2⟩, fun h => ⟨h.1, h.2⟩⟩

/-- Either of two courses. -/
def Course.join (c d : Course) : Course :=
  ⟨c.meets || d.meets, (c.sites ++ d.sites).eraseDups⟩

/-- The courses from several sites taken together. -/
def together (course : Site → Option Course) : List Site → Option Course
  | [] => some ⟨false, []⟩
  | s :: sites => (course s).bind fun c => (together course sites).map c.join

theorem Course.within_join_left (c d : Course) : c.Within (c.join d) where
  meets h := by rw [Course.join, h, Bool.true_or]
  sites _ hs := List.mem_eraseDups.mpr (List.mem_append_left _ hs)

theorem Course.within_join_right (c d : Course) : d.Within (c.join d) where
  meets h := by rw [Course.join, h, Bool.or_true]
  sites _ hs := List.mem_eraseDups.mpr (List.mem_append_right _ hs)

theorem Course.Within.trans {c d e : Course} (h : c.Within d) (h' : d.Within e) : c.Within e where
  meets hc := h'.meets (h.meets hc)
  sites _ hs := h'.sites (h.sites hs)

/-- The courses taken together lead wherever each of them does. -/
theorem within_of_together {f : Site → Option Course} {sites : List Site} {c : Course}
    (h : together f sites = some c) {s : Site} (hs : s ∈ sites) :
    ∃ d, f s = some d ∧ d.Within c := by
  induction sites generalizing c with
  | nil => simp at hs
  | cons t sites ih =>
      obtain ⟨d, hd, hmap⟩ := Option.bind_eq_some_iff.mp h
      obtain ⟨e, he, rfl⟩ := Option.map_eq_some_iff.mp hmap
      rcases List.mem_cons.mp hs with rfl | hs
      · exact ⟨d, hd, Course.within_join_left d e⟩
      · obtain ⟨d', hd', hwithin⟩ := ih he hs
        exact ⟨d', hd', hwithin.trans (Course.within_join_right d e)⟩

/-- The course of a repetition, if its second round leads to no other sites than the first. -/
def repeated (body : List Site → Option Course) (sites : List Site) : Option Course :=
  (body sites).bind fun c =>
    if c.sites ⊆ sites then some ⟨c.meets, sites⟩
    else
      let all := (sites ++ c.sites).eraseDups
      (body all).bind fun d => if d.sites ⊆ all then some ⟨d.meets, all⟩ else none

theorem repeated_of_subset {body : List Site → Option Course} {sites : List Site} {c : Course}
    (h : body sites = some c) (hsub : c.sites ⊆ sites) :
    repeated body sites = some ⟨c.meets, sites⟩ := by
  rw [repeated, h, Option.bind_some, if_pos hsub]

/-- A repetition may go on from where it leads, and leads nowhere else. -/
theorem within_of_repeated {body : List Site → Option Course} {sites : List Site} {c : Course}
    (h : repeated body sites = some c) : sites ⊆ c.sites
      ∧ ∃ d, body c.sites = some d ∧ d.Within c
        ∧ repeated body c.sites = some ⟨d.meets, c.sites⟩ := by
  obtain ⟨d, hd, h⟩ := Option.bind_eq_some_iff.mp h
  split at h
  · next hsub =>
    obtain rfl := Option.some.inj h
    exact ⟨List.Subset.refl _, d, hd, ⟨id, hsub⟩, repeated_of_subset hd hsub⟩
  · obtain ⟨e, he, h⟩ := Option.bind_eq_some_iff.mp h
    obtain ⟨hsub, hc⟩ := Option.ite_none_right_eq_some.mp h
    obtain rfl := Option.some.inj hc
    refine ⟨fun s hs => ?_, e, he, ⟨id, hsub⟩, repeated_of_subset he hsub⟩
    exact List.mem_eraseDups.mpr (List.mem_append_left _ hs)

/-- The kinds of code that may begin at the sites, but for some. -/
def awaited (barred : List CodeKind) (sites : List Site) : List CodeKind :=
  ((sites.flatMap Site.codes).map Prod.fst).filter (!barred.contains ·)

/-- Is the pattern that of code of the kind at all sites where such code may begin? -/
def isCode (p : Form) (sites : List Site) (kind : CodeKind) : Bool :=
  sites.all fun s =>
    s.codes.all (·.1 != kind) || s.codes.any fun c => c.1 == kind && p == kind.whole c.2

/-- The kinds of code that may begin at the sites, but for some, and that the pattern is the
form of. -/
def codeKinds (p : Form) (barred : List CodeKind) (sites : List Site) : List CodeKind :=
  (awaited barred sites).filter (isCode p sites)

/-- The course of a pattern from any of the sites, given the courses of rules. Code of the
kinds `barred` is not what follows: the pattern is the first part of the form of such code. -/
def course (rules : Rule → Site → Option Course) :
    Form → List CodeKind → List Site → Option Course
  | .nothing, _, sites | .ahead _, _, sites | .unless _, _, sites => some ⟨false, sites⟩
  | .token terminal, barred, sites =>
    if (awaited barred sites).any (·.mayOpen terminal) then none
    else terminal.marks?.map fun marks => ⟨false, (sites.flatMap (marks.map ·.next)).eraseDups⟩
  | .rule r, _, sites => together (rules r) sites
  | .node label p, barred, sites =>
    let kinds := codeKinds (.node label p) barred sites
    (course rules p (kinds ++ barred) sites).bind fun c =>
      if !isAroundCode label && c.meets then none else some ⟨!kinds.isEmpty || c.meets, c.sites⟩
  | .seq p q, barred, sites =>
    let kinds := codeKinds (.seq p q) barred sites
    (course rules p (kinds ++ barred) sites).bind fun c =>
      (course rules q [] c.sites).map fun d =>
        ⟨!kinds.isEmpty || (c.meets || d.meets), d.sites⟩
  | .choice p q, barred, sites =>
    (course rules p barred sites).bind fun c => (course rules q barred sites).map c.join
  | .many p, _, sites => repeated (course rules p []) sites

/-! ## Courses of rules -/

/-- The regions that a type or more of a head may lead to. In an annotation type a word may be
the one in front of a default value. -/
def Region.further (elements : Bool) : Region → List Region
  | .item => .word :: .head :: .mixed :: if elements then [.value] else [.module]
  | .word | .head => .head :: .mixed :: if elements then [.value] else []
  | .signature => .signature :: .mixed :: if elements then [.value] else []
  | .mixed => .mixed :: if elements then [.value] else []
  | .comma => [.comma, .value]
  | region => [region]

/-- The regions where types stand in a head. -/
def typeRegions : List Region :=
  [.type, .enum, .word, .head, .constructor, .mixed, .comma, .module]

/-- Where rules lead outside of brackets, and whether they may meet code. Rules that stand only
within brackets lead nowhere. -/
def Rule.regions? (elements : Bool) : Rule → Region → Option (Bool × List Region)
  | .unit, _ | .topLevel, _ | .statement, _ => none
  | .typeDeclaration, region | .classMember, region | .interfaceMember, region =>
    if region = .item ∧ !elements then some (true, [.item]) else none
  | .annotationMember, region => if region = .item ∧ elements then some (true, [.item]) else none
  | .variable, region =>
    if region ∈ [.word, .head, .mixed, .comma, .module, .value]
    then some (true, .value :: region.further elements) else none
  | .type place, .value | .anyType place, .value | .parameters place, .value =>
    if place = .plain ∨ place = .expression then some (false, [.value]) else none
  | .expression arrows, .value | .infixPart arrows, .value | .term arrows, .value
  | .operand arrows, .value | .suffixes arrows _, .value =>
    if arrows then some (false, [.value]) else none
  | _, .value => some (false, [.value])
  | .classBody, .type => some (!elements, [.item])
  | .classBody, .constants => some (false, [.constants])
  | .block, region =>
    if region ∈ [.item, .word, .head, .signature, .mixed, .module] then some (true, [.item])
    else none
  | .parameters .parameter, .word => some (false, [.constructor])
  | .parameters .parameter, .head => some (false, [.signature])
  | .parameters .parameter, region =>
    if region ∈ [.type, .mixed, .module] then some (false, [region]) else none
  | .annotationUse, .item => some (true, [.item])
  | .annotationUse, region => if region = .sign then none else some (false, region.further elements)
  | .typeParameters, .item => some (false, Region.mixed.further elements)
  | .typeParameters, .type => some (false, [.type])
  | .type place, .item =>
    if place = .member ∨ place = .annotationMember ∧ elements
    then some (false, Region.item.further elements) else none
  | .dimensions, .signature => some (false, Region.signature.further elements)
  | .type .plain, region | .anyType .plain, region | .typeArguments, region
  | .dimensions, region =>
    if region ∈ typeRegions then some (false, region.further elements) else none
  | _, _ => none

/-- The course of a rule: within brackets all rules but those of items stay at their level. -/
def Rule.course? (r : Rule) : Site → Option Course
  | .outside elements region =>
    (r.regions? elements region).map fun c => ⟨c.1, c.2.map (.outside elements)⟩
  | .inside elements region level =>
    if r.isInner then some ⟨false, [.inside elements region level]⟩ else none

/-! ## Within brackets -/

/-- Among some sites there is only one. -/
def IsOnly (site : Site) (sites : List Site) : Prop := site ∈ sites ∧ ∀ s ∈ sites, s = site

theorem isOnly_append {site : Site} {sites sites' : List Site} (h : IsOnly site sites)
    (h' : IsOnly site sites') : IsOnly site (sites ++ sites').eraseDups := by
  constructor
  · exact List.mem_eraseDups.mpr (List.mem_append_left _ h.1)
  · intro s hs
    rcases List.mem_append.mp (List.mem_eraseDups.mp hs) with hs | hs
    · exact h.2 s hs
    · exact h'.2 s hs

section

variable {elements : Bool} {region : Region} {n n' : Nat} (k : Nat)

/-- Within brackets a site counts their levels, above the level where it began. -/
theorem next_inside {s : String} (h : levelScan.next (some n) s = some n') :
    (Site.inside elements region (n + k)).next (Mark.of s) = .inside elements region (n' + k) := by
  simp only [levelScan] at h
  rw [Site.next, Mark.isOpening_of, Mark.isClosing_of]
  split
  · next hopening =>
    rw [if_pos hopening, Option.some.injEq] at h
    rw [← h, Nat.add_right_comm]
  · next hopening =>
    rw [if_neg hopening] at h
    split
    · next hclosing =>
      rw [if_pos hclosing, Option.ite_none_left_eq_some, Option.some.injEq] at h
      rw [if_neg (by omega), ← h.2]
      congr 1
      omega
    · next hclosing =>
      rw [if_neg hclosing, Option.some.injEq] at h
      rw [h]

theorem next_inside_of_mem {mark : Mark} (h : mark ∈ .plain :: .dot :: wordMarks.map Prod.snd) :
    (Site.inside elements region n).next mark = .inside elements region n := by
  have hall : ∀ mark ∈ .plain :: .dot :: wordMarks.map Prod.snd,
      mark.isOpening = false ∧ mark.isClosing = false := by decide +kernel
  rw [Site.next, (hall mark h).1, (hall mark h).2]
  rfl

theorem exists_marks?_inside {terminal : Terminal}
    (h : afterToken levelScan (some n) terminal = some (some n')) :
    ∃ marks, terminal.marks? = some marks ∧ marks ≠ [] ∧ ∀ mark ∈ marks,
      (Site.inside elements region (n + k)).next mark = .inside elements region (n' + k) := by
  cases terminal with
  | oneOf texts =>
      refine ⟨_, rfl, ?_, ?_⟩
      · cases texts with
        | nil => contradiction
        | cons => simp
      · intro mark hmark
        obtain ⟨s, hs, rfl⟩ := List.mem_map.mp hmark
        exact next_inside k (next_eq_of_commonNext h hs)
  | joined text =>
      refine ⟨_, rfl, by simp, ?_⟩
      intro mark hmark
      obtain rfl := List.mem_singleton.mp hmark
      exact next_inside k (Option.some.inj h)
  | word except =>
      obtain rfl := Option.some.inj (Option.some.inj h)
      refine ⟨_, rfl, by simp, ?_⟩
      intro mark hmark
      refine next_inside_of_mem ?_
      rcases List.mem_cons.mp hmark with rfl | hmark
      · simp
      · obtain ⟨e, he, rfl⟩ := List.mem_map.mp hmark
        have hmem : e.2 ∈ wordMarks.map Prod.snd := List.mem_map_of_mem (List.mem_filter.mp he).1
        exact List.mem_cons_of_mem _ (List.mem_cons_of_mem _ hmem)
  | literal | string =>
      obtain rfl := Option.some.inj (Option.some.inj h)
      exact ⟨_, rfl, by simp, fun mark => next_inside_of_mem⟩
  | finish => contradiction

theorem awaited_inside {barred : List CodeKind} {sites : List Site}
    (h : IsOnly (.inside elements region n) sites) : awaited barred sites = [] := by
  have hnone : sites.flatMap Site.codes = [] :=
    List.flatMap_eq_nil_iff.mpr fun s hs => by rw [h.2 s hs]; rfl
  rw [awaited, hnone]
  rfl

theorem codeKinds_inside {p : Form} {barred : List CodeKind} {sites : List Site}
    (h : IsOnly (.inside elements region n) sites) : codeKinds p barred sites = [] := by
  rw [codeKinds, awaited_inside h, List.filter_nil]

/-- A rule that stays where it is stays there from all sites of the kind. -/
theorem together_isOnly {f : Site → Option Course} {site : Site} {sites : List Site}
    (hf : f site = some ⟨false, [site]⟩) (h : IsOnly site sites) :
    ∃ c, together f sites = some c ∧ c.meets = false ∧ IsOnly site c.sites := by
  obtain ⟨hmem, hall⟩ := h
  induction sites with
  | nil => simp at hmem
  | cons s sites ih =>
      obtain rfl := hall s (by simp)
      have hstart : IsOnly s [s] := ⟨by simp, by simp⟩
      cases sites with
      | nil =>
          refine ⟨Course.join ⟨false, [s]⟩ ⟨false, []⟩, ?_, rfl, ?_⟩
          · rw [together, hf, together, Option.bind_some, Option.map_some]
          · exact hstart
      | cons t sites =>
          have ht := hall t (by simp)
          obtain ⟨c, hc, hmeets, hcsites⟩ := ih (by simp [ht]) fun u hu => hall u (by simp [hu])
          refine ⟨Course.join ⟨false, [s]⟩ c, ?_, ?_, isOnly_append hstart hcsites⟩
          · rw [together, hf, Option.bind_some, hc, Option.map_some]
          · rw [Course.join, hmeets]
            rfl

/-- **Within brackets no code begins**, and patterns count the levels of brackets. -/
theorem course_inside {p : Form} (h : after levelScan levelStates p (some n) = some (some n'))
    (barred : List CodeKind) {sites : List Site}
    (hsites : IsOnly (.inside elements region (n + k)) sites) :
    ∃ c, course Rule.course? p barred sites = some c ∧ c.meets = false
      ∧ IsOnly (.inside elements region (n' + k)) c.sites := by
  induction p generalizing n n' barred sites with
  | nothing =>
      obtain rfl := Option.some.inj (Option.some.inj h)
      exact ⟨_, rfl, rfl, hsites⟩
  | token terminal =>
      simp only [after, Option.ite_none_left_eq_some] at h
      obtain ⟨marks, hmarks, hne, hnext⟩ := exists_marks?_inside k h.2
      rw [course, awaited_inside hsites, List.any_nil, if_neg (by simp), hmarks]
      refine ⟨_, rfl, rfl, ?_, ?_⟩
      · obtain ⟨mark, hmark⟩ := List.exists_mem_of_ne_nil _ hne
        refine List.mem_eraseDups.mpr (List.mem_flatMap.mpr ⟨_, hsites.1, ?_⟩)
        exact List.mem_map.mpr ⟨mark, hmark, hnext mark hmark⟩
      · intro s hs
        obtain ⟨t, ht, hs⟩ := List.mem_flatMap.mp (List.mem_eraseDups.mp hs)
        obtain ⟨mark, hmark, rfl⟩ := List.mem_map.mp hs
        rw [hsites.2 t ht, hnext mark hmark]
  | ahead | «unless» =>
      simp only [after, Option.ite_none_left_eq_some, Option.some.injEq] at h
      obtain rfl := h.2
      exact ⟨_, rfl, rfl, hsites⟩
  | rule r =>
      simp only [after, levelStates, Option.ite_none_right_eq_some, Option.some.injEq] at h
      obtain ⟨hinner, rfl⟩ := h
      exact together_isOnly (if_pos hinner) hsites
  | node label p ih =>
      obtain ⟨c, hc, hmeets, hcsites⟩ := ih h barred hsites
      rw [course, codeKinds_inside hsites, List.nil_append, hc]
      refine ⟨⟨false, c.sites⟩, ?_, rfl, hcsites⟩
      simp [hmeets]
  | seq p q ih₁ ih₂ =>
      obtain ⟨mid, hfirst, hsecond⟩ := Option.bind_eq_some_iff.mp h
      cases mid with
      | none => exact absurd (after_levelScan_none hsecond) (by simp)
      | some m =>
          obtain ⟨c, hc, hmeets, hcsites⟩ := ih₁ hfirst barred hsites
          obtain ⟨d, hd, hmeets', hdsites⟩ := ih₂ hsecond [] hcsites
          rw [course, codeKinds_inside hsites, List.nil_append, hc]
          refine ⟨⟨false, d.sites⟩, ?_, rfl, hdsites⟩
          simp [hd, hmeets, hmeets']
  | choice p q ih₁ ih₂ =>
      simp only [after, Option.ite_none_right_eq_some] at h
      obtain ⟨c, hc, hmeets, hcsites⟩ := ih₁ h.2 barred hsites
      obtain ⟨d, hd, hmeets', hdsites⟩ := ih₂ (h.1 ▸ h.2) barred hsites
      rw [course, hc, Option.bind_some, hd]
      exact ⟨_, rfl, by simp [Course.join, hmeets, hmeets'], isOnly_append hcsites hdsites⟩
  | many p ih =>
      simp only [after, Option.ite_none_right_eq_some, Option.some.injEq] at h
      obtain ⟨hbody, rfl⟩ := h
      obtain ⟨c, hc, hmeets, hcsites⟩ := ih hbody [] hsites
      have hsub : c.sites ⊆ sites := fun s hs => by rw [hcsites.2 s hs]; exact hsites.1
      exact ⟨_, repeated_of_subset hc hsub, hmeets, hsites⟩

end

/-! ## The table -/

/-- All regions. -/
def Region.all : List Region :=
  [.item, .sign, .type, .annotationType, .enum, .constants, .word, .head, .signature, .constructor,
    .mixed, .value, .comma, .module]

theorem Region.mem_all (region : Region) : region ∈ Region.all := by
  cases region <;> decide

/-- Does a rule agree with the table at a site? -/
def Rule.Agrees (r : Rule) (site : Site) : Prop :=
  ∀ c ∈ r.course? site, ∃ d ∈ course Rule.course? r.form [] [site], d.Within c

instance (r : Rule) (site : Site) : Decidable (r.Agrees site) :=
  inferInstanceAs (Decidable (∀ c ∈ r.course? site,
    ∃ d ∈ course Rule.course? r.form [] [site], d.Within c))

theorem Rule.agrees_outside (r : Rule) : ∀ elements ∈ [true, false], ∀ region ∈ Region.all,
    r.Agrees (.outside elements region) := by
  cases r with
  | type place | anyType place | parameters place => cases place <;> decide +kernel
  | expression arrows | infixPart arrows | term arrows | operand arrows =>
      cases arrows <;> decide +kernel
  | suffixes arrows assignable => cases arrows <;> cases assignable <;> decide +kernel
  | _ => decide +kernel

/-- **The rules lead where the table says**, from every site. -/
theorem Rule.agrees (r : Rule) (site : Site) : r.Agrees site := by
  cases site with
  | outside elements region =>
      exact r.agrees_outside elements (by cases elements <;> simp) region region.mem_all
  | inside elements region level =>
      intro c hc
      simp only [Rule.course?, Option.mem_def, Option.ite_none_right_eq_some,
        Option.some.injEq] at hc
      obtain ⟨hinner, rfl⟩ := hc
      have hstart : IsOnly (.inside elements region (0 + level))
          [.inside elements region level] := by
        rw [Nat.zero_add]
        exact ⟨List.mem_singleton_self _, fun s hs => List.mem_singleton.mp hs⟩
      have hbalanced := balanced_form r r.mem_all hinner
      obtain ⟨d, hd, hmeets, hsites⟩ := course_inside level hbalanced [] hstart
      rw [Nat.zero_add] at hsites
      exact ⟨d, hd, fun h => absurd (hmeets.symm.trans h) (by simp),
        fun s hs => List.mem_singleton.mpr (hsites.2 s hs)⟩

/-- The course of an item: code may stand in it, and behind it comes the next one. -/
theorem course_itemForms :
    course Rule.course? (any itemForms) [] [.outside false .item]
      = some ⟨true, [.outside false .item]⟩ := by
  decide +kernel

end JavaOutline.Grammar
