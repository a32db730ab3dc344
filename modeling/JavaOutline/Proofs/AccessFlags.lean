import JavaOutline.Proofs.ModifierRules
import JavaOutline.Structure.Unit

/-!
# JavaOutline.Proofs.AccessFlags

How many of the flags `public`, `protected` and `private` an entry of an outline sets.

Java adds `public` to fields of interfaces and annotation types and to methods of interfaces, and
keywords that are written always count. So the flags for access are those of the keywords and
perhaps `public`: what is written with at most one of the keywords has at most one of the flags,
unless `public` is added to another one (`Reflects.setsOneAccess_iff`). All else follows from the
rules for modifiers, without a look at how outlines are built: types and constructors have at
most one of the flags, fields and methods too but for the members that Java makes public and that
are written `protected` or `private`. This is so in every unit (`throughout_keepsAccess`), in
particular in one that is read from a source (`access_flags_exclusive`). An interface may well have
such members, so the exception is no empty one (`restricted_members_made_public`).
-/

namespace JavaOutline

/-! ## Keywords and flags for access -/

/-- The keywords for access. -/
def accessKeywords : List Modifier := [.publicAccess, .protectedAccess, .privateAccess]

/-- At most one of the keywords for access is among the modifiers. -/
def HasOneAccess (ms : List Modifier) : Prop :=
  ∀ a ∈ accessKeywords, ∀ b ∈ accessKeywords, a ∈ ms → b ∈ ms → a = b

/-- A keyword restricts access. -/
def RestrictsAccess (ms : List Modifier) : Prop := .protectedAccess ∈ ms ∨ .privateAccess ∈ ms

/-- At most one of the flags for access is set. -/
def SetsOneAccess (flag? : Modifier → Option Bool) : Prop :=
  ∀ a ∈ accessKeywords, ∀ b ∈ accessKeywords, flag? a = some true → flag? b = some true → a = b

instance (ms : List Modifier) : Decidable (HasOneAccess ms) := by
  unfold HasOneAccess
  infer_instance

instance (flag? : Modifier → Option Bool) : Decidable (SetsOneAccess flag?) := by
  unfold SetsOneAccess
  infer_instance

/-! ## Flags that follow from keywords -/

section

variable {flag? : Modifier → Option Bool} {ms : List Modifier} {exempt : Modifier → Prop}
variable {implicit : Prop}

/-- **Added to a keyword, `public` makes a second flag.** Where the flags for access are those of
the keywords, and `public` besides if it is implicit, at most one is set unless `public` is
implicit and another keyword is written. -/
theorem setsOneAccess_iff
    (hflag : ∀ a ∈ accessKeywords, flag? a = some true ↔ a ∈ ms ∨ implicit ∧ a = .publicAccess)
    (hms : HasOneAccess ms) : SetsOneAccess flag? ↔ ¬ (implicit ∧ RestrictsAccess ms) := by
  constructor
  · rintro hone ⟨himplicit, hrestricts⟩
    have hpublic := (hflag .publicAccess (by decide)).mpr (.inr ⟨himplicit, rfl⟩)
    rcases hrestricts with hprotected | hprivate
    · have hset := (hflag .protectedAccess (by decide)).mpr (.inl hprotected)
      cases hone _ (by decide) _ (by decide) hpublic hset
    · have hset := (hflag .privateAccess (by decide)).mpr (.inl hprivate)
      cases hone _ (by decide) _ (by decide) hpublic hset
  · intro hnone
    -- a keyword next to an implicit `public` is `public` written out
    have hsame : ∀ b ∈ accessKeywords, implicit → b ∈ ms → b = .publicAccess := by
      intro b hb himplicit hwritten
      have hunrestricted : ¬ RestrictsAccess ms := fun h => hnone ⟨himplicit, h⟩
      simp only [accessKeywords, List.mem_cons, List.not_mem_nil, or_false] at hb
      rcases hb with rfl | rfl | rfl
      · rfl
      · exact absurd (.inl hwritten) hunrestricted
      · exact absurd (.inr hwritten) hunrestricted
    intro a ha b hb hseta hsetb
    rcases (hflag a ha).mp hseta with hwrittena | ⟨himplicit, rfl⟩
    · rcases (hflag b hb).mp hsetb with hwrittenb | ⟨himplicit, rfl⟩
      · exact hms a ha b hb hwrittena hwrittenb
      · exact hsame a ha himplicit hwrittena
    · rcases (hflag b hb).mp hsetb with hwrittenb | ⟨-, rfl⟩
      · exact (hsame b hb himplicit hwrittenb).symm
      · rfl

/-- So it is with flags that say whether their keyword is written, `public` apart where it is
implicit. -/
theorem Reflects.setsOneAccess_iff (h : Reflects flag? ms exempt)
    (hflag : ∀ a ∈ accessKeywords, (flag? a).isSome = true)
    (hexempt : ∀ a ∈ accessKeywords, exempt a ↔ implicit ∧ a = .publicAccess)
    (hpublic : implicit → flag? .publicAccess = some true) (hms : HasOneAccess ms) :
    SetsOneAccess flag? ↔ ¬ (implicit ∧ RestrictsAccess ms) := by
  refine JavaOutline.setsOneAccess_iff (fun a ha => ?_) hms
  by_cases hsettled : implicit ∧ a = .publicAccess
  · obtain ⟨himplicit, rfl⟩ := hsettled
    simp [hpublic himplicit, himplicit]
  · obtain ⟨flag, hset⟩ := Option.isSome_iff_exists.mp (hflag a ha)
    have hwritten := h a flag hset fun he => hsettled ((hexempt a ha).mp he)
    rw [hset, Option.some.injEq, hwritten, or_iff_left hsettled]

/-- Where `public` is never implicit, keywords for access are flags. -/
theorem Reflects.setsOneAccess (h : Reflects flag? ms exempt)
    (hflag : ∀ a ∈ accessKeywords, (flag? a).isSome = true)
    (hexempt : ∀ a ∈ accessKeywords, ¬ exempt a) (hms : HasOneAccess ms) :
    SetsOneAccess flag? := by
  have hnever : ∀ a ∈ accessKeywords, exempt a ↔ False ∧ a = .publicAccess := fun a ha => by
    simp [hexempt a ha]
  rw [h.setsOneAccess_iff hflag hnever nofun hms]
  exact fun hboth => hboth.1

end

theorem TypeFlags.isSome_flag? (f : TypeFlags) :
    ∀ a ∈ accessKeywords, (f.flag? a).isSome = true := by
  simp [accessKeywords, flag?]

theorem FieldFlags.isSome_flag? (f : FieldFlags) :
    ∀ a ∈ accessKeywords, (f.flag? a).isSome = true := by
  simp [accessKeywords, flag?]

theorem ConstructorFlags.isSome_flag? (f : ConstructorFlags) :
    ∀ a ∈ accessKeywords, (f.flag? a).isSome = true := by
  simp [accessKeywords, flag?]

theorem MethodFlags.isSome_flag? (f : MethodFlags) :
    ∀ a ∈ accessKeywords, (f.flag? a).isSome = true := by
  simp [accessKeywords, flag?]

/-! ## Declarations and outlines -/

/-- A type and its fields, constructors and methods are written with at most one of the keywords
for access each, those of its nested types apart. -/
structure Declaration.WritesOneAccess (d : Declaration) : Prop where
  type : HasOneAccess d.modifiers
  fields : ∀ f ∈ d.fields, HasOneAccess f.modifiers
  constructors : ∀ c ∈ d.constructors, HasOneAccess c.modifiers
  methods : ∀ m ∈ d.methods, HasOneAccess m.modifiers

instance (d : Declaration) : Decidable d.WritesOneAccess :=
  decidable_of_iff (HasOneAccess d.modifiers ∧ (∀ f ∈ d.fields, HasOneAccess f.modifiers)
      ∧ (∀ c ∈ d.constructors, HasOneAccess c.modifiers)
      ∧ ∀ m ∈ d.methods, HasOneAccess m.modifiers)
    ⟨fun ⟨type, fields, constructors, methods⟩ => ⟨type, fields, constructors, methods⟩,
      fun h => ⟨h.type, h.fields, h.constructors, h.methods⟩⟩

/-- The flags for access in the outline of a declaration, those of its nested types apart: each
entry sets at most one of them, but for the members that Java makes public and that are written
`protected` or `private`. -/
structure Outline.KeepsAccess (d : Declaration) (o : Outline) : Prop where
  type : SetsOneAccess o.flags.flag?
  components : o.kind = .recordType → List.Forall₂ (fun (p : Parameter) (f : FieldOutline) =>
      f.name = p.name ∧ SetsOneAccess f.flags.flag?)
    d.components (o.fields.take d.components.length)
  fields : List.Forall₂ (fun (x : Field × Variable) (f : FieldOutline) => f.name = x.2.name
      ∧ (SetsOneAccess f.flags.flag?
        ↔ ¬ (o.kind ∈ [.interfaceType, .annotationType] ∧ RestrictsAccess x.1.modifiers)))
    d.variables (o.fields.drop (if o.kind = .recordType then d.components.length else 0))
  constructors : List.Forall₂ (fun (c : Constructor) (x : ConstructorOutline) =>
      x.name = c.name ∧ SetsOneAccess x.flags.flag?)
    d.constructors o.constructors
  methods : o.kind ≠ .annotationType → List.Forall₂ (fun (m : Method) (x : MethodEntry) =>
      ∃ mo, x = .method mo ∧ mo.name = m.name ∧ (SetsOneAccess mo.flags.flag?
        ↔ ¬ (o.kind = .interfaceType ∧ RestrictsAccess m.modifiers)))
    d.methods o.methods
  /-- What an annotation type lists instead of methods has no flags. -/
  elements : o.kind = .annotationType → ∀ x ∈ o.methods, ∃ e, x = .element e

/-- What holds of all items on the right holds next to what relates them to those on the left. -/
theorem forall₂_and_right {R : α → β → Prop} {p : β → Prop} {xs : List α} {ys : List β}
    (h : List.Forall₂ R xs ys) (hp : ∀ y ∈ ys, p y) :
    List.Forall₂ (fun x y => p y ∧ R x y) xs ys := by
  induction h with
  | nil => exact .nil
  | cons hxy _ ih =>
      rw [List.forall_mem_cons] at hp
      exact .cons ⟨hp.1, hxy⟩ (ih hp.2)

theorem Declaration.WritesOneAccess.variables {d : Declaration} (h : d.WritesOneAccess) :
    ∀ x ∈ d.variables, HasOneAccess x.1.modifiers := by
  intro x hx
  rw [Declaration.variables, List.mem_flatMap] at hx
  obtain ⟨f, hf, hx⟩ := hx
  obtain ⟨v, -, rfl⟩ := List.mem_map.mp hx
  exact h.fields f hf

/-- **The rules for modifiers settle access.** -/
theorem Outline.KeepsModifierRules.keepsAccess {d : Declaration} {enclosing : Option Kind}
    {o : Outline} (h : KeepsModifierRules d enclosing o) (hd : d.WritesOneAccess) :
    KeepsAccess d o where
  type := h.typeFlags.setsOneAccess o.flags.isSome_flag?
    (by simp [accessKeywords, Kind.SettlesType]) hd.type
  components hrecord := (h.components hrecord).imp fun p f hf =>
    ⟨hf.1, hf.2.2.setsOneAccess f.flags.isSome_flag? (by simp) (by decide)⟩
  fields := by
    have hpublic : ∀ f ∈ o.fields.drop (if o.kind = .recordType then d.components.length else 0),
        o.kind ∈ [.interfaceType, .annotationType] → f.flags.flag? .publicAccess = some true :=
      fun f hf hkind => congrArg some (h.constants hkind f (List.mem_of_mem_drop hf)).1
    have hrelated := (List.forall₂_and_left _ _).mpr
      ⟨hd.variables, forall₂_and_right h.fields hpublic⟩
    refine hrelated.imp fun x f hboth => ?_
    obtain ⟨hx, hf, hname, hflags⟩ := hboth
    refine ⟨hname, ?_⟩
    exact hflags.setsOneAccess_iff f.flags.isSome_flag?
      (by simp [accessKeywords, Kind.SettlesField]) hf hx
  constructors := by
    have hrelated := (List.forall₂_and_left _ _).mpr ⟨hd.constructors, h.constructors⟩
    refine hrelated.imp fun c x hboth => ?_
    obtain ⟨hc, hname, hflags⟩ := hboth
    exact ⟨hname, hflags.setsOneAccess x.flags.isSome_flag? (by simp) hc⟩
  methods hkind := by
    have hrelated := (List.forall₂_and_left _ _).mpr ⟨hd.methods, h.methods hkind⟩
    refine hrelated.imp fun m x hboth => ?_
    obtain ⟨hm, mo, hx, hname, hflags, hinterface⟩ := hboth
    refine ⟨mo, hx, hname, ?_⟩
    exact hflags.setsOneAccess_iff mo.flags.isSome_flag?
      (by simp [accessKeywords, Kind.SettlesMethod])
      (fun hkind => congrArg some (hinterface hkind).1) hm
  elements := h.elements

/-- **In every unit keywords settle access**, at any depth: it is not needed that the unit was read
from a source. -/
theorem CompilationUnit.throughout_keepsAccess {u : CompilationUnit}
    (h : ∀ d, u.Declares d → d.WritesOneAccess) :
    ∀ d ∈ u.types, Outline.Throughout (fun d _ o => Outline.KeepsAccess d o)
      d none (.ofDeclaration d none) := by
  intro d hd
  refine Outline.throughout_ofDeclaration (fun _ hdeclared _ hmem => hdeclared.nested hmem) ?_
    (CompilationUnit.declares_of_mem hd) none
  intro d enclosing hdeclared
  exact (Outline.keepsModifierRules_ofDeclaration d enclosing).keepsAccess (h d hdeclared)

/-- **At most one flag for access**: in an accepted source each of whose types, fields,
constructors and methods is written with at most one of `public`, `protected` and `private`, the
outlines of all types set at most one of the three flags in every entry, at any depth, except for
fields of interfaces and annotation types and methods of interfaces that are written `protected`
or `private`. -/
theorem access_flags_exclusive {source : String} {u : CompilationUnit}
    (_ : CompilationUnit.parse source = .ok u) (h : ∀ d, u.Declares d → d.WritesOneAccess) :
    ∀ d ∈ u.types, Outline.Throughout (fun d _ o => Outline.KeepsAccess d o)
      d none (.ofDeclaration d none) :=
  CompilationUnit.throughout_keepsAccess h

/-! ## Samples -/

/-- What is found out about a file that is read holds of it, and so does what is found out about
all types that it declares. -/
theorem exists_parse_of_checks {source : String} {P : CompilationUnit → Prop}
    {Q : Declaration → Prop} [DecidablePred P] [DecidablePred Q]
    (h : (CompilationUnit.parse source).toOption.any (fun u =>
      decide (P u ∧ ∀ d ∈ u.types, d.allWithin (fun d => decide (Q d)) = true)) = true) :
    ∃ u, CompilationUnit.parse source = .ok u ∧ P u ∧ ∀ d, u.Declares d → Q d := by
  obtain ⟨u, hu, hP, hQ⟩ := CompilationUnit.exists_parse_of_check h
  refine ⟨u, hu, hP, fun d hdeclared => ?_⟩
  obtain ⟨outer, houter, hwithin⟩ := hdeclared
  exact of_decide_eq_true (hwithin.of_allWithin (hQ outer houter))

/-- A class with a constructor and, in an interface, a constant and two methods. -/
def sampleAccess : String :=
  "public class A \x7b private int f; protected A() \x7b\x7d "
    ++ "interface I \x7b int K = 1; private void p() \x7b\x7d public void q(); \x7d \x7d"

theorem access_flags_exclusive_sampleAccess : ∃ u,
    CompilationUnit.parse sampleAccess = .ok u
    ∧ u.types.map (·.nested.map (·.methods.length)) = [[2]]
    ∧ (∀ d, u.Declares d → d.WritesOneAccess)
    ∧ ∀ d ∈ u.types, Outline.Throughout (fun d _ o => Outline.KeepsAccess d o)
        d none (.ofDeclaration d none) := by
  have hchecks : ∃ u, CompilationUnit.parse sampleAccess = .ok u
      ∧ u.types.map (·.nested.map (·.methods.length)) = [[2]]
      ∧ ∀ d, u.Declares d → d.WritesOneAccess := exists_parse_of_checks (by decide +kernel)
  obtain ⟨u, hu, hlengths, hwrites⟩ := hchecks
  exact ⟨u, hu, hlengths, hwrites, access_flags_exclusive hu hwrites⟩

/-- An interface with a private constant and a private method. -/
def restrictedMembers : String :=
  "interface I \x7b private int K = 1; private void p() \x7b\x7d \x7d"

/-- **Private members of interfaces are public as well**, each of them written with one keyword. -/
theorem restricted_members_made_public : ∃ u,
    CompilationUnit.parse restrictedMembers = .ok u
    ∧ (∃ d ∈ u.types,
      (∃ f ∈ (Outline.ofDeclaration d none).fields, ¬ SetsOneAccess f.flags.flag?)
        ∧ ∃ m ∈ (Outline.ofDeclaration d none).method? "p", ¬ SetsOneAccess m.flags.flag?)
    ∧ ∀ d, u.Declares d → d.WritesOneAccess :=
  exists_parse_of_checks (by decide +kernel)

end JavaOutline
