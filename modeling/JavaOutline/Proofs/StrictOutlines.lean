import JavaOutline.Outline.Build
import JavaOutline.Proofs.OutlineRecords

/-!
# JavaOutline.Proofs.StrictOutlines

A strict document leaves out what is off or empty, and still says everything:
the outline can be told from it.

That needs one fact about outlines. The pruned form of a method without flags,
parameters and exceptions is the pruned form of an annotation element without
a default; only the kind of the type around them tells the two apart. Outlines
of declarations list elements in annotation types and methods everywhere else
(`isConsistent_ofDeclaration`), and among such outlines pruning is injective
(`Outline.eq_of_pruned_eq`).
-/

namespace JavaOutline

open Json

/-! ## Consistent outlines -/

/-- May the entry stand in a type of the given kind? -/
def MethodEntry.fits (kind : Kind) : MethodEntry → Bool
  | .method _ => kind != .annotationType
  | .element _ => kind == .annotationType

namespace Outline

mutual
/-- Do annotation types list elements and all other types methods, here and in
all nested types? -/
def isConsistent : Outline → Bool
  | ⟨_, kind, _, _, _, _, _, _, methods, inners⟩ =>
    methods.all (·.fits kind) && allConsistent inners

/-- Are all outlines of a list consistent? -/
def allConsistent : List Outline → Bool
  | [] => true
  | o :: os => isConsistent o && allConsistent os
end

end Outline

/-- The entries built for a declaration fit its kind. -/
theorem Declaration.fits_methodEntries (d : Declaration) :
    d.methodEntries.all (·.fits d.kind) = true := by
  unfold Declaration.methodEntries
  by_cases h : d.kind = .annotationType
  · rw [if_pos h, h, List.all_map, List.all_eq_true]
    intro e _
    rfl
  · rw [if_neg h, List.all_map, List.all_eq_true]
    intro m _
    simpa [MethodEntry.fits] using h

mutual
/-- The outline of a declaration is consistent, wherever the declaration stands. -/
theorem isConsistent_ofDeclaration : (d : Declaration) → (enclosing : Option Kind) →
    (Outline.ofDeclaration d enclosing).isConsistent = true
  | ⟨name, category, modifiers, annotations, superclasses, interfaces, components, members⟩,
      enclosing => by
      let d : Declaration :=
        ⟨name, category, modifiers, annotations, superclasses, interfaces, components, members⟩
      have hmethods : d.methodEntries.all (·.fits d.kind) = true := d.fits_methodEntries
      have hinners := allConsistent_ofMembers members d.kind
      rw [Outline.ofDeclaration, Outline.isConsistent, Bool.and_eq_true]
      exact ⟨hmethods, hinners⟩

/-- So are the outlines of the types among some members. -/
theorem allConsistent_ofMembers : (members : List Member) → (owner : Kind) →
    Outline.allConsistent (Outline.ofMembers members owner) = true
  | [], owner => by simp [Outline.ofMembers, Outline.allConsistent]
  | .type d :: rest, owner => by
      rw [Outline.ofMembers, Outline.allConsistent, Bool.and_eq_true]
      exact ⟨isConsistent_ofDeclaration d (some owner), allConsistent_ofMembers rest owner⟩
  | .field _ :: rest, owner => by
      rw [Outline.ofMembers]
      exact allConsistent_ofMembers rest owner
  | .constructor _ :: rest, owner => by
      rw [Outline.ofMembers]
      exact allConsistent_ofMembers rest owner
  | .method _ :: rest, owner => by
      rw [Outline.ofMembers]
      exact allConsistent_ofMembers rest owner
  | .element _ :: rest, owner => by
      rw [Outline.ofMembers]
      exact allConsistent_ofMembers rest owner
end

/-! ## Parts -/

/-- A field can be told from its pruned form. -/
theorem FieldOutline.eq_of_pruned_eq {f g : FieldOutline}
    (h : f.toJson.pruned = g.toJson.pruned) : f = g := by
  have hv := map_visible?_values_eq (by simp) (by simpa using nodup_keys) h
  obtain ⟨name, type, flags⟩ := f
  obtain ⟨name', type', flags'⟩ := g
  cases flags
  cases flags'
  simpa [FieldOutline.toJson, FieldFlags.entries, values, and_assoc] using hv

/-- A constructor can be told from its pruned form. -/
theorem ConstructorOutline.eq_of_pruned_eq {c d : ConstructorOutline}
    (h : c.toJson.pruned = d.toJson.pruned) : c = d := by
  have hv := map_visible?_values_eq (by simp) (by simpa using nodup_keys) h
  obtain ⟨name, flags, params, throws⟩ := c
  obtain ⟨name', flags', params', throws'⟩ := d
  cases flags
  cases flags'
  simpa [ConstructorOutline.toJson, ConstructorFlags.entries, values, and_assoc] using hv

/-- A method can be told from its pruned form, among methods. -/
theorem MethodOutline.eq_of_pruned_eq {m n : MethodOutline}
    (h : m.toJson.pruned = n.toJson.pruned) : m = n := by
  have hv := map_visible?_values_eq (by simp) (by simpa using nodup_keys) h
  obtain ⟨name, returnType, flags, params, throws⟩ := m
  obtain ⟨name', returnType', flags', params', throws'⟩ := n
  cases flags
  cases flags'
  simpa [MethodOutline.toJson, MethodFlags.entries, values, and_assoc] using hv

/-- An annotation element can be told from its pruned form, among elements. -/
theorem ElementOutline.eq_of_pruned_eq {e f : ElementOutline}
    (h : e.toJson.pruned = f.toJson.pruned) : e = f := by
  have hv := map_visible?_values_eq (by simp) (by simpa using nodup_keys) h
  cases e
  cases f
  simpa [ElementOutline.toJson, values] using hv

/-- An entry of the list of methods can be told from its pruned form once the
kind of the type around it is known. -/
theorem MethodEntry.eq_of_pruned_eq {kind : Kind} {x y : MethodEntry} (hx : x.fits kind = true)
    (hy : y.fits kind = true) (h : x.toJson.pruned = y.toJson.pruned) : x = y := by
  cases x with
  | method m =>
      cases y with
      | method n => exact congrArg MethodEntry.method (MethodOutline.eq_of_pruned_eq h)
      | element f =>
          simp only [fits, bne_iff_ne, beq_iff_eq] at hx hy
          exact absurd hy hx
  | element e =>
      cases y with
      | method n =>
          simp only [fits, bne_iff_ne, beq_iff_eq] at hx hy
          exact absurd hx hy
      | element f => exact congrArg MethodEntry.element (ElementOutline.eq_of_pruned_eq h)

/-! ## Outlines -/

mutual
/-- A consistent outline can be told from its pruned form. -/
theorem Outline.eq_of_pruned_eq : (o p : Outline) → o.isConsistent = true →
    p.isConsistent = true → o.toJson.pruned = p.toJson.pruned → o = p
  | ⟨name, kind, flags, superclasses, interfaces, annotations, fields, constructors, methods,
      inners⟩, p, ho, hp, h => by
      have hv := map_visible?_values_eq (by simp) (by simpa using nodup_keys) h
      obtain ⟨name', kind', flags', superclasses', interfaces', annotations', fields',
        constructors', methods', inners'⟩ := p
      cases flags
      cases flags'
      simp only [isConsistent, Bool.and_eq_true, List.all_eq_true] at ho hp
      simp only [toJson, TypeFlags.entries, Kind.toJson, values, List.cons_append,
        List.nil_append, List.map_cons, List.map_nil, List.cons.injEq, visible?_string_inj,
        visible?_bool_inj, visible?_ofTexts_inj, visible?_array_inj, Kind.name_inj] at hv
      obtain ⟨hname, hkind, h1, h2, h3, h4, h5, h6, hsuper, hinter, hannot, hfields, hconstr,
        hmethods, hinners, -⟩ := hv
      subst hkind
      have hfields' : fields = fields' :=
        eq_of_prunedItems_map_eq (P := fun _ => True)
          (fun _ _ _ _ hab => FieldOutline.eq_of_pruned_eq hab) (by simp) (by simp) hfields
      have hconstr' : constructors = constructors' :=
        eq_of_prunedItems_map_eq (P := fun _ => True)
          (fun _ _ _ _ hab => ConstructorOutline.eq_of_pruned_eq hab) (by simp) (by simp) hconstr
      -- both lists stand in types of one kind, so their entries are of one sort
      have hmethods' : methods = methods' :=
        eq_of_prunedItems_map_eq (P := fun m => m.fits kind = true)
          (fun _ _ hx hy hab => MethodEntry.eq_of_pruned_eq hx hy hab) ho.1 hp.1 hmethods
      have hinners' : inners = inners' :=
        Outline.eq_of_prunedAll_eq inners inners' ho.2 hp.2 hinners
      simp [hname, h1, h2, h3, h4, h5, h6, hsuper, hinter, hannot, hfields', hconstr', hmethods',
        hinners']

/-- So can lists of consistent outlines. -/
theorem Outline.eq_of_prunedAll_eq : (os ps : List Outline) → allConsistent os = true →
    allConsistent ps = true → prunedItems (toJsonAll os) = prunedItems (toJsonAll ps) → os = ps
  | [], [], _, _, _ => rfl
  | [], p :: ps, _, _, h => by simp [toJsonAll, prunedItems] at h
  | o :: os, [], _, _, h => by simp [toJsonAll, prunedItems] at h
  | o :: os, p :: ps, ho, hp, h => by
      simp only [allConsistent, Bool.and_eq_true] at ho hp
      simp only [toJsonAll, prunedItems, List.cons.injEq] at h
      have hhead : o = p := Outline.eq_of_pruned_eq o p ho.1 hp.1 h.1
      have htail : os = ps := Outline.eq_of_prunedAll_eq os ps ho.2 hp.2 h.2
      rw [hhead, htail]
end

/-- **Strict documents lose nothing**: outlines of declarations are consistent,
and consistent outlines with the same strict document are the same. -/
theorem strict_document_determines_outline :
    (∀ (d : Declaration) (enclosing : Option Kind),
      (Outline.ofDeclaration d enclosing).isConsistent = true) ∧
    ∀ o p : Outline, o.isConsistent = true → p.isConsistent = true →
      o.toJson.prune true = p.toJson.prune true → o = p := by
  refine ⟨isConsistent_ofDeclaration, fun o p ho hp h => ?_⟩
  have hpruned : o.toJson.pruned = p.toJson.pruned := by
    simpa only [prune, if_true] using h
  exact Outline.eq_of_pruned_eq o p ho hp hpruned

/-- A class with a method that carries no flags and an annotation type with an
element that has no default. -/
def sampleShape (modifiers : List Modifier) : Declaration :=
  ⟨"Shape", .classType, modifiers, ["a.Tag"], [], [], [],
    [.method ⟨"area", [], .raw "int", [], []⟩,
      .type ⟨"Mark", .annotationType, [], [], [], [], [],
        [.element ⟨"area", [], .raw "int", false⟩]⟩]⟩

/-- The order of modifiers does not show in the strict document, so it does not
show in the outline. -/
theorem outline_sampleShape_eq :
    (Outline.ofDeclaration (sampleShape [.publicAccess, .final]) none).isConsistent = true ∧
    (Outline.ofDeclaration (sampleShape [.final, .publicAccess]) none).isConsistent = true ∧
    (Outline.ofDeclaration (sampleShape [.publicAccess, .final]) none).toJson.prune true =
      (Outline.ofDeclaration (sampleShape [.final, .publicAccess]) none).toJson.prune true ∧
    Outline.ofDeclaration (sampleShape [.publicAccess, .final]) none =
      Outline.ofDeclaration (sampleShape [.final, .publicAccess]) none :=
  ⟨rfl, rfl, rfl, strict_document_determines_outline.2 _ _ rfl rfl rfl⟩

end JavaOutline
