import JavaOutline.Proofs.NoiseDeletion
import JavaOutline.Proofs.OutputScopes

/-!
# JavaOutline.Proofs.StrictDocuments

A strict document is the pruned plain document, and nothing in it is silent.

Pruning keeps the items of arrays, whatever is left of them. So the pruned form of a
document may well hold silent items, unless something is left of each item of each of
its arrays (`LeavesItems`): then the pruned form is free of silent parts
(`LeavesItems.not_isSilent`). Outlines are such documents, since every record in a list
has a name and a text is never silent (`Outline.leavesItems_toJson`).

The types of a file are pruned one by one, which comes to the same as pruning the whole
document, except that the list of types itself stays where it is empty
(`strict_documents_pruned`).
-/

namespace JavaOutline

namespace Json

/-! ## Parts of documents -/

/-- A part of a document: the document itself, or a part of an item or of the value of an
entry. -/
inductive IsPart (k : Json) : Json → Prop
  | self : IsPart k k
  | item {items : List Json} {j : Json} (hj : j ∈ items) (h : IsPart k j) :
      IsPart k (.array items)
  | value {entries : List (String × Json)} {e : String × Json} (he : e ∈ entries)
      (h : IsPart k e.2) : IsPart k (.object entries)

/-- Something is left of each item of each array in the document when it is pruned. -/
inductive LeavesItems : Json → Prop
  | null : LeavesItems .null
  | bool (b : Bool) : LeavesItems (.bool b)
  | number (n : Number) : LeavesItems (.number n)
  | string (s : String) : LeavesItems (.string s)
  | array {items : List Json} (hleft : ∀ j ∈ items, ¬ IsSilent (pruned j))
      (h : ∀ j ∈ items, LeavesItems j) : LeavesItems (.array items)
  | object {entries : List (String × Json)} (h : ∀ e ∈ entries, LeavesItems e.2) :
      LeavesItems (.object entries)

/-- What pruning leaves of an object are pruned values of its entries that are not silent. -/
theorem exists_of_mem_prunedEntries {es : List (String × Json)} {e : String × Json}
    (h : e ∈ prunedEntries es) : ∃ e' ∈ es, e.2 = pruned e'.2 ∧ ¬ IsSilent e.2 := by
  induction es with
  | nil => simp [prunedEntries] at h
  | cons e' es ih =>
      obtain ⟨key, j⟩ := e'
      rw [prunedEntries] at h
      split at h
      · obtain ⟨e'', hmem, heq⟩ := ih h
        exact ⟨e'', List.mem_cons_of_mem _ hmem, heq⟩
      · next hnoise =>
        cases List.mem_cons.mp h with
        | inl heq =>
            subst heq
            exact ⟨(key, j), List.mem_cons_self, rfl, fun hs => hnoise (isNoise_iff.mpr hs)⟩
        | inr hmem =>
            obtain ⟨e'', hmem', heq⟩ := ih hmem
            exact ⟨e'', List.mem_cons_of_mem _ hmem', heq⟩

/-- **Nothing in the pruned form is silent**, if something is left of the document and of
each item of its arrays. -/
theorem LeavesItems.not_isSilent {j : Json} (h : LeavesItems j) (hj : ¬ IsSilent (pruned j))
    {k : Json} (hk : IsPart k (pruned j)) : ¬ IsSilent k := by
  induction h with
  | null | bool | number | string =>
      cases hk with
      | self => exact hj
  | @array items hleft _ ih =>
      rw [pruned, prunedItems_eq_map] at hk hj
      cases hk with
      | self => exact hj
      | item hmem hk =>
          obtain ⟨i, hi, rfl⟩ := List.mem_map.mp hmem
          exact ih i hi (hleft i hi) hk
  | @object entries _ ih =>
      rw [pruned] at hk hj
      cases hk with
      | self => exact hj
      | value hmem hk =>
          obtain ⟨e, he, heq, hshows⟩ := exists_of_mem_prunedEntries hmem
          rw [heq] at hk hshows
          exact ih e he hshows hk

/-! ## Records with a name -/

/-- An object that begins with a text is not silent, pruned or not. -/
theorem not_isSilent_pruned_named (key s : String) (es : List (String × Json)) :
    ¬ IsSilent (pruned (.object ((key, .string s) :: es))) := by
  have hstring : visible? (.string s) = some (.string s) := rfl
  rw [pruned, prunedEntries_cons_of_some hstring]
  intro h
  cases h

theorem leavesItems_ofTexts (ts : List String) : LeavesItems (ofTexts ts) := by
  refine .array ?_ ?_
  · rw [List.forall_mem_map]
    exact fun _ _ => nofun
  · rw [List.forall_mem_map]
    exact fun s _ => .string s

/-- A list of records with names. -/
theorem leavesItems_map {f : α → Json} {xs : List α} (hf : ∀ x, LeavesItems (f x))
    (hleft : ∀ x, ¬ IsSilent (pruned (f x))) : LeavesItems (.array (xs.map f)) :=
  .array (List.forall_mem_map.mpr fun x _ => hleft x) (List.forall_mem_map.mpr fun x _ => hf x)

end Json

open Json

/-! ## Outlines -/

theorem FieldOutline.leavesItems_toJson (f : FieldOutline) : f.toJson.LeavesItems := by
  refine .object ?_
  simp [FieldFlags.entries, LeavesItems.bool, LeavesItems.string]

theorem ConstructorOutline.leavesItems_toJson (c : ConstructorOutline) :
    c.toJson.LeavesItems := by
  refine .object ?_
  simp [ConstructorFlags.entries, LeavesItems.bool, LeavesItems.string, leavesItems_ofTexts]

theorem MethodEntry.leavesItems_toJson (m : MethodEntry) : m.toJson.LeavesItems := by
  cases m with
  | method m =>
      refine .object ?_
      simp [MethodFlags.entries, LeavesItems.bool, LeavesItems.string, leavesItems_ofTexts]
  | element e =>
      refine .object ?_
      simp [LeavesItems.bool, LeavesItems.string]

/-- An entry of the list of methods has a name, whichever form it has. -/
theorem MethodEntry.not_isSilent_pruned (m : MethodEntry) : ¬ IsSilent (pruned m.toJson) := by
  cases m <;> exact not_isSilent_pruned_named _ _ _

theorem Outline.not_isSilent_pruned (o : Outline) : ¬ IsSilent (pruned o.toJson) := by
  cases o
  rw [Outline.toJson]
  exact not_isSilent_pruned_named _ _ _

mutual
/-- Every item of a list in an outline has a name or is a text. -/
theorem Outline.leavesItems_toJson : (o : Outline) → o.toJson.LeavesItems
  | ⟨_, _, _, _, _, _, fields, constructors, methods, inners⟩ => by
      have hfields : (Json.array (fields.map FieldOutline.toJson)).LeavesItems :=
        leavesItems_map FieldOutline.leavesItems_toJson
          fun _ => not_isSilent_pruned_named _ _ _
      have hconstr : (Json.array (constructors.map ConstructorOutline.toJson)).LeavesItems :=
        leavesItems_map ConstructorOutline.leavesItems_toJson
          fun _ => not_isSilent_pruned_named _ _ _
      have hmethods : (Json.array (methods.map MethodEntry.toJson)).LeavesItems :=
        leavesItems_map MethodEntry.leavesItems_toJson MethodEntry.not_isSilent_pruned
      have hinners : (Json.array (Outline.toJsonAll inners)).LeavesItems :=
        .array (fun j hj => (Outline.leavesItems_toJsonAll inners j hj).1)
          (fun j hj => (Outline.leavesItems_toJsonAll inners j hj).2)
      rw [Outline.toJson]
      refine .object ?_
      simp [TypeFlags.entries, Kind.toJson, LeavesItems.bool, LeavesItems.string,
        leavesItems_ofTexts, hfields, hconstr, hmethods, hinners]

theorem Outline.leavesItems_toJsonAll : (os : List Outline) →
    ∀ j ∈ Outline.toJsonAll os, ¬ IsSilent (pruned j) ∧ j.LeavesItems
  | [] => by simp [Outline.toJsonAll]
  | o :: os => by
      rw [Outline.toJsonAll, List.forall_mem_cons]
      exact ⟨⟨o.not_isSilent_pruned, Outline.leavesItems_toJson o⟩,
        Outline.leavesItems_toJsonAll os⟩
end

/-! ## Documents -/

namespace CompilationUnit

/-- The entry for a declaration leaves something of itself and of its items. -/
theorem leavesItems_entry (d : Declaration) :
    ¬ IsSilent (pruned (entry false d)) ∧ (entry false d).LeavesItems :=
  ⟨Outline.not_isSilent_pruned _, Outline.leavesItems_toJson _⟩

/-- The root type is pruned as a whole; a file without types has no root. -/
theorem rootDocument_true (u : CompilationUnit) :
    u.rootDocument true = (u.rootDocument false).prune true := by
  rw [rootDocument, rootDocument]
  split <;> rfl

/-- The entries of all types, pruned one by one, are the items of the pruned list. -/
theorem map_entry_true (ds : List Declaration) :
    ds.map (entry true) = prunedItems (ds.map (entry false)) := by
  rw [prunedItems_eq_map, List.map_map]
  rfl

/-- Pruning the document of all types prunes the entries; an empty list of them goes. -/
theorem prune_allDocument_false (u : CompilationUnit) :
    (u.allDocument false).prune true
      = .object ((u.package.map fun name => ("package", .string name)).toList
          ++ if u.types = [] then [] else [("types", .array (u.types.map (entry true)))]) := by
  have hpackage : prunedEntries (u.package.map fun name => ("package", Json.string name)).toList
      = (u.package.map fun name => ("package", .string name)).toList := by
    cases u.package <;> rfl
  rw [allDocument_eq, prune_true, pruned, prunedEntries_append, hpackage, map_entry_true]
  cases h : u.types with
  | nil => rfl
  | cons d ds => rfl

/-- The plain document of a file with types leaves something of itself and of its items. -/
theorem leavesItems_document {u : CompilationUnit} (h : u.types ≠ []) (scope : Scope) :
    ¬ IsSilent (pruned (u.document ⟨false, scope⟩))
      ∧ (u.document ⟨false, scope⟩).LeavesItems := by
  cases scope with
  | root =>
      obtain ⟨i, hi⟩ := exists_isChosen_isPublic h
      obtain ⟨d, hd⟩ := hi.exists_getElem?_eq
      rw [document, rootDocument_eq false hi hd]
      exact leavesItems_entry d
  | all =>
      have hentries : (Json.array (u.types.map (entry false))).LeavesItems :=
        leavesItems_map (fun d => (leavesItems_entry d).2) fun d => (leavesItems_entry d).1
      constructor
      · rw [document, ← prune_true, prune_allDocument_false, if_neg h]
        cases u.package <;> (intro h; cases h)
      · rw [document, allDocument_eq]
        refine .object ?_
        rw [List.forall_mem_append, List.forall_mem_singleton]
        refine ⟨?_, hentries⟩
        cases u.package <;> simp [LeavesItems.string]

end CompilationUnit

open CompilationUnit

/-- **Strict extraction is pruning of plain extraction**, with one exception: the document of
all types of a file that has none keeps its empty list, which pruning would take away. In
the strict document of a file with types no part is `false`, `[]` or `{}`, be it the value
of an entry or an item of a list. -/
theorem strict_documents_pruned (u : CompilationUnit) (scope : Scope) :
    (u.document ⟨true, scope⟩ = (u.document ⟨false, scope⟩).prune true
        ↔ ¬ (scope = .all ∧ u.types = []))
      ∧ (u.types = [] → u.document ⟨true, .all⟩
          = .object ((u.package.map fun name => ("package", .string name)).toList
              ++ [("types", .array [])]))
      ∧ (u.types ≠ [] → ∀ k, IsPart k (u.document ⟨true, scope⟩) → ¬ IsSilent k) := by
  have hempty : u.types = [] → u.document ⟨true, .all⟩
      = .object ((u.package.map fun name => ("package", .string name)).toList
          ++ [("types", .array [])]) := by
    intro h
    rw [document, allDocument_eq, h]
    rfl
  have hpruned : ¬ (scope = .all ∧ u.types = []) →
      u.document ⟨true, scope⟩ = (u.document ⟨false, scope⟩).prune true := by
    intro h
    cases scope with
    | root => exact u.rootDocument_true
    | all =>
        have htypes : u.types ≠ [] := fun hnil => h ⟨rfl, hnil⟩
        rw [document, document, prune_allDocument_false, if_neg htypes, allDocument_eq]
  refine ⟨⟨?_, hpruned⟩, hempty, fun h k hk => ?_⟩
  · rintro heq ⟨rfl, hnil⟩
    rw [hempty hnil, document, prune_allDocument_false, if_pos hnil] at heq
    simp at heq
  · obtain ⟨hleft, hitems⟩ := leavesItems_document h scope
    rw [hpruned fun hnil => h hnil.2, prune_true] at hk
    exact hitems.not_isSilent hleft hk

/-- A package with types in it, whose documents agree, and one without types, whose documents
do not. -/
theorem strict_documents_pruned_sampleScopes :
    let empty : CompilationUnit := ⟨some "a.b", [], []⟩
    sampleScopes.types ≠ []
      ∧ sampleScopes.document ⟨true, .all⟩ = (sampleScopes.document ⟨false, .all⟩).prune true
      ∧ (∀ k, IsPart k (sampleScopes.document ⟨true, .all⟩) → ¬ IsSilent k)
      ∧ empty.document ⟨true, .all⟩ ≠ (empty.document ⟨false, .all⟩).prune true
      ∧ empty.document ⟨true, .all⟩
          = .object [("package", .string "a.b"), ("types", .array [])] := by
  intro empty
  have hne : sampleScopes.types ≠ [] := List.cons_ne_nil _ _
  obtain ⟨hiff, -, hparts⟩ := strict_documents_pruned sampleScopes .all
  obtain ⟨hiff', hempty, -⟩ := strict_documents_pruned empty .all
  exact ⟨hne, hiff.mpr fun h => hne h.2, hparts hne, fun heq => hiff'.mp heq ⟨rfl, rfl⟩,
    hempty rfl⟩

end JavaOutline
