import JavaOutline.Proofs.NoiseDeletion
import Mathlib.Data.List.Forall2

/-!
# JavaOutline.Proofs.PrunedContent

What pruning leaves where it was.

`places` lists the values in a document in document order, each with the path of keys and
positions that leads to it, and `contents` are those of them that say something by themselves:
the scalars, but for a `false` that an object holds. Pruning keeps the contents, paths included
(`contents_pruned`). Whatever else is left of a document is the pruned form of what stood at the
same path before (`places_pruned_sublist`): arrays keep their length, and objects keep the order
of the keys that they keep.
-/

namespace JavaOutline.Json

/-! ## Places -/

/-- A step into a document: to the value of an entry, or to an item of an array. -/
inductive Step where
  | key (name : String)
  | index (position : Nat)
  deriving Repr, DecidableEq

/-- A value in a document, with the path that leads to it. -/
structure Place where
  path : List Step
  value : Json

/-- The same place, seen from one step further up. -/
def Place.under (s : Step) (x : Place) : Place := ⟨s :: x.path, x.value⟩

mutual
/-- The places inside a document, in document order. -/
def inner : Json → List Place
  | .array items => itemPlaces 0 items
  | .object entries => entryPlaces entries
  | .null | .bool _ | .number _ | .string _ => []

/-- The places in the items of an array from position `i` on. -/
def itemPlaces (i : Nat) : List Json → List Place
  | [] => []
  | j :: js => (⟨[], j⟩ :: inner j).map (Place.under (.index i)) ++ itemPlaces (i + 1) js

/-- The places in the entries of an object. -/
def entryPlaces : List (String × Json) → List Place
  | [] => []
  | (key, j) :: es => (⟨[], j⟩ :: inner j).map (Place.under (.key key)) ++ entryPlaces es
end

/-- The places of a document: the document itself and those inside. -/
def places (j : Json) : List Place := ⟨[], j⟩ :: inner j

/-! ## Contents -/

/-- Values without parts. -/
def isScalar : Json → Bool
  | .array _ | .object _ => false
  | .null | .bool _ | .number _ | .string _ => true

/-- Is the value at the end of the path held directly by an object? -/
def endsAtEntry (path : List Step) : Bool := path.getLast? matches some (.key _)

/-- A scalar, but for a `false` held directly by an object. -/
def Place.isContent (x : Place) : Bool :=
  x.value.isScalar && !(endsAtEntry x.path && x.value.flag? == some false)

/-- The scalars of a document with their paths, in document order, but for each `false` held
directly by an object. -/
def contents (j : Json) : List Place := (places j).filter Place.isContent

/-! ## Pruning keeps the contents -/

/-- Every place inside a document lies behind a step. -/
theorem path_ne_nil_of_mem_inner {j : Json} {x : Place} (h : x ∈ inner j) : x.path ≠ [] := by
  have hitems : ∀ (items : List Json) (i : Nat), ∀ x ∈ itemPlaces i items, x.path ≠ [] := by
    intro items
    induction items with
    | nil => simp [itemPlaces]
    | cons j js ih =>
        intro i
        rw [itemPlaces, List.forall_mem_append, List.forall_mem_map]
        exact ⟨fun _ _ => List.cons_ne_nil _ _, ih (i + 1)⟩
  have hentries : ∀ entries : List (String × Json), ∀ x ∈ entryPlaces entries, x.path ≠ [] := by
    intro entries
    induction entries with
    | nil => simp [entryPlaces]
    | cons e es ih =>
        rw [entryPlaces, List.forall_mem_append, List.forall_mem_map]
        exact ⟨fun _ _ => List.cons_ne_nil _ _, ih⟩
  cases j with
  | array items => exact hitems items 0 x h
  | object entries => exact hentries entries x h
  | _ => simp [inner] at h

/-- Only the last step of a path counts. -/
theorem isContent_under {x : Place} (h : x.path ≠ []) (s : Step) :
    (x.under s).isContent = x.isContent := by
  obtain ⟨r, path, hpath⟩ := List.exists_cons_of_ne_nil h
  simp [Place.isContent, Place.under, endsAtEntry, hpath]

/-- The contents at the end of the path `s` and below. -/
def contentsUnder (s : Step) (j : Json) : List Place :=
  ((places j).map (Place.under s)).filter Place.isContent

theorem contentsUnder_eq (s : Step) (j : Json) :
    contentsUnder s j
      = [⟨[s], j⟩].filter Place.isContent
        ++ ((inner j).filter Place.isContent).map (Place.under s) := by
  have hinner : ((inner j).map (Place.under s)).filter Place.isContent
      = ((inner j).filter Place.isContent).map (Place.under s) := by
    rw [List.filter_map]
    congr 1
    exact List.filter_congr fun x hx => isContent_under (path_ne_nil_of_mem_inner hx) s
  rw [contentsUnder, places, List.map_cons, ← List.singleton_append, List.filter_append, hinner]
  rfl

/-- Pruning changes no scalar and makes none. -/
theorem pruned_of_isScalar {j : Json} (h : j.isScalar = true) : pruned j = j := by
  cases j <;> first | rfl | contradiction

theorem isScalar_pruned (j : Json) : (pruned j).isScalar = j.isScalar := by
  cases j <;> rfl

/-- Whether the document as a whole counts does not change. -/
theorem filter_isContent_pruned (path : List Step) (j : Json) :
    [(⟨path, pruned j⟩ : Place)].filter Place.isContent = [⟨path, j⟩].filter Place.isContent := by
  cases h : j.isScalar with
  | true => rw [pruned_of_isScalar h]
  | false =>
      have hpruned : (pruned j).isScalar = false := by rw [isScalar_pruned, h]
      simp [Place.isContent, h, hpruned]

/-- What pruning leaves out has no contents. -/
theorem IsSilent.contentsUnder_eq_nil {key : String} {j : Json} (h : IsSilent j) :
    contentsUnder (.key key) j = [] := by
  cases h <;> rfl

/-- Contents below a document are contents below its pruned form, once this is known of what is
inside it. -/
theorem contentsUnder_pruned {j : Json}
    (h : (inner (pruned j)).filter Place.isContent = (inner j).filter Place.isContent) (s : Step) :
    contentsUnder s (pruned j) = contentsUnder s j := by
  rw [contentsUnder_eq, contentsUnder_eq, h, filter_isContent_pruned]

mutual
/-- The contents inside a document are those inside its pruned form. -/
theorem filter_inner_pruned : (j : Json) →
    (inner (pruned j)).filter Place.isContent = (inner j).filter Place.isContent
  | .array items => filter_itemPlaces_pruned 0 items
  | .object entries => filter_entryPlaces_pruned entries
  | .null | .bool _ | .number _ | .string _ => rfl

theorem filter_itemPlaces_pruned (i : Nat) : (items : List Json) →
    (itemPlaces i (prunedItems items)).filter Place.isContent
      = (itemPlaces i items).filter Place.isContent
  | [] => rfl
  | j :: js => by
      rw [prunedItems, itemPlaces, itemPlaces, List.filter_append, List.filter_append,
        filter_itemPlaces_pruned (i + 1) js]
      exact congrArg (· ++ _) (contentsUnder_pruned (filter_inner_pruned j) (.index i))

theorem filter_entryPlaces_pruned : (entries : List (String × Json)) →
    (entryPlaces (prunedEntries entries)).filter Place.isContent
      = (entryPlaces entries).filter Place.isContent
  | [] => rfl
  | (key, j) :: es => by
      have hvalue : contentsUnder (.key key) (pruned j) = contentsUnder (.key key) j :=
        contentsUnder_pruned (filter_inner_pruned j) (.key key)
      rw [entryPlaces, List.filter_append, ← filter_entryPlaces_pruned es, prunedEntries]
      change _ = contentsUnder (.key key) j ++ _
      rw [← hvalue]
      split
      · next hnoise => rw [(isNoise_iff.mp hnoise).contentsUnder_eq_nil, List.nil_append]
      · rw [entryPlaces, List.filter_append]
        rfl
end

/-- **Pruning keeps the contents**, each at the end of its path. -/
theorem contents_pruned (j : Json) : contents (pruned j) = contents j := by
  have hsplit : ∀ k : Json, contents k
      = [⟨[], k⟩].filter Place.isContent ++ (inner k).filter Place.isContent := fun k => by
    rw [← List.filter_append]
    rfl
  rw [hsplit, hsplit, filter_isContent_pruned, filter_inner_pruned]

/-- Items that are off count, entries that are off do not. -/
example : contents (.object [("a", .bool false), ("b", .array [.bool false, .object []])])
    = [⟨[.key "b", .index 0], .bool false⟩] := by
  rfl

/-! ## What is left stays where it was -/

/-- The same place in the pruned document. -/
def Place.pruned (x : Place) : Place := ⟨x.path, x.value.pruned⟩

/-- A step further up, the places of a pruned value are some of the pruned places of the
value. -/
theorem map_under_sublist {j : Json} (h : (inner (pruned j)).Sublist ((inner j).map Place.pruned))
    (s : Step) :
    ((places (pruned j)).map (Place.under s)).Sublist
      (((places j).map (Place.under s)).map Place.pruned) := by
  have hcomm : ((places j).map (Place.under s)).map Place.pruned
      = ((places j).map Place.pruned).map (Place.under s) := by
    rw [List.map_map, List.map_map]
    rfl
  rw [hcomm]
  exact (h.cons_cons _).map _

mutual
/-- The places inside a pruned document are the pruned forms of some places inside the
document. -/
theorem inner_pruned_sublist : (j : Json) →
    (inner (pruned j)).Sublist ((inner j).map Place.pruned)
  | .array items => itemPlaces_pruned_sublist 0 items
  | .object entries => entryPlaces_pruned_sublist entries
  | .null | .bool _ | .number _ | .string _ => .slnil

theorem itemPlaces_pruned_sublist (i : Nat) : (items : List Json) →
    (itemPlaces i (prunedItems items)).Sublist ((itemPlaces i items).map Place.pruned)
  | [] => .slnil
  | j :: js => by
      rw [prunedItems, itemPlaces, itemPlaces, List.map_append]
      exact (map_under_sublist (inner_pruned_sublist j) (.index i)).append
        (itemPlaces_pruned_sublist (i + 1) js)

theorem entryPlaces_pruned_sublist : (entries : List (String × Json)) →
    (entryPlaces (prunedEntries entries)).Sublist ((entryPlaces entries).map Place.pruned)
  | [] => .slnil
  | (key, j) :: es => by
      have hrest := entryPlaces_pruned_sublist es
      rw [prunedEntries, entryPlaces, List.map_append]
      split
      · exact hrest.trans (List.sublist_append_right _ _)
      · rw [entryPlaces]
        exact (map_under_sublist (inner_pruned_sublist j) (.key key)).append hrest
end

/-- **What is left stays where it was**: the places of a pruned document are the pruned forms of
some places of the document, in the same order. -/
theorem places_pruned_sublist (j : Json) :
    (places (pruned j)).Sublist ((places j).map Place.pruned) :=
  (inner_pruned_sublist j).cons_cons _

/-- What becomes of a place that is left: the path stays; a scalar stays as it is, an array
keeps its length, and an object keeps some of its keys in their order. -/
inductive Survives : Place → Place → Prop
  | scalar {path : List Step} {j : Json} (h : j.isScalar = true) : Survives ⟨path, j⟩ ⟨path, j⟩
  | array {path : List Step} {items items' : List Json} (h : items'.length = items.length) :
      Survives ⟨path, .array items⟩ ⟨path, .array items'⟩
  | object {path : List Step} {entries entries' : List (String × Json)}
      (h : (entries'.map Prod.fst).Sublist (entries.map Prod.fst)) :
      Survives ⟨path, .object entries⟩ ⟨path, .object entries'⟩

theorem Place.survives_pruned (x : Place) : Survives x x.pruned := by
  obtain ⟨path, j⟩ := x
  cases j with
  | array items =>
      refine .array ?_
      rw [prunedItems_eq_map, List.length_map]
  | object entries => exact .object (keys_prunedEntries_sublist entries)
  | _ => exact .scalar rfl

/-- **Pruning preserves contents and positions.** The scalars of a document with their paths, in
document order and but for each `false` held directly by an object, are the same before and
after. Every value that is left stands where one stood before, one for one and in the same order:
an array with as many items, an object with some of its keys in their order. -/
theorem pruning_preserves_content (j : Json) :
    contents (j.prune true) = contents j
      ∧ ∃ left : List Place, left.Sublist (places j)
          ∧ List.Forall₂ Survives left (places (j.prune true)) := by
  refine ⟨contents_pruned j, ?_⟩
  obtain ⟨left, hleft, hplaces⟩ := List.sublist_map_iff.mp (places_pruned_sublist j)
  refine ⟨left, hleft, ?_⟩
  have hpruned : places (j.prune true) = left.map Place.pruned := hplaces
  rw [hpruned, List.forall₂_map_right_iff]
  exact List.forall₂_same.mpr fun x _ => x.survives_pruned

end JavaOutline.Json
