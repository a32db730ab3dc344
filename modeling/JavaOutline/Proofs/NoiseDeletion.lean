import JavaOutline.Proofs.Pruning
import Mathlib.Order.WellFounded
import Mathlib.Logic.Relation

/-!
# JavaOutline.Proofs.NoiseDeletion

Pruning as rewriting. A deletion takes one silent entry out of one object of a
document; an object that loses its last entry becomes silent itself, so one deletion
can make room for the next. Items of arrays are never deleted.

* `reaches_pruned`: the pruned document is reached by deletions.
* `isSettled_pruned`: nothing can be deleted from it.
* `Deletes.pruned_eq`: a deletion does not change the pruned form, so all orders of
  deletions lead to the same end.
* `Removes.entryCount_lt`: each deletion makes the document smaller, so all orders end.
-/

namespace JavaOutline.Json

/-! ## Deletions -/

/-- The values that say nothing: `false`, `[]` and `{}`. -/
inductive IsSilent : Json → Prop
  | off : IsSilent (.bool false)
  | noItems : IsSilent (.array [])
  | noEntries : IsSilent (.object [])

/-- One entry of one object, at any depth, goes, whatever its value; everything else stays
where it is. -/
inductive Removes : Json → Json → Prop
  | entry {key : String} {j : Json} (before after : List (String × Json)) :
      Removes (.object (before ++ (key, j) :: after)) (.object (before ++ after))
  | value {key : String} {j k : Json} (before after : List (String × Json)) (h : Removes j k) :
      Removes (.object (before ++ (key, j) :: after)) (.object (before ++ (key, k) :: after))
  | item {j k : Json} (before after : List Json) (h : Removes j k) :
      Removes (.array (before ++ j :: after)) (.array (before ++ k :: after))

/-- One silent entry of one object, at any depth, goes; everything else stays where it
is. -/
inductive Deletes : Json → Json → Prop
  | entry {key : String} {j : Json} (before after : List (String × Json)) (h : IsSilent j) :
      Deletes (.object (before ++ (key, j) :: after)) (.object (before ++ after))
  | value {key : String} {j k : Json} (before after : List (String × Json)) (h : Deletes j k) :
      Deletes (.object (before ++ (key, j) :: after)) (.object (before ++ (key, k) :: after))
  | item {j k : Json} (before after : List Json) (h : Deletes j k) :
      Deletes (.array (before ++ j :: after)) (.array (before ++ k :: after))

/-- A deletion is the removal of an entry. -/
theorem Deletes.removes {j k : Json} (h : Deletes j k) : Removes j k := by
  induction h with
  | entry before after _ => exact .entry before after
  | value before after _ ih => exact .value before after ih
  | item before after _ ih => exact .item before after ih

/-- Any number of deletions, one after another. -/
abbrev Reaches : Json → Json → Prop := Relation.ReflTransGen Deletes

/-- Nothing can be deleted from the document. -/
def IsSettled (j : Json) : Prop := ∀ k, ¬ Deletes j k

/-- Noise is what is silent. -/
theorem isNoise_iff {j : Json} : isNoise j = true ↔ IsSilent j := by
  constructor
  · intro h
    cases j with
    | bool b =>
        obtain rfl : b = false := by simpa [isNoise] using h
        exact .off
    | array items =>
        obtain rfl : items = [] := by simpa [isNoise] using h
        exact .noItems
    | object entries =>
        obtain rfl : entries = [] := by simpa [isNoise] using h
        exact .noEntries
    | _ => simp [isNoise] at h
  · rintro (_ | _ | _) <;> rfl

/-- Silent values are pruned already. -/
theorem IsSilent.pruned_eq {j : Json} (h : IsSilent j) : pruned j = j := by
  cases h <;> rfl

/-! ## The way to the pruned form -/

/-- Deletions inside the value of an entry are deletions inside the object. -/
theorem Reaches.value {key : String} {j k : Json} (before after : List (String × Json))
    (h : Reaches j k) :
    Reaches (.object (before ++ (key, j) :: after)) (.object (before ++ (key, k) :: after)) :=
  Relation.ReflTransGen.lift (fun x => Json.object (before ++ (key, x) :: after))
    (fun _ _ hd => Deletes.value before after hd) _ _ h

/-- Deletions inside an item are deletions inside the array. -/
theorem Reaches.item {j k : Json} (before after : List Json) (h : Reaches j k) :
    Reaches (.array (before ++ j :: after)) (.array (before ++ k :: after)) :=
  Relation.ReflTransGen.lift (fun x => Json.array (before ++ x :: after))
    (fun _ _ hd => Deletes.item before after hd) _ _ h

mutual
/-- **The pruned form is reached by deletions**: contents first, then the entry. -/
theorem reaches_pruned : (j : Json) → Reaches j (pruned j)
  | .array items => reaches_prunedItems [] items
  | .object entries => reaches_prunedEntries [] entries
  | .null | .bool _ | .number _ | .string _ => .refl

/-- The items `before` have been pruned already. -/
theorem reaches_prunedItems : (before items : List Json) →
    Reaches (.array (before ++ items)) (.array (before ++ prunedItems items))
  | _, [] => .refl
  | before, j :: js => by
      have hitem : Reaches (.array (before ++ j :: js)) (.array (before ++ pruned j :: js)) :=
        Reaches.item before js (reaches_pruned j)
      have hrest := reaches_prunedItems (before ++ [pruned j]) js
      rw [List.append_assoc, List.append_assoc] at hrest
      exact hitem.trans hrest

/-- The entries `before` have been pruned already. -/
theorem reaches_prunedEntries : (before entries : List (String × Json)) →
    Reaches (.object (before ++ entries)) (.object (before ++ prunedEntries entries))
  | _, [] => .refl
  | before, (key, j) :: es => by
      have hvalue : Reaches (.object (before ++ (key, j) :: es))
          (.object (before ++ (key, pruned j) :: es)) :=
        Reaches.value before es (reaches_pruned j)
      rw [prunedEntries]
      split
      · next hnoise =>
        have hgone : Deletes (.object (before ++ (key, pruned j) :: es))
            (.object (before ++ es)) := Deletes.entry before es (isNoise_iff.mp hnoise)
        exact (hvalue.tail hgone).trans (reaches_prunedEntries before es)
      · have hrest := reaches_prunedEntries (before ++ [(key, pruned j)]) es
        rw [List.append_assoc, List.append_assoc] at hrest
        exact hvalue.trans hrest
end

/-! ## Nothing is left to delete -/

/-- An array is settled if its items are. -/
theorem isSettled_array {items : List Json} (h : ∀ j ∈ items, IsSettled j) :
    IsSettled (.array items) := by
  intro k hk
  cases hk with
  | item before after hd => exact h _ (by simp) _ hd

/-- An object is settled if no value in it is silent and all of them are settled. -/
theorem isSettled_object {entries : List (String × Json)}
    (h : ∀ e ∈ entries, ¬ IsSilent e.2 ∧ IsSettled e.2) : IsSettled (.object entries) := by
  intro k hk
  cases hk with
  | @entry key j before after hs => exact (h (key, j) (by simp)).1 hs
  | @value key j _ before after hd => exact (h (key, j) (by simp)).2 _ hd

mutual
/-- **Nothing can be deleted from a pruned document.** -/
theorem isSettled_pruned : (j : Json) → IsSettled (pruned j)
  | .array items => isSettled_array (isSettled_prunedItems items)
  | .object entries => isSettled_object (isSettled_prunedEntries entries)
  | .null | .bool _ | .number _ | .string _ => nofun

theorem isSettled_prunedItems : (items : List Json) → ∀ j ∈ prunedItems items, IsSettled j
  | [] => by simp [prunedItems]
  | j :: js => by
      rw [prunedItems, List.forall_mem_cons]
      exact ⟨isSettled_pruned j, isSettled_prunedItems js⟩

theorem isSettled_prunedEntries : (entries : List (String × Json)) →
    ∀ e ∈ prunedEntries entries, ¬ IsSilent e.2 ∧ IsSettled e.2
  | [] => by simp [prunedEntries]
  | (key, j) :: es => by
      rw [prunedEntries]
      split
      · exact isSettled_prunedEntries es
      · next hnoise =>
        rw [List.forall_mem_cons]
        exact ⟨⟨fun hs => hnoise (isNoise_iff.mpr hs), isSettled_pruned j⟩,
          isSettled_prunedEntries es⟩
end

/-! ## Deletions keep the pruned form -/

theorem prunedItems_append (js ks : List Json) :
    prunedItems (js ++ ks) = prunedItems js ++ prunedItems ks := by
  rw [prunedItems_eq_map, prunedItems_eq_map, prunedItems_eq_map, List.map_append]

theorem prunedEntries_append (es fs : List (String × Json)) :
    prunedEntries (es ++ fs) = prunedEntries es ++ prunedEntries fs := by
  induction es with
  | nil => rfl
  | cons e es ih =>
      obtain ⟨key, j⟩ := e
      rw [List.cons_append, prunedEntries, ih, prunedEntries]
      split
      · rfl
      · rw [List.cons_append]

/-- **A deletion does not change the pruned form.** -/
theorem Deletes.pruned_eq {j k : Json} (h : Deletes j k) : pruned k = pruned j := by
  induction h with
  | @entry key j before after hs =>
      have hnoise : isNoise (pruned j) = true := by rw [hs.pruned_eq, isNoise_iff]; exact hs
      rw [pruned, pruned, prunedEntries_append, prunedEntries_append, prunedEntries, if_pos hnoise]
  | @value key j k before after _ ih =>
      rw [pruned, pruned, prunedEntries_append, prunedEntries_append, prunedEntries, prunedEntries,
        ih]
  | @item j k before after _ ih =>
      rw [pruned, pruned, prunedItems_append, prunedItems_append, prunedItems, prunedItems, ih]

theorem Reaches.pruned_eq {j k : Json} (h : Reaches j k) : pruned k = pruned j := by
  induction h with
  | refl => rfl
  | tail _ hd ih => rw [hd.pruned_eq, ih]

/-- A document from which nothing can be deleted is its own pruned form: the way to it
has no first step. -/
theorem IsSettled.pruned_eq {j : Json} (h : IsSettled j) : pruned j = j := by
  cases (reaches_pruned j).cases_head with
  | inl heq => exact heq.symm
  | inr hstep =>
      obtain ⟨k, hd, -⟩ := hstep
      exact absurd hd (h k)

/-! ## Deletions come to an end -/

mutual
/-- How many entries the objects in a document have, at all depths together. -/
def entryCount : Json → Nat
  | .array items => itemsEntryCount items
  | .object entries => entriesEntryCount entries
  | .null | .bool _ | .number _ | .string _ => 0

/-- The entries in all items of an array. -/
def itemsEntryCount : List Json → Nat
  | [] => 0
  | j :: js => entryCount j + itemsEntryCount js

/-- The entries of an object and those in their values. -/
def entriesEntryCount : List (String × Json) → Nat
  | [] => 0
  | (_, j) :: es => 1 + entryCount j + entriesEntryCount es
end

theorem itemsEntryCount_append (js ks : List Json) :
    itemsEntryCount (js ++ ks) = itemsEntryCount js + itemsEntryCount ks := by
  induction js with
  | nil => simp [itemsEntryCount]
  | cons j js ih => simp only [List.cons_append, itemsEntryCount, ih]; omega

theorem entriesEntryCount_append (es fs : List (String × Json)) :
    entriesEntryCount (es ++ fs) = entriesEntryCount es + entriesEntryCount fs := by
  induction es with
  | nil => simp [entriesEntryCount]
  | cons e es ih => simp only [List.cons_append, entriesEntryCount, ih]; omega

/-- Where an entry goes, fewer are left. -/
theorem Removes.entryCount_lt {j k : Json} (h : Removes j k) : k.entryCount < j.entryCount := by
  induction h with
  | entry before after =>
      simp only [entryCount, entriesEntryCount_append, entriesEntryCount]
      omega
  | value before after _ ih =>
      simp only [entryCount, entriesEntryCount_append, entriesEntryCount]
      omega
  | item before after _ ih =>
      simp only [entryCount, itemsEntryCount_append, itemsEntryCount]
      omega

/-- Deletions do not go on for ever. -/
theorem wellFounded_deletes : WellFounded fun j k : Json => Deletes k j :=
  Subrelation.wf (fun h => h.removes.entryCount_lt) (measure entryCount).wf

/-! ## Pruning again and again -/

theorem prune_true (j : Json) : j.prune true = pruned j := rfl

/-- Pruning a second time changes nothing: a pruned document is settled. -/
theorem prune_prune (j : Json) (enabled : Bool) : (j.prune true).prune enabled = j.prune true := by
  cases enabled with
  | false => rfl
  | true => exact (isSettled_pruned j).pruned_eq

/-- Once pruned, a document stays as it is. -/
theorem scanl_prune_pruned (j : Json) (flags : List Bool) :
    flags.scanl prune (j.prune true) = List.replicate (flags.length + 1) (j.prune true) := by
  induction flags with
  | nil => rfl
  | cons flag flags ih =>
      rw [List.scanl_cons, prune_prune, ih, List.length_cons, List.replicate_succ (n := _ + 1)]

/-- Only the first flag that is on changes the document. -/
theorem scanl_prune (j : Json) (flags : List Bool) :
    flags.scanl prune j
      = List.replicate ((flags.takeWhile (!·)).length + 1) j
        ++ List.replicate (flags.dropWhile (!·)).length (j.prune true) := by
  induction flags with
  | nil => rfl
  | cons flag flags ih =>
      cases flag with
      | false =>
          have hsame : j.prune false = j := rfl
          rw [List.scanl_cons, hsame, ih]
          rfl
      | true =>
          rw [List.scanl_cons, scanl_prune_pruned]
          rfl

/-- **Pruning is the unique normal form of deleting what is silent**: it is reached by
deletions and allows no more of them; every order of deletions comes to an end, keeps
the pruned form on its way and arrives at it. Of several prunings in a row the first
one that is enabled does everything. -/
theorem prune_normal_form (j : Json) :
    Reaches j (j.prune true) ∧ IsSettled (j.prune true)
      ∧ (∀ k, Reaches j k → k.prune true = j.prune true)
      ∧ (∀ k, Reaches j k → IsSettled k → k = j.prune true)
      ∧ (¬ ∃ steps : Nat → Json, steps 0 = j ∧ ∀ n, Deletes (steps n) (steps (n + 1)))
      ∧ ∀ flags : List Bool, flags.scanl prune j
          = List.replicate ((flags.takeWhile (!·)).length + 1) j
            ++ List.replicate (flags.dropWhile (!·)).length (j.prune true) := by
  refine ⟨reaches_pruned j, isSettled_pruned j, fun k hk => hk.pruned_eq, fun k hk hs => ?_, ?_,
    scanl_prune j⟩
  · have hend : pruned k = pruned j := hk.pruned_eq
    rw [← hs.pruned_eq, hend, prune_true]
  · rintro ⟨steps, -, hsteps⟩
    have hwf : IsWellFounded Json fun j k => Deletes k j := ⟨wellFounded_deletes⟩
    obtain ⟨n, hn⟩ := WellFounded.not_rel_apply_succ (h := hwf) steps
    exact hn (hsteps n)

/-- Two deletions, the second one of what the first has emptied: whatever is reached on the
way keeps the pruned form, and the end of the way is that form. -/
theorem prune_normal_form_emptied :
    let j : Json := .object [("a", .object [("b", .bool false)]), ("c", .null)]
    let k : Json := .object [("a", .object []), ("c", .null)]
    let l : Json := .object [("c", .null)]
    Reaches j k ∧ k.prune true = j.prune true ∧ Reaches j l ∧ IsSettled l ∧ l = j.prune true := by
  intro j k l
  have hinner : Deletes (.object [("b", .bool false)]) (.object []) := .entry [] [] .off
  have hfirst : Deletes j k := .value [] [("c", .null)] hinner
  have hsecond : Deletes k l := .entry [] [("c", .null)] .noEntries
  have hk : Reaches j k := .single hfirst
  have hl : Reaches j l := hk.tail hsecond
  have hsettled : IsSettled l := isSettled_pruned j
  have hj := prune_normal_form j
  exact ⟨hk, hj.2.2.1 k hk, hl, hsettled, hj.2.2.2.1 l hl hsettled⟩

end JavaOutline.Json
