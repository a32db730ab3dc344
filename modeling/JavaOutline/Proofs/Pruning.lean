import JavaOutline.Json.Prune

/-!
# JavaOutline.Proofs.Pruning

What pruning leaves of a record and of a list.

Pruning acts on each entry of an object by itself: `visible?` is what it leaves
of an entry's value. Two objects with the same keys, none of them repeated, have
the same pruned form only if each key shows the same in both
(`map_visible?_eq`); two lists have it only if their items have
(`eq_of_prunedItems_map_eq`). `map_visible?_values_eq` is the first fact about
whole documents. Facts about pruned records follow from these two
without looking at pruning again.
-/

namespace JavaOutline.Json

/-! ## Items -/

/-- Items are pruned one by one, and none goes. -/
theorem prunedItems_eq_map (js : List Json) : prunedItems js = js.map pruned := by
  induction js with
  | nil => rfl
  | cons j js ih => rw [prunedItems, ih, List.map_cons]

/-! ## Entries -/

/-- What pruning leaves of the value of an entry: nothing if it is noise. -/
def visible? (j : Json) : Option Json :=
  if isNoise (pruned j) then none else some (pruned j)

/-- An entry whose value is noise goes. -/
theorem prunedEntries_cons_of_none {key : String} {j : Json} {es : List (String × Json)}
    (h : visible? j = none) : prunedEntries ((key, j) :: es) = prunedEntries es := by
  unfold visible? at h
  split at h
  · next hn => simp only [prunedEntries, hn, if_true]
  · contradiction

/-- Any other entry stays, with its pruned value. -/
theorem prunedEntries_cons_of_some {key : String} {j v : Json} {es : List (String × Json)}
    (h : visible? j = some v) : prunedEntries ((key, j) :: es) = (key, v) :: prunedEntries es := by
  unfold visible? at h
  split at h
  · contradiction
  · next hn =>
    rw [Option.some.injEq] at h
    rw [prunedEntries, if_neg hn, h]

/-- Pruning leaves some of the keys, in their order. -/
theorem keys_prunedEntries_sublist (es : List (String × Json)) :
    ((prunedEntries es).map Prod.fst).Sublist (es.map Prod.fst) := by
  induction es with
  | nil => exact .slnil
  | cons e es ih =>
      obtain ⟨key, j⟩ := e
      rw [List.map_cons]
      cases hj : visible? j with
      | none =>
          rw [prunedEntries_cons_of_none hj]
          exact ih.cons key
      | some v =>
          rw [prunedEntries_cons_of_some hj, List.map_cons]
          exact ih.cons_cons key

/-- Pruning adds no keys. -/
theorem mem_keys_of_mem_prunedEntries {key : String} {v : Json} {es : List (String × Json)}
    (h : (key, v) ∈ prunedEntries es) : key ∈ es.map Prod.fst :=
  (keys_prunedEntries_sublist es).subset (List.mem_map.mpr ⟨(key, v), h, rfl⟩)

/-- **Entries are pruned one by one**: objects with the same keys, none of them
repeated, and the same pruned form show the same under each key. -/
theorem map_visible?_eq {es fs : List (String × Json)}
    (hkeys : es.map Prod.fst = fs.map Prod.fst) (hnodup : (es.map Prod.fst).Nodup)
    (h : prunedEntries es = prunedEntries fs) :
    es.map (fun e => visible? e.2) = fs.map (fun e => visible? e.2) := by
  -- a key that one side keeps and the other drops would have to come again further back
  induction es generalizing fs with
  | nil =>
      cases fs with
      | nil => rfl
      | cons f fs => simp at hkeys
  | cons e es ih =>
      cases fs with
      | nil => simp at hkeys
      | cons f fs =>
          obtain ⟨k, x⟩ := e
          obtain ⟨k', y⟩ := f
          simp only [List.map_cons, List.cons.injEq, List.nodup_cons] at hkeys hnodup ⊢
          obtain ⟨rfl, hkeys⟩ := hkeys
          obtain ⟨hk, hnodup⟩ := hnodup
          cases hx : visible? x with
          | none =>
              rw [prunedEntries_cons_of_none hx] at h
              cases hy : visible? y with
              | none =>
                  rw [prunedEntries_cons_of_none hy] at h
                  exact ⟨rfl, ih hkeys hnodup h⟩
              | some w =>
                  rw [prunedEntries_cons_of_some hy] at h
                  have hmem : (k, w) ∈ prunedEntries es := by rw [h]; exact List.mem_cons_self
                  exact absurd (mem_keys_of_mem_prunedEntries hmem) hk
          | some v =>
              rw [prunedEntries_cons_of_some hx] at h
              cases hy : visible? y with
              | none =>
                  rw [prunedEntries_cons_of_none hy] at h
                  have hmem : (k, v) ∈ prunedEntries fs := by rw [← h]; exact List.mem_cons_self
                  rw [hkeys] at hk
                  exact absurd (mem_keys_of_mem_prunedEntries hmem) hk
              | some w =>
                  rw [prunedEntries_cons_of_some hy, List.cons.injEq, Prod.mk.injEq] at h
                  exact ⟨congrArg some h.1.2, ih hkeys hnodup h.2⟩

/-! ## Records -/

/-- The keys of an object in order; other documents have none. -/
def keys : Json → List String
  | .object entries => entries.map Prod.fst
  | _ => []

/-- The values of an object in order; other documents have none. -/
def values : Json → List Json
  | .object entries => entries.map Prod.snd
  | _ => []

/-- Records with the same keys show the same under each of them if their pruned
forms are equal. -/
theorem map_visible?_values_eq {j k : Json} (hkeys : j.keys = k.keys) (hnodup : j.keys.Nodup)
    (h : pruned j = pruned k) : j.values.map visible? = k.values.map visible? := by
  cases j with
  | object es =>
      cases k with
      | object fs =>
          rw [pruned, pruned, Json.object.injEq] at h
          have hv := map_visible?_eq hkeys hnodup h
          rw [values, values, List.map_map, List.map_map]
          exact hv
      | _ => simp [pruned] at h
  | _ =>
      cases k with
      | object fs => simp [pruned] at h
      | _ => rfl

/-! ## Values -/

/-- A flag that is left out is off. -/
@[simp] theorem visible?_bool_inj {a b : Bool} :
    visible? (.bool a) = visible? (.bool b) ↔ a = b := by
  cases a <;> cases b <;> simp [visible?, pruned, isNoise]

/-- A text always shows. -/
@[simp] theorem visible?_string_inj {s t : String} :
    visible? (.string s) = visible? (.string t) ↔ s = t := by
  simp [visible?, pruned, isNoise]

/-- A list that is left out is empty. -/
@[simp] theorem visible?_array_inj {xs ys : List Json} :
    visible? (.array xs) = visible? (.array ys) ↔ prunedItems xs = prunedItems ys := by
  simp only [visible?, pruned, isNoise]
  cases xs <;> cases ys <;> simp [prunedItems]

/-- Pruned forms of lists are equal when those of their items are. -/
theorem eq_of_prunedItems_map_eq {f : α → Json} {P : α → Prop}
    (hf : ∀ a b, P a → P b → pruned (f a) = pruned (f b) → a = b) {xs ys : List α}
    (hx : ∀ a ∈ xs, P a) (hy : ∀ b ∈ ys, P b)
    (h : prunedItems (xs.map f) = prunedItems (ys.map f)) : xs = ys := by
  induction xs generalizing ys with
  | nil =>
      cases ys with
      | nil => rfl
      | cons y ys => simp [prunedItems] at h
  | cons x xs ih =>
      cases ys with
      | nil => simp [prunedItems] at h
      | cons y ys =>
          simp only [List.map_cons, prunedItems, List.cons.injEq] at h
          have hxy : x = y := hf x y (hx x List.mem_cons_self) (hy y List.mem_cons_self) h.1
          have hrest : xs = ys :=
            ih (fun a ha => hx a (List.mem_cons_of_mem x ha))
              (fun b hb => hy b (List.mem_cons_of_mem y hb)) h.2
          rw [hxy, hrest]

/-- Lists of texts show all their texts. -/
@[simp] theorem visible?_ofTexts_inj {ss ts : List String} :
    visible? (ofTexts ss) = visible? (ofTexts ts) ↔ ss = ts := by
  rw [ofTexts, ofTexts, visible?_array_inj]
  constructor
  · intro h
    refine eq_of_prunedItems_map_eq (P := fun _ => True) ?_ (by simp) (by simp) h
    intro a b _ _ hab
    simpa [pruned] using hab
  · rintro rfl
    rfl

end JavaOutline.Json
